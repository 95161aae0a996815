import Mathlib
import Polycube.Lib.Bytes
import Polycube.Lib.Lpm
import Polycube.Lib.Run

/-!
# The router's routes

The control plane of the router has routes and ports with addresses, the datapath the prefix table
`routingTable`.  Each function that changes one of them is here as it changes both.  A function
that throws leaves them as they are at that moment.  Addresses are numbers.
-/

namespace Polycube

open Function Lib

namespace Router

/-! ### Addresses and routes -/

instance neZero33 : NeZero 33 := ⟨by decide⟩

/-- An address with a prefix length, `a.b.c.d/len`. -/
structure Cidr where
  ip : BitVec 32
  len : Fin 33
  deriving DecidableEq

/-- `get_netmask_from_prefixlength` -/
def Cidr.netmask (c : Cidr) : BitVec 32 :=
  if c.len = 0 then 0 else 0xFFFFFFFF#32 <<< (32 - c.len.val)

def Cidr.network (c : Cidr) : Cidr := ⟨c.ip &&& c.netmask, c.len⟩

def Cidr.contains (c : Cidr) (ip : BitVec 32) : Bool := ip &&& c.netmask == c.ip &&& c.netmask

def Cidr.key (c : Cidr) : ℕ × BitVec 32 := Lpm.key c.len.val c.ip

inductive Nexthop
  | loc
  | ip (a : BitVec 32)
  deriving DecidableEq

/-- The address of a next hop; a local route has `0.0.0.0`. -/
def Nexthop.hop : Nexthop → BitVec 32
  | .loc => 0
  | .ip a => a

structure Route where
  network : Cidr
  nexthop : Nexthop
  iface : String
  pathcost : BitVec 32
  pathcostIsSet : Bool
  deriving DecidableEq

inductive RtType
  | noLocalInterface | localInterface
  deriving DecidableEq

structure RtV where
  port : BitVec 32
  nexthop : BitVec 32
  type : RtType
  deriving DecidableEq

structure Port where
  index : BitVec 32
  ip : Option Cidr
  secondaryIps : List Cidr
  deriving DecidableEq

end Router

open Router in
/-- The routes are in the order of the map they are kept in, by the texts of network and next
hop. -/
structure Router where
  routes : List Route
  ports : Table String Port
  routingTable : Lpm 32 RtV

namespace Router

/-! ### Texts

The order of the routes and of the secondary addresses. -/

def ipText (a : BitVec 32) : List Char :=
  let n := a.toNat
  Nat.toDigits 10 (n / 16777216) ++ '.' :: Nat.toDigits 10 (n / 65536 % 256) ++
    '.' :: Nat.toDigits 10 (n / 256 % 256) ++ '.' :: Nat.toDigits 10 (n % 256)

def Cidr.text (c : Cidr) : List Char := ipText c.ip ++ '/' :: Nat.toDigits 10 c.len.val

def Nexthop.text : Nexthop → List Char
  | .loc => ['l', 'o', 'c', 'a', 'l']
  | .ip a => ipText a

/-- The order of `routes_`. -/
def Route.Before (r r' : Route) : Prop :=
  r.network.text < r'.network.text ∨
    (r.network.text = r'.network.text ∧ r.nexthop.text ≤ r'.nexthop.text)

instance : DecidableRel Route.Before := fun r r' => by
  unfold Route.Before
  infer_instance

abbrev Outcome := Router × Except String Unit

def Outcome.andThen (o : Outcome) (f : Router → Outcome) : Outcome :=
  match o with
  | (s, .ok ()) => f s
  | (s, .error e) => (s, .error e)

def set (s : Router) (k : ℕ × BitVec 32) (v : RtV) : Router :=
  { s with routingTable := update s.routingTable k (some v) }

def removeKey (s : Router) (k : ℕ × BitVec 32) : Outcome :=
  match s.routingTable k with
  | none => (s, .error "Table remove error")
  | some _ => ({ s with routingTable := update s.routingTable k none }, .ok ())

/-- `search_interface_from_nexthop` -/
def searchInterface (s : Router) (nexthop : BitVec 32) : Except String String :=
  match s.routes.find? fun r =>
      (r.nexthop == .loc || r.nexthop == .ip 0) && r.network.contains nexthop with
  | some r => .ok r.iface
  | none => .error "Non reacheable network"

def getPort (s : Router) (name : String) : Except String Port :=
  match s.ports name with
  | some port => .ok port
  | none => .error "Port does not exist"

/-- The port that `search_interface_from_nexthop` finds. -/
def searchPort (s : Router) (nexthop : BitVec 32) : Except String Port :=
  match searchInterface s nexthop with
  | .ok iface => getPort s iface
  | .error e => .error e

/-- `INT32_MAX` -/
def int32Max : ℕ := 2147483647

def leastCost (network : Cidr) (routes : List Route) (nexthop : Option (BitVec 32)) :
    Option (BitVec 32) × ℕ :=
  routes.foldl (fun best r =>
    if r.network = network ∧ r.pathcostIsSet ∧ r.pathcost.toNat < best.2 then
      (some r.nexthop.hop, r.pathcost.toNat)
    else best) (nexthop, int32Max)

def hasLocal (network : Cidr) (routes : List Route) : Bool :=
  routes.any fun r => r.network == network && r.nexthop == .loc

/-- `add_active_nexthop_in_ebpf_map` -/
def addActiveNexthop (network : Cidr) (nexthop : BitVec 32) (newPathcost : BitVec 32)
    (portId : BitVec 32) (s : Router) : Outcome :=
  if hasLocal network s.routes then (s, .ok ())
  else
    let best := leastCost network s.routes (some nexthop)
    if newPathcost.toInt < best.2 then
      (s.set network.key ⟨portId, nexthop, .noLocalInterface⟩, .ok ())
    else
      match searchPort s (best.1.getD nexthop) with
      | .error e => (s, .error e)
      | .ok port => (s.set network.key ⟨port.index, nexthop, .noLocalInterface⟩, .ok ())

/-- `find_new_active_nexthop` -/
def findNewActiveNexthop (network : Cidr) (s : Router) : Outcome :=
  match s.routingTable.lookupFrom network.ip network.len.val with
  | none => (s, .error "Table get error")
  | some value =>
    if value.nexthop = network.ip then
      let newNexthop :=
        if hasLocal network s.routes then some 0 else (leastCost network s.routes none).1
      match newNexthop with
      | none => s.removeKey network.key
      | some nexthop =>
        match searchPort s nexthop with
        | .error e => (s, .error e)
        | .ok port => (s.set network.key ⟨port.index, nexthop, .noLocalInterface⟩, .ok ())
    else (s, .ok ())

/-! ### Static routes -/

structure RouteConf where
  network : Cidr
  nexthop : BitVec 32
  iface : Option String
  pathcost : BitVec 32
  pathcostIsSet : Bool
  deriving DecidableEq

def insert (s : Router) (r : Route) : Router :=
  { s with routes := s.routes.orderedInsert Route.Before r }

def hasRoute (network : Cidr) (nexthop : Nexthop) (routes : List Route) : Bool :=
  routes.any fun r => r.network == network && r.nexthop == nexthop

/-- `addRoute`, with the constructor of the route. -/
def addRoute (conf : RouteConf) (s : Router) : Outcome :=
  if hasRoute conf.network (.ip conf.nexthop) s.routes then (s, .error "Route already exists")
  else
    let found :=
      match conf.iface with
      | none => searchInterface s conf.nexthop
      | some iface => .ok iface
    match found with
    | .error e => (s, .error e)
    | .ok iface =>
      match getPort s iface with
      | .error e => (s, .error e)
      | .ok port =>
        (addActiveNexthop conf.network conf.nexthop conf.pathcost port.index s).andThen fun s =>
          (s.insert ⟨conf.network, .ip conf.nexthop, iface, conf.pathcost, conf.pathcostIsSet⟩,
            .ok ())

def without (s : Router) (r : Route) : Router :=
  { s with
    routes := s.routes.filter fun r' => ¬ (r'.network = r.network ∧ r'.nexthop = r.nexthop) }

def eraseRoute (r : Route) (s : Router) : Outcome :=
  findNewActiveNexthop r.network (s.without r)

/-- `delRoute` and `remove_route`; the API refuses the next hop `local`. -/
def delRoute (network : Cidr) (nexthop : BitVec 32) (s : Router) : Outcome :=
  match s.routes.find? fun r => r.network == network && r.nexthop == .ip nexthop with
  | none => (s, .error "Route does not exist")
  | some r => eraseRoute r s

/-- A route that `remove_all_routes` takes out, and its entry.  The mask, as an address, stands
for the length of the key; of all masks it is a length of at most 32 for the empty one only. -/
def dropStatic (r : Route) (s : Router) : Router :=
  let s := s.without r
  let len := (bswap32 r.network.netmask).toNat
  if len ≤ 32 then
    match s.routingTable.lookupFrom r.network.ip len with
    | none => s
    | some value =>
      if value.nexthop = r.nexthop.hop then (s.removeKey (Lpm.key len r.network.ip)).1 else s
  else s

/-- `remove_all_routes` -/
def removeAllRoutes (s : Router) : Outcome :=
  if s.routes = [] then (s, .error "No entry found in routing table")
  else ((s.routes.filter fun r => r.nexthop ≠ .loc).foldl (fun s r => dropStatic r s) s, .ok ())

/-- `add_local_route` -/
def addLocalRoute (address : Cidr) (portName : String) (portIndex : BitVec 32) (s : Router) :
    Router :=
  let s := s.set (Lpm.key 32 address.ip) ⟨portIndex, 0, .localInterface⟩
  if address.len ≠ 32 then
    let s := s.set address.network.key ⟨portIndex, 0, .noLocalInterface⟩
    if hasRoute address.network .loc s.routes then s
    else s.insert ⟨address.network, .loc, portName, 0, true⟩
  else s

def eraseRoutes : List Route → Router → Outcome
  | [], s => (s, .ok ())
  | r :: rs, s => (eraseRoute r s).andThen (eraseRoutes rs)

def localOf (address : Cidr) (portName : String) (routes : List Route) : List Route :=
  (routes.find? fun r =>
    r.nexthop == .loc && r.iface == portName && r.network == address.network).toList

def routesVia (address : Cidr) (routes : List Route) : List Route :=
  routes.filter fun r =>
    match r.nexthop with
    | .loc => false
    | .ip nexthop => address.contains nexthop

/-- `remove_local_route` -/
def removeLocalRoute (address : Cidr) (portName : String) (s : Router) : Outcome :=
  ((eraseRoutes (localOf address portName s.routes) s).andThen fun s =>
    eraseRoutes (routesVia address s.routes) s).andThen fun s =>
      s.removeKey (Lpm.key 32 address.ip)

/-! ### Ports -/

/-- `MAX_SECONDARY_ADDRESSES` -/
def maxSecondaryAddresses : ℕ := 5

def Port.addSecondary (port : Port) (address : Cidr) : Port :=
  if address ∈ port.secondaryIps then port
  else { port with
    secondaryIps := port.secondaryIps.orderedInsert (fun a b => a.text ≤ b.text) address }

/-- The constructor of a secondary address; `port` is the port so far. -/
def createSecondaryip (name : String) (port : Port) (address : Cidr) (s : Router) :
    (Port × Router) × Except String Unit :=
  if port.secondaryIps.length ≥ maxSecondaryAddresses then
    ((port, s), .error "Maximum number of secondary IPs on the port")
  else ((port.addSecondary address, addLocalRoute address name port.index s), .ok ())

def createSecondaryips (name : String) :
    List Cidr → Port → Router → (Port × Router) × Except String Unit
  | [], port, s => ((port, s), .ok ())
  | address :: addresses, port, s =>
    match createSecondaryip name port address s with
    | ((port, s), .ok ()) => createSecondaryips name addresses port s
    | ((port, s), .error e) => ((port, s), .error e)

def setPort (s : Router) (name : String) (port : Port) : Router :=
  { s with ports := update s.ports name (some port) }

def addPrimary (name : String) (index : BitVec 32) (ip : Option Cidr) (s : Router) : Router :=
  match ip with
  | none => s
  | some address => addLocalRoute address name index s

/-- `addPorts`, with the constructor of the port; the framework gives it an index. -/
def addPorts (name : String) (index : BitVec 32) (ip : Option Cidr) (secondaryIps : List Cidr)
    (s : Router) : Outcome :=
  match s.ports name with
  | some _ => (s, .error "Port already exists")
  | none =>
    match createSecondaryips name secondaryIps ⟨index, ip, []⟩ (addPrimary name index ip s) with
    | ((port, s), .ok ()) => (s.setPort name port, .ok ())
    | ((_, s), .error e) => (s, .error e)

/-- The way back of `addPrimary`. -/
def removePrimary (name : String) (port : Port) (s : Router) : Outcome :=
  match port.ip with
  | none => (s, .ok ())
  | some address => removeLocalRoute address name s

/-- `doSetIp` -/
def doSetIp (name : String) (port : Port) (newIp : Cidr) (s : Router) : Outcome :=
  if port.ip = some newIp then (s, .ok ())
  else
    (removePrimary name port s).andThen fun s =>
      ((addLocalRoute newIp name port.index s).setPort name { port with ip := some newIp }, .ok ())

def addSecondaryip (name : String) (port : Port) (address : Cidr) (s : Router) : Outcome :=
  match port.ip with
  | none => (s, .error
      "You can not add a secondary ip address to a port with no ip address")
  | some _ =>
    match createSecondaryip name port address s with
    | ((port, s), .ok ()) => (s.setPort name port, .ok ())
    | ((_, s), .error e) => (s, .error e)

/-- `delSecondaryip` -/
def delSecondaryip (name : String) (port : Port) (address : Cidr) (s : Router) : Outcome :=
  if address ∈ port.secondaryIps then
    removeLocalRoute address name
      (s.setPort name { port with secondaryIps := port.secondaryIps.erase address })
  else (s, .error "Address does not exist (or it is not a secondary address)")

def delSecondaryips (name : String) : List Cidr → Router → Outcome
  | [], s => (s, .ok ())
  | address :: addresses, s =>
    match s.ports name with
    | none => (s, .ok ())
    | some port => (delSecondaryip name port address s).andThen (delSecondaryips name addresses)

/-- `delPorts` -/
def delPorts (name : String) (port : Port) (s : Router) : Outcome :=
  ((delSecondaryips name port.secondaryIps s).andThen (removePrimary name port)).andThen fun s =>
      ({ s with ports := update s.ports name none }, .ok ())

inductive Event
  | addRoute (conf : RouteConf)
  | delRoute (network : Cidr) (nexthop : BitVec 32)
  | removeAllRoutes
  | addPorts (name : String) (index : BitVec 32) (ip : Option Cidr) (secondaryIps : List Cidr)
  | setIp (name : String) (ip : Cidr)
  | addSecondaryip (name : String) (address : Cidr)
  | delSecondaryip (name : String) (address : Cidr)
  | delPorts (name : String)

def onPort (name : String) (f : Port → Router → Outcome) (s : Router) : Outcome :=
  match getPort s name with
  | .ok port => f port s
  | .error e => (s, .error e)

def Event.outcome : Event → Router → Outcome
  | .addRoute conf => Polycube.Router.addRoute conf
  | .delRoute network nexthop => Polycube.Router.delRoute network nexthop
  | .removeAllRoutes => Polycube.Router.removeAllRoutes
  | .addPorts name index ip secondaryIps => Polycube.Router.addPorts name index ip secondaryIps
  | .setIp name ip => onPort name fun port => doSetIp name port ip
  | .addSecondaryip name address => onPort name fun port => Polycube.Router.addSecondaryip name port address
  | .delSecondaryip name address => onPort name fun port => Polycube.Router.delSecondaryip name port address
  | .delPorts name => onPort name fun port => Polycube.Router.delPorts name port

def step (s : Router) (e : Event) : Router := (e.outcome s).1

def init : Router where
  routes := []
  ports := fun _ => none
  routingTable := fun _ => none

end Router

end Polycube
