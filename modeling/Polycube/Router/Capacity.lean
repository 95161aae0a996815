import Polycube.Lib.Attempts
import Polycube.Lib.Bounded
import Polycube.Lib.Run
import Polycube.Router.Follows

/-!
# The routes of a bounded table

The routing table of the datapath has 256 entries, and a store that finds no place throws.  The
functions that change routes are here with that exception too; when they do not end with it, they do
what they do to an unbounded table.
-/

namespace Polycube.Router

open Lib

/-- `ROUTING_TABLE_DIM` -/
def routingTableDim : ℕ := 256

structure Filled where
  routes : List Route
  ports : Table String Port
  routingTable : Bounded (ℕ × BitVec 32) RtV routingTableDim

namespace Filled

abbrev Change := Filled → Attempt Filled String

def toRouter (s : Filled) : Router := ⟨s.routes, s.ports, s.routingTable.entry⟩

def tableSetError : String := "Table set error"

def set (k : ℕ × BitVec 32) (v : RtV) : Change := fun s =>
  match s.routingTable.set k v with
  | none => (s, .error tableSetError)
  | some table => ({ s with routingTable := table }, .ok ())

def removeKey (k : ℕ × BitVec 32) : Change := fun s =>
  match s.routingTable.remove k with
  | none => (s, .error "Table remove error")
  | some table => ({ s with routingTable := table }, .ok ())

/-- `add_active_nexthop_in_ebpf_map` -/
def addActiveNexthop (network : Cidr) (nexthop : BitVec 32) (newPathcost : BitVec 32)
    (portId : BitVec 32) : Change := fun s =>
  if hasLocal network s.routes then (s, .ok ())
  else
    let best := leastCost network s.routes (some nexthop)
    if newPathcost.toInt < best.2 then
      s.set network.key ⟨portId, nexthop, .noLocalInterface⟩
    else
      match searchPort s.toRouter (best.1.getD nexthop) with
      | .error e => (s, .error e)
      | .ok port => s.set network.key ⟨port.index, nexthop, .noLocalInterface⟩

/-- `find_new_active_nexthop` -/
def findNewActiveNexthop (network : Cidr) : Change := fun s =>
  match s.toRouter.routingTable.lookupFrom network.ip network.len.val with
  | none => (s, .error "Table get error")
  | some value =>
    if value.nexthop = network.ip then
      match newNexthop network s.routes with
      | none => s.removeKey network.key
      | some nexthop =>
        match searchPort s.toRouter nexthop with
        | .error e => (s, .error e)
        | .ok port => s.set network.key ⟨port.index, nexthop, .noLocalInterface⟩
    else (s, .ok ())

def insert (s : Filled) (r : Route) : Filled :=
  { s with routes := s.routes.orderedInsert Route.Before r }

/-- `addRoute`, with the constructor of the route. -/
def addRoute (conf : RouteConf) : Change := fun s =>
  if hasRoute conf.network (.ip conf.nexthop) s.routes then (s, .error "Route already exists")
  else
    let found :=
      match conf.iface with
      | none => searchInterface s.toRouter conf.nexthop
      | some iface => .ok iface
    match found with
    | .error e => (s, .error e)
    | .ok iface =>
      match getPort s.toRouter iface with
      | .error e => (s, .error e)
      | .ok port =>
        (s.addActiveNexthop conf.network conf.nexthop conf.pathcost port.index).andThen fun s =>
          (s.insert ⟨conf.network, .ip conf.nexthop, iface, conf.pathcost, conf.pathcostIsSet⟩,
            .ok ())

def without (s : Filled) (r : Route) : Filled :=
  { s with
    routes := s.routes.filter fun r' => ¬ (r'.network = r.network ∧ r'.nexthop = r.nexthop) }

def eraseRoute (r : Route) : Change := fun s => (s.without r).findNewActiveNexthop r.network

/-- `delRoute` and `remove_route`; the API refuses the next hop `local`. -/
def delRoute (network : Cidr) (nexthop : BitVec 32) : Change := fun s =>
  match s.routes.find? fun r => r.network == network && r.nexthop == .ip nexthop with
  | none => (s, .error "Route does not exist")
  | some r => s.eraseRoute r

/-- A route that `remove_all_routes` takes out, and its entry.  What this throws is caught. -/
def dropStatic (r : Route) (s : Filled) : Filled :=
  let s := s.without r
  let len := (bswap32 r.network.netmask).toNat
  if len ≤ 32 then
    match s.toRouter.routingTable.lookupFrom r.network.ip len with
    | none => s
    | some value =>
      if value.nexthop = r.nexthop.hop then (s.removeKey (Lpm.key len r.network.ip)).1 else s
  else s

/-- `remove_all_routes` -/
def removeAllRoutes : Change := fun s =>
  if s.routes = [] then (s, .error "No entry found in routing table")
  else ((s.routes.filter fun r => r.nexthop ≠ .loc).foldl (fun s r => dropStatic r s) s, .ok ())

/-- `add_local_route` -/
def addLocalRoute (address : Cidr) (portName : String) (portIndex : BitVec 32) : Change := fun s =>
  (s.set (Lpm.key 32 address.ip) ⟨portIndex, 0, .localInterface⟩).andThen fun s =>
    if address.len ≠ 32 then
      (s.set address.network.key ⟨portIndex, 0, .noLocalInterface⟩).andThen fun s =>
        if hasRoute address.network .loc s.routes then (s, .ok ())
        else (s.insert ⟨address.network, .loc, portName, 0, true⟩, .ok ())
    else (s, .ok ())

def eraseRoutes : List Route → Change
  | [], s => (s, .ok ())
  | r :: rs, s => (s.eraseRoute r).andThen (eraseRoutes rs)

/-- `remove_local_route` -/
def removeLocalRoute (address : Cidr) (portName : String) : Change := fun s =>
  ((s.eraseRoutes (localOf address portName s.routes)).andThen fun s =>
    s.eraseRoutes (routesVia address s.routes)).andThen fun s =>
      s.removeKey (Lpm.key 32 address.ip)

def setPort (s : Filled) (name : String) (port : Port) : Filled :=
  { s with ports := Function.update s.ports name (some port) }

def removePrimary (name : String) (port : Port) : Change := fun s =>
  match port.ip with
  | none => (s, .ok ())
  | some address => s.removeLocalRoute address name

/-- `doSetIp` -/
def doSetIp (name : String) (port : Port) (newIp : Cidr) : Change := fun s =>
  if port.ip = some newIp then (s, .ok ())
  else
    (s.removePrimary name port).andThen fun s =>
      (s.addLocalRoute newIp name port.index).andThen fun s =>
        (s.setPort name { port with ip := some newIp }, .ok ())

/-- `addSecondaryip`, with the constructor of the address. -/
def addSecondaryip (name : String) (port : Port) (address : Cidr) : Change := fun s =>
  match port.ip with
  | none => (s, .error
      "You can not add a secondary ip address to a port with no ip address")
  | some _ =>
    if port.secondaryIps.length ≥ maxSecondaryAddresses then
      (s, .error "Maximum number of secondary IPs on the port")
    else
      (s.addLocalRoute address name port.index).andThen fun s =>
        (s.setPort name (port.addSecondary address), .ok ())

/-- `delSecondaryip` -/
def delSecondaryip (name : String) (port : Port) (address : Cidr) : Change := fun s =>
  if address ∈ port.secondaryIps then
    (s.setPort name { port with secondaryIps := port.secondaryIps.erase address }).removeLocalRoute
      address name
  else (s, .error "Address does not exist (or it is not a secondary address)")

inductive Request
  | addRoute (conf : RouteConf)
  | delRoute (network : Cidr) (nexthop : BitVec 32)
  | removeAllRoutes
  | addLocalRoute (address : Cidr) (portName : String) (portIndex : BitVec 32)
  | removeLocalRoute (address : Cidr) (portName : String)
  | setIp (name : String) (ip : Cidr)
  | addSecondaryip (name : String) (address : Cidr)
  | delSecondaryip (name : String) (address : Cidr)

def onPort (name : String) (f : Port → Change) : Change := fun s =>
  match getPort s.toRouter name with
  | .ok port => f port s
  | .error e => (s, .error e)

def Request.change : Request → Change
  | .addRoute conf => Filled.addRoute conf
  | .delRoute network nexthop => Filled.delRoute network nexthop
  | .removeAllRoutes => Filled.removeAllRoutes
  | .addLocalRoute address name index => Filled.addLocalRoute address name index
  | .removeLocalRoute address name => Filled.removeLocalRoute address name
  | .setIp name ip => onPort name fun port => doSetIp name port ip
  | .addSecondaryip name address => onPort name fun port => Filled.addSecondaryip name port address
  | .delSecondaryip name address => onPort name fun port => Filled.delSecondaryip name port address

/-! ### The unbounded table -/

@[simp] theorem toRouter_routes (s : Filled) : s.toRouter.routes = s.routes := rfl

def Agrees (a : Attempt Filled String) (o : Outcome) : Prop :=
  a.2 = .error tableSetError ∨ (a.1.toRouter, a.2) = o

theorem Agrees.andThen {a : Attempt Filled String} {o : Outcome} {f : Change}
    {g : Router → Outcome} (first : Agrees a o) (next : ∀ s, Agrees (f s) (g s.toRouter)) :
    Agrees (a.andThen f) (o.andThen g) := by
  obtain ⟨s, r⟩ := a
  rcases first with full | rfl
  · obtain rfl : r = .error tableSetError := full
    exact .inl rfl
  · cases r with
    | ok u => exact next s
    | error e => exact .inr rfl

theorem agrees_set (s : Filled) (k : ℕ × BitVec 32) (v : RtV) :
    Agrees (s.set k v) (s.toRouter.set k v, .ok ()) := by
  unfold set
  cases h : s.routingTable.set k v with
  | none => exact .inl rfl
  | some table =>
    right
    unfold toRouter Router.set
    rw [Bounded.entry_of_set h]

theorem agrees_removeKey (s : Filled) (k : ℕ × BitVec 32) :
    Agrees (s.removeKey k) (s.toRouter.removeKey k) := by
  right
  unfold removeKey Router.removeKey Bounded.remove
  by_cases there : k ∈ s.routingTable.keys
  · obtain ⟨v, found⟩ := Option.ne_none_iff_exists'.1 ((s.routingTable.mem_keys k).1 there)
    have found : s.toRouter.routingTable k = some v := found
    rw [if_pos there, found]
    rfl
  · have missing : s.toRouter.routingTable k = none := by
      by_contra h
      exact there ((s.routingTable.mem_keys k).2 h)
    rw [if_neg there, missing]

theorem agrees_addActiveNexthop (s : Filled) (network : Cidr) (nexthop cost portId : BitVec 32) :
    Agrees (s.addActiveNexthop network nexthop cost portId)
      (Router.addActiveNexthop network nexthop cost portId s.toRouter) := by
  unfold addActiveNexthop Router.addActiveNexthop
  rw [toRouter_routes]
  by_cases loc : hasLocal network s.routes = true
  · rw [if_pos loc, if_pos loc]
    exact .inr rfl
  rw [if_neg loc, if_neg loc]
  by_cases better : cost.toInt < (leastCost network s.routes (some nexthop)).2
  · rw [if_pos better, if_pos better]
    exact agrees_set s _ _
  rw [if_neg better, if_neg better]
  cases searchPort s.toRouter _ with
  | error e => exact .inr rfl
  | ok port => exact agrees_set s _ _

theorem agrees_findNewActiveNexthop (s : Filled) (network : Cidr) :
    Agrees (s.findNewActiveNexthop network)
      (Router.findNewActiveNexthop network s.toRouter) := by
  unfold findNewActiveNexthop Router.findNewActiveNexthop
  cases s.toRouter.routingTable.lookupFrom network.ip network.len.val with
  | none => exact .inr rfl
  | some value =>
    dsimp only
    by_cases acts : value.nexthop = network.ip
    · rw [if_pos acts, if_pos acts, toRouter_routes, show (if hasLocal network s.routes = true
        then some 0 else (leastCost network s.routes none).1) = newNexthop network s.routes from rfl]
      cases newNexthop network s.routes with
      | none => exact agrees_removeKey s _
      | some nexthop =>
        dsimp only
        cases searchPort s.toRouter nexthop with
        | error e => exact .inr rfl
        | ok port => exact agrees_set s _ _
    · rw [if_neg acts, if_neg acts]
      exact .inr rfl

theorem agrees_addRoute (s : Filled) (conf : RouteConf) :
    Agrees (s.addRoute conf) (Router.addRoute conf s.toRouter) := by
  unfold addRoute Router.addRoute
  rw [toRouter_routes]
  by_cases there : hasRoute conf.network (.ip conf.nexthop) s.routes = true
  · rw [if_pos there, if_pos there]
    exact .inr rfl
  rw [if_neg there, if_neg there]
  have via : ∀ iface, Agrees
      (match getPort s.toRouter iface with
        | .error e => (s, .error e)
        | .ok port =>
          (s.addActiveNexthop conf.network conf.nexthop conf.pathcost port.index).andThen fun s =>
            (s.insert ⟨conf.network, .ip conf.nexthop, iface, conf.pathcost, conf.pathcostIsSet⟩,
              .ok ()))
      (match getPort s.toRouter iface with
        | .error e => (s.toRouter, .error e)
        | .ok port =>
          (Router.addActiveNexthop conf.network conf.nexthop conf.pathcost port.index
            s.toRouter).andThen fun s =>
              (s.insert ⟨conf.network, .ip conf.nexthop, iface, conf.pathcost, conf.pathcostIsSet⟩,
                .ok ())) := by
    intro iface
    cases getPort s.toRouter iface with
    | error e => exact .inr rfl
    | ok port => exact (agrees_addActiveNexthop s _ _ _ _).andThen fun _ => .inr rfl
  cases conf.iface with
  | some iface => exact via iface
  | none =>
    cases searchInterface s.toRouter conf.nexthop with
    | error e => exact .inr rfl
    | ok iface => exact via iface

theorem agrees_eraseRoute (s : Filled) (r : Route) :
    Agrees (s.eraseRoute r) (Router.eraseRoute r s.toRouter) :=
  agrees_findNewActiveNexthop (s.without r) r.network

theorem agrees_delRoute (s : Filled) (network : Cidr) (nexthop : BitVec 32) :
    Agrees (s.delRoute network nexthop) (Router.delRoute network nexthop s.toRouter) := by
  unfold delRoute Router.delRoute
  rw [toRouter_routes]
  cases s.routes.find? fun r => r.network == network && r.nexthop == .ip nexthop with
  | none => exact .inr rfl
  | some r => exact agrees_eraseRoute s r

theorem agrees_eraseRoutes (rs : List Route) (s : Filled) :
    Agrees (s.eraseRoutes rs) (Router.eraseRoutes rs s.toRouter) := by
  induction rs generalizing s with
  | nil => exact .inr rfl
  | cons r rs ih => exact (agrees_eraseRoute s r).andThen ih

theorem agrees_addLocalRoute (s : Filled) (address : Cidr) (name : String) (index : BitVec 32) :
    Agrees (s.addLocalRoute address name index)
      (Router.addLocalRoute address name index s.toRouter, .ok ()) := by
  have parts : (Router.addLocalRoute address name index s.toRouter, Except.ok ()) =
      Outcome.andThen (s.toRouter.set (Lpm.key 32 address.ip) ⟨index, 0, .localInterface⟩, .ok ())
        fun t => if address.len ≠ 32 then
            Outcome.andThen (t.set address.network.key ⟨index, 0, .noLocalInterface⟩, .ok ())
              fun t => if hasRoute address.network .loc t.routes then (t, .ok ())
                else (t.insert ⟨address.network, .loc, name, 0, true⟩, .ok ())
          else (t, .ok ()) := by
    unfold Router.addLocalRoute Outcome.andThen
    dsimp only
    split_ifs <;> rfl
  rw [parts]
  refine (agrees_set s _ _).andThen fun t => ?_
  split_ifs
  · refine (agrees_set t _ _).andThen fun t => ?_
    rw [toRouter_routes]
    split_ifs
    · exact .inr rfl
    · exact .inr rfl
  · exact .inr rfl

theorem agrees_removeLocalRoute (s : Filled) (address : Cidr) (name : String) :
    Agrees (s.removeLocalRoute address name)
      (Router.removeLocalRoute address name s.toRouter) := by
  refine Agrees.andThen (Agrees.andThen (agrees_eraseRoutes _ s) fun t => ?_) fun t => ?_
  · exact agrees_eraseRoutes _ t
  · exact agrees_removeKey t _

theorem agrees_setPort {a : Attempt Filled String} {t : Router} (h : Agrees a (t, .ok ()))
    (name : String) (port : Port) : Agrees (a.andThen fun s => (s.setPort name port, .ok ()))
      (t.setPort name port, .ok ()) :=
  h.andThen (g := fun t => (t.setPort name port, .ok ())) fun _ => .inr rfl

theorem agrees_doSetIp (s : Filled) (name : String) (port : Port) (newIp : Cidr) :
    Agrees (s.doSetIp name port newIp) (Router.doSetIp name port newIp s.toRouter) := by
  have removes : Agrees (s.removePrimary name port)
      (Router.removePrimary name port s.toRouter) := by
    unfold removePrimary Router.removePrimary
    cases port.ip with
    | none => exact .inr rfl
    | some address => exact agrees_removeLocalRoute s address name
  unfold doSetIp Router.doSetIp
  split_ifs
  · exact .inr rfl
  · exact removes.andThen fun t => agrees_setPort (agrees_addLocalRoute t newIp name port.index) ..

theorem agrees_addSecondaryip (s : Filled) (name : String) (port : Port) (address : Cidr) :
    Agrees (s.addSecondaryip name port address)
      (Router.addSecondaryip name port address s.toRouter) := by
  unfold addSecondaryip Router.addSecondaryip createSecondaryip
  cases port.ip with
  | none => exact .inr rfl
  | some ip =>
    split_ifs
    · exact .inr rfl
    · exact agrees_setPort (agrees_addLocalRoute s address name port.index) ..

theorem agrees_delSecondaryip (s : Filled) (name : String) (port : Port) (address : Cidr) :
    Agrees (s.delSecondaryip name port address)
      (Router.delSecondaryip name port address s.toRouter) := by
  unfold delSecondaryip Router.delSecondaryip
  split_ifs
  · exact agrees_removeLocalRoute (s.setPort name _) address name
  · exact .inr rfl

theorem removeKey_toRouter (s : Filled) (k : ℕ × BitVec 32) :
    (s.removeKey k).1.toRouter = (s.toRouter.removeKey k).1 := by
  rcases agrees_removeKey s k with full | same
  · unfold removeKey at full
    split at full
    · exact absurd (Except.error.inj full) (by decide)
    · cases full
  · rw [← same]

theorem toRouter_dropStatic (r : Route) (s : Filled) :
    (dropStatic r s).toRouter = Router.dropStatic r s.toRouter := by
  have left : (s.without r).toRouter = s.toRouter.without r := rfl
  unfold dropStatic Router.dropStatic
  dsimp only
  rw [← left]
  by_cases small : (bswap32 r.network.netmask).toNat ≤ 32
  · rw [if_pos small, if_pos small]
    cases (s.without r).toRouter.routingTable.lookupFrom r.network.ip
        (bswap32 r.network.netmask).toNat with
    | none => rfl
    | some value =>
      dsimp only
      by_cases active : value.nexthop = r.nexthop.hop
      · rw [if_pos active, if_pos active]
        exact removeKey_toRouter _ _
      · rw [if_neg active, if_neg active]
  · rw [if_neg small, if_neg small]

theorem agrees_removeAllRoutes (s : Filled) :
    Agrees s.removeAllRoutes (Router.removeAllRoutes s.toRouter) := by
  have drops : ∀ (rs : List Route) (t : Filled), (rs.foldl (fun s r => dropStatic r s) t).toRouter =
      rs.foldl (fun s r => Router.dropStatic r s) t.toRouter := by
    intro rs
    induction rs with
    | nil => exact fun t => rfl
    | cons r rs ih =>
      intro t
      rw [List.foldl_cons, List.foldl_cons, ih, toRouter_dropStatic]
  right
  unfold removeAllRoutes Router.removeAllRoutes
  rw [toRouter_routes]
  by_cases empty : s.routes = []
  · rw [if_pos empty, if_pos empty]
  · rw [if_neg empty, if_neg empty, drops]

theorem agrees_onPort {f : Port → Change} {g : Port → Router → Outcome} (s : Filled) (name : String)
    (h : ∀ port, Agrees (f port s) (g port s.toRouter)) :
    Agrees (s.onPort name f) (Router.onPort name g s.toRouter) := by
  unfold onPort Router.onPort
  cases getPort s.toRouter name with
  | ok port => exact h port
  | error e => exact .inr rfl

def Request.unbounded : Request → Router → Outcome
  | .addRoute conf => Router.addRoute conf
  | .delRoute network nexthop => Router.delRoute network nexthop
  | .removeAllRoutes => Router.removeAllRoutes
  | .addLocalRoute address name index => fun s => (Router.addLocalRoute address name index s, .ok ())
  | .removeLocalRoute address name => Router.removeLocalRoute address name
  | .setIp name ip => Router.onPort name fun port => Router.doSetIp name port ip
  | .addSecondaryip name address =>
    Router.onPort name fun port => Router.addSecondaryip name port address
  | .delSecondaryip name address =>
    Router.onPort name fun port => Router.delSecondaryip name port address

/-- Every request does what it does to an unbounded table, unless it finds no place. -/
theorem agrees (r : Request) (s : Filled) : Agrees (r.change s) (r.unbounded s.toRouter) := by
  cases r with
  | addRoute conf => exact agrees_addRoute s conf
  | delRoute network nexthop => exact agrees_delRoute s network nexthop
  | removeAllRoutes => exact agrees_removeAllRoutes s
  | addLocalRoute address name index => exact agrees_addLocalRoute s address name index
  | removeLocalRoute address name => exact agrees_removeLocalRoute s address name
  | setIp name ip => exact agrees_onPort s name fun port => agrees_doSetIp s name port ip
  | addSecondaryip name address =>
    exact agrees_onPort s name fun port => agrees_addSecondaryip s name port address
  | delSecondaryip name address =>
    exact agrees_onPort s name fun port => agrees_delSecondaryip s name port address

def step (s : Filled) (r : Request) : Filled := (r.change s).1

def Fits (s : Filled) (r : Request) : Prop := (r.change s).2 ≠ .error tableSetError

/-- As long as every store finds a place, each request in a run of them ends as it does over an
unbounded table, and leaves what it leaves there. -/
theorem outcome_of_run (rs : List Request) {r : Request} {s : Filled}
    (fits : Meets step Fits s rs) (fit : Fits (run step s rs) r) :
    ((r.change (run step s rs)).1.toRouter, (r.change (run step s rs)).2) =
      r.unbounded (run (fun s r => (r.unbounded s).1) s.toRouter rs) := by
  induction rs generalizing s with
  | nil => exact (agrees r s).resolve_left fit
  | cons r' rs ih =>
    have same : (r'.change s).1.toRouter = (r'.unbounded s.toRouter).1 :=
      congrArg Prod.fst ((agrees r' s).resolve_left fits.1)
    rw [run_cons, run_cons, ← same]
    exact ih fits.2 fit

def noPorts : Filled := ⟨[], fun _ => none, Bounded.empty⟩

def hostRoute : Request := .addLocalRoute ⟨0x0A000001, 24⟩ "eth0" 1

theorem outcome_of_run_local :
    ((Request.change .removeAllRoutes (run step noPorts [hostRoute])).1.toRouter,
        (Request.change .removeAllRoutes (run step noPorts [hostRoute])).2) =
      Request.unbounded .removeAllRoutes
        (run (fun s r => (r.unbounded s).1) noPorts.toRouter [hostRoute]) :=
  outcome_of_run [hostRoute]
    ⟨by
      show Except.ok () ≠ _
      nofun, trivial⟩
    (by
      show Except.ok () ≠ _
      nofun)

end Filled

end Polycube.Router
