import Mathlib.Data.BitVec
import Polycube.Lib.Linking
import Polycube.Lib.OrdMap
import Polycube.Polycubed.Peers

/-!
# Service chains

Transparent cubes are attached to the ports of cubes and to network interfaces, in a list.  Their
programs are chained by the index of the next one: towards the port or the stack those with an
ingress program, the other way those with an egress program.  `updateIndexes` links the chains of
an end anew, `setNextIndex` moves the end of a chain when the other end of a link changes.

Behind the last program of a port is what `updateForwardingTable` wrote for it: an entry of the map
of peers and of the code generated from `forward_chain_`.  Where the source does what has no
defined behaviour (reads a list out of range, follows a null pointer, locks a mutex twice), the
operation has no state behind it.
-/

namespace Polycube.Polycubed

open Function Lib

inductive ProgramType
  | ingress | egress
  deriving DecidableEq

/-- The index of a program in the patch panel, the id of a port, or that of a network device. -/
abbrev Index := BitVec 16

@[ext] structure PortRef where
  cube : String
  id : Index
  deriving DecidableEq

/-- A `PeerIface`: a port or a network interface. -/
inductive ChainEnd
  | port (p : PortRef)
  | iface (e : String)
  deriving DecidableEq

/-- What a program hands a packet on to: the program with an index (0 is none, 0xffff lets the
packet pass) or a network device. -/
structure Hop where
  next : Index
  netdev : Bool
  deriving DecidableEq

structure Programs where
  /-- `get_index`: 0 when the cube has no such program -/
  index : String → ProgramType → Index
  type : String → PortType
  serviceName : String → String
  /-- `cube:port` -/
  path : PortRef → String
  ifindex : String → BitVec 32
  /-- a patch panel has room for 1024 programs -/
  index_lt : ∀ cube type, (index cube type).toNat < 1024

/-- A transparent cube: what its programs hand on to.  One of type XDP has a second egress program,
for packets of the kernel; for one of type TC both are the same. -/
structure TransparentCube where
  ingressNext : Index
  egressNext : Hop
  egressNextTc : Hop
  parent : Option ChainEnd
  deriving DecidableEq

/-- A port, with the entry its cube has for it in `egress_next` and `egress_next_xdp`. -/
structure CubePort where
  cubes : List String
  portIndex : Index
  /-- `peer_port_` -/
  peer : Option ChainEnd
  /-- `peer_`, what `set_peer` was given last -/
  peerName : Option ChainEnd
  egressNext : Index
  egressNextXdp : Hop
  deriving DecidableEq

/-- A network interface.  `known` tells that it is in `ports_to_ifaces`. -/
structure ExtIface where
  known : Bool
  type : PortType
  cubes : List String
  peer : Option PortRef
  index : Index
  ingressNext : Index
  ingressPort : Index
  egressNext : Index
  egressPort : Index
  deriving DecidableEq

/-- What is behind a port: the id of a port in the higher half, in the lower half the index of a
program or of a network device. -/
structure Entry where
  info : BitVec 32
  isNetdev : Bool
  deriving DecidableEq

def Entry.next (e : Entry) : Index := e.info.setWidth 16

def Entry.port (e : Entry) : Index := (e.info >>> 16).setWidth 16

structure Chains where
  ports : PortRef → CubePort
  ifaces : String → ExtIface
  cubes : String → TransparentCube
  /-- of each cube -/
  forwardChain : String → OrdMap ℕ Entry
  /-- `_POLYCUBE_peers` of each cube -/
  peers : String → Table ℕ Entry

namespace Programs

variable (c : Programs)

def has (type : ProgramType) (cube : String) : Bool := c.index cube type ≠ 0

/-- An interface hands its index out as a `uint16_t`. -/
def getPortId : ChainEnd → Index
  | .port p => p.id
  | .iface e => (c.ifindex e).setWidth 16

def calculateIndex (p : PortRef) (cubes : List String) : Index :=
  match cubes.reverse.find? (c.has .ingress) with
  | some cube => c.index cube .ingress
  | none => c.index p.cube .ingress

end Programs

/-- A new `ExtIface`. -/
def ExtIface.fresh (type : PortType) : ExtIface :=
  ⟨true, type, [], none, 0xffff, 0xffff, 0, 0xffff, 0⟩

namespace Chains

def setPort (p : PortRef) (f : CubePort → CubePort) (s : Chains) : Chains :=
  { s with ports := update s.ports p (f (s.ports p)) }

def setIface (e : String) (f : ExtIface → ExtIface) (s : Chains) : Chains :=
  { s with ifaces := update s.ifaces e (f (s.ifaces e)) }

def setCube (cube : String) (f : TransparentCube → TransparentCube) (s : Chains) : Chains :=
  { s with cubes := update s.cubes cube (f (s.cubes cube)) }

def getIndex (s : Chains) : ChainEnd → Index
  | .port p => (s.ports p).portIndex
  | .iface e => (s.ifaces e).index

def cubesOf (s : Chains) : ChainEnd → List String
  | .port p => (s.ports p).cubes
  | .iface e => (s.ifaces e).cubes

def setCubesOf (x : ChainEnd) (cubes : List String) : Chains → Chains :=
  match x with
  | .port p => setPort p fun t => { t with cubes := cubes }
  | .iface e => setIface e fun t => { t with cubes := cubes }

section Relinking

variable (c : Programs)

/-- `TransparentCube::set_next` for an ingress program. -/
def setIngressNext (cube : String) (next : Index) : Chains → Chains :=
  setCube cube fun t => { t with ingressNext := next }

/-- `TransparentCube::set_next` for an egress program. -/
def setEgressNext (cube : String) (hop : Hop) : Chains → Chains :=
  setCube cube fun t => { t with egressNext := hop, egressNextTc := hop }

/-- `TransparentCubeXDP::set_egress_next` -/
def setEgressNextXdp (cube : String) (xdp tc : Hop) : Chains → Chains :=
  setCube cube fun t => { t with egressNext := xdp, egressNextTc := tc }

/-- `Cube::update_forwarding_table` -/
def updateForwardingTable (cube : String) (port : ℕ) (next : BitVec 32) (isNetdev : Bool)
    (s : Chains) : Chains :=
  if next ≠ 0 then
    { s with
      forwardChain := update s.forwardChain cube
        ((s.forwardChain cube).assign port ⟨next, isNetdev⟩)
      peers := update s.peers cube
        (update (s.peers cube) port (some ⟨next, isNetdev⟩)) }
  else
    { s with
      forwardChain := update s.forwardChain cube ((s.forwardChain cube).erase port)
      peers := update s.peers cube (update (s.peers cube) port none) }

/-- `next | id << 16` -/
def packed (next id : Index) : BitVec 32 := next.setWidth 32 ||| (id.setWidth 32 <<< (16 : ℕ))

def idBehind (p : PortRef) (s : Chains) : Index :=
  match (s.ports p).peer with
  | some (.port q) => q.id
  | _ => p.id

/-- `Port::update_parent_fwd_table` -/
def updateParentFwdTable (p : PortRef) (hop : Hop) (s : Chains) : Chains :=
  s.updateForwardingTable p.cube p.id.toNat (packed hop.next (s.idBehind p)) hop.netdev

def hopTo (e : ChainEnd) (index : Index) : Hop :=
  if index = 0xffff then ⟨c.getPortId e, true⟩ else ⟨index, false⟩

/-- `Port::set_next_index`: a new end for the egress chain, which the other end of the link asks
for. -/
def setNextIndexPort (p : PortRef) (index : Index) (s : Chains) : Option Chains :=
  if index = 0 then some s
  else
    -- a network device needs the peer to be known
    let hop :=
      if index = 0xffff then (s.ports p).peer.map (hopTo c · index) else some ⟨index, false⟩
    hop.map fun hop =>
      match (s.ports p).cubes.reverse.find? (c.has .egress) with
      | some cube => s.setEgressNext cube hop
      | none => s.updateParentFwdTable p hop

/-- `ExtIface::set_next` for the ingress program of the interface. -/
def setNextIngress (e : String) (next : Index) : Chains → Chains :=
  setIface e fun t =>
    { t with ingressNext := next, ingressPort := (t.peer.map PortRef.id).getD 0 }

/-- `ExtIface::set_next` for the egress program of the interface. -/
def setNextEgress (e : String) (next : Index) : Chains → Chains :=
  setIface e fun t =>
    { t with egressNext := next, egressPort := (t.peer.map PortRef.id).getD 0 }

/-- `ExtIface::set_next_index`: a new end for the ingress chain.  The loop starts at the last cube
and counts upwards, so it reads the list out of range when that one has no ingress program. -/
def setNextIndexIface (e : String) (index : Index) (s : Chains) : Option Chains :=
  let cubes := (s.ifaces e).cubes
  if cubes = [] then some (s.setNextIngress e index)
  else
    ((cubes.drop (cubes.length - 1)).find? (c.has .ingress)).map (s.setIngressNext · index)

def setNextIndex (x : ChainEnd) (index : Index) (s : Chains) : Option Chains :=
  match x with
  | .port p => s.setNextIndexPort c p index
  | .iface e => s.setNextIndexIface c e index

def linkIngressPort (p : PortRef) (s : Chains) : Chains :=
  let linked := relink (c.has .ingress) (c.index · .ingress) setIngressNext (s.ports p).cubes
    (c.index p.cube .ingress) s
  linked.1.setPort p fun t => { t with portIndex := linked.2 }

/-- The peer of a port is told where the ingress chain starts.  A port that is its own peer locks
a mutex that is held. -/
def tellPeer (p : PortRef) (s : Chains) : Option Chains :=
  match (s.ports p).peer with
  | none => some s
  | some x => if x = .port p then none else s.setNextIndex c x (s.ports p).portIndex

def peerHop (p : PortRef) (s : Chains) : Hop :=
  match (s.ports p).peer with
  | none => ⟨0, false⟩
  | some x => hopTo c x (s.getIndex x)

def linkEgressPort (p : PortRef) (s : Chains) : Chains :=
  let linked := relink (c.has .egress) (fun cube => ⟨c.index cube .egress, false⟩) setEgressNext
    (s.ports p).cubes.reverse (s.peerHop c p) s
  linked.1.updateParentFwdTable p linked.2

/-- `Port::update_indexes` -/
def updateIndexesPort (p : PortRef) (s : Chains) : Option Chains :=
  ((s.linkIngressPort c p).tellPeer c p).map (linkEgressPort c p)

/-- `set_parent_egress_next` of a port: behind an interface the XDP program of the parent has to
redirect the packet, the TC one to let it pass. -/
def setParentEgressNext (p : PortRef) (index : Index) (s : Chains) : Option Chains :=
  match c.type p.cube with
  | .tc => some (s.setPort p fun t => { t with egressNext := index })
  | .xdp =>
    if index = 0xffff then
      (s.ports p).peer.map fun x =>
        s.setPort p fun t =>
          { t with egressNext := 0xffff, egressNextXdp := ⟨c.getPortId x, true⟩ }
    else
      some (s.setPort p fun t => { t with egressNext := index, egressNextXdp := ⟨index, false⟩ })

def egressParent (e : String) (s : Chains) : Option PortRef :=
  (s.ifaces e).peer.filter fun p => c.index p.cube .egress ≠ 0

def ingressEnd (e : String) (s : Chains) : Index :=
  match (s.ifaces e).peer with
  | none => 0xffff
  | some p => (s.ports p).portIndex

def linkIngress (e : String) (s : Chains) : Chains :=
  let linked := relink (c.has .ingress) (c.index · .ingress) setIngressNext
    (s.ifaces e).cubes.reverse (s.ingressEnd e) s
  linked.1.setNextIngress e linked.2

/-- `ExtIface::update_indexes`.  An egress program of the peer's cube is the beginning of the
chain: egress <- cubes[0] <- ... <- cubes[N-1] <- (peer_egress) <- iface. -/
def updateIndexesTc (e : String) (s : Chains) : Option Chains :=
  let linked := relink (c.has .egress) (fun cube => ⟨c.index cube .egress, false⟩) setEgressNext
    (s.ifaces e).cubes ⟨0xffff, false⟩ (s.linkIngress c e)
  match s.egressParent c e with
  | none => some (linked.1.setNextEgress e linked.2.next)
  | some p =>
    (linked.1.setParentEgressNext c p linked.2.next).map
      (setNextEgress e (c.index p.cube .egress))

/-- How far the egress chain of an interface of type XDP is linked: `first` tells that no program
is in it yet. -/
structure Linking where
  first : Bool
  next : Index
  chains : Chains

def linkEgressXdp (e : String) : List String → Linking → Option Linking
  | [], l => some l
  | cube :: cubes, l =>
    if c.has .egress cube then
      if l.first then
        if c.type cube = .xdp then
          linkEgressXdp e cubes ⟨false, c.index cube .egress,
            l.chains.setEgressNextXdp cube ⟨c.getPortId (.iface e), true⟩ ⟨0xffff, false⟩⟩
        else none
      else
        linkEgressXdp e cubes ⟨false, c.index cube .egress,
          l.chains.setEgressNext cube ⟨l.next, false⟩⟩
    else linkEgressXdp e cubes l

def linkEgressParent (e : String) (l : Linking) : Option Linking :=
  match l.chains.egressParent c e with
  | none => some l
  | some p =>
    (l.chains.setParentEgressNext c p (if l.first then 0xffff else l.next)).map
      (⟨false, c.index p.cube .egress, ·⟩)

def tellPort (e : String) (next : Index) (s : Chains) : Option Chains :=
  match (s.ifaces e).peer with
  | none => some s
  | some p => if (s.ifaces e).index ≠ next then s.setNextIndexPort c p next else some s

/-- `ExtIfaceXDP::update_indexes` -/
def updateIndexesXdp (e : String) (s : Chains) : Option Chains :=
  ((linkEgressXdp c e (s.ifaces e).cubes ⟨true, 0xffff, s.linkIngress c e⟩).bind
    (linkEgressParent c e)).bind fun l =>
      ((l.chains.setNextEgress e (if l.first then 0xffff else l.next)).tellPort c e l.next).map
        (setIface e fun t => { t with index := l.next })

def updateIndexes (x : ChainEnd) (s : Chains) : Option Chains :=
  match x with
  | .port p => s.updateIndexesPort c p
  | .iface e =>
    match (s.ifaces e).type with
    | .tc => s.updateIndexesTc c e
    | .xdp => s.updateIndexesXdp c e

/-- `Port::set_peer_iface` -/
def setPeerOfPort (p : PortRef) (peer : Option ChainEnd) (s : Chains) : Option Chains :=
  (s.setPort p fun t => { t with peer := peer }).updateIndexes c (.port p)

/-- `ExtIface::set_peer_iface` -/
def setPeerOfIface (e : String) (peer : Option PortRef) (s : Chains) : Option Chains :=
  (s.setIface e fun t => { t with peer := peer }).updateIndexes c (.iface e)

def setPeerIface (x : ChainEnd) (p : Option PortRef) (s : Chains) : Option Chains :=
  match x with
  | .port q => s.setPeerOfPort c q (p.map .port)
  | .iface e => s.setPeerOfIface c e p

/-- `Port::connect` -/
def connect (p : PortRef) (x : ChainEnd) (s : Chains) : Option Chains :=
  (s.setPeerOfPort c p (some x)).bind (·.setPeerIface c x (some p))

/-- `Port::unconnect` -/
def unconnect (p : PortRef) (x : ChainEnd) (s : Chains) : Option Chains :=
  (s.setPeerOfPort c p none).bind (·.setPeerIface c x none)

end Relinking

end Chains

inductive Placing
  | at (i : ℕ)
  | throws (err : String)
  /-- an index that was never set, or one behind the end of the list -/
  | undefined
  deriving DecidableEq

inductive Outcome
  | returned (s : Chains)
  | threw (err : String) (s : Chains)
  | undefined

namespace Chains

section Operations

variable (c : Programs)

/-- `nat` is the innermost service. -/
def positions : List String := ["nat", "ddosmitigator"]

/-- `compare_position`; none for `UNKOWN`. -/
def comparePosition (service service' : String) : Option Ordering :=
  if service ∈ positions ∧ service' ∈ positions ∧ service ≠ service' then
    some (compare (positions.idxOf service) (positions.idxOf service'))
  else none

/-- The first loop of `add_cube`: behind the last cube that has to be before this one. -/
def autoFront (service : String) : List String → ℕ → ℕ → ℕ × Bool
  | [], _, index => (index, true)
  | cube :: cubes, i, index =>
    match comparePosition service (c.serviceName cube) with
    | some .gt => autoFront service cubes (i + 1) (i + 1)
    | some _ => autoFront service cubes (i + 1) index
    | none => (index, false)

def autoBack (service : String) : List String → ℕ → Option ℕ
  | [], index => some index
  | cube :: cubes, index =>
    match comparePosition service (c.serviceName cube) with
    | some .lt => autoBack service cubes cubes.length
    | some _ => autoBack service cubes index
    | none => none

/-- The position for `add_cube`. -/
def placeCube (cube position other : String) (cubes : List String) : Placing :=
  if other ≠ "" ∧ cubes = [] then .throws "Cube doesn't exist"
  else if position = "auto" then
    match autoFront c (c.serviceName cube) cubes 0 0 with
    | (index, true) => .at index
    | (index, false) =>
      match autoBack c (c.serviceName cube) cubes.reverse index with
      | some index => .at index
      | none => .throws "Impossible to determine auto position"
  else if position = "first" then .at 0
  else if position = "last" then .at cubes.length
  else if position = "before" then
    -- the length of the list when there is no such cube
    if other = "" then .undefined else .at (cubes.idxOf other)
  else if position = "after" then
    if other = "" ∨ other ∉ cubes then .undefined else .at (cubes.idxOf other + 1)
  else .at 0

/-- `add_cube` and `set_parent`. -/
def addCube (cube : String) (x : ChainEnd) (position other : String) (s : Chains) : Outcome :=
  match placeCube c cube position other (s.cubesOf x) with
  | .throws err => .threw err s
  | .undefined => .undefined
  | .at i =>
    match (s.setCubesOf x ((s.cubesOf x).insertIdx i cube)).updateIndexes c x with
    | none => .undefined
    | some s' => .returned (s'.setCube cube fun t => { t with parent := some x })

/-- `ports_to_ifaces` gets an interface that is not in it. -/
def create (e : String) (type : PortType) (s : Chains) : Chains :=
  if (s.ifaces e).known then s else s.setIface e fun _ => ExtIface.fresh type

/-- `is_used` -/
def isUsed (s : Chains) (e : String) : Bool := (s.ifaces e).cubes ≠ [] || (s.ifaces e).peer.isSome

/-- An interface that is not used any more is removed from `ports_to_ifaces`. -/
def release (e : String) (s : Chains) : Chains :=
  if s.isUsed e then s else s.setIface e fun t => { t with known := false }

/-- `PolycubedCore::attach` -/
def attach (cube : String) (x : ChainEnd) (position other : String) (s : Chains) : Outcome :=
  if (s.cubes cube).parent ≠ none then .threw ("Cube " ++ cube ++ " is already attached") s
  else
    match x with
    | .port p =>
      if c.type cube ≠ c.type p.cube then
        .threw (cube ++ " and " ++ c.path p ++ " have incompatible types") s
      else s.addCube c cube x position other
    | .iface e => (s.create e (c.type cube)).addCube c cube x position other

/-- `remove_cube` -/
def removeCube (cube : String) (x : ChainEnd) (s : Chains) : Outcome :=
  if cube ∈ s.cubesOf x then
    match (s.setCubesOf x ((s.cubesOf x).erase cube)).updateIndexes c x with
    | none => .undefined
    | some s' => .returned s'
  else .threw "Cube doesn't exist" s

/-- `PolycubedCore::detach` -/
def detach (cube : String) (x : ChainEnd) (s : Chains) : Outcome :=
  let removed :=
    match x with
    | .port _ => s.removeCube c cube x
    | .iface e =>
      if (s.ifaces e).known then
        match s.removeCube c cube x with
        | .returned s' => .returned (s'.release e)
        | r => r
      else .threw ("netdev " ++ e ++ " not found") s
  match removed with
  | .returned s' => .returned (s'.setCube cube fun t => { t with parent := none })
  | r => r

def clearPeer (p : PortRef) (s : Chains) : Option Chains :=
  match (s.ports p).peer with
  | none => some s
  | some (.port q) => s.unconnect c p (.port q)
  | some (.iface e) => (s.unconnect c p (.iface e)).map (release e)

/-- `ServiceController::set_port_peer`.  A port is linked to one that has asked for it (`asked`); an
interface has to be free. -/
def setPortPeer (p : PortRef) (peer : Option ChainEnd) (asked : Bool) (s : Chains) : Outcome :=
  match s.clearPeer c p, peer with
  | none, _ => .undefined
  | some s₁, none => .returned s₁
  | some s₁, some (.iface e) =>
    if (s₁.ifaces e).known ∧ (s₁.ifaces e).peer.isSome then .threw "Iface already in use" s₁
    else
      match (s₁.create e (c.type p.cube)).connect c p (.iface e) with
      | none => .undefined
      | some s₂ => .returned s₂
  | some s₁, some (.port q) =>
    if c.type p.cube ≠ c.type q.cube then
      .threw "It is not possible to connect TC and XDP ports" s₁
    else if asked then
      match s₁.connect c p (.port q) with
      | none => .undefined
      | some s₂ => .returned s₂
    else .returned s₁

def setName (p : PortRef) (peer : Option ChainEnd) : Chains → Chains :=
  setPort p fun t => { t with peerName := peer }

/-- `Port::set_peer`.  The name of the peer may be an old one: the other port has taken the link
down, or the last peer was refused. -/
def setPeer (p : PortRef) (peer : Option ChainEnd) (asked : Bool) (s : Chains) : Outcome :=
  if (s.ports p).peerName = peer then .returned s
  else
    match s.setPortPeer c p peer asked with
    | .returned s' => .returned (s'.setName p peer)
    | r => r

end Operations

end Chains

inductive ChainOp
  | attach (cube : String) (x : ChainEnd) (position other : String)
  | detach (cube : String) (x : ChainEnd)
  | setPeer (p : PortRef) (peer : Option ChainEnd) (asked : Bool)
  deriving DecidableEq

namespace Chains

variable (c : Programs)

def exec (s : Chains) : ChainOp → Outcome
  | .attach cube x position other => s.attach c cube x position other
  | .detach cube x => s.detach c cube x
  | .setPeer p peer asked => s.setPeer c p peer asked

/-- The state an operation leaves; behind undefined behaviour it keeps the old one. -/
def step (s : Chains) (op : ChainOp) : Chains :=
  match s.exec c op with
  | .returned s' => s'
  | .threw _ s' => s'
  | .undefined => s

/-- Nothing is attached and nothing linked.  `port_index_` is not initialised. -/
def fresh (portIndex : PortRef → Index) : Chains where
  ports p := ⟨[], portIndex p, none, none, 0, ⟨0, false⟩⟩
  ifaces _ := { ExtIface.fresh .tc with known := false }
  cubes _ := ⟨0, ⟨0, false⟩, ⟨0, false⟩, none⟩
  forwardChain _ := []
  peers _ _ := none

end Chains

inductive Redirected
  | device (ifindex : Index)
  | program (index inPort : Index)
  | dropped
  deriving DecidableEq

/-- What the datapath does with an entry.  A tail call to an index with no program (`present`) goes
on behind the call. -/
def Entry.follow (present : Index → Bool) (e : Entry) : Option Redirected :=
  if e.isNetdev then some (.device e.next)
  else if present e.next then some (.program e.next e.port)
  else none

/-- `_MAX_OPTIMIZED_PORTS` -/
def maxOptimizedPorts : ℕ := 17

/-- The cases `get_redirect_code` generates: those of the first ports. -/
def redirectCode (forwardChain : OrdMap ℕ Entry) : OrdMap ℕ Entry :=
  forwardChain.take maxOptimizedPorts

/-- `forward` of a TC cube and `pcn_pkt_redirect` of an XDP one: the generated switch, and the map
of peers behind it. -/
def forward (present : Index → Bool) (cases : OrdMap ℕ Entry) (peers : Table ℕ Entry)
    (outPort : ℕ) : Redirected :=
  match (cases.get outPort).bind (Entry.follow present) with
  | some r => r
  | none => ((peers outPort).bind (Entry.follow present)).getD .dropped

end Polycube.Polycubed
