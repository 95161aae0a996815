import Mathlib.Data.List.Basic
import Polycube.Lib.Table

/-!
# Peers of ports

A port is linked to another port or to a network interface.  `setPeer` is `Port::set_peer`: it
takes down the link there is and looks the new peer up.  A link to a port is made only when that
port has asked for this one, which is read off `portsToPorts`: the first peer each port ever asked
for.  Cubes, their ports and the network interfaces do not change.  What an operation calls outside
may throw, and leaves it half done.
-/

namespace Polycube.Polycubed

open Function Lib

structure PortId where
  cube : String
  name : String
  deriving DecidableEq

/-- `cube:port` -/
def PortId.path (p : PortId) : String := p.cube ++ ":" ++ p.name

inductive PortType
  | tc | xdp
  deriving DecidableEq

inductive Cube
  | transparent
  | standard (ports : String → Option PortType)

def Cube.port : Cube → String → Option PortType
  | .transparent, _ => none
  | .standard ports, name => ports name

structure Topology where
  cubes : String → Option Cube
  availableIfaces : String → Bool
  /-- the kernel takes no interface name with a colon -/
  iface_no_colon : ∀ name, availableIfaces name = true → ':' ∉ name.toList
  /-- paths tell ports apart -/
  path_inj : ∀ p q : PortId,
    ((cubes p.cube).bind (·.port p.name)).isSome → ((cubes q.cube).bind (·.port q.name)).isSome →
      p.path = q.path → p = q

inductive PeerIface
  | port (p : PortId)
  | iface (name : String)
  deriving DecidableEq

structure Peers where
  peer : PortId → String
  link : PeerIface → Option PeerIface
  portsToPorts : Table String String

/-- What is thrown by the calls of one change of a peer: the subscriptions to parameters of an
interface end and begin, an end of a link is told of its peer and has its programs compiled, loaded
and attached, and the record of the port is written. -/
structure Calls where
  unsubscribe : Option String
  setPeerIface : PeerIface → Option PeerIface → Option String
  subscribe : Option String
  updatePortPeer : Option String

def Calls.quiet : Calls := ⟨none, fun _ _ => none, none, none⟩

/-- How an operation ends.  `hangs` is a thread that locks a mutex it holds. -/
inductive Result
  | returned (s : Peers)
  | threw (err : String) (s : Peers)
  | hangs

namespace Result

def andThen (r : Result) (f : Peers → Result) : Result :=
  match r with
  | returned s => f s
  | threw err s => threw err s
  | hangs => hangs

end Result

def lastColon : List Char → Option (List Char × List Char)
  | [] => none
  | c :: cs =>
    match lastColon cs with
    | some (cube, port) => some (c :: cube, port)
    | none => if c = ':' ∧ cs ≠ [] then some ([], cs) else none

/-- `(\S+):(\S+)`, the first group as long as possible. -/
def parsePeerName (peer : String) : Option (String × String) :=
  if peer.toList.any Char.isWhitespace then none
  else
    match lastColon peer.toList with
    | none => none
    | some (cube, port) => if cube = [] then none else some (.ofList cube, .ofList port)

namespace Topology

variable (t : Topology)

def portType (p : PortId) : Option PortType := (t.cubes p.cube).bind (·.port p.name)

def getPort (cube port noCube : String) : Except String PortId :=
  match t.cubes cube with
  | none => .error noCube
  | some .transparent => .error "Bad cube type"
  | some (.standard ports) =>
    match ports port with
    | none => .error ("Port " ++ port ++ " does not exist")
    | some _ => .ok ⟨cube, port⟩

def findPort (peerName : String) : Except String PortId :=
  match parsePeerName peerName with
  | none => .error ("Interface  " ++ peerName ++ " does not exist or is down")
  | some (cube, port) => t.getPort cube port ("Cube " ++ cube ++ " does not exist")

end Topology

/-! ### Operations -/

namespace Peers

def fresh : Peers := ⟨fun _ => "", fun _ => none, fun _ => none⟩

def call (err : Option String) (s : Peers) : Result :=
  match err with
  | none => .returned s
  | some err => .threw err s

/-- `set_peer_iface`: the peer is written first. -/
def setPeerIface (o : Calls) (a : PeerIface) (b : Option PeerIface) (s : Peers) : Result :=
  call (o.setPeerIface a b) { s with link := update s.link a b }

/-- `Port::connect` -/
def connect (o : Calls) (p₁ p₂ : PeerIface) (s : Peers) : Result :=
  (s.setPeerIface o p₁ (some p₂)).andThen (setPeerIface o p₂ (some p₁))

/-- `Port::unconnect` -/
def unconnect (o : Calls) (p₁ p₂ : PeerIface) (s : Peers) : Result :=
  (s.setPeerIface o p₁ none).andThen (setPeerIface o p₂ none)

/-- `ports_to_ports.emplace`: an entry that is there stays. -/
def emplace (s : Peers) (path peer : String) : Peers :=
  { s with
    portsToPorts :=
      update s.portsToPorts path ((s.portsToPorts path).or (some peer)) }

def clear (o : Calls) (p : PortId) (s : Peers) : Result :=
  match s.link (.port p) with
  | none => .returned s
  | some old => s.unconnect o (.port p) old

def onIface (s : Peers) (p : PortId) (err : Option String) : Option String :=
  match s.link (.port p) with
  | some (.iface _) => err
  | _ => none

variable (t : Topology)

/-- `ServiceController::set_port_peer`.  Linking a port to itself locks its mutex twice. -/
def setPortPeer (o : Calls) (p : PortId) (peerName : String) (s : Peers) : Result :=
  (s.clear o p).andThen fun s =>
    if peerName = "" then .returned s
    else if t.availableIfaces peerName then
      if (s.link (.iface peerName)).isSome then .threw "Iface already in use" s
      else s.connect o (.port p) (.iface peerName)
    else
      match t.findPort peerName with
      | .error err => .threw err s
      | .ok q =>
        if t.portType p ≠ t.portType q then
          .threw "It is not possible to connect TC and XDP ports" s
        else
          let s := s.emplace p.path peerName
          if s.portsToPorts peerName = some p.path then
            if q = p then .hangs else s.connect o (.port p) (.port q)
          else .returned s

/-- `Port::set_peer` -/
def setPeer (o : Calls) (p : PortId) (peer : String) (s : Peers) : Result :=
  if s.peer p = peer then .returned s
  else
    (call (s.onIface p o.unsubscribe) s).andThen fun s =>
      (setPortPeer t o p peer s).andThen fun s =>
        let s := { s with peer := update s.peer p peer }
        call (s.onIface p o.subscribe) s

/-- `get_port_peer`; what is not the name of a port has no peer. -/
def getPortPeer (s : Peers) (name : String) : Except String String :=
  match parsePeerName name with
  | none => .ok ""
  | some (cube, port) =>
    match t.getPort cube port "Cube does not exist" with
    | .error err => .error err
    | .ok p => .ok (s.peer p)

/-- `PolycubedCore::try_to_set_peer`; it does nothing to what is not the name of a port. -/
def tryToSetPeer (o : Calls) (peer₁ peer₂ : String) (s : Peers) : Result :=
  match parsePeerName peer₁ with
  | none => .returned s
  | some (cube, port) =>
    match t.getPort cube port "Cube does not exist" with
    | .error err => .threw err s
    | .ok p => (setPeer t o p peer₂ s).andThen (call o.updatePortPeer)

/-- `PolycubedCore::connect` -/
def connectPeers (o₁ o₂ : Calls) (peer₁ peer₂ : String) (s : Peers) : Result :=
  match getPortPeer t s peer₁ with
  | .error err => .threw err s
  | .ok ret =>
    if ret ≠ "" then .threw (peer₁ ++ " already has a peer " ++ ret) s
    else
      match getPortPeer t s peer₂ with
      | .error err => .threw err s
      | .ok ret =>
        if ret ≠ "" then .threw (peer₂ ++ " already has a peer " ++ ret) s
        else
          (tryToSetPeer t o₁ peer₁ peer₂ s).andThen fun s =>
            (tryToSetPeer t o₂ peer₂ peer₁ s).andThen fun s =>
              if (parsePeerName peer₁).isNone ∧ (parsePeerName peer₂).isNone then
                .threw "Error setting peer" s
              else .returned s

/-- `PolycubedCore::disconnect` -/
def disconnectPeers (o₁ o₂ : Calls) (peer₁ peer₂ : String) (s : Peers) : Result :=
  match getPortPeer t s peer₁ with
  | .error err => .threw err s
  | .ok ret₁ =>
    match getPortPeer t s peer₂ with
    | .error err => .threw err s
    | .ok ret₂ =>
      if ret₁ = "" ∧ ret₂ = "" ∨ ret₁ ≠ "" ∧ ret₁ ≠ peer₂ ∨ ret₂ ≠ "" ∧ ret₂ ≠ peer₁ then
        .threw (peer₁ ++ " is not connected to " ++ peer₂) s
      else
        (tryToSetPeer t o₁ peer₁ "" s).andThen (tryToSetPeer t o₂ peer₂ "")

end Peers

inductive PeerOp
  /-- on a port that exists -/
  | setPeer (p : PortId) (peer : String) (o : Calls)
  | connect (peer₁ peer₂ : String) (o₁ o₂ : Calls)
  | disconnect (peer₁ peer₂ : String) (o₁ o₂ : Calls)

def Peers.exec (t : Topology) (s : Peers) : PeerOp → Result
  | .setPeer p peer o =>
    if (t.portType p).isSome then setPeer t o p peer s
    else .threw ("Port " ++ p.name ++ " does not exist") s
  | .connect peer₁ peer₂ o₁ o₂ => connectPeers t o₁ o₂ peer₁ peer₂ s
  | .disconnect peer₁ peer₂ o₁ o₂ => disconnectPeers t o₁ o₂ peer₁ peer₂ s

/-- The state an operation leaves.  Behind one that hangs there is no state; it keeps the old. -/
def Peers.step (t : Topology) (s : Peers) (op : PeerOp) : Peers :=
  match s.exec t op with
  | .returned s' => s'
  | .threw _ s' => s'
  | .hangs => s

end Polycube.Polycubed
