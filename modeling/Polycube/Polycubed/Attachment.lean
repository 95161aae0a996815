import Mathlib
import Polycube.Lib.Throwing
import Polycube.Polycubed.Chains

/-!
# Attaching transparent cubes

`PolycubedCore::attach` and `detach`, with what happens when ports, network interfaces and cubes are
destroyed.  A transparent cube has a pointer to its parent, a port or a network interface, and that
has a list of pointers to its cubes.  A pointer to an object that is not there any more is
dangling; to follow it has no defined behaviour.

The steps of a request that depend on something else (programs are compiled, the service of a cube
is called back, the configuration is recorded) return or throw as given.
-/

namespace Polycube.Polycubed.Attachment

open Function

open Lib

inductive Target
  | port (path : String)
  | iface (name : String)
  deriving DecidableEq

structure CubeRef where
  name : String
  uuid : ℕ
  deriving DecidableEq

/-- A pointer to a port or a network interface; `number` tells apart those that have been there
under one name. -/
structure PeerRef where
  target : Target
  number : ℕ
  deriving DecidableEq

structure TransparentCube where
  uuid : ℕ
  type : PortType
  serviceName : String
  parent : Option PeerRef
  /-- the parameters in `subscription_list` -/
  subscriptionList : List String

def TransparentCube.withParameters (parameters : List String) (c : TransparentCube) :
    TransparentCube :=
  { c with subscriptionList := parameters }

/-- A `PeerIface`.  For a network interface, `linked` tells that `peer_` is set. -/
structure PeerIface where
  number : ℕ
  type : PortType
  cubes : List CubeRef
  linked : Bool

/-- Where a callback is kept: by the core under `cube:port:parameter`, or by a network interface
under the parameter in capitals. -/
inductive Slot
  | port (outerKey : String)
  | iface (name parameter : String)
  deriving DecidableEq

def Slot.keptBy : Slot → Target → Bool
  | .iface name _, .iface e => name = e
  | _, _ => false

/-- The objects there are.  `callbacks` has the slots with the uuids of the callers. -/
structure Daemon where
  cubes : Table String TransparentCube
  peers : Table Target PeerIface
  callbacks : Slot × ℕ → Bool
  next : ℕ

namespace Daemon

def start : Daemon := ⟨fun _ => none, fun _ => none, fun _ => false, 0⟩

def cube (s : Daemon) (x : CubeRef) : Option TransparentCube :=
  (s.cubes x.name).filter fun c => c.uuid = x.uuid

def peer (s : Daemon) (r : PeerRef) : Option PeerIface :=
  (s.peers r.target).filter fun p => p.number = r.number

def setCube (name : String) (c : Option TransparentCube) (s : Daemon) : Daemon :=
  { s with cubes := update s.cubes name c }

def setPeer (t : Target) (p : Option PeerIface) (s : Daemon) : Daemon :=
  { s with peers := update s.peers t p }

def setCallback (slot : Slot) (caller : ℕ) (present : Bool) (s : Daemon) : Daemon :=
  { s with callbacks := update s.callbacks (slot, caller) present }

section

variable (s : Daemon) (name : String) (c : Option TransparentCube) (t : Target)
  (p : Option PeerIface)

@[simp] theorem cubes_setCube : (s.setCube name c).cubes = update s.cubes name c := rfl

@[simp] theorem peers_setCube : (s.setCube name c).peers = s.peers := rfl

@[simp] theorem callbacks_setCube : (s.setCube name c).callbacks = s.callbacks := rfl

@[simp] theorem peers_setPeer : (s.setPeer t p).peers = update s.peers t p := rfl

end

def createCube (name : String) (type : PortType) (serviceName : String) (s : Daemon) : Daemon :=
  { s.setCube name (some ⟨s.next, type, serviceName, none, []⟩) with next := s.next + 1 }

def createPeer (t : Target) (type : PortType) (s : Daemon) : Daemon :=
  { s.setPeer t (some ⟨s.next, type, [], false⟩) with next := s.next + 1 }

def orphan (names : List String) (s : Daemon) : Daemon :=
  { s with cubes := fun name => (s.cubes name).map fun c =>
      if name ∈ names then { c with parent := none } else c }

def forget (t : Target) (s : Daemon) : Daemon :=
  { s with callbacks := fun k => s.callbacks k && !k.1.keptBy t }

/-- An interface that is not used any more is removed from `ports_to_ifaces`. -/
def release (t : Target) (s : Daemon) : Daemon :=
  match t, s.peers t with
  | .iface e, some p =>
    if p.cubes = [] ∧ p.linked = false then (s.setPeer (.iface e) none).forget (.iface e) else s
  | _, _ => s

def Alive (s : Daemon) (cubes : List CubeRef) : Prop := ∀ x ∈ cubes, (s.cube x).isSome

instance (s : Daemon) (cubes : List CubeRef) : Decidable (s.Alive cubes) :=
  inferInstanceAs (Decidable (∀ x ∈ cubes, (s.cube x).isSome))

/-- `get_service_name` -/
def serviceName (s : Daemon) (x : CubeRef) : String :=
  ((s.cube x).map TransparentCube.serviceName).getD ""

end Daemon

/-- An exception, or behaviour that is not defined: a dangling pointer is followed, a list is
accessed out of range, or a destructor throws. -/
inductive Failure
  | thrown (message : String)
  | undefined
  deriving DecidableEq

abbrev Core := EStateM Failure Daemon

def found {α : Type} (e : Failure) : Option α → Core α
  | some a => pure a
  | none => throw e

def refuse (c : Prop) [Decidable c] (e : Failure) : Core Unit := if c then throw e else pure ()

def raise : Option String → Core Unit
  | some message => throw (.thrown message)
  | none => pure ()

/-- `update_indexes`, which may also read a list out of range (`ExtIface::set_next_index`). -/
def updateIndexes : Option Failure → Core Unit
  | some e => throw e
  | none => pure ()

def position : Placing → Core ℕ
  | .at i => pure i
  | .throws message => throw (.thrown message)
  | .undefined => throw .undefined

section

variable {α : Type} (e : Failure) (a : α) (message : String) (i : ℕ)

@[simp] theorem found_some : found e (some a) = pure a := rfl

@[simp] theorem raise_none : raise none = pure () := rfl

@[simp] theorem updateIndexes_none : updateIndexes none = pure () := rfl

theorem wp_refuse {c : Prop} [Decidable c] {s : Daemon} {ok : Unit → Daemon → Prop}
    {err : Failure → Daemon → Prop} :
    wp (refuse c e) ok err s ↔ if c then err e s else ok () s := by
  unfold refuse
  rw [wp_ite]
  rfl

@[simp] theorem position_at : position (.at i) = pure i := rfl

@[simp] theorem position_throws : position (.throws message) = throw (.thrown message) := rfl

end

structure Walk where
  keys : List String → List String
  perm : ∀ l, (keys l).Perm l

/-- How the steps of a request end: `none` returns, and a message is thrown. -/
structure Outside where
  /-- the constructor of an interface -/
  construct : Option String
  /-- `update_indexes` -/
  relink : Option Failure
  /-- `attach_` -/
  attached : Option String
  /-- the first notification about a parameter -/
  notify : String → Option String
  walk : Walk
  /-- `UpdatePortTCubes` -/
  record : Option String

def toUpper (parameter : String) : String := String.ofList (parameter.toList.map Char.toUpper)

def slot : Target → String → Slot
  | .port path, parameter => .port (path ++ ":" ++ parameter)
  | .iface name, parameter => .iface name (toUpper parameter)

def available : Target → String → Bool
  | .port _, _ => true
  | .iface _, parameter => toUpper parameter = "MAC" || toUpper parameter = "IP"

def notAvailable (parameter : String) : String :=
  "parameter " ++ toUpper parameter ++ " not available"

/-- `subscribe_parameter`.  The first notification follows when the callback is there. -/
def subscribeParameter (t : Target) (caller : ℕ) (notify : String → Option String)
    (parameter : String) : Core Unit := do
  refuse (available t parameter = false) (.thrown (notAvailable parameter))
  modify (Daemon.setCallback (slot t parameter) caller true)
  raise (notify parameter)

def noSubscription : Target → String → String
  | .port _, parameter => "there is not subscription for " ++ parameter
  | .iface _, parameter => "there was no subscription for the parameter " ++ toUpper parameter

/-- `unsubscribe_parameter` -/
def unsubscribeParameter (t : Target) (caller : ℕ) (parameter : String) : Core Unit := do
  refuse (available t parameter = false) (.thrown (notAvailable parameter))
  let s ← get
  refuse (s.callbacks (slot t parameter, caller) = false)
    (.thrown (noSubscription t parameter))
  modify (Daemon.setCallback (slot t parameter) caller false)

def subscribeAll (t : Target) (caller : ℕ) (notify : String → Option String) :
    List String → Core Unit
  | [] => pure ()
  | parameter :: parameters => do
    subscribeParameter t caller notify parameter
    subscribeAll t caller notify parameters

theorem index_lt (_ : String) (_ : ProgramType) : (0 : Index).toNat < 1024 := by decide

def byService : Programs := ⟨fun _ _ => 0, fun _ => .tc, id, fun _ => "", fun _ => 0, index_lt⟩

/-- The position for `add_cube`: `auto` compares the services of the cubes, the others their
names. -/
def place (s : Daemon) (serviceName position other : String) (cubes : List CubeRef) : Placing :=
  Chains.placeCube byService serviceName position other
    (if position = "auto" then cubes.map s.serviceName else cubes.map CubeRef.name)

/-- `PeerIface::add_cube` -/
def addCube (x : CubeRef) (serviceName pos other : String) (t : Target)
    (relink : Option Failure) : Core ℕ := do
  let s ← get
  let p ← found .undefined (s.peers t)
  refuse (¬ s.Alive p.cubes) .undefined
  let i ← position (place s serviceName pos other p.cubes)
  modify (Daemon.setPeer t (some { p with cubes := p.cubes.insertIdx i x }))
  updateIndexes relink
  pure i

/-- `PeerIface::remove_cube` -/
def removeCube (name : String) (t : Target) (relink : Option Failure) : Core Unit := do
  let s ← get
  let p ← found .undefined (s.peers t)
  refuse (¬ s.Alive p.cubes) .undefined
  refuse (name ∉ p.cubes.map CubeRef.name) (.thrown "Cube doesn't exist")
  modify (Daemon.setPeer t (some { p with cubes := p.cubes.eraseP fun x => x.name = name }))
  updateIndexes relink

/-- `TransparentCube::set_parent`, for a parent that is there. -/
def setParent (name : String) (c : TransparentCube) (r : PeerRef) (o : Outside) : Core Unit := do
  modify (Daemon.setCube name (some { c with parent := some r }))
  raise o.attached
  subscribeAll r.target c.uuid o.notify (o.walk.keys c.subscriptionList)

def recording : Target → Option String → Option String
  | .port _, message => message
  | .iface _, _ => none

/-! ### Requests -/

def noCube (name : String) : Failure := .thrown ("Cube " ++ name ++ " does not exist")

def noTarget : Target → Failure
  | .port path => .thrown ("Port " ++ path ++ " does not exist")
  | .iface name => .thrown ("netdev " ++ name ++ " not found")

def incompatible (name path : String) : Failure :=
  .thrown (name ++ " and " ++ path ++ " have incompatible types")

/-- The target of `attach`: a port that is there and fits, or an interface, which is created if it
is not there. -/
def reach (name : String) (type : PortType) (construct : Option String) : Target → Core Unit
  | .port path => do
    let s ← get
    let p ← found (noTarget (.port path)) (s.peers (.port path))
    refuse (p.type ≠ type) (incompatible name path)
  | .iface e => do
    let s ← get
    if (s.peers (.iface e)).isNone then
      raise construct
      modify (Daemon.createPeer (.iface e) type)

/-- `PolycubedCore::attach` up to the configuration, with the position in the list.  The name of a
cube that is not transparent is refused like one that there is not. -/
def attachTo (name : String) (t : Target) (pos other : String) (o : Outside) : Core ℕ := do
  let s ← get
  let c ← found (noCube name) (s.cubes name)
  refuse (c.parent.isSome) (.thrown ("Cube " ++ name ++ " is already attached"))
  reach name c.type o.construct t
  let i ← addCube ⟨name, c.uuid⟩ c.serviceName pos other t o.relink
  let s ← get
  let p ← found .undefined (s.peers t)
  setParent name c ⟨t, p.number⟩ o
  pure i

def attach (name : String) (t : Target) (pos other : String) (o : Outside) : Core Unit := do
  let _ ← attachTo name t pos other o
  raise (recording t o.record)

/-- `PolycubedCore::detach` up to the configuration. -/
def detachFrom (name : String) (t : Target) (relink : Option Failure) : Core Unit := do
  let s ← get
  let c ← found (noCube name) (s.cubes name)
  let _ ← found (noTarget t) (s.peers t)
  removeCube name t relink
  modify (Daemon.release t)
  modify (Daemon.setCube name (some { c with parent := none }))

def detach (name : String) (t : Target) (o : Outside) : Core Unit := do
  detachFrom name t o.relink
  raise (recording t o.record)

def atParent (f : PeerRef → Core Unit) : Option PeerRef → Core Unit
  | none => pure ()
  | some r => do
    let s ← get
    let _ ← found .undefined (s.peer r)
    f r

/-- A cube is destroyed: `TransparentCube::uninit`, which a destructor calls. -/
def destroyCube (name : String) (relink : Option Failure) : Core Unit := do
  let s ← get
  let c ← found (noCube name) (s.cubes name)
  atParent (fun r => tryCatch (removeCube name r.target relink) fun _ => throw .undefined) c.parent
  modify (Daemon.setCube name none)

/-- A port or a network interface is destroyed: `PeerIface::~PeerIface`. -/
def destroyPeer (t : Target) : Core Unit := do
  let s ← get
  let p ← found (noTarget t) (s.peers t)
  refuse (¬ s.Alive p.cubes) .undefined
  modify fun s => ((s.orphan (p.cubes.map CubeRef.name)).setPeer t none).forget t

/-- `TransparentCube::subscribe_parent_parameter` -/
def subscribeParentParameter (name parameter : String) (notify : String → Option String) :
    Core Unit := do
  let s ← get
  let c ← found (noCube name) (s.cubes name)
  modify (Daemon.setCube name
    (some (c.withParameters (c.subscriptionList.insert parameter))))
  atParent (fun r => subscribeParameter r.target c.uuid notify parameter) c.parent

/-- `TransparentCube::unsubscribe_parent_parameter` -/
def unsubscribeParentParameter (name parameter : String) : Core Unit := do
  let s ← get
  let c ← found (noCube name) (s.cubes name)
  modify (Daemon.setCube name
    (some (c.withParameters (c.subscriptionList.erase parameter))))
  atParent (fun r => unsubscribeParameter r.target c.uuid parameter) c.parent

def createCube (name : String) (type : PortType) (serviceName : String) : Core Unit := do
  let s ← get
  refuse ((s.cubes name).isSome) (.thrown ("Cube " ++ name ++ " already exists"))
  modify (Daemon.createCube name type serviceName)

def createPeer (t : Target) (type : PortType) : Core Unit := do
  let s ← get
  refuse ((s.peers t).isSome) (.thrown "already exists")
  modify (Daemon.createPeer t type)

def link (t : Target) (linked : Bool) : Core Unit := do
  let s ← get
  let p ← found (noTarget t) (s.peers t)
  modify (Daemon.setPeer t (some { p with linked := linked }))

end Polycube.Polycubed.Attachment
