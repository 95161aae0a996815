import Polycube.Lib.Keyed
import Polycube.Polycubed.Attachment

/-!
# The saved configuration

`CubesDump` keeps the configuration of the cubes in memory, to be saved.  It has the body each cube
was created with; the requests that connect ports and attach transparent cubes patch the peer and
the list of a port in it.  `missed` tells that a patch has failed.

Whether a link can be made and whether the service of a cube takes a configuration is given.
-/

namespace Polycube.Polycubed.Records

open Function

open Lib Attachment

structure PortConf where
  name : String
  peer : Option String
  tcubes : Option (List String)
  deriving DecidableEq

def PortConf.inPlaceOf (conf c : PortConf) : PortConf := { conf with name := c.name }

/-- The objects there are, and `cubes_config_`: the ports of each cube in it, if it has any.  `ports`
has the `peer_` of each port. -/
structure Saved where
  daemon : Daemon
  standard : String → Bool
  ports : Table PortId String
  config : Table String (Option (List PortConf))
  missed : Bool

def start : Saved := ⟨Daemon.start, fun _ => false, fun _ => none, fun _ => none, false⟩

abbrev Work := EStateM Failure Saved

def onDaemon {α : Type} (x : Core α) : Work α := fun s =>
  match x.run s.daemon with
  | .ok a d => .ok a { s with daemon := d }
  | .error e d => .error e { s with daemon := d }

def look {α : Type} (e : Failure) : Option α → Work α
  | some a => pure a
  | none => throw e

def reject (c : Prop) [Decidable c] (e : Failure) : Work Unit := if c then throw e else pure ()

def fails : Option Failure → Work Unit
  | some e => throw e
  | none => pure ()

/-- `at` of a key that is not there. -/
def noKey : Failure := .thrown "key not found"

def Saved.recordOf (s : Saved) (cube port : String) : Except Failure PortConf :=
  match s.config cube with
  | none => .error noKey
  | some none => .error noKey
  | some (some l) =>
    match findKey PortConf.name port l with
    | none => .error .undefined
    | some conf => .ok conf

def Saved.setRecord (cube port : String) (conf : PortConf) (s : Saved) : Saved :=
  { s with
    config := update s.config cube
      ((s.config cube).map (Option.map (modifyKey PortConf.name port conf.inPlaceOf))) }

def onRecord (cube port : String) (patch : PortConf → Except Failure PortConf) : Work Unit :=
  fun s =>
    match (s.recordOf cube port).bind patch with
    | .ok conf => .ok () (s.setRecord cube port conf)
    | .error e => .error e { s with missed := true }

/-- `jsonPeer.update(*portToConnect)`: what the record has wins. -/
def patchPeer (peer : String) (conf : PortConf) : Except Failure PortConf :=
  .ok { conf with peer := if peer = "" then none else some (conf.peer.getD peer) }

/-- `UpdatePortPeer` -/
def updatePortPeer (cube port peer : String) : Work Unit := onRecord cube port (patchPeer peer)

def insertTCube (tCube : String) (i : ℕ) (conf : PortConf) : Except Failure PortConf :=
  match conf.tcubes with
  | none => .ok { conf with tcubes := some [tCube] }
  | some l =>
    if i ≤ l.length then .ok { conf with tcubes := some (l.insertIdx i tCube) }
    else .error .undefined

def eraseTCube (tCube : String) (conf : PortConf) : Except Failure PortConf :=
  match conf.tcubes with
  | none => .error noKey
  | some l =>
    if tCube ∈ l then
      .ok { conf with tcubes := if l.erase tCube = [] then none else some (l.erase tCube) }
    else .error .undefined

/-- `UpdatePortTCubes`, with a position -/
def recordAttached (cube port tCube : String) (i : ℕ) : Work Unit :=
  onRecord cube port (insertTCube tCube i)

/-- `UpdatePortTCubes`, with the position -1 -/
def recordDetached (cube port tCube : String) : Work Unit := onRecord cube port (eraseTCube tCube)

/-! ### Peers -/

def getPort (cube port : String) : Work String := do
  let s ← get
  reject (s.daemon.cubes cube).isSome (.thrown "Bad cube type")
  reject (s.standard cube = false) (.thrown "Cube does not exist")
  look (.thrown ("Port " ++ port ++ " does not exist")) (s.ports ⟨cube, port⟩)

/-- `get_port_peer` -/
def getPortPeer (peer : String) : Work String :=
  match parsePeerName peer with
  | none => pure ""
  | some (cube, port) => getPort cube port

/-- What comes of a link: `ServiceController::set_port_peer`, with the subscriptions that end
before it, and the subscriptions at the new peer. -/
structure Linked where
  link : Option Failure
  subscribe : Option Failure

def Saved.withPeer (p : PortId) (peer : String) (s : Saved) : Saved :=
  { s with ports := update s.ports p (some peer) }

/-- `Port::set_peer` -/
def setPeer (p : PortId) (old peer : String) (o : Linked) : Work Unit :=
  if old = peer then pure ()
  else do
    fails o.link
    modify (Saved.withPeer p peer)
    fails (if peer = "" then none else o.subscribe)

/-- `try_to_set_peer` -/
def tryToSetPeer (peer₁ peer₂ : String) (o : Linked) : Work Bool :=
  match parsePeerName peer₁ with
  | none => pure false
  | some (cube, port) => do
    let old ← getPort cube port
    setPeer ⟨cube, port⟩ old peer₂ o
    updatePortPeer cube port peer₂
    pure true

/-- `PolycubedCore::connect` -/
def connect (peer₁ peer₂ : String) (o₁ o₂ : Linked) : Work Unit := do
  let ret₁ ← getPortPeer peer₁
  reject (ret₁ ≠ "") (.thrown (peer₁ ++ " already has a peer " ++ ret₁))
  let ret₂ ← getPortPeer peer₂
  reject (ret₂ ≠ "") (.thrown (peer₂ ++ " already has a peer " ++ ret₂))
  let set₁ ← tryToSetPeer peer₁ peer₂ o₁
  let set₂ ← tryToSetPeer peer₂ peer₁ o₂
  reject (set₁ = false ∧ set₂ = false) (.thrown "Error setting peer")

def notConnected (peer₁ peer₂ : String) : Failure :=
  .thrown (peer₁ ++ " is not connected to " ++ peer₂)

/-- `PolycubedCore::disconnect` -/
def disconnect (peer₁ peer₂ : String) (o₁ o₂ : Linked) : Work Unit := do
  let ret₁ ← getPortPeer peer₁
  let ret₂ ← getPortPeer peer₂
  reject (ret₁ = "" ∧ ret₂ = "") (notConnected peer₁ peer₂)
  reject (ret₁ ≠ "" ∧ ret₁ ≠ peer₂) (notConnected peer₁ peer₂)
  reject (ret₂ ≠ "" ∧ ret₂ ≠ peer₁) (notConnected peer₁ peer₂)
  let _ ← tryToSetPeer peer₁ "" o₁
  let _ ← tryToSetPeer peer₂ "" o₂

def targetOf (portName : String) : Target :=
  if (parsePeerName portName).isSome then .port portName else .iface portName

/-- `PolycubedCore::attach` -/
def attach (name portName pos other : String) (o : Outside) : Work Unit := do
  let i ← onDaemon (attachTo name (targetOf portName) pos other o)
  match parsePeerName portName with
  | none => pure ()
  | some (cube, port) => recordAttached cube port name i

/-- `PolycubedCore::detach` -/
def detach (name portName : String) (relink : Option Failure) : Work Unit := do
  onDaemon (detachFrom name (targetOf portName) relink)
  match parsePeerName portName with
  | none => pure ()
  | some (cube, port) => recordDetached cube port name

/-! ### Creation -/

def Saved.exists (s : Saved) (name : String) : Bool :=
  s.standard name || (s.daemon.cubes name).isSome

/-- A new port.  A request to attach finds it if its path is read back as its names. -/
def addPort (name : String) (type : PortType) (d : Daemon) (conf : PortConf) : Daemon :=
  if parsePeerName (PortId.path ⟨name, conf.name⟩) = some (name, conf.name) then
    d.createPeer (.port (PortId.path ⟨name, conf.name⟩)) type
  else d

/-- `UpdateCubesConfig` takes the name of a cube out of a path, up to the next slash. -/
def recordName (name : String) : String := .ofList (name.toList.takeWhile fun c => c ≠ '/')

def Saved.addCube (name : String) (type : PortType) (body : Option (List PortConf)) (s : Saved) :
    Saved :=
  { s with
    daemon := (body.getD []).foldl (addPort name type) s.daemon
    standard := update s.standard name true
    ports := fun p =>
      if p.cube = name then
        (findKey PortConf.name p.name (body.getD [])).map fun conf => conf.peer.getD ""
      else s.ports p
    config := update s.config (recordName name)
      (some (body.map (List.map fun conf => { conf with tcubes := none }))) }

def tCubes (name : String) (body : List PortConf) : List (String × String) :=
  (body.insertionSort fun a b => a.name ≤ b.name).flatMap fun conf =>
    (conf.tcubes.getD []).map fun tCube => (PortId.path ⟨name, conf.name⟩, tCube)

def attachAll (o : String → Outside) : List (String × String) → Work Unit
  | [] => pure ()
  | (path, tCube) :: l => do
    attach tCube path "last" "" (o tCube)
    attachAll o l

/-- `Service::CreateReplaceUpdate` for a new cube with ports.  The cube exists behind a creation that
fails only for the transparent cubes of the body, which are looked up in it all the same. -/
def createCube (name : String) (type : PortType) (body : Option (List PortConf))
    (valid created : Bool) (o : String → Outside) : Work Unit := do
  let s ← get
  if s.exists name = true ∨ valid = false then pure ()
  else if created = true ∧ ((body.getD []).map PortConf.name).Nodup then do
    modify (Saved.addCube name type body)
    attachAll o (tCubes name (body.getD []))
  else reject ((body.getD []).any fun conf => conf.tcubes.isSome) .undefined

def Saved.addTransparentCube (name : String) (type : PortType) (serviceName : String)
    (parameters : List String) (s : Saved) : Saved :=
  { s with
    daemon := { s.daemon.setCube name
      (some ⟨s.daemon.next, type, serviceName, none, parameters⟩) with next := s.daemon.next + 1 }
    config := update s.config (recordName name) (some none) }

/-- `Service::CreateReplaceUpdate` for a new transparent cube, which declares some parameters. -/
def createTransparentCube (name : String) (type : PortType) (serviceName : String)
    (parameters : List String) (valid created : Bool) : Work Unit := do
  let s ← get
  if s.exists name = true ∨ valid = false ∨ created = false then pure ()
  else modify (Saved.addTransparentCube name type serviceName parameters)

inductive Op
  | createCube (name : String) (type : PortType) (body : Option (List PortConf))
      (valid created : Bool) (o : String → Outside)
  | createTransparentCube (name : String) (type : PortType) (serviceName : String)
      (parameters : List String) (valid created : Bool)
  | connect (peer₁ peer₂ : String) (o₁ o₂ : Linked)
  | disconnect (peer₁ peer₂ : String) (o₁ o₂ : Linked)
  | attach (name portName pos other : String) (o : Outside)
  | detach (name portName : String) (relink : Option Failure)

def exec : Op → Work Unit
  | .createCube name type body valid created o => createCube name type body valid created o
  | .createTransparentCube name type serviceName parameters valid created =>
    createTransparentCube name type serviceName parameters valid created
  | .connect peer₁ peer₂ o₁ o₂ => connect peer₁ peer₂ o₁ o₂
  | .disconnect peer₁ peer₂ o₁ o₂ => disconnect peer₁ peer₂ o₁ o₂
  | .attach name portName pos other o => attach name portName pos other o
  | .detach name portName relink => detach name portName relink

def step (s : Option Saved) (op : Op) : Option Saved :=
  s.bind fun s =>
    match (exec op).run s with
    | .ok _ s' => some s'
    | .error (.thrown _) s' => some s'
    | .error .undefined _ => none

end Polycube.Polycubed.Records
