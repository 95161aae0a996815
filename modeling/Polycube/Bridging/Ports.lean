import Polycube.Bridging.Tables

/-!
# Changing the configuration

The operations on ports and on STP, down to the constructors and destructors that write the tables.
An operation that throws leaves what it had done.  The ports of the STP library are in an instance
for each VLAN; a tick or a BPDU changes their states and the bridge then writes the entries of those
that have changed.
-/

namespace Polycube.Bridging

open Function Lib

/-! ### The STP library -/

namespace StpInstance

/-- `stp_create` -/
def create : StpInstance := ⟨fun _ => .disabled, fun _ => false⟩

/-- `stp_set_port_state` -/
def setPortState (s : StpInstance) (port : ℕ) (state : StpState) : StpInstance where
  state := update s.state port state
  stateChanged := if state ≠ s.state port then update s.stateChanged port true
    else s.stateChanged

/-- `stp_port_enable` -/
def enable (s : StpInstance) (port : ℕ) : StpInstance :=
  if s.state port = .disabled then s.setPortState port .blocking else s

/-- `stp_port_disable` -/
def disable (s : StpInstance) (port : ℕ) : StpInstance :=
  if s.state port ≠ .disabled then s.setPortState port .disabled else s

/-- What a tick or a BPDU does to the ports.  The protocol chooses any states, for the ports that are
enabled, and does not disable one. -/
def advance (s : StpInstance) (next : ℕ → StpState) : StpInstance where
  state := fun port =>
    if s.state port = .disabled ∨ next port = .disabled then s.state port else next port
  stateChanged := fun port =>
    s.stateChanged port ||
      !decide (s.state port = .disabled ∨ next port = .disabled ∨ next port = s.state port)

end StpInstance

namespace Bridge

/-- The `Stp` of a VLAN, made if there is none, with one more port. -/
def attached (stp : Option Stp) (index : ℕ) : Stp :=
  match stp with
  | none => ⟨1, StpInstance.create.enable index⟩
  | some stp => ⟨stp.counter + 1, stp.lib.enable index⟩

/-- The `Stp` with one port less; it goes with the last. -/
def detached (stp : Option Stp) (index : ℕ) : Option Stp :=
  match stp with
  | none => none
  | some stp => if stp.counter = 1 then none else some ⟨stp.counter - 1, stp.lib.disable index⟩

/-- The constructor of `PortsStp`. -/
def attachStp (b : Bridge) (index : ℕ) (vlan : Vlan) : Bridge :=
  { b with stps := update b.stps vlan (some (attached (b.stps vlan) index)) }

/-- The destructor of `PortsStp`. -/
def detachStp (b : Bridge) (index : ℕ) (vlan : Vlan) : Bridge :=
  { b with stps := update b.stps vlan (detached (b.stps vlan) index) }

def setPortEntry (b : Bridge) (index : ℕ) (entry : Option PortEntry) : Bridge :=
  { b with tables := { b.tables with ports := update b.tables.ports index entry } }

def setPortVlan (b : Bridge) (index : ℕ) (key : Vlan) (value : Option PortVlanValue) : Bridge :=
  { b with tables := { b.tables with
      portVlan := update b.tables.portVlan index
        (update (b.tables.portVlan index) key value) } }

end Bridge

/-! ### Ports -/

def Link.mode : Link → PortsMode
  | .access _ => .access
  | .trunk _ => .trunk

structure Work where
  bridge : Bridge
  port : Ports

abbrev PortOp := EStateM String Work Unit

namespace PortOp

def onBridge (f : Bridge → ℕ → Bridge) : PortOp :=
  modify fun w => { w with bridge := f w.bridge w.port.index }

def setLink (link : Link) : PortOp :=
  modify fun w => { w with port := { w.port with link := link } }

/-- `Ports::insertStp` -/
def insertStp (vlan : Vlan) : PortOp := do
  let w ← get
  if !w.bridge.stpEnabled then throw "STP is disabled"
  if vlan ∈ w.port.stps then
    throw "STP instance for this vlan in this port already exists"
  set { bridge := w.bridge.attachStp w.port.index vlan
        port := { w.port with stps := w.port.stps ++ [vlan] } : Work }

/-- `Ports::removeStp` -/
def removeStp (vlan : Vlan) : PortOp := do
  let w ← get
  if !w.bridge.stpEnabled then throw "STP is disabled"
  if vlan ∉ w.port.stps then
    throw "STP instance for this vlan in this port does not exist"
  set { bridge := w.bridge.detachStp w.port.index vlan
        port := { w.port with stps := w.port.stps.filter (· ≠ vlan) } : Work }

def insertStpList : List Vlan → PortOp
  | [] => pure ()
  | vlan :: vlans => do
    insertStp vlan
    insertStpList vlans

/-- `removeStpList`, and what is left of `stps_` when a port goes. -/
def removeStpList : PortOp :=
  modify fun w =>
    { bridge := w.port.stps.foldl (fun b vlan => b.detachStp w.port.index vlan) w.bridge
      port := { w.port with stps := [] } }

def invalidVlan (vlan : Vlan) : Bool := vlan = 0#16 || decide (4094#16 < vlan)

/-! #### Access ports -/

/-- `PortsAccess::setVlanid`, from the VLAN that the port has; it has none before. -/
def setVlanid (vlanId value : Vlan) : PortOp := do
  if invalidVlan value then throw "Not a valid VLAN"
  if vlanId ≠ value then
    if (← get).bridge.stpEnabled then
      if vlanId ≠ 0#16 then removeStp vlanId
      insertStp value
    onBridge fun b index => b.setPortVlan index vlanWildcard (some ⟨value, .blocking⟩)
    setLink (.access value)

/-- Runs an operation on the `PortsAccess` of the port. -/
def onAccess (op : Vlan → PortOp) : PortOp := do
  match (← get).port.link with
  | .access vlanId => op vlanId
  | .trunk _ => throw "Port is not in access mode"

/-- The destructor of `PortsAccess`. -/
def destroyAccess (vlanId : Vlan) : PortOp := do
  if (← get).bridge.stpEnabled then removeStp vlanId
  onBridge fun b index => b.setPortVlan index vlanWildcard none

/-! #### Trunk ports -/

def addAllowed (vlanid : Vlan) (t : PortsTrunk) : PortOp := do
  if vlanid ∈ t.allowed then throw "This VLAN is already allowed for this trunk port"
  if invalidVlan vlanid then throw "Not a valid VLAN"
  setLink (.trunk { t with allowed := t.allowed ++ [vlanid] })
  if (← get).bridge.stpEnabled then insertStp vlanid
  onBridge fun b index => b.setPortVlan index vlanid (some ⟨vlanid, .blocking⟩)

def delAllowed (vlanid : Vlan) (t : PortsTrunk) : PortOp := do
  if vlanid ∉ t.allowed then throw "This VLAN was not allowed in this trunk port"
  setLink (.trunk { t with allowed := t.allowed.filter (· ≠ vlanid) })
  if (← get).bridge.stpEnabled then removeStp vlanid
  onBridge fun b index => b.setPortVlan index vlanid none

/-- Runs an operation on the `PortsTrunk` of the port. -/
def onTrunk (op : PortsTrunk → PortOp) : PortOp := do
  match (← get).port.link with
  | .access _ => throw "Port is not in trunk mode"
  | .trunk t => op t

def addAllowedList : List Vlan → PortOp
  | [] => pure ()
  | vlanid :: vlans => do
    onTrunk (addAllowed vlanid)
    addAllowedList vlans

def delAllowedList : List Vlan → PortOp
  | [] => pure ()
  | vlanid :: vlans => do
    onTrunk (delAllowed vlanid)
    delAllowedList vlans

def replaceAllowed (vlanid value : Vlan) : PortOp := do
  onTrunk (delAllowed vlanid)
  onTrunk (addAllowed value)

def setNativeVlanEnabled (value : Bool) (t : PortsTrunk) : PortOp := do
  if t.nativeVlanEnabled ≠ value then
    onBridge fun b index => b.setPortEntry index (some ⟨.trunk, t.nativeVlan, value⟩)
    setLink (.trunk { t with nativeVlanEnabled := value })

def setNativeVlan (value : Vlan) (t : PortsTrunk) : PortOp := do
  if !t.nativeVlanEnabled then throw "Native vlan is not enabled"
  if invalidVlan value then throw "Not a valid VLAN"
  if t.nativeVlan ≠ value then
    onBridge fun b index => b.setPortEntry index (some ⟨.trunk, value, true⟩)
    setLink (.trunk { t with nativeVlan := value })

structure TrunkConf where
  allowed : List Vlan
  nativeVlanEnabled : Bool
  nativeVlan : Vlan
  deriving DecidableEq

/-- What `native_vlan_enabled_` and `native_vlan_` hold before they are set: they have no initial
value. -/
structure Uninitialised where
  nativeVlanEnabled : Bool
  nativeVlan : Vlan
  deriving DecidableEq

/-- The native VLAN, in the constructor of `PortsTrunk`. -/
def setNative (conf : TrunkConf) : PortOp := do
  onTrunk (setNativeVlanEnabled conf.nativeVlanEnabled)
  onTrunk fun t => if t.nativeVlanEnabled then setNativeVlan conf.nativeVlan t else pure ()

/-- The constructor of `PortsTrunk`. -/
def createTrunk (conf : TrunkConf) (junk : Uninitialised) : PortOp := do
  setLink (.trunk ⟨[], junk.nativeVlanEnabled, junk.nativeVlan⟩)
  addAllowedList conf.allowed
  -- `insertAllowed`
  try onTrunk (addAllowed 1#16) catch _ => pure ()
  setNative conf

/-- The constructor of `PortsAccess`. -/
def createAccess (vlanid : Vlan) : PortOp := do
  setLink (.access 0#16)
  setVlanid 0#16 vlanid

/-- `removeAccess` or `removeTrunk`, by the mode. -/
def destroyLink : PortOp := do
  match (← get).port.link with
  | .access vlanId => destroyAccess vlanId
  | .trunk t => delAllowedList t.allowed

/-! #### Ports -/

inductive LinkConf
  | access (vlanid : Vlan)
  | trunk (conf : TrunkConf)
  deriving DecidableEq

def LinkConf.mode : LinkConf → PortsMode
  | access _ => .access
  | trunk _ => .trunk

def createLink (conf : LinkConf) (junk : Uninitialised) : PortOp :=
  match conf with
  | .access vlanid => createAccess vlanid
  | .trunk conf => createTrunk conf junk

/-- The constructor of `Ports`. -/
def create (conf : LinkConf) (stp : List Vlan) (junk : Uninitialised) : PortOp := do
  insertStpList stp
  onBridge fun b index => b.setPortEntry index (some ⟨conf.mode, 1#16, true⟩)
  createLink conf junk

/-- The destructor of `Ports`. -/
def destroy : PortOp := do
  destroyLink
  onBridge fun b index => b.setPortEntry index none
  removeStpList

def setMode (value : PortsMode) (junk : Uninitialised) : PortOp := do
  if (← get).port.link.mode ≠ value then
    destroyLink
    createLink (match value with | .access => .access 1#16 | .trunk => .trunk ⟨[], true, 1#16⟩) junk
    onBridge fun b index => b.setPortEntry index (some ⟨value, 1#16, true⟩)

/-- `Ports::setStpEnabled` -/
def setStpEnabled : PortOp := do
  match (← get).port.link with
  | .access vlanId => insertStp vlanId
  | .trunk t => insertStpList (t.allowed.filter (· ≠ 0#16))

end PortOp

end Polycube.Bridging
