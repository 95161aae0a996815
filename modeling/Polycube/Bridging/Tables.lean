import Mathlib
import Polycube.Lib.HashTable

/-!
# The bridge

The objects that hold the configuration of a bridge, and the tables that its datapath reads.
-/

namespace Polycube.Bridging

open Lib

abbrev Vlan := BitVec 16
abbrev Mac := BitVec 48

instance Vlan.lawfulBEq : LawfulBEq Vlan := inferInstance

def vlanWildcard : Vlan := 0#16

/-- `PortsModeEnum`, and the modes of the datapath. -/
inductive PortsMode
  | access | trunk
  deriving DecidableEq

inductive StpState
  | disabled | listening | learning | forwarding | blocking
  deriving DecidableEq

/-- `stp_forward_in_state`, of the library and of the datapath. -/
def StpState.forwards : StpState → Bool
  | disabled | forwarding => true
  | listening | learning | blocking => false

/-- `stp_learn_in_state` -/
def StpState.learns : StpState → Bool
  | disabled | learning | forwarding => true
  | listening | blocking => false

/-- A value of `ports`. -/
structure PortEntry where
  mode : PortsMode
  nativeVlan : Vlan
  nativeVlanEnabled : Bool
  deriving DecidableEq

structure PortVlanValue where
  vlan : Vlan
  stpState : StpState
  deriving DecidableEq

/-- `entry_type` -/
inductive EntryType
  | static | dynamic
  deriving DecidableEq

structure FwdEntry where
  timestamp : BitVec 32
  port : ℕ
  type : EntryType
  deriving DecidableEq

/-- `fwd_key` -/
abbrev FwdKey := Vlan × Mac

abbrev FwdMap := HashTable FwdKey FwdEntry 1024

structure Tables where
  ports : ℕ → Option PortEntry
  portVlan : ℕ → Vlan → Option PortVlanValue

/-- The keys that `port_vlan` has an entry for. -/
def Tables.entries (t : Tables) : Set (ℕ × Vlan) := {k | (t.portVlan k.1 k.2).isSome}

structure PortsTrunk where
  allowed : List Vlan
  nativeVlanEnabled : Bool
  nativeVlan : Vlan
  deriving DecidableEq

/-- The `PortsAccess` or the `PortsTrunk` of a port, by its mode. -/
inductive Link
  | access (vlanId : Vlan)
  | trunk (t : PortsTrunk)
  deriving DecidableEq

structure Ports where
  name : String
  index : ℕ
  link : Link
  /-- the VLANs that the port has a `PortsStp` for -/
  stps : List Vlan
  deriving DecidableEq

/-- An instance of the STP library: the state of each port number, and the ports whose state has
changed. -/
structure StpInstance where
  state : ℕ → StpState
  stateChanged : ℕ → Bool

/-- A `Stp` with its library instance. -/
structure Stp where
  counter : ℕ
  lib : StpInstance

structure Bridge where
  stpEnabled : Bool
  ports : List Ports
  stps : Vlan → Option Stp
  tables : Tables

def Link.entry : Link → PortEntry
  | .access _ => ⟨.access, 1#16, true⟩
  | .trunk t => ⟨.trunk, t.nativeVlan, t.nativeVlanEnabled⟩

def Link.vlanAt : Link → Vlan → Option Vlan
  | .access vlanId, key => if key = vlanWildcard then some vlanId else none
  | .trunk t, key => if key ∈ t.allowed then some key else none

def Link.vlans : Link → List Vlan
  | .access vlanId => [vlanId]
  | .trunk t => t.allowed

/-- The VLANs in the keys of its entries. -/
def Link.keys : Link → List Vlan
  | .access _ => [vlanWildcard]
  | .trunk t => t.allowed

theorem Link.mem_keys_of_vlanAt {link : Link} {key : Vlan} (h : (link.vlanAt key).isSome) :
    key ∈ link.keys := by
  cases link with
  | access vlanId => simpa [vlanAt, keys] using h
  | trunk t => simpa [vlanAt, keys] using h

namespace Bridge

/-- `get_port`, by name and by index. -/
def portNamed (b : Bridge) (name : String) : Option Ports := findKey Ports.name name b.ports

def portAt (b : Bridge) (index : ℕ) : Option Ports := findKey Ports.index index b.ports

/-- Each port has its mode and native VLAN in `ports` and exactly its VLANs in `port_vlan`, and
nothing else is there. -/
structure Mirrors (b : Bridge) : Prop where
  ports : ∀ index, b.tables.ports index = (b.portAt index).map (·.link.entry)
  portVlan : ∀ index key,
    (b.tables.portVlan index key).map (·.vlan) = (b.portAt index).bind (·.link.vlanAt key)

structure Distinct (b : Bridge) : Prop where
  names : (b.ports.map Ports.name).Nodup
  indices : (b.ports.map Ports.index).Nodup

end Bridge

end Polycube.Bridging
