import Polycube.Iptables.FirstMatch
import Polycube.Lib.Run

/-!
# Chains and ports

The ports of the cube come and go, and their indices are given out again, while the tables of the
chains keep the indices that the interfaces of the rules had when the chain was last updated.  As
long as these indices stay those of the same interfaces (`Settled`), every packet is decided by the
first rule that matches it and its interface.
-/

namespace Polycube.Iptables

open Function Lib
open Polycube.Firewall (BitVector PacketHeaders Packet Verdict ConnStatus ConntrackstatusEnum
  Numbered Plain)

/-- `_POLYCUBE_MAX_PORTS` -/
def maxPorts : ℕ := 128

/-- The cube: its ports, the port ids that are free, the rules of the chains and what is loaded.
`resolved` has no counterpart in the code: the ports as they were when each chain was loaded. -/
structure Cube where
  ports : Ports
  free : ℕ → Bool
  rules : ChainNameEnum → List ChainRule
  datapath : Datapath
  resolved : ChainNameEnum → Ports

section Steps

variable (defaults : ChainNameEnum → DefaultAction)

def Cube.init : Cube where
  ports _ := none
  free id := id < maxPorts
  rules _ := []
  datapath := ⟨fun _ => ⟨0, []⟩, fun _ => 0, allowLogic defaults fun _ => []⟩
  resolved _ _ := none

def Cube.allocatePortId (s : Cube) : Option ℕ := (List.range maxPorts).find? s.free

/-- `Cube::add_port`.  When connecting the port to its peer throws, the id is not released. -/
def Cube.addPort (s : Cube) (name : String) (connects : Bool) : Cube :=
  if (s.ports name).isSome then s
  else
    match s.allocatePortId with
    | none => s
    | some id =>
      { s with
        free := update s.free id false
        ports := if connects then update s.ports name (some (BitVec.ofNat 16 id))
          else s.ports }

/-- `Cube::remove_port` -/
def Cube.removePort (s : Cube) (name : String) : Cube :=
  match s.ports name with
  | none => s
  | some index =>
    { s with
      free := update s.free index.toNat true
      ports := update s.ports name none }

/-- `Chain::updateChain`.  The program `ChainSelector` of the chain's direction is compiled again,
after all that can throw. -/
def Cube.updateChain (s : Cube) (name : ChainNameEnum) : Cube :=
  match loadChain name.interfaceType s.ports (s.rules name) with
  | .error _ => s
  | .ok chain =>
    { s with
      datapath :=
        { chains := update s.datapath.chains name chain
          nrElements := fun c => if c.programType = name.programType
            then Firewall.fromNRulesToNElements (s.rules c).length else s.datapath.nrElements c
          allowLogic := if name.programType = .ingress then allowLogic defaults s.rules
            else s.datapath.allowLogic }
      resolved := update s.resolved name s.ports }

inductive PortEvent
  | addPort (name : String) (connects : Bool)
  | removePort (name : String)
  | updateChain (name : ChainNameEnum) (rules : List ChainRule)

def Cube.next (s : Cube) : PortEvent → Cube
  | .addPort name connects => s.addPort name connects
  | .removePort name => s.removePort name
  | .updateChain name rules =>
    { s with rules := update s.rules name rules }.updateChain defaults name

end Steps

/-! ### Indices that stay those of their interfaces -/

def Resolved (type : InterfaceType) (compiled ports : Ports) (rules : List ChainRule) : Prop :=
  ∀ rule ∈ rules, ∀ name ∈ rule.iface type, ∃ index, compiled name = some index ∧
    ∀ other port, ports other = some port → (port = index ↔ other = name)

/-- The condition on a step.  A chain is updated with rules whose interfaces are ports, and it
loads; a new port has no index that is compiled for another interface, nor a name that is compiled
with another index. -/
def Settled (s : Cube) : PortEvent → Prop
  | .addPort name _ => ∀ id, s.allocatePortId = some id → ∀ c, ∀ rule ∈ s.rules c,
      ∀ iface ∈ rule.iface c.interfaceType, ∀ index, s.resolved c iface = some index →
        (BitVec.ofNat 16 id = index ↔ name = iface)
  | .removePort _ => True
  | .updateChain c rules => Numbered (commonRules rules) ∧ Plain (commonRules rules) ∧
      (∃ chain, loadChain c.interfaceType s.ports rules = .ok chain) ∧
      ∀ rule ∈ rules, ∀ name ∈ rule.iface c.interfaceType, (s.ports name).isSome

structure Kept (defaults : ChainNameEnum → DefaultAction) (s : Cube) : Prop where
  loads : Loads defaults s.resolved s.rules s.datapath
  plain : ∀ c, Plain (commonRules (s.rules c))
  taken : ∀ name index, s.ports name = some index →
    index.toNat < maxPorts ∧ s.free index.toNat = false
  injective : ∀ a b index, s.ports a = some index → s.ports b = some index → a = b
  resolved : ∀ c, Resolved c.interfaceType (s.resolved c) s.ports (s.rules c)

section Invariant

variable {defaults : ChainNameEnum → DefaultAction} {s : Cube}

theorem real_of_taken {ports : Ports}
    (taken : ∀ name index, ports name = some index → index.toNat < maxPorts) : Real ports := by
  intro name h
  have := taken name _ h
  revert this
  decide

theorem allocatePortId_eq_some {id : ℕ} (h : s.allocatePortId = some id) :
    id < maxPorts ∧ s.free id = true := by
  exact ⟨List.mem_range.1 (List.mem_of_find?_eq_some h), List.find?_some h⟩

theorem Kept.ports (kept : Kept defaults s) {ports : Ports} {free : ℕ → Bool}
    (taken : ∀ name index, ports name = some index →
      index.toNat < maxPorts ∧ free index.toNat = false)
    (injective : ∀ a b index, ports a = some index → ports b = some index → a = b)
    (resolved : ∀ c, Resolved c.interfaceType (s.resolved c) ports (s.rules c)) :
    Kept defaults { s with ports, free } :=
  { kept with taken, injective, resolved }

theorem Kept.removePort (kept : Kept defaults s) (name : String) :
    Kept defaults (s.removePort name) := by
  unfold Cube.removePort
  cases hport : s.ports name with
  | none => exact kept
  | some index =>
    have old : ∀ other port, update s.ports name none other = some port →
        other ≠ name ∧ s.ports other = some port := by
      intro other port h
      by_cases same : other = name
      · rw [same, update_self] at h
        cases h
      · rw [update_of_ne same] at h
        exact ⟨same, h⟩
    apply kept.ports
    · intro other port h
      obtain ⟨ne, h⟩ := old other port h
      refine ⟨(kept.taken other port h).1, ?_⟩
      rw [update_of_ne, (kept.taken other port h).2]
      intro e
      rw [BitVec.eq_of_toNat_eq e] at h
      exact ne (kept.injective other name index h hport)
    · intro a b port ha hb
      exact kept.injective a b port (old a port ha).2 (old b port hb).2
    · intro c rule hr iface hi
      obtain ⟨compiled, hcompiled, same⟩ := kept.resolved c rule hr iface hi
      exact ⟨compiled, hcompiled, fun other port h => same other port (old other port h).2⟩

theorem Kept.addPort (kept : Kept defaults s) {name : String} {connects : Bool}
    (settled : Settled s (.addPort name connects)) :
    Kept defaults (s.addPort name connects) := by
  unfold Cube.addPort
  split
  · exact kept
  next absent =>
  rw [Bool.not_eq_true, Option.isSome_eq_false_iff, Option.isNone_iff_eq_none] at absent
  cases hid : s.allocatePortId with
  | none => exact kept
  | some id =>
    obtain ⟨lt, isFree⟩ := allocatePortId_eq_some hid
    have index : (BitVec.ofNat 16 id).toNat = id := by
      rw [BitVec.toNat_ofNat]
      unfold maxPorts at lt
      omega
    have other : ∀ a port, s.ports a = some port → port.toNat ≠ id := by
      intro a port h e
      have := (kept.taken a port h).2
      rw [e, isFree] at this
      cases this
    dsimp only
    cases connects with
    | false =>
      rw [if_neg Bool.false_ne_true]
      apply kept.ports _ kept.injective kept.resolved
      intro a port h
      rw [update_of_ne (other a port h)]
      exact kept.taken a port h
    | true =>
      rw [if_pos rfl]
      have cases' : ∀ a port, update s.ports name (some (BitVec.ofNat 16 id)) a =
          some port → (a = name ∧ port = BitVec.ofNat 16 id) ∨
            (a ≠ name ∧ s.ports a = some port) := by
        intro a port h
        by_cases same : a = name
        · rw [same, update_self] at h
          exact Or.inl ⟨same, (Option.some.inj h).symm⟩
        · rw [update_of_ne same] at h
          exact Or.inr ⟨same, h⟩
      apply kept.ports
      · intro a port h
        rcases cases' a port h with ⟨-, rfl⟩ | ⟨-, h⟩
        · rw [index, update_self]
          exact ⟨lt, rfl⟩
        · rw [update_of_ne (other a port h)]
          exact kept.taken a port h
      · intro a b port ha hb
        rcases cases' a port ha with ⟨rfl, rfl⟩ | ⟨-, ha⟩
        · rcases cases' b _ hb with ⟨rfl, -⟩ | ⟨-, hb⟩
          · rfl
          · exact absurd index (other b _ hb)
        · rcases cases' b port hb with ⟨-, rfl⟩ | ⟨-, hb⟩
          · exact absurd index (other a _ ha)
          · exact kept.injective a b port ha hb
      · intro c rule hr iface hi
        obtain ⟨compiled, hcompiled, same⟩ := kept.resolved c rule hr iface hi
        refine ⟨compiled, hcompiled, fun a port h => ?_⟩
        rcases cases' a port h with ⟨rfl, rfl⟩ | ⟨-, h⟩
        · exact settled id hid c rule hr iface hi compiled hcompiled
        · exact same a port h

/-- What was said of a chain's rules holds after an update when it holds of the new rules. -/
theorem forall_update {P : ChainNameEnum → List ChainRule → Prop} {name : ChainNameEnum}
    {rules : List ChainRule} (old : ∀ c, P c (s.rules c)) (new : P name rules)
    (c : ChainNameEnum) : P c (update s.rules name rules c) := by
  by_cases same : c = name
  · rw [same, update_self]
    exact new
  · rw [update_of_ne same]
    exact old c

theorem Kept.updateChain (kept : Kept defaults s) {name : ChainNameEnum} {rules : List ChainRule}
    (settled : Settled s (.updateChain name rules)) :
    Kept defaults (s.next defaults (.updateChain name rules)) := by
  obtain ⟨numbered, plain, ⟨chain, load⟩, attached⟩ := settled
  have next : s.next defaults (.updateChain name rules) =
      { s with
        rules := update s.rules name rules
        datapath :=
          { chains := update s.datapath.chains name chain
            nrElements := fun c => if c.programType = name.programType
              then Firewall.fromNRulesToNElements (update s.rules name rules c).length
              else s.datapath.nrElements c
            allowLogic := if name.programType = .ingress
              then allowLogic defaults (update s.rules name rules)
              else s.datapath.allowLogic }
        resolved := update s.resolved name s.ports } := by
    unfold Cube.next Cube.updateChain
    dsimp only
    rw [update_self, load]
  rw [next]
  have real : Real s.ports := real_of_taken fun name index h => (kept.taken name index h).1
  refine ⟨⟨forall_update (P := fun _ rules => Numbered (commonRules rules)) kept.loads.numbered
    numbered, ?_, ?_, ?_, ?_⟩, forall_update (P := fun _ rules => Plain (commonRules rules))
    kept.plain plain, kept.taken, kept.injective, ?_⟩
  · intro c
    dsimp only
    by_cases same : c = name
    · rw [same, update_self]
      exact real
    · rw [update_of_ne same]
      exact kept.loads.real c
  · intro c
    dsimp only
    by_cases same : c = name
    · rw [same, update_self, update_self, update_self]
      exact fun _ => load
    · rw [update_of_ne same, update_of_ne same, update_of_ne same]
      exact kept.loads.loaded c
  · intro c
    dsimp only
    split
    · rfl
    next other =>
      have ne : c ≠ name := fun e => other (e ▸ rfl)
      rw [update_of_ne ne]
      exact kept.loads.elements c
  · dsimp only
    split
    · exact id
    next egress =>
      have hname : name = .output := by
        cases name with
        | input => exact absurd rfl egress
        | forward => exact absurd rfl egress
        | output => rfl
      subst hname
      exact kept.loads.allow
  · intro c
    dsimp only
    by_cases same : c = name
    · rw [same, update_self, update_self]
      intro rule hr iface hi
      obtain ⟨index, hindex⟩ := Option.isSome_iff_exists.1 (attached rule hr iface hi)
      refine ⟨index, hindex, fun other port h => ⟨fun e => ?_, fun e => ?_⟩⟩
      · exact kept.injective other iface index (e ▸ h) hindex
      · rw [e, hindex] at h
        exact (Option.some.inj h).symm
    · rw [update_of_ne same, update_of_ne same]
      exact kept.resolved c

theorem Kept.next (event : PortEvent) (kept : Kept defaults s) (settled : Settled s event) :
    Kept defaults (s.next defaults event) := by
  cases event with
  | addPort name connects => exact kept.addPort settled
  | removePort name => exact kept.removePort name
  | updateChain name rules => exact kept.updateChain settled

end Invariant

section Packets

variable {defaults : ChainNameEnum → DefaultAction} {s : Cube} {isLocal : BitVec 32 → Bool}
  {type : ProgramType} {iface : String} {port : BitVec 16} {p : Packet}

/-- The indices of a chain's rules are read as the interfaces they were compiled for. -/
theorem Resolved.reads_eq_matches {compiled ports : Ports} {itype : InterfaceType}
    {rules : List ChainRule} (resolved : Resolved itype compiled ports rules)
    (plain : Plain (commonRules rules)) (attached : ports iface = some port) {rule : ChainRule}
    (hr : rule ∈ rules) :
    rule.reads itype compiled rules p port = rule.matches itype p iface := by
  rw [ChainRule.reads, ChainRule.matches, plain.reads_eq_matches p (List.mem_map_of_mem hr)]
  congr 1
  unfold ChainRule.interface
  cases hi : rule.iface itype with
  | none => rfl
  | some name =>
    obtain ⟨index, hindex, same⟩ := resolved rule hr name hi
    rw [Option.bind_some, hindex, Option.all_some, Option.all_some, decide_eq_decide, eq_comm,
      same iface port attached, eq_comm]

theorem Kept.verdict (kept : Kept defaults s) {frame : Buffer} {label : ConntrackstatusEnum}
    (hp : Packet.ofFrame frame label = some p) (attached : s.ports iface = some port)
    (old : PacketHeaders) (shared : BitVector) :
    s.datapath.verdict defaults (fun ip => isLocal (bswap32 ip)) type port frame label.connStatus
        old shared =
      decision (fun c => ChainRule.matches c.interfaceType p iface) s.rules defaults isLocal type
        p := by
  obtain ⟨pkt, hparse, rfl⟩ := Firewall.parse_of_ofFrame hp old
  unfold Datapath.verdict
  rw [hparse]
  refine (@Loads.classify _ _ _ _ _ _ kept.loads { pkt with connStatus := label.connStatus } label rfl
    port shared).trans (decision_congr fun c rule hr => ?_)
  exact (kept.resolved c).reads_eq_matches (kept.plain c) attached hr

end Packets

end Polycube.Iptables
