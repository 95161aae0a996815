import Polycube.Lib.Bytes
import Polycube.Lib.Throwing

/-!
# Rules of the policy-based forwarder

`Rules` is the object the control plane keeps of a rule: a bitmap of the fields that are set, and
the fields, with defaults where they are not.  `Entry` is the rule as the programs read it, in
network byte order.  A text that stands for an address is modelled by the address it is read as, if
it is one.
-/

namespace Polycube.Pbforwarder

open Lib

inductive RulesL4ProtoEnum
  | udp | tcp
  deriving DecidableEq

inductive RulesActionEnum
  | drop | slowpath | forward
  deriving DecidableEq

/-- `SET_BIT` -/
def setBit (word : BitVec 32) (n : ℕ) : BitVec 32 := word ||| 1#32 <<< n

/-- `IS_SET` and `GET_BIT` -/
def isSet (word : BitVec 32) (n : ℕ) : Bool := word.getLsbD n

theorem isSet_setBit {n : ℕ} (hn : n < 32) (word : BitVec 32) (m : ℕ) :
    isSet (setBit word n) m = (isSet word m || decide (m = n)) := by
  unfold isSet setBit
  rw [BitVec.getLsbD_or, BitVec.getLsbD_shiftLeft, BitVec.getLsbD_one]
  congr 1
  by_cases h : m = n
  · subst h
    simp [hn]
  · rcases Nat.lt_or_ge m n with lt | ge
    · simp [lt, h]
    · have : m - n ≠ 0 := by omega
      simp [h, this]

theorem isSet_zero (n : ℕ) : isSet 0 n = false := BitVec.getLsbD_zero

structure Rules where
  id : BitVec 32
  updating : Bool
  flags : BitVec 32
  srcMac : Option (BitVec 48)
  dstMac : Option (BitVec 48)
  vlan : BitVec 16
  srcIp : Option (BitVec 32)
  dstIp : Option (BitVec 32)
  l4Proto : RulesL4ProtoEnum
  srcPort : BitVec 16
  dstPort : BitVec 16
  inPort : String
  outPort : String
  action : RulesActionEnum
  deriving DecidableEq

structure RulesJsonObject where
  id : BitVec 32
  srcMac : Option (Option (BitVec 48))
  dstMac : Option (Option (BitVec 48))
  vlan : Option (BitVec 32)
  srcIp : Option (Option (BitVec 32))
  dstIp : Option (Option (BitVec 32))
  l4Proto : Option RulesL4ProtoEnum
  srcPort : Option (BitVec 16)
  dstPort : Option (BitVec 16)
  inPort : Option String
  action : Option RulesActionEnum
  outPort : Option String

namespace Rules

def create (id : BitVec 32) : Rules where
  id := id
  updating := false
  flags := 0
  srcMac := some 0
  dstMac := some 0
  vlan := 0
  srcIp := some 0
  dstIp := some 0
  l4Proto := .tcp
  srcPort := 0
  dstPort := 0
  inPort := "0"
  outPort := "-1"
  action := .drop

end Rules

inductive Setter
  | srcMac (value : Option (BitVec 48))
  | dstMac (value : Option (BitVec 48))
  | vlan (value : BitVec 32)
  | srcIp (value : Option (BitVec 32))
  | dstIp (value : Option (BitVec 32))
  | l4Proto (value : RulesL4ProtoEnum)
  | srcPort (value : BitVec 16)
  | dstPort (value : BitVec 16)
  | inPort (value : String)
  | action (value : RulesActionEnum)
  | outPort (value : String)
  deriving DecidableEq

def Setter.run (o : Rules) : Setter → Option Rules
  | .srcMac value => some { o with flags := setBit o.flags 0, srcMac := value }
  | .dstMac value => some { o with flags := setBit o.flags 1, dstMac := value }
  | .vlan value => some { o with flags := setBit o.flags 2, vlan := value.setWidth 16 }
  | .srcIp value => some { o with flags := setBit o.flags 3, srcIp := value }
  | .dstIp value => some { o with flags := setBit o.flags 4, dstIp := value }
  | .l4Proto value => some { o with flags := setBit o.flags 5, l4Proto := value }
  | .srcPort value =>
    if isSet o.flags 5 then some { o with flags := setBit o.flags 6, srcPort := value } else none
  | .dstPort value =>
    if isSet o.flags 5 then some { o with flags := setBit o.flags 7, dstPort := value } else none
  | .inPort value => some { o with flags := setBit o.flags 8, inPort := value }
  | .action value => some { o with action := value }
  | .outPort value => some { o with outPort := value }

/-- `htons` of the ports. -/
def Setter.htons : Setter → Setter
  | .srcPort value => .srcPort (bswap16 value)
  | .dstPort value => .dstPort (bswap16 value)
  | s => s

/-- The fields of a body that are set, in the order in which `update` sets them. -/
def RulesJsonObject.setters (conf : RulesJsonObject) : List Setter :=
  conf.srcMac.toList.map .srcMac ++ conf.dstMac.toList.map .dstMac ++
    conf.vlan.toList.map .vlan ++ conf.srcIp.toList.map .srcIp ++
    conf.dstIp.toList.map .dstIp ++ conf.l4Proto.toList.map .l4Proto ++
    conf.srcPort.toList.map .srcPort ++ conf.dstPort.toList.map .dstPort ++
    conf.inPort.toList.map .inPort ++ conf.action.toList.map .action ++
    conf.outPort.toList.map .outPort

def Rules.assign (o : Rules) : List Setter → Rules × Bool
  | [] => (o, true)
  | s :: l =>
    match s.run o with
    | none => (o, false)
    | some o' => o'.assign l

/-- A rule of the datapath, `struct rule`. -/
structure Entry where
  srcMac : BitVec 48
  dstMac : BitVec 48
  vlanid : BitVec 16
  srcIp : BitVec 32
  dstIp : BitVec 32
  lvl4Proto : BitVec 16
  srcPort : BitVec 16
  dstPort : BitVec 16
  inport : BitVec 16
  action : BitVec 16
  outport : BitVec 16
  flags : BitVec 32
  deriving DecidableEq

/-- `rulesL4ProtoEnum_to_int` -/
def RulesL4ProtoEnum.number : RulesL4ProtoEnum → BitVec 16
  | .udp => 17
  | .tcp => 6

/-- `rulesActionEnum_to_int` -/
def RulesActionEnum.number : RulesActionEnum → BitVec 16
  | .drop => 0
  | .slowpath => 1
  | .forward => 2

/-- `to_rule`, or nothing if it throws.  A port that does not exist has the index 0. -/
def Rules.toRule (ports : String → Option (BitVec 16)) (o : Rules) : Option Entry := do
  let srcMac ← o.srcMac
  let dstMac ← o.dstMac
  let srcIp ← o.srcIp
  let dstIp ← o.dstIp
  return {
    srcMac := srcMac
    dstMac := dstMac
    vlanid := o.vlan
    srcIp := srcIp
    dstIp := dstIp
    lvl4Proto := o.l4Proto.number
    srcPort := o.srcPort
    dstPort := o.dstPort
    inport := (ports o.inPort).getD 0
    action := o.action.number
    outport := (ports o.outPort).getD 0
    flags := o.flags }

structure Rule where
  srcMac : Option (BitVec 48)
  dstMac : Option (BitVec 48)
  vlan : Option (BitVec 32)
  srcIp : Option (BitVec 32)
  dstIp : Option (BitVec 32)
  l4Proto : Option RulesL4ProtoEnum
  srcPort : Option (BitVec 16)
  dstPort : Option (BitVec 16)
  inPort : Option String
  action : RulesActionEnum
  outPort : Option String
  deriving DecidableEq

def Rule.empty : Rule := ⟨none, none, none, none, none, none, none, none, none, .drop, none⟩

def Rule.set (r : Rule) : Setter → Rule
  | .srcMac value => { r with srcMac := value <|> r.srcMac }
  | .dstMac value => { r with dstMac := value <|> r.dstMac }
  | .vlan value => { r with vlan := some value }
  | .srcIp value => { r with srcIp := value <|> r.srcIp }
  | .dstIp value => { r with dstIp := value <|> r.dstIp }
  | .l4Proto value => { r with l4Proto := some value }
  | .srcPort value => { r with srcPort := some value }
  | .dstPort value => { r with dstPort := some value }
  | .inPort value => { r with inPort := some value }
  | .action value => { r with action := value }
  | .outPort value => { r with outPort := some value }

def Rule.setAll (r : Rule) (l : List Setter) : Rule := l.foldl Rule.set r

def Setter.Valid : Setter → Prop
  | .srcMac value => value.isSome
  | .dstMac value => value.isSome
  | .vlan value => value.toNat < 2 ^ 16
  | .srcIp value => value.isSome
  | .dstIp value => value.isSome
  | _ => True

instance : DecidablePred Setter.Valid := fun s => by
  cases s <;> unfold Setter.Valid <;> infer_instance

/-! ### Objects that are what was asked for -/

def Holds {α β : Type} (enc : α → β) (set : Bool) (value : β) : Option α → Prop
  | none => set = false
  | some a => set = true ∧ value = enc a

/-- The object of a rule: ports in network byte order.  All addresses can be read. -/
structure Means (r : Rule) (o : Rules) : Prop where
  srcMac : Holds some (isSet o.flags 0) o.srcMac r.srcMac
  dstMac : Holds some (isSet o.flags 1) o.dstMac r.dstMac
  vlan : Holds (BitVec.setWidth 16) (isSet o.flags 2) o.vlan r.vlan
  srcIp : Holds some (isSet o.flags 3) o.srcIp r.srcIp
  dstIp : Holds some (isSet o.flags 4) o.dstIp r.dstIp
  l4Proto : Holds id (isSet o.flags 5) o.l4Proto r.l4Proto
  srcPort : Holds bswap16 (isSet o.flags 6) o.srcPort r.srcPort
  dstPort : Holds bswap16 (isSet o.flags 7) o.dstPort r.dstPort
  inPort : Holds id (isSet o.flags 8) o.inPort r.inPort
  action : o.action = r.action
  outPort : ∀ name, r.outPort = some name → o.outPort = name
  vlanShort : ∀ vlan, r.vlan = some vlan → vlan.toNat < 2 ^ 16
  /-- Ports are set with the protocol only. -/
  ports : r.l4Proto = none → r.srcPort = none ∧ r.dstPort = none
  readable : o.srcMac.isSome ∧ o.dstMac.isSome ∧ o.srcIp.isSome ∧ o.dstIp.isSome

theorem Holds.unset {α β : Type} {enc : α → β} {set : Bool} {value : β} (h : set = false) :
    Holds enc set value none := h

theorem means_create (n : BitVec 32) : Means .empty (Rules.create n) where
  srcMac := Holds.unset (isSet_zero _)
  dstMac := Holds.unset (isSet_zero _)
  vlan := Holds.unset (isSet_zero _)
  srcIp := Holds.unset (isSet_zero _)
  dstIp := Holds.unset (isSet_zero _)
  l4Proto := Holds.unset (isSet_zero _)
  srcPort := Holds.unset (isSet_zero _)
  dstPort := Holds.unset (isSet_zero _)
  inPort := Holds.unset (isSet_zero _)
  action := rfl
  outPort _ h := by cases h
  vlanShort _ h := by cases h
  ports _ := ⟨rfl, rfl⟩
  readable := ⟨rfl, rfl, rfl, rfl⟩

theorem Holds.of_set {α β : Type} {enc : α → β} {word : BitVec 32} {n m : ℕ} {value : β}
    {o : Option α} (h : Holds enc (isSet word m) value o) (hn : n < 32) (hm : m ≠ n) :
    Holds enc (isSet (setBit word n) m) value o := by
  rwa [isSet_setBit hn, decide_eq_false hm, Bool.or_false]

theorem Holds.new {α β : Type} (enc : α → β) (word : BitVec 32) {n : ℕ} (hn : n < 32) (a : α) :
    Holds enc (isSet (setBit word n) n) (enc a) (some a) :=
  ⟨by rw [isSet_setBit hn, decide_eq_true rfl, Bool.or_true], rfl⟩

theorem Holds.isSome {α β : Type} {enc : α → β} {set : Bool} {value : β} {o : Option α}
    (h : Holds enc set value o) : o.isSome = set := by
  cases o with
  | none => exact h.symm
  | some a => exact h.1.symm

variable {r : Rule} {o o' : Rules}

theorem Means.fields (h : Means r o) {n : ℕ} (hn : n < 32) :
    (n ≠ 0 → Holds some (isSet (setBit o.flags n) 0) o.srcMac r.srcMac) ∧
    (n ≠ 1 → Holds some (isSet (setBit o.flags n) 1) o.dstMac r.dstMac) ∧
    (n ≠ 2 → Holds (BitVec.setWidth 16) (isSet (setBit o.flags n) 2) o.vlan r.vlan) ∧
    (n ≠ 3 → Holds some (isSet (setBit o.flags n) 3) o.srcIp r.srcIp) ∧
    (n ≠ 4 → Holds some (isSet (setBit o.flags n) 4) o.dstIp r.dstIp) ∧
    (n ≠ 5 → Holds id (isSet (setBit o.flags n) 5) o.l4Proto r.l4Proto) ∧
    (n ≠ 6 → Holds bswap16 (isSet (setBit o.flags n) 6) o.srcPort r.srcPort) ∧
    (n ≠ 7 → Holds bswap16 (isSet (setBit o.flags n) 7) o.dstPort r.dstPort) ∧
    (n ≠ 8 → Holds id (isSet (setBit o.flags n) 8) o.inPort r.inPort) :=
  ⟨fun ne => h.srcMac.of_set hn ne.symm, fun ne => h.dstMac.of_set hn ne.symm,
    fun ne => h.vlan.of_set hn ne.symm, fun ne => h.srcIp.of_set hn ne.symm,
    fun ne => h.dstIp.of_set hn ne.symm, fun ne => h.l4Proto.of_set hn ne.symm,
    fun ne => h.srcPort.of_set hn ne.symm, fun ne => h.dstPort.of_set hn ne.symm,
    fun ne => h.inPort.of_set hn ne.symm⟩

/-- A setter that gets its port in network byte order sets what was asked for. -/
theorem Means.set (h : Means r o) {s : Setter} (valid : s.Valid) (run : s.htons.run o = some o') :
    Means (r.set s) o' := by
  obtain ⟨srcMac, dstMac, srcIp, dstIp⟩ := h.readable
  cases s with
  | srcMac value =>
    obtain ⟨m, rfl⟩ := Option.isSome_iff_exists.1 valid
    obtain rfl := Option.some.inj run
    obtain ⟨-, f₁, f₂, f₃, f₄, f₅, f₆, f₇, f₈⟩ := h.fields (n := 0) (by decide)
    exact ⟨Holds.new some o.flags (by decide) m, f₁ (by decide), f₂ (by decide), f₃ (by decide),
      f₄ (by decide), f₅ (by decide), f₆ (by decide), f₇ (by decide), f₈ (by decide), h.action,
      h.outPort, h.vlanShort, h.ports, ⟨rfl, dstMac, srcIp, dstIp⟩⟩
  | dstMac value =>
    obtain ⟨m, rfl⟩ := Option.isSome_iff_exists.1 valid
    obtain rfl := Option.some.inj run
    obtain ⟨f₀, -, f₂, f₃, f₄, f₅, f₆, f₇, f₈⟩ := h.fields (n := 1) (by decide)
    exact ⟨f₀ (by decide), Holds.new some o.flags (by decide) m, f₂ (by decide), f₃ (by decide),
      f₄ (by decide), f₅ (by decide), f₆ (by decide), f₇ (by decide), f₈ (by decide), h.action,
      h.outPort, h.vlanShort, h.ports, ⟨srcMac, rfl, srcIp, dstIp⟩⟩
  | vlan value =>
    obtain rfl := Option.some.inj run
    obtain ⟨f₀, f₁, -, f₃, f₄, f₅, f₆, f₇, f₈⟩ := h.fields (n := 2) (by decide)
    refine ⟨f₀ (by decide), f₁ (by decide),
      Holds.new (BitVec.setWidth 16) o.flags (by decide) value, f₃ (by decide), f₄ (by decide),
      f₅ (by decide), f₆ (by decide), f₇ (by decide), f₈ (by decide), h.action, h.outPort, ?_, h.ports, h.readable⟩
    rintro _ ⟨⟩
    exact valid
  | srcIp value =>
    obtain ⟨m, rfl⟩ := Option.isSome_iff_exists.1 valid
    obtain rfl := Option.some.inj run
    obtain ⟨f₀, f₁, f₂, -, f₄, f₅, f₆, f₇, f₈⟩ := h.fields (n := 3) (by decide)
    exact ⟨f₀ (by decide), f₁ (by decide), f₂ (by decide), Holds.new some o.flags (by decide) m,
      f₄ (by decide), f₅ (by decide), f₆ (by decide), f₇ (by decide), f₈ (by decide), h.action,
      h.outPort, h.vlanShort, h.ports, ⟨srcMac, dstMac, rfl, dstIp⟩⟩
  | dstIp value =>
    obtain ⟨m, rfl⟩ := Option.isSome_iff_exists.1 valid
    obtain rfl := Option.some.inj run
    obtain ⟨f₀, f₁, f₂, f₃, -, f₅, f₆, f₇, f₈⟩ := h.fields (n := 4) (by decide)
    exact ⟨f₀ (by decide), f₁ (by decide), f₂ (by decide), f₃ (by decide),
      Holds.new some o.flags (by decide) m, f₅ (by decide), f₆ (by decide), f₇ (by decide),
      f₈ (by decide), h.action, h.outPort, h.vlanShort, h.ports, ⟨srcMac, dstMac, srcIp, rfl⟩⟩
  | l4Proto value =>
    obtain rfl := Option.some.inj run
    obtain ⟨f₀, f₁, f₂, f₃, f₄, -, f₆, f₇, f₈⟩ := h.fields (n := 5) (by decide)
    exact ⟨f₀ (by decide), f₁ (by decide), f₂ (by decide), f₃ (by decide), f₄ (by decide),
      Holds.new id o.flags (by decide) value, f₆ (by decide), f₇ (by decide), f₈ (by decide),
      h.action, h.outPort, h.vlanShort, fun none => (by cases none), h.readable⟩
  | srcPort value =>
    have proto : isSet o.flags 5 = true := by
      by_contra unset
      have run : (if isSet o.flags 5 then some { o with
          flags := setBit o.flags 6, srcPort := bswap16 value } else none) = some o' := run
      rw [if_neg unset] at run
      cases run
    obtain rfl := Option.some.inj ((if_pos proto).symm.trans run)
    obtain ⟨f₀, f₁, f₂, f₃, f₄, f₅, -, f₇, f₈⟩ := h.fields (n := 6) (by decide)
    refine ⟨f₀ (by decide), f₁ (by decide), f₂ (by decide), f₃ (by decide), f₄ (by decide),
      f₅ (by decide), Holds.new bswap16 o.flags (by decide) value, f₇ (by decide), f₈ (by decide),
      h.action, h.outPort, h.vlanShort, fun none => ?_, h.readable⟩
    have set := h.l4Proto.isSome
    rw [show r.l4Proto = Option.none from none, proto] at set
    cases set
  | dstPort value =>
    have proto : isSet o.flags 5 = true := by
      by_contra unset
      have run : (if isSet o.flags 5 then some { o with
          flags := setBit o.flags 7, dstPort := bswap16 value } else none) = some o' := run
      rw [if_neg unset] at run
      cases run
    obtain rfl := Option.some.inj ((if_pos proto).symm.trans run)
    obtain ⟨f₀, f₁, f₂, f₃, f₄, f₅, f₆, -, f₈⟩ := h.fields (n := 7) (by decide)
    refine ⟨f₀ (by decide), f₁ (by decide), f₂ (by decide), f₃ (by decide), f₄ (by decide),
      f₅ (by decide), f₆ (by decide), Holds.new bswap16 o.flags (by decide) value, f₈ (by decide),
      h.action, h.outPort, h.vlanShort, fun none => ?_, h.readable⟩
    have set := h.l4Proto.isSome
    rw [show r.l4Proto = Option.none from none, proto] at set
    cases set
  | inPort value =>
    obtain rfl := Option.some.inj run
    obtain ⟨f₀, f₁, f₂, f₃, f₄, f₅, f₆, f₇, -⟩ := h.fields (n := 8) (by decide)
    exact ⟨f₀ (by decide), f₁ (by decide), f₂ (by decide), f₃ (by decide), f₄ (by decide),
      f₅ (by decide), f₆ (by decide), f₇ (by decide), Holds.new id o.flags (by decide) value,
      h.action, h.outPort, h.vlanShort, h.ports, h.readable⟩
  | action value =>
    obtain rfl := Option.some.inj run
    exact ⟨h.srcMac, h.dstMac, h.vlan, h.srcIp, h.dstIp, h.l4Proto, h.srcPort, h.dstPort, h.inPort,
      rfl, h.outPort, h.vlanShort, h.ports, h.readable⟩
  | outPort value =>
    obtain rfl := Option.some.inj run
    refine ⟨h.srcMac, h.dstMac, h.vlan, h.srcIp, h.dstIp, h.l4Proto, h.srcPort, h.dstPort, h.inPort,
      h.action, ?_, h.vlanShort, h.ports, h.readable⟩
    rintro _ ⟨⟩
    rfl

def Setter.IsPort : Setter → Bool
  | .srcPort _ => true
  | .dstPort _ => true
  | _ => false

def Rule.accepts (r : Rule) : List Setter → Bool
  | [] => true
  | s :: l => (!s.IsPort || r.l4Proto.isSome) && (r.set s).accepts l

theorem Means.run_isSome (h : Means r o) (s : Setter) :
    (s.htons.run o).isSome = (!s.IsPort || r.l4Proto.isSome) := by
  have proto := h.l4Proto.isSome
  have guarded : ∀ o' : Rules, (if isSet o.flags 5 then some o' else none).isSome =
      (!true || r.l4Proto.isSome) := by
    intro o'
    rw [proto]
    cases isSet o.flags 5 <;> rfl
  cases s with
  | srcPort value => exact guarded _
  | dstPort value => exact guarded _
  | _ => rfl

theorem Means.assign (h : Means r o) {l : List Setter} (valid : ∀ s ∈ l, s.Valid)
    (run : o.assign (l.map Setter.htons) = (o', true)) : Means (r.setAll l) o' := by
  induction l generalizing r o with
  | nil =>
    obtain rfl := (Prod.mk.inj run).1
    exact h
  | cons s l ih =>
    rw [List.map_cons] at run
    unfold Rules.assign at run
    cases hs : s.htons.run o with
    | none =>
      rw [hs] at run
      cases run
    | some o₁ =>
      rw [hs] at run
      exact ih (h.set (valid s List.mem_cons_self) hs)
        (fun t ht => valid t (List.mem_cons_of_mem s ht)) run

theorem Means.assign_accepts (h : Means r o) {l : List Setter} (valid : ∀ s ∈ l, s.Valid)
    (accepts : r.accepts l = true) : (o.assign (l.map Setter.htons)).2 = true := by
  induction l generalizing r o with
  | nil => rfl
  | cons s l ih =>
    rw [List.map_cons]
    unfold Rule.accepts at accepts
    obtain ⟨first, others⟩ := Bool.and_eq_true_iff.1 accepts
    obtain ⟨o₁, ho₁⟩ := Option.isSome_iff_exists.1 ((h.run_isSome s).trans first)
    unfold Rules.assign
    rw [ho₁]
    exact ih (h.set (valid s List.mem_cons_self) ho₁)
      (fun t ht => valid t (List.mem_cons_of_mem s ht)) others

theorem Setter.run_id {s : Setter} (run : s.run o = some o') :
    o'.id = o.id ∧ o'.updating = o.updating := by
  cases s with
  | srcPort value =>
    unfold Setter.run at run
    split_ifs at run
    obtain rfl := Option.some.inj run
    exact ⟨rfl, rfl⟩
  | dstPort value =>
    unfold Setter.run at run
    split_ifs at run
    obtain rfl := Option.some.inj run
    exact ⟨rfl, rfl⟩
  | _ =>
    obtain rfl := Option.some.inj run
    exact ⟨rfl, rfl⟩

theorem Rules.assign_id (o : Rules) (l : List Setter) :
    (o.assign l).1.id = o.id ∧ (o.assign l).1.updating = o.updating := by
  induction l generalizing o with
  | nil => exact ⟨rfl, rfl⟩
  | cons s l ih =>
    unfold Rules.assign
    cases hs : s.run o with
    | none => exact ⟨rfl, rfl⟩
    | some o' =>
      obtain ⟨id, updating⟩ := Setter.run_id hs
      exact ⟨(ih o').1.trans id, (ih o').2.trans updating⟩

end Polycube.Pbforwarder
