import Polycube.Firewall.Packet
import Polycube.Lib.BitWords
import Polycube.Lib.OrdMap

/-!
# Rules and their bit vectors

The rules of a firewall chain and the `*FromRulesToMap` functions, which turn a rule list into one
map for each field: a value of the field to the bit vector of the rules that allow it.  Each map
comes with a flag, whether a packet with no entry in it can end the chain early.
-/

namespace Polycube.Firewall

open Lib

/-! ### Rules -/

inductive ActionEnum
  | drop | log | accept
  deriving DecidableEq

inductive ConntrackstatusEnum
  | new | established | related | invalid
  deriving DecidableEq

def ConntrackstatusEnum.connStatus : ConntrackstatusEnum → ConnStatus
  | .new => .new
  | .established => .established
  | .related => .related
  | .invalid => .invalid

/-- `NEW`, `ESTABLISHED`, `RELATED`, `INVALID` -/
def statesVector : List ConntrackstatusEnum := [.new, .established, .related, .invalid]

/-- The protocols `protocol_from_string_to_int` knows. -/
inductive L4Proto
  | tcp | udp | icmp | gre
  deriving DecidableEq

def L4Proto.toInt : L4Proto → BitVec 8
  | .tcp => ipprotoTcp
  | .udp => ipprotoUdp
  | .icmp => ipprotoIcmp
  | .gre => ipprotoGre

/-- A prefix; `ip` is the word of the address in network order. -/
structure IpAddr where
  ip : BitVec 32
  netmask : ℕ
  netmask_le : netmask ≤ 32
  deriving DecidableEq

namespace IpAddr

/-- The order of the keys, `ip` first. -/
instance : LE IpAddr := ⟨fun a b => a.ip < b.ip ∨ a.ip = b.ip ∧ a.netmask ≤ b.netmask⟩

instance : DecidableLE IpAddr := fun a b =>
  inferInstanceAs (Decidable (a.ip < b.ip ∨ a.ip = b.ip ∧ a.netmask ≤ b.netmask))

instance : Std.Total (α := IpAddr) (· ≤ ·) := ⟨fun a b => by
  rcases Nat.lt_trichotomy a.ip.toNat b.ip.toNat with h | h | h
  · exact Or.inl (Or.inl h)
  · rcases Nat.le_total a.netmask b.netmask with hn | hn
    · exact Or.inl (Or.inr ⟨BitVec.eq_of_toNat_eq h, hn⟩)
    · exact Or.inr (Or.inr ⟨BitVec.eq_of_toNat_eq h.symm, hn⟩)
  · exact Or.inr (Or.inl h)⟩

instance : IsTrans IpAddr (· ≤ ·) := ⟨fun a b c hab hbc => by
  rcases hab with hab | ⟨hab, hn⟩
  · rcases hbc with hbc | ⟨hbc, -⟩
    · exact Or.inl (BitVec.lt_trans hab hbc)
    · exact Or.inl (hbc ▸ hab)
  · rcases hbc with hbc | ⟨hbc, hn'⟩
    · exact Or.inl (hab ▸ hbc)
    · exact Or.inr ⟨hab.trans hbc, hn.trans hn'⟩⟩

theorem ip_le_of_le {a b : IpAddr} (h : a ≤ b) : a.ip ≤ b.ip := by
  rcases h with h | ⟨h, -⟩
  · exact BitVec.le_of_lt h
  · exact BitVec.le_of_eq h

/-- `0.0.0.0/0` -/
def wildcardIp : IpAddr := ⟨0, 0, by decide⟩

end IpAddr

structure TcpFlags where
  flagsSet : BitVec 8
  flagsNotSet : BitVec 8
  disjoint : flagsSet &&& flagsNotSet = 0
  deriving DecidableEq

structure ChainRule where
  id : ℕ
  ipSrc : Option IpAddr
  ipDst : Option IpAddr
  srcPort : Option (BitVec 16)
  dstPort : Option (BitVec 16)
  l4Proto : Option L4Proto
  tcpFlags : Option TcpFlags
  conntrack : Option ConntrackstatusEnum
  action : ActionEnum
  description : Option String
  deriving DecidableEq

/-- `SOURCE_TYPE`, `DESTINATION_TYPE` -/
inductive FieldType
  | source | destination
  deriving DecidableEq

def ChainRule.ip (rule : ChainRule) : FieldType → Option IpAddr
  | .source => rule.ipSrc
  | .destination => rule.ipDst

/-- The address a rule is compared with; a rule without one is `0.0.0.0/0`. -/
def ChainRule.currentIp (rule : ChainRule) (type : FieldType) : IpAddr :=
  (rule.ip type).getD .wildcardIp

def ChainRule.port (rule : ChainRule) : FieldType → Option (BitVec 16)
  | .source => rule.srcPort
  | .destination => rule.dstPort

def ChainRule.proto (rule : ChainRule) : Option (BitVec 8) := rule.l4Proto.map L4Proto.toInt

/-- `ActionEnum_to_int` -/
def ActionEnum.toInt : ActionEnum → Except String ℕ
  | .drop => .ok 0
  | .accept => .ok 1
  | .log => .error "Action not supported."

def maxRules : ℕ := 8192

def wordRules : ℕ := 63

/-- `FROM_NRULES_TO_NELEMENTS` -/
def fromNRulesToNElements (x : ℕ) : ℕ := x / wordRules + if x % wordRules ≠ 0 then 1 else 0

abbrev BitVector := Words (fromNRulesToNElements maxRules)

/-- `SET_BIT` -/
def setRule (v : BitVector) (id : ℕ) : BitVector := v.setBit wordRules id

def hasRule (v : BitVector) (id : ℕ) : Bool := v.has wordRules id

def rulesWith (test : ChainRule → Bool) (rules : List ChainRule) : BitVector :=
  rules.foldl (fun v rule => if test rule then setRule v rule.id else v) Words.zero

def IpAddr.mask (a : IpAddr) : BitVec 32 :=
  if a.netmask = 32 then 0xffffffff#32 else (1#32 <<< a.netmask) - 1#32

def IpAddr.covers (current address : IpAddr) : Bool :=
  address.ip &&& current.mask = current.ip &&& current.mask && current.netmask ≤ address.netmask

def ipBitVector (type : FieldType) (rules : List ChainRule) (address : IpAddr) : BitVector :=
  rulesWith (fun rule => (rule.currentIp type).covers address) rules

def distinctIps (type : FieldType) (rules : List ChainRule) : OrdMap IpAddr BitVector :=
  rules.foldl (fun ips rule =>
    match rule.ip type with
    | none => ips
    | some current => ips.insert current Words.zero) []

def ruleIps (type : FieldType) (rules : List ChainRule) : OrdMap IpAddr BitVector :=
  (distinctIps type rules).map fun e => (e.1, ipBitVector type rules e.1)

def ipFromRulesToMap (type : FieldType) (rules : List ChainRule) :
    OrdMap IpAddr BitVector × Bool :=
  if ruleIps type rules ≠ [] ∧ rules.any (fun rule => rule.ip type = none) then
    ((ruleIps type rules).insert .wildcardIp (ipBitVector type rules .wildcardIp), false)
  else (ruleIps type rules, true)

section ByKey

variable {κ : Type} [DecidableEq κ] [LE κ] [DecidableLE κ]

def addRuleKey (key : ChainRule → Option κ) (m : OrdMap κ BitVector) (rule : ChainRule) :
    OrdMap κ BitVector :=
  match key rule with
  | none => m
  | some k =>
    if m.contains k then m.modify k fun v => setRule v rule.id
    else m.insert k (setRule Words.zero rule.id)

def addDontCare (m : OrdMap κ BitVector) (ruleNumber : ℕ) : OrdMap κ BitVector :=
  m.map fun e => (e.1, setRule e.2 ruleNumber)

def ruleKeys (key : ChainRule → Option κ) (rules : List ChainRule) : OrdMap κ BitVector :=
  rules.foldl (addRuleKey key) []

def dontCareRules (key : ChainRule → Option κ) (rules : List ChainRule) : List ℕ :=
  (rules.filter fun rule => (key rule).isNone).map ChainRule.id

/-- The map of a field compared by equality; `wildcard` is the key of the packets with another
value when there are rules that set none. -/
def keyFromRulesToMap (key : ChainRule → Option κ) (wildcard : κ) (rules : List ChainRule) :
    OrdMap κ BitVector × Bool :=
  if ruleKeys key rules ≠ [] ∧ dontCareRules key rules ≠ [] then
    ((dontCareRules key rules).foldl addDontCare ((ruleKeys key rules).insert wildcard Words.zero),
      false)
  else (ruleKeys key rules, true)

end ByKey

def transportProtoFromRulesToMap (rules : List ChainRule) : OrdMap (BitVec 8) BitVector × Bool :=
  keyFromRulesToMap ChainRule.proto 0 rules

def portFromRulesToMap (type : FieldType) (rules : List ChainRule) :
    OrdMap (BitVec 16) BitVector × Bool :=
  keyFromRulesToMap (fun rule => rule.port type) 0 rules

def conntrackFromRulesToMap (rules : List ChainRule) :
    List (ConntrackstatusEnum × BitVector) × Bool :=
  if rules.any fun rule => rule.conntrack ≠ none then
    (statesVector.map fun state =>
      (state, rulesWith (fun rule => rule.conntrack = some state ∨ rule.conntrack = none) rules),
      false)
  else ([], false)

def TcpFlags.candidate (f : TcpFlags) (candidateFlag : BitVec 8) : Bool :=
  let flagsSet := if f.flagsSet = 0 then 255#8 else f.flagsSet
  candidateFlag &&& flagsSet = flagsSet && candidateFlag &&& f.flagsNotSet = 0

def flagsFromRulesToMap (rules : List ChainRule) : Option (BitVec 8 → BitVector) × Bool :=
  if rules.any fun rule => rule.tcpFlags ≠ none then
    (some fun candidateFlag =>
      rulesWith (fun rule => rule.tcpFlags.all fun f => f.candidate candidateFlag) rules, false)
  else (none, false)

@[simp] theorem hasRule_zero (id : ℕ) : hasRule Words.zero id = false := Words.has_zero id

theorem hasRule_setRule {v : BitVector} {id j : ℕ} (hid : id < maxRules) :
    hasRule (setRule v id) j = (decide (j = id) || hasRule v j) := by
  apply Words.has_setBit (by decide) (by decide)
  have : id / 63 < 131 := by unfold maxRules at hid; omega
  exact this

theorem hasRule_rulesWith {test : ChainRule → Bool} {rules : List ChainRule}
    (hmax : ∀ rule ∈ rules, rule.id < maxRules) (j : ℕ) :
    hasRule (rulesWith test rules) j = true ↔ ∃ rule ∈ rules, rule.id = j ∧ test rule = true := by
  induction rules using List.reverseRecOn with
  | nil => simp [rulesWith]
  | append_singleton rules rule ih =>
    have ih := ih fun r hr => hmax r (by simp [hr])
    have hlast := hmax rule (by simp)
    unfold rulesWith at ih ⊢
    rw [List.foldl_append, List.foldl_cons, List.foldl_nil]
    cases ht : test rule with
    | false =>
      simp only [Bool.false_eq_true, if_false, ih, List.mem_append, List.mem_singleton]
      constructor
      · rintro ⟨r, hr, hj, h⟩
        exact ⟨r, Or.inl hr, hj, h⟩
      · rintro ⟨r, hr | rfl, hj, h⟩
        · exact ⟨r, hr, hj, h⟩
        · rw [ht] at h
          cases h
    | true =>
      simp only [if_true, hasRule_setRule hlast, Bool.or_eq_true, decide_eq_true_eq, ih,
        List.mem_append, List.mem_singleton]
      constructor
      · rintro (rfl | ⟨r, hr, hj, h⟩)
        · exact ⟨rule, Or.inr rfl, rfl, ht⟩
        · exact ⟨r, Or.inl hr, hj, h⟩
      · rintro ⟨r, hr | rfl, hj, h⟩
        · exact Or.inr ⟨r, hr, hj, h⟩
        · exact Or.inl hj.symm

end Polycube.Firewall
