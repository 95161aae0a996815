import Polycube.Firewall.FirstMatch

/-!
# Horus

The first rules of a chain, as long as they set the same fields, are compiled to a hash table from
the values of these fields to the action.  The program in front of the chain looks every packet up
there and decides it on a hit.  A condition that the table cannot hold (flags, an address that is no
single host) is left out of the key, and the program goes on to `ConntrackLabel`, which is not there
when conntrack is off.
-/

namespace Polycube.Firewall

open Lib

/-! ### The table -/

/-- The fields of a key that are set.  Ports are in host order. -/
structure HorusRule where
  srcIp : Option (BitVec 32)
  dstIp : Option (BitVec 32)
  l4proto : Option (BitVec 8)
  srcPort : Option (BitVec 16)
  dstPort : Option (BitVec 16)
  deriving DecidableEq

structure HorusValue where
  action : ℕ
  ruleID : ℕ
  deriving DecidableEq

def HorusRule.setFields (key : HorusRule) : List Bool :=
  [key.srcIp.isSome, key.dstIp.isSome, key.l4proto.isSome, key.srcPort.isSome, key.dstPort.isSome]

/-- `MAX_RULE_SIZE_FOR_HORUS` -/
def maxRuleSizeForHorus : ℕ := 2048

def hostIp (ip : Option IpAddr) : Option (BitVec 32) :=
  ip.bind fun a => if a.netmask = 32 then some a.ip else none

def ChainRule.horusRule (rule : ChainRule) : HorusRule :=
  ⟨hostIp rule.ipSrc, hostIp rule.ipDst, rule.proto, rule.srcPort, rule.dstPort⟩

def ChainRule.horusValue (rule : ChainRule) : HorusValue :=
  ⟨if rule.action = .drop then 0 else 1, rule.id⟩

def fromRuleToHorusKeyValue (rule : ChainRule) : Option (HorusRule × HorusValue) :=
  if rule.conntrack ≠ none then none else some (rule.horusRule, rule.horusValue)

/-- The loop over the rules, at most `n` of them, that set these fields. -/
def horusEntries (setFields : List Bool) : ℕ → List ChainRule → List (HorusRule × HorusValue)
  | 0, _ => []
  | _, [] => []
  | n + 1, rule :: rules =>
    match fromRuleToHorusKeyValue rule with
    | none => []
    | some (key, value) =>
      if key.setFields = setFields then (key, value) :: horusEntries setFields n rules else []

def horusFromRulesToMap (rules : List ChainRule) : List (HorusRule × HorusValue) :=
  match rules.head?.bind fromRuleToHorusKeyValue with
  | none => []
  | some (key, _) =>
    if true ∈ key.setFields then horusEntries key.setFields maxRuleSizeForHorus rules else []

def getRuleList (rules : List ChainRule) (defaultAction : ActionEnum) : List ChainRule :=
  rules ++ [⟨rules.length, none, none, none, none, none, none, none, defaultAction,
    some "Default Policy"⟩]

/-! ### The program -/

structure HorusFields where
  srcIp : BitVec 32
  dstIp : BitVec 32
  l4proto : BitVec 8
  srcPort : BitVec 16
  dstPort : BitVec 16

def PacketHeaders.horusFields (pkt : PacketHeaders) : HorusFields :=
  ⟨pkt.srcIp, pkt.dstIp, pkt.l4proto, pkt.srcPort, pkt.dstPort⟩

/-- The packet has the key.  All keys of a table set the same fields, and the key of a packet has
these; ports are put in network order. -/
def HorusRule.hits (f : HorusFields) (key : HorusRule) : Bool :=
  key.srcIp.all (fun ip => ip = f.srcIp) && key.dstIp.all (fun ip => ip = f.dstIp) &&
    key.l4proto.all (fun proto => proto = f.l4proto) &&
    key.srcPort.all (fun port => bswap16 port = f.srcPort) &&
    key.dstPort.all (fun port => bswap16 port = f.dstPort)

inductive HorusExit
  | rxDrop | pass | pipeline
  deriving DecidableEq

def rxHorus (horus : List (HorusRule × HorusValue)) (f : HorusFields) : HorusExit :=
  match horus.find? fun e => e.1.hits f with
  | none => .pipeline
  | some (_, value) =>
    if value.ruleID < maxRuleSizeForHorus then
      match value.action with
      | 0 => .rxDrop
      | 1 => .pass
      | _ => .pipeline
    else .pipeline

/-- `ConntrackModes` -/
inductive ConntrackMode
  | disabled | manual | automatic
  deriving DecidableEq

/-- The end of `ConntrackLabel` and what is behind it.  Without conntrack there is no such program,
and a call of it drops the packet. -/
def Loaded.label (chain : Loaded) (mode : ConntrackMode) (defaultAction : ActionEnum)
    (pkt : PacketHeaders) (result : BitVector) : Verdict :=
  match mode with
  | .disabled => .drop
  | .manual =>
    if pkt.forwardingDecision = .passLabeling then .accept
    else chain.classify defaultAction pkt result
  | .automatic =>
    if pkt.connStatus = .established then .accept
    else if pkt.forwardingDecision = .passLabeling then .accept
    else chain.classify defaultAction pkt result

/-- What follows `Parser` when the chain is loaded without Horus. -/
def Loaded.plain (chain : Loaded) (mode : ConntrackMode) (defaultAction : ActionEnum)
    (pkt : PacketHeaders) (result : BitVector) : Verdict :=
  if mode = .disabled then chain.classify defaultAction pkt result
  else chain.label mode defaultAction pkt result

/-- What follows `Parser` when the program is in front of the chain. -/
def Loaded.horus (chain : Loaded) (mode : ConntrackMode) (defaultAction : ActionEnum)
    (horus : List (HorusRule × HorusValue)) (pkt : PacketHeaders) (result : BitVector) : Verdict :=
  match rxHorus horus pkt.horusFields with
  | .rxDrop => .drop
  | .pass =>
    if mode = .disabled then .accept
    else chain.label mode defaultAction { pkt with forwardingDecision := .passLabeling } result
  | .pipeline => chain.label mode defaultAction pkt result

def leadingRules (rules : List ChainRule) : List ChainRule :=
  match rules with
  | [] => []
  | first :: _ =>
    if true ∈ first.horusRule.setFields then
      (rules.take maxRuleSizeForHorus).takeWhile fun rule =>
        rule.conntrack = none && rule.horusRule.setFields = first.horusRule.setFields
    else []

def horusHit (rules : List ChainRule) (f : HorusFields) : Option ChainRule :=
  (leadingRules rules).find? fun rule => rule.horusRule.hits f

section Verdicts

variable {rules : List ChainRule} {pkt : PacketHeaders} {label : ConntrackstatusEnum}
  {chain : Loaded} {mode : ConntrackMode} {defaultAction : ActionEnum} {shared : BitVector}

def plainVerdict (mode : ConntrackMode) (rules : List ChainRule) (defaultAction : ActionEnum)
    (p : Packet) : Verdict :=
  if mode = .automatic ∧ p.label = .established then .accept
  else firstMatch (ChainRule.reads rules p) rules defaultAction

/-- Each rule with another verdict that the packet meets, and the default if it is another, stands
behind one with this verdict that it meets too. -/
def Prevails {α : Type*} (met : α → Bool) (verdict : α → Verdict) (default v : Verdict)
    (rules : List α) : Prop :=
  (∀ (n : ℕ) (other : α), rules[n]? = some other → met other = true → verdict other ≠ v →
    ∃ rule ∈ rules.take n, met rule = true ∧ verdict rule = v) ∧
  (default ≠ v → ∃ rule ∈ rules, met rule = true ∧ verdict rule = v)

/-- When the verdicts agree.  A hit accepts an established packet in the automatic mode; else the
rule is one whose action prevails among the rules that the packet meets. -/
def Agrees (mode : ConntrackMode) (rules : List ChainRule) (defaultAction : ActionEnum)
    (f : HorusFields) (p : Packet) : Prop :=
  let prevails (v : Verdict) := Prevails (ChainRule.reads rules p) (fun rule => rule.action.verdict)
    defaultAction.verdict v rules
  match horusHit rules f with
  | none => mode ≠ .disabled ∨ leadingRules rules = [] ∨ prevails .drop
  | some rule =>
    if mode = .automatic ∧ p.label = .established then rule.action ≠ .drop
    else prevails rule.action.verdict

theorem label_eq (numbered : Numbered rules) (load : loadChain rules = .ok chain)
    (labelled : pkt.connStatus = label.connStatus) (on : mode ≠ .disabled)
    (notSet : pkt.forwardingDecision = .notSet) :
    chain.label mode defaultAction pkt (initShared chain.nrElements shared) =
      plainVerdict mode rules defaultAction (pkt.packet label) := by
  have classify := classify_eq_firstMatch numbered load labelled defaultAction shared
  have undecided : pkt.forwardingDecision ≠ .passLabeling := by
    rw [notSet]
    decide
  cases mode with
  | disabled => exact absurd rfl on
  | manual =>
    rw [Loaded.label, if_neg undecided, classify, plainVerdict, if_neg (by simp)]
  | automatic =>
    have same : (pkt.connStatus = .established) ↔ ((pkt.packet label).label = .established) := by
      rw [labelled]
      show label.connStatus = .established ↔ label = .established
      cases label <;> decide
    simp only [Loaded.label, if_neg undecided, classify, plainVerdict, true_and, same]

end Verdicts

end Polycube.Firewall
