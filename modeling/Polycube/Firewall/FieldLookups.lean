import Polycube.Firewall.FirstMatch

/-!
# What the programs of one field leave

The table of each field on its own.  A looked-up address finds the rules whose prefixes contain it
exactly where the loop compares the prefixes of the list as they contain each other; the programs
of protocol, ports and flags leave the bit of a rule (`Exit.survives`) when its conditions on what
the packet has hold.
-/

namespace Polycube.Firewall

open Lib

/-! ### Prefixes -/

section Addresses

variable {type : FieldType} {rules : List ChainRule} {a b : IpAddr} {address : BitVec 32}

abbrev currentIps (type : FieldType) (rules : List ChainRule) : List IpAddr :=
  rules.map fun r => r.currentIp type

def PrefixTableRight (type : FieldType) (rules : List ChainRule) (address : BitVec 32) : Prop :=
  match (prefixTable type rules).lookup address with
  | none => ∀ rule ∈ rules, ∀ a ∈ rule.ip type, a.contains address = false
  | some ele => Selects rules (fun rule => (rule.ip type).all fun a => a.contains address) ele

/-- The longest prefix that contains the address has the same first bits as another one, as the mask
takes them from the words in network order, exactly when the other one contains it. -/
def MasksAgree (type : FieldType) (rules : List ChainRule) (address : BitVec 32) : Prop :=
  ∀ a ∈ currentIps type rules, a.decides (currentIps type rules) address = true →
    ∀ b ∈ currentIps type rules, b.netmask ≤ a.netmask →
      (a.ip &&& b.mask = b.ip &&& b.mask ↔ b.contains a.net = true)

theorem selects_congr_iff {test test' : ChainRule → Bool} {v : BitVector}
    (numbered : Numbered rules) (h : Selects rules test v) :
    Selects rules test' v ↔ ∀ rule ∈ rules, test rule = test' rule := by
  constructor
  · intro h' rule hr
    rw [← h.hasRule_id numbered hr, h'.hasRule_id numbered hr]
  · exact h.congr

/-- The loop's comparison with the deciding prefix is right for a prefix when the masks agree. -/
theorem covers_eq_contains_iff (decides : a.decides (currentIps type rules) address = true)
    (hb : b ∈ currentIps type rules) :
    b.covers a = b.contains address ↔
      (b.netmask ≤ a.netmask → (a.ip &&& b.mask = b.ip &&& b.mask ↔ b.contains a.net = true)) := by
  obtain ⟨ca, longest⟩ := IpAddr.decides_iff.1 decides
  by_cases hle : b.netmask ≤ a.netmask
  · rw [Bool.eq_iff_iff, IpAddr.covers_iff, IpAddr.contains_congr hle ca]
    simp only [hle, and_true, forall_const]
  · -- a longer prefix contains the address no more than the loop says
    have outside : b.contains address = false := by
      by_contra hc
      rw [Bool.not_eq_false] at hc
      have := longest b hb hc
      omega
    have uncovered : b.covers a = false := by
      rw [← Bool.not_eq_true, IpAddr.covers_iff]
      exact fun h => hle h.2
    rw [outside, uncovered]
    exact iff_of_true rfl fun h => absurd h hle

/-- Without an address in the list there is no table, and every rule is compared as `0.0.0.0/0`. -/
theorem masksAgree_of_unset (unset : ∀ rule ∈ rules, rule.ip type = none) :
    MasksAgree type rules address := by
  intro a _ _ b hb _
  obtain ⟨r, hr, rfl⟩ := List.mem_map.1 hb
  have wild : (r.currentIp type).netmask = 0 := by
    rw [currentIp_of_none (unset r hr)]
    rfl
  exact iff_of_true (by simp [IpAddr.mask_of_zero wild]) (IpAddr.contains_of_zero wild)

/-- An address finds the right rules exactly when the masks compare the prefix that decides for it
with those of the list as they contain each other. -/
theorem prefixTableRight_iff (numbered : Numbered rules) (type : FieldType)
    (address : BitVec 32) :
    PrefixTableRight type rules address ↔ MasksAgree type rules address := by
  by_cases empty : (ipFromRulesToMap type rules).1 = []
  · have unset := ipFromRulesToMap_eq_nil_iff.1 empty
    refine iff_of_true ?_ (masksAgree_of_unset unset)
    have nothing : (prefixTable type rules).lookup address = none := by
      rw [Option.eq_none_iff_forall_ne_some]
      intro ele h
      obtain ⟨k, hk⟩ := Lpm.exists_of_lookup_eq_some h
      rw [prefixTable, empty] at hk
      cases hk
    unfold PrefixTableRight
    rw [nothing]
    intro rule hr a ha
    rw [unset rule hr] at ha
    cases ha
  unfold PrefixTableRight
  cases hlookup : (prefixTable type rules).lookup address with
  | none =>
    have outside := fun r hr => @contains_of_lookup_none type rules address empty hlookup r hr
    refine iff_of_true (fun rule hr a ha => ?_) fun a ha decides => ?_
    · rw [← outside rule hr, currentIp_of_some ha]
    · obtain ⟨r, hr, rfl⟩ := List.mem_map.1 ha
      have contained := (IpAddr.decides_iff.1 decides).1
      rw [outside r hr] at contained
      cases contained
  | some ele =>
    obtain ⟨r, hr, decides, rfl⟩ := decides_of_lookup_some hlookup
    have unique : ∀ a ∈ currentIps type rules, a.decides (currentIps type rules) address = true →
        a = r.currentIp type :=
      fun a ha da => IpAddr.eq_of_decides ha (List.mem_map_of_mem hr) da decides
    have found : Selects rules (fun s => (s.currentIp type).covers (r.currentIp type))
        (ipBitVector type rules (r.currentIp type)) := selects_rulesWith numbered
    refine (selects_congr_iff numbered found).trans ?_
    simp only [all_contains_eq]
    constructor
    · intro right a ha da b hb
      rw [unique a ha da]
      obtain ⟨s, hs, rfl⟩ := List.mem_map.1 hb
      exact (covers_eq_contains_iff decides hb).1 (right s hs)
    · intro agree s hs
      have hb : s.currentIp type ∈ currentIps type rules :=
        List.mem_map_of_mem (f := fun r => ChainRule.currentIp r type) hs
      exact (covers_eq_contains_iff decides hb).2
        (agree _ (List.mem_map_of_mem (f := fun r => ChainRule.currentIp r type) hr) decides _ hb)

/-- Prefixes that end at a byte are compared as they contain each other. -/
theorem masksAgree_of_octets (h : ∀ rule ∈ rules, ∀ b ∈ rule.ip type, b.netmask % 8 = 0) :
    MasksAgree type rules address := by
  intro a _ _ b hb _
  obtain ⟨r, hr, rfl⟩ := List.mem_map.1 hb
  apply IpAddr.comparable_of_octets
  cases hip : r.ip type with
  | none =>
    rw [currentIp_of_none hip]
    rfl
  | some b =>
    rw [currentIp_of_some hip]
    exact h r hr b hip

def sourceRule (id : ℕ) (a : IpAddr) : ChainRule where
  id
  ipSrc := some a
  ipDst := none
  srcPort := none
  dstPort := none
  l4Proto := none
  tcpFlags := none
  conntrack := none
  action := .drop
  description := none

def nestedRules : List ChainRule :=
  [sourceRule 0 ⟨0x0000100A#32, 12, by decide⟩, sourceRule 1 ⟨0x0000110A#32, 16, by decide⟩]

theorem prefixTableRight_octets :
    PrefixTableRight .source webRules 0x0A000007#32 := by
  have numbered : Numbered webRules := ⟨by decide, by decide⟩
  exact (prefixTableRight_iff numbered .source _).2 (masksAgree_of_octets (by decide))

/-- 10.17.0.1 is in both prefixes, and finds the second rule only. -/
theorem not_prefixTableRight_nested :
    Numbered nestedRules ∧ ¬ PrefixTableRight .source nestedRules 0x0A110001#32 := by
  refine ⟨⟨by decide, by decide⟩, ?_⟩
  have found : (prefixTable .source nestedRules).lookup 0x0A110001#32 =
      some (ipBitVector .source nestedRules ⟨0x0000110A#32, 16, by decide⟩) := by rfl
  unfold PrefixTableRight
  rw [found]
  intro right
  have first := (right 0).2 ⟨_, List.mem_cons_self, rfl, by decide⟩
  revert first
  decide

end Addresses

def Exit.survives (exit : Exit) (id : ℕ) : Bool :=
  match exit with
  | .nextHop result => hasRule result id
  | _ => false

def runLookups (nrElements : ℕ) (pkt : PacketHeaders) : List Program → BitVector → Exit
  | [], result => .nextHop result
  | program :: programs, result =>
    match program.handleRx nrElements pkt result with
    | .nextHop result => runLookups nrElements pkt programs result
    | exit => exit

def Leaves (rules : List ChainRule) (pkt : PacketHeaders) (program : Program)
    (t : ChainRule → Bool) : Prop :=
  ∀ v, ∀ rule ∈ rules, (program.handleRx (nrElements rules) pkt v).survives rule.id =
    (hasRule v rule.id && t rule)

section Rows

variable {rules : List ChainRule} {pkt : PacketHeaders} {label : ConntrackstatusEnum}
  {v ele : BitVector} {rule : ChainRule} {t : ChainRule → Bool}

theorem survives_narrow {n id : ℕ} (h : id / wordRules < n) :
    (narrow n v ele).survives id = (hasRule v id && hasRule ele id) := by
  have both : hasRule (v.inter n ele) id = (hasRule v id && hasRule ele id) := Words.has_inter h
  rw [← both]
  unfold narrow
  split
  next zero =>
    have word : (v.inter n ele).word (id / wordRules) = 0 := by
      simpa using List.all_eq_true.1 zero _ (List.mem_range.2 h)
    show false = ((v.inter n ele).word (id / wordRules)).getLsbD (id % wordRules)
    rw [word]
    simp
  next => rfl

/-- A program that goes on with what is looked up leaves the rules of its test. -/
theorem Tabulates.survives (numbered : Numbered rules) (hr : rule ∈ rules)
    {entry : Option BitVector} : Tabulates rules t entry →
    Exit.survives (match entry with
        | none => .defaultAction
        | some ele => narrow (nrElements rules) v ele) rule.id =
      (hasRule v rule.id && t rule) := by
  intro found
  cases entry with
  | none =>
    have none : t rule = false := found rule hr
    rw [none, Bool.and_false]
    rfl
  | some ele =>
    rw [← found.hasRule_id numbered hr]
    exact survives_narrow (lt_nrElements (numbered.id_lt_length hr))

theorem survives_runLookups {programs : List Program} {condition : Program → ChainRule → Bool}
    (leaves : ∀ program ∈ programs, Leaves rules pkt program (condition program))
    (hr : rule ∈ rules) (v : BitVector) :
    (runLookups (nrElements rules) pkt programs v).survives rule.id =
      (hasRule v rule.id && programs.all fun program => condition program rule) := by
  induction programs generalizing v with
  | nil =>
    rw [List.all_nil, Bool.and_true]
    rfl
  | cons program programs ih =>
    have here := leaves program (by simp) v rule hr
    have ih := ih fun p hp => leaves p (by simp [hp])
    rw [List.all_cons, ← Bool.and_assoc, ← here]
    unfold runLookups
    cases hexit : program.handleRx (nrElements rules) pkt v with
    | nextHop v' => exact ih v'
    | defaultAction => rfl
    | conntrackTableUpdate => rfl
    | rxDrop => rfl

/-- The programs of some fields, injected in two passes, leave the rules whose conditions on these
fields hold as the tables read them. -/
theorem survives_passes {fs : List Field} {lookups : List (Option Program × Bool)}
    (compiled : List.Forall₂ (fun f e => Compiles rules pkt label f e.1) fs lookups)
    (leaves : ∀ program brk, (some program, brk) ∈ lookups →
      Leaves rules pkt program (program.reading rules (pkt.packet label)))
    (hr : rule ∈ rules) (v : BitVector) :
    (runLookups (nrElements rules) pkt (pass false lookups ++ pass true lookups) v).survives
        rule.id =
      (hasRule v rule.id && fs.all (rule.reading rules (pkt.packet label))) := by
  rw [survives_runLookups (fun program hp => ?_) hr]
  · congr 1
    rw [Bool.eq_iff_iff, List.all_eq_true, List.all_eq_true, ← tests_of_compiled compiled hr]
    exact forall_congr' fun program => imp_congr_left mem_passes
  · obtain ⟨brk, he⟩ := mem_passes.1 hp
    exact leaves program brk he

theorem mem_ifNonempty {ε : Type} {map : List ε} {program program' : Program}
    (h : some program = ifNonempty map program') : map ≠ [] ∧ program = program' := by
  unfold ifNonempty at h
  split at h
  · cases h
  next nonempty => exact ⟨nonempty, Option.some.inj h⟩

end Rows

section Ports

variable {rules : List ChainRule} {pkt : PacketHeaders} {label : ConntrackstatusEnum}
  {rule : ChainRule}

theorem leaves_l4ProtocolLookup (numbered : Numbered rules)
    (nonempty : (transportProtoFromRulesToMap rules).1 ≠ []) :
    Leaves rules pkt (l4ProtocolLookup (transportProtoFromRulesToMap rules).1) fun rule =>
      rule.reading rules (pkt.packet label) .proto := by
  intro v rule hr
  have found := @tabulates_l4ProtocolLookup _ numbered nonempty (pkt.packet label)
  exact Tabulates.survives numbered hr found

theorem leaves_l4PortLookup (numbered : Numbered rules) {type : FieldType}
    (nonempty : (portFromRulesToMap type rules).1 ≠ []) :
    Leaves rules pkt (l4PortLookup type (portFromRulesToMap type rules).1) fun rule =>
      rule.reading rules (pkt.packet label) (.port type) := by
  intro v rule hr
  show Exit.survives (rxL4PortLookup _ _ _ _ _ _) _ = _
  unfold rxL4PortLookup
  by_cases other : pkt.l4proto ≠ ipprotoTcp ∧ pkt.l4proto ≠ ipprotoUdp
  · rw [if_pos other]
    have ignored : rule.reading rules (pkt.packet label) (.port type) = true := by
      simp [reading_port, PacketHeaders.packet, other.1, other.2]
    show hasRule v rule.id = (hasRule v rule.id && rule.reading rules _ _)
    rw [ignored, Bool.and_true]
  · rw [if_neg other]
    have ports : pkt.l4proto = ipprotoTcp ∨ pkt.l4proto = ipprotoUdp := by
      by_contra e
      exact other (not_or.1 e)
    have found := tabulates_l4PortLookup numbered nonempty (pkt.port type)
    simp only [reading_port, PacketHeaders.packet, ports, if_true, Option.map_some,
      Option.getD_some]
    exact Tabulates.survives numbered hr found

def l4Lookups (rules : List ChainRule) : List (Option Program × Bool) :=
  let protocol := transportProtoFromRulesToMap rules
  let portsrc := portFromRulesToMap .source rules
  let portdst := portFromRulesToMap .destination rules
  [(ifNonempty protocol.1 (l4ProtocolLookup protocol.1), protocol.2),
   (ifNonempty portsrc.1 (l4PortLookup .source portsrc.1), portsrc.2),
   (ifNonempty portdst.1 (l4PortLookup .destination portdst.1), portdst.2)]

theorem leaves_l4Lookups (numbered : Numbered rules) {program : Program} {brk : Bool}
    (h : (some program, brk) ∈ l4Lookups rules) :
    Leaves rules pkt program (program.reading rules (pkt.packet label)) := by
  simp only [l4Lookups, List.mem_cons, Prod.mk.injEq, List.not_mem_nil, or_false] at h
  rcases h with ⟨h, -⟩ | ⟨h, -⟩ | ⟨h, -⟩
  · obtain ⟨nonempty, rfl⟩ := mem_ifNonempty h
    exact leaves_l4ProtocolLookup numbered nonempty
  · obtain ⟨nonempty, rfl⟩ := mem_ifNonempty h
    exact leaves_l4PortLookup numbered nonempty
  · obtain ⟨nonempty, rfl⟩ := mem_ifNonempty h
    exact leaves_l4PortLookup numbered nonempty

/-- The bit of a rule without port 0 survives exactly when its protocol is the packet's and, for a
packet of TCP or UDP, so are its ports. -/
theorem survives_l4Lookups (numbered : Numbered rules) (hr : rule ∈ rules)
    (nonzero : ∀ type, rule.port type ≠ some 0) (pkt : PacketHeaders)
    (label : ConntrackstatusEnum) (v : BitVector) :
    (runLookups (nrElements rules) pkt
        (pass false (l4Lookups rules) ++ pass true (l4Lookups rules)) v).survives rule.id =
      (hasRule v rule.id && [.proto, .port .source, .port .destination].all
        (rule.test true (pkt.packet label))) := by
  have compiled : List.Forall₂ (fun f e => Compiles rules pkt label f e.1)
      [.proto, .port .source, .port .destination] (l4Lookups rules) :=
    .cons (compiles_l4ProtocolLookup numbered) (.cons (compiles_l4PortLookup numbered .source)
      (.cons (compiles_l4PortLookup numbered .destination) .nil))
  rw [survives_passes compiled (fun _ _ => leaves_l4Lookups numbered) hr]
  simp only [List.all_cons, List.all_nil, reading_port_eq_test _ hr (nonzero _)]
  rfl

theorem survives_l4Lookups_web :
    (runLookups (nrElements webRules) { noHeaders with l4proto := ipprotoTcp, dstPort := 0x5000 }
      (pass false (l4Lookups webRules) ++ pass true (l4Lookups webRules))
      (initShared 1 Words.zero)).survives 0 = true := by
  have numbered : Numbered webRules := ⟨by decide, by decide⟩
  exact (survives_l4Lookups numbered (List.mem_cons_self) (fun type => by cases type <;> decide)
    _ .new _).trans (by decide)

/-- The rule for port 80 survives an ICMP packet, which has no ports. -/
theorem survives_l4Lookups_icmp : Numbered portRules ∧
    ∃ pkt : PacketHeaders, (pkt.packet .new).ports = none ∧
      (runLookups (nrElements portRules) pkt
        (pass false (l4Lookups portRules) ++ pass true (l4Lookups portRules))
        (initShared 1 Words.zero)).survives 0 = true :=
  ⟨⟨by decide, by decide⟩, { noHeaders with l4proto := ipprotoIcmp }, rfl, by decide⟩

end Ports

section Flags

variable {rules : List ChainRule} {pkt : PacketHeaders} {label : ConntrackstatusEnum}
  {rule : ChainRule}

theorem leaves_tcpFlagsLookup (numbered : Numbered rules) {tcpFlags : BitVec 8 → BitVector}
    (load : (flagsFromRulesToMap rules).1 = some tcpFlags) :
    Leaves rules pkt (.tcpFlagsLookup tcpFlags) fun rule =>
      rule.reading rules (pkt.packet label) .flags := by
  intro v rule hr
  show Exit.survives (rxTcpFlagsLookup _ _ _ _) _ = _
  unfold rxTcpFlagsLookup
  by_cases tcp : pkt.l4proto = ipprotoTcp
  · rw [if_neg (not_not.2 tcp), survives_narrow (lt_nrElements (numbered.id_lt_length hr)),
      (selects_tcpFlags numbered load pkt.flags).hasRule_id numbered hr]
    simp only [reading_flags, PacketHeaders.packet, tcp, if_true, Option.map_some,
      Option.getD_some]
  · rw [if_pos tcp]
    have ignored : rule.reading rules (pkt.packet label) .flags = true := by
      simp [reading_flags, PacketHeaders.packet, tcp]
    show hasRule v rule.id = (hasRule v rule.id && rule.reading rules _ _)
    rw [ignored, Bool.and_true]

def flagsLookups (rules : List ChainRule) : List (Option Program × Bool) :=
  [((flagsFromRulesToMap rules).1.map .tcpFlagsLookup, (flagsFromRulesToMap rules).2)]

/-- The bit of a rule survives exactly when, for a packet of TCP, the flags it wants are set and
those it forbids are clear; a rule that sets flags wants at least one set. -/
theorem survives_flagsLookups (numbered : Numbered rules) (hr : rule ∈ rules)
    (nonzero : ∀ f ∈ rule.tcpFlags, f.flagsSet ≠ 0) (pkt : PacketHeaders)
    (label : ConntrackstatusEnum) (v : BitVector) :
    (runLookups (nrElements rules) pkt
        (pass false (flagsLookups rules) ++ pass true (flagsLookups rules)) v).survives rule.id =
      (hasRule v rule.id && rule.test true (pkt.packet label) .flags) := by
  have compiled : List.Forall₂ (fun f e => Compiles rules pkt label f e.1)
      [.flags] (flagsLookups rules) :=
    .cons (compiles_tcpFlagsLookup numbered) .nil
  have leaves : ∀ program brk, (some program, brk) ∈ flagsLookups rules →
      Leaves rules pkt program (program.reading rules (pkt.packet label)) := by
    intro program brk h
    obtain ⟨tcpFlags, load, rfl⟩ :=
      Option.map_eq_some_iff.1 (Prod.mk.inj (List.mem_singleton.1 h)).1.symm
    exact leaves_tcpFlagsLookup numbered load
  rw [survives_passes compiled leaves hr, List.all_cons, List.all_nil, Bool.and_true,
    reading_flags_eq_test _ nonzero]

theorem survives_flagsLookups_web :
    (runLookups (nrElements webRules) { noHeaders with l4proto := ipprotoTcp, flags := tcphdrSyn }
      (pass false (flagsLookups webRules) ++ pass true (flagsLookups webRules))
      (initShared 1 Words.zero)).survives 0 = true := by
  have numbered : Numbered webRules := ⟨by decide, by decide⟩
  exact (survives_flagsLookups numbered List.mem_cons_self (by decide) _ .new _).trans (by decide)

/-- The rule for SYN segments survives a UDP packet, which has no flags. -/
theorem survives_flagsLookups_udp : Numbered webRules ∧
    ∃ pkt : PacketHeaders, (pkt.packet .new).flags = none ∧
      (runLookups (nrElements webRules) pkt
        (pass false (flagsLookups webRules) ++ pass true (flagsLookups webRules))
        (initShared 1 Words.zero)).survives 0 = true :=
  ⟨⟨by decide, by decide⟩, { noHeaders with l4proto := ipprotoUdp }, rfl, by decide⟩

end Flags

end Polycube.Firewall
