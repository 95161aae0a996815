import Mathlib.Data.Finset.Max
import Mathlib.Data.List.Find
import Polycube.Firewall.Classification

/-!
# First match

Where the tables of a list read every condition as it is meant (`Plain`), the verdict of a loaded
chain is the action of the first rule that matches the packet.
-/

namespace Polycube.Firewall

open Lib

/-- Prefixes of the rules are compared as words in network order; this says that the comparison
is containment of the prefixes. -/
def Comparable (type : FieldType) (rules : List ChainRule) : Prop :=
  ∀ r ∈ rules, ∀ s ∈ rules, ∀ a ∈ r.ip type, ∀ b ∈ s.ip type, b.netmask ≤ a.netmask →
    (a.ip &&& b.mask = b.ip &&& b.mask ↔ b.contains a.net = true)

/-- What a rule list must be like for the comparisons of the tables to be those of the fields:
prefixes that compare as they contain each other, no port 0, no flags that are only forbidden. -/
structure Plain (rules : List ChainRule) : Prop where
  comparable : ∀ type, Comparable type rules
  port_ne_zero : ∀ type, ∀ rule ∈ rules, rule.port type ≠ some 0
  flagsSet_ne_zero : ∀ rule ∈ rules, ∀ f ∈ rule.tcpFlags, f.flagsSet ≠ 0

section Readings

variable {type : FieldType} {rules : List ChainRule} {a b : IpAddr} {address : BitVec 32}

theorem Comparable.covers_iff (h : Comparable type rules) {r s : ChainRule} (hr : r ∈ rules)
    (hs : s ∈ rules) : (s.currentIp type).covers (r.currentIp type) = true ↔
      (s.currentIp type).netmask ≤ (r.currentIp type).netmask ∧
        (s.currentIp type).contains (r.currentIp type).net = true := by
  rw [IpAddr.covers_iff, and_comm]
  refine and_congr_right fun hle => ?_
  have ofZero : (s.currentIp type).netmask = 0 →
      ((r.currentIp type).ip &&& (s.currentIp type).mask =
        (s.currentIp type).ip &&& (s.currentIp type).mask ↔
        (s.currentIp type).contains (r.currentIp type).net = true) := by
    intro h0
    exact iff_of_true (by simp [IpAddr.mask_of_zero h0]) (IpAddr.contains_of_zero h0)
  cases hsip : s.ip type with
  | none => exact ofZero (by rw [currentIp_of_none hsip]; rfl)
  | some b =>
    cases hrip : r.ip type with
    | none =>
      apply ofZero
      rw [currentIp_of_none hrip] at hle
      exact Nat.le_zero.1 hle
    | some a =>
      rw [currentIp_of_some hsip, currentIp_of_some hrip] at hle ⊢
      exact h r hr s hs a hrip b hsip hle

/-- A shorter prefix that contains a prefix contains its addresses, and conversely. -/
theorem IpAddr.contains_congr (hle : b.netmask ≤ a.netmask) (h : a.contains address = true) :
    b.contains a.net = b.contains address := by
  have same := topBits_eq_of_le hle a.netmask_le (of_decide_eq_true h)
  rw [contains, contains, same]

theorem IpAddr.exists_decides {ips : List IpAddr} (hb : b ∈ ips) (hc : b.contains address = true) :
    ∃ a ∈ ips, a.decides ips address = true := by
  -- the largest by length, then by word
  obtain ⟨a, ha, largest⟩ := Finset.exists_max_image
    (ips.filter fun a => a.contains address).toFinset (fun a => a.netmask * 2 ^ 32 + a.ip.toNat)
    ⟨b, by simp [hb, hc]⟩
  simp only [List.mem_toFinset, List.mem_filter] at ha largest
  refine ⟨a, ha.1, decides_iff.2 ⟨ha.2, fun c hc cc => ?_⟩⟩
  have := largest c ⟨hc, cc⟩
  have ha32 := a.ip.isLt
  have hc32 := c.ip.isLt
  rcases Nat.lt_trichotomy c.netmask a.netmask with hn | hn | hn
  · exact Or.inl hn
  · refine Or.inr ⟨hn, ?_⟩
    rw [BitVec.le_def]
    rw [hn] at this
    omega
  · omega

variable {rule : ChainRule}

theorem reading_ip_eq_contains (comparable : Comparable type rules) {p : Packet}
    (hr : rule ∈ rules) :
    rule.reading rules p (.ip type) = (rule.currentIp type).contains (p.address type) := by
  rw [Bool.eq_iff_iff]
  constructor
  · intro h
    rw [reading_ip, List.any_eq_true] at h
    obtain ⟨a, ha, h⟩ := h
    obtain ⟨da, hc⟩ := Bool.and_eq_true_iff.1 h
    obtain ⟨r, hr', rfl⟩ := List.mem_map.1 ha
    obtain ⟨hle, hnet⟩ := (comparable.covers_iff hr' hr).1 hc
    rwa [← IpAddr.contains_congr hle (IpAddr.decides_iff.1 da).1]
  · intro hc
    have inList := List.mem_map_of_mem (f := fun r => ChainRule.currentIp r type) hr
    obtain ⟨a, ha, da⟩ := IpAddr.exists_decides inList hc
    rw [reading_ip_of_decides ha da]
    obtain ⟨r, hr', rfl⟩ := List.mem_map.1 ha
    obtain ⟨ca, longest⟩ := IpAddr.decides_iff.1 da
    have hle : (rule.currentIp type).netmask ≤ (r.currentIp type).netmask := by
      have := longest _ inList hc
      omega
    exact (comparable.covers_iff hr' hr).2 ⟨hle, (IpAddr.contains_congr hle ca).trans hc⟩

theorem all_contains_eq (rule : ChainRule) :
    ((rule.ip type).all fun a => a.contains address) = (rule.currentIp type).contains address := by
  cases hip : rule.ip type with
  | none =>
    rw [currentIp_of_none hip, Option.all_none]
    exact (IpAddr.contains_of_zero rfl).symm
  | some a => rw [currentIp_of_some hip, Option.all_some]

theorem test_ip_eq_contains (p : Packet) (absent : Bool) (rule : ChainRule) :
    rule.test absent p (.ip type) = (rule.currentIp type).contains (p.address type) := by
  rw [test_ip, all_contains_eq]

theorem reading_port_eq_test (p : Packet) (hr : rule ∈ rules) (nonzero : rule.port type ≠ some 0) :
    rule.reading rules p (.port type) = rule.test true p (.port type) := by
  rw [reading_port, test_port]
  cases hport : rule.port type with
  | none => rfl
  | some port =>
    cases hp : p.ports with
    | none => rfl
    | some ports =>
      have real : ¬ port = 0#16 := fun e => nonzero (hport.trans (congrArg some e))
      simp only [Option.all_some, Option.map_some, Option.getD_some]
      split
      · simp only [eq_comm]
      next absent =>
        have other : ports type ≠ port := fun e => absent ⟨rule, hr, by rw [hport, e]⟩
        simp [real, other]

theorem reading_flags_eq_test (p : Packet) (nonzero : ∀ f ∈ rule.tcpFlags, f.flagsSet ≠ 0) :
    rule.reading rules p .flags = rule.test true p .flags := by
  rw [reading_flags, test_flags]
  cases hf : rule.tcpFlags with
  | none => rfl
  | some f =>
    have : ¬ f.flagsSet = 0#8 := nonzero f hf
    have same : f.candidate = f.met := by
      funext flags
      simp [TcpFlags.candidate, TcpFlags.met, this]
    rw [Option.all_some, Option.all_some, same]

theorem Plain.reading_eq_test (plain : Plain rules) (p : Packet)
    (hr : rule ∈ rules) (f : Field) : rule.reading rules p f = rule.test true p f := by
  cases f with
  | conntrack => rfl
  | proto => rfl
  | ip type => rw [reading_ip_eq_contains (plain.comparable type) hr, test_ip_eq_contains]
  | port type => exact reading_port_eq_test p hr (plain.port_ne_zero type rule hr)
  | flags => exact reading_flags_eq_test p (plain.flagsSet_ne_zero rule hr)

theorem Plain.reads_eq_matches (plain : Plain rules) (p : Packet)
    (hr : rule ∈ rules) : rule.reads rules p = rule.matches p := by
  unfold ChainRule.reads ChainRule.matches
  congr 1
  funext f
  exact plain.reading_eq_test p hr f

end Readings

theorem firstMatch_congr {test test' : ChainRule → Bool} {rules : List ChainRule}
    (h : ∀ rule ∈ rules, test rule = test' rule) (defaultAction : ActionEnum) :
    firstMatch test rules defaultAction = firstMatch test' rules defaultAction := by
  rw [firstMatch, List.find?_congr h, firstMatch]

/-- A frame gets the verdict of the first rule that matches the packet in it. -/
theorem verdict_eq_firstMatch {rules : List ChainRule} (numbered : Numbered rules)
    (plain : Plain rules) {chain : Loaded} (load : loadChain rules = .ok chain)
    (defaultAction : ActionEnum) {frame : Buffer} {label : ConntrackstatusEnum} {p : Packet}
    (hp : Packet.ofFrame frame label = some p) (old : PacketHeaders) (shared : BitVector) :
    chain.verdict defaultAction frame label.connStatus old shared =
      firstMatch (ChainRule.matches p) rules defaultAction := by
  obtain ⟨pkt, hparse, rfl⟩ := parse_of_ofFrame hp old
  unfold Loaded.verdict
  rw [hparse, ← firstMatch_congr fun rule hr => plain.reads_eq_matches _ hr]
  exact classify_eq_firstMatch numbered load rfl defaultAction shared

theorem IpAddr.toNat_mask (a : IpAddr) : a.mask.toNat = 2 ^ a.netmask - 1 := by
  have masks : ∀ n ≤ 32,
      (if n = 32 then 0xffffffff#32 else (1#32 <<< n) - 1#32).toNat = 2 ^ n - 1 := by decide
  exact masks a.netmask a.netmask_le

/-- The comparison looks at the first bits of the words, which are those of their first bytes from
the low end. -/
theorem IpAddr.and_mask_eq_iff {a b : IpAddr} : a.ip &&& b.mask = b.ip &&& b.mask ↔
    ∀ i < b.netmask, a.ip.getLsbD i = b.ip.getLsbD i := by
  have bit : ∀ i, b.mask.getLsbD i = decide (i < b.netmask) := by
    intro i
    rw [← BitVec.testBit_toNat, toNat_mask, Nat.testBit_two_pow_sub_one]
  constructor
  · intro h i hi
    have := congrArg (fun x => x.getLsbD i) h
    simpa [BitVec.getLsbD_and, bit, hi] using this
  · intro h
    apply BitVec.eq_of_getLsbD_eq
    intro i _
    rw [BitVec.getLsbD_and, BitVec.getLsbD_and, bit]
    by_cases hi : i < b.netmask
    · rw [h i hi]
    · simp [hi]

/-- For a whole number of bytes the first bits of the words are those of the addresses. -/
theorem IpAddr.comparable_of_octets (a b : IpAddr) (h : b.netmask % 8 = 0) :
    a.ip &&& b.mask = b.ip &&& b.mask ↔ b.contains a.net = true := by
  have hle := b.netmask_le
  rw [and_mask_eq_iff, contains, decide_eq_true_eq, topBits_eq_iff, net, net]
  constructor
  · intro low j hj
    rcases Nat.lt_or_ge j 32 with hlt | hge
    · rw [getLsbD_bswap32 _ hlt, getLsbD_bswap32 _ hlt]
      exact low _ (by omega)
    · rw [BitVec.getLsbD_of_ge _ _ hge, BitVec.getLsbD_of_ge _ _ hge]
  · intro high i hi
    have mirror := high (24 - 8 * (i / 8) + i % 8) (by omega)
    rw [getLsbD_bswap32 _ (by omega), getLsbD_bswap32 _ (by omega)] at mirror
    have back : 24 - 8 * ((24 - 8 * (i / 8) + i % 8) / 8) + (24 - 8 * (i / 8) + i % 8) % 8 = i := by
      omega
    rwa [back] at mirror

theorem comparable_of_octets {type : FieldType} {rules : List ChainRule}
    (h : ∀ rule ∈ rules, ∀ b ∈ rule.ip type, b.netmask % 8 = 0) : Comparable type rules :=
  fun _ _ s hs a _ b hb _ => IpAddr.comparable_of_octets a b (h s hs b hb)

def webRules : List ChainRule :=
  [{ id := 0, ipSrc := some ⟨0x0000000A#32, 8, by decide⟩, ipDst := none, srcPort := none,
     dstPort := some 80, l4Proto := some .tcp, tcpFlags := some ⟨tcphdrSyn, tcphdrAck, by decide⟩,
     conntrack := some .new, action := .drop, description := none },
   { id := 1, ipSrc := none, ipDst := some ⟨0x0302010A#32, 32, by decide⟩, srcPort := none,
     dstPort := none, l4Proto := none, tcpFlags := none, conntrack := none, action := .accept,
     description := none }]

def ipFrame (proto : BitVec 8) (payload : Buffer) : Buffer :=
  List.replicate 12 0 ++ [0x08, 0x00, 0x45] ++ List.replicate 8 0 ++ [proto, 0, 0] ++
    [10, 0, 0, 7, 10, 1, 2, 3] ++ payload

def synFrame : Buffer :=
  ipFrame ipprotoTcp ([0x10, 0x00, 0x00, 0x50] ++ List.replicate 9 0 ++ [tcphdrSyn] ++
    List.replicate 6 0)

def noHeaders : PacketHeaders where
  srcIp := 0
  dstIp := 0
  l4proto := 0
  srcPort := 0
  dstPort := 0
  flags := 0
  seqN := 0
  ackN := 0
  connStatus := .new
  forwardingDecision := .notSet

theorem plain_webRules : Plain webRules where
  comparable type := comparable_of_octets (by cases type <;> decide)
  port_ne_zero type := by cases type <;> decide
  flagsSet_ne_zero := by decide

theorem verdict_syn : ∃ chain p, loadChain webRules = .ok chain ∧
    Packet.ofFrame synFrame .new = some p ∧
    chain.verdict .accept synFrame ConntrackstatusEnum.new.connStatus noHeaders Words.zero =
      .drop := by
  have numbered : Numbered webRules := ⟨by decide, by decide⟩
  obtain ⟨chain, load⟩ : ∃ chain, loadChain webRules = .ok chain := ⟨_, rfl⟩
  refine ⟨chain, _, load, rfl, ?_⟩
  exact (verdict_eq_firstMatch numbered plain_webRules load .accept rfl noHeaders
    Words.zero).trans (by decide)

def portRules : List ChainRule :=
  [{ id := 0, ipSrc := none, ipDst := none, srcPort := none, dstPort := some 80, l4Proto := none,
     tcpFlags := none, conntrack := none, action := .drop, description := none }]

/-- An ICMP packet has no port 80, and is dropped. -/
theorem verdict_icmp_not_holds : Numbered portRules ∧ ∃ chain p,
    loadChain portRules = .ok chain ∧
    Packet.ofFrame (ipFrame ipprotoIcmp (List.replicate 8 0)) .new = some p ∧
    chain.verdict .accept (ipFrame ipprotoIcmp (List.replicate 8 0)) .new noHeaders Words.zero ≠
      firstMatch (ChainRule.holds p) portRules .accept :=
  ⟨⟨by decide, by decide⟩, _, _, rfl, rfl, by decide⟩

end Polycube.Firewall
