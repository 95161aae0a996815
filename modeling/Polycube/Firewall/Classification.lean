import Polycube.Firewall.Tables

/-!
# The chain decides by the first matching rule

Every lookup program narrows the bit vector of the rules that may still match by its field's
condition (`Sound`), whatever the order of the programs is, so the vector that reaches `BitScan`
holds the rules that match the packet, and its lowest bit is the first of them.
-/

namespace Polycube.Firewall

open Function Lib

/-! ### Narrowing -/

structure Narrowed (rules : List ChainRule) (test : ChainRule → Bool) (v : BitVector) : Prop where
  tight : v.Tight wordRules (fromNRulesToNElements rules.length)
  hasRule_id : ∀ rule ∈ rules, hasRule v rule.id = test rule
  some_rule : ∃ rule ∈ rules, test rule = true

def Outcome (rules : List ChainRule) (test : ChainRule → Bool) : Exit → Prop
  | .nextHop v => Narrowed rules test v
  | .defaultAction => ∀ rule ∈ rules, test rule = false
  | _ => False

abbrev nrElements (rules : List ChainRule) : ℕ := fromNRulesToNElements rules.length

def Sound (rules : List ChainRule) (pkt : PacketHeaders) (program : Program)
    (t : ChainRule → Bool) : Prop :=
  ∀ test v, Narrowed rules test v →
    Outcome rules (fun rule => test rule && t rule) (program.handleRx (nrElements rules) pkt v)

def Tabulates (rules : List ChainRule) (t : ChainRule → Bool) : Option BitVector → Prop
  | none => ∀ rule ∈ rules, t rule = false
  | some ele => Selects rules t ele

section Narrow

variable {rules : List ChainRule} {test t : ChainRule → Bool} {v ele : BitVector}

theorem lt_nrElements {rules : List ChainRule} {id : ℕ} (h : id < rules.length) :
    id / wordRules < nrElements rules := by
  unfold nrElements fromNRulesToNElements wordRules
  split <;> omega

theorem Tabulates.congr {t' : ChainRule → Bool} {entry : Option BitVector}
    (h : Tabulates rules t entry) (e : ∀ rule ∈ rules, t rule = t' rule) :
    Tabulates rules t' entry := by
  cases entry with
  | none => exact fun rule hr => (e rule hr).symm.trans (h rule hr)
  | some ele => exact Selects.congr h e

theorem Narrowed.congr {test' : ChainRule → Bool} (h : Narrowed rules test v)
    (e : ∀ rule ∈ rules, test rule = test' rule) : Narrowed rules test' v where
  tight := h.tight
  hasRule_id rule hr := (h.hasRule_id rule hr).trans (e rule hr)
  some_rule := by
    obtain ⟨rule, hr, ht⟩ := h.some_rule
    exact ⟨rule, hr, (e rule hr).symm.trans ht⟩

theorem outcome_narrow (numbered : Numbered rules) (h : Narrowed rules test v)
    (hele : Selects rules t ele) :
    Outcome rules (fun rule => test rule && t rule) (narrow (nrElements rules) v ele) := by
  have tight : (v.inter (nrElements rules) ele).Tight wordRules (nrElements rules) :=
    h.tight.inter
  have bit : ∀ rule ∈ rules,
      hasRule (v.inter (nrElements rules) ele) rule.id = (test rule && t rule) := by
    intro rule hr
    rw [← h.hasRule_id rule hr, ← hele.hasRule_id numbered hr]
    exact Words.has_inter (lt_nrElements (numbered.id_lt_length hr))
  have zero := tight.isAllZero_iff (by decide)
  unfold narrow
  split
  next allZero =>
    intro rule hr
    show (test rule && t rule) = false
    rw [← bit rule hr]
    refine zero.1 allZero rule.id ?_
    exact (Nat.div_lt_iff_lt_mul (by decide)).1 (lt_nrElements (numbered.id_lt_length hr))
  next notZero =>
    refine ⟨tight, bit, ?_⟩
    rw [zero] at notZero
    push Not at notZero
    obtain ⟨k, hk, hbit⟩ := notZero
    rw [ne_eq, Bool.not_eq_false] at hbit
    have hk' := (Nat.div_lt_iff_lt_mul (by decide)).2 hk
    have hboth : (hasRule v k && hasRule ele k) = true := (Words.has_inter hk').symm.trans hbit
    rw [Bool.and_eq_true] at hboth
    obtain ⟨rule, hr, rfl, -⟩ := (hele k).1 hboth.2
    exact ⟨rule, hr, (bit rule hr).symm.trans hbit⟩

theorem Outcome.congr {test' : ChainRule → Bool} {exit : Exit} (h : Outcome rules test exit)
    (e : ∀ rule ∈ rules, test rule = test' rule) : Outcome rules test' exit := by
  cases exit with
  | nextHop v => exact Narrowed.congr h e
  | defaultAction => exact fun rule hr => (e rule hr).symm.trans (h rule hr)
  | conntrackTableUpdate => exact h
  | rxDrop => exact h

theorem outcome_defaultAction (h : ∀ rule ∈ rules, t rule = false) :
    Outcome rules (fun rule => test rule && t rule) .defaultAction := by
  intro rule hr
  simp only [h rule hr, Bool.and_false]

/-- A program that goes on with what is looked up narrows by its test. -/
theorem Tabulates.outcome (numbered : Numbered rules) (h : Narrowed rules test v)
    {entry : Option BitVector} : Tabulates rules t entry →
    Outcome rules (fun rule => test rule && t rule)
      (match entry with
        | none => .defaultAction
        | some ele => narrow (nrElements rules) v ele) := by
  intro found
  cases entry with
  | none => exact outcome_defaultAction found
  | some ele => exact outcome_narrow numbered h found

/-- A program that ignores the packet narrows by a test every rule passes. -/
theorem outcome_nextHop (h : Narrowed rules test v) (all : ∀ rule ∈ rules, t rule = true) :
    Outcome rules (fun rule => test rule && t rule) (.nextHop v) :=
  h.congr fun rule hr => by rw [all rule hr, Bool.and_true]

end Narrow

/-! ### The lookup programs -/

section Addresses

variable {type : FieldType} {rules : List ChainRule} {a b : IpAddr} {address : BitVec 32}

namespace IpTrie

def setPrefix (entries : Lpm 32 BitVector) (e : IpAddr × BitVector) : Lpm 32 BitVector :=
  entries.set e.1.netmask (bswap32 e.1.ip) e.2

theorem setPrefix_apply (entries : Lpm 32 BitVector) (e : IpAddr × BitVector)
    (k : ℕ × BitVec 32) :
    setPrefix entries e k = if k = key e.1 then some e.2 else entries k :=
  update_apply _ _ _ _

variable {ips : OrdMap IpAddr BitVector} {t t' : IpTrie} {v : BitVector} {k : ℕ × BitVec 32}

theorem entries_updateTableValue (h : t.updateTableValue a v = .ok t') :
    t'.entries = setPrefix t.entries (a, v) := by
  unfold updateTableValue at h
  split at h
  · rw [← Except.ok.inj h]
    rfl
  · split at h
    · rw [← Except.ok.inj h]
      rfl
    · cases h

theorem entries_updateMap (h : updateMap ips t = .ok t') :
    t'.entries = ips.foldl setPrefix t.entries := by
  induction ips generalizing t with
  | nil =>
    rw [updateMap, Except.ok.injEq] at h
    rw [h, List.foldl_nil]
  | cons e ips ih =>
    rw [updateMap] at h
    split at h
    · cases h
    next t₁ h₁ => rw [ih h, entries_updateTableValue h₁, List.foldl_cons]

variable {entries : Lpm 32 BitVector}

theorem last_of_setPrefix (ordered : ips.Ordered) (hk : ips.foldl setPrefix entries k = some v) :
    (entries k = some v ∧ ∀ e ∈ ips, key e.1 ≠ k) ∨
      ∃ a, (a, v) ∈ ips ∧ key a = k ∧ ∀ e ∈ ips, key e.1 = k → e.1.ip ≤ a.ip := by
  induction ips generalizing entries with
  | nil => exact Or.inl ⟨hk, by simp⟩
  | cons e ips ih =>
    obtain ⟨first, rest⟩ := List.pairwise_cons.1 ordered
    rcases ih rest hk with ⟨h₂, others⟩ | ⟨a, ha, hka, last⟩
    · rw [setPrefix_apply] at h₂
      by_cases hkey : k = key e.1
      · rw [if_pos hkey] at h₂
        refine Or.inr ⟨e.1, by simp [← Option.some.inj h₂], hkey.symm, ?_⟩
        rintro e' he' hke'
        rcases List.mem_cons.1 he' with rfl | he'
        · exact BitVec.le_refl _
        · exact absurd hke' (others e' he')
      · rw [if_neg hkey] at h₂
        exact Or.inl ⟨h₂, List.forall_mem_cons.2 ⟨Ne.symm hkey, others⟩⟩
    · refine Or.inr ⟨a, List.mem_cons_of_mem _ ha, hka, List.forall_mem_cons.2 ⟨fun _ => ?_, last⟩⟩
      exact IpAddr.ip_le_of_le (first _ ha)

theorem isSome_of_setPrefix
    (hk : (entries k).isSome ∨ ips.any (fun e => key e.1 = k) = true) :
    (ips.foldl setPrefix entries k).isSome := by
  induction ips generalizing entries with
  | nil => simpa using hk
  | cons e ips ih =>
    refine ih ?_
    rw [setPrefix_apply]
    by_cases hkey : k = key e.1
    · rw [if_pos hkey]
      exact Or.inl rfl
    · rw [if_neg hkey]
      simpa [Ne.symm hkey] using hk

end IpTrie

theorem IpAddr.contains_of_zero (h : a.netmask = 0) : a.contains address = true := by
  rw [contains, h, topBits_zero, topBits_zero, decide_eq_true rfl]

theorem IpAddr.covers_iff : b.covers a = true ↔
    a.ip &&& b.mask = b.ip &&& b.mask ∧ b.netmask ≤ a.netmask := by
  rw [covers, Bool.and_eq_true, decide_eq_true_eq, decide_eq_true_eq]

theorem IpAddr.mask_of_zero (h : a.netmask = 0) : a.mask = 0 := by
  rw [mask, h]
  decide

theorem IpAddr.covers_of_zero (hb : b.netmask = 0) (ha : a.netmask = 0) : b.covers a = true := by
  rw [covers_iff, mask_of_zero hb, ha, hb]
  simp

theorem IpAddr.decides_iff {ips : List IpAddr} : a.decides ips address = true ↔
    a.contains address = true ∧ ∀ b ∈ ips, b.contains address = true →
      b.netmask < a.netmask ∨ b.netmask = a.netmask ∧ b.ip ≤ a.ip := by
  unfold decides
  rw [Bool.and_eq_true, List.all_eq_true]
  refine and_congr_right fun _ => forall₂_congr fun b _ => ?_
  cases b.contains address <;> simp

theorem IpAddr.eq_of_decides {ips : List IpAddr} (ha : a ∈ ips) (hb : b ∈ ips)
    (da : a.decides ips address = true) (db : b.decides ips address = true) : a = b := by
  obtain ⟨ca, ma⟩ := decides_iff.1 da
  obtain ⟨cb, mb⟩ := decides_iff.1 db
  have hab := ma b hb cb
  have hba := mb a ha ca
  have hn : a.netmask = b.netmask := by omega
  have hip : a.ip = b.ip :=
    BitVec.le_antisymm (hba.resolve_left (by omega)).2 (hab.resolve_left (by omega)).2
  cases a
  cases b
  cases hn
  cases hip
  rfl

/-- The reading of an address condition, once the deciding prefix is known. -/
theorem reading_ip_of_decides {p : Packet} {rule : ChainRule}
    (ha : a ∈ rules.map fun r => r.currentIp type)
    (da : a.decides (rules.map fun r => r.currentIp type) (p.address type) = true) :
    rule.reading rules p (.ip type) = (rule.currentIp type).covers a := by
  rw [Bool.eq_iff_iff, reading_ip, List.any_eq_true]
  constructor
  · rintro ⟨b, hb, h⟩
    obtain ⟨db, hc⟩ := Bool.and_eq_true_iff.1 h
    rwa [IpAddr.eq_of_decides ha hb da db]
  · exact fun hc => ⟨a, ha, Bool.and_eq_true_iff.2 ⟨da, hc⟩⟩

def prefixTable (type : FieldType) (rules : List ChainRule) : Lpm 32 BitVector :=
  (ipFromRulesToMap type rules).1.foldl IpTrie.setPrefix fun _ => none

theorem entries_eq_prefixTable {trie : IpTrie}
    (load : IpTrie.updateMap (ipFromRulesToMap type rules).1 .empty = .ok trie) :
    trie.entries = prefixTable type rules :=
  IpTrie.entries_updateMap load

theorem isSome_prefixTable (nonempty : (ipFromRulesToMap type rules).1 ≠ []) {r : ChainRule}
    (hr : r ∈ rules) (hc : (r.currentIp type).contains address = true) :
    (prefixTable type rules (Lpm.key (r.currentIp type).netmask address)).isSome = true := by
  refine IpTrie.isSome_of_setPrefix (Or.inr ?_)
  obtain ⟨w, hw⟩ := OrdMap.contains_iff.1 (contains_ipFromRulesToMap nonempty hr)
  refine List.any_eq_true.2 ⟨_, hw, decide_eq_true ?_⟩
  exact Lpm.key_eq_key_iff.2 ⟨rfl, (of_decide_eq_true hc).symm⟩

theorem contains_of_lookup_none (nonempty : (ipFromRulesToMap type rules).1 ≠ [])
    (h : (prefixTable type rules).lookup address = none) {r : ChainRule} (hr : r ∈ rules) :
    (r.currentIp type).contains address = false := by
  by_contra hc
  rw [Bool.not_eq_false] at hc
  obtain ⟨w, hw⟩ := Option.isSome_iff_exists.1 (isSome_prefixTable nonempty hr hc)
  have some := Lpm.lookup_isSome (r.currentIp type).netmask_le hw
  rw [h] at some
  cases some

theorem decides_of_lookup_some {ele : BitVector}
    (h : (prefixTable type rules).lookup address = some ele) :
    ∃ r ∈ rules, (r.currentIp type).decides (rules.map fun r => r.currentIp type) address = true ∧
      ele = ipBitVector type rules (r.currentIp type) := by
  obtain ⟨k, -, hentry, longer⟩ := (Lpm.lookup_eq_some_iff _ _ _).1 h
  obtain ⟨a, ha, hkey, last⟩ :=
    (IpTrie.last_of_setPrefix ordered_ipFromRulesToMap hentry).resolve_left (by
      rintro ⟨e, -⟩
      cases e)
  have nonempty : (ipFromRulesToMap type rules).1 ≠ [] := List.ne_nil_of_mem ha
  obtain ⟨rfl, htop⟩ := Lpm.key_eq_key_iff.1 hkey
  obtain ⟨rfl, r, hr, rfl⟩ := mem_ipFromRulesToMap ha
  refine ⟨r, hr, IpAddr.decides_iff.2 ⟨decide_eq_true htop.symm, fun b hb hc => ?_⟩, rfl⟩
  obtain ⟨s, hs, rfl⟩ := List.mem_map.1 hb
  rcases lt_trichotomy (s.currentIp type).netmask (r.currentIp type).netmask with hn | hn | hn
  · exact Or.inl hn
  · obtain ⟨w, hw⟩ := OrdMap.contains_iff.1 (contains_ipFromRulesToMap nonempty hs)
    refine Or.inr ⟨hn, last _ hw (Lpm.key_eq_key_iff.2 ⟨hn, ?_⟩)⟩
    rw [← hn]
    exact (of_decide_eq_true hc).symm
  · have none := longer _ hn (s.currentIp type).netmask_le
    have some := isSome_prefixTable nonempty hs hc
    rw [none] at some
    cases some

theorem tabulates_ipLookup (numbered : Numbered rules)
    (nonempty : (ipFromRulesToMap type rules).1 ≠ []) {p : Packet} :
    Tabulates rules (fun rule => rule.reading rules p (.ip type))
      ((prefixTable type rules).lookup (p.address type)) := by
  cases hlookup : (prefixTable type rules).lookup (p.address type) with
  | none =>
    intro rule _
    show rule.reading rules p (.ip type) = false
    by_contra hc
    rw [Bool.not_eq_false, reading_ip, List.any_eq_true] at hc
    obtain ⟨a, ha, h⟩ := hc
    obtain ⟨r, hr, rfl⟩ := List.mem_map.1 ha
    -- a prefix of the address has an entry, so the lookup finds one
    have contained := (IpAddr.decides_iff.1 (Bool.and_eq_true_iff.1 h).1).1
    rw [contains_of_lookup_none nonempty hlookup hr] at contained
    cases contained
  | some ele =>
    obtain ⟨r, hr, decides, rfl⟩ := decides_of_lookup_some hlookup
    refine (selects_rulesWith numbered).congr fun s _ => ?_
    exact (reading_ip_of_decides (List.mem_map_of_mem hr) decides).symm

theorem sound_ipLookup (numbered : Numbered rules) {trie : IpTrie}
    (nonempty : (ipFromRulesToMap type rules).1 ≠ [])
    (load : IpTrie.updateMap (ipFromRulesToMap type rules).1 .empty = .ok trie)
    (pkt : PacketHeaders) (label : ConntrackstatusEnum) :
    Sound rules pkt (.ipLookup type trie.entries) fun rule =>
      rule.reading rules (pkt.packet label) (.ip type) := by
  intro test v h
  have found := @tabulates_ipLookup type _ numbered nonempty (pkt.packet label)
  rw [entries_eq_prefixTable load]
  exact Tabulates.outcome numbered h found

end Addresses

section ByKey

variable {κ : Type} [DecidableEq κ] [LE κ] [DecidableLE κ] {key : ChainRule → Option κ}
  {wildcard x : κ} {rules : List ChainRule}

/-- The entry of a value, or else that of the wildcard, selects the rules that set its key or none;
when both are missing there are no such rules. -/
theorem tabulates_byKey (numbered : Numbered rules)
    (nonempty : (keyFromRulesToMap key wildcard rules).1 ≠ []) {entry fallback : Option BitVector}
    (mem_entry : ∀ ele, entry = some ele → (x, ele) ∈ (keyFromRulesToMap key wildcard rules).1)
    (no_entry : entry = none → (keyFromRulesToMap key wildcard rules).1.contains x = false)
    (mem_fallback : ∀ ele, fallback = some ele →
      (wildcard, ele) ∈ (keyFromRulesToMap key wildcard rules).1)
    (no_fallback : fallback = none →
      (keyFromRulesToMap key wildcard rules).1.contains wildcard = false) :
    Tabulates rules (fun rule => (key rule).all fun k =>
      k = if ∃ r ∈ rules, key r = some x then x else wildcard) (entry.or fallback) := by
  have hmax : ∀ rule ∈ rules, rule.id < maxRules := fun _ => numbered.id_lt
  have absent : entry = none → ¬ ∃ r ∈ rules, key r = some x := by
    rintro e ⟨r, hr, hk⟩
    have present : (keyFromRulesToMap key wildcard rules).1.contains x = true :=
      contains_keyFromRulesToMap hr hk
    rw [no_entry e] at present
    cases present
  cases hentry : entry with
  | some ele =>
    have at_x : (if ∃ r ∈ rules, key r = some x then x else wildcard) = x := by
      split
      · rfl
      next none =>
        exact ((key_of_mem_keyFromRulesToMap (mem_entry ele hentry)).resolve_left none).symm
    rw [Option.some_or]
    intro j
    rw [mem_keyFromRulesToMap hmax (mem_entry ele hentry) j, at_x]
    refine exists_congr fun rule => and_congr_right fun _ => and_congr_right fun _ => ?_
    cases hk : key rule <;> simp [hk]
  | none =>
    rw [if_neg (absent hentry), Option.none_or]
    cases hfallback : fallback with
    | some ele =>
      intro j
      rw [mem_keyFromRulesToMap hmax (mem_fallback ele hfallback) j]
      refine exists_congr fun rule => and_congr_right fun _ => and_congr_right fun _ => ?_
      cases hk : key rule <;> simp [hk]
    | none =>
      intro rule hr
      have none := no_fallback hfallback
      cases hk : key rule with
      | none =>
        rw [contains_wildcard hr hk nonempty] at none
        cases none
      | some k =>
        show (key rule).all _ = false
        rw [hk, Option.all_some, decide_eq_false_iff_not]
        rintro rfl
        rw [contains_keyFromRulesToMap hr hk] at none
        cases none

end ByKey

section Programs

variable {rules : List ChainRule} {pkt : PacketHeaders}

theorem tabulates_l4ProtocolLookup (numbered : Numbered rules)
    (nonempty : (transportProtoFromRulesToMap rules).1 ≠ []) {p : Packet} :
    Tabulates rules (fun rule => rule.reading rules p .proto)
      ((Table.ofEntries (transportProtoFromRulesToMap rules).1 p.proto).or
        (Table.ofEntries (transportProtoFromRulesToMap rules).1 0)) := by
  have none_contains : ∀ k, Table.ofEntries (transportProtoFromRulesToMap rules).1 k = none →
      (transportProtoFromRulesToMap rules).1.contains k = false := by
    intro k e
    rw [← Bool.not_eq_true, OrdMap.contains_iff]
    rintro ⟨w, hw⟩
    exact Table.notMem_of_ofEntries e w hw
  refine (tabulates_byKey numbered nonempty
    (fun _ => Table.mem_of_ofEntries) (none_contains p.proto)
    (fun _ => Table.mem_of_ofEntries) (none_contains 0)).congr fun rule hr => ?_
  show rule.proto.all _ = rule.l4Proto.all fun proto => proto.toInt = p.proto
  unfold ChainRule.proto
  cases hl4 : rule.l4Proto with
  | none => rfl
  | some proto =>
    -- no protocol is 0, so the wildcard's key is no rule's
    have real : proto.toInt ≠ 0 := by cases proto <;> decide
    rw [Option.map_some, Option.all_some, Option.all_some]
    split
    · rfl
    next absent =>
      have other : proto.toInt ≠ p.proto := fun e => absent ⟨rule, hr, by rw [hl4, ← e]; rfl⟩
      simp [other]
      exact real

theorem sound_l4ProtocolLookup (numbered : Numbered rules)
    (nonempty : (transportProtoFromRulesToMap rules).1 ≠ []) (label : ConntrackstatusEnum) :
    Sound rules pkt (l4ProtocolLookup (transportProtoFromRulesToMap rules).1) fun rule =>
      rule.reading rules (pkt.packet label) .proto := by
  intro test v h
  have found := @tabulates_l4ProtocolLookup _ numbered nonempty (pkt.packet label)
  exact Tabulates.outcome numbered h found

/-- The port table as the program holds it: keys in network order, key 0 compiled in. -/
theorem tabulates_l4PortLookup (numbered : Numbered rules) {type : FieldType}
    (nonempty : (portFromRulesToMap type rules).1 ≠ []) (port : BitVec 16) :
    Tabulates rules (fun rule => (rule.port type).all fun k =>
        k = if ∃ r ∈ rules, r.port type = some (bswap16 port) then bswap16 port else 0)
      ((Table.ofEntries ((portFromRulesToMap type rules).1.map fun e => (bswap16 e.1, e.2)) port).or
        (((portFromRulesToMap type rules).1.find? fun e => e.1 = 0).map Prod.snd)) := by
  refine tabulates_byKey numbered nonempty ?_ ?_ ?_ ?_
  · intro ele e
    obtain ⟨⟨k, ele'⟩, he, eq⟩ := List.mem_map.1 (Table.mem_of_ofEntries e)
    obtain ⟨rfl, rfl⟩ := Prod.mk.inj eq
    show (bswap16 (bswap16 k), ele') ∈ (portFromRulesToMap type rules).1
    simpa using he
  · intro e
    rw [← Bool.not_eq_true, OrdMap.contains_iff]
    rintro ⟨w, hw⟩
    refine Table.notMem_of_ofEntries e w (List.mem_map.2 ⟨_, hw, ?_⟩)
    simp
  · intro ele e
    obtain ⟨⟨k, ele'⟩, hfind, rfl⟩ := Option.map_eq_some_iff.1 e
    have hk := List.find?_some hfind
    obtain rfl : k = 0 := by simpa using hk
    exact List.mem_of_find?_eq_some hfind
  · intro e
    rw [Option.map_eq_none_iff, List.find?_eq_none] at e
    rw [← Bool.not_eq_true, OrdMap.contains_iff]
    rintro ⟨w, hw⟩
    simpa using e _ hw

theorem sound_l4PortLookup (numbered : Numbered rules) {type : FieldType}
    (nonempty : (portFromRulesToMap type rules).1 ≠ []) (label : ConntrackstatusEnum) :
    Sound rules pkt (l4PortLookup type (portFromRulesToMap type rules).1) fun rule =>
      rule.reading rules (pkt.packet label) (.port type) := by
  intro test v h
  show Outcome _ _ (rxL4PortLookup _ _ _ _ _ _)
  unfold rxL4PortLookup
  by_cases other : pkt.l4proto ≠ ipprotoTcp ∧ pkt.l4proto ≠ ipprotoUdp
  · rw [if_pos other]
    apply outcome_nextHop h
    intro rule _
    simp [reading_port, PacketHeaders.packet, other.1, other.2]
  · rw [if_neg other]
    have ports : pkt.l4proto = ipprotoTcp ∨ pkt.l4proto = ipprotoUdp := by
      by_contra e
      exact other (not_or.1 e)
    have found := tabulates_l4PortLookup numbered nonempty (pkt.port type)
    simp only [reading_port, PacketHeaders.packet, ports, if_true, Option.map_some,
      Option.getD_some]
    exact Tabulates.outcome numbered h found

theorem selects_tcpFlags (numbered : Numbered rules) {tcpFlags : BitVec 8 → BitVector}
    (load : (flagsFromRulesToMap rules).1 = some tcpFlags) (flags : BitVec 8) :
    Selects rules (fun rule => rule.tcpFlags.all fun f => f.candidate flags) (tcpFlags flags) := by
  unfold flagsFromRulesToMap at load
  split at load
  · obtain rfl := Option.some.inj load
    exact selects_rulesWith numbered
  · cases load

theorem sound_tcpFlagsLookup (numbered : Numbered rules) {tcpFlags : BitVec 8 → BitVector}
    (load : (flagsFromRulesToMap rules).1 = some tcpFlags) (label : ConntrackstatusEnum) :
    Sound rules pkt (.tcpFlagsLookup tcpFlags) fun rule =>
      rule.reading rules (pkt.packet label) .flags := by
  intro test v h
  show Outcome _ _ (rxTcpFlagsLookup _ _ _ _)
  unfold rxTcpFlagsLookup
  by_cases tcp : pkt.l4proto = ipprotoTcp
  · rw [if_neg (not_not.2 tcp)]
    refine outcome_narrow numbered h ((selects_tcpFlags numbered load _).congr fun rule _ => ?_)
    simp only [reading_flags, PacketHeaders.packet, tcp, if_true, Option.map_some,
      Option.getD_some]
  · rw [if_pos tcp]
    apply outcome_nextHop h
    intro rule _
    simp [reading_flags, PacketHeaders.packet, tcp]

theorem sound_conntrackMatch (numbered : Numbered rules)
    (nonempty : (conntrackFromRulesToMap rules).1 ≠ []) {label : ConntrackstatusEnum}
    (labelled : pkt.connStatus = label.connStatus) :
    Sound rules pkt (conntrackMatch (conntrackFromRulesToMap rules).1) fun rule =>
      rule.reading rules (pkt.packet label) .conntrack := by
  intro test v h
  unfold conntrackFromRulesToMap at nonempty ⊢
  split
  next =>
    have row : Table.ofEntries ((statesVector.map fun state =>
        (state, rulesWith (fun rule => rule.conntrack = some state ∨ rule.conntrack = none)
          rules)).map fun e => (e.1.connStatus, e.2)) pkt.connStatus =
        some (rulesWith (fun rule => rule.conntrack = some label ∨ rule.conntrack = none)
          rules) := by
      rw [labelled]
      cases label <;> rfl
    show Outcome _ _ (rxConntrackMatch _ _ _ _)
    unfold rxConntrackMatch
    rw [row]
    apply outcome_narrow numbered h
    refine (selects_rulesWith numbered).congr fun rule _ => ?_
    rw [reading_conntrack]
    cases rule.conntrack with
    | none => rfl
    | some state =>
      rw [Option.all_some, decide_eq_decide, Option.some.injEq]
      exact or_iff_left nofun
  next e =>
    rw [if_neg e] at nonempty
    exact absurd rfl nonempty

end Programs

def Program.field : Program → Option Field
  | .conntrackMatch _ => some .conntrack
  | .ipLookup type _ => some (.ip type)
  | .l4ProtocolLookup _ => some .proto
  | .l4PortLookup type _ _ => some (.port type)
  | .tcpFlagsLookup _ => some .flags
  | .bitScan => none
  | .actionLookup _ => none

def Program.reading (rules : List ChainRule) (p : Packet) (program : Program) (rule : ChainRule) :
    Bool :=
  program.field.all (rule.reading rules p)

def Compiles (rules : List ChainRule) (pkt : PacketHeaders) (label : ConntrackstatusEnum)
    (f : Field) : Option Program → Prop
  | none => ∀ rule ∈ rules, rule.reading rules (pkt.packet label) f = true
  | some program => program.field = some f ∧
      Sound rules pkt program fun rule => rule.reading rules (pkt.packet label) f

section Rows

variable {rules : List ChainRule} {pkt : PacketHeaders} {label : ConntrackstatusEnum}
  {test : ChainRule → Bool} {v : BitVector} {defaultAction : ActionEnum}

theorem nrElements_pos (h : rules ≠ []) : nrElements rules ≠ 0 := by
  exact Nat.ne_of_gt ((Nat.zero_le _).trans_lt (lt_nrElements (List.length_pos_of_ne_nil h)))

/-- A row of programs that each narrow by a condition narrows by all of them, or ends with the
default action when no rule meets them. -/
theorem run_narrows {P : Type} {run : List P → BitVector → Verdict} {rx : P → BitVector → Exit}
    {default : Verdict} {condition : P → ChainRule → Bool} {programs : List P}
    (run_nextHop : ∀ {program programs v v'}, rx program v = .nextHop v' →
      run (program :: programs) v = run programs v')
    (run_default : ∀ {program programs v}, rx program v = .defaultAction →
      run (program :: programs) v = default)
    (sound : ∀ program ∈ programs, ∀ test v, Narrowed rules test v →
      Outcome rules (fun rule => test rule && condition program rule) (rx program v))
    (h : Narrowed rules test v) (rest : List P) :
    (∃ v', Narrowed rules (fun rule => test rule &&
        programs.all fun program => condition program rule) v' ∧
      run (programs ++ rest) v = run rest v') ∨
    ((∀ rule ∈ rules, (test rule && programs.all fun program => condition program rule) = false) ∧
      run (programs ++ rest) v = default) := by
  induction programs generalizing test v with
  | nil =>
    refine Or.inl ⟨v, h.congr fun rule _ => ?_, rfl⟩
    rw [List.all_nil, Bool.and_true]
  | cons program programs ih =>
    have out := sound program (by simp) test v h
    have ih := @ih (fun rule => test rule && condition program rule)
    have assoc : ∀ rule, (test rule &&
        (program :: programs).all fun program => condition program rule) =
        (test rule && condition program rule &&
          programs.all fun program => condition program rule) := by
      intro rule
      rw [List.all_cons, Bool.and_assoc]
    simp only [List.cons_append, assoc]
    cases hexit : rx program v with
    | nextHop v₁ =>
      rw [hexit] at out
      rw [run_nextHop hexit]
      exact ih (fun p hp => sound p (by simp [hp])) out
    | defaultAction =>
      rw [hexit] at out
      refine Or.inr ⟨fun rule hr => ?_, run_default hexit⟩
      have none : (test rule && condition program rule) = false := out rule hr
      rw [none, Bool.false_and]
    | conntrackTableUpdate =>
      rw [hexit] at out
      exact out.elim
    | rxDrop =>
      rw [hexit] at out
      exact out.elim

/-- A row of lookup programs narrows by all their conditions, or ends with the default action when
no rule meets them. -/
theorem runPrograms_lookups {programs : List Program}
    (sound : ∀ program ∈ programs, Sound rules pkt program (program.reading rules (pkt.packet label)))
    (h : Narrowed rules test v) (rest : List Program) :
    (∃ v', Narrowed rules (fun rule => test rule &&
        programs.all fun program => program.reading rules (pkt.packet label) rule) v' ∧
      runPrograms defaultAction (nrElements rules) pkt (programs ++ rest) v =
        runPrograms defaultAction (nrElements rules) pkt rest v') ∨
    ((∀ rule ∈ rules, (test rule &&
        programs.all fun program => program.reading rules (pkt.packet label) rule) = false) ∧
      runPrograms defaultAction (nrElements rules) pkt (programs ++ rest) v =
        defaultAction.verdict) := by
  obtain ⟨rule, hr, -⟩ := h.some_rule
  have pos := nrElements_pos (List.ne_nil_of_mem hr)
  refine @run_narrows _ _ _ _ _ (fun program => program.handleRx (nrElements rules) pkt) _ _ _
    ?_ ?_ sound h rest
  · intro program programs v v' hexit
    simp only [runPrograms, if_neg pos, hexit]
  · intro program programs v hexit
    simp only [runPrograms, if_neg pos, hexit]

theorem matchingResult_eq {bits : BitVec 64} {k : ℕ} (h : LowestBit bits k) :
    matchingResult bits = k := by
  have table : ∀ k < 64, index64.getD
      ((BitVec.ofNat 64 (2 ^ (k + 1) - 1) * 0x03f79d71b4cb0a89#64) >>> 58).toNat 0 = k := by
    decide
  rw [matchingResult, scanIndex, h.xor_sub_one]
  exact table k h.lt

theorem loadActions_other {actions loaded : ℕ → ℕ} (load : loadActions rules actions = .ok loaded)
    {id : ℕ} (other : ∀ rule ∈ rules, rule.id ≠ id) : loaded id = actions id := by
  induction rules generalizing actions with
  | nil =>
    rw [loadActions, Except.ok.injEq] at load
    rw [load]
  | cons rule rules ih =>
    rw [loadActions] at load
    split at load
    · cases load
    · rw [ih load fun r hr => other r (by simp [hr]), update_of_ne]
      exact (other rule (by simp)).symm

theorem loadActions_id {actions loaded : ℕ → ℕ} (load : loadActions rules actions = .ok loaded)
    (nodup : (rules.map ChainRule.id).Nodup) {rule : ChainRule} (hr : rule ∈ rules) :
    rule.action.toInt = .ok (loaded rule.id) := by
  induction rules generalizing actions with
  | nil => cases hr
  | cons r rules ih =>
    rw [List.map_cons, List.nodup_cons] at nodup
    rw [loadActions] at load
    split at load
    · cases load
    next action haction =>
      rcases List.mem_cons.1 hr with rfl | hr
      · have other : ∀ s ∈ rules, s.id ≠ rule.id := fun s hs e =>
          nodup.1 (e ▸ List.mem_map_of_mem hs)
        rw [loadActions_other load other, update_self]
        exact haction
      · exact ih load nodup.2 hr

/-- `BitScan` and `ActionLookup` take the action of the first rule in the vector. -/
theorem runPrograms_decide (numbered : Numbered rules) {actions : ℕ → ℕ}
    (load : loadActions rules (fun _ => 0) = .ok actions) (h : Narrowed rules test v) :
    runPrograms defaultAction (nrElements rules) pkt [.bitScan, .actionLookup actions] v =
      firstMatch test rules defaultAction := by
  obtain ⟨s, hs, hst⟩ := h.some_rule
  have pos := nrElements_pos (List.ne_nil_of_mem hs)
  have nodup : (rules.map ChainRule.id).Nodup := by
    rw [numbered.ids]
    exact List.nodup_range
  cases hfind : rules.find? test with
  | none =>
    rw [List.find?_eq_none] at hfind
    exact absurd hst (hfind s hs)
  | some r =>
    have hr : r ∈ rules := List.mem_of_find?_eq_some hfind
    have hrt : test r = true := List.find?_some hfind
    have hlt := numbered.id_lt_length hr
    have scan : v.scan wordRules matchingResult (nrElements rules) = some r.id := by
      apply h.tight.scan_eq_some (by decide) (fun _ _ => matchingResult_eq)
      · exact (Nat.div_lt_iff_lt_mul (by decide)).1 (lt_nrElements hlt)
      · exact (h.hasRule_id r hr).trans hrt
      · intro j hj
        obtain ⟨s, hs, rfl⟩ := numbered.exists_of_lt (hj.trans hlt)
        refine (h.hasRule_id s hs).trans ?_
        by_contra pass
        rw [Bool.not_eq_false] at pass
        exact absurd (numbered.find?_least hfind hs pass) (by omega)
    have word : ((v.setWord 0 (BitVec.ofNat 64 r.id)).word 0).toNat = r.id := by
      have hid := numbered.id_lt hr
      rw [Words.word_setWord (by decide), BitVec.toNat_ofNat]
      unfold maxRules at hid
      omega
    have action := loadActions_id load nodup hr
    simp only [runPrograms, if_neg pos, Program.handleRx, rxBitScan, scan, rxActionLookup, word,
      firstMatch, hfind]
    cases haction : r.action with
    | drop =>
      rw [haction] at action
      rw [← Except.ok.inj action]
      rfl
    | accept =>
      rw [haction] at action
      rw [← Except.ok.inj action]
      rfl
    | log =>
      rw [haction] at action
      cases action

end Rows

/-! ### The chain -/

section Chain

variable {rules : List ChainRule} {pkt : PacketHeaders} {label : ConntrackstatusEnum}

/-- Those that may break and then the others: every one that is there, once. -/
theorem mem_filterMap_passes {α : Type} {lookups : List (Option α × Bool)} {a : α} :
    a ∈ lookups.filterMap (fun e => if e.2 ^^ false then e.1 else none) ++
        lookups.filterMap (fun e => if e.2 ^^ true then e.1 else none) ↔
      ∃ brk, (some a, brk) ∈ lookups := by
  simp only [List.mem_append, List.mem_filterMap, Bool.xor_false, Bool.xor_true,
    Option.ite_none_right_eq_some, Prod.exists]
  constructor
  · rintro (⟨_, brk, he, -, rfl⟩ | ⟨_, brk, he, -, rfl⟩)
    · exact ⟨brk, he⟩
    · exact ⟨brk, he⟩
  · rintro ⟨brk, he⟩
    cases brk with
    | true => exact Or.inl ⟨_, true, he, rfl, rfl⟩
    | false => exact Or.inr ⟨_, false, he, rfl, rfl⟩

variable {lookups : List (Option Program × Bool)} {program : Program}

theorem mem_passes :
    program ∈ pass false lookups ++ pass true lookups ↔ ∃ brk, (some program, brk) ∈ lookups :=
  mem_filterMap_passes

theorem sound_of_compiled {fs : List Field}
    (compiled : List.Forall₂ (fun f e => Compiles rules pkt label f e.1) fs lookups)
    {brk : Bool} (h : (some program, brk) ∈ lookups) :
    Sound rules pkt program (program.reading rules (pkt.packet label)) := by
  induction compiled with
  | nil => cases h
  | @cons f e fs lookups he _ ih =>
    rcases List.mem_cons.1 h with rfl | h
    · obtain ⟨hfield, sound⟩ := he
      unfold Program.reading
      rw [hfield]
      exact sound
    · exact ih h

theorem tests_of_compiled {fs : List Field}
    (compiled : List.Forall₂ (fun f e => Compiles rules pkt label f e.1) fs lookups)
    {rule : ChainRule} (hr : rule ∈ rules) :
    (∀ program, (∃ brk, (some program, brk) ∈ lookups) →
        program.reading rules (pkt.packet label) rule = true) ↔
      ∀ f ∈ fs, rule.reading rules (pkt.packet label) f = true := by
  induction compiled with
  | nil => simp
  | @cons f e fs lookups he _ ih =>
    rw [List.forall_mem_cons, ← ih]
    obtain ⟨program, brk⟩ := e
    have head : (∀ p, program = some p → p.reading rules (pkt.packet label) rule = true) ↔
        rule.reading rules (pkt.packet label) f = true := by
      cases program with
      | none => simp [he rule hr]
      | some p => simp [Program.reading, he.1]
    rw [← head]
    simp only [List.mem_cons, Prod.mk.injEq]
    constructor
    · intro h
      exact ⟨fun p e => h p ⟨brk, Or.inl ⟨e.symm, rfl⟩⟩, fun p ⟨b, hb⟩ => h p ⟨b, Or.inr hb⟩⟩
    · rintro ⟨h₁, h₂⟩ p ⟨b, ⟨e, -⟩ | hb⟩
      · exact h₁ p e.symm
      · exact h₂ p ⟨b, hb⟩

theorem compiles_ifNonempty {ε : Type} {map : List ε} {f : Field} (hfield : program.field = some f)
    (unset : map = [] → ∀ rule ∈ rules, rule.reading rules (pkt.packet label) f = true)
    (sound : map ≠ [] → Sound rules pkt program fun rule =>
      rule.reading rules (pkt.packet label) f) :
    Compiles rules pkt label f (ifNonempty map program) := by
  unfold ifNonempty
  split
  next h => exact unset h
  next h => exact ⟨hfield, sound h⟩

theorem reading_ip_of_unset {type : FieldType} (p : Packet)
    (unset : ∀ rule ∈ rules, rule.ip type = none) {rule : ChainRule} (hr : rule ∈ rules) :
    rule.reading rules p (.ip type) = true := by
  have wild : ∀ r ∈ rules, r.currentIp type = .wildcardIp :=
    fun r hr => currentIp_of_none (unset r hr)
  have inList := List.mem_map_of_mem (f := fun r => ChainRule.currentIp r type) hr
  rw [wild rule hr] at inList
  rw [reading_ip_of_decides inList, wild rule hr]
  · exact IpAddr.covers_of_zero rfl rfl
  · refine IpAddr.decides_iff.2 ⟨IpAddr.contains_of_zero rfl, fun b hb _ => ?_⟩
    obtain ⟨r, hr, rfl⟩ := List.mem_map.1 hb
    exact Or.inr ⟨by rw [wild r hr], by rw [wild r hr]; exact BitVec.le_refl _⟩

theorem compiles_conntrackMatch (numbered : Numbered rules)
    (labelled : pkt.connStatus = label.connStatus) :
    Compiles rules pkt label .conntrack (ifNonempty (conntrackFromRulesToMap rules).1
      (conntrackMatch (conntrackFromRulesToMap rules).1)) := by
  refine compiles_ifNonempty rfl (fun e rule hr => ?_) fun nonempty =>
    sound_conntrackMatch numbered nonempty labelled
  unfold conntrackFromRulesToMap at e
  split at e
  · cases e
  next unset =>
    have : rule.conntrack = none := by
      by_contra h
      exact unset (List.any_eq_true.2 ⟨rule, hr, decide_eq_true h⟩)
    rw [reading_conntrack, this, Option.all_none]

theorem compiles_ipLookup (numbered : Numbered rules) (type : FieldType) {trie : IpTrie}
    (load : IpTrie.updateMap (ipFromRulesToMap type rules).1 .empty = .ok trie) :
    Compiles rules pkt label (.ip type)
      (ifNonempty (ipFromRulesToMap type rules).1 (.ipLookup type trie.entries)) :=
  compiles_ifNonempty rfl
    (fun e _ hr => reading_ip_of_unset _ (ipFromRulesToMap_eq_nil_iff.1 e) hr)
    fun nonempty => sound_ipLookup numbered nonempty load pkt label

theorem compiles_l4ProtocolLookup (numbered : Numbered rules) :
    Compiles rules pkt label .proto (ifNonempty (transportProtoFromRulesToMap rules).1
      (l4ProtocolLookup (transportProtoFromRulesToMap rules).1)) := by
  refine compiles_ifNonempty rfl (fun e rule hr => ?_) fun nonempty =>
    sound_l4ProtocolLookup numbered nonempty label
  have := keyFromRulesToMap_eq_nil_iff.1 e rule hr
  rw [ChainRule.proto, Option.map_eq_none_iff] at this
  rw [reading_proto, this, Option.all_none]

theorem compiles_l4PortLookup (numbered : Numbered rules) (type : FieldType) :
    Compiles rules pkt label (.port type) (ifNonempty (portFromRulesToMap type rules).1
      (l4PortLookup type (portFromRulesToMap type rules).1)) := by
  refine compiles_ifNonempty rfl (fun e rule hr => ?_) fun nonempty =>
    sound_l4PortLookup numbered nonempty label
  rw [reading_port, keyFromRulesToMap_eq_nil_iff.1 e rule hr, Option.all_none]

theorem compiles_tcpFlagsLookup (numbered : Numbered rules) :
    Compiles rules pkt label .flags
      ((flagsFromRulesToMap rules).1.map Program.tcpFlagsLookup) := by
  cases hmap : (flagsFromRulesToMap rules).1 with
  | some tcpFlags => exact ⟨rfl, sound_tcpFlagsLookup numbered hmap label⟩
  | none =>
    intro rule hr
    unfold flagsFromRulesToMap at hmap
    split at hmap
    · cases hmap
    next unset =>
      have : rule.tcpFlags = none := by
        by_contra h
        exact unset (List.any_eq_true.2 ⟨rule, hr, decide_eq_true h⟩)
      rw [reading_flags, this, Option.all_none]

theorem compiled_lookupPrograms (numbered : Numbered rules)
    (load : lookupPrograms rules = .ok lookups) (labelled : pkt.connStatus = label.connStatus) :
    List.Forall₂ (fun f e => Compiles rules pkt label f e.1) fields lookups := by
  unfold lookupPrograms at load
  dsimp only at load
  split at load
  next srcTrie dstTrie hsrc hdst =>
    obtain rfl := Except.ok.inj load
    exact .cons (compiles_conntrackMatch numbered labelled)
      (.cons (compiles_ipLookup numbered .source hsrc)
      (.cons (compiles_ipLookup numbered .destination hdst)
      (.cons (compiles_l4ProtocolLookup numbered)
      (.cons (compiles_l4PortLookup numbered .source)
      (.cons (compiles_l4PortLookup numbered .destination)
      (.cons (compiles_tcpFlagsLookup numbered) .nil))))))
  · cases load
  · cases load

theorem narrowed_initShared (numbered : Numbered rules) (nonempty : rules ≠ [])
    (shared : BitVector) :
    Narrowed rules (fun _ => true) (initShared (nrElements rules) shared) := by
  have word : ∀ i < nrElements rules, i < fromNRulesToNElements maxRules →
      (initShared (nrElements rules) shared).word i = 0x7FFFFFFFFFFFFFFF#64 := by
    intro i hi hmax
    exact (dif_pos hmax).trans (if_pos hi)
  have all63 : ∀ j < 63, (0x7FFFFFFFFFFFFFFF#64).getLsbD j = true := by decide
  have none63 : ∀ j, 63 ≤ j → (0x7FFFFFFFFFFFFFFF#64).getLsbD j = false := by
    intro j hj
    rcases Nat.lt_or_ge j 64 with h | h
    · obtain rfl : j = 63 := by omega
      decide
    · exact BitVec.getLsbD_of_ge _ _ h
  constructor
  · intro i hi j hj
    by_cases hmax : i < fromNRulesToNElements maxRules
    · rw [word i hi hmax]
      exact none63 j hj
    · rw [Words.word, dif_neg hmax]
      simp
  · intro rule hr
    have hlt := numbered.id_lt_length hr
    have hid := numbered.id_lt hr
    have hword : rule.id / wordRules < fromNRulesToNElements maxRules := by
      show rule.id / 63 < 131
      unfold maxRules at hid
      omega
    unfold hasRule Words.has
    rw [word _ (lt_nrElements hlt) hword]
    exact all63 _ (Nat.mod_lt _ (by decide))
  · obtain ⟨rule, hr⟩ := List.exists_mem_of_ne_nil rules nonempty
    exact ⟨rule, hr, rfl⟩

theorem classify_eq_firstMatch (numbered : Numbered rules) {chain : Loaded}
    (load : loadChain rules = .ok chain) (labelled : pkt.connStatus = label.connStatus)
    (defaultAction : ActionEnum) (shared : BitVector) :
    chain.classify defaultAction pkt (initShared chain.nrElements shared) =
      firstMatch (ChainRule.reads rules (pkt.packet label)) rules defaultAction := by
  unfold loadChain at load
  split at load
  next lookups actions hlookups hactions =>
    obtain rfl := Except.ok.inj load
    unfold Loaded.classify
    rcases eq_or_ne rules [] with rfl | nonempty
    · rfl
    · have compiled := compiled_lookupPrograms numbered hlookups labelled
      have sound : ∀ program ∈ pass false lookups ++ pass true lookups,
          Sound rules pkt program (program.reading rules (pkt.packet label)) := by
        intro program hp
        obtain ⟨brk, he⟩ := mem_passes.1 hp
        exact sound_of_compiled compiled he
      have tests : ∀ rule ∈ rules, (true && (pass false lookups ++ pass true lookups).all
          fun program => program.reading rules (pkt.packet label) rule) =
          rule.reads rules (pkt.packet label) := by
        intro rule hr
        rw [Bool.true_and, Bool.eq_iff_iff, List.all_eq_true, ChainRule.reads, List.all_eq_true,
          ← tests_of_compiled compiled hr]
        exact forall_congr' fun program => imp_congr_left mem_passes
      rw [if_pos (Nat.pos_of_ne_zero (nrElements_pos nonempty))]
      rcases runPrograms_lookups sound (narrowed_initShared numbered nonempty shared)
        [.bitScan, .actionLookup actions] with ⟨v, hv, run⟩ | ⟨none, run⟩
      · exact run.trans (runPrograms_decide numbered hactions (hv.congr tests))
      · rw [run, firstMatch, List.find?_eq_none.2 fun rule hr => ?_]
        rw [← tests rule hr, none rule hr]
        exact Bool.false_ne_true
  · cases load
  · cases load

end Chain

end Polycube.Firewall
