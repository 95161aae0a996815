import Polycube.Firewall.Matching

/-!
# What the maps of a chain hold

A bit vector `Selects` the rules that pass a test when its bits are their ids.  Each map of the
`*FromRulesToMap` functions has for each key the rules that do not exclude a packet with that value
of the field, and a map is empty exactly when no rule sets the field.
-/

namespace Polycube.Firewall

open Lib

structure Numbered (rules : List ChainRule) : Prop where
  ids : rules.map ChainRule.id = List.range rules.length
  length_le : rules.length ≤ maxRules

namespace Numbered

variable {rules : List ChainRule} {r s : ChainRule}

theorem id_lt_length (h : Numbered rules) (hr : r ∈ rules) : r.id < rules.length := by
  have := List.mem_map_of_mem (f := ChainRule.id) hr
  rwa [h.ids, List.mem_range] at this

theorem id_lt (h : Numbered rules) (hr : r ∈ rules) : r.id < maxRules :=
  (h.id_lt_length hr).trans_le h.length_le

theorem eq_of_id (h : Numbered rules) (hr : r ∈ rules) (hs : s ∈ rules) (e : r.id = s.id) :
    r = s := by
  have nodup : (rules.map ChainRule.id).Nodup := by
    rw [h.ids]
    exact List.nodup_range
  exact List.inj_on_of_nodup_map nodup hr hs e

theorem exists_of_lt (h : Numbered rules) {j : ℕ} (hj : j < rules.length) :
    ∃ r ∈ rules, r.id = j := by
  have := List.mem_range.2 hj
  rwa [← h.ids, List.mem_map] at this

theorem find?_least (h : Numbered rules) {test : ChainRule → Bool} (hr : rules.find? test = some r)
    (hs : s ∈ rules) (pass : test s = true) : r.id ≤ s.id := by
  obtain ⟨-, i, hi, hri, before⟩ := List.find?_eq_some_iff_getElem.1 hr
  have id_at : ∀ j (hj : j < rules.length), rules[j].id = j := by
    intro j hj
    have e := List.getElem_of_eq h.ids (i := j) (by simpa using hj)
    simpa using e
  obtain ⟨j, hj, rfl⟩ := List.getElem_of_mem hs
  rw [← hri, id_at i hi, id_at j hj]
  by_contra hlt
  have := before j (by omega)
  simp [pass] at this

end Numbered

def Selects (rules : List ChainRule) (test : ChainRule → Bool) (v : BitVector) : Prop :=
  ∀ j, hasRule v j = true ↔ ∃ rule ∈ rules, rule.id = j ∧ test rule = true

section

variable {rules : List ChainRule} {test test' : ChainRule → Bool} {v : BitVector}

theorem Selects.congr (h : Selects rules test v) (e : ∀ rule ∈ rules, test rule = test' rule) :
    Selects rules test' v := by
  intro j
  rw [h j]
  constructor
  · rintro ⟨rule, hr, hj, ht⟩
    exact ⟨rule, hr, hj, (e rule hr).symm.trans ht⟩
  · rintro ⟨rule, hr, hj, ht⟩
    exact ⟨rule, hr, hj, (e rule hr).trans ht⟩

theorem Selects.hasRule_id (numbered : Numbered rules) (h : Selects rules test v)
    {rule : ChainRule} (hr : rule ∈ rules) : hasRule v rule.id = test rule := by
  rw [Bool.eq_iff_iff, h]
  constructor
  · rintro ⟨s, hs, e, ht⟩
    rwa [← numbered.eq_of_id hs hr e]
  · exact fun ht => ⟨rule, hr, rfl, ht⟩

theorem selects_rulesWith (numbered : Numbered rules) :
    Selects rules test (rulesWith test rules) :=
  hasRule_rulesWith fun _ => numbered.id_lt

end

/-! ### Addresses -/

section Addresses

variable {type : FieldType} {rules : List ChainRule} {a : IpAddr} {v : BitVector}

theorem contains_distinctIps :
    (distinctIps type rules).contains a = true ↔ ∃ rule ∈ rules, rule.ip type = some a := by
  induction rules using List.reverseRecOn with
  | nil => simp [distinctIps, OrdMap.contains]
  | append_singleton rules rule ih =>
    unfold distinctIps at ih ⊢
    rw [List.foldl_append, List.foldl_cons, List.foldl_nil]
    cases hip : rule.ip type with
    | none =>
      simp only [ih, List.mem_append, List.mem_singleton]
      constructor
      · rintro ⟨r, hr, e⟩
        exact ⟨r, Or.inl hr, e⟩
      · rintro ⟨r, hr | rfl, e⟩
        · exact ⟨r, hr, e⟩
        · rw [hip] at e
          cases e
    | some current =>
      simp only [OrdMap.contains_insert, Bool.or_eq_true, decide_eq_true_eq, ih, List.mem_append,
        List.mem_singleton]
      constructor
      · rintro (rfl | ⟨r, hr, e⟩)
        · exact ⟨rule, Or.inr rfl, hip⟩
        · exact ⟨r, Or.inl hr, e⟩
      · rintro ⟨r, hr | rfl, e⟩
        · exact Or.inr ⟨r, hr, e⟩
        · exact Or.inl (Option.some.inj (e.symm.trans hip))

theorem currentIp_of_some {rule : ChainRule} (h : rule.ip type = some a) :
    rule.currentIp type = a := by
  rw [ChainRule.currentIp, h, Option.getD_some]

theorem currentIp_of_none {rule : ChainRule} (h : rule.ip type = none) :
    rule.currentIp type = .wildcardIp := by
  rw [ChainRule.currentIp, h, Option.getD_none]

theorem mem_ruleIps : (a, v) ∈ ruleIps type rules ↔
    v = ipBitVector type rules a ∧ ∃ rule ∈ rules, rule.ip type = some a := by
  rw [ruleIps, ← contains_distinctIps, OrdMap.contains_iff, List.mem_map]
  constructor
  · rintro ⟨⟨a', v'⟩, he, e⟩
    obtain ⟨rfl, rfl⟩ := Prod.mk.inj e
    exact ⟨rfl, v', he⟩
  · rintro ⟨rfl, v', he⟩
    exact ⟨(a, v'), he, rfl⟩

theorem contains_ruleIps :
    (ruleIps type rules).contains a = true ↔ ∃ rule ∈ rules, rule.ip type = some a := by
  rw [← contains_distinctIps]
  exact Bool.eq_iff_iff.1 (OrdMap.contains_map (f := fun a _ => ipBitVector type rules a))

theorem ruleIps_eq_nil_iff : ruleIps type rules = [] ↔ ∀ rule ∈ rules, rule.ip type = none := by
  simp only [OrdMap.eq_nil_iff_contains, ← Bool.not_eq_true, contains_ruleIps, not_exists, not_and]
  constructor
  · intro h rule hr
    exact Option.eq_none_iff_forall_ne_some.2 fun a => h a rule hr
  · intro h a rule hr
    rw [h rule hr]
    simp

theorem ipFromRulesToMap_eq_nil_iff :
    (ipFromRulesToMap type rules).1 = [] ↔ ∀ rule ∈ rules, rule.ip type = none := by
  rw [← ruleIps_eq_nil_iff]
  unfold ipFromRulesToMap
  split
  next h =>
    refine iff_of_false ?_ h.1
    rw [OrdMap.eq_nil_iff_contains]
    intro none
    have := none .wildcardIp
    rw [OrdMap.contains_insert] at this
    simp at this
  next => rfl

/-- The entries of an address map are those of the addresses the rules are compared with. -/
theorem mem_ipFromRulesToMap (h : (a, v) ∈ (ipFromRulesToMap type rules).1) :
    v = ipBitVector type rules a ∧ ∃ rule ∈ rules, rule.currentIp type = a := by
  unfold ipFromRulesToMap at h
  split at h
  next hif =>
    rcases OrdMap.mem_or_of_mem_insert h with ⟨e, -⟩ | h
    · obtain ⟨rfl, rfl⟩ := Prod.mk.inj e
      obtain ⟨rule, hr, hnone⟩ := List.any_eq_true.1 hif.2
      exact ⟨rfl, rule, hr, currentIp_of_none (of_decide_eq_true hnone)⟩
    · obtain ⟨hv, rule, hr, hip⟩ := mem_ruleIps.1 h
      exact ⟨hv, rule, hr, currentIp_of_some hip⟩
  next =>
    obtain ⟨hv, rule, hr, hip⟩ := mem_ruleIps.1 h
    exact ⟨hv, rule, hr, currentIp_of_some hip⟩

theorem contains_ipFromRulesToMap (nonempty : (ipFromRulesToMap type rules).1 ≠ [])
    {rule : ChainRule} (hr : rule ∈ rules) :
    (ipFromRulesToMap type rules).1.contains (rule.currentIp type) = true := by
  have ips : ruleIps type rules ≠ [] := by
    rwa [ne_eq, ruleIps_eq_nil_iff, ← ipFromRulesToMap_eq_nil_iff]
  unfold ipFromRulesToMap
  cases hip : rule.ip type with
  | none =>
    have any : (rules.any fun rule => rule.ip type = none) = true :=
      List.any_eq_true.2 ⟨rule, hr, by simp [hip]⟩
    rw [if_pos ⟨ips, any⟩, currentIp_of_none hip, OrdMap.contains_insert]
    simp
  | some a =>
    have here := contains_ruleIps.2 ⟨rule, hr, hip⟩
    rw [currentIp_of_some hip]
    split
    · rw [OrdMap.contains_insert, here, Bool.or_true]
    · exact here

theorem ordered_distinctIps : (distinctIps type rules).Ordered := by
  unfold distinctIps
  induction rules using List.reverseRecOn with
  | nil => exact List.Pairwise.nil
  | append_singleton rules rule ih =>
    rw [List.foldl_append, List.foldl_cons, List.foldl_nil]
    cases rule.ip type with
    | none => exact ih
    | some current => exact ih.insert

theorem ordered_ipFromRulesToMap : (ipFromRulesToMap type rules).1.Ordered := by
  have ips : (ruleIps type rules).Ordered :=
    ordered_distinctIps.map (f := fun a _ => ipBitVector type rules a)
  unfold ipFromRulesToMap
  split
  · exact ips.insert
  · exact ips

end Addresses

/-! ### Protocols and ports -/

section ByKey

variable {κ : Type} [DecidableEq κ] [LE κ] [DecidableLE κ] {key : ChainRule → Option κ}
  {wildcard k : κ} {rules : List ChainRule} {v : BitVector}

theorem contains_ruleKeys :
    (ruleKeys key rules).contains k = true ↔ ∃ rule ∈ rules, key rule = some k := by
  unfold ruleKeys
  induction rules using List.reverseRecOn with
  | nil => simp [OrdMap.contains]
  | append_singleton rules rule ih =>
    rw [List.foldl_append, List.foldl_cons, List.foldl_nil]
    have last : (∃ r ∈ rules ++ [rule], key r = some k) ↔
        key rule = some k ∨ ∃ r ∈ rules, key r = some k := by
      simp only [List.mem_append, List.mem_singleton, or_and_right, exists_or, exists_eq_left]
      exact or_comm
    rw [last, ← ih]
    unfold addRuleKey
    cases hk : key rule with
    | none => simp
    | some k' =>
      simp only [Option.some.injEq]
      split
      next old =>
        rw [OrdMap.contains_modify]
        refine ⟨Or.inr, ?_⟩
        rintro (rfl | h)
        · exact old
        · exact h
      next =>
        simp only [OrdMap.contains_insert, Bool.or_eq_true, decide_eq_true_eq]
        rw [eq_comm]

theorem mem_ruleKeys (hmax : ∀ rule ∈ rules, rule.id < maxRules) (h : (k, v) ∈ ruleKeys key rules)
    (j : ℕ) : hasRule v j = true ↔ ∃ rule ∈ rules, rule.id = j ∧ key rule = some k := by
  unfold ruleKeys at h
  induction rules using List.reverseRecOn generalizing v with
  | nil => cases h
  | append_singleton rules rule ih =>
    have ih : ∀ {v}, (k, v) ∈ rules.foldl (addRuleKey key) [] → _ :=
      ih fun r hr => hmax r (by simp [hr])
    have hid := hmax rule (by simp)
    rw [List.foldl_append, List.foldl_cons, List.foldl_nil] at h
    have last : (∃ r ∈ rules ++ [rule], r.id = j ∧ key r = some k) ↔
        (rule.id = j ∧ key rule = some k) ∨ ∃ r ∈ rules, r.id = j ∧ key r = some k := by
      simp only [List.mem_append, List.mem_singleton, or_and_right, exists_or, exists_eq_left]
      exact or_comm
    rw [last]
    unfold addRuleKey at h
    cases hk : key rule with
    | none =>
      rw [hk] at h
      simp [ih h]
    | some k' =>
      rw [hk] at h
      simp only at h
      split at h
      next old =>
        obtain ⟨w, hw, rfl⟩ := OrdMap.mem_modify.1 h
        split
        next e =>
          simp only [hasRule_setRule hid, Bool.or_eq_true, decide_eq_true_eq, ih hw, e, and_true]
          rw [@eq_comm _ j]
        next e => simp [ih hw, Ne.symm e]
      next new =>
        rcases OrdMap.mem_or_of_mem_insert h with ⟨e, -⟩ | h
        · -- the first rule of its key
          obtain ⟨rfl, rfl⟩ := Prod.mk.inj e
          have none : ¬ ∃ r ∈ rules, key r = some k := fun h => new (contains_ruleKeys.2 h)
          simp only [hasRule_setRule hid, hasRule_zero, Bool.or_false, decide_eq_true_eq, and_true]
          constructor
          · exact fun e => Or.inl e.symm
          · rintro (e | ⟨r, hr, -, e⟩)
            · exact e.symm
            · exact absurd ⟨r, hr, e⟩ none
        · have other : k' ≠ k := by
            rintro rfl
            exact new (OrdMap.contains_iff.2 ⟨v, h⟩)
          simp [ih h, other]

omit [DecidableEq κ] [LE κ] [DecidableLE κ] in
theorem mem_addDontCares {m : OrdMap κ BitVector} {ids : List ℕ} (hmax : ∀ id ∈ ids, id < maxRules)
    (h : (k, v) ∈ ids.foldl addDontCare m) :
    ∃ w, (k, w) ∈ m ∧ ∀ j, hasRule v j = true ↔ j ∈ ids ∨ hasRule w j = true := by
  induction ids using List.reverseRecOn generalizing v with
  | nil => exact ⟨v, h, by simp⟩
  | append_singleton ids id ih =>
    rw [List.foldl_append, List.foldl_cons, List.foldl_nil, addDontCare, List.mem_map] at h
    obtain ⟨⟨k', u⟩, hu, e⟩ := h
    obtain ⟨rfl, rfl⟩ := Prod.mk.inj e
    obtain ⟨w, hw, bits⟩ := ih (fun i hi => hmax i (by simp [hi])) hu
    refine ⟨w, hw, fun j => ?_⟩
    simp only [hasRule_setRule (hmax id (by simp)), Bool.or_eq_true, decide_eq_true_eq, bits,
      List.mem_append, List.mem_singleton]
    constructor
    · rintro (h | h | h)
      · exact Or.inl (Or.inr h)
      · exact Or.inl (Or.inl h)
      · exact Or.inr h
    · rintro ((h | h) | h)
      · exact Or.inr (Or.inl h)
      · exact Or.inl h
      · exact Or.inr (Or.inr h)

omit [LE κ] [DecidableLE κ] in
theorem contains_addDontCares {m : OrdMap κ BitVector} {ids : List ℕ} :
    OrdMap.contains (ids.foldl addDontCare m) k = m.contains k := by
  induction ids using List.reverseRecOn with
  | nil => rfl
  | append_singleton ids id ih =>
    rw [List.foldl_append, List.foldl_cons, List.foldl_nil, ← ih]
    exact OrdMap.contains_map (f := fun _ v => setRule v id)

theorem ruleKeys_eq_nil_iff : ruleKeys key rules = [] ↔ ∀ rule ∈ rules, key rule = none := by
  simp only [OrdMap.eq_nil_iff_contains, ← Bool.not_eq_true, contains_ruleKeys, not_exists, not_and]
  constructor
  · intro h rule hr
    exact Option.eq_none_iff_forall_ne_some.2 fun k => h k rule hr
  · intro h k rule hr
    rw [h rule hr]
    simp

omit [DecidableEq κ] [LE κ] [DecidableLE κ] in
theorem mem_dontCareRules {id : ℕ} :
    id ∈ dontCareRules key rules ↔ ∃ rule ∈ rules, rule.id = id ∧ key rule = none := by
  simp only [dontCareRules, List.mem_map, List.mem_filter, Option.isNone_iff_eq_none, and_assoc]
  exact exists_congr fun r => and_congr_right fun _ => and_comm

theorem keyFromRulesToMap_eq_nil_iff :
    (keyFromRulesToMap key wildcard rules).1 = [] ↔ ∀ rule ∈ rules, key rule = none := by
  rw [← ruleKeys_eq_nil_iff]
  unfold keyFromRulesToMap
  split
  next h =>
    refine iff_of_false ?_ h.1
    rw [OrdMap.eq_nil_iff_contains]
    intro none
    have := none wildcard
    rw [contains_addDontCares, OrdMap.contains_insert] at this
    simp at this
  next => rfl

theorem mem_keyFromRulesToMap (hmax : ∀ rule ∈ rules, rule.id < maxRules)
    (h : (k, v) ∈ (keyFromRulesToMap key wildcard rules).1) (j : ℕ) :
    hasRule v j = true ↔
      ∃ rule ∈ rules, rule.id = j ∧ (key rule = some k ∨ key rule = none) := by
  unfold keyFromRulesToMap at h
  split at h
  next hif =>
    obtain ⟨w, hw, bits⟩ := mem_addDontCares (fun id hid => by
      obtain ⟨rule, hr, rfl, -⟩ := mem_dontCareRules.1 hid
      exact hmax rule hr) h
    have keyed : hasRule w j = true ↔ ∃ rule ∈ rules, rule.id = j ∧ key rule = some k := by
      rcases OrdMap.mem_or_of_mem_insert hw with ⟨e, new⟩ | hw
      · obtain ⟨rfl, rfl⟩ := Prod.mk.inj e
        rw [hasRule_zero]
        refine iff_of_false Bool.false_ne_true ?_
        rintro ⟨rule, hr, -, e⟩
        have := contains_ruleKeys.2 ⟨rule, hr, e⟩
        rw [new] at this
        cases this
      · exact mem_ruleKeys hmax hw j
    rw [bits, mem_dontCareRules, keyed]
    constructor
    · rintro (⟨r, hr, hj, e⟩ | ⟨r, hr, hj, e⟩)
      · exact ⟨r, hr, hj, Or.inr e⟩
      · exact ⟨r, hr, hj, Or.inl e⟩
    · rintro ⟨r, hr, hj, e | e⟩
      · exact Or.inr ⟨r, hr, hj, e⟩
      · exact Or.inl ⟨r, hr, hj, e⟩
  next hif =>
    rw [mem_ruleKeys hmax h j]
    constructor
    · rintro ⟨r, hr, hj, e⟩
      exact ⟨r, hr, hj, Or.inl e⟩
    · rintro ⟨r, hr, hj, e | e⟩
      · exact ⟨r, hr, hj, e⟩
      · -- the map is not empty, so no rule sets no key
        have nonempty : ruleKeys key rules ≠ [] := List.ne_nil_of_mem h
        have dontCare : dontCareRules key rules ≠ [] :=
          List.ne_nil_of_mem (mem_dontCareRules.2 ⟨r, hr, hj, e⟩)
        exact absurd ⟨nonempty, dontCare⟩ hif

theorem key_of_mem_keyFromRulesToMap (h : (k, v) ∈ (keyFromRulesToMap key wildcard rules).1) :
    (∃ rule ∈ rules, key rule = some k) ∨ k = wildcard := by
  have inMap := OrdMap.contains_iff.2 ⟨v, h⟩
  unfold keyFromRulesToMap at inMap
  split at inMap
  · rw [contains_addDontCares, OrdMap.contains_insert, Bool.or_eq_true, decide_eq_true_eq] at inMap
    rcases inMap with e | old
    · exact Or.inr e
    · exact Or.inl (contains_ruleKeys.1 old)
  · exact Or.inl (contains_ruleKeys.1 inMap)

theorem contains_keyFromRulesToMap {rule : ChainRule} (hr : rule ∈ rules)
    (h : key rule = some k) :
    (keyFromRulesToMap key wildcard rules).1.contains k = true := by
  have old := contains_ruleKeys.2 ⟨rule, hr, h⟩
  unfold keyFromRulesToMap
  split
  · rw [contains_addDontCares, OrdMap.contains_insert, old, Bool.or_true]
  · exact old

theorem contains_wildcard {rule : ChainRule} (hr : rule ∈ rules) (h : key rule = none)
    (nonempty : (keyFromRulesToMap key wildcard rules).1 ≠ []) :
    (keyFromRulesToMap key wildcard rules).1.contains wildcard = true := by
  unfold keyFromRulesToMap at nonempty ⊢
  have dontCare : dontCareRules key rules ≠ [] :=
    List.ne_nil_of_mem (mem_dontCareRules.2 ⟨rule, hr, rfl, h⟩)
  by_cases keys : ruleKeys key rules = []
  · rw [if_neg fun e => e.1 keys] at nonempty
    exact absurd keys nonempty
  · rw [if_pos ⟨keys, dontCare⟩, contains_addDontCares, OrdMap.contains_insert]
    simp

end ByKey

end Polycube.Firewall
