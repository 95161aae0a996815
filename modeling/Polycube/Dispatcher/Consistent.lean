import Polycube.Dispatcher.Rules

/-!
# The rules of both maps

Every operation that ends in a defined way keeps the table of the program and the map of the control
plane at the same rules, with their ports in the range.  Where the kernel accepts all writes of a
list, or the first one fails, a failing operation leaves everything as it was.
-/

namespace Polycube.Dispatcher

open Function Lib

/-! ### The two maps -/

theorem L4Proto.toInt_injective : Function.Injective L4Proto.toInt := by
  intro proto proto'
  cases proto <;> cases proto' <;> decide

theorem NodeportKey.ntKey_injective : Function.Injective NodeportKey.ntKey := by
  rintro ⟨port, proto⟩ ⟨port', proto'⟩ h
  obtain ⟨hport, hproto⟩ := NtK.mk.injEq .. ▸ h
  obtain rfl : port = port' := bswap16_injective hport
  obtain rfl : proto = proto' := L4Proto.toInt_injective hproto
  rfl

section Maps

variable {rules : RuleMap} {t t' : Table NtK ExternalTrafficPolicyType} {key : NodeportKey}
  {policy : ExternalTrafficPolicyType} {accepts : Bool}

theorem Mirrors.apply (h : Mirrors rules t) (key : NodeportKey) :
    t key.ntKey = rules.lookup key := by
  apply Option.ext
  intro policy
  rw [h]
  constructor
  · rintro ⟨key', hk, hl⟩
    rwa [← NodeportKey.ntKey_injective hk]
  · exact fun hl => ⟨key, rfl, hl⟩

theorem Mirrors.insert (h : Mirrors rules t) (key : NodeportKey)
    (policy : ExternalTrafficPolicyType) :
    Mirrors (rules.insert key policy) (update t key.ntKey (some policy)) := by
  intro k policy'
  by_cases hk : k = key.ntKey
  · rw [hk, update_self]
    constructor
    · intro e
      exact ⟨key, rfl, by rw [AList.lookup_insert, e]⟩
    · rintro ⟨key', hk', hl⟩
      rwa [NodeportKey.ntKey_injective hk', AList.lookup_insert] at hl
  · rw [update_of_ne hk, h]
    constructor
    · rintro ⟨key', rfl, hl⟩
      exact ⟨key', rfl, by rwa [AList.lookup_insert_ne fun e => hk (by rw [e])]⟩
    · rintro ⟨key', rfl, hl⟩
      exact ⟨key', rfl, by rwa [AList.lookup_insert_ne fun e => hk (by rw [e])] at hl⟩

theorem Mirrors.erase (h : Mirrors rules t) (key : NodeportKey) :
    Mirrors (rules.erase key) (update t key.ntKey none) := by
  intro k policy'
  by_cases hk : k = key.ntKey
  · rw [hk, update_self]
    refine iff_of_false (by simp) ?_
    rintro ⟨key', hk', hl⟩
    rw [NodeportKey.ntKey_injective hk', AList.lookup_erase] at hl
    cases hl
  · rw [update_of_ne hk, h]
    constructor
    · rintro ⟨key', rfl, hl⟩
      exact ⟨key', rfl, by rwa [AList.lookup_erase_ne fun e => hk (by rw [e])]⟩
    · rintro ⟨key', rfl, hl⟩
      exact ⟨key', rfl, by rwa [AList.lookup_erase_ne fun e => hk (by rw [e])] at hl⟩

theorem nprSet_eq_some (h : nprSet accepts t key.ntKey policy = some t') :
    accepts = true ∧ t' = update t key.ntKey (some policy) := by
  unfold nprSet at h
  split at h
  · exact ⟨‹_›, (Option.some.inj h).symm⟩
  · cases h

theorem nprRemove_eq_some (h : nprRemove accepts t key.ntKey = some t') :
    accepts = true ∧ t' = update t key.ntKey none := by
  unfold nprRemove at h
  split at h
  · exact ⟨‹_ ∧ _›.1, (Option.some.inj h).symm⟩
  · cases h

/-- The removal of a rule fails only when the kernel refuses it. -/
theorem nprRemove_eq_none (h : Mirrors rules t) (hk : key ∈ rules)
    (hr : nprRemove accepts t key.ntKey = none) : accepts = false := by
  unfold nprRemove at hr
  split at hr
  · cases hr
  next refused =>
    have entry : (t key.ntKey).isSome := by
      rw [h.apply]
      exact AList.lookup_isSome.2 hk
    exact Bool.eq_false_iff.2 fun e => refused ⟨e, entry⟩

theorem erase_insert_of_notMem (h : key ∉ rules) : (rules.insert key policy).erase key = rules := by
  apply AList.ext
  show (rules.insert key policy).entries.kerase key = rules.entries
  rw [AList.entries_insert_of_notMem h]
  exact List.kerase_cons_eq rfl

end Maps

section Flush

variable {kernel : ℕ → Bool} {low high : BitVec 16}

theorem flushRules_cons_in {key : NodeportKey} (h : ¬ (key.port < low ∨ high < key.port)) (n : ℕ)
    (keys : List NodeportKey) (s : Control) :
    flushRules kernel low high n (key :: keys) s = flushRules kernel low high n keys s :=
  if_neg h

variable {s : Control}

theorem flushRules_cons_none {key : NodeportKey} (h : key.port < low ∨ high < key.port) {n : ℕ}
    (hr : nprRemove (kernel n) s.nprTable key.ntKey = none)
    (keys : List NodeportKey) : flushRules kernel low high n (key :: keys) s = (false, s) := by
  rw [flushRules, if_pos h, hr]

theorem flushRules_cons_some {key : NodeportKey} (h : key.port < low ∨ high < key.port) {n : ℕ}
    {t : Table NtK ExternalTrafficPolicyType}
    (hr : nprRemove (kernel n) s.nprTable key.ntKey = some t) (keys : List NodeportKey) :
    flushRules kernel low high n (key :: keys) s = flushRules kernel low high (n + 1) keys
      { s with nprTable := t, nodePortRuleMap := s.nodePortRuleMap.erase key } := by
  rw [flushRules, if_pos h, hr]

/-- What the loop keeps, and what it has done when it gets through: the rules that are left of its
list are in the range. -/
theorem flushRules_spec (n : ℕ) (keys : List NodeportKey) (s : Control)
    (mirrors : Mirrors s.nodePortRuleMap s.nprTable) :
    Mirrors (flushRules kernel low high n keys s).2.nodePortRuleMap
        (flushRules kernel low high n keys s).2.nprTable ∧
      (flushRules kernel low high n keys s).2.nodeportRangeTuple = s.nodeportRangeTuple ∧
      (∀ key ∈ (flushRules kernel low high n keys s).2.nodePortRuleMap, key ∈ s.nodePortRuleMap) ∧
      ((flushRules kernel low high n keys s).1 = true → ∀ key ∈ keys,
        key ∈ (flushRules kernel low high n keys s).2.nodePortRuleMap →
          low ≤ key.port ∧ key.port ≤ high) := by
  induction keys generalizing n s with
  | nil => exact ⟨mirrors, rfl, fun _ h => h, fun _ _ h => absurd h List.not_mem_nil⟩
  | cons key keys ih =>
    by_cases out : key.port < low ∨ high < key.port
    · cases hr : nprRemove (kernel n) s.nprTable key.ntKey with
      | none =>
        rw [flushRules_cons_none out hr]
        exact ⟨mirrors, rfl, fun _ h => h, fun h => absurd h Bool.false_ne_true⟩
      | some t =>
        obtain ⟨-, rfl⟩ := nprRemove_eq_some hr
        rw [flushRules_cons_some out hr]
        obtain ⟨keep, range, left, inRange⟩ := ih (n + 1) { s with
          nprTable := update s.nprTable key.ntKey none
          nodePortRuleMap := s.nodePortRuleMap.erase key } (mirrors.erase key)
        refine ⟨keep, range, fun k hk => (AList.mem_erase.1 (left k hk)).2, fun ok k hk hm => ?_⟩
        rcases List.mem_cons.1 hk with rfl | hk
        · exact absurd rfl (AList.mem_erase.1 (left _ hm)).1
        · exact inRange ok k hk hm
    · rw [flushRules_cons_in out]
      obtain ⟨keep, range, left, inRange⟩ := ih n s mirrors
      refine ⟨keep, range, left, fun ok k hk hm => ?_⟩
      rcases List.mem_cons.1 hk with rfl | hk
      · rw [not_or, BitVec.not_lt, BitVec.not_lt] at out
        exact out
      · exact inRange ok k hk hm

/-- When the kernel refuses the first removal nothing has changed. -/
theorem flushRules_of_refused {n : ℕ} (refused : kernel n = false) (keys : List NodeportKey)
    (s : Control) : (flushRules kernel low high n keys s).2 = s := by
  induction keys with
  | nil => rfl
  | cons key keys ih =>
    by_cases out : key.port < low ∨ high < key.port
    · rw [flushRules_cons_none out (by simp [nprRemove, refused])]
    · rw [flushRules_cons_in out]
      exact ih

/-- When the kernel accepts the removals the loop gets through. -/
theorem flushRules_of_accepts {n : ℕ} {keys : List NodeportKey} (nodup : keys.Nodup)
    (mem : ∀ key ∈ keys, key ∈ s.nodePortRuleMap) (mirrors : Mirrors s.nodePortRuleMap s.nprTable)
    (accepts : ∀ m < keys.countP fun key => key.port < low ∨ high < key.port,
      kernel (n + m) = true) : (flushRules kernel low high n keys s).1 = true := by
  induction keys generalizing n s with
  | nil => rfl
  | cons key keys ih =>
    obtain ⟨fresh, nodup⟩ := List.nodup_cons.1 nodup
    by_cases out : key.port < low ∨ high < key.port
    · rw [List.countP_cons_of_pos (by simpa using out)] at accepts
      have first := accepts 0 (Nat.succ_pos _)
      cases hr : nprRemove (kernel n) s.nprTable key.ntKey with
      | none =>
        have refused := nprRemove_eq_none mirrors (mem key List.mem_cons_self) hr
        rw [Nat.add_zero, refused] at first
        cases first
      | some t =>
        obtain ⟨-, rfl⟩ := nprRemove_eq_some hr
        rw [flushRules_cons_some out hr]
        refine ih nodup (fun k hk => AList.mem_erase.2 ⟨?_, mem k (List.mem_cons_of_mem _ hk)⟩)
          (mirrors.erase key) fun m hm => ?_
        · rintro rfl
          exact fresh hk
        · have next := accepts (m + 1) (Nat.succ_lt_succ hm)
          rwa [← Nat.add_assoc, Nat.add_right_comm] at next
    · rw [flushRules_cons_in out]
      rw [List.countP_cons_of_neg (by simpa using out)] at accepts
      exact ih nodup (fun k hk => mem k (List.mem_cons_of_mem _ hk)) mirrors accepts

end Flush

section Update

variable {kernel : ℕ → Bool}

variable {s : Control}

theorem updateRules_cons_none {key : NodeportKey} (hk : key ∈ s.nodePortRuleMap)
    (n : ℕ) (confs : List (NodeportKey × Option ExternalTrafficPolicyType)) :
    updateRules kernel n ((key, none) :: confs) s = updateRules kernel n confs s :=
  if_pos hk

theorem updateRules_cons_some {key : NodeportKey} (hk : key ∈ s.nodePortRuleMap)
    (n : ℕ) (policy : ExternalTrafficPolicyType)
    (confs : List (NodeportKey × Option ExternalTrafficPolicyType)) :
    updateRules kernel n ((key, some policy) :: confs) s =
      if kernel n then updateRules kernel (n + 1) confs { s with
          nprTable := update s.nprTable key.ntKey (some policy)
          nodePortRuleMap := s.nodePortRuleMap.insert key policy }
      else (.threw "Failed to update NodePort rule", s) := by
  rw [updateRules, if_pos hk, nprSet]
  cases kernel n <;> rfl

theorem updateRules_cons_undefined {key : NodeportKey} (hk : key ∉ s.nodePortRuleMap)
    (n : ℕ) (policy : Option ExternalTrafficPolicyType)
    (confs : List (NodeportKey × Option ExternalTrafficPolicyType)) :
    updateRules kernel n ((key, policy) :: confs) s = (.undefined, s) := by
  cases policy <;> exact if_neg hk

/-- Updates keep the rules of both maps the same, and the ports. -/
theorem updateRules_spec (n : ℕ) (confs : List (NodeportKey × Option ExternalTrafficPolicyType))
    (s : Control) (h : s.Consistent) : (updateRules kernel n confs s).2.Consistent := by
  induction confs generalizing n s with
  | nil => exact h
  | cons conf confs ih =>
    obtain ⟨key, policy⟩ := conf
    by_cases hk : key ∈ s.nodePortRuleMap
    · cases policy with
      | none =>
        rw [updateRules_cons_none hk]
        exact ih n s h
      | some policy =>
        rw [updateRules_cons_some hk]
        split
        · refine ih _ _ ⟨h.mirrors.insert key policy, fun k hm => ?_⟩
          rcases (AList.mem_insert _).1 hm with rfl | hm
          · exact h.inRange _ hk
          · exact h.inRange k hm
        · exact h
    · rw [updateRules_cons_undefined hk]
      exact h

/-- When the rules exist and the kernel accepts the updates all of them are made. -/
theorem updateRules_of_accepts {n : ℕ}
    {confs : List (NodeportKey × Option ExternalTrafficPolicyType)}
    (mem : ∀ conf ∈ confs, conf.1 ∈ s.nodePortRuleMap)
    (accepts : ∀ m < confs.countP fun conf => conf.2 ≠ none, kernel (n + m) = true) :
    (updateRules kernel n confs s).1 = .done := by
  induction confs generalizing n s with
  | nil => rfl
  | cons conf confs ih =>
    obtain ⟨key, policy⟩ := conf
    have hk : key ∈ s.nodePortRuleMap := mem (key, policy) List.mem_cons_self
    have others : ∀ conf ∈ confs, conf.1 ∈ s.nodePortRuleMap := fun conf hc =>
      mem conf (List.mem_cons_of_mem _ hc)
    cases policy with
    | none =>
      rw [List.countP_cons_of_neg (by simp)] at accepts
      rw [updateRules_cons_none hk]
      exact ih others accepts
    | some policy =>
      rw [List.countP_cons_of_pos (by simp)] at accepts
      have first : kernel n = true := accepts 0 (Nat.succ_pos _)
      rw [updateRules_cons_some hk, if_pos first]
      refine ih (fun conf hc => (AList.mem_insert _).2 (Or.inr (others conf hc))) fun m hm => ?_
      have next := accepts (m + 1) (Nat.succ_lt_succ hm)
      rwa [← Nat.add_assoc, Nat.add_right_comm] at next

/-- When the kernel refuses the first update nothing has changed. -/
theorem updateRules_of_refused {n : ℕ} (refused : kernel n = false)
    {before after : List (NodeportKey × Option ExternalTrafficPolicyType)}
    {conf : NodeportKey × Option ExternalTrafficPolicyType}
    (earlier : ∀ b ∈ before, b.1 ∈ s.nodePortRuleMap ∧ b.2 = none)
    (hk : conf.1 ∈ s.nodePortRuleMap) (hp : conf.2 ≠ none) :
    updateRules kernel n (before ++ conf :: after) s =
      (.threw "Failed to update NodePort rule", s) := by
  induction before with
  | nil =>
    obtain ⟨key, policy⟩ := conf
    obtain ⟨policy, rfl⟩ := Option.ne_none_iff_exists'.1 hp
    rw [List.nil_append, updateRules_cons_some hk, if_neg (by simp [refused])]
  | cons b before ih =>
    obtain ⟨key, policy⟩ := b
    obtain ⟨hkey, rfl⟩ := earlier _ List.mem_cons_self
    rw [List.cons_append, updateRules_cons_none hkey]
    exact ih fun b hb => earlier b (List.mem_cons_of_mem _ hb)

end Update

/-! ### Operations -/

section Operations

variable {order : List NodeportKey → List NodeportKey} {unset : ExternalTrafficPolicyType}
  {kernel : ℕ → Bool} {s : Control}

theorem Control.init_consistent : Control.init.Consistent where
  mirrors k policy := by simp [Control.init]
  inRange key h := absurd h (AList.notMem_empty key)

theorem Control.Consistent.setNodeportRange (h : s.Consistent) (perm : ∀ keys, (order keys).Perm keys)
    (value : String) : (setNodeportRange kernel order value s).2.Consistent := by
  unfold Dispatcher.setNodeportRange
  split
  · exact h
  split
  · exact h
  split
  · exact h
  next low high _ _ =>
    obtain ⟨keep, range, left, inRange⟩ :=
      @flushRules_spec kernel low high 0 (order s.nodePortRuleMap.keys) s h.mirrors
    split
    next hf =>
      rw [hf] at keep range left
      refine ⟨keep, fun key hk => ?_⟩
      rw [range]
      exact h.inRange key (left key hk)
    next hf =>
      rw [hf] at keep left inRange
      refine ⟨keep, fun key hk => inRange rfl key ?_ hk⟩
      exact (perm _).mem_iff.2 (AList.mem_keys.1 (left key hk))

theorem Control.Consistent.addNodeportRule (h : s.Consistent) (key : NodeportKey)
    {policy : Option ExternalTrafficPolicyType} (hp : policy ≠ none) :
    (addNodeportRule kernel unset key policy s).2.Consistent := by
  obtain ⟨policy, rfl⟩ := Option.ne_none_iff_exists'.1 hp
  unfold Dispatcher.addNodeportRule
  split
  · exact h
  next inRange =>
    split
    · exact h
    next fresh =>
      split
      · exact h
      dsimp only
      split
      · rw [erase_insert_of_notMem fresh]
        exact h
      next t ht =>
        obtain ⟨-, rfl⟩ := nprSet_eq_some ht
        refine ⟨h.mirrors.insert key policy, fun k hk => ?_⟩
        rcases (AList.mem_insert _).1 hk with rfl | hk
        · rw [not_or, BitVec.not_lt, BitVec.not_lt] at inRange
          exact inRange
        · exact h.inRange k hk

theorem Control.Consistent.delNodeportRule (h : s.Consistent) (kernel : ℕ → Bool)
    (key : NodeportKey) :
    (delNodeportRule kernel key s).2.Consistent := by
  unfold Dispatcher.delNodeportRule
  split
  · exact h
  next t ht =>
    obtain ⟨-, rfl⟩ := nprRemove_eq_some ht
    exact ⟨h.mirrors.erase key, fun k hk => h.inRange k (AList.mem_erase.1 hk).2⟩

/-- Rules that are all deleted go one by one as far as the loop goes. -/
theorem Control.Consistent.delNodeportRuleList (h : s.Consistent) :
    (delNodeportRuleList kernel order s).2.Consistent := by
  unfold Dispatcher.delNodeportRuleList
  split
  · exact h
  next key _ _ =>
    have deleted := h.delNodeportRule kernel key
    split
    next hd => rwa [hd] at deleted
    · exact deleted

/-- Operations keep the rules of both maps the same, and in the range. -/
theorem control_consistent (perm : ∀ keys, (order keys).Perm keys) {event : Op × (ℕ → Bool)}
    (h : s.Consistent) (safe : Op.Safe s event) : (control order unset s event).Consistent := by
  obtain ⟨op, kernel⟩ := event
  cases op with
  | setNodeportRange value => exact h.setNodeportRange perm value
  | addNodeportRule key policy => exact h.addNodeportRule key safe
  | updateNodeportRuleList confs => exact updateRules_spec 0 confs s h
  | delNodeportRule key => exact h.delNodeportRule kernel key
  | delNodeportRuleList => exact h.delNodeportRuleList

theorem clean_of_done {result : Outcome × Control} (h : result.1 = .done) : Clean s result :=
  ⟨by simp [h], by simp [h]⟩

theorem clean_done (s' : Control) : Clean s (.done, s') := clean_of_done rfl

theorem clean_threw (message : String) : Clean s (.threw message, s) := ⟨by simp, fun _ _ => rfl⟩

theorem setNodeportRange_clean (perm : ∀ keys, (order keys).Perm keys) (h : s.Consistent)
    {value : String} (safe : Op.Safe s (.setNodeportRange value, kernel)) :
    Clean s (setNodeportRange kernel order value s) := by
  unfold setNodeportRange
  split
  · exact ⟨by simp, by simp⟩
  next other =>
    split
    · exact ⟨by simp, by simp⟩
    next low high scan =>
      split
      · exact ⟨by simp, by simp⟩
      next lt =>
        rcases safe other low high scan (BitVec.not_le.1 lt) with refused | accepts
        · have same : (flushRules kernel low high 0 (order s.nodePortRuleMap.keys) s).2 = s :=
            flushRules_of_refused refused _ s
          split
          next s' hf =>
            rw [hf] at same
            obtain rfl : s' = s := same
            exact clean_threw _
          · exact clean_done _
        · have through :
              (flushRules kernel low high 0 (order s.nodePortRuleMap.keys) s).1 = true := by
            apply flushRules_of_accepts
            · exact (perm s.nodePortRuleMap.keys).nodup_iff.2 s.nodePortRuleMap.keys_nodup
            · exact fun key hk => AList.mem_keys.2 ((perm _).mem_iff.1 hk)
            · exact h.mirrors
            · intro n hn
              rw [(perm _).countP_eq] at hn
              rw [Nat.zero_add]
              exact accepts n hn
          split
          next hf =>
            rw [hf] at through
            cases through
          · exact clean_done _

theorem addNodeportRule_clean (key : NodeportKey) (policy : Option ExternalTrafficPolicyType) :
    Clean s (addNodeportRule kernel unset key policy s) := by
  unfold addNodeportRule
  split
  · exact ⟨by simp, by simp⟩
  split
  · exact ⟨by simp, by simp⟩
  next fresh =>
    split
    · exact ⟨by simp, by simp⟩
    dsimp only
    split
    · rw [erase_insert_of_notMem fresh]
      exact ⟨by simp, by simp⟩
    · exact ⟨by simp, by simp⟩

theorem delNodeportRule_clean (key : NodeportKey) :
    Clean s (delNodeportRule kernel key s) := by
  unfold delNodeportRule
  split
  · exact ⟨by simp, by simp⟩
  · exact ⟨by simp, by simp⟩

theorem updateNodeportRuleList_clean
    {confs : List (NodeportKey × Option ExternalTrafficPolicyType)}
    (safe : Op.Safe s (.updateNodeportRuleList confs, kernel)) :
    Clean s (updateNodeportRuleList kernel confs s) := by
  rcases safe with ⟨mem, accepts⟩ | ⟨refused, before, conf, after, rfl, earlier, hk, hp⟩
  · have done := updateRules_of_accepts (n := 0) mem (by simpa using accepts)
    exact clean_of_done done
  · rw [updateNodeportRuleList, updateRules_of_refused refused earlier hk hp]
    exact clean_threw _

theorem delNodeportRuleList_clean (perm : ∀ keys, (order keys).Perm keys)
    (safe : Op.Safe s (.delNodeportRuleList, kernel)) :
    Clean s (delNodeportRuleList kernel order s) := by
  unfold delNodeportRuleList
  rcases (safe : _ ∨ kernel 0 = false) with empty | refused
  · have none : order s.nodePortRuleMap.keys = [] := by
      rw [empty]
      exact (perm []).eq_nil
    rw [none]
    exact clean_done s
  · split
    · exact ⟨by simp, by simp⟩
    next key _ _ =>
      have threw : Dispatcher.delNodeportRule kernel key s =
          (.threw "Failed to delete NodePort rule", s) := by
        have first : kernel 0 = false := refused
        simp [Dispatcher.delNodeportRule, nprRemove, first]
      rw [threw]
      exact clean_threw _

theorem clean_of_safe (perm : ∀ keys, (order keys).Perm keys) (h : s.Consistent) {op : Op}
    (safe : Op.Safe s (op, kernel)) : Clean s (op.apply order unset kernel s) := by
  cases op with
  | setNodeportRange value => exact setNodeportRange_clean perm h safe
  | addNodeportRule key policy => exact addNodeportRule_clean key policy
  | updateNodeportRuleList confs => exact updateNodeportRuleList_clean safe
  | delNodeportRule key => exact delNodeportRule_clean key
  | delNodeportRuleList => exact delNodeportRuleList_clean perm safe

end Operations

/-- After safe operations the table of the program has exactly the rules of the map, their ports are
in the range, and a safe operation that then fails leaves everything as it was. -/
theorem run_consistent (order : List NodeportKey → List NodeportKey)
    (perm : ∀ keys, (order keys).Perm keys) (unset : ExternalTrafficPolicyType)
    (events : List (Op × (ℕ → Bool))) (safe : Meets (control order unset) Op.Safe .init events) :
    (run (control order unset) .init events).Consistent ∧
      ∀ op kernel, Op.Safe (run (control order unset) .init events) (op, kernel) →
        Clean (run (control order unset) .init events)
          (op.apply order unset kernel (run (control order unset) .init events)) := by
  have consistent : (run (control order unset) .init events).Consistent :=
    run_induction (fun _ _ h hs => control_consistent perm h hs) Control.init_consistent safe
  exact ⟨consistent, fun op kernel hs => clean_of_safe perm consistent hs⟩

/-- Two rules, a smaller range and an update. -/
theorem run_consistent_two : (run (control id .local) .init
    [(.addNodeportRule ⟨30100, .tcp⟩ (some .cluster), fun _ => true),
     (.addNodeportRule ⟨30200, .udp⟩ (some .local), fun _ => true),
     (.setNodeportRange "30000-30150", fun _ => true),
     (.updateNodeportRuleList [(⟨30100, .tcp⟩, some .local)], fun _ => true)]).Consistent := by
  refine (run_consistent id (fun _ => List.Perm.refl _) .local _ ?_).1
  refine ⟨?_, ?_, ?_, ?_, trivial⟩
  · exact Option.some_ne_none _
  · exact Option.some_ne_none _
  · exact fun _ _ _ _ _ => Or.inr fun _ _ => rfl
  · exact Or.inl ⟨by decide, fun _ _ => rfl⟩

/-- Two rules: when the kernel refuses the second of two updates the first one has been made, and
the deletion of all rules goes on where nothing is defined. -/
theorem operations_not_clean : ∃ s, s = run (control id .local) .init
      [(.addNodeportRule ⟨30100, .tcp⟩ (some .cluster), fun _ => true),
       (.addNodeportRule ⟨30200, .udp⟩ (some .cluster), fun _ => true)] ∧
    ¬ Clean s ((Op.updateNodeportRuleList
      [(⟨30100, .tcp⟩, some .local), (⟨30200, .udp⟩, some .local)]).apply id .local (· == 0) s) ∧
    ¬ Clean s (Op.delNodeportRuleList.apply id .local (fun _ => true) s) := by
  refine ⟨_, rfl, fun clean => ?_, fun clean => clean.1 (by decide)⟩
  have same := clean.2 "Failed to update NodePort rule" (by decide)
  have policy := congrArg (fun s => s.nodePortRuleMap.lookup ⟨30100, .tcp⟩) same
  exact absurd policy (by decide)

end Polycube.Dispatcher
