import Polycube.Lib.ConsistentHash

/-!
# Slots of weighted backends: order and reads

The slots that are left over after all backends have theirs go round the backends in the order of
the list.  The numbers of slots are the same in every order exactly when they can be handed out
evenly (`weightBackend_perm`, `slotArray_ne`).  A column is read up to the last row; one that was
drawn for fewer rows may be read past its end (`consistentArrayChecked`, `not_full_of_short`).
-/

namespace Polycube.Lib

open Function

variable {ι : Type*} [DecidableEq ι]

/-! ### Numbers of slots -/

section Weights

variable {share : ℕ → ℕ → ℕ → ℕ} {rows sum : ℕ} {backends bs bs' : List (ι × ℕ)} {pool : ι → ℕ}
  {res : ℕ} {x y : ι}

theorem startPool_of_mem (nodup : (bs.map Prod.fst).Nodup) {w : ℕ} (hx : (x, w) ∈ bs) (hw : w ≠ 0) :
    startPool share rows sum bs pool x = slotsOf share rows sum w := by
  induction bs generalizing pool with
  | nil => cases hx
  | cons b bs ih =>
    rw [List.map_cons, List.nodup_cons] at nodup
    rcases List.mem_cons.1 hx with rfl | hx
    · have gone : x ∉ weighted bs := by
        intro h
        obtain ⟨w', hw', -⟩ := mem_weighted.1 h
        exact nodup.1 (List.mem_map.2 ⟨_, hw', rfl⟩)
      rw [startPool, if_neg hw, startPool_of_notMem gone, update_self]
    · unfold startPool
      split
      · exact ih nodup.2 hx
      · exact ih nodup.2 hx

theorem startPool_perm (nodup : (bs.map Prod.fst).Nodup) (perm : bs'.Perm bs) (x : ι) :
    startPool share rows sum bs' pool x = startPool share rows sum bs pool x := by
  have nodup' : (bs'.map Prod.fst).Nodup := (perm.map _).nodup_iff.2 nodup
  by_cases h : x ∈ weighted bs
  · obtain ⟨w, hx, hw⟩ := mem_weighted.1 h
    rw [startPool_of_mem nodup hx hw, startPool_of_mem nodup' (perm.mem_iff.2 hx) hw]
  · have h' : x ∉ weighted bs' := by
      rwa [mem_weighted, exists_congr fun w => and_congr_left' perm.mem_iff, ← mem_weighted]
    rw [startPool_of_notMem h, startPool_of_notMem h']

omit [DecidableEq ι] in
theorem totalWeight_perm (perm : bs'.Perm bs) :
    totalWeight share rows sum bs' = totalWeight share rows sum bs := by
  induction perm with
  | nil => rfl
  | cons b _ ih =>
    unfold totalWeight
    rw [ih]
  | swap a b l =>
    simp only [totalWeight]
    split
    · rfl
    · split
      · rfl
      · omega
  | trans _ _ ih ih' => exact ih.trans ih'

omit [DecidableEq ι] in
theorem leftover_perm (perm : bs'.Perm bs) : leftover share rows bs' = leftover share rows bs := by
  unfold leftover
  rw [(perm.map Prod.snd).sum_eq, totalWeight_perm perm]

omit [DecidableEq ι] in
theorem weighted_append (bs bs' : List (ι × ℕ)) :
    weighted (bs ++ bs') = weighted bs ++ weighted bs' := by
  unfold weighted
  rw [List.filter_append, List.map_append]

omit [DecidableEq ι] in
theorem weighted_perm (perm : bs'.Perm bs) : (weighted bs').Perm (weighted bs) :=
  (perm.filter _).map _

/-- When what is left over goes round evenly, the order of the backends does not matter. -/
theorem weightBackend_perm (nodup : (bs.map Prod.fst).Nodup) (any : weighted bs ≠ [])
    (even : (weighted bs).length ∣ leftover share rows bs) (perm : bs'.Perm bs) :
    weightBackend share rows bs' = weightBackend share rows bs := by
  have nodup' : (bs'.map Prod.fst).Nodup := (perm.map _).nodup_iff.2 nodup
  have perm' := weighted_perm perm
  have any' : weighted bs' ≠ [] := by
    intro e
    rw [e] at perm'
    exact any perm'.nil_eq.symm
  rw [weightBackend_eq nodup any, weightBackend_eq nodup' any', Option.some.injEq]
  funext y
  rw [(perm.map Prod.snd).sum_eq, startPool_perm nodup perm, leftover_perm perm, perm'.length_eq]
  simp only [perm'.mem_iff, extra, Nat.mod_eq_zero_of_dvd even, Nat.not_lt_zero, if_false]

end Weights

section Slots

variable {rows : ℕ} {columns : List (ι × Option (List ℕ))} {backends bs bs' : List (ι × ℕ)}
  {share : ℕ → ℕ → ℕ → ℕ} {x : ι}

theorem sum_count_eq {xs : List ι} (nodup : xs.Nodup) {l : List ι} (inside : ∀ y ∈ l, y ∈ xs) :
    (xs.map fun x => l.count x).sum = l.length := by
  induction l with
  | nil => simp
  | cons y l ih =>
    have upd : (fun x => (y :: l).count x) =
        update (fun x => l.count x) y (l.count y + 1) := by
      funext x
      by_cases hx : x = y
      · rw [hx, update_self, List.count_cons_self]
      · rw [update_of_ne hx, List.count_cons_of_ne (Ne.symm hx)]
    rw [upd, @sum_update_add_one _ _ (fun x => l.count x) y xs nodup (inside y (by simp)),
      ih fun z hz => inside z (by simp [hz]), List.length_cons]

theorem sum_startPool_add_leftover (nodup : (backends.map Prod.fst).Nodup)
    (any : weighted backends ≠ []) (left : leftover share rows backends ≠ 0) {q : ι → ℕ}
    (hq : weightBackend share rows backends = some q) :
    ((weighted backends).map q).sum = rows := by
  obtain ⟨q', hq', -, total⟩ := @weightBackend_spec _ _ share rows _ nodup any
  have same : q = q' := Option.some.inj (hq.symm.trans hq')
  rw [same, total]
  unfold leftover at left ⊢
  omega

theorem count_slots {q : ι → ℕ} {xs l : List ι} (nodup : xs.Nodup) (inside : ∀ y ∈ l, y ∈ xs)
    (at_most : ∀ y, l.count y ≤ q y) (total : (xs.map q).sum = l.length) :
    ∀ y ∈ xs, l.count y = q y := by
  have sums : (xs.map fun x => l.count x).sum = (xs.map q).sum :=
    (sum_count_eq nodup inside).trans total.symm
  intro y hy
  by_contra ne
  have less : (xs.map fun x => l.count x).sum < (xs.map q).sum :=
    List.sum_lt_sum _ _ (fun z _ => at_most z) ⟨y, hy, lt_of_le_of_ne (at_most y) ne⟩
  omega

theorem count_consistentArray_le
    (perm : ∀ c ∈ columns, ∀ nums, c.2 = some nums → nums.Perm (List.range rows)) (quota : ι → ℕ) :
    (consistentArray rows columns quota).count (some x) ≤ quota x := by
  obtain ⟨h, -, -⟩ := @rows_keep _ _ rows rows _ _ columns perm (filling_start rows quota) le_rfl
  have := h.quota x
  unfold consistentArray
  omega

/-- When at least one backend has a weight and there is a slot for each that has one, then all slots
are filled with these backends, and each is in one. -/
theorem Columns.array_weighted (h : Columns rows (backends.map Prod.fst) columns)
    (nodup : (backends.map Prod.fst).Nodup) (any : weighted backends ≠ [])
    (few : backends.length ≤ rows) : ∃ (q : ι → ℕ) (l : List ι),
      weightBackend share rows backends = some q ∧ consistentArray rows columns q = l.map some ∧
      l.length = rows ∧ ∀ x, x ∈ l ↔ x ∈ weighted backends := by
  obtain ⟨q, hq, pos, total⟩ := @weightBackend_spec _ _ share rows _ nodup any
  have sub : ∀ x ∈ weighted backends, x ∈ backends.map Prod.fst := by
    intro x hx
    obtain ⟨w, hw, -⟩ := mem_weighted.1 hx
    exact List.mem_map.2 ⟨_, hw, rfl⟩
  have few' : (weighted backends).length ≤ rows := by
    unfold weighted
    rw [List.length_map]
    exact (List.length_filter_le _ _).trans few
  obtain ⟨l, hl, length, mem⟩ := consistentArray_spec h.nodup h.perm (nodup_weighted nodup)
    (fun x hx => h.column x (sub x hx)) pos few'
    (rows_le_total.trans_eq total.symm)
  exact ⟨q, l, hq, hl, length, mem⟩

/-- When what is left over does not go round evenly, the first backend gets one slot more than it
would get as the last one, and the slots are different. -/
theorem slotArray_ne (h : Columns rows (bs.map Prod.fst) columns) (nodup : (bs.map Prod.fst).Nodup)
    (few : bs.length ≤ rows) (perm : bs'.Perm bs)
    (odd : ¬ (weighted bs).length ∣ leftover share rows bs) {rest rest' : List ι}
    (first : weighted bs = x :: rest) (last : weighted bs' = rest' ++ [x]) :
    slotArray share rows columns bs' ≠ slotArray share rows columns bs := by
  have any : weighted bs ≠ [] := by simp [first]
  have any' : weighted bs' ≠ [] := by simp [last]
  have left : leftover share rows bs ≠ 0 := fun e => odd (e ▸ Dvd.intro_left 0 (Nat.zero_mul _))
  have nodup' : (bs'.map Prod.fst).Nodup := (perm.map _).nodup_iff.2 nodup
  have h' : Columns rows (bs'.map Prod.fst) columns :=
    ⟨h.nodup, h.perm, fun y hy => h.column y ((perm.map _).mem_iff.1 hy)⟩
  obtain ⟨q, l, hq, hl, length, mem⟩ := @Columns.array_weighted _ _ _ _ _ share h nodup any few
  obtain ⟨q', l', hq', hl', length', mem'⟩ := @Columns.array_weighted _ _ _ _ _ share h' nodup' any'
    (perm.length_eq ▸ few)
  have at_most : ∀ {q : ι → ℕ} {l : List ι}, consistentArray rows columns q = l.map some →
      ∀ y, l.count y ≤ q y := by
    intro q l hl y
    have := @count_consistentArray_le _ _ rows columns y h.perm q
    rwa [hl, List.count_map_of_injective _ _ (Option.some_injective ι)] at this
  have gets := count_slots (nodup_weighted nodup) (fun y hy => (mem y).1 hy) (at_most hl)
    ((sum_startPool_add_leftover nodup any left hq).trans length.symm) x (by simp [first])
  have gets' := count_slots (nodup_weighted nodup') (fun y hy => (mem' y).1 hy) (at_most hl')
    ((sum_startPool_add_leftover nodup' any' (by rwa [leftover_perm perm]) hq').trans length'.symm)
    x (by simp [last])
  -- `x` gets one of the slots that do not go round, and then it does not
  have more : q x = q' x + 1 := by
    rw [weightBackend_eq nodup any] at hq
    rw [weightBackend_eq nodup' any'] at hq'
    have notMem : x ∉ rest' := by
      have := nodup_weighted nodup'
      rw [last, List.nodup_append_comm, List.singleton_append, List.nodup_cons] at this
      exact this.1
    have length : rest'.length = rest.length := by
      have := (weighted_perm perm).length_eq
      rw [first, last, List.length_append, List.length_cons] at this
      simpa using this
    rw [← Option.some.inj hq, ← Option.some.inj hq']
    dsimp only
    rw [(perm.map Prod.snd).sum_eq, startPool_perm nodup perm, leftover_perm perm, first, last]
    simp only [List.mem_cons, true_or, if_true, List.mem_append, or_true,
      List.idxOf_cons_self, List.idxOf_append_of_notMem notMem, List.length_cons,
      List.length_append, List.length_nil, Nat.zero_add, length, extra]
    rw [first, List.length_cons] at odd
    have odd : 0 < leftover share rows bs % (rest.length + 1) :=
      Nat.pos_of_ne_zero fun e => odd (Nat.dvd_of_mod_eq_zero e)
    have below : leftover share rows bs % (rest.length + 1) < rest.length + 1 :=
      Nat.mod_lt _ (Nat.succ_pos _)
    rw [if_pos odd, if_neg (by omega)]
    omega
  unfold slotArray
  rw [hq, hq', Option.map_some, Option.map_some, hl, hl', Ne, Option.some.injEq]
  intro same
  have same : l' = l := List.map_injective_iff.2 (Option.some_injective ι) same
  rw [same] at gets'
  omega

end Slots

/-! ### Columns in the order of the backends -/

section Order

variable {r : ι → ι → Prop} [DecidableRel r] {columns : List (ι × Option (List ℕ))} {x : ι}
  {column : Option (List ℕ)}

structure StrictTotal (r : ι → ι → Prop) : Prop where
  trans : ∀ a b c, r a b → r b c → r a c
  asymm : ∀ a b, r a b → ¬ r b a
  connected : ∀ a b, a ≠ b → r a b ∨ r b a

omit [DecidableEq ι] [DecidableRel r] in
theorem StrictTotal.of_lt {κ : Type*} [LinearOrder κ] {f : ι → κ} (inj : Function.Injective f)
    (h : ∀ a b, r a b ↔ f a < f b) : StrictTotal r where
  trans a b c hab hbc := (h a c).2 (((h a b).1 hab).trans ((h b c).1 hbc))
  asymm a b hab hba := lt_asymm ((h a b).1 hab) ((h b a).1 hba)
  connected a b ne := (lt_or_gt_of_ne fun e => ne (inj e)).imp (h a b).2 (h b a).2

def InOrder {β : Type*} (r : ι → ι → Prop) (entries : List (ι × β)) : Prop :=
  entries.Pairwise fun a b => r a.1 b.1

omit [DecidableEq ι] in
theorem inOrder_orderedInsert {β : Type*} (order : StrictTotal r) {entries : List (ι × β)}
    {e : ι × β} (h : InOrder r entries) (new : ∀ c ∈ entries, c.1 ≠ e.1) :
    InOrder r (entries.orderedInsert (fun a b => r a.1 b.1) e) := by
  unfold InOrder at h ⊢
  induction entries with
  | nil => exact List.pairwise_singleton _ _
  | cons c entries ih =>
    rw [List.pairwise_cons] at h
    rw [List.orderedInsert_cons]
    split
    next before =>
      refine List.pairwise_cons.2 ⟨fun d hd => ?_, List.pairwise_cons.2 h⟩
      rcases List.mem_cons.1 hd with rfl | hd
      · exact before
      · exact order.trans _ _ _ before (h.1 d hd)
    next after =>
      refine List.pairwise_cons.2 ⟨fun d hd => ?_, ih h.2 fun d hd => new d (by simp [hd])⟩
      rcases (List.mem_orderedInsert _).1 hd with rfl | hd
      · exact (order.connected _ c.1 (new c (by simp)).symm).resolve_left after
      · exact h.1 d hd

def insertAll {β : Type*} (r : ι → ι → Prop) [DecidableRel r] (entries : List (ι × β)) :
    List (ι × β) :=
  entries.foldl (fun l e => l.orderedInsert (fun a b => r a.1 b.1) e) []

omit [DecidableEq ι] in
theorem insertAll_append {β : Type*} (entries : List (ι × β)) (e : ι × β) :
    insertAll r (entries ++ [e]) =
      (insertAll r entries).orderedInsert (fun a b => r a.1 b.1) e := by
  unfold insertAll
  rw [List.foldl_append]
  rfl

omit [DecidableEq ι] in
theorem insertAll_spec {β : Type*} (order : StrictTotal r) {entries : List (ι × β)}
    (nodup : (entries.map Prod.fst).Nodup) :
    InOrder r (insertAll r entries) ∧ (insertAll r entries).Perm entries := by
  induction entries using List.reverseRecOn with
  | nil => exact ⟨List.Pairwise.nil, .refl _⟩
  | append_singleton entries e ih =>
    rw [List.map_append, List.map_singleton, List.nodup_append_comm, List.singleton_append,
      List.nodup_cons] at nodup
    obtain ⟨inOrder, perm⟩ := ih nodup.2
    rw [insertAll_append]
    refine ⟨inOrder_orderedInsert order inOrder fun c hc same => nodup.1 ?_, ?_⟩
    · rw [← same]
      exact List.mem_map_of_mem (perm.mem_iff.1 hc)
    · exact (List.perm_orderedInsert _ _ _).trans
        ((perm.cons _).trans (List.perm_append_singleton _ _).symm)

omit [DecidableEq ι] in
/-- The order in which the entries come does not matter. -/
theorem insertAll_perm {β : Type*} (order : StrictTotal r) {entries entries' : List (ι × β)}
    (nodup : (entries.map Prod.fst).Nodup) (perm : entries'.Perm entries) :
    insertAll r entries' = insertAll r entries := by
  obtain ⟨inOrder, same⟩ := insertAll_spec order nodup
  obtain ⟨inOrder', same'⟩ := insertAll_spec order ((perm.map Prod.fst).nodup_iff.2 nodup)
  refine List.Perm.eq_of_pairwise (fun a b _ _ hab hba => ?_) inOrder' inOrder
    (same'.trans (perm.trans same.symm))
  exact absurd hba (order.asymm _ _ hab)

def setColumns (r : ι → ι → Prop) [DecidableRel r] (column : ι → List ℕ) (xs : List ι) :
    List (ι × Option (List ℕ)) :=
  xs.foldl (fun columns x => setColumn r columns x (some (column x))) []

theorem setColumns_append (column : ι → List ℕ) (xs : List ι) (x : ι) :
    setColumns r column (xs ++ [x]) =
      setColumn r (setColumns r column xs) x (some (column x)) := by
  unfold setColumns
  rw [List.foldl_append]
  rfl

theorem setColumn_of_new (new : ∀ c ∈ columns, c.1 ≠ x) : setColumn r columns x column =
    columns.orderedInsert (fun a b => r a.1 b.1) (x, column) := by
  unfold setColumn
  rw [if_neg]
  intro hx
  obtain ⟨c, hc, e⟩ := List.mem_map.1 hx
  exact new c hc e

omit [DecidableEq ι] in
theorem map_fst_pairs {β : Type*} (f : ι → β) (xs : List ι) :
    (xs.map fun x => (x, f x)).map Prod.fst = xs := by
  rw [List.map_map]
  exact List.map_id xs

theorem setColumns_eq (order : StrictTotal r) {column : ι → List ℕ} {xs : List ι}
    (nodup : xs.Nodup) :
    setColumns r column xs = insertAll r (xs.map fun x => (x, some (column x))) := by
  induction xs using List.reverseRecOn with
  | nil => rfl
  | append_singleton xs x ih =>
    rw [List.nodup_append_comm, List.singleton_append, List.nodup_cons] at nodup
    rw [setColumns_append, ih nodup.2, List.map_append, List.map_singleton, insertAll_append]
    apply setColumn_of_new
    rintro c hc rfl
    obtain ⟨-, perm⟩ := @insertAll_spec _ r _ _ order (xs.map fun x => (x, some (column x)))
      (by rw [map_fst_pairs]; exact nodup.2)
    obtain ⟨y, hy, rfl⟩ := List.mem_map.1 (perm.mem_iff.1 hc)
    exact nodup.1 hy

/-- The order in which the backends get their columns does not matter. -/
theorem setColumns_perm (order : StrictTotal r) {column : ι → List ℕ} {xs ys : List ι}
    (nodup : xs.Nodup) (perm : ys.Perm xs) : setColumns r column ys = setColumns r column xs := by
  rw [setColumns_eq order nodup, setColumns_eq order (perm.nodup_iff.2 nodup)]
  exact insertAll_perm order (by rwa [map_fst_pairs]) (perm.map _)

theorem columns_setColumns (order : StrictTotal r) {column : ι → List ℕ} {xs : List ι} {rows : ℕ}
    (nodup : xs.Nodup) (drawn : ∀ x, (column x).Perm (List.range rows)) :
    Columns rows xs (setColumns r column xs) := by
  have keys := map_fst_pairs (fun x => some (column x)) xs
  obtain ⟨-, perm⟩ := @insertAll_spec _ r _ _ order (xs.map fun x => (x, some (column x)))
    (by rwa [keys])
  rw [setColumns_eq order nodup]
  refine ⟨?_, fun c hc nums hnums => ?_, fun x hx => ?_⟩
  · refine (perm.map Prod.fst).nodup_iff.2 ?_
    rwa [keys]
  · obtain ⟨x, -, rfl⟩ := List.mem_map.1 (perm.mem_iff.1 hc)
    rw [← Option.some.inj hnums]
    exact drawn x
  · exact ⟨column x, perm.mem_iff.2 (List.mem_map.2 ⟨x, hx, rfl⟩)⟩

end Order

/-! ### Reads -/

section Reads

variable {rows j n : ℕ} {quota : ι → ℕ} {a a' : Fill ι} {columns : List (ι × Option (List ℕ))}
  {c : ι × Option (List ℕ)} {final : List (Option ι)} {nums : List ℕ} {steps L : ℕ}

omit [DecidableEq ι] in
/-- The first free slot of a column, up to the last row; the inner none is that all slots are taken,
the outer one a read past the end of the column or of the slots. -/
def search (final : List (Option ι)) : ℕ → List ℕ → Option (Option ℕ)
  | 0, _ => some none
  | _ + 1, [] => none
  | steps + 1, num :: nums =>
    match final[num]? with
    | none => none
    | some none => some (some num)
    | some (some _) => search final steps nums

/-- `Fill.place` with all reads. -/
def Fill.placeChecked (rows j : ℕ) (a : Fill ι) (column : ι × Option (List ℕ)) :
    Option (Fill ι) :=
  if a.count = rows then some a
  else match column.2 with
    | none => some a
    | some nums => (search a.final (rows - j) (nums.drop j)).map fun found =>
      match found with
      | none => a
      | some num =>
        if 0 < a.quota column.1 then
          { final := a.final.set num (some column.1)
            quota := update a.quota column.1 (a.quota column.1 - 1)
            count := a.count + 1 }
        else a

def Fill.rowChecked (rows : ℕ) (columns : List (ι × Option (List ℕ))) (a : Fill ι) (j : ℕ) :
    Option (Fill ι) :=
  columns.foldlM (Fill.placeChecked rows j) a

/-- `consistentArray`, or none when it reads outside. -/
def consistentArrayChecked (rows : ℕ) (columns : List (ι × Option (List ℕ))) (quota : ι → ℕ) :
    Option (List (Option ι)) :=
  ((List.range rows).foldlM (Fill.rowChecked rows columns)
    ⟨List.replicate rows none, quota, 0⟩).map Fill.final

def slotArrayChecked (share : ℕ → ℕ → ℕ → ℕ) (rows : ℕ) (columns : List (ι × Option (List ℕ)))
    (backends : List (ι × ℕ)) : Option (List (Option ι)) :=
  (weightBackend share rows backends).bind (consistentArrayChecked rows columns)

theorem search_eq_find (short : nums.length ≤ steps) {found : Option ℕ}
    (h : search final steps nums = some found) :
    found = nums.find? fun n => final[n]? = some none := by
  induction steps generalizing nums with
  | zero =>
    obtain rfl := List.length_eq_zero_iff.1 (Nat.le_zero.1 short)
    exact (Option.some.inj h).symm
  | succ steps ih =>
    cases nums with
    | nil => cases h
    | cons num nums =>
      unfold search at h
      cases hnum : final[num]? with
      | none =>
        rw [hnum] at h
        cases h
      | some o =>
        rw [hnum] at h
        cases o with
        | none =>
          rw [List.find?_cons_of_pos (by simpa using hnum)]
          exact (Option.some.inj h).symm
        | some y =>
          rw [List.find?_cons_of_neg (by simp [hnum])]
          exact ih (Nat.le_of_succ_le_succ short) h

omit [DecidableEq ι] in
theorem search_isSome (long : steps ≤ nums.length) (inside : ∀ n ∈ nums, n < final.length) :
    (search final steps nums).isSome = true := by
  induction steps generalizing nums with
  | zero => rfl
  | succ steps ih =>
    cases nums with
    | nil => exact absurd long (Nat.not_succ_le_zero steps)
    | cons num nums =>
      have bound : num < final.length := inside num (by simp)
      unfold search
      rw [List.getElem?_eq_getElem bound]
      cases final[num] with
      | none => rfl
      | some y => exact ih (Nat.le_of_succ_le_succ long) fun n hn => inside n (by simp [hn])

omit [DecidableEq ι] in
/-- When all numbers of a column are taken before the last row, then the next read is outside. -/
theorem search_eq_none (short : nums.length < steps)
    (taken : ∀ n ∈ nums, ∃ y, final[n]? = some (some y)) : search final steps nums = none := by
  induction steps generalizing nums with
  | zero => exact absurd short (Nat.not_lt_zero _)
  | succ steps ih =>
    cases nums with
    | nil => rfl
    | cons num nums =>
      obtain ⟨y, hy⟩ := taken num (by simp)
      unfold search
      rw [hy]
      exact ih (Nat.lt_of_succ_lt_succ short) fun n hn => taken n (by simp [hn])

/-- A turn that reads inside does what it does without the reads. -/
theorem place_of_checked (short : ∀ nums, c.2 = some nums → nums.length ≤ rows)
    (h : Fill.placeChecked rows j a c = some a') : Fill.place rows j a c = a' := by
  unfold Fill.placeChecked at h
  unfold Fill.place
  split at h
  next full =>
    rw [if_pos full]
    exact Option.some.inj h
  next room =>
    rw [if_neg room]
    cases hc : c.2 with
    | none =>
      rw [hc] at h
      exact Option.some.inj h
    | some nums =>
      rw [hc] at h
      obtain ⟨found, hfound, e⟩ := Option.map_eq_some_iff.1 h
      have length : (nums.drop j).length ≤ rows - j := by
        rw [List.length_drop]
        exact Nat.sub_le_sub_right (short nums hc) j
      dsimp only
      rw [← search_eq_find length hfound]
      exact e

theorem checked_of_perm (perm : ∀ nums, c.2 = some nums → nums.Perm (List.range rows))
    (length : a.final.length = rows) :
    Fill.placeChecked rows j a c = some (Fill.place rows j a c) := by
  have some_place : (Fill.placeChecked rows j a c).isSome = true := by
    unfold Fill.placeChecked
    split
    · rfl
    · cases hc : c.2 with
      | none => rfl
      | some nums =>
        rw [Option.isSome_map]
        have p := perm nums hc
        apply search_isSome
        · rw [List.length_drop, p.length_eq, List.length_range]
        · intro n hn
          rw [length]
          exact List.mem_range.1 (p.mem_iff.1 (List.mem_of_mem_drop hn))
  obtain ⟨a', ha'⟩ := Option.isSome_iff_exists.1 some_place
  have length : ∀ nums, c.2 = some nums → nums.length ≤ rows := by
    intro nums hc
    rw [(perm nums hc).length_eq, List.length_range]
  rw [ha', place_of_checked length ha']

/-- When every column was drawn for the rows there are, nothing is read outside. -/
theorem consistentArrayChecked_of_perm
    (perm : ∀ c ∈ columns, ∀ nums, c.2 = some nums → nums.Perm (List.range rows)) :
    consistentArrayChecked rows columns quota = some (consistentArray rows columns quota) := by
  have row : ∀ (cs : List (ι × Option (List ℕ))) (a : Fill ι) (j : ℕ), (∀ c ∈ cs, c ∈ columns) →
      a.final.length = rows → cs.foldlM (Fill.placeChecked rows j) a =
        some (cs.foldl (Fill.place rows j) a) ∧
      (cs.foldl (Fill.place rows j) a).final.length = rows := by
    intro cs
    induction cs with
    | nil => exact fun a j _ length => ⟨rfl, length⟩
    | cons c cs ih =>
      intro a j sub length
      have here := @checked_of_perm _ _ rows j a c (perm c (sub c (by simp))) length
      have length' : (Fill.place rows j a c).final.length = rows := by
        rcases @place_cases _ _ rows j a c with e | ⟨num, -, -, e⟩
        · rw [e, length]
        · rw [e, List.length_set, length]
      rw [List.foldlM_cons, here, List.foldl_cons]
      exact ih _ j (fun d hd => sub d (by simp [hd])) length'
  have all : ∀ (js : List ℕ) (a : Fill ι), a.final.length = rows →
      js.foldlM (Fill.rowChecked rows columns) a = some (js.foldl (Fill.row rows columns) a) := by
    intro js
    induction js with
    | nil => exact fun a _ => rfl
    | cons j js ih =>
      intro a length
      obtain ⟨here, length'⟩ := row columns a j (fun _ hc => hc) length
      rw [List.foldlM_cons, List.foldl_cons]
      show (columns.foldlM (Fill.placeChecked rows j) a).bind _ = _
      rw [here]
      exact ih _ length'
  unfold consistentArrayChecked consistentArray
  rw [all _ _ List.length_replicate]
  rfl

theorem slotArrayChecked_of_perm {share : ℕ → ℕ → ℕ → ℕ} (backends : List (ι × ℕ))
    (perm : ∀ c ∈ columns, ∀ nums, c.2 = some nums → nums.Perm (List.range rows)) :
    slotArrayChecked share rows columns backends = slotArray share rows columns backends := by
  unfold slotArrayChecked slotArray
  cases weightBackend share rows backends with
  | none => rfl
  | some q => exact consistentArrayChecked_of_perm perm

end Reads

/-! ### Columns for fewer rows -/

section Short

variable {rows j n m : ℕ} {quota : ι → ℕ} {a a' : Fill ι} {c : ι × Option (List ℕ)}
  {pre post : List (ι × Option (List ℕ))} {z : ι}

def Fill.Free (a : Fill ι) (n : ℕ) : Prop := a.final[n]? = some none

def Fill.Taken (a : Fill ι) (n : ℕ) : Prop := ∃ y, a.final[n]? = some (some y)

/-- A column in the order it was made in, for at least two rows less. -/
def Short (rows : ℕ) (c : ι × Option (List ℕ)) : Prop :=
  ∃ L, c.2 = some (List.range L) ∧ L + 2 ≤ rows

theorem place_found (rows j : ℕ) (a : Fill ι) (c : ι × Option (List ℕ)) :
    Fill.place rows j a c = a ∨ ∃ nums num, c.2 = some nums ∧
      ((nums.drop j).find? fun num => a.final[num]? = some none) = some num ∧
      (Fill.place rows j a c).final = a.final.set num (some c.1) := by
  unfold Fill.place
  split
  · exact Or.inl rfl
  · split
    · exact Or.inl rfl
    next nums hc =>
      split
      · exact Or.inl rfl
      next num hnum =>
        split
        · exact Or.inr ⟨nums, num, hc, hnum, rfl⟩
        · exact Or.inl rfl

theorem Filling.count_ne (h : Filling rows quota a) (free : a.Free n) : a.count ≠ rows := by
  have := h.count
  have pos : 0 < a.final.count none := List.count_pos_iff.2 (List.mem_of_getElem? free)
  omega

theorem find_range_drop {p : ℕ → Bool} {L : ℕ} (h : ((List.range L).drop j).find? p = some n) :
    p n = true ∧ j ≤ n ∧ n < L ∧ ∀ m, j ≤ m → m < n → p m = false := by
  rw [List.range_eq_range', List.drop_range', List.find?_range'_eq_some] at h
  obtain ⟨hp, hn, before⟩ := h
  rw [List.mem_range'_1] at hn
  refine ⟨hp, by omega, by omega, fun m hj hm => ?_⟩
  simpa using before m (by omega) hm

theorem Short.turn (short : Short rows c) (h : Filling rows quota a)
    (turn : Fill.placeChecked rows j a c = some a') : Filling rows quota a' ∧
      (∀ n, rows ≤ n + 2 → a.Free n → a'.Free n) ∧ ∀ n, a.Taken n → a'.Taken n := by
  obtain ⟨L, hc, few⟩ := short
  have length : ∀ nums, c.2 = some nums → nums.length ≤ rows := by
    intro nums hnums
    rw [← Option.some.inj (hc.symm.trans hnums), List.length_range]
    omega
  obtain rfl := place_of_checked length turn
  refine ⟨h.place c, fun n hn free => ?_, fun n ⟨y, hy⟩ => ⟨y, (place_grows a c).1 n y hy⟩⟩
  rcases place_found rows j a c with e | ⟨nums, num, hnums, found, e⟩
  · rwa [e]
  · rw [← Option.some.inj (hc.symm.trans hnums)] at found
    have := (find_range_drop found).2.2.1
    unfold Fill.Free
    rw [e, List.getElem?_set_ne (by omega)]
    exact free

/-- As long as a slot is free, a short column whose numbers are all taken is read past its end. -/
theorem Short.stuck (short : Short rows c) (h : Filling rows quota a) (free : a.Free n)
    (hj : j < rows) (taken : ∀ m, j ≤ m → m + 2 ≤ rows → a.Taken m) :
    Fill.placeChecked rows j a c = none := by
  obtain ⟨L, hc, few⟩ := short
  unfold Fill.placeChecked
  rw [if_neg (h.count_ne free), hc]
  rw [Option.map_eq_none_iff]
  apply search_eq_none
  · rw [List.length_drop, List.length_range]
    omega
  · intro m hm
    rw [List.range_eq_range', List.drop_range', List.mem_range'_1] at hm
    exact taken m (by omega) (by omega)

theorem short_turns {cs : List (ι × Option (List ℕ))} (short : ∀ c ∈ cs, Short rows c)
    (h : Filling rows quota a) (turns : cs.foldlM (Fill.placeChecked rows j) a = some a') :
    Filling rows quota a' ∧ (∀ n, rows ≤ n + 2 → a.Free n → a'.Free n) ∧
      ∀ n, a.Taken n → a'.Taken n := by
  induction cs generalizing a with
  | nil =>
    obtain rfl := Option.some.inj turns
    exact ⟨h, fun _ _ free => free, fun _ taken => taken⟩
  | cons c cs ih =>
    rw [List.foldlM_cons] at turns
    obtain ⟨a₁, turn, turns⟩ := Option.bind_eq_some_iff.1 turns
    obtain ⟨h₁, free₁, taken₁⟩ := (short c (by simp)).turn h turn
    obtain ⟨h', free, taken⟩ := ih (fun d hd => short d (by simp [hd])) h₁ turns
    exact ⟨h', fun n hn f => free n hn (free₁ n hn f), fun n t => taken n (taken₁ n t)⟩

/-- What the whole column leaves: its last two slots free; or it has taken the last but one, all
before it being taken; or it is in the last row, and has left the last but one. -/
theorem last_turn (h : Filling rows quota a) (two : 2 ≤ rows) (hj : j < rows)
    (free₁ : a.Free (rows - 1)) (free₂ : a.Free (rows - 2))
    (turn : Fill.placeChecked rows j a (z, some (List.range rows)) = some a') :
    Filling rows quota a' ∧ ((a'.Free (rows - 1) ∧ a'.Free (rows - 2)) ∨
      (a'.Free (rows - 1) ∧ ∀ m, j ≤ m → m + 2 ≤ rows → a'.Taken m) ∨
      (j + 1 = rows ∧ a'.Free (rows - 2))) := by
  have length : ∀ nums, (z, some (List.range rows)).2 = some nums → nums.length ≤ rows := by
    intro nums hnums
    rw [← Option.some.inj hnums, List.length_range]
  obtain rfl := place_of_checked length turn
  refine ⟨h.place _, ?_⟩
  rcases place_found rows j a (z, some (List.range rows)) with e | ⟨nums, num, hnums, found, e⟩
  · rw [e]
    exact Or.inl ⟨free₁, free₂⟩
  · obtain rfl := Option.some.inj hnums
    obtain ⟨here, hjn, hn, before⟩ := find_range_drop found
    have other : ∀ n, num ≠ n → a.Free n →
        (Fill.place rows j a (z, some (List.range rows))).Free n := by
      intro n ne free
      unfold Fill.Free
      rw [e, List.getElem?_set_ne ne]
      exact free
    by_cases last : num = rows - 1
    · -- the last but one is free, so the search did not pass it
      refine Or.inr (Or.inr ⟨?_, other _ (by omega) free₂⟩)
      by_contra ne
      have := before (rows - 2) (by omega) (by omega)
      rw [decide_eq_false_iff_not] at this
      exact this free₂
    · by_cases next : num = rows - 2
      · refine Or.inr (Or.inl ⟨other _ last free₁, fun m hm hmr => ?_⟩)
        unfold Fill.Taken
        by_cases here' : m = num
        · refine ⟨z, ?_⟩
          rw [e, here']
          exact List.getElem?_set_self (by rw [h.length]; exact hn)
        · have hlen : m < a.final.length := by
            rw [h.length]
            omega
          rw [e, List.getElem?_set_ne (Ne.symm here')]
          have := before m hm (by omega)
          rw [decide_eq_false_iff_not, List.getElem?_eq_getElem hlen, Option.some.injEq] at this
          obtain ⟨y, hy⟩ := Option.ne_none_iff_exists'.1 this
          exact ⟨y, by rw [List.getElem?_eq_getElem hlen, hy]⟩
      · exact Or.inl ⟨other _ last free₁, other _ next free₂⟩

/-- Slots are free: the last two; or the last one, while the first column is stuck; or, after the
last row, the last but one. -/
def Unfilled (rows j : ℕ) (pre : List (ι × Option (List ℕ))) (a : Fill ι) : Prop :=
  (a.Free (rows - 1) ∧ a.Free (rows - 2)) ∨
  (pre ≠ [] ∧ a.Free (rows - 1) ∧ ∀ m, j ≤ m → m + 2 ≤ rows → a.Taken m) ∨
  (j = rows ∧ a.Free (rows - 2))

theorem row_unfilled (two : 2 ≤ rows) (hj : j < rows) (short : ∀ c ∈ pre ++ post, Short rows c)
    (others : pre ++ post ≠ []) (h : Filling rows quota a) (unfilled : Unfilled rows j pre a)
    (row : Fill.rowChecked rows (pre ++ (z, some (List.range rows)) :: post) a j = some a') :
    Filling rows quota a' ∧ Unfilled rows (j + 1) pre a' := by
  unfold Fill.rowChecked at row
  rw [List.foldlM_append] at row
  obtain ⟨a₁, turns, row⟩ := Option.bind_eq_some_iff.1 row
  rw [List.foldlM_cons] at row
  obtain ⟨a₂, turn, turns'⟩ := Option.bind_eq_some_iff.1 row
  have shortPre : ∀ c ∈ pre, Short rows c := fun c hc => short c (by simp [hc])
  have shortPost : ∀ c ∈ post, Short rows c := fun c hc => short c (by simp [hc])
  rcases unfilled with ⟨free₁, free₂⟩ | ⟨first, free, taken⟩ | ⟨last, -⟩
  · obtain ⟨h₁, keeps, -⟩ := short_turns shortPre h turns
    obtain ⟨h₂, cases₂⟩ := last_turn h₁ two hj (keeps _ (by omega) free₁) (keeps _ (by omega) free₂)
      turn
    obtain ⟨h', keeps', takes'⟩ := short_turns shortPost h₂ turns'
    refine ⟨h', ?_⟩
    rcases cases₂ with ⟨f₁, f₂⟩ | ⟨f₁, taken⟩ | ⟨last, f₂⟩
    · exact Or.inl ⟨keeps' _ (by omega) f₁, keeps' _ (by omega) f₂⟩
    · -- a short column behind this one has no free number left
      cases post with
      | nil =>
        refine Or.inr (Or.inl ⟨by simpa using others, keeps' _ (by omega) f₁, fun m hm hmr => ?_⟩)
        exact takes' m (taken m (by omega) hmr)
      | cons c post =>
        rw [List.foldlM_cons, (shortPost c (by simp)).stuck h₂ f₁ hj taken] at turns'
        cases turns'
    · exact Or.inr (Or.inr ⟨last, keeps' _ (by omega) f₂⟩)
  · cases pre with
    | nil => exact absurd rfl first
    | cons c pre =>
      rw [List.foldlM_cons, (shortPre c (by simp)).stuck h free hj taken] at turns
      cases turns
  · omega

/-- With one column for all rows and the others for fewer, some slot stays free or a read goes
past the end of a column. -/
theorem not_full_of_short (two : 2 ≤ rows) (short : ∀ c ∈ pre ++ post, Short rows c)
    (others : pre ++ post ≠ []) {final : List (Option ι)}
    (h : consistentArrayChecked rows (pre ++ (z, some (List.range rows)) :: post) quota =
      some final) : none ∈ final := by
  obtain ⟨a, run, rfl⟩ := Option.map_eq_some_iff.1 h
  have all : ∀ j ≤ rows, ∀ a, (List.range j).foldlM
      (Fill.rowChecked rows (pre ++ (z, some (List.range rows)) :: post))
      ⟨List.replicate rows none, quota, 0⟩ = some a →
      Filling rows quota a ∧ Unfilled rows j pre a := by
    intro j
    induction j with
    | zero =>
      rintro - a e
      obtain rfl := Option.some.inj e
      have free : ∀ n < rows, (List.replicate rows (none : Option ι))[n]? = some none := by
        intro n hn
        rw [List.getElem?_replicate, if_pos hn]
      exact ⟨filling_start rows quota, Or.inl ⟨free _ (by omega), free _ (by omega)⟩⟩
    | succ j ih =>
      intro hj a e
      rw [List.range_succ, List.foldlM_append] at e
      obtain ⟨a₁, before, row⟩ := Option.bind_eq_some_iff.1 e
      obtain ⟨h₁, unfilled⟩ := ih (by omega) a₁ before
      simp only [List.foldlM_cons, List.foldlM_nil, bind_pure] at row
      exact row_unfilled two hj short others h₁ unfilled row
  obtain ⟨-, free | free | free⟩ := all rows le_rfl a run
  · exact List.mem_of_getElem? free.1
  · exact List.mem_of_getElem? free.2.1
  · exact List.mem_of_getElem? free.2

theorem not_full_of_setColumn {r : ι → ι → Prop} [DecidableRel r]
    {columns : List (ι × Option (List ℕ))} (two : 2 ≤ rows)
    (short : ∀ c ∈ columns, Short rows c ∧ c.1 ≠ z) (others : columns ≠ [])
    {final : List (Option ι)}
    (h : consistentArrayChecked rows (setColumn r columns z (some (List.range rows))) quota =
      some final) : none ∈ final := by
  rw [setColumn_of_new fun c hc => (short c hc).2, List.orderedInsert_eq_take_drop] at h
  refine not_full_of_short two (fun c hc => ?_) ?_ h
  · rw [List.takeWhile_append_dropWhile] at hc
    exact (short c hc).1
  · rwa [List.takeWhile_append_dropWhile]

end Short

end Polycube.Lib
