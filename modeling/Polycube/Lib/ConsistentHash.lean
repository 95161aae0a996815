import Mathlib

/-!
# Slots of weighted backends

A table of `rows` slots is filled with backends.  Each backend gets a number of slots by its weight
(`weightBackend`), and has a column, a permutation of the slots.  Row by row, every backend that has
slots left to get takes the first free slot of its column from there on (`consistentArray`).  In the
end no slot is free, and the backends in the slots are those whose weight is not 0.
-/

namespace Polycube.Lib

open Function

variable {ι : Type*} [DecidableEq ι]

/-! ### Numbers of slots -/

section Weights

variable (share : ℕ → ℕ → ℕ → ℕ) (rows sum : ℕ)

def slotsOf (weight : ℕ) : ℕ := if share rows sum weight = 0 then 1 else share rows sum weight

def startPool : List (ι × ℕ) → (ι → ℕ) → (ι → ℕ)
  | [], pool => pool
  | b :: bs, pool =>
    if b.2 = 0 then startPool bs pool
    else startPool bs (update pool b.1 (slotsOf share rows sum b.2))

def totalWeight : List (ι × ℕ) → ℕ
  | [] => 0
  | b :: bs => if b.2 = 0 then totalWeight bs else slotsOf share rows sum b.2 + totalWeight bs

def alignPass : List (ι × ℕ) → (ι → ℕ) → ℕ → (ι → ℕ) × ℕ
  | [], pool, res => (pool, res)
  | b :: bs, pool, res =>
    if b.2 = 0 then alignPass bs pool res
    else if res - 1 = 0 then (update pool b.1 (pool b.1 + 1), 0)
    else alignPass bs (update pool b.1 (pool b.1 + 1)) (res - 1)

def align (backends : List (ι × ℕ)) : ℕ → (ι → ℕ) → ℕ → Option (ι → ℕ)
  | fuel, pool, res =>
    if res = 0 then some pool
    else match fuel with
      | 0 => none
      | fuel + 1 => align backends fuel (alignPass backends pool res).1 (alignPass backends pool res).2

/-- The number of slots of each backend, or `none` when the loop does not end. -/
def weightBackend (backends : List (ι × ℕ)) : Option (ι → ℕ) :=
  let sum := (backends.map Prod.snd).sum
  let res := rows - totalWeight share rows sum backends
  align backends res (startPool share rows sum backends fun _ => 0) res

variable {share rows sum} {backends bs : List (ι × ℕ)} {pool : ι → ℕ} {res : ℕ} {x : ι}

theorem slotsOf_pos (weight : ℕ) : 0 < slotsOf share rows sum weight := by
  unfold slotsOf
  split <;> omega

def weighted (backends : List (ι × ℕ)) : List ι := (backends.filter (·.2 ≠ 0)).map Prod.fst

omit [DecidableEq ι] in
theorem mem_weighted : x ∈ weighted backends ↔ ∃ w, (x, w) ∈ backends ∧ w ≠ 0 := by
  simp [weighted]

omit [DecidableEq ι] in
theorem weighted_cons_zero {b : ι × ℕ} (h : b.2 = 0) : weighted (b :: bs) = weighted bs := by
  simp [weighted, h]

omit [DecidableEq ι] in
theorem weighted_cons {b : ι × ℕ} (h : b.2 ≠ 0) : weighted (b :: bs) = b.1 :: weighted bs := by
  simp [weighted, h]

omit [DecidableEq ι] in
theorem nodup_weighted (h : (backends.map Prod.fst).Nodup) : (weighted backends).Nodup :=
  h.sublist (List.filter_sublist.map _)

theorem startPool_of_notMem (h : x ∉ weighted bs) : startPool share rows sum bs pool x = pool x := by
  induction bs generalizing pool with
  | nil => rfl
  | cons b bs ih =>
    by_cases hb : b.2 = 0
    · rw [startPool, if_pos hb]
      exact ih (by rwa [weighted_cons_zero hb] at h)
    · rw [weighted_cons hb, List.mem_cons, not_or] at h
      rw [startPool, if_neg hb, ih h.2, update_of_ne h.1]

theorem startPool_pos (h : x ∈ weighted bs) : 0 < startPool share rows sum bs pool x := by
  induction bs generalizing pool with
  | nil => simp [weighted] at h
  | cons b bs ih =>
    by_cases hb : b.2 = 0
    · rw [startPool, if_pos hb]
      exact ih (by rwa [weighted_cons_zero hb] at h)
    · rw [startPool, if_neg hb]
      by_cases later : x ∈ weighted bs
      · exact ih later
      · rw [weighted_cons hb, List.mem_cons] at h
        rw [startPool_of_notMem later, h.resolve_right later, update_self]
        exact slotsOf_pos _

theorem sum_startPool (h : (weighted bs).Nodup) :
    ((weighted bs).map (startPool share rows sum bs pool)).sum = totalWeight share rows sum bs := by
  induction bs generalizing pool with
  | nil => rfl
  | cons b bs ih =>
    by_cases hb : b.2 = 0
    · rw [weighted_cons_zero hb] at h ⊢
      rw [startPool, totalWeight, if_pos hb, if_pos hb, ih h]
    · rw [weighted_cons hb, List.nodup_cons] at h
      rw [weighted_cons hb, startPool, totalWeight, if_neg hb, if_neg hb, List.map_cons,
        List.sum_cons, ih h.2, startPool_of_notMem h.1, update_self]

theorem sum_update_add_one {xs : List ι} (nodup : xs.Nodup) (hx : x ∈ xs) :
    (xs.map (update pool x (pool x + 1))).sum = (xs.map pool).sum + 1 := by
  induction xs with
  | nil => cases hx
  | cons y ys ih =>
    rw [List.nodup_cons] at nodup
    rw [List.map_cons, List.sum_cons, List.map_cons, List.sum_cons]
    by_cases hy : x = y
    · have rest : ys.map (update pool x (pool x + 1)) = ys.map pool := by
        apply List.map_congr_left
        intro z hz
        rw [update_of_ne]
        rintro rfl
        exact nodup.1 (hy ▸ hz)
      rw [rest, ← hy, update_self]
      omega
    · rw [ih nodup.2 ((List.mem_cons.1 hx).resolve_left hy), update_of_ne (Ne.symm hy)]
      omega

/-- What the one at a place gets when `res` slots go round `k` backends. -/
def extra (k res i : ℕ) : ℕ := res / k + if i < res % k then 1 else 0

def leftover (share : ℕ → ℕ → ℕ → ℕ) (rows : ℕ) (backends : List (ι × ℕ)) : ℕ :=
  rows - totalWeight share rows (backends.map Prod.snd).sum backends

theorem extra_zero (k i : ℕ) : extra k 0 i = 0 := by simp [extra]

theorem extra_sub {k i : ℕ} (hi : i < k) :
    (if i < res then 1 else 0) + extra k (res - k) i = extra k res i := by
  unfold extra
  rcases Nat.lt_or_ge res k with small | large
  · rw [Nat.sub_eq_zero_of_le small.le, Nat.zero_div, Nat.zero_mod, Nat.div_eq_of_lt small,
      Nat.mod_eq_of_lt small]
    simp
  · rw [if_pos (hi.trans_le large), Nat.div_eq_sub_div (by omega) large,
      Nat.mod_eq_sub_mod large]
    omega

theorem alignPass_eq (nodup : (weighted bs).Nodup) (pos : 0 < res) :
    (alignPass bs pool res).2 = res - (weighted bs).length ∧
      ∀ y, (alignPass bs pool res).1 y =
        pool y + if y ∈ weighted bs ∧ (weighted bs).idxOf y < res then 1 else 0 := by
  induction bs generalizing pool res with
  | nil => exact ⟨rfl, fun _ => rfl⟩
  | cons b bs ih =>
    by_cases hb : b.2 = 0
    · rw [alignPass, if_pos hb, weighted_cons_zero hb]
      exact ih (by rwa [weighted_cons_zero hb] at nodup) pos
    · rw [weighted_cons hb, List.nodup_cons] at nodup
      rw [alignPass, if_neg hb, weighted_cons hb]
      -- the first of the list gets one
      have self : (if b.1 ∈ b.1 :: weighted bs ∧ (b.1 :: weighted bs).idxOf b.1 < res
          then 1 else 0) = 1 := if_pos ⟨List.mem_cons_self, by rwa [List.idxOf_cons_self]⟩
      have other : ∀ y, y ≠ b.1 →
          (y ∈ b.1 :: weighted bs ∧ (b.1 :: weighted bs).idxOf y < res ↔
            y ∈ weighted bs ∧ (weighted bs).idxOf y < res - 1) := by
        intro y hy
        rw [List.mem_cons, or_iff_right hy, List.idxOf_cons_ne _ (Ne.symm hy)]
        exact and_congr_right fun _ => by omega
      by_cases last : res - 1 = 0
      · rw [if_pos last]
        refine ⟨?_, fun y => ?_⟩
        · rw [List.length_cons]
          omega
        · by_cases hy : y = b.1
          · rw [hy, self]
            exact update_self ..
          · simp only [other y hy, last, Nat.not_lt_zero, and_false, if_false, add_zero]
            exact update_of_ne hy ..
      · rw [if_neg last]
        obtain ⟨left, gets⟩ := @ih (update pool b.1 (pool b.1 + 1)) (res - 1) nodup.2
          (by omega)
        refine ⟨?_, fun y => ?_⟩
        · rw [left, List.length_cons]
          omega
        · rw [gets]
          by_cases hy : y = b.1
          · rw [hy, self, if_neg fun h => nodup.1 h.1, update_self]
          · simp only [other y hy]
            rw [update_of_ne hy]

theorem align_eq (nodup : (weighted backends).Nodup) (any : weighted backends ≠ []) {fuel : ℕ}
    (enough : res ≤ fuel) : align backends fuel pool res = some fun y =>
      pool y + if y ∈ weighted backends then
        extra (weighted backends).length res ((weighted backends).idxOf y) else 0 := by
  induction fuel generalizing pool res with
  | zero =>
    obtain rfl : res = 0 := by omega
    rw [align, if_pos rfl]
    simp only [extra_zero, ite_self, add_zero]
  | succ fuel ih =>
    by_cases done : res = 0
    · subst done
      rw [align, if_pos rfl]
      simp only [extra_zero, ite_self, add_zero]
    · obtain ⟨left, gets⟩ := @alignPass_eq _ _ backends pool res nodup (Nat.pos_of_ne_zero done)
      have some_backend := List.length_pos_of_ne_nil any
      rw [align, if_neg done, ih (by omega), Option.some.injEq]
      funext y
      rw [gets, left, Nat.add_assoc]
      congr 1
      by_cases hy : y ∈ weighted backends
      · simp only [hy, true_and, if_true]
        exact extra_sub (List.idxOf_lt_length_iff.2 hy)
      · simp only [hy, false_and, if_false]

/-- The numbers of slots: the shares, and what is left over goes round. -/
theorem weightBackend_eq (nodup : (backends.map Prod.fst).Nodup) (any : weighted backends ≠ []) :
    weightBackend share rows backends = some fun y =>
      startPool share rows (backends.map Prod.snd).sum backends (fun _ => 0) y +
        if y ∈ weighted backends then extra (weighted backends).length
          (leftover share rows backends) ((weighted backends).idxOf y) else 0 :=
  align_eq (nodup_weighted nodup) any le_rfl

theorem sum_range_lt (k m : ℕ) :
    ((List.range k).map fun i => if i < m then 1 else 0).sum = min m k := by
  induction k with
  | zero => simp
  | succ k ih =>
    rw [List.range_succ, List.map_append, List.sum_append, ih]
    simp only [List.map_cons, List.map_nil, List.sum_cons, List.sum_nil]
    split_ifs <;> omega

theorem sum_extra {xs : List ι} (nodup : xs.Nodup) (any : xs ≠ []) (res : ℕ) :
    (xs.map fun y => extra xs.length res (xs.idxOf y)).sum = res := by
  have places : (xs.map fun y => extra xs.length res (xs.idxOf y)) =
      (List.range xs.length).map fun i => extra xs.length res i := by
    refine List.ext_getElem (by simp) fun i hi hi' => ?_
    simp [nodup.idxOf_getElem]
  have pos := List.length_pos_of_ne_nil any
  rw [places]
  simp only [extra, List.sum_map_add, sum_range_lt, List.map_const', List.sum_replicate,
    List.length_range, smul_eq_mul]
  rw [Nat.min_eq_left (Nat.mod_lt _ pos).le, Nat.div_add_mod]

omit [DecidableEq ι] in
theorem rows_le_total : rows ≤ totalWeight share rows (backends.map Prod.snd).sum backends +
    leftover share rows backends := by
  unfold leftover
  omega

/-- When a backend has a weight, the loop ends.  Those that have one get slots: their shares, and
what is left over. -/
theorem weightBackend_spec (nodup : (backends.map Prod.fst).Nodup) (any : weighted backends ≠ []) :
    ∃ q, weightBackend share rows backends = some q ∧ (∀ y, 0 < q y ↔ y ∈ weighted backends) ∧
      ((weighted backends).map q).sum = totalWeight share rows (backends.map Prod.snd).sum backends +
        leftover share rows backends := by
  refine ⟨_, weightBackend_eq nodup any, fun y => ⟨fun h => ?_, fun h => ?_⟩, ?_⟩
  · by_contra hy
    rw [if_neg hy, startPool_of_notMem hy] at h
    exact absurd h (lt_irrefl 0)
  · exact (startPool_pos h).trans_le (Nat.le_add_right _ _)
  · rw [List.sum_map_add, sum_startPool (nodup_weighted nodup)]
    congr 1
    refine Eq.trans ?_ (sum_extra (nodup_weighted nodup) any (leftover share rows backends))
    exact congrArg List.sum (List.map_congr_left fun y hy => if_pos hy)

end Weights

/-! ### Slots -/

/-- The slots so far, the slots that each backend has left to get, and how many are taken. -/
structure Fill (ι : Type*) where
  final : List (Option ι)
  quota : ι → ℕ
  count : ℕ

def Fill.place (rows j : ℕ) (a : Fill ι) (column : ι × Option (List ℕ)) : Fill ι :=
  if a.count = rows then a
  else match column.2 with
    | none => a
    | some nums =>
      match (nums.drop j).find? fun num => a.final[num]? = some none with
      | none => a
      | some num =>
        if 0 < a.quota column.1 then
          { final := a.final.set num (some column.1)
            quota := update a.quota column.1 (a.quota column.1 - 1)
            count := a.count + 1 }
        else a

def Fill.row (rows : ℕ) (columns : List (ι × Option (List ℕ))) (a : Fill ι) (j : ℕ) : Fill ι :=
  columns.foldl (Fill.place rows j) a

def consistentArray (rows : ℕ) (columns : List (ι × Option (List ℕ))) (quota : ι → ℕ) :
    List (Option ι) :=
  ((List.range rows).foldl (Fill.row rows columns) ⟨List.replicate rows none, quota, 0⟩).final

section Slots

variable {rows j : ℕ} {quota : ι → ℕ} {a a' : Fill ι} {columns : List (ι × Option (List ℕ))} {x : ι}
  {nums : List ℕ}

/-- What every turn keeps: the slots of a backend and those that it has left to get are its number
of slots. -/
structure Filling (rows : ℕ) (quota : ι → ℕ) (a : Fill ι) : Prop where
  length : a.final.length = rows
  count : a.count + a.final.count none = rows
  quota : ∀ x, a.quota x + a.final.count (some x) = quota x

def Grows (a a' : Fill ι) : Prop :=
  (∀ (n : ℕ) (y : ι), a.final[n]? = some (some y) → a'.final[n]? = some (some y)) ∧
    ∀ x, a'.quota x ≤ a.quota x

omit [DecidableEq ι] in
theorem Grows.refl (a : Fill ι) : Grows a a := ⟨fun _ _ h => h, fun _ => le_rfl⟩

omit [DecidableEq ι] in
theorem Grows.trans {a'' : Fill ι} (h : Grows a a') (h' : Grows a' a'') : Grows a a'' :=
  ⟨fun n y hn => h'.1 n y (h.1 n y hn), fun x => (h'.2 x).trans (h.2 x)⟩

/-- A turn does nothing, or it takes a free slot. -/
theorem place_cases (a : Fill ι) (column : ι × Option (List ℕ)) :
    Fill.place rows j a column = a ∨ ∃ num, a.final[num]? = some none ∧ 0 < a.quota column.1 ∧
      Fill.place rows j a column =
        { final := a.final.set num (some column.1)
          quota := update a.quota column.1 (a.quota column.1 - 1)
          count := a.count + 1 } := by
  unfold Fill.place
  split
  · exact Or.inl rfl
  · split
    · exact Or.inl rfl
    · split
      · exact Or.inl rfl
      · next num hnum =>
        split
        · next hq =>
          have free := List.find?_some hnum
          exact Or.inr ⟨num, by simpa using free, hq, rfl⟩
        · exact Or.inl rfl

theorem Filling.place (h : Filling rows quota a) (column : ι × Option (List ℕ)) :
    Filling rows quota (Fill.place rows j a column) := by
  rcases @place_cases _ _ rows j a column with e | ⟨num, free, left, e⟩
  · rw [e]
    exact h
  · rw [e]
    obtain ⟨hlen, hnum⟩ := List.getElem?_eq_some_iff.1 free
    refine ⟨?_, ?_, fun x => ?_⟩
    · rw [List.length_set, h.length]
    · have := h.count
      rw [List.count_set hlen, hnum]
      have pos : 0 < a.final.count none := List.count_pos_iff.2 (List.mem_of_getElem? free)
      simp
      omega
    · have := h.quota x
      dsimp only
      rw [List.count_set hlen, hnum]
      by_cases hx : x = column.1
      · rw [hx] at this ⊢
        simp
        omega
      · rw [update_of_ne hx]
        simp [Ne.symm hx, this]

theorem place_grows (a : Fill ι) (column : ι × Option (List ℕ)) :
    Grows a (Fill.place rows j a column) := by
  rcases @place_cases _ _ rows j a column with e | ⟨num, free, left, e⟩
  · rw [e]
    exact Grows.refl a
  · rw [e]
    refine ⟨fun n y hn => ?_, fun x => ?_⟩
    · dsimp only
      rw [List.getElem?_set_ne, hn]
      rintro rfl
      rw [free] at hn
      cases hn
    · dsimp only
      by_cases hx : x = column.1
      · rw [hx, update_self]
        omega
      · rw [update_of_ne hx]

theorem row_keeps (h : Filling rows quota a) :
    Filling rows quota (Fill.row rows columns a j) ∧ Grows a (Fill.row rows columns a j) := by
  unfold Fill.row
  induction columns generalizing a with
  | nil => exact ⟨h, Grows.refl a⟩
  | cons c cs ih =>
    obtain ⟨h1, h2⟩ := ih (@Filling.place _ _ _ j _ _ h c)
    exact ⟨h1, (place_grows a c).trans h2⟩

theorem Filling.taken_of_full (h : Filling rows quota a) (full : a.count = rows) {n : ℕ}
    (hn : n < rows) : ∃ y, a.final[n]? = some (some y) := by
  have none_ : a.final.count none = 0 := by
    have := h.count
    omega
  have hn' : n < a.final.length := by
    rw [h.length]
    exact hn
  rw [List.getElem?_eq_getElem hn']
  cases hy : a.final[n] with
  | none =>
    have := List.count_eq_zero.1 none_
    exact absurd (hy ▸ List.getElem_mem hn') this
  | some y => exact ⟨y, rfl⟩

/-- After its turn in a row, a backend that still has slots left to get has the slot of this row of
its column taken, by itself or before. -/
theorem place_taken (h : Filling rows quota a) {c : ι × Option (List ℕ)} (hc : c.2 = some nums)
    (hj : j < nums.length) (inside : ∀ n ∈ nums, n < rows)
    (left : 0 < (Fill.place rows j a c).quota c.1) :
    ∃ y, (Fill.place rows j a c).final[nums[j]]? = some (some y) := by
  have hin : nums[j] < rows := inside _ (List.getElem_mem hj)
  have hlen : nums[j] < a.final.length := by
    rw [h.length]
    exact hin
  by_cases full : a.count = rows
  · obtain ⟨y, hy⟩ := h.taken_of_full full hin
    exact ⟨y, (place_grows a c).1 _ _ hy⟩
  · cases hnum : a.final[nums[j]] with
    | some y =>
      have hy : a.final[nums[j]]? = some (some y) := by
        rw [List.getElem?_eq_getElem hlen, hnum]
      exact ⟨y, (place_grows a c).1 _ _ hy⟩
    | none =>
      have free : a.final[nums[j]]? = some none := by
        rw [List.getElem?_eq_getElem hlen, hnum]
      have first : (nums.drop j).find? (fun num => a.final[num]? = some none) = some nums[j] := by
        rw [List.drop_eq_getElem_cons hj, List.find?_cons_of_pos]
        exact decide_eq_true free
      have quota_pos : 0 < a.quota c.1 := left.trans_le ((place_grows a c).2 _)
      refine ⟨c.1, ?_⟩
      unfold Fill.place
      rw [if_neg full, hc]
      dsimp only
      rw [first]
      dsimp only
      rw [if_pos quota_pos]
      exact List.getElem?_set_self hlen

theorem row_taken (h : Filling rows quota a) {c : ι × Option (List ℕ)} (hmem : c ∈ columns)
    (hc : c.2 = some nums) (hj : j < nums.length) (inside : ∀ n ∈ nums, n < rows)
    (left : 0 < (Fill.row rows columns a j).quota c.1) :
    ∃ y, (Fill.row rows columns a j).final[nums[j]]? = some (some y) := by
  induction columns generalizing a with
  | nil => cases hmem
  | cons c' cs ih =>
    have h' : Filling rows quota (Fill.place rows j a c') := h.place c'
    rw [Fill.row, List.foldl_cons] at left ⊢
    rcases List.mem_cons.1 hmem with rfl | later
    · have rest := (@row_keeps _ _ _ j _ _ cs h').2
      obtain ⟨y, hy⟩ := place_taken h hc hj inside (left.trans_le (rest.2 _))
      exact ⟨y, rest.1 _ _ hy⟩
    · exact ih h' later left

theorem row_zero_gets (h : Filling rows quota a) (nodup : (columns.map Prod.fst).Nodup)
    (new : ∀ c ∈ columns, a.quota c.1 = quota c.1)
    (room : a.count + (columns.filter fun c => 0 < quota c.1).length ≤ rows)
    {c : ι × Option (List ℕ)} (hmem : c ∈ columns) (hc : c.2 = some nums)
    (all : ∀ n < rows, n ∈ nums) (pos : 0 < quota c.1) :
    (Fill.row rows columns a 0).quota c.1 < quota c.1 := by
  induction columns generalizing a with
  | nil => cases hmem
  | cons c' cs ih =>
    have h' : Filling rows quota (Fill.place rows 0 a c') := h.place c'
    rw [List.map_cons, List.nodup_cons] at nodup
    rw [Fill.row, List.foldl_cons]
    rcases List.mem_cons.1 hmem with rfl | later
    · -- its own turn: a slot is free, and is in the column
      have rest := (@row_keeps _ _ _ 0 _ _ cs h').2
      apply (rest.2 _).trans_lt
      have less : a.count < rows := by
        rw [List.filter_cons_of_pos (by simpa using pos), List.length_cons] at room
        omega
      have free : none ∈ a.final := by
        have := h.count
        exact List.count_pos_iff.1 (by omega)
      obtain ⟨n, hn, hnone⟩ := List.getElem_of_mem free
      have found : ((nums.drop 0).find? fun num => a.final[num]? = some none).isSome := by
        rw [List.find?_isSome]
        refine ⟨n, all n (by rwa [h.length] at hn), ?_⟩
        rw [decide_eq_true_eq, List.getElem?_eq_getElem hn, hnone]
      obtain ⟨num, hnum⟩ := Option.isSome_iff_exists.1 found
      have quota_pos : 0 < a.quota c.1 := by
        rw [new c List.mem_cons_self]
        exact pos
      unfold Fill.place
      rw [if_neg less.ne, hc]
      dsimp only
      rw [hnum]
      dsimp only
      rw [if_pos quota_pos]
      dsimp only
      rw [update_self, new c List.mem_cons_self]
      omega
    · have other : ∀ e ∈ cs, e.1 ≠ c'.1 := by
        intro e he same
        exact nodup.1 (List.mem_map.2 ⟨e, he, same⟩)
      apply ih h' nodup.2 ?_ ?_ later
      · intro e he
        rw [← new e (List.mem_cons_of_mem _ he)]
        rcases @place_cases _ _ rows 0 a c' with same | ⟨num, _, _, same⟩
        · rw [same]
        · rw [same]
          exact update_of_ne (other e he) _ _
      · rcases @place_cases _ _ rows 0 a c' with same | ⟨num, _, left, same⟩
        · rw [same]
          rw [List.filter_cons] at room
          split at room
          · rw [List.length_cons] at room
            omega
          · exact room
        · rw [new c' List.mem_cons_self] at left
          rw [List.filter_cons_of_pos (by simpa using left), List.length_cons] at room
          rw [same]
          dsimp only
          omega

theorem rows_keep (perm : ∀ c ∈ columns, ∀ nums, c.2 = some nums → nums.Perm (List.range rows))
    (h : Filling rows quota a) (hj : j ≤ rows) :
    Filling rows quota ((List.range j).foldl (Fill.row rows columns) a) ∧
    Grows a ((List.range j).foldl (Fill.row rows columns) a) ∧
    ∀ c ∈ columns, ∀ nums, c.2 = some nums →
      0 < ((List.range j).foldl (Fill.row rows columns) a).quota c.1 → ∀ n ∈ nums.take j,
        ∃ y, ((List.range j).foldl (Fill.row rows columns) a).final[n]? = some (some y) := by
  induction j with
  | zero =>
    refine ⟨h, Grows.refl a, fun c _ nums _ _ n hn => ?_⟩
    rw [List.take_zero] at hn
    cases hn
  | succ j ih =>
    obtain ⟨h1, h2, h3⟩ := ih (by omega)
    obtain ⟨k1, k2⟩ := @row_keeps _ _ _ j _ _ columns h1
    rw [List.range_succ, List.foldl_append, List.foldl_cons, List.foldl_nil]
    refine ⟨k1, h2.trans k2, fun c hmem nums hc left n hn => ?_⟩
    have p := perm c hmem nums hc
    have len : j < nums.length := by
      rw [p.length_eq, List.length_range]
      omega
    rw [List.take_add_one, List.mem_append, List.getElem?_eq_getElem len, Option.toList_some,
      List.mem_singleton] at hn
    rcases hn with before | rfl
    · obtain ⟨y, hy⟩ := h3 c hmem nums hc (left.trans_le (k2.2 _)) n before
      exact ⟨y, k2.1 _ _ hy⟩
    · exact row_taken h1 hmem hc len (fun m hm => List.mem_range.1 (p.mem_iff.1 hm)) left

/-- Different backends have different slots, and none of them is free. -/
theorem sum_count_add_le {xs : List ι} (nodup : xs.Nodup) (l : List (Option ι)) :
    (xs.map fun x => l.count (some x)).sum + l.count none ≤ l.length := by
  induction l with
  | nil => simp
  | cons o l ih =>
    cases o with
    | none =>
      have same : (xs.map fun x => (none :: l).count (some x)) =
          xs.map fun x => l.count (some x) := by
        apply List.map_congr_left
        intro x _
        exact List.count_cons_of_ne (Option.some_ne_none x).symm
      rw [same, List.count_cons_self, List.length_cons]
      omega
    | some y =>
      have one : (xs.map fun x => (some y :: l).count (some x)).sum ≤
          (xs.map fun x => l.count (some x)).sum + 1 := by
        by_cases hy : y ∈ xs
        · have upd : (fun x => (some y :: l).count (some x)) =
              update (fun x => l.count (some x)) y (l.count (some y) + 1) := by
            funext x
            by_cases hx : x = y
            · rw [hx, update_self, List.count_cons_self]
            · rw [update_of_ne hx, List.count_cons_of_ne]
              simpa using Ne.symm hx
          rw [upd]
          exact (@sum_update_add_one _ _ (fun x => l.count (some x)) y xs nodup hy).le
        · have same : (xs.map fun x => (some y :: l).count (some x)) =
              xs.map fun x => l.count (some x) := by
            apply List.map_congr_left
            intro x hx
            rw [List.count_cons_of_ne]
            intro e
            exact hy (Option.some.inj e ▸ hx)
          rw [same]
          exact Nat.le_add_right _ 1
      rw [List.length_cons, List.count_cons_of_ne (Option.some_ne_none y)]
      omega

theorem filling_start (rows : ℕ) (quota : ι → ℕ) :
    Filling rows quota ⟨List.replicate rows none, quota, 0⟩ where
  length := List.length_replicate
  count := by rw [List.count_replicate_self, Nat.zero_add]
  quota x := by
    rw [List.count_replicate]
    simp

theorem rows_grow (h : Filling rows quota a) (js : List ℕ) :
    Grows a (js.foldl (Fill.row rows columns) a) := by
  induction js generalizing a with
  | nil => exact Grows.refl a
  | cons j js ih =>
    obtain ⟨h1, h2⟩ := @row_keeps _ _ _ j _ _ columns h
    exact h2.trans (ih h1)

omit [DecidableEq ι] in
theorem exists_map_some {l : List (Option ι)} (h : none ∉ l) : ∃ l' : List ι, l = l'.map some := by
  refine ⟨l.filterMap id, ?_⟩
  induction l with
  | nil => rfl
  | cons o l ih =>
    rw [List.mem_cons, not_or] at h
    cases o with
    | none => exact absurd rfl h.1
    | some x =>
      exact congrArg (some x :: ·) (ih h.2)

/-- No slot is free: a backend with slots left to get has seen all of them taken, and if none has
any left, then as many are taken as there are. -/
theorem consistentArray_full
    (perm : ∀ c ∈ columns, ∀ nums, c.2 = some nums → nums.Perm (List.range rows)) {xs : List ι}
    (hxs : xs.Nodup) (column : ∀ x ∈ xs, ∃ nums, (x, some nums) ∈ columns)
    (total : rows ≤ (xs.map quota).sum) : none ∉ consistentArray rows columns quota := by
  obtain ⟨h, _, taken⟩ := @rows_keep _ _ rows rows _ _ columns perm (filling_start rows quota)
    le_rfl
  unfold consistentArray
  generalize (List.range rows).foldl (Fill.row rows columns)
    ⟨List.replicate rows none, quota, 0⟩ = a at h taken ⊢
  intro free
  by_cases left : ∃ x ∈ xs, 0 < a.quota x
  · obtain ⟨x, hx, hleft⟩ := left
    obtain ⟨nums, hnums⟩ := column x hx
    have p := perm _ hnums nums rfl
    obtain ⟨n, hn, hnone⟩ := List.getElem_of_mem free
    have mem : n ∈ nums.take rows := by
      rw [List.take_of_length_le (by rw [p.length_eq, List.length_range]), p.mem_iff,
        List.mem_range, ← h.length]
      exact hn
    obtain ⟨y, hy⟩ := taken _ hnums nums rfl hleft n mem
    rw [List.getElem?_eq_getElem hn, hnone] at hy
    cases hy
  · have counts : xs.map quota = xs.map fun x => a.final.count (some x) := by
      apply List.map_congr_left
      intro x hx
      have := h.quota x
      have : ¬ 0 < a.quota x := fun pos => left ⟨x, hx, pos⟩
      omega
    have le := sum_count_add_le hxs a.final
    rw [← counts, h.length] at le
    have := List.count_pos_iff.2 free
    omega

/-- A backend is in a slot exactly if it has a number of slots. -/
theorem mem_consistentArray (nodup : (columns.map Prod.fst).Nodup)
    (perm : ∀ c ∈ columns, ∀ nums, c.2 = some nums → nums.Perm (List.range rows)) {xs : List ι}
    (column : ∀ x ∈ xs, ∃ nums, (x, some nums) ∈ columns) (pos : ∀ x, 0 < quota x ↔ x ∈ xs)
    (few : xs.length ≤ rows) : some x ∈ consistentArray rows columns quota ↔ x ∈ xs := by
  have start := filling_start rows quota
  obtain ⟨h, _, _⟩ := @rows_keep _ _ rows rows _ _ columns perm start le_rfl
  have count := h.quota x
  have mem : some x ∈ consistentArray rows columns quota ↔
      ((List.range rows).foldl (Fill.row rows columns)
        ⟨List.replicate rows none, quota, 0⟩).quota x < quota x := by
    rw [consistentArray, ← List.count_pos_iff]
    omega
  rw [mem, ← pos x]
  refine ⟨fun less => by omega, fun hq => ?_⟩
  -- it has got one in the first row
  have hx := (pos x).1 hq
  obtain ⟨nums, hnums⟩ := column x hx
  have p := perm _ hnums nums rfl
  have room : (columns.filter fun c => 0 < quota c.1).length ≤ rows := by
    have sub : ((columns.filter fun c => 0 < quota c.1).map Prod.fst).Subperm xs := by
      apply List.subperm_of_subset
      · exact nodup.sublist (List.filter_sublist.map _)
      · intro y hy
        simp only [List.mem_map, List.mem_filter, decide_eq_true_eq] at hy
        obtain ⟨c, hc, e⟩ := hy
        exact (pos y).1 (e ▸ hc.2)
    have := sub.length_le
    rw [List.length_map] at this
    exact this.trans few
  have rows_pos : 0 < rows := by
    have := List.length_pos_of_mem hx
    omega
  have first := @row_zero_gets _ _ _ quota _ columns nums start nodup (fun _ _ => rfl)
    (by rwa [Nat.zero_add]) _ hnums rfl (fun n hn => p.mem_iff.2 (List.mem_range.2 hn)) hq
  obtain ⟨k, hk⟩ : ∃ k, rows = 1 + k := ⟨rows - 1, by omega⟩
  have split : List.range rows = 0 :: (List.range k).map (1 + ·) := by
    rw [hk, List.range_add]
    rfl
  rw [split, List.foldl_cons]
  exact ((rows_grow (row_keeps start).1 _).2 x).trans_lt first

/-- All slots are taken, and the backends in them are those with a number of slots. -/
theorem consistentArray_spec (nodup : (columns.map Prod.fst).Nodup)
    (perm : ∀ c ∈ columns, ∀ nums, c.2 = some nums → nums.Perm (List.range rows)) {xs : List ι}
    (hxs : xs.Nodup) (column : ∀ x ∈ xs, ∃ nums, (x, some nums) ∈ columns)
    (pos : ∀ x, 0 < quota x ↔ x ∈ xs) (few : xs.length ≤ rows) (total : rows ≤ (xs.map quota).sum) :
    ∃ l : List ι, consistentArray rows columns quota = l.map some ∧ l.length = rows ∧
      ∀ x, x ∈ l ↔ x ∈ xs := by
  obtain ⟨l, hl⟩ := exists_map_some (consistentArray_full perm hxs column total)
  refine ⟨l, hl, ?_, fun x => ?_⟩
  · obtain ⟨h, _, _⟩ := @rows_keep _ _ rows rows _ _ columns perm (filling_start rows quota)
      le_rfl
    rw [← List.length_map some, ← hl]
    exact h.length
  · rw [← mem_consistentArray nodup perm column pos few, hl]
    simp

end Slots

/-! ### Columns -/

section Columns

variable {rows : ℕ} {columns : List (ι × Option (List ℕ))} {x : ι} {column : Option (List ℕ)}
  {c : ι × Option (List ℕ)} {xs : List ι}

def setColumn (r : ι → ι → Prop) [DecidableRel r] (columns : List (ι × Option (List ℕ))) (x : ι)
    (column : Option (List ℕ)) : List (ι × Option (List ℕ)) :=
  if x ∈ columns.map Prod.fst then columns.map fun c => if c.1 = x then (x, column) else c
  else columns.orderedInsert (fun a b => r a.1 b.1) (x, column)

variable {r : ι → ι → Prop} [DecidableRel r]

theorem mem_setColumn :
    c ∈ setColumn r columns x column ↔ c = (x, column) ∨ c ∈ columns ∧ c.1 ≠ x := by
  unfold setColumn
  split
  · next hx =>
    rw [List.mem_map]
    constructor
    · rintro ⟨e, he, rfl⟩
      split
      · exact Or.inl rfl
      · next h => exact Or.inr ⟨he, h⟩
    · rintro (rfl | ⟨hc, h⟩)
      · obtain ⟨e, he, hex⟩ := List.mem_map.1 hx
        exact ⟨e, he, if_pos hex⟩
      · exact ⟨c, hc, if_neg h⟩
  · next hx =>
    rw [List.mem_orderedInsert]
    refine or_congr_right ⟨fun hc => ⟨hc, ?_⟩, fun h => h.1⟩
    rintro rfl
    exact hx (List.mem_map.2 ⟨c, hc, rfl⟩)

theorem nodup_setColumn (h : (columns.map Prod.fst).Nodup) :
    ((setColumn r columns x column).map Prod.fst).Nodup := by
  unfold setColumn
  split
  · have same : (columns.map fun c => if c.1 = x then (x, column) else c).map Prod.fst =
        columns.map Prod.fst := by
      rw [List.map_map]
      apply List.map_congr_left
      intro c _
      by_cases hc : c.1 = x
      · simp [hc]
      · simp [hc]
    rwa [same]
  · next hx =>
    have perm := (List.perm_orderedInsert (fun a b : ι × Option (List ℕ) => r a.1 b.1)
      (x, column) columns).map Prod.fst
    exact perm.nodup_iff.2 (List.nodup_cons.2 ⟨hx, h⟩)

structure Columns (rows : ℕ) (xs : List ι) (columns : List (ι × Option (List ℕ))) : Prop where
  nodup : (columns.map Prod.fst).Nodup
  perm : ∀ c ∈ columns, ∀ nums, c.2 = some nums → nums.Perm (List.range rows)
  column : ∀ x ∈ xs, ∃ nums, (x, some nums) ∈ columns

omit [DecidableEq ι] in
theorem columns_nil : Columns rows ([] : List ι) [] := by
  refine ⟨List.nodup_nil, fun c hc => ?_, fun x hx => ?_⟩
  · cases hc
  · cases hx

theorem Columns.add (h : Columns rows xs columns) {nums : List ℕ}
    (perm : nums.Perm (List.range rows)) {ys : List ι} (sub : ∀ y ∈ ys, y = x ∨ y ∈ xs) :
    Columns rows ys (setColumn r columns x (some nums)) := by
  refine ⟨nodup_setColumn h.nodup, fun c hc ns hns => ?_, fun y hy => ?_⟩
  · rcases mem_setColumn.1 hc with rfl | ⟨hc, _⟩
    · rwa [← Option.some.inj hns]
    · exact h.perm c hc ns hns
  · by_cases hyx : y = x
    · exact ⟨nums, mem_setColumn.2 (Or.inl (by rw [hyx]))⟩
    · obtain ⟨ns, hns⟩ := h.column y ((sub y hy).resolve_left hyx)
      exact ⟨ns, mem_setColumn.2 (Or.inr ⟨hns, hyx⟩)⟩

theorem Columns.remove (h : Columns rows xs columns) {ys : List ι}
    (sub : ∀ y ∈ ys, y ∈ xs ∧ y ≠ x) : Columns rows ys (setColumn r columns x none) := by
  refine ⟨nodup_setColumn h.nodup, fun c hc ns hns => ?_, fun y hy => ?_⟩
  · rcases mem_setColumn.1 hc with rfl | ⟨hc, _⟩
    · cases hns
    · exact h.perm c hc ns hns
  · obtain ⟨ns, hns⟩ := h.column y (sub y hy).1
    exact ⟨ns, mem_setColumn.2 (Or.inr ⟨hns, (sub y hy).2⟩)⟩

def slotArray (share : ℕ → ℕ → ℕ → ℕ) (rows : ℕ) (columns : List (ι × Option (List ℕ)))
    (backends : List (ι × ℕ)) : Option (List (Option ι)) :=
  (weightBackend share rows backends).map (consistentArray rows columns)

variable {share : ℕ → ℕ → ℕ → ℕ} {backends : List (ι × ℕ)}

theorem Columns.array (h : Columns rows (backends.map Prod.fst) columns)
    (nodup : (backends.map Prod.fst).Nodup) (weights : ∀ b ∈ backends, b.2 ≠ 0)
    (any : backends ≠ []) (few : backends.length ≤ rows) :
    ∃ l : List ι, slotArray share rows columns backends = some (l.map some) ∧ l.length = rows ∧
      ∀ x, x ∈ l ↔ x ∈ backends.map Prod.fst := by
  have all : weighted backends = backends.map Prod.fst := by
    rw [weighted, List.filter_eq_self.2]
    simpa using weights
  obtain ⟨q, hq, pos, total⟩ := @weightBackend_spec _ _ share rows _ nodup
    (by rw [all]; simpa using any)
  rw [all] at pos total
  obtain ⟨l, hl, length, mem⟩ := consistentArray_spec h.nodup h.perm nodup h.column pos
    (by rwa [List.length_map]) (rows_le_total.trans_eq total.symm)
  refine ⟨l, ?_, length, mem⟩
  rw [slotArray, hq, Option.map_some, hl]

omit [DecidableEq ι] in
theorem filterMap_of_map_eq {α β : Type*} {f : α → Option β} {as : List α} {bs : List β}
    (h : as.map f = bs.map some) : as.filterMap f = bs := by
  have : as.filterMap f = (as.map f).filterMap id := by
    rw [List.filterMap_map]
    rfl
  rw [this, h, List.filterMap_map]
  exact List.filterMap_some

theorem Columns.values {β : Type*} {valueOf : ι → Option β}
    (h : Columns rows (backends.map Prod.fst) columns) (nodup : (backends.map Prod.fst).Nodup)
    (weights : ∀ b ∈ backends, b.2 ≠ 0) (any : backends ≠ []) (few : backends.length ≤ rows)
    (hv : ∀ x ∈ backends.map Prod.fst, valueOf x ≠ none) :
    ∃ (array : List (Option ι)) (l : List β), slotArray share rows columns backends = some array ∧
      array.map (·.bind valueOf) = l.map some ∧ array.length = rows ∧ l.length = rows ∧
      ∀ v, v ∈ l ↔ ∃ x ∈ backends.map Prod.fst, valueOf x = some v := by
  obtain ⟨xs, harray, length, mem⟩ := @Columns.array _ _ _ _ share _ h nodup weights any few
  obtain ⟨l, hl⟩ := @exists_map_some _ (xs.map valueOf) (by
    intro hnone
    obtain ⟨x, hx, e⟩ := List.mem_map.1 hnone
    exact hv x ((mem x).1 hx) e)
  have map_eq : (xs.map some).map (·.bind valueOf) = l.map some := by
    rw [List.map_map, ← hl]
    rfl
  refine ⟨xs.map some, l, harray, map_eq, by rw [List.length_map, length], ?_, fun v => ?_⟩
  · rw [← length, ← List.length_map some, ← hl, List.length_map]
  · have some_mem : v ∈ l ↔ some v ∈ xs.map valueOf := by
      rw [hl]
      simp
    rw [some_mem, List.mem_map]
    exact exists_congr fun x => and_congr_left' (mem x)

end Columns

end Polycube.Lib
