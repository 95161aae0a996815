import Mathlib.Data.List.Basic

/-!
# Vectors of numbered objects

A vector of pointers to objects that carry the number of their place.  To put one in or to take
one out, loops with unsigned indices copy pointer after pointer and write the new number into the
object behind it.  What the loops leave is what insertion and erasure of lists leave, but for the
numbers.
-/

namespace Polycube.Lib.Shifting

variable {α : Type*} (setId : ℕ → α → α)

/-- `v[id] = a`, after a `resize(id + 1)` when the vector is shorter. -/
def put (id : ℕ) (a : α) (v : List (Option α)) : List (Option α) :=
  (v ++ List.replicate (id + 1 - v.length) none).set id (some a)

/-- `v[j] = v[i]`; the object gets the number `j`. -/
def copy (v : List (Option α)) (i j : ℕ) : List (Option α) :=
  v.set j (v[i]?.join.map (setId j))

/-- `for (i; i < size && i >= id; i--)` copies up from `i`, which is a place of the vector.  Below
0 the index wraps around, and the first comparison ends the loop. -/
def moveUp (id : ℕ) : ℕ → List (Option α) → List (Option α)
  | 0, v => if id = 0 then copy setId v 0 1 else v
  | i + 1, v => if id ≤ i + 1 then moveUp id i (copy setId v (i + 1) (i + 2)) else v

/-- The loop from `size - 2` on, which wraps around for a size of one. -/
def makeRoom (size id : ℕ) (v : List (Option α)) : List (Option α) :=
  if 2 ≤ size then moveUp setId id (size - 2) v else v

/-- `resize(size + 1)`, the loop, and the new object in the room it made. -/
def insert (id : ℕ) (a : α) (v : List (Option α)) : List (Option α) :=
  (makeRoom setId (v.length + 1) id (v ++ [none])).set id (some (setId id a))

/-- The loop that copies down `n` pointers from `i + 1` on.  It follows the pointers: none of them
may be null. -/
def moveDown : ℕ → ℕ → List (Option α) → Option (List (Option α))
  | 0, _, v => some v
  | n + 1, i, v => (v[i + 1]?.join).bind fun a => moveDown n (i + 1) (v.set i (some (setId i a)))

/-- `for (i = id; i < size - 1; ++i)`, then `resize(size - 1)`. -/
def erase (id : ℕ) (v : List (Option α)) : Option (List (Option α)) :=
  (moveDown setId (v.length - 1 - id) id v).map fun w => w.take (v.length - 1)

variable {v w : List (Option α)} {a : α} {id i k n : ℕ}

theorem getElem?_eq_some_some : v[k]? = some (some a) ↔ v[k]?.join = some a := by
  cases v[k]? with
  | none => simp
  | some x => simp

theorem getElem?_put (id : ℕ) (a : α) (v : List (Option α)) (k : ℕ) :
    (put id a v)[k]? =
      if k = id then some (some a)
      else if k < v.length then v[k]? else if k < id then some none else none := by
  unfold put
  rw [List.getElem?_set]
  by_cases here : id = k
  · subst here
    rw [if_pos rfl, if_pos rfl, if_pos (by simp; omega)]
  · rw [if_neg here, if_neg (Ne.symm here)]
    by_cases old : k < v.length
    · rw [List.getElem?_append_left old, if_pos old]
    · rw [List.getElem?_append_right (by omega), List.getElem?_replicate, if_neg old]
      by_cases new : k < id
      · rw [if_pos new, if_pos (by omega)]
      · rw [if_neg new, if_neg (by omega)]

theorem getElem?_put_self : (put id a v)[id]? = some (some a) := by
  rw [getElem?_put, if_pos rfl]

theorem getElem?_join_put_of_ne (other : k ≠ id) : (put id a v)[k]?.join = v[k]?.join := by
  rw [getElem?_put, if_neg other]
  split
  · rfl
  next past =>
    rw [List.getElem?_eq_none (by omega)]
    split <;> rfl

theorem length_put : (put id a v).length = max v.length (id + 1) := by
  unfold put
  simp only [List.length_set, List.length_append, List.length_replicate]
  omega

@[simp] theorem length_copy : (copy setId v i k).length = v.length := List.length_set

@[simp] theorem length_moveUp : (moveUp setId id i v).length = v.length := by
  induction i generalizing v with
  | zero =>
    unfold moveUp
    split
    · exact length_copy setId
    · rfl
  | succ i ih =>
    unfold moveUp
    split
    · rw [ih, length_copy]
    · rfl

theorem getElem?_copy (h : k < v.length) (j : ℕ) :
    (copy setId v i k)[j]? = if j = k then some (v[i]?.join.map (setId k)) else v[j]? := by
  unfold copy
  rw [List.getElem?_set]
  by_cases e : k = j
  · subst e
    rw [if_pos rfl, if_pos h, if_pos rfl]
  · rw [if_neg e, if_neg (Ne.symm e)]

/-- The places above `id` up to `i + 1` get what was one below. -/
theorem getElem?_moveUp (h : i + 1 < v.length) (j : ℕ) :
    (moveUp setId id i v)[j]? =
      if id < j ∧ j ≤ i + 1 then some (v[j - 1]?.join.map (setId j)) else v[j]? := by
  induction i generalizing v with
  | zero =>
    unfold moveUp
    split
    next e =>
      subst e
      rw [getElem?_copy setId h]
      by_cases hj : j = 1
      · subst hj
        rfl
      · rw [if_neg hj, if_neg (by omega)]
    next e => rw [if_neg (by omega)]
  | succ i ih =>
    unfold moveUp
    split
    next e =>
      rw [ih (by rw [length_copy]; omega)]
      by_cases hmid : id < j ∧ j ≤ i + 1
      · rw [if_pos hmid, if_pos (by omega), getElem?_copy setId h, if_neg (by omega)]
      · rw [if_neg hmid, getElem?_copy setId h]
        by_cases hlast : j = i + 2
        · subst hlast
          rw [if_pos rfl, if_pos (by omega)]
          rfl
        · rw [if_neg hlast, if_neg (by omega)]
    next e => rw [if_neg (by omega)]

/-- Insertion: the places before it stay, those behind it move up and get their new numbers. -/
theorem getElem?_insert (h : id ≤ v.length) (k : ℕ) :
    (insert setId id a v)[k]? =
      if k < id then v[k]? else if k = id then some (some (setId id a))
      else v[k - 1]?.map (Option.map (setId k)) := by
  have length : (makeRoom setId (v.length + 1) id (v ++ [none])).length = v.length + 1 := by
    unfold makeRoom
    split <;> simp
  have room : ∀ j, j ≠ id → (makeRoom setId (v.length + 1) id (v ++ [none]))[j]? =
      if id < j ∧ j ≤ v.length then some ((v ++ [none])[j - 1]?.join.map (setId j))
      else (v ++ [none])[j]? := by
    intro j hj
    unfold makeRoom
    split
    next big =>
      rw [getElem?_moveUp setId (by simp only [List.length_append, List.length_singleton]; omega)]
      simp only [show v.length + 1 - 2 + 1 = v.length by omega]
    next small => rw [if_neg (by omega)]
  unfold insert
  rw [List.getElem?_set]
  by_cases hk : id = k
  · subst hk
    rw [if_pos rfl, if_pos (by omega), if_neg (by omega), if_pos rfl]
  · rw [if_neg hk, room k (Ne.symm hk)]
    by_cases below : k < id
    · rw [if_neg (by omega), if_pos below, List.getElem?_append_left (by omega)]
    · rw [if_neg below, if_neg (Ne.symm hk)]
      by_cases last : k ≤ v.length
      · rw [if_pos (by omega), List.getElem?_append_left (by omega),
          List.getElem?_eq_getElem (by omega)]
        rfl
      · rw [if_neg (by omega), List.getElem?_eq_none (by simp; omega),
          List.getElem?_eq_none (by omega)]
        rfl

theorem length_insert : (insert setId id a v).length = v.length + 1 := by
  unfold insert makeRoom
  rw [List.length_set]
  split
  · rw [length_moveUp, List.length_append, List.length_singleton]
  · rw [List.length_append, List.length_singleton]

theorem moveDown_of_forall (above : ∀ j, i < j → j ≤ i + n → ∃ a, v[j]? = some (some a)) :
    ∃ w, moveDown setId n i v = some w ∧ w.length = v.length ∧ ∀ j, w[j]? =
      if i ≤ j ∧ j < i + n then v[j + 1]?.map (Option.map (setId j)) else v[j]? := by
  induction n generalizing i v with
  | zero => exact ⟨v, rfl, rfl, fun j => by rw [if_neg (by omega)]⟩
  | succ n ih =>
    obtain ⟨a, ha⟩ := above (i + 1) (by omega) (by omega)
    have hlen : i + 1 < v.length := (List.getElem?_eq_some_iff.1 ha).1
    have others : ∀ j, j ≠ i → (v.set i (some (setId i a)))[j]? = v[j]? := fun j hj => by
      rw [List.getElem?_set_ne (Ne.symm hj)]
    have above' : ∀ j, i + 1 < j → j ≤ i + 1 + n →
        ∃ b, (v.set i (some (setId i a)))[j]? = some (some b) := by
      intro j hj hj'
      rw [others j (by omega)]
      exact above j (by omega) (by omega)
    obtain ⟨w, hw, length, places⟩ := ih above'
    refine ⟨w, ?_, by rw [length, List.length_set], fun j => ?_⟩
    · unfold moveDown
      rw [ha]
      exact hw
    · rw [places j]
      by_cases here : j = i
      · subst here
        rw [if_neg (by omega), if_pos (by omega), ha, List.getElem?_set_self (by omega)]
        rfl
      · by_cases later : i + 1 ≤ j ∧ j < i + 1 + n
        · rw [if_pos later, if_pos (by omega), others (j + 1) (by omega)]
        · rw [if_neg later, if_neg (by omega), others j here]

theorem length_of_moveDown (h : moveDown setId n i v = some w) : w.length = v.length := by
  induction n generalizing i v with
  | zero => rw [← Option.some.inj h]
  | succ n ih =>
    obtain ⟨a, -, h⟩ := Option.bind_eq_some_iff.1 h
    rw [ih h, List.length_set]

theorem length_of_erase (h : erase setId id v = some w) : w.length = v.length - 1 := by
  obtain ⟨u, hu, rfl⟩ := Option.map_eq_some_iff.1 h
  rw [List.length_take, length_of_moveDown setId hu]
  omega

/-- Erasure, when no pointer behind the place is null: the places before it stay, those behind it
move down and get their new numbers. -/
theorem erase_of_forall (h : id < v.length)
    (above : ∀ j, id < j → j < v.length → ∃ a, v[j]? = some (some a)) :
    ∃ w, erase setId id v = some w ∧ w.length = v.length - 1 ∧ ∀ k, w[k]? =
      if k < id then v[k]? else v[k + 1]?.map (Option.map (setId k)) := by
  obtain ⟨w, hw, length, places⟩ := @moveDown_of_forall α setId v id (v.length - 1 - id)
    fun j hj hj' => above j hj (by omega)
  refine ⟨w.take (v.length - 1), ?_, by rw [List.length_take, length]; omega, fun k => ?_⟩
  · unfold erase
    rw [hw]
    rfl
  · rw [List.getElem?_take, places k]
    by_cases inside : k < v.length - 1
    · rw [if_pos inside]
      by_cases below : k < id
      · rw [if_neg (by omega), if_pos below]
      · rw [if_pos (by omega), if_neg below]
    · rw [if_neg inside, if_neg (by omega), List.getElem?_eq_none (show v.length ≤ k + 1 by omega)]
      rfl

theorem forall_of_moveDown (h : moveDown setId n i v = some w) :
    ∀ j, i < j → j ≤ i + n → ∃ a, v[j]? = some (some a) := by
  induction n generalizing i v with
  | zero =>
    intro j hj hj'
    omega
  | succ n ih =>
    obtain ⟨a, ha, h⟩ := Option.bind_eq_some_iff.1 h
    intro j hj hj'
    by_cases first : j = i + 1
    · exact ⟨a, first ▸ getElem?_eq_some_some.2 ha⟩
    · obtain ⟨b, hb⟩ := ih h j (by omega) (by omega)
      rw [List.getElem?_set_ne (by omega)] at hb
      exact ⟨b, hb⟩

theorem getElem?_erase (hid : id < v.length) (h : erase setId id v = some w) (k : ℕ) :
    w[k]? = if k < id then v[k]? else v[k + 1]?.map (Option.map (setId k)) := by
  obtain ⟨u, hu, -⟩ := Option.map_eq_some_iff.1 h
  obtain ⟨w', h', -, places⟩ := erase_of_forall setId hid fun j hj hj' =>
    forall_of_moveDown setId hu j hj (by omega)
  rw [h, Option.some.injEq] at h'
  rw [h']
  exact places k

end Polycube.Lib.Shifting
