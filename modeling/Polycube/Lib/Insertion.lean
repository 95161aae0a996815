import Mathlib

/-!
# Insertion into a sorted list

An element is put in front of the first one with a larger key.  The list stays sorted, and in a
sorted list two elements with different keys are in the order of their keys.
-/

namespace Polycube.Lib

variable {α κ : Type*} [LinearOrder κ] (key : α → κ)

def Ascending (l : List α) : Prop := l.Pairwise fun a b => key a ≤ key b

def placeOf (k : κ) (l : List α) : ℕ := (l.takeWhile fun x => key x ≤ k).length

variable {key} {k : κ} {x y : α} {l : List α}

theorem placeOf_le : placeOf key k l ≤ l.length :=
  (List.takeWhile_prefix _).length_le

theorem placeOf_cons : placeOf key k (x :: l) = if key x ≤ k then placeOf key k l + 1 else 0 := by
  unfold placeOf
  by_cases le : key x ≤ k
  · rw [if_pos le, List.takeWhile_cons_of_pos (by simpa using le)]
    rfl
  · rw [if_neg le, List.takeWhile_cons_of_neg (by simpa using le)]
    rfl

theorem Ascending.insertIdx (h : Ascending key l) (x : α) :
    Ascending key (l.insertIdx (placeOf key (key x) l) x) := by
  induction l with
  | nil => exact List.pairwise_singleton _ x
  | cons y l ih =>
    obtain ⟨first, rest⟩ := List.pairwise_cons.1 h
    rw [placeOf_cons]
    split_ifs with le
    · rw [List.insertIdx_succ_cons]
      refine List.pairwise_cons.2 ⟨fun z hz => ?_, ih rest⟩
      rcases (List.mem_insertIdx placeOf_le).1 hz with rfl | old
      · exact le
      · exact first z old
    · rw [List.insertIdx_zero]
      have lt : key x < key y := lt_of_not_ge le
      refine List.pairwise_cons.2 ⟨fun z hz => ?_, h⟩
      rcases List.mem_cons.1 hz with rfl | later
      · exact lt.le
      · exact lt.le.trans (first z later)

def Before (l : List α) (x y : α) : Prop := ∃ l₁ l₂ l₃, l = l₁ ++ x :: l₂ ++ y :: l₃

/-- Two elements with different keys are in the order of the keys. -/
theorem Ascending.before_iff (h : Ascending key l) (hx : x ∈ l) (hy : y ∈ l)
    (other : key x ≠ key y) : Before l x y ↔ key x < key y := by
  constructor
  · rintro ⟨l₁, l₂, l₃, rfl⟩
    have le : key x ≤ key y := (List.pairwise_append.1 h).2.2 x (by simp) y (by simp)
    exact lt_of_le_of_ne le other
  · intro lt
    obtain ⟨l₁, l', rfl⟩ := List.append_of_mem hx
    have sorted := List.pairwise_append.1 h
    have later : y ∈ l' := by
      rcases List.mem_append.1 hy with front | rest
      · exact absurd (sorted.2.2 y front x List.mem_cons_self) (not_le.2 lt)
      · rcases List.mem_cons.1 rest with rfl | later
        · exact absurd rfl other
        · exact later
    obtain ⟨l₂, l₃, rfl⟩ := List.append_of_mem later
    exact ⟨l₁, l₂, l₃, by simp⟩

end Polycube.Lib
