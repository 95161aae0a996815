import Mathlib.Data.List.Basic
import Mathlib.Data.Nat.ModEq
import Mathlib.Logic.Function.Basic

/-!
# Slots in a circle

A writer and a reader go round the same `size` slots, each with a cursor of its own that it moves
before it uses the slot.  `Holds slot n l` says that the slots behind the `n`-th one hold `l`, in
order: what has been written and not been read.
-/

namespace Polycube.Lib

open Function

variable {α : Type*} {size n : ℕ} {slot : ℕ → α} {l : List α} {x : α}

def Holds (size : ℕ) (slot : ℕ → α) (n : ℕ) (l : List α) : Prop :=
  ∀ j y, l[j]? = some y → slot ((n + j + 1) % size) = y

theorem Holds.nil : Holds size slot n [] := fun _ _ h => by simp at h

theorem Holds.push (h : Holds size slot n l) (room : l.length < size) :
    Holds size (update slot ((n + l.length + 1) % size) x) n (l ++ [x]) := by
  intro j y hj
  rcases Nat.lt_or_ge j l.length with hlt | hge
  · rw [List.getElem?_append_left hlt] at hj
    -- the slots of fewer than `size` numbers in a row differ
    have other : (n + j + 1) % size ≠ (n + l.length + 1) % size := by
      intro e
      have := (Nat.modEq_iff_dvd' (by omega)).1 (show n + j + 1 ≡ n + l.length + 1 [MOD size] from e)
      have := Nat.le_of_dvd (by omega) this
      omega
    rw [update_of_ne other]
    exact h j y hj
  · have last : j = l.length := by
      have := (List.getElem?_eq_some_iff.1 hj).1
      simp at this
      omega
    subst last
    rw [update_self]
    simpa using hj

theorem Holds.head (h : Holds size slot n (x :: l)) : slot ((n + 1) % size) = x := h 0 x rfl

theorem Holds.tail (h : Holds size slot n (x :: l)) : Holds size slot (n + 1) l := by
  intro j y hj
  rw [show n + 1 + j + 1 = n + (j + 1) + 1 by omega]
  exact h (j + 1) y hj

end Polycube.Lib
