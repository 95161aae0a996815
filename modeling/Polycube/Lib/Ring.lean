import Mathlib.Data.BitVec
import Mathlib.Data.List.Basic
import Mathlib.Logic.Function.Basic

/-!
# Circular buffers

A circular buffer has one cell for each word of some width, a place where the reader is and one
where the writer is.  Its elements are the cells from the reader's place up to the writer's, which
may go past the last word and on from the first one.
-/

namespace Polycube.Lib

open Function

variable {n : ℕ} {α β : Type*} {cell : BitVec n → α} {r w : BitVec n}

def ring (cell : BitVec n → α) (r w : BitVec n) : List α :=
  (List.range (w - r).toNat).map fun i => cell (r + BitVec.ofNat n i)

@[simp] theorem ring_length : (ring cell r w).length = (w - r).toNat := by simp [ring]

@[simp] theorem ring_self : ring cell r r = [] := by simp [ring]

theorem ring_eq_nil_iff : ring cell r w = [] ↔ r = w := by
  rw [← List.length_eq_zero_iff, ring_length]
  constructor
  · intro zero
    have same : w - r = 0#n := BitVec.eq_of_toNat_eq (by simpa using zero)
    exact (BitVec.sub_eq_iff_eq_add.1 same).symm ▸ (BitVec.zero_add r).symm
  · rintro rfl
    simp

/-- The places at a smaller distance than the writer's are not the writer's. -/
theorem ne_writer {i : ℕ} (hi : i < (w - r).toNat) : r + BitVec.ofNat n i ≠ w := by
  rintro rfl
  rw [BitVec.add_comm, BitVec.add_sub_cancel, BitVec.toNat_ofNat] at hi
  exact absurd hi (Nat.not_lt.2 (Nat.mod_le _ _))

theorem ring_congr {cell' : BitVec n → α} (same : ∀ j ≠ w, cell' j = cell j) :
    ring cell' r w = ring cell r w := by
  apply List.map_congr_left
  intro i hi
  exact same _ (ne_writer (List.mem_range.1 hi))

theorem ring_eq_cons (h : r ≠ w) : ring cell r w = cell r :: ring cell (r + 1#n) w := by
  have some : (w - r).toNat ≠ 0 := by
    rw [← @ring_length _ _ cell, Ne, List.length_eq_zero_iff, ring_eq_nil_iff]
    exact h
  have one_le : 1 % 2 ^ n ≤ (w - r).toNat := le_trans (Nat.mod_le 1 _) (Nat.one_le_iff_ne_zero.2 some)
  have one_lt : 1 < 2 ^ n := lt_of_le_of_lt (Nat.one_le_iff_ne_zero.2 some) (w - r).isLt
  have left : (w - (r + 1#n)).toNat + 1 = (w - r).toNat := by
    rw [sub_add_eq_sub_sub, BitVec.toNat_sub_of_le (BitVec.le_def.2 (by simpa using one_le)),
      BitVec.toNat_ofNat, Nat.mod_eq_of_lt one_lt]
    omega
  rw [ring, ← left, List.range_succ_eq_map, List.map_cons, List.map_map, ring]
  congr 1
  · simp
  · apply List.map_congr_left
    intro i _
    rw [comp_apply, Nat.succ_eq_one_add, BitVec.ofNat_add, BitVec.add_assoc]

theorem ring_push {x : α} (room : (ring cell r w).length + 1 < 2 ^ n) :
    ring (update cell w x) r (w + 1#n) = ring cell r w ++ [x] := by
  rw [ring_length] at room
  have further : (w + 1#n - r).toNat = (w - r).toNat + 1 := by
    have one : (1#n).toNat = 1 := by
      rw [BitVec.toNat_ofNat]
      exact Nat.mod_eq_of_lt (by omega)
    rw [add_sub_right_comm, BitVec.toNat_add_of_lt (by rw [one]; exact room), one]
  rw [ring, further, List.range_succ, List.map_append, List.map_singleton]
  congr 1
  · exact ring_congr fun j hj => update_of_ne hj _ _
  · rw [BitVec.ofNat_toNat, BitVec.setWidth_eq, BitVec.add_comm, BitVec.sub_add_cancel,
      update_self]

end Polycube.Lib
