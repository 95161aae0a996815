import Mathlib.Data.Finset.Card
import Polycube.Lib.Table

/-!
# Tables with a bounded number of entries

A table that is full does not accept a new key, and a key that it does not have cannot be removed.
-/

namespace Polycube.Lib

open Function

variable {κ α : Type*} [DecidableEq κ] {size : ℕ}

/-- A table with its keys, which are at most `size`. -/
structure Bounded (κ α : Type*) [DecidableEq κ] (size : ℕ) where
  entry : Table κ α
  keys : Finset κ
  mem_keys : ∀ k, k ∈ keys ↔ entry k ≠ none
  card_le : keys.card ≤ size

namespace Bounded

variable {m m' : Bounded κ α size} {k : κ} {v : α}

def empty : Bounded κ α size where
  entry _ := none
  keys := ∅
  mem_keys _ := by simp
  card_le := Nat.zero_le size

def set (m : Bounded κ α size) (k : κ) (v : α) : Option (Bounded κ α size) :=
  if room : (insert k m.keys).card ≤ size then some {
    entry := update m.entry k (some v)
    keys := insert k m.keys
    mem_keys := fun k' => by
      by_cases hk : k' = k
      · simp [hk]
      · simp [hk, m.mem_keys]
    card_le := room }
  else none

def remove (m : Bounded κ α size) (k : κ) : Option (Bounded κ α size) :=
  if k ∈ m.keys then some {
    entry := update m.entry k none
    keys := m.keys.erase k
    mem_keys := fun k' => by
      by_cases hk : k' = k
      · simp [hk]
      · simp [hk, m.mem_keys]
    card_le := (Finset.card_erase_le).trans m.card_le }
  else none

theorem entry_of_set (h : m.set k v = some m') :
    m'.entry = update m.entry k (some v) := by
  unfold set at h
  split at h
  · rw [← Option.some.inj h]
  · cases h

theorem keys_of_set (h : m.set k v = some m') : m'.keys = insert k m.keys := by
  unfold set at h
  split at h
  · rw [← Option.some.inj h]
  · cases h

/-- A removal that may fail leaves all keys but its own. -/
theorem keys_getD_remove (m : Bounded κ α size) (k : κ) :
    ((m.remove k).getD m).keys = m.keys.erase k := by
  unfold remove
  split
  · rfl
  · rename_i missing
    exact (Finset.erase_eq_of_notMem missing).symm

/-- There is room for the keys of a set.  Each of them can be written, and then there is still room
for all. -/
theorem set_of_room {s : Finset κ} (room : (m.keys ∪ s).card ≤ size) (hk : k ∈ s) (v : α) :
    ∃ m', m.set k v = some m' ∧ m'.entry = update m.entry k (some v) ∧
      m'.keys ∪ s = m.keys ∪ s := by
  have sub : insert k m.keys ⊆ m.keys ∪ s := by
    apply Finset.insert_subset
    · exact Finset.mem_union_right _ hk
    · exact Finset.subset_union_left
  have fits : (insert k m.keys).card ≤ size := (Finset.card_le_card sub).trans room
  rw [set, dif_pos fits]
  refine ⟨_, rfl, rfl, ?_⟩
  rw [Finset.insert_union, Finset.insert_eq_of_mem (Finset.mem_union_right _ hk)]

theorem union_of_subset {s : Finset κ} (h : ∀ k ∈ s, m.entry k ≠ none) : m.keys ∪ s = m.keys :=
  Finset.union_eq_left.2 fun k hk => (m.mem_keys k).2 (h k hk)

/-- Keys of a bounded table after additions, which may fail, and removals: they are the ones wanted
if and only if nothing failed, nothing wanted was removed, and nothing else is left. -/
theorem sdiff_eq_iff {T A D N M : Finset κ} (ours : A ⊆ N) (grows : T ⊆ M)
    (bound : M ⊆ T ∪ A) :
    M \ D = N ↔ M = T ∪ A ∧ Disjoint N D ∧ N ⊆ T ∪ A ∧ T ⊆ N ∪ D := by
  constructor
  · rintro rfl
    refine ⟨?_, Finset.sdiff_disjoint, Finset.sdiff_subset.trans bound, ?_⟩
    · exact bound.antisymm (Finset.union_subset grows (ours.trans Finset.sdiff_subset))
    · rw [Finset.sdiff_union_self_eq_union]
      exact grows.trans Finset.subset_union_left
  · rintro ⟨rfl, apart, lacks, exceeds⟩
    apply Finset.Subset.antisymm
    · apply sdiff_le_iff.2
      rw [Finset.sup_eq_union, Finset.union_comm D]
      exact Finset.union_subset exceeds (ours.trans Finset.subset_union_left)
    · exact Finset.subset_sdiff.2 ⟨lacks, apart⟩

end Bounded

end Polycube.Lib
