import Polycube.Lib.Keyed

/-!
# Hash tables

The entries of a hash table of the kernel, in the order in which a loop over the table finds them.
A table that is full does not take a new key, and a key that it does not have cannot be removed.
-/

namespace Polycube.Lib

variable {κ α : Type} [DecidableEq κ] {size : ℕ}

structure HashTable (κ α : Type) [DecidableEq κ] (size : ℕ) where
  entries : List (κ × α)
  nodup : (entries.map Prod.fst).Nodup
  length_le : entries.length ≤ size

namespace HashTable

variable {m m' : HashTable κ α size} {k k' : κ} {v : α}

def get (m : HashTable κ α size) (k : κ) : Option α := (findKey Prod.fst k m.entries).map Prod.snd

def empty : HashTable κ α size := ⟨[], List.nodup_nil, Nat.zero_le size⟩

def replace (m : HashTable κ α size) (k : κ) (v : α) : HashTable κ α size where
  entries := modifyKey Prod.fst k (fun x => (x.1, v)) m.entries
  nodup := by
    rw [map_modifyKey (f := fun x : κ × α => (x.1, v)) fun _ => rfl]
    exact m.nodup
  length_le := by
    rw [modifyKey, List.length_map]
    exact m.length_le

def erase (m : HashTable κ α size) (k : κ) : HashTable κ α size where
  entries := eraseKey Prod.fst k m.entries
  nodup := m.nodup.sublist (List.filter_sublist.map Prod.fst)
  length_le := Nat.le_trans (List.length_filter_le _ _) m.length_le

def set (m : HashTable κ α size) (k : κ) (v : α) : Option (HashTable κ α size) :=
  if new : k ∉ m.entries.map Prod.fst then
    if room : m.entries.length < size then some {
      entries := m.entries ++ [(k, v)]
      nodup := by
        rw [List.map_append, List.nodup_append]
        refine ⟨m.nodup, List.nodup_singleton k, ?_⟩
        rintro a ha b hb rfl
        rw [List.mem_singleton.1 hb] at ha
        exact new ha
      length_le := by
        rw [List.length_append, List.length_singleton]
        exact room }
    else none
  else some (m.replace k v)

def remove (m : HashTable κ α size) (k : κ) : Option (HashTable κ α size) :=
  if k ∈ m.entries.map Prod.fst then some (m.erase k) else none

theorem get_eq_none_iff : m.get k = none ↔ k ∉ m.entries.map Prod.fst := by
  rw [get, Option.map_eq_none_iff, findKey_eq_none_iff]

theorem get_eq_some_iff : m.get k = some v ↔ (k, v) ∈ m.entries := by
  unfold get
  rw [Option.map_eq_some_iff]
  constructor
  · rintro ⟨⟨k', v'⟩, found, rfl⟩
    obtain ⟨member, rfl⟩ := (findKey_eq_some_iff m.nodup).1 found
    exact member
  · intro member
    exact ⟨(k, v), (findKey_eq_some_iff m.nodup).2 ⟨member, rfl⟩, rfl⟩

theorem get_erase (k' : κ) : (m.erase k).get k' = if k' = k then none else m.get k' := by
  unfold get erase
  rw [findKey_eraseKey]
  split <;> rfl

theorem get_replace (has : k ∈ m.entries.map Prod.fst) (k' : κ) :
    (m.replace k v).get k' = if k' = k then some v else m.get k' := by
  unfold get replace
  rw [findKey_modifyKey (f := fun x : κ × α => (x.1, v)) fun _ => rfl]
  split
  · rename_i same
    subst same
    cases found : findKey Prod.fst k' m.entries with
    | none => exact absurd has (findKey_eq_none_iff.1 found)
    | some x => rfl
  · rfl

theorem get_set (h : m.set k v = some m') (k' : κ) :
    m'.get k' = if k' = k then some v else m.get k' := by
  unfold set at h
  split at h
  · rename_i new
    split at h
    · rw [← Option.some.inj h]
      unfold get
      rw [findKey_concat new]
      by_cases same : k = k'
      · simp [same]
      · simp [same, Ne.symm same]
    · cases h
  · rename_i has
    rw [← Option.some.inj h]
    exact get_replace (not_not.1 has) k'

theorem get_remove (h : m.remove k = some m') (k' : κ) :
    m'.get k' = if k' = k then none else m.get k' := by
  unfold remove at h
  split at h
  · rw [← Option.some.inj h]
    exact get_erase k'
  · cases h

theorem remove_of_get (h : m.get k = some v) : m.remove k = some (m.erase k) := by
  refine if_pos ?_
  by_contra missing
  rw [get_eq_none_iff.2 missing] at h
  cases h

end HashTable

end Polycube.Lib
