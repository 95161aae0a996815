import Polycube.Lib.Table

/-!
# Owners of entries

Each of some owners has a key, and an entry of a table at that key.  `view` is what the owner
needs of the entry.  Two owners of one key then need the same of it, and the owners keep their
entries under a write whose key is not theirs.
-/

namespace Polycube.Lib

open Function

variable {κ α β σ : Type*} {view : α → β} {key : σ → κ} {own : σ → β} {t : Table κ α}
  {owners : List σ}

def Owned (view : α → β) (key : σ → κ) (own : σ → β) (t : Table κ α) (owners : List σ) : Prop :=
  ∀ a ∈ owners, (t (key a)).map view = some (own a)

namespace Owned

theorem nil : Owned view key own t [] := fun _ h => absurd h List.not_mem_nil

theorem entry (h : Owned view key own t owners) {a : σ} (ha : a ∈ owners) :
    ∃ v, t (key a) = some v ∧ view v = own a :=
  Option.map_eq_some_iff.1 (h a ha)

theorem own_eq (h : Owned view key own t owners) {a b : σ} (ha : a ∈ owners) (hb : b ∈ owners)
    (hk : key a = key b) : own a = own b := by
  have ea := h a ha
  rw [hk, h b hb] at ea
  exact (Option.some.inj ea).symm

theorem key_ne (h : Owned view key own t owners) {k : κ} (miss : t k = none) :
    ∀ b ∈ owners, key b ≠ k := by
  rintro b hb rfl
  have := h b hb
  rw [miss] at this
  cases this

variable [DecidableEq κ]

/-- A new owner writes its entry where no other owner needs a different one. -/
theorem cons (h : Owned view key own t owners) {a : σ} {v : α} (hv : view v = own a)
    (free : ∀ b ∈ owners, key b = key a → own b = own a) :
    Owned view key own (update t (key a) (some v)) (a :: owners) := by
  intro b hb
  by_cases hk : key b = key a
  · rw [hk, update_self, Option.map_some, hv]
    rcases List.mem_cons.1 hb with rfl | hb
    · rfl
    · rw [free b hb hk]
  · rw [update_of_ne hk]
    rcases List.mem_cons.1 hb with rfl | hb
    · exact absurd rfl hk
    · exact h b hb

theorem write (h : Owned view key own t owners) {k : κ} {v : Option α}
    (free : ∀ b ∈ owners, key b ≠ k) : Owned view key own (update t k v) owners := by
  intro b hb
  rw [update_of_ne (free b hb)]
  exact h b hb

theorem filter (h : Owned view key own t owners) (k : κ) :
    Owned view key own (update t k none) (owners.filter fun a => key a ≠ k) := by
  intro b hb
  obtain ⟨hb, hk⟩ := List.mem_filter.1 hb
  rw [update_of_ne (of_decide_eq_true hk)]
  exact h b hb

end Owned

end Polycube.Lib
