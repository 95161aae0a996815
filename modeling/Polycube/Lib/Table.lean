import Mathlib.Data.List.Induction
import Mathlib.Logic.Function.Basic

/-!
# Tables

A table maps keys to optional entries, and a write is `Function.update`.  `Ignores k f` says that
`f`, run over a table, neither reads nor writes the entry at `k`: changing that entry before the
run is the same as changing it after.
-/

namespace Polycube.Lib

open Function

abbrev Table (κ α : Type*) := κ → Option α

variable {κ α β γ : Type*} [DecidableEq κ]

/-- `f` neither reads nor writes the entry at `k`. -/
def Ignores (k : κ) (f : Table κ α → β × Table κ α) : Prop :=
  ∀ t e, f (update t k e) = ((f t).1, update (f t).2 k e)

def Table.ofEntries (l : List (κ × α)) : Table κ α :=
  l.foldl (fun t e => update t e.1 (some e.2)) fun _ => none

theorem Table.mem_of_ofEntries {l : List (κ × α)} {k : κ} {v : α}
    (h : Table.ofEntries l k = some v) : (k, v) ∈ l := by
  induction l using List.reverseRecOn with
  | nil => cases h
  | append_singleton l e ih =>
    rw [ofEntries, List.foldl_append, List.foldl_cons, List.foldl_nil] at h
    by_cases hk : k = e.1
    · rw [hk, update_self] at h
      simp [hk, ← Option.some.inj h]
    · rw [update_of_ne hk] at h
      exact List.mem_append_left _ (ih h)

theorem Table.notMem_of_ofEntries {l : List (κ × α)} {k : κ}
    (h : Table.ofEntries l k = none) (v : α) : (k, v) ∉ l := by
  induction l using List.reverseRecOn with
  | nil => simp
  | append_singleton l e ih =>
    rw [ofEntries, List.foldl_append, List.foldl_cons, List.foldl_nil] at h
    by_cases hk : k = e.1
    · rw [hk, update_self] at h
      cases h
    · rw [update_of_ne hk] at h
      rw [List.mem_append, List.mem_singleton]
      rintro (hm | rfl)
      · exact ih h hm
      · exact hk rfl

namespace Ignores

variable {k k' : κ} {f : Table κ α → β × Table κ α}

theorem snd_apply (h : Ignores k f) (t : Table κ α) : (f t).2 k = t k := by
  have same := h t (t k)
  rw [update_eq_self] at same
  have atKey := congrFun (congrArg Prod.snd same) k
  simpa using atKey

theorem write (hk : k' ≠ k) (b : β) (v : Option α) :
    Ignores k (fun t : Table κ α => (b, update t k' v)) := fun t e => by
  simp only [update_comm hk]

end Ignores

end Polycube.Lib
