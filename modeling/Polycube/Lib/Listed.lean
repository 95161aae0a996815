import Mathlib.Data.List.Nodup
import Mathlib.Data.List.Perm.Basic
import Polycube.Lib.Table

/-!
# Tables that hold a list

A table lists some entries when it holds them and nothing else, each under a key of its own.  The
order of the entries does not matter, and a write adds, drops or replaces one of them.
-/

namespace Polycube.Lib

open Function

variable {κ α : Type*}

structure Listed (l : List (κ × α)) (t : Table κ α) : Prop where
  keys : (l.map Prod.fst).Nodup
  mem : ∀ k v, t k = some v ↔ (k, v) ∈ l

namespace Listed

variable {l l' : List (κ × α)} {t : Table κ α} {k : κ} {v w : α}

theorem nil : Listed [] (fun _ => none : Table κ α) where
  keys := List.nodup_nil
  mem _ _ := iff_of_false (fun h => by cases h) List.not_mem_nil

theorem perm (h : Listed l t) (p : l.Perm l') : Listed l' t where
  keys := (p.map Prod.fst).nodup_iff.1 h.keys
  mem k v := (h.mem k v).trans p.mem_iff

theorem eq_none_iff (h : Listed l t) : t k = none ↔ k ∉ l.map Prod.fst := by
  rw [Option.eq_none_iff_forall_ne_some]
  constructor
  · intro none hk
    obtain ⟨⟨k', v⟩, hm, rfl⟩ := List.mem_map.1 hk
    exact none v ((h.mem _ v).2 hm)
  · intro hk v hv
    exact hk (List.mem_map_of_mem (f := Prod.fst) ((h.mem k v).1 hv))

theorem apply_of_mem (h : Listed l t) (hm : (k, v) ∈ l) : t k = some v := (h.mem k v).2 hm

variable [DecidableEq κ]

theorem set (h : Listed l t) (new : t k = none) :
    Listed ((k, v) :: l) (update t k (some v)) where
  keys := by
    rw [List.map_cons, List.nodup_cons]
    exact ⟨h.eq_none_iff.1 new, h.keys⟩
  mem k' v' := by
    rw [List.mem_cons, Prod.mk.injEq]
    by_cases hk : k' = k
    · subst hk
      have other : (k', v') ∉ l := fun hm => h.eq_none_iff.1 new (List.mem_map_of_mem hm)
      rw [update_self, Option.some.injEq]
      constructor
      · exact fun e => Or.inl ⟨rfl, e.symm⟩
      · rintro (⟨-, rfl⟩ | hm)
        · rfl
        · exact absurd hm other
    · rw [update_of_ne hk, h.mem]
      exact ⟨Or.inr, fun hm => hm.resolve_left fun e => hk e.1⟩

theorem remove (h : Listed ((k, v) :: l) t) : Listed l (update t k none) where
  keys := (List.nodup_cons.1 h.keys).2
  mem k' v' := by
    have new : k ∉ l.map Prod.fst := (List.nodup_cons.1 h.keys).1
    by_cases hk : k' = k
    · subst hk
      rw [update_self]
      exact iff_of_false (fun e => by cases e) fun hm => new (List.mem_map_of_mem hm)
    · rw [update_of_ne hk, h.mem, List.mem_cons, Prod.mk.injEq]
      exact or_iff_right fun e => hk e.1

theorem replace (h : Listed ((k, v) :: l) t) :
    Listed ((k, w) :: l) (update t k (some w)) := by
  have twice : update t k (some w) =
      update (update t k none) k (some w) :=
    (update_idem _ _ _).symm
  rw [twice]
  exact h.remove.set (update_self _ _ _)

end Listed

end Polycube.Lib
