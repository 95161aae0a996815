import Mathlib.Data.List.Nodup
import Mathlib.Logic.Function.Basic

/-!
# Pools

Things that can be taken lie in pools, and those that were taken are held.  While every thing lies
in one place only, and that stays so when a pool gives its first thing away and when one that is
held goes back to the end of some pool.
-/

namespace Polycube.Lib

open Function

variable {ι α : Type*} {valid : α → Prop} {pool : ι → List α} {held : List α}

structure Pools (valid : α → Prop) (pool : ι → List α) (held : List α) : Prop where
  nodup : ∀ i, (pool i).Nodup
  disjoint : ∀ i j x, x ∈ pool i → x ∈ pool j → i = j
  free : ∀ i, ∀ x ∈ pool i, x ∉ held
  valid_pool : ∀ i, ∀ x ∈ pool i, valid x
  valid_held : ∀ x ∈ held, valid x

namespace Pools

variable [DecidableEq ι]

theorem take (h : Pools valid pool held) {i : ι} {x : α} {rest : List α} (hp : pool i = x :: rest) :
    Pools valid (update pool i rest) (x :: held) := by
  have smaller : ∀ j, ∀ y ∈ update pool i rest j, y ∈ pool j := by
    intro j y hy
    by_cases hj : j = i
    · subst hj
      rw [update_self] at hy
      rw [hp]
      exact List.mem_cons_of_mem x hy
    · rwa [update_of_ne hj] at hy
  have hx : x ∈ pool i := hp ▸ List.mem_cons_self
  obtain ⟨fresh, nodup⟩ := List.nodup_cons.1 (hp ▸ h.nodup i)
  refine ⟨fun j => ?_, fun j k y hj hk => h.disjoint j k y (smaller j y hj) (smaller k y hk),
    fun j y hy held => ?_, fun j y hy => h.valid_pool j y (smaller j y hy), fun y hy => ?_⟩
  · by_cases hj : j = i
    · rw [hj, update_self]
      exact nodup
    · rw [update_of_ne hj]
      exact h.nodup j
  · rcases List.mem_cons.1 held with rfl | held
    · obtain rfl := h.disjoint j i y (smaller j y hy) hx
      rw [update_self] at hy
      exact fresh hy
    · exact h.free j y (smaller j y hy) held
  · rcases List.mem_cons.1 hy with rfl | hy
    · exact h.valid_pool i y hx
    · exact h.valid_held y hy

theorem give [DecidableEq α] (h : Pools valid pool held) {x : α} (hx : x ∈ held) (i : ι) :
    Pools valid (update pool i (pool i ++ [x])) (held.filter (· ≠ x)) := by
  have larger : ∀ j, ∀ y ∈ update pool i (pool i ++ [x]) j, y ∈ pool j ∨ j = i ∧ y = x := by
    intro j y hy
    by_cases hj : j = i
    · rw [hj, update_self, List.mem_append, List.mem_singleton] at hy
      rw [hj]
      exact hy.imp_right fun e => ⟨rfl, e⟩
    · rw [update_of_ne hj] at hy
      exact Or.inl hy
  have absent : ∀ j, x ∉ pool j := fun j hj => h.free j x hj hx
  refine ⟨fun j => ?_, fun j k y hj hk => ?_, fun j y hy held => ?_, fun j y hy => ?_,
    fun y hy => h.valid_held y (List.mem_filter.1 hy).1⟩
  · by_cases hj : j = i
    · rw [hj, update_self]
      exact (h.nodup i).append (List.nodup_singleton x) (by simpa using absent i)
    · rw [update_of_ne hj]
      exact h.nodup j
  · rcases larger j y hj with inj | ⟨ej, ey⟩ <;> rcases larger k y hk with ink | ⟨ek, ey'⟩
    · exact h.disjoint j k y inj ink
    · exact absurd (ey' ▸ inj) (absent j)
    · exact absurd (ey ▸ ink) (absent k)
    · rw [ej, ek]
  · obtain ⟨held, ne⟩ := List.mem_filter.1 held
    rcases larger j y hy with hy | ⟨-, rfl⟩
    · exact h.free j y hy held
    · simp at ne
  · rcases larger j y hy with hy | ⟨-, rfl⟩
    · exact h.valid_pool j y hy
    · exact h.valid_held y hx

end Pools

end Polycube.Lib
