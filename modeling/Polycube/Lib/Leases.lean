import Mathlib.Data.List.Basic
import Mathlib.Logic.Function.Basic

/-!
# Leases

Things are leased to owners, each to one owner at most.  A table has entries that name a thing: an
owner may have one such entry, and nothing names a thing that somebody else has leased.  What is
leased or named is held.
-/

namespace Polycube.Lib

open Function

variable {ω κ π : Type*} {owns : ω → Option (π × Option κ)} {named : κ → Option π} {held : List π}

/-- `owns` gives an owner's thing, and the key of the entry that may name it. -/
structure Leased (owns : ω → Option (π × Option κ)) (named : κ → Option π) (held : List π) :
    Prop where
  held_owned : ∀ a p v, owns a = some (p, v) → p ∈ held
  unique : ∀ a b p v w, owns a = some (p, v) → owns b = some (p, w) → a = b
  held_named : ∀ v p, named v = some p → p ∈ held
  own_name : ∀ v p a w, named v = some p → owns a = some (p, w) → w = some v

namespace Leased

variable [DecidableEq ω]

/-- An owner other than the one that was written had what it has. -/
theorem owns_of_update_of_ne {a b : ω} {x : Option (π × Option κ)} {y : π × Option κ} (hb : b ≠ a)
    (h : update owns a x b = some y) : owns b = some y := by
  rwa [update_of_ne hb] at h

theorem drop (h : Leased owns named held) (a : ω) :
    Leased (update owns a none) named held := by
  have before : ∀ b x, update owns a none b = some x → owns b = some x := by
    intro b x hb
    by_cases e : b = a
    · rw [e, update_self] at hb
      cases hb
    · exact owns_of_update_of_ne e hb
  exact ⟨fun b p v hb => h.held_owned b p v (before b _ hb),
    fun b c p v w hb hc => h.unique b c p v w (before b _ hb) (before c _ hc), h.held_named,
    fun v p b w hv hb => h.own_name v p b w hv (before b _ hb)⟩

theorem take (h : Leased owns named held) {p : π} (fresh : p ∉ held) (a : ω) :
    Leased (update owns a (some (p, none))) named (p :: held) := by
  refine ⟨fun b q v hb => ?_, fun b c q v w hb hc => ?_,
    fun v q hv => List.mem_cons_of_mem _ (h.held_named v q hv), fun v q b w hv hb => ?_⟩
  · by_cases e : b = a
    · rw [e, update_self] at hb
      cases hb
      exact List.mem_cons_self
    · exact List.mem_cons_of_mem _ (h.held_owned b q v (owns_of_update_of_ne e hb))
  · by_cases eb : b = a <;> by_cases ec : c = a
    · rw [eb, ec]
    · rw [eb, update_self] at hb
      cases hb
      exact absurd (h.held_owned c p w (owns_of_update_of_ne ec hc)) fresh
    · rw [ec, update_self] at hc
      cases hc
      exact absurd (h.held_owned b p v (owns_of_update_of_ne eb hb)) fresh
    · exact h.unique b c q v w (owns_of_update_of_ne eb hb) (owns_of_update_of_ne ec hc)
  · by_cases e : b = a
    · rw [e, update_self] at hb
      cases hb
      exact absurd (h.held_named v p hv) fresh
    · exact h.own_name v q b w hv (owns_of_update_of_ne e hb)

/-- The owner of a thing changes the key of its entry.  The table may lose the entry of the old key
and get one for the new key. -/
theorem rekey (h : Leased owns named held) {a : ω} {p : π} {v v' : Option κ}
    (ha : owns a = some (p, v)) {named' : κ → Option π}
    (hn : ∀ u q, named' u = some q → named u = some q ∧ v ≠ some u ∨ v' = some u ∧ q = p) :
    Leased (update owns a (some (p, v'))) named' held := by
  have before : ∀ b q w, update owns a (some (p, v')) b = some (q, w) →
      ∃ w, owns b = some (q, w) := by
    intro b q w hb
    by_cases e : b = a
    · rw [e, update_self] at hb
      cases hb
      exact ⟨v, e ▸ ha⟩
    · exact ⟨w, owns_of_update_of_ne e hb⟩
  refine ⟨fun b q w hb => ?_, fun b c q w w' hb hc => ?_, fun u q hu => ?_, fun u q b w hu hb => ?_⟩
  · obtain ⟨w, hb⟩ := before b q w hb
    exact h.held_owned b q w hb
  · obtain ⟨w, hb⟩ := before b q w hb
    obtain ⟨w', hc⟩ := before c q w' hc
    exact h.unique b c q w w' hb hc
  · rcases hn u q hu with ⟨hu, -⟩ | ⟨-, rfl⟩
    · exact h.held_named u q hu
    · exact h.held_owned a q v ha
  · by_cases e : b = a
    · rw [e, update_self] at hb
      cases hb
      rcases hn u p hu with ⟨hu, ne⟩ | ⟨hv, -⟩
      · exact absurd (h.own_name u p a v hu ha) ne
      · exact hv
    · have had := owns_of_update_of_ne e hb
      rcases hn u q hu with ⟨hu, -⟩ | ⟨-, rfl⟩
      · exact h.own_name u q b w hu had
      · exact absurd (h.unique b a q w v had ha) e

theorem move (h : Leased owns named held) {a : ω} {x : π × Option κ} (ha : owns a = some x)
    (b : ω) : Leased (update (update owns a none) b (some x)) named held := by
  have before : ∀ c y, update (update owns a none) b (some x) c = some y →
      (c = b ∧ y = x) ∨ (c ≠ a ∧ c ≠ b ∧ owns c = some y) := by
    intro c y hc
    by_cases eb : c = b
    · rw [eb, update_self] at hc
      exact Or.inl ⟨eb, (Option.some.inj hc).symm⟩
    · have hc := owns_of_update_of_ne eb hc
      by_cases ea : c = a
      · rw [ea, update_self] at hc
        cases hc
      · exact Or.inr ⟨ea, eb, owns_of_update_of_ne ea hc⟩
  refine ⟨fun c p v hc => ?_, fun c d p v w hc hd => ?_, h.held_named, fun v p c w hv hc => ?_⟩
  · rcases before c _ hc with ⟨-, rfl⟩ | ⟨-, -, hc⟩
    · exact h.held_owned a p v ha
    · exact h.held_owned c p v hc
  · rcases before c _ hc with ⟨ec, hx⟩ | ⟨ca, -, hadc⟩ <;>
      rcases before d _ hd with ⟨ed, hx'⟩ | ⟨da, -, hadd⟩
    · rw [ec, ed]
    · exact absurd (h.unique d a p w v hadd (hx ▸ ha)) da
    · exact absurd (h.unique c a p v w hadc (hx' ▸ ha)) ca
    · exact h.unique c d p v w hadc hadd
  · rcases before c _ hc with ⟨-, rfl⟩ | ⟨-, -, hc⟩
    · exact h.own_name v p a w hv ha
    · exact h.own_name v p c w hv hc

theorem release [DecidableEq π] (h : Leased owns named held) {a : ω} {p : π}
    (ha : owns a = some (p, none)) :
    Leased (update owns a none) named (held.filter (· ≠ p)) := by
  have dropped := h.drop a
  refine ⟨fun b q v hb => ?_, dropped.unique, fun v q hv => ?_, dropped.own_name⟩
  · have hq := dropped.held_owned b q v hb
    refine List.mem_filter.2 ⟨hq, decide_eq_true ?_⟩
    rintro rfl
    by_cases e : b = a
    · rw [e, update_self] at hb
      cases hb
    · exact e (h.unique b a q v none (owns_of_update_of_ne e hb) ha)
  · refine List.mem_filter.2 ⟨h.held_named v q hv, decide_eq_true ?_⟩
    rintro rfl
    cases h.own_name v q a none hv ha

end Leased

end Polycube.Lib
