import Mathlib.Logic.Basic
import Mathlib.Tactic.Common

/-!
# Attempts

A function that may throw leaves a state and tells whether it threw.  It is undone when, if it
threw, what `view` shows of the state is as it was.  A sequence is undone when its first part is and
the second one, after what the first has changed, is too.
-/

namespace Polycube.Lib

variable {σ τ ε : Type*}

abbrev Attempt (σ ε : Type*) := σ × Except ε Unit

namespace Attempt

def andThen (a : Attempt σ ε) (f : σ → Attempt σ ε) : Attempt σ ε :=
  match a with
  | (s, .ok ()) => f s
  | (s, .error e) => (s, .error e)

def Returns (a : Attempt σ ε) : Prop := a.2 = .ok ()

def Undone (view : σ → τ) (s : σ) (a : Attempt σ ε) : Prop :=
  ∀ e, a.2 = .error e → view a.1 = view s

variable {view : σ → τ} {s s' : σ} {a : Attempt σ ε} {f : σ → Attempt σ ε} {e : ε}

theorem returns_ok : Returns ((s, .ok ()) : Attempt σ ε) := rfl

theorem not_returns_error : ¬ Returns ((s, .error e) : Attempt σ ε) := by
  intro h
  cases h

theorem andThen_of_returns (h : a.Returns) : a.andThen f = f a.1 := by
  obtain ⟨s, o⟩ := a
  obtain rfl : o = .ok () := h
  rfl

theorem andThen_of_not_returns (h : ¬ a.Returns) : a.andThen f = a := by
  obtain ⟨s, o⟩ := a
  cases o with
  | ok u => exact absurd rfl h
  | error e => rfl

theorem returns_andThen_iff : (a.andThen f).Returns ↔ a.Returns ∧ (f a.1).Returns := by
  by_cases h : a.Returns
  · rw [andThen_of_returns h, and_iff_right h]
  · rw [andThen_of_not_returns h]
    exact iff_of_false h fun both => h both.1

theorem undone_of_returns (h : a.Returns) : a.Undone view s := by
  intro e thrown
  rw [show a.2 = .ok () from h] at thrown
  cases thrown

theorem undone_iff_of_not_returns (h : ¬ a.Returns) : a.Undone view s ↔ view a.1 = view s := by
  obtain ⟨s', o⟩ := a
  cases o with
  | ok u => exact absurd rfl h
  | error e => exact ⟨fun undone => undone e rfl, fun same _ _ => same⟩

theorem undone_of_view (h : view a.1 = view s) : a.Undone view s := fun _ _ => h

theorem undone_andThen_iff : (a.andThen f).Undone view s ↔
    a.Undone view s ∧ (a.Returns → (f a.1).Undone view s) := by
  by_cases h : a.Returns
  · rw [andThen_of_returns h, and_iff_right (undone_of_returns h), forall_prop_of_true h]
  · rw [andThen_of_not_returns h, and_iff_left fun returns => absurd returns h]

end Attempt

end Polycube.Lib
