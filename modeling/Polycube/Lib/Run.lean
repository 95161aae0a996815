import Mathlib.Data.List.Basic

/-!
# Runs

A system takes one step for each event of a list.  What every step keeps, as long as it meets a
condition on the event and on the state before it, holds after every run whose steps all meet it.
-/

namespace Polycube.Lib

variable {σ α : Type*} (step : σ → α → σ)

def run (s : σ) (as : List α) : σ := as.foldl step s

@[simp] theorem run_nil (s : σ) : run step s [] = s := rfl

@[simp] theorem run_cons (s : σ) (a : α) (as : List α) :
    run step s (a :: as) = run step (step s a) as := rfl

theorem run_append (s : σ) (as bs : List α) :
    run step s (as ++ bs) = run step (run step s as) bs :=
  List.foldl_append

def Meets (C : σ → α → Prop) : σ → List α → Prop
  | _, [] => True
  | s, a :: as => C s a ∧ Meets C (step s a) as

instance Meets.decidable {C : σ → α → Prop} [∀ s a, Decidable (C s a)] :
    ∀ s as, Decidable (Meets step C s as)
  | _, [] => inferInstanceAs (Decidable True)
  | s, a :: as => @instDecidableAnd (C s a) _ _ (Meets.decidable (step s a) as)

variable {step} {P : σ → Prop} {C : σ → α → Prop}

theorem run_induction (keep : ∀ s a, P s → C s a → P (step s a)) {s : σ} {as : List α}
    (start : P s) (meets : Meets step C s as) : P (run step s as) := by
  induction as generalizing s with
  | nil => exact start
  | cons a as ih => exact ih (keep s a start meets.1) meets.2

theorem run_invariant (keep : ∀ s a, P s → P (step s a)) {s : σ} (as : List α) (start : P s) :
    P (run step s as) := by
  induction as generalizing s with
  | nil => exact start
  | cons a as ih => exact ih (keep s a start)

/-- A condition that gives another one where an invariant holds gives it in whole runs. -/
theorem Meets.imp {D : σ → α → Prop} (keep : ∀ s a, P s → C s a → P (step s a))
    (imp : ∀ s a, P s → C s a → D s a) {s : σ} {as : List α} (start : P s)
    (meets : Meets step C s as) : Meets step D s as := by
  induction as generalizing s with
  | nil => trivial
  | cons a as ih => exact ⟨imp s a start meets.1, ih (keep s a start meets.1) meets.2⟩

/-- Two conditions that agree where an invariant holds are met by the same runs, when a step that
meets them keeps the invariant. -/
theorem meets_congr {D : σ → α → Prop} (same : ∀ s a, P s → (C s a ↔ D s a))
    (keep : ∀ s a, P s → D s a → P (step s a)) {s : σ} {as : List α} (start : P s) :
    Meets step C s as ↔ Meets step D s as := by
  induction as generalizing s with
  | nil => exact Iff.rfl
  | cons a as ih =>
    unfold Meets
    rw [same s a start]
    exact and_congr_right fun h => ih (keep s a start h)

/-! ### Steps that leave the outcome open -/

variable {R : σ → α → σ → Prop}

inductive Runs (R : σ → α → σ → Prop) : σ → List α → σ → Prop
  | nil (s : σ) : Runs R s [] s
  | cons {s s' s'' : σ} {a : α} {as : List α} (step : R s a s') (rest : Runs R s' as s'') :
    Runs R s (a :: as) s''

theorem Runs.induction (keep : ∀ s a s', P s → R s a s' → P s') {s s' : σ} {as : List α}
    (start : P s) (runs : Runs R s as s') : P s' := by
  induction runs with
  | nil s => exact start
  | cons step rest ih => exact ih (keep _ _ _ start step)

/-- A step that is one of the possible ones, under a condition, runs in the same way. -/
theorem Runs.of_meets (possible : ∀ s a, C s a → R s a (step s a)) {s : σ} {as : List α}
    (meets : Meets step C s as) : Runs R s as (run step s as) := by
  induction as generalizing s with
  | nil => exact .nil s
  | cons a as ih => exact .cons (possible s a meets.1) (ih meets.2)

end Polycube.Lib
