import Mathlib.Data.Nat.Basic
import Mathlib.Order.Basic

/-!
# Programs run step by step

A program is a step for each place: it goes on at a place, or it ends.  `runFrom` takes at most so
many steps.  More steps change no result, and a program that only goes forward ends.
-/

namespace Polycube.Lib

variable {σ τ ρ : Type*}

inductive Next (σ ρ : Type*)
  | goto (pc : ℕ) (s : σ)
  | halt (r : ρ)

def runFrom (step : ℕ → σ → Next σ ρ) : ℕ → ℕ → σ → Option ρ
  | 0, _, _ => none
  | n + 1, pc, s =>
    match step pc s with
    | .halt r => some r
    | .goto pc' s' => runFrom step n pc' s'

variable {step : ℕ → σ → Next σ ρ} {n m pc pc' : ℕ} {s s' : σ} {r r' : ρ}

theorem runFrom_halt (h : step pc s = .halt r) : runFrom step (n + 1) pc s = some r := by
  unfold runFrom
  rw [h]

theorem runFrom_goto (h : step pc s = .goto pc' s') :
    runFrom step (n + 1) pc s = runFrom step n pc' s' := by
  rw [runFrom.eq_2, h]

theorem runFrom_mono (h : runFrom step n pc s = some r) (le : n ≤ m) :
    runFrom step m pc s = some r := by
  induction n generalizing m pc s with
  | zero => cases h
  | succ n ih =>
    obtain ⟨m, rfl⟩ := Nat.exists_eq_add_of_le' (Nat.lt_of_lt_of_le n.succ_pos le)
    cases hstep : step pc s with
    | halt r' =>
      rw [runFrom_halt hstep] at h ⊢
      exact h
    | goto pc' s' =>
      rw [runFrom_goto hstep] at h ⊢
      exact ih h (Nat.le_of_succ_le_succ le)

theorem runFrom_unique (h : runFrom step n pc s = some r) (h' : runFrom step m pc s = some r') :
    r = r' :=
  Option.some.inj ((runFrom_mono h (le_max_left n m)).symm.trans
    (runFrom_mono h' (le_max_right n m)))

/-- A program that only goes forward, and ends behind a place, ends. -/
theorem exists_runFrom (last : ℕ) (forward : ∀ pc s pc' s', step pc s = .goto pc' s' → pc < pc')
    (ends : ∀ pc s, last ≤ pc → ∃ r, step pc s = .halt r) (h : last ≤ pc + n) (s : σ) :
    ∃ r, runFrom step (n + 1) pc s = some r := by
  induction n generalizing pc s with
  | zero =>
    obtain ⟨r, hr⟩ := ends pc s h
    exact ⟨r, runFrom_halt hr⟩
  | succ n ih =>
    cases hstep : step pc s with
    | halt r => exact ⟨r, runFrom_halt hstep⟩
    | goto pc' s' =>
      have := forward pc s pc' s' hstep
      rw [runFrom_goto hstep]
      exact ih (by omega) s'

/-- Two steps that go on alike, or end with results that are related. -/
inductive Next.Like {ρ' : Type*} (R : ρ → ρ' → Prop) : Next σ ρ → Next σ ρ' → Prop
  | goto (pc : ℕ) (s : σ) : Next.Like R (.goto pc s) (.goto pc s)
  | halt {r : ρ} {r' : ρ'} (h : R r r') : Next.Like R (.halt r) (.halt r')

/-- What a program returns is related to what one returns whose steps are like its own. -/
theorem exists_runFrom_of_like {ρ' : Type*} {step' : ℕ → σ → Next σ ρ'} {R : ρ → ρ' → Prop}
    (like : ∀ pc s, Next.Like R (step pc s) (step' pc s)) (h : runFrom step n pc s = some r) :
    ∃ r', runFrom step' n pc s = some r' ∧ R r r' := by
  induction n generalizing pc s with
  | zero => cases h
  | succ n ih =>
    have both := like pc s
    cases hstep : step pc s with
    | halt r₀ =>
      rw [hstep] at both
      cases hstep' : step' pc s with
      | goto pc' s' =>
        rw [hstep'] at both
        cases both
      | halt r' =>
        rw [hstep'] at both
        rw [runFrom_halt hstep] at h
        cases both with
        | halt hr =>
          cases h
          exact ⟨r', runFrom_halt hstep', hr⟩
    | goto pc' s' =>
      rw [hstep] at both
      rw [runFrom_goto hstep] at h
      cases hstep' : step' pc s with
      | halt r' =>
        rw [hstep'] at both
        cases both
      | goto pc'' s'' =>
        rw [hstep'] at both
        cases both
        rw [runFrom_goto hstep']
        exact ih h

end Polycube.Lib
