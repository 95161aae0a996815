import Mathlib.Logic.Basic

/-!
# Computations that throw

A computation changes a state and either returns or throws; when it throws, the state stays as it
has got.  `wp` says what holds at the end, one way or the other.
-/

namespace Polycube.Lib

variable {ε σ α β : Type}

/-- From a state, the computation returns with `ok` or throws with `err`. -/
def wp (x : EStateM ε σ α) (ok : α → σ → Prop) (err : ε → σ → Prop) (s : σ) : Prop :=
  match x.run s with
  | .ok a s' => ok a s'
  | .error e s' => err e s'

variable {ok : α → σ → Prop} {err : ε → σ → Prop} {s : σ}

theorem wp_mono {ok' : α → σ → Prop} {err' : ε → σ → Prop} {x : EStateM ε σ α}
    (h : wp x ok err s) (hok : ∀ a s', ok a s' → ok' a s')
    (herr : ∀ e s', err e s' → err' e s') : wp x ok' err' s := by
  unfold wp at h ⊢
  split at h
  · exact hok _ _ h
  · exact herr _ _ h

theorem wp_and {ok' : α → σ → Prop} {err' : ε → σ → Prop} {x : EStateM ε σ α}
    (h : wp x ok err s) (h' : wp x ok' err' s) :
    wp x (fun a s' => ok a s' ∧ ok' a s') (fun e s' => err e s' ∧ err' e s') s := by
  unfold wp at h h' ⊢
  split at h
  · exact ⟨h, by simp_all⟩
  · exact ⟨h, by simp_all⟩

@[simp] theorem wp_pure {a : α} : wp (pure a) ok err s ↔ ok a s := Iff.rfl

@[simp] theorem wp_throw {e : ε} : wp (throw e : EStateM ε σ α) ok err s ↔ err e s := Iff.rfl

@[simp] theorem wp_bind {x : EStateM ε σ β} {f : β → EStateM ε σ α} :
    wp (x >>= f) ok err s ↔ wp x (fun b s' => wp (f b) ok err s') err s := by
  unfold wp
  rw [EStateM.run_bind]
  cases x.run s <;> rfl

@[simp] theorem wp_map {x : EStateM ε σ β} {f : β → α} :
    wp (f <$> x) ok err s ↔ wp x (fun b => ok (f b)) err s := by
  rw [← bind_pure_comp, wp_bind]
  rfl

@[simp] theorem wp_get {ok : σ → σ → Prop} :
    wp (get : EStateM ε σ σ) ok err s ↔ ok s s := Iff.rfl

@[simp] theorem wp_set {s' : σ} {ok : PUnit → σ → Prop} :
    wp (set s' : EStateM ε σ PUnit) ok err s ↔ ok ⟨⟩ s' := Iff.rfl

@[simp] theorem wp_modify {f : σ → σ} {ok : PUnit → σ → Prop} :
    wp (modify f : EStateM ε σ PUnit) ok err s ↔ ok ⟨⟩ (f s) := Iff.rfl

@[simp] theorem wp_ite {c : Prop} [Decidable c] {x y : EStateM ε σ α} :
    wp (if c then x else y) ok err s ↔ if c then wp x ok err s else wp y ok err s := by
  split <;> rfl

@[simp] theorem wp_tryCatch {x : EStateM ε σ α} {f : ε → EStateM ε σ α} :
    wp (tryCatch x f) ok err s ↔ wp x ok (fun e s' => wp (f e) ok err s') s := by
  unfold wp
  have run : (tryCatch x f).run s =
      match x.run s with
      | .ok a s' => .ok a s'
      | .error e s' => (f e).run s' := by
    simp only [EStateM.run, tryCatch, tryCatchThe, MonadExceptOf.tryCatch]
    unfold EStateM.tryCatch
    cases x s <;> rfl
  rw [run]
  cases x.run s <;> rfl

theorem bind_eq_ok_iff {x : Except ε α} {f : α → Except ε β} {b : β} :
    (x >>= f) = .ok b ↔ ∃ a, x = .ok a ∧ f a = .ok b := by
  cases x <;> simp [bind, Except.bind]

end Polycube.Lib
