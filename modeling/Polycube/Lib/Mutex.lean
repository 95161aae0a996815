import Polycube.Lib.Throwing

/-!
# Calls under a mutex

A call changes what the mutex protects.  It returns, throws, or waits for ever for the mutex, which
is not recursive: a call that takes it while it is held does not go on, even if the holder is the
caller.
-/

namespace Polycube.Lib

variable {σ α β : Type}

inductive Stop
  | threw (message : String)
  | blocked
  deriving DecidableEq

structure Mutexed (σ : Type) where
  state : σ
  held : Bool

abbrev Call (σ α : Type) := EStateM Stop (Mutexed σ) α

def Mutexed.free (s : σ) : Mutexed σ := ⟨s, false⟩

namespace Call

def throwing (message : String) : Call σ α := throw (.threw message)

def throwIf (p : Prop) [Decidable p] (message : String) : Call σ Unit :=
  if p then throwing message else pure ()

def read : Call σ σ := do return (← get).state

def write (s : σ) : Call σ Unit := modify fun m => { m with state := s }

/-- `std::lock_guard`, for as long as the body runs. -/
def lockGuard (body : Call σ α) : Call σ α := fun m =>
  if m.held then .error .blocked m
  else match body { m with held := true } with
    | .ok a m' => .ok a { m' with held := false }
    | .error (.threw message) m' => .error (.threw message) { m' with held := false }
    | .error .blocked m' => .error .blocked m'

/-- `try` and `catch`. -/
def catching (body : Call σ α) (handler : String → Call σ α) : Call σ α := fun m =>
  match body m with
  | .ok a m' => .ok a m'
  | .error (.threw message) m' => handler message m'
  | .error .blocked m' => .error .blocked m'

def forEach (f : β → Call σ Unit) : List β → Call σ Unit
  | [] => pure ()
  | b :: bs => do
    f b
    forEach f bs

def after (x : Call σ α) (m : Mutexed σ) : Mutexed σ :=
  match x.run m with
  | .ok _ m' => m'
  | .error _ m' => m'

def Finishes (x : Call σ α) (m : Mutexed σ) : Prop := wp x (fun _ _ => True) (fun e _ => e ≠ .blocked) m

variable {x : Call σ α} {m m' : Mutexed σ} {s : σ} {ok : α → Mutexed σ → Prop}
  {err : Stop → Mutexed σ → Prop} {message : String} {handler : String → Call σ α}

/-! ### Rules -/

theorem wp_after {Q : Mutexed σ → Prop} : wp x (fun _ => Q) (fun _ => Q) m ↔ Q (x.after m) := by
  unfold wp after
  cases x.run m <;> rfl

@[simp] theorem wp_read {ok : σ → Mutexed σ → Prop} :
    wp (read : Call σ σ) ok err m ↔ ok m.state m := Iff.rfl

@[simp] theorem wp_write {ok : Unit → Mutexed σ → Prop} :
    wp (write s) ok err m ↔ ok () { m with state := s } := Iff.rfl

@[simp] theorem wp_catching : wp (x.catching handler) ok err m ↔
    wp x ok (fun e m' => match e with
      | .threw message => wp (handler message) ok err m'
      | .blocked => err .blocked m') m := by
  unfold wp
  have run : (x.catching handler).run m = match x.run m with
      | .ok a m' => .ok a m'
      | .error (.threw message) m' => (handler message).run m'
      | .error .blocked m' => .error .blocked m' := rfl
  rw [run]
  cases x.run m with
  | ok a m' => rfl
  | error e m' => cases e <;> rfl

/-- A call that takes the held mutex blocks, and changes nothing. -/
theorem wp_lockGuard_held (held : m.held = true) :
    wp (lockGuard x) ok err m ↔ err .blocked m := by
  have run : (lockGuard x).run m = .error .blocked m := if_pos held
  unfold wp
  rw [run]

/-- When the mutex is free the body runs under it; it stays held if the body blocks. -/
theorem wp_lockGuard_free (free : m.held = false) : wp (lockGuard x) ok err m ↔
    wp x (fun a m' => ok a { m' with held := false })
      (fun e m' => match e with
        | .threw message => err (.threw message) { m' with held := false }
        | .blocked => err .blocked m') { m with held := true } := by
  have run : (lockGuard x).run m = match x.run { m with held := true } with
      | .ok a m' => .ok a { m' with held := false }
      | .error (.threw message) m' => .error (.threw message) { m' with held := false }
      | .error .blocked m' => .error .blocked m' :=
    if_neg (ne_true_of_eq_false free)
  unfold wp
  rw [run]
  cases x.run { m with held := true } with
  | ok a m' => rfl
  | error e m' => cases e <;> rfl

/-- The call finishes, and then `Q` holds, whether it has returned or thrown. -/
def Ends (x : Call σ α) (Q : Mutexed σ → Prop) (m : Mutexed σ) : Prop :=
  wp x (fun _ => Q) (fun e m' => e ≠ .blocked ∧ Q m') m

variable {Q Q' : Mutexed σ → Prop} {f : α → Call σ β}

theorem Ends.mono (h : Ends x Q m) (imp : ∀ m', Q m' → Q' m') : Ends x Q' m :=
  wp_mono h (fun _ => imp) fun _ m' h => ⟨h.1, imp m' h.2⟩

theorem Ends.finishes (h : Ends x Q m) : x.Finishes m :=
  wp_mono h (fun _ _ _ => trivial) fun _ _ h => h.1

theorem Ends.after (h : Ends x Q m) : Q (x.after m) :=
  wp_after.1 (wp_mono h (fun _ _ => id) fun _ _ h => h.2)

theorem ends_pure {a : α} (h : Q m) : Ends (pure a : Call σ α) Q m := h

theorem ends_throwing (h : Q m) : Ends (throwing message : Call σ α) Q m :=
  ⟨by simp, h⟩

theorem ends_bind (hx : Ends x Q m) (hf : ∀ a m', Q m' → Ends (f a) Q m') :
    Ends (x >>= f) Q m := by
  unfold Ends
  rw [wp_bind]
  exact wp_mono hx (fun a m' => hf a m') fun _ _ => id

theorem ends_catching (hx : Ends x Q m) (hh : ∀ message m', Q m' → Ends (handler message) Q m') :
    Ends (x.catching handler) Q m := by
  unfold Ends
  rw [wp_catching]
  refine wp_mono hx (fun _ _ => id) fun e m' h => ?_
  cases e with
  | threw message => exact hh message m' h.2
  | blocked => exact absurd rfl h.1

theorem ends_lockGuard (free : m.held = false)
    (hx : Ends x (fun m' => Q { m' with held := false }) { m with held := true }) :
    Ends (lockGuard x) Q m := by
  unfold Ends
  rw [wp_lockGuard_free free]
  refine wp_mono hx (fun _ _ => id) fun e m' h => ?_
  cases e with
  | threw message => exact ⟨by simp, h.2⟩
  | blocked => exact absurd rfl h.1

theorem ends_guarded {R : σ → Prop} (free : m.held = false)
    (hx : Ends x (fun m' => R m'.state) { m with held := true }) :
    Ends (lockGuard x) (fun m' => R m'.state ∧ m'.held = false) m :=
  ends_lockGuard free (hx.mono fun _ h => ⟨h, rfl⟩)

theorem ends_read {g : σ → Call σ α} (h : Ends (g m.state) Q m) : Ends (read >>= g) Q m := h

theorem ends_throwIf {p : Prop} [Decidable p] {g : Unit → Call σ α} (h : Q m)
    (hg : ¬ p → Ends (g ()) Q m) : Ends (throwIf p message >>= g) Q m := by
  unfold throwIf
  by_cases thrown : p
  · rw [if_pos thrown]
    exact ⟨by simp, h⟩
  · rw [if_neg thrown]
    exact hg thrown

def Blocks (x : Call σ α) (m : Mutexed σ) : Prop :=
  wp x (fun _ _ => False) (fun e m' => e = .blocked ∧ m' = m) m

theorem Blocks.after (h : Blocks x m) : x.after m = m :=
  wp_after.1 (wp_mono h (fun _ _ => False.elim) fun _ _ h => h.2)

theorem blocks_lockGuard (held : m.held = true) : Blocks (lockGuard x) m :=
  (wp_lockGuard_held held).2 ⟨rfl, rfl⟩

theorem blocks_bind (h : Blocks x m) : Blocks (x >>= f) m := by
  unfold Blocks
  rw [wp_bind]
  exact wp_mono h (fun _ _ => False.elim) fun _ _ => id

theorem blocks_catching (h : Blocks x m) : Blocks (x.catching handler) m := by
  unfold Blocks
  rw [wp_catching]
  refine wp_mono h (fun _ _ => False.elim) fun e m' h => ?_
  obtain ⟨rfl, same⟩ := h
  exact ⟨rfl, same⟩

end Call

end Polycube.Lib
