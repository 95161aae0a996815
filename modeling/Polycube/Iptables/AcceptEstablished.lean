import Polycube.Iptables.Chains
import Polycube.Lib.Run

/-!
# The accept ESTABLISHED optimization

The optimization of a chain is looked at again after most edits of the chain.  Enabling it changes
this chain only.  Disabling it goes on through the cases of the chains that come later in the
switch, and the case of `OUTPUT` loads the wrong program.  While no edit gets there, and none
changes the first rule without a look at it, the optimization of every chain is enabled exactly when
its first rule is `conntrack ESTABLISHED -> ACCEPT`.
-/

namespace Polycube.Iptables

open Lib
open Function (update_of_ne update_self update update_eq_self)

variable {s s' : State} {name : ChainNameEnum} {rules : Rules} {loads : Bool}

/-- The chain starts with `conntrack ESTABLISHED -> ACCEPT`. -/
def StartsAcceptEstablished (rules : Rules) : Prop :=
  ∃ id rest, rules = some { acceptEstablished with id := id } :: rest

structure State.Loaded (s : State) : Prop where
  mode : ∀ name, s.conntrackMode name = if s.acceptEstablishedEnabled name then .on else .off
  loaded : ∀ name, s.loadedMode name = s.conntrackMode name

/-- The chains whose optimization must be off when that of `name` is disabled: the cases that come
after it, and `OUTPUT` itself. -/
def reached : ChainNameEnum → List ChainNameEnum
  | .input => [.forward, .output]
  | .forward => [.output]
  | .output => [.output]

def State.Quiet (s : State) (name : ChainNameEnum) (rules : Rules) : Prop :=
  acceptEstablishedOptimizationFound rules = true ∨
    ∀ other ∈ reached name, s.acceptEstablishedEnabled other = false

structure Evaluated (s s' : State) (name : ChainNameEnum) (on : Bool) : Prop where
  enabled : s'.acceptEstablishedEnabled = update s.acceptEstablishedEnabled name on
  mode : s'.conntrackMode = update s.conntrackMode name (if on then .on else .off)
  loadedMode : s'.loadedMode = update s.loadedMode name (if on then .on else .off)
  rules : s'.rules = s.rules
  interactive : s'.interactive = s.interactive

theorem Evaluated.refl (h : s.Loaded) (name : ChainNameEnum) :
    Evaluated s s name (s.acceptEstablishedEnabled name) where
  enabled := (update_eq_self _ _).symm
  mode := by rw [← h.mode, update_eq_self]
  loadedMode := by rw [← h.mode, ← h.loaded, update_eq_self]
  rules := rfl
  interactive := rfl

/-- For every chain without pending edits the optimization is enabled exactly when the first rule is
the one of the optimization, and for all chains the mode and the program that is loaded follow. -/
structure State.Bookkept (s : State) : Prop extends s.Loaded where
  enabled_iff : ∀ name, s.pending name = false →
    (s.acceptEstablishedEnabled name = true ↔ StartsAcceptEstablished (s.rules name))

structure Untouched (s s' : State) (name : ChainNameEnum) : Prop where
  rules : ∀ other ≠ name, s'.rules other = s.rules other
  pending : ∀ other ≠ name, s'.pending other = s.pending other
  enabled : ∀ other ≠ name, s'.acceptEstablishedEnabled other = s.acceptEstablishedEnabled other
  mode : ∀ other ≠ name, s'.conntrackMode other = s.conntrackMode other
  loadedMode : ∀ other ≠ name, s'.loadedMode other = s.loadedMode other

theorem Untouched.refl (s : State) (name : ChainNameEnum) : Untouched s s name :=
  ⟨fun _ _ => rfl, fun _ _ => rfl, fun _ _ => rfl, fun _ _ => rfl, fun _ _ => rfl⟩

theorem Untouched.trans {s'' : State} (h : Untouched s s' name) (h' : Untouched s' s'' name) :
    Untouched s s'' name where
  rules other ne := (h'.rules other ne).trans (h.rules other ne)
  pending other ne := (h'.pending other ne).trans (h.pending other ne)
  enabled other ne := (h'.enabled other ne).trans (h.enabled other ne)
  mode other ne := (h'.mode other ne).trans (h.mode other ne)
  loadedMode other ne := (h'.loadedMode other ne).trans (h.loadedMode other ne)

/-- An edit without a look at the chain leaves the answer about the first rule as it was, unless the
chain has pending edits. -/
def State.Same (s : State) (name : ChainNameEnum) (rules : Rules) : Prop :=
  s.pending name = false →
    acceptEstablishedOptimizationFound rules = acceptEstablishedOptimizationFound (s.rules name)

/-- In interactive mode an edit is safe when the look that follows it is quiet, or, when the programs
cannot be loaded and no look follows, when it is not needed. -/
def State.SafeEdit (s : State) (name : ChainNameEnum) (loads : Bool) (rules : Rules) : Prop :=
  s.interactive = true → if loads = true then s.Quiet name rules else s.Same name rules

def Keeps (s : State) (name : ChainNameEnum) (result : Result) : Prop :=
  ∀ outcome s', result = some (outcome, s') → s'.Bookkept ∧ Untouched s s' name

theorem disableCase_frame (s : State) (name : ChainNameEnum) :
    (s.disableCase name).rules = s.rules ∧ (s.disableCase name).interactive = s.interactive := by
  unfold State.disableCase
  split
  · exact ⟨rfl, rfl⟩
  · exact ⟨rfl, rfl⟩

theorem apply_frame (s : State) (name : ChainNameEnum) :
    (s.applyAcceptEstablishedOptimization name).rules = s.rules ∧
      (s.applyAcceptEstablishedOptimization name).interactive = s.interactive := by
  unfold State.applyAcceptEstablishedOptimization
  split
  · unfold State.enableAcceptEstablished
    split
    · exact ⟨rfl, rfl⟩
    · cases name with
      | input => exact ⟨rfl, rfl⟩
      | forward => exact ⟨rfl, rfl⟩
      | output => exact ⟨rfl, rfl⟩
  · cases name with
    | input =>
      simp only [State.disableAcceptEstablished, (disableCase_frame _ _).1,
        (disableCase_frame _ _).2, and_self]
    | forward =>
      simp only [State.disableAcceptEstablished, (disableCase_frame _ _).1,
        (disableCase_frame _ _).2, and_self]
    | output => exact disableCase_frame s .output

theorem delRule_returns {id : ℕ} (e : s.delRule name id loads = some (.returns, s')) :
    (∃ r, (s.rules name)[id]? = some (some r)) ∧ s'.rules name = eraseAt (s.rules name) id ∧
      s'.interactive = s.interactive := by
  have edited : (s.setRules name (eraseAt (s.rules name) id)).rules name =
      eraseAt (s.rules name) id := update_self ..
  unfold State.delRule at e
  split at e
  · cases e
  split at e
  · cases e
  · cases e
  next r hr =>
    refine ⟨⟨r, hr⟩, ?_⟩
    split at e
    · cases e
    dsimp only at e
    split at e
    · obtain ⟨outcome, -, e⟩ := Option.map_eq_some_iff.1 e
      cases e
      rw [(apply_frame _ _).1, (apply_frame _ _).2]
      exact ⟨edited, rfl⟩
    · cases e
      exact ⟨edited, rfl⟩

/-- No look at the chain gets to a wrong case of the switch, and no edit without a look changes what
a look would find. -/
def Op.Safe (op : Op) (s : State) (name : ChainNameEnum) (loads : Bool) : Prop :=
  match op with
  | .append rule => ∀ r, rule = some r → s.SafeEdit name loads
      (overwrite (s.rules name) (s.rules name).length { r with id := (s.rules name).length })
  | .insert id rule => id ≤ (s.rules name).length → ∀ r, rule = some r →
      s.SafeEdit name loads (insertAt (s.rules name) id r)
  | .deletes rule =>
    ((rule = none → (s.rules name).any Option.isSome = false) →
      (∀ c, rule = some c → (s.rules name).findIdx? (fun r => r.any fun r => r.equal c) = none) →
        s.Quiet name (s.rules name)) ∧
    ∀ c i, rule = some c → (s.rules name).findIdx? (fun r => r.any fun r => r.equal c) = some i →
      s.interactive = true → s.Quiet name (eraseAt (s.rules name) i)
  | .addRule id rule => ∀ r, rule = some r → s.interactive = true →
      s.Same name (overwrite (s.rules name) id r)
  | .replaceRule id newId rule _ => ∀ r, (s.rules name)[id]? = some (some r) →
      s.interactive = true → s.Quiet name (eraseAt (s.rules name) id) ∧ ∀ r, rule = some r →
        acceptEstablishedOptimizationFound (overwrite (eraseAt (s.rules name) id) newId r) =
          acceptEstablishedOptimizationFound (eraseAt (s.rules name) id)
  | .delRule id => ∀ r, (s.rules name)[id]? = some (some r) → s.interactive = true →
      s.Quiet name (eraseAt (s.rules name) id)
  | .delRuleList => s.interactive = true → s.Quiet name []
  | .applyRules => s.Quiet name (s.rules name)

def Event.Safe (s : State) : Event → Prop
  | .edit name op loads => op.Safe s name loads
  | .setInteractive _ => True

end Polycube.Iptables
