import Mathlib.Data.BitVec
import Mathlib.Data.Option.Basic
import Polycube.Lib.Run

/-!
# The saving thread

`CubesDump` writes the configuration of the cubes to a file from a thread of its own.  Requests
change the configuration and count the change under a mutex, the saving thread takes a copy and
sets the count back under it, and the destructor sets a flag and notifies without it.  So a
notification of the destructor may come between the check of the thread and its wait, and is lost.
-/

namespace Polycube.Polycubed.Saving

open Lib

/-- Where the saving thread is in `SaveToFile`. -/
inductive Saver (C : Type)
  /-- at the head of the loop -/
  | top
  /-- with the mutex, at the first `if` -/
  | first
  /-- with the mutex, at the `wait` -/
  | toWait
  | waiting
  /-- notified, at the mutex -/
  | woken
  /-- with the mutex, at the second `if` -/
  | second
  /-- without the mutex, with a copy to write -/
  | writing (copy : C)
  | ended
  deriving DecidableEq

inductive Destructor
  | alive | killing | notified | joined
  deriving DecidableEq

variable {C : Type}

def Saver.locks : Saver C → Bool
  | .first | .toWait | .second => true
  | _ => false

def Saver.copy : Saver C → Option C
  | .writing c => some c
  | _ => none

/-- `notify_one`: no other thread waits. -/
def Saver.notified : Saver C → Saver C
  | .waiting => .woken
  | p => p

/-- The object, its threads and the file, as the configuration it says.  The last three fields are
of the run: what the file said at first, whether something else than the load of that has changed
the configuration, and whether a copy has been taken. -/
structure State (C : Type) where
  config : C
  file : C
  pending : BitVec 32
  enabled : Bool
  kill : Bool
  saver : Saver C
  destructor : Destructor
  original : C
  touched : Bool
  copied : Bool

def State.new (empty file : C) (pending : BitVec 32) : State C where
  config := empty
  file := file
  pending := pending
  enabled := false
  kill := false
  saver := .top
  destructor := .alive
  original := file
  touched := false
  copied := false

/-- `UpdateCubesConfig`, `UpdatePortPeer` and `UpdatePortTCubes`, in any thread: one critical
section.  An update may be part of the load of the file, and may throw in the middle. -/
def State.update (c : C) (load throws : Bool) (s : State C) : State C :=
  if s.saver.locks then s
  else if throws then { s with config := c }
  else if s.enabled then
    { s with config := c, pending := s.pending + 1, saver := s.saver.notified, touched := true }
  else { s with config := c, touched := s.touched || !load }

def State.save (opens : Bool) (s : State C) : State C :=
  match s.saver with
  | .top => { s with saver := .first }
  | .first => { s with saver := if s.pending = 0 ∧ s.kill = false then .toWait else .second }
  | .toWait => { s with saver := .waiting }
  | .waiting => s
  | .woken => { s with saver := .second }
  | .second =>
    if s.pending = 0 ∧ s.kill = true then { s with saver := .ended }
    else { s with saver := .writing s.config, pending := 0, copied := true }
  | .writing copy => { s with saver := .top, file := if opens then copy else s.file }
  | .ended => s

/-! The steps of the destructor. -/

/-- `kill_saving_thread_ = true` -/
def State.setKill (s : State C) : State C :=
  if s.destructor = .alive then { s with kill := true, destructor := .killing } else s

/-- `wait_for_update_.notify_one()` -/
def State.notifyKilled (s : State C) : State C :=
  if s.destructor = .killing then { s with saver := s.saver.notified, destructor := .notified }
  else s

def State.join (s : State C) : State C :=
  match s.saver with
  | .ended => if s.destructor = .notified then { s with destructor := .joined } else s
  | _ => s

inductive Event (C : Type)
  | update (c : C) (load throws : Bool)
  | enable
  | save (opens : Bool)
  /-- `wait` returns though nobody has notified -/
  | spurious
  | kill
  | notify
  | join

def State.step (s : State C) : Event C → State C
  | .update c load throws => s.update c load throws
  | .enable => { s with enabled := true }
  | .save opens => s.save opens
  | .spurious => { s with saver := s.saver.notified }
  | .kill => s.setKill
  | .notify => s.notifyKilled
  | .join => s.join

/-! ### Nothing is lost -/

def Saved (s : State C) : Prop := s.file = s.config ∨ s.touched = false ∧ s.file = s.original

/-- When the thread has ended, or waits with no shutdown requested, everything is saved; it does
not wait with a shutdown requested unless the destructor is yet to notify it. -/
structure Lossless (s : State C) : Prop where
  ended : s.saver = .ended → Saved s
  waiting : s.saver = .waiting → s.kill = false → Saved s
  notification : s.saver = .waiting → s.kill = true → s.destructor = .killing

/-- Updates come before the thread has ended, do not throw after a change, are counted without
wrapping around, and where they are not counted are part of the load, before a copy is taken; the
file opens; and the destructor does not notify between the check of the thread and its wait. -/
def Fine (s : State C) : Event C → Prop
  | .update c load throws =>
    s.saver.locks = false → s.saver ≠ .ended ∧
      if throws then c = s.config
      else if s.enabled then s.pending + 1 ≠ 0
      else load = true ∧ s.copied = false
  | .save opens => ∀ copy ∈ s.saver.copy, opens = true ∨ copy = s.file
  | .notify => s.destructor = .killing → s.saver ≠ .toWait
  | .enable | .spurious | .kill | .join => True

instance [DecidableEq C] (s : State C) : DecidablePred (Fine s)
  | .update _ _ _ => inferInstanceAs (Decidable (_ → _ ∧ _))
  | .save _ => inferInstanceAs (Decidable (∀ copy ∈ s.saver.copy, _ ∨ _))
  | .notify => inferInstanceAs (Decidable (_ → _))
  | .enable | .spurious | .kill | .join => instDecidableTrue

structure Inv (s : State C) : Prop where
  copy : ∀ copy ∈ s.saver.copy, s.pending = 0 → copy = s.config
  saved : s.saver.copy = none → s.pending = 0 → Saved s
  idle : s.saver = .toWait ∨ s.saver = .waiting ∨ s.saver = .ended → s.pending = 0
  kill : s.kill = false → s.destructor = .alive
  notification : s.saver = .toWait ∨ s.saver = .waiting → s.kill = true → s.destructor = .killing
  fresh : s.copied = false → s.file = s.original ∧ s.saver.copy = none
  disabled : s.enabled = false → s.touched = false

variable {s : State C}

theorem inv_new (empty file : C) : Inv (State.new empty file 0) where
  copy := fun _ h => by cases h
  saved := fun _ _ => Or.inr ⟨rfl, rfl⟩
  idle := fun _ => rfl
  kill := fun _ => rfl
  notification := by rintro (h | h) <;> cases h
  fresh := fun _ => ⟨rfl, rfl⟩
  disabled := fun _ => rfl

theorem Inv.lossless (h : Inv s) : Lossless s where
  ended he := h.saved (by rw [he]; rfl) (h.idle (Or.inr (Or.inr he)))
  waiting hw _ := h.saved (by rw [hw]; rfl) (h.idle (Or.inr (Or.inl hw)))
  notification hw := h.notification (Or.inr hw)

@[simp] theorem copy_notified (p : Saver C) : p.notified.copy = p.copy := by
  cases p <;> rfl

@[simp] theorem notified_eq_toWait (p : Saver C) : p.notified = .toWait ↔ p = .toWait := by
  cases p <;> simp [Saver.notified]

@[simp] theorem notified_ne_waiting (p : Saver C) : p.notified ≠ .waiting := by
  cases p <;> simp [Saver.notified]

@[simp] theorem notified_eq_ended (p : Saver C) : p.notified = .ended ↔ p = .ended := by
  cases p <;> simp [Saver.notified]

theorem Inv.update {c : C} {load throws : Bool} (h : Inv s)
    (fine : Fine s (.update c load throws)) : Inv (s.update c load throws) := by
  unfold State.update
  by_cases hl : s.saver.locks = true
  · rw [if_pos hl]
    exact h
  · rw [if_neg hl]
    obtain ⟨notEnded, fine⟩ := fine (by simpa using hl)
    have notToWait : s.saver ≠ .toWait := fun ht => hl (by rw [ht]; rfl)
    cases throws with
    | true =>
      -- nothing has changed
      have same : c = s.config := fine
      rw [if_pos rfl, same]
      exact h
    | false =>
      rw [if_neg Bool.false_ne_true] at fine ⊢
      cases he : s.enabled with
      | true =>
        rw [he, if_pos rfl] at fine
        rw [if_pos rfl]
        exact {
          copy := fun _ _ h0 => absurd h0 fine
          saved := fun _ h0 => absurd h0 fine
          idle := by
            rintro (ht | hw | hn)
            · exact absurd ((notified_eq_toWait _).1 ht) notToWait
            · exact absurd hw (notified_ne_waiting _)
            · exact absurd ((notified_eq_ended _).1 hn) notEnded
          kill := h.kill
          notification := by
            rintro (ht | hw)
            · exact absurd ((notified_eq_toWait _).1 ht) notToWait
            · exact absurd hw (notified_ne_waiting _)
          fresh := fun hc => ⟨(h.fresh hc).1, (copy_notified _).trans (h.fresh hc).2⟩
          disabled := fun hd => Bool.noConfusion hd }
      | false =>
        rw [he, if_neg Bool.false_ne_true] at fine
        rw [if_neg Bool.false_ne_true]
        obtain ⟨rfl, hc⟩ := fine
        have untouched : (s.touched || !true) = false := by rw [h.disabled he]; rfl
        exact {
          copy := fun copy hcopy => by
            rw [(h.fresh hc).2] at hcopy
            cases hcopy
          saved := fun _ _ => Or.inr ⟨untouched, (h.fresh hc).1⟩
          idle := h.idle
          kill := h.kill
          notification := h.notification
          fresh := h.fresh
          disabled := fun _ => untouched }

theorem Inv.save {opens : Bool} (h : Inv s) (fine : Fine s (.save opens)) : Inv (s.save opens) := by
  have fresh : ∀ copy, s.saver = .writing copy → s.copied = true := fun copy hw => by
    by_contra hc
    have none := (h.fresh (by simpa using hc)).2
    rw [hw] at none
    cases none
  unfold State.save
  split
  · -- the mutex is taken
    rename_i hs
    have none : s.saver.copy = none := by rw [hs]; rfl
    exact ⟨fun _ h => (by cases h), fun _ => h.saved none, by simp, h.kill, by simp,
      fun hc => ⟨(h.fresh hc).1, rfl⟩, h.disabled⟩
  · -- the first check
    rename_i hs
    have none : s.saver.copy = none := by rw [hs]; rfl
    split_ifs with hw
    · refine ⟨fun _ h => (by cases h), fun _ => h.saved none, fun _ => hw.1, h.kill, ?_,
        fun hc => ⟨(h.fresh hc).1, rfl⟩, h.disabled⟩
      intro _ hk
      rw [show s.kill = true from hk] at hw
      exact absurd hw.2 (by decide)
    · exact ⟨fun _ h => (by cases h), fun _ => h.saved none, by simp, h.kill, by simp,
        fun hc => ⟨(h.fresh hc).1, rfl⟩, h.disabled⟩
  · -- the wait gives the mutex back
    rename_i hs
    have none : s.saver.copy = none := by rw [hs]; rfl
    exact ⟨fun _ h => (by cases h), fun _ => h.saved none, fun _ => h.idle (Or.inl hs), h.kill,
      fun _ => h.notification (Or.inl hs), fun hc => ⟨(h.fresh hc).1, rfl⟩, h.disabled⟩
  · exact h
  · rename_i hs
    have none : s.saver.copy = none := by rw [hs]; rfl
    exact ⟨fun _ h => (by cases h), fun _ => h.saved none, by simp, h.kill, by simp,
      fun hc => ⟨(h.fresh hc).1, rfl⟩, h.disabled⟩
  · -- the second check
    rename_i hs
    have none : s.saver.copy = none := by rw [hs]; rfl
    split_ifs with hw
    · exact ⟨fun _ h => (by cases h), fun _ => h.saved none, fun _ => hw.1, h.kill, by simp,
        fun hc => ⟨(h.fresh hc).1, rfl⟩, h.disabled⟩
    · exact ⟨fun copy hcopy _ => (Option.some.inj hcopy).symm, fun hn => (by cases hn), by simp,
        h.kill, by simp, fun hc => Bool.noConfusion hc, h.disabled⟩
  · -- the copy is written
    rename_i copy hs
    have mem : copy ∈ s.saver.copy := by rw [hs]; rfl
    refine ⟨fun _ h => (by cases h), fun _ h0 => Or.inl ?_, by simp, h.kill, by simp,
      fun hc => ?_, h.disabled⟩
    · show (if opens then copy else s.file) = s.config
      rw [← h.copy copy mem h0]
      rcases fine copy mem with ho | hf
      · rw [if_pos ho]
      · rw [hf]
        split_ifs <;> rfl
    · rw [show s.copied = true from fresh copy hs] at hc
      cases hc
  · exact h

/-- A notification, of the destructor or of nobody, outside the window. -/
theorem Inv.notified (h : Inv s) : Inv { s with saver := s.saver.notified } where
  copy := by
    rw [copy_notified]
    exact h.copy
  saved := by
    rw [copy_notified]
    exact h.saved
  idle := by
    rintro (ht | hw | he)
    · exact h.idle (Or.inl ((notified_eq_toWait _).1 ht))
    · exact absurd hw (notified_ne_waiting _)
    · exact h.idle (Or.inr (Or.inr ((notified_eq_ended _).1 he)))
  kill := h.kill
  notification := by
    rintro (ht | hw)
    · exact h.notification (Or.inl ((notified_eq_toWait _).1 ht))
    · exact absurd hw (notified_ne_waiting _)
  fresh hc := ⟨(h.fresh hc).1, (copy_notified _).trans (h.fresh hc).2⟩
  disabled := h.disabled

theorem Inv.setKill (h : Inv s) : Inv s.setKill := by
  unfold State.setKill
  split_ifs
  · exact { h with kill := fun hk => Bool.noConfusion hk, notification := fun _ _ => rfl }
  · exact h

theorem Inv.notifyKilled (h : Inv s) (fine : Fine s .notify) : Inv s.notifyKilled := by
  unfold State.notifyKilled
  split_ifs with hk
  · refine { h.notified with kill := fun h0 => ?_, notification := ?_ }
    · rw [h.kill h0] at hk
      cases hk
    · rintro (ht | hw)
      · exact absurd ((notified_eq_toWait _).1 ht) (fine hk)
      · exact absurd hw (notified_ne_waiting _)
  · exact h

theorem Inv.join (h : Inv s) : Inv s.join := by
  unfold State.join
  split
  · rename_i he
    split_ifs with hd
    · refine { h with kill := fun h0 => ?_, notification := ?_ }
      · rw [h.kill h0] at hd
        cases hd
      · rintro (ht | hw)
        · rw [show s.saver = .toWait from ht] at he
          cases he
        · rw [show s.saver = .waiting from hw] at he
          cases he
    · exact h
  · exact h

theorem Inv.step (e : Event C) (h : Inv s) (fine : Fine s e) : Inv (s.step e) := by
  cases e with
  | update c load throws => exact h.update fine
  | enable => exact { h with disabled := fun hd => Bool.noConfusion hd }
  | save opens => exact h.save fine
  | spurious => exact h.notified
  | kill => exact h.setKill
  | notify => exact h.notifyKilled fine
  | join => exact h.join

/-- In every run of fine steps, in any order, nothing is lost and the thread is not left waiting. -/
theorem lossless_of_run (empty file : C) (pending : BitVec 32) (zero : pending = 0)
    (events : List (Event C)) (fine : Meets State.step Fine (State.new empty file pending) events) :
    Lossless (run State.step (State.new empty file pending) events) := by
  subst zero
  exact (run_induction (fun _ e h => h.step e) (inv_new empty file) fine).lossless

/-- The file is loaded and saving enabled; there is an update while the thread waits, another one
while it writes, and the destructor comes after that. -/
def someEvents : List (Event ℕ) :=
  [.save true, .update 5 true false, .save true, .save true, .enable, .update 6 false false,
    .save true, .save true, .update 7 false false, .save true, .kill, .save true, .notify,
    .save true, .save true, .save true, .save true, .save true, .save true, .join]

theorem lossless_someEvents : Lossless (run State.step (State.new 0 5 0) someEvents) :=
  lossless_of_run 0 5 0 rfl someEvents (by decide +kernel)

/-- The destructor notifies between the check and the wait, and the thread waits for ever. -/
theorem not_lossless_window :
    ¬ ∀ events : List (Event ℕ), Lossless (run State.step (State.new 0 0 0) events) := by
  intro h
  have stuck := h [.save true, .save true, .kill, .notify, .save true]
  have killing := stuck.notification (by decide +kernel) (by decide +kernel)
  exact absurd killing (by decide +kernel)

end Polycube.Polycubed.Saving
