import Mathlib.Data.Finset.Max
import Mathlib.Order.Interval.Finset.Nat
import Polycube.Lib.Throwing
import Polycube.Polycubed.Chains

/-!
# Patch panels

The two patch panels map indices to programs.  They take the indices from one set, which both
share; each has a table and presence flags of its own, and `remove` clears both flags but the entry
of one table only.  `add` reads the first index of the set and does not ask whether there is one.
-/

namespace Polycube.Polycubed

/-- Why an operation does not return: a `std::runtime_error`, an exception of what the repository
only calls (the compiler, the kernel, a peer), or undefined behaviour. -/
inductive Fault
  | runtimeError (what : String)
  | outside
  | undefined
  deriving DecidableEq

def put {κ ι α : Type} [DecidableEq κ] [DecidableEq ι] (f : κ → ι → α) (k : κ) (i : ι) (v : α) :
    κ → ι → α :=
  fun k' i' => if k' = k ∧ i' = i then v else f k' i'

section Arrays

variable {κ ι α : Type} [DecidableEq κ] [DecidableEq ι] {f : κ → ι → α} {k k' : κ} {i i' : ι} {v : α}

theorem put_apply : put f k i v k' i' = if k' = k ∧ i' = i then v else f k' i' := rfl

@[simp] theorem put_same : put f k i v k i = v := if_pos ⟨rfl, rfl⟩

theorem put_of_ne (h : i' ≠ i) : put f k i v k' i' = f k' i' := if_neg fun e => h e.2

theorem put_other (h : k' ≠ k) : put f k i v k' = f k' := funext fun _ => if_neg fun e => h e.1

@[simp] theorem put_put {w : α} : put (put f k i w) k i v = put f k i v := by
  funext k' i'
  simp only [put]
  split <;> rfl

theorem put_eq_self (h : f k i = v) : put f k i v = f := by
  funext k' i'
  rw [put_apply]
  split
  · next e => rw [e.1, e.2, h]
  · rfl

end Arrays

def attempt {σ α : Type} (f : σ → Except Fault (α × σ)) : EStateM Fault σ α :=
  fun s => match f s with
    | .ok (a, s') => .ok a s'
    | .error e => .error e s

@[simp] theorem wp_attempt {σ α : Type} {f : σ → Except Fault (α × σ)} {ok : α → σ → Prop}
    {err : Fault → σ → Prop} {s : σ} : Lib.wp (attempt f) ok err s ↔
      match f s with
      | .ok (a, s') => ok a s'
      | .error e => err e s := by
  simp only [Lib.wp, attempt, EStateM.run]
  generalize f s = r
  rcases r with e | ⟨a, s'⟩ <;> rfl

def build {σ : Type} : Option ℕ → EStateM Fault σ ℕ
  | some fd => pure fd
  | none => throw .outside

/-- `_POLYCUBE_MAX_NODES` -/
def maxNodes : ℕ := 1024

/-- `_POLYCUBE_MAX_BPF_PROGRAMS` -/
def maxPrograms : ℕ := 64

structure PatchPanels where
  nodeIds : Finset ℕ
  present : PortType → ℕ → Bool
  nodes : PortType → ℕ → Option ℕ

namespace PatchPanels

variable (p : PatchPanels) (k : PortType) (index fd : ℕ)

def start : PatchPanels := ⟨Finset.Ico 1 maxNodes, fun _ _ => false, fun _ _ => none⟩

def register : PatchPanels where
  nodeIds := p.nodeIds.erase index
  present := put p.present k index true
  nodes := put p.nodes k index (some fd)

def add : Except Fault (ℕ × PatchPanels) :=
  if h : p.nodeIds.Nonempty then .ok (p.nodeIds.min' h, p.register k (p.nodeIds.min' h) fd)
  -- `*begin()` of an empty set
  else .error .undefined

def addAt : Except Fault PatchPanels :=
  if p.present k index then .error (.runtimeError "Index is busy")
  else .ok (p.register k index fd)

def remove : PatchPanels where
  nodeIds := insert index p.nodeIds
  present := fun k' i => if i = index then false else p.present k' i
  nodes := put p.nodes k index none

def update : Except Fault PatchPanels :=
  if p.present k index then .ok { p with nodes := put p.nodes k index (some fd) }
  else .error (.runtimeError "Index is not registered")

variable {p k index}

theorem update_eq (present : p.present k index = true) (taken : index ∉ p.nodeIds) :
    p.update k index fd = .ok (p.register k index fd) := by
  rw [update, if_pos present, register, Finset.erase_eq_of_notMem taken, put_eq_self present]

end PatchPanels

end Polycube.Polycubed
