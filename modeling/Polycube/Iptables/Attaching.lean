import Mathlib.Logic.Function.Basic
import Polycube.Lib.Run

/-!
# The interfaces the cube is attached to

`attachInterfaces` compares the available interfaces with `connected_ports_`, to which a name is
added before its port is made and connected.  What fails on the way is not noted, so the interface
counts as connected from then on, as does one as gone whose port could not be removed.
-/

namespace Polycube.Iptables.Attaching

open Function Lib

/-- What becomes of `add_port`: it makes the port, or throws and leaves none, or one that is not
configured. -/
inductive Adding
  | done | refused | halfMade
  deriving DecidableEq

/-- A notification: the available interfaces, and which calls for a port are going to succeed. -/
structure Notification where
  ifaces : List String
  add : String → Adding
  connect : String → Bool
  remove : String → Bool

/-- `connected_ports_`, and the ports of the cube with their peers. -/
structure State where
  connected : List String
  ports : String → Option (Option String)

def State.init : State := ⟨[], fun _ => none⟩

def ignored : List String := [":host", "pcn_tc_cp", "pcn_xdp_cp"]

/-- `connected_ports_new` -/
def Notification.new (n : Notification) : List String := n.ifaces.filter (· ∉ ignored)

def State.setPort (s : State) (name : String) (port : Option (Option String)) : State :=
  { s with ports := update s.ports name port }

/-! ### Calls

An error carries the state in which the exception is thrown. -/

def addPorts (n : Notification) (name : String) (s : State) : Except State State :=
  if (s.ports name).isSome then .error s
  else match n.add name with
    | .done => .ok (s.setPort name (some none))
    | .refused => .error s
    | .halfMade => .error (s.setPort name (some none))

def setPeer (n : Notification) (name : String) (s : State) : Except State State :=
  if n.connect name then .ok (s.setPort name (some (some name))) else .error s

def delPorts (n : Notification) (name : String) (s : State) : Except State State :=
  if (s.ports name).isNone then .error s
  else if n.remove name then .ok (s.setPort name none) else .error s

/-- A function that returns whether it has been left by an exception, which it catches. -/
def caught : Except State State → Except State (State × Bool)
  | .ok s => .ok (s, true)
  | .error s => .ok (s, false)

def connectPort (n : Notification) (name : String) (s : State) : Except State (State × Bool) :=
  caught (addPorts n name s >>= setPeer n name)

def disconnectPort (n : Notification) (name : String) (s : State) : Except State (State × Bool) :=
  caught (delPorts n name s)

def attach (n : Notification) (s : State) (name : String) : State :=
  if name ∈ s.connected then s
  else match connectPort n name { s with connected := name :: s.connected } with
    | .ok (s, _) => s
    | .error s => s

/-- The second loop, which does not go on to the next element after an exception. -/
def detach (n : Notification) : ℕ → List String → State → Option State
  | _, [], s => some s
  | 0, _ :: _, _ => none
  | fuel + 1, name :: rest, s =>
    if name ∈ n.new then detach n fuel rest s
    else match disconnectPort n name s with
      | .ok (s, _) => detach n fuel rest { s with connected := s.connected.filter (· ≠ name) }
      | .error s => detach n fuel (name :: rest) s

def attachInterfaces (fuel : ℕ) (n : Notification) (s : State) : Option State :=
  let s := n.new.foldl (attach n) s
  detach n fuel s.connected s

/-- The names that are connected or become so are all the loops have to go through. -/
def notify (s : State) (n : Notification) : State :=
  (attachInterfaces (n.new.foldl (attach n) s).connected.length n s).getD s

/-- No call that is made fails. -/
def Clean (s : State) (n : Notification) : Prop :=
  (∀ name ∈ n.new, name ∉ s.connected →
    s.ports name = none ∧ n.add name = .done ∧ n.connect name = true) ∧
  ∀ name ∈ s.connected, name ∉ n.new → (s.ports name).isSome ∧ n.remove name = true

instance (s : State) (n : Notification) : Decidable (Clean s n) := by
  unfold Clean
  infer_instance

def Connected (s : State) : Prop := ∀ name ∈ s.connected, s.ports name = some (some name)

def Exact (n : Notification) (s : State) : Prop := ∀ name, (s.ports name).isSome ↔ name ∈ n.new

variable {n : Notification} {s : State}

theorem detach_isSome {fuel : ℕ} {rest : List String} (enough : rest.length ≤ fuel) :
    (detach n fuel rest s).isSome := by
  induction rest generalizing fuel s with
  | nil =>
    unfold detach
    rfl
  | cons name rest ih =>
    obtain ⟨fuel, rfl⟩ : ∃ k, fuel = k + 1 := ⟨fuel - 1, by simp at enough; omega⟩
    have enough : rest.length ≤ fuel := by simpa using enough
    unfold detach disconnectPort
    split_ifs
    · exact ih enough
    · cases delPorts n name s <;> exact ih enough

/-- The ports are those of the connected names, each with its peer. -/
def Inv (s : State) : Prop :=
  ∀ name, s.ports name = if name ∈ s.connected then some (some name) else none

theorem attach_of_done {name : String} (inv : Inv s)
    (calls : name ∉ s.connected → n.add name = .done ∧ n.connect name = true) :
    Inv (attach n s name) ∧
      ∀ x, x ∈ (attach n s name).connected ↔ x = name ∨ x ∈ s.connected := by
  unfold attach
  split_ifs with old
  · exact ⟨inv, fun x => ⟨.inr, fun h => h.elim (· ▸ old) id⟩⟩
  · obtain ⟨add, connect⟩ := calls old
    have none : s.ports name = none := by rw [inv, if_neg old]
    have made : connectPort n name { s with connected := name :: s.connected } =
        .ok (⟨name :: s.connected, update s.ports name (some (some name))⟩, true) := by
      simp [connectPort, addPorts, setPeer, caught, none, add, connect, State.setPort, bind,
        Except.bind]
    rw [made]
    refine ⟨fun x => ?_, fun x => List.mem_cons⟩
    by_cases same : x = name
    · simp [same]
    · simp [inv x, same]

theorem attached {names : List String} (inv : Inv s)
    (calls : ∀ name ∈ names, name ∉ s.connected → n.add name = .done ∧ n.connect name = true) :
    Inv (names.foldl (attach n) s) ∧
      ∀ x, x ∈ (names.foldl (attach n) s).connected ↔ x ∈ names ∨ x ∈ s.connected := by
  induction names generalizing s with
  | nil => exact ⟨inv, by simp⟩
  | cons name names ih =>
    obtain ⟨inv', mem⟩ := attach_of_done inv (calls name List.mem_cons_self)
    obtain ⟨last, mem'⟩ := ih inv' fun x hx new =>
      calls x (List.mem_cons_of_mem name hx) fun old => new ((mem x).2 (.inr old))
    refine ⟨last, fun x => ?_⟩
    rw [List.foldl_cons, mem', mem, List.mem_cons]
    tauto

theorem detached {fuel : ℕ} {rest : List String} {s' : State} (inv : Inv s)
    (calls : ∀ name ∈ rest, name ∉ n.new → n.remove name = true)
    (ends : detach n fuel rest s = some s') :
    Inv s' ∧ ∀ x, x ∈ s'.connected ↔ x ∈ s.connected ∧ (x ∈ rest → x ∈ n.new) := by
  induction rest generalizing fuel s with
  | nil =>
    unfold detach at ends
    obtain rfl := Option.some.inj ends
    exact ⟨inv, by simp⟩
  | cons name rest ih =>
    cases fuel with
    | zero => cases ends
    | succ fuel =>
      have others (x : String) (hx : x ∈ rest) := calls x (List.mem_cons_of_mem name hx)
      unfold detach at ends
      split_ifs at ends with stays
      · obtain ⟨last, mem⟩ := ih inv others ends
        refine ⟨last, fun x => ?_⟩
        rw [mem, List.mem_cons]
        grind
      · -- the port goes, if it is still there
        have gone : disconnectPort n name s = .ok (s.setPort name none, (s.ports name).isSome) := by
          cases port : s.ports name with
          | none =>
            have same : s.setPort name none = s := by
              unfold State.setPort
              rw [← port, update_eq_self]
            simp [disconnectPort, delPorts, caught, port, same]
          | some p => simp [disconnectPort, delPorts, caught, port, calls name List.mem_cons_self stays]
        simp only [gone] at ends
        have inv' : Inv ⟨s.connected.filter (· ≠ name), update s.ports name none⟩ := by
          intro x
          by_cases same : x = name
          · simp [same]
          · simp [inv x, same]
        obtain ⟨last, mem⟩ := ih inv' others ends
        refine ⟨last, fun x => ?_⟩
        rw [mem, List.mem_cons]
        grind

theorem inv_notify (inv : Inv s) (clean : Clean s n) :
    Inv (notify s n) ∧ ∀ x, x ∈ (notify s n).connected ↔ x ∈ n.new := by
  obtain ⟨inv', mem⟩ := attached inv fun x hx new => (clean.1 x hx new).2
  obtain ⟨s', ends⟩ := Option.isSome_iff_exists.1
    (detach_isSome (n := n) (s := n.new.foldl (attach n) s) (Nat.le_refl _))
  obtain ⟨last, mem'⟩ := detached inv' (fun x hx old =>
    (clean.2 x (((mem x).1 hx).resolve_left old) old).2) ends
  have run : notify s n = s' := by
    unfold notify attachInterfaces
    rw [ends, Option.getD_some]
  rw [run]
  refine ⟨last, fun x => ?_⟩
  rw [mem', mem]
  tauto

/-- Every notification is worked off, and as long as no call fails, the ports after one are those of
the available interfaces, and connected. -/
theorem current_of_run (ns : List Notification) (n : Notification) :
    (∀ s, (attachInterfaces (n.new.foldl (attach n) s).connected.length n s).isSome) ∧
      let s := run notify State.init ns
      (Meets notify Clean State.init ns → Clean s n →
        Connected (notify s n) ∧ Exact n (notify s n)) := by
  refine ⟨fun s => detach_isSome (Nat.le_refl _), fun before clean => ?_⟩
  have start : Inv State.init := fun name => (if_neg List.not_mem_nil).symm
  have inv : Inv (run notify State.init ns) :=
    run_induction (P := Inv) (fun _ _ inv clean => (inv_notify inv clean).1) start before
  obtain ⟨last, mem⟩ := inv_notify inv clean
  refine ⟨fun name here => by rw [last, if_pos here], fun name => ?_⟩
  rw [last, ← mem]
  split_ifs with here <;> simp [here]

def seen (ifaces : List String) (add : Adding) : Notification :=
  ⟨":host" :: ifaces, fun _ => add, fun _ => true, fun _ => true⟩

/-- `eth0` goes away, `eth1` stays and `eth2` appears. -/
theorem current_of_run_gone :
    let n := seen ["eth1", "eth2"] .done
    let s := run notify State.init [seen ["eth0", "eth1"] .done]
    Connected (notify s n) ∧ Exact n (notify s n) :=
  (current_of_run _ _).2 ⟨by decide, trivial⟩ (by decide)

/-- An interface whose port could not be made counts as connected, and no later notification makes
its port. -/
theorem not_attached : ¬ ∀ ns n, let s := run notify State.init ns
    Connected (notify s n) ∧ (Clean s n → Exact n (notify s n)) := by
  intro attached
  have port := ((attached [seen ["eth0"] .refused] (seen ["eth0"] .done)).2 (by decide) "eth0").2 (by decide)
  revert port
  decide

end Polycube.Iptables.Attaching
