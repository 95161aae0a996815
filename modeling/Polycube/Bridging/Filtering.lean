import Polycube.Bridging.Datapath
import Polycube.Bridging.Fdb
import Polycube.Bridging.Mirror

/-!
# What the filtering database is used for

Frames, the clock and the configuration change the filtering database in any order.  Beside a run
stand the frames that it has let in.  A dynamic entry is refreshed by the frames that it forwards,
so what it is used for goes back to a frame from its address by steps of at most the aging time.
Without such a refresh the entry is used at most the aging time after that frame.
-/

namespace Polycube.Bridging.Filtering

open Lib

/-! ### Runs -/

/-- `timestamp` is the clock of the datapath.  A port is in `unfinished` when its destructor has not
come to its end: it waits for the mutex, or has thrown. -/
structure State where
  fdb : Mutexed Fdb
  code : Code
  timestamp : BitVec 32
  unfinished : List ℕ

inductive Event
  | frame (inIfc : ℕ) (f : Frame)
  | updateTimestamp (now : BitVec 32)
  | request (r : Fdb.Request)
  | update (now later : BitVec 32) (conf : FdbEntryConf)
  | setAgingTime (value : BitVec 32) (reloaded : Bool)
  | flushOldEntries (now : BitVec 32) (vlan : Vlan) (maxAge : BitVec 32)
  | configure (e : Bridge.Event) (reloaded : Bool)

namespace State

def bridge (s : State) : Bridge := s.fdb.state.parent

def table (s : State) : FwdMap := s.fdb.state.fwdtable

def setBridge (s : State) (b : Bridge) : State :=
  { s with fdb := { s.fdb with state := { s.fdb.state with parent := b } } }

def setTable (s : State) (t : FwdMap) : State :=
  { s with fdb := { s.fdb with state := { s.fdb.state with fwdtable := t } } }

def call {α : Type} (s : State) (x : Call Fdb α) : State := { s with fdb := x.after s.fdb }

def receive (s : State) (inIfc : ℕ) (f : Frame) : Verdict × State :=
  match s.bridge.portAt inIfc with
  | none => (.drop, s)
  | some _ =>
    let r := handleRx s.code s.bridge.tables s.timestamp s.table inIfc f
    (r.1, s.setTable r.2)

/-- `Fdb::setAgingTime`; a reload that fails is logged. -/
def setAgingTime (s : State) (value : BitVec 32) (reloaded : Bool) : State :=
  if s.fdb.state.agingTime = value then s
  else
    { s with
      fdb := { s.fdb with state := { s.fdb.state with agingTime := value } }
      code := if reloaded then ⟨s.bridge.stpEnabled, value⟩ else s.code }

/-- `delPorts`, with the flush at the end of the destructor. -/
def delPorts (s : State) (name : String) : State :=
  match s.bridge.portNamed name with
  | none => s
  | some p =>
    let removed := s.setBridge (s.bridge.delPorts name)
    match PortOp.destroy.run ⟨s.bridge, p⟩ with
    | .error _ _ => { removed with unfinished := p.index :: s.unfinished }
    | .ok _ _ =>
      if s.fdb.held then { removed with unfinished := p.index :: s.unfinished }
      else removed.call (Fdb.flushByPort p.index)

def reloadCodeWithStp (s : State) (reloaded : Bool) : Bridge.Event → Code
  | .setStpEnabled value =>
    if s.bridge.stpEnabled ≠ value ∧ reloaded = true then ⟨value, s.fdb.state.agingTime⟩ else s.code
  | _ => s.code

def configure (s : State) (e : Bridge.Event) (reloaded : Bool) : State :=
  match e with
  | .delPorts name => s.delPorts name
  | e => { s.setBridge (s.bridge.step e) with code := s.reloadCodeWithStp reloaded e }

def step (s : State) : Event → State
  | .frame inIfc f => (s.receive inIfc f).2
  | .updateTimestamp now => { s with timestamp := now }
  | .request r => s.call r.call
  | .update now later conf => s.call (Fdb.update now later conf)
  | .setAgingTime value reloaded => s.setAgingTime value reloaded
  | .flushOldEntries now vlan maxAge => s.call (Fdb.flushOldEntries now vlan maxAge)
  | .configure e reloaded => s.configure e reloaded

def start (stpEnabled : Bool) (agingTime : BitVec 32) : State where
  fdb := .free ⟨.empty stpEnabled, agingTime, .empty⟩
  code := ⟨stpEnabled, agingTime⟩
  timestamp := 0
  unfinished := []

end State

structure Sighting where
  vlan : Vlan
  src : Mac
  dst : Mac
  port : ℕ
  time : BitVec 32
  agingTime : BitVec 32
  deriving DecidableEq

namespace State

def sighting (s : State) (inIfc : ℕ) (f : Frame) : Option Sighting := do
  let _ ← s.bridge.portAt inIfc
  let (vlanid, _) ← classify s.bridge.tables inIfc f
  return ⟨vlanid, f.src, f.dst, inIfc, s.timestamp, s.code.agingTime⟩

def seen (s : State) (before : List Sighting) : Event → List Sighting
  | .frame inIfc f => (s.sighting inIfc f).toList ++ before
  | _ => before

def track (s : State × List Sighting) (e : Event) : State × List Sighting :=
  (s.1.step e, s.1.seen s.2 e)

end State

/-- A frame from the address was received on the port, and after it frames for the address, each at
most the aging time after the last one.  The time is that of the last. -/
inductive Vouched : List Sighting → FwdKey → ℕ → BitVec 32 → Prop
  | received {x : Sighting} {before : List Sighting} :
    Vouched (x :: before) (x.vlan, x.src) x.port x.time
  | used {x : Sighting} {before : List Sighting} {port : ℕ} {time : BitVec 32} :
    Vouched before (x.vlan, x.dst) port time → ¬ x.agingTime < x.time - time →
      Vouched (x :: before) (x.vlan, x.dst) port x.time
  | later {x : Sighting} {before : List Sighting} {key : FwdKey} {port : ℕ} {time : BitVec 32} :
    Vouched before key port time → Vouched (x :: before) key port time

/-- A frame from the address was received on the port at that time. -/
def Heard (seen : List Sighting) (key : FwdKey) (port : ℕ) (time : BitVec 32) : Prop :=
  ∃ x ∈ seen, (x.vlan, x.src) = key ∧ x.port = port ∧ x.time = time

/-- What the frames before it say about a dynamic entry: its key, its port and its timestamp. -/
abbrev Record := List Sighting → FwdKey → ℕ → BitVec 32 → Prop

def Backs (R : Record) (seen : List Sighting) (t : FwdMap) : Prop :=
  ∀ key e, t.get key = some e → e.type = .dynamic → R seen key e.port e.timestamp

/-- A record stays, and a frame makes one for its source. -/
structure Record.Lasts (R : Record) : Prop where
  received : ∀ x before, R (x :: before) (x.vlan, x.src) x.port x.time
  later : ∀ x before key port time, R before key port time → R (x :: before) key port time

theorem lasts_vouched : Record.Lasts Vouched where
  received _ _ := .received
  later _ _ _ _ _ := .later

theorem lasts_heard : Record.Lasts Heard where
  received x _ := ⟨x, List.mem_cons_self, rfl, rfl, rfl⟩
  later _ _ _ _ _ := fun ⟨x, hx, same⟩ => ⟨x, List.mem_cons_of_mem _ hx, same⟩

/-! ### What a frame does to the table -/

section

variable {c : Code} {t : Tables} {now : BitVec 32} {fdb : FwdMap} {inIfc : ℕ} {f : Frame}
  {vlanid : Vlan} {key : FwdKey} {e : FwdEntry}

/-- An entry after the learning phase was there, or is the new one in the place of none that is
static. -/
theorem learn_get (has : (learn fdb now inIfc vlanid f).get key = some e) :
    fdb.get key = some e ∨ key = (vlanid, f.src) ∧ e = ⟨now, inIfc, .dynamic⟩ := by
  unfold learn at has
  split at has
  · exact .inl has
  · cases set : fdb.set (vlanid, f.src) ⟨now, inIfc, .dynamic⟩ with
    | none =>
      rw [set] at has
      exact .inl has
    | some fdb' =>
      rw [set, Option.getD_some, HashTable.get_set set] at has
      split at has
      · rename_i same
        exact .inr ⟨same, (Option.some.inj has).symm⟩
      · exact .inl has

theorem mem_keys_of_get (has : fdb.get key = some e) : key ∈ fdb.entries.map Prod.fst := by
  by_contra missing
  rw [HashTable.get_eq_none_iff.2 missing] at has
  cases has

/-- A frame moves the entry of its source to now. -/
theorem learn_own (has : fdb.get (vlanid, f.src) = some e) (dynamic : e.type ≠ .static) :
    (learn fdb now inIfc vlanid f).get (vlanid, f.src) = some ⟨now, inIfc, .dynamic⟩ := by
  have made : fdb.set (vlanid, f.src) ⟨now, inIfc, .dynamic⟩ =
      some (fdb.replace (vlanid, f.src) ⟨now, inIfc, .dynamic⟩) := dif_neg (not_not.2 (mem_keys_of_get has))
  unfold learn
  split
  · rename_i static
    rw [has, Option.some.injEq] at static
    rw [static] at dynamic
    exact absurd rfl dynamic
  · rw [made, Option.getD_some, HashTable.get_set made, if_pos rfl]

/-- The frame gets as far as the lookup of its destination. -/
def Passes (c : Code) (entry : PortVlanValue) (f : Frame) : Prop :=
  c.stpEnabled = true → f.isBpdu = false ∧ entry.stpState.forwards = true

/-- What a frame leaves: nothing new, or the table after the learning phase, in which the dynamic
entry for the destination may have been removed or refreshed. -/
inductive Left (c : Code) (now : BitVec 32) (entry : PortVlanValue) (fdb : FwdMap) (vlanid : Vlan)
    (f : Frame) : FwdMap → Prop
  | same : Left c now entry fdb vlanid f fdb
  | removed {e : FwdEntry} : fdb.get (vlanid, f.dst) = some e → e.type ≠ .static →
      Left c now entry fdb vlanid f (fdb.erase (vlanid, f.dst))
  | refreshed {e : FwdEntry} : Passes c entry f → fdb.get (vlanid, f.dst) = some e →
      e.type ≠ .static → ¬ c.agingTime < now - e.timestamp →
      Left c now entry fdb vlanid f (fdb.replace (vlanid, f.dst) { e with timestamp := now })

variable (c t now fdb inIfc f) in
theorem handleRx_cases : (handleRx c t now fdb inIfc f).2 = fdb ∨
    ∃ vlanid entry, classify t inIfc f = some (vlanid, entry) ∧
      Left c now entry (learn fdb now inIfc vlanid f) vlanid f (handleRx c t now fdb inIfc f).2 := by
  unfold handleRx
  split
  · exact .inl rfl
  · rename_i vlanid entry found
    dsimp only
    split
    · exact .inl rfl
    · rename_i notBpdu
      split
      · exact .inl rfl
      · refine .inr ⟨vlanid, entry, found, ?_⟩
        split
        · exact .same
        · rename_i forwards
          split
          · exact .same
          · rename_i e has
            split
            · exact .same
            · rename_i dynamic
              split
              · exact .removed has dynamic
              · rename_i young
                refine .refreshed (fun enabled => ?_) has dynamic young
                rw [enabled, Bool.true_and, Bool.not_eq_true] at notBpdu
                rw [enabled, Bool.true_and, Bool.not_eq_true, Bool.not_eq_false'] at forwards
                exact ⟨notBpdu, forwards⟩

theorem Left.static {entry : PortVlanValue} {fdb' : FwdMap}
    (left : Left c now entry fdb vlanid f fdb')
    (has : fdb.get key = some e) (static : e.type = .static) : fdb'.get key = some e := by
  have other : ∀ e', fdb.get (vlanid, f.dst) = some e' → e'.type ≠ .static →
      key ≠ (vlanid, f.dst) := by
    rintro e' there dynamic rfl
    rw [has, Option.some.injEq] at there
    exact dynamic (there ▸ static)
  cases left with
  | same => exact has
  | removed there dynamic => rw [HashTable.get_erase, if_neg (other _ there dynamic), has]
  | refreshed _ there dynamic _ =>
    rw [HashTable.get_replace (mem_keys_of_get there), if_neg (other _ there dynamic), has]

/-- An entry that a frame leaves was there, if need be with another timestamp. -/
theorem Left.get {entry : PortVlanValue} {fdb' : FwdMap}
    (left : Left c now entry fdb vlanid f fdb') (has : fdb'.get key = some e) :
    fdb.get key = some e ∨
      ∃ e', Passes c entry f ∧ key = (vlanid, f.dst) ∧ fdb.get key = some e' ∧ e'.type ≠ .static ∧
        ¬ c.agingTime < now - e'.timestamp ∧ e = { e' with timestamp := now } := by
  cases left with
  | same => exact .inl has
  | removed there dynamic =>
    rw [HashTable.get_erase] at has
    exact .inl (Option.ite_none_left_eq_some.1 has).2
  | @refreshed e' passes there dynamic young =>
    rw [HashTable.get_replace (mem_keys_of_get there)] at has
    split at has
    · rename_i same
      exact .inr ⟨e', passes, same, same ▸ there, dynamic, young, (Option.some.inj has).symm⟩
    · exact .inl has

theorem handleRx_static (has : fdb.get key = some e) (static : e.type = .static) :
    (handleRx c t now fdb inIfc f).2.get key = some e := by
  rcases handleRx_cases c t now fdb inIfc f with
    same | ⟨vlanid, entry, -, left⟩
  · rw [same]
    exact has
  · exact left.static (learn_static has static) static

/-- The entries after a frame have ports of entries before it, or the one that it came from. -/
theorem handleRx_port (has : (handleRx c t now fdb inIfc f).2.get key = some e) :
    e.port = inIfc ∨ ∃ e', fdb.get key = some e' ∧ e'.port = e.port := by
  rcases handleRx_cases c t now fdb inIfc f with
    same | ⟨vlanid, entry, -, left⟩
  · rw [same] at has
    exact .inr ⟨e, has, rfl⟩
  have learned : ∃ e', (learn fdb now inIfc vlanid f).get key = some e' ∧ e'.port = e.port := by
    rcases left.get has with there | ⟨e', -, -, there, -, -, rfl⟩
    · exact ⟨e, there, rfl⟩
    · exact ⟨e', there, rfl⟩
  obtain ⟨e', there, port⟩ := learned
  rcases learn_get there with before | ⟨-, rfl⟩
  · exact .inr ⟨e', before, port⟩
  · exact .inl port.symm

/-- The frame that has been learned and the ones before it back the entries that it leaves, if they
back the one that it refreshes. -/
theorem backs_handleRx {R : Record} {before : List Sighting} {entry : PortVlanValue}
    (lasts : R.Lasts) (h : Backs R before fdb) (found : classify t inIfc f = some (vlanid, entry))
    (used : ∀ e, Passes c entry f → f.dst ≠ f.src → fdb.get (vlanid, f.dst) = some e →
      e.type = .dynamic → ¬ c.agingTime < now - e.timestamp →
        R (⟨vlanid, f.src, f.dst, inIfc, now, c.agingTime⟩ :: before) (vlanid, f.dst) e.port now) :
    Backs R (⟨vlanid, f.src, f.dst, inIfc, now, c.agingTime⟩ :: before)
      (handleRx c t now fdb inIfc f).2 := by
  rcases handleRx_cases c t now fdb inIfc f with
    same | ⟨vlanid', entry', found', left⟩
  · rw [same]
    exact fun key e has dynamic => lasts.later _ _ _ _ _ (h key e has dynamic)
  rw [found] at found'
  obtain ⟨rfl, rfl⟩ := Prod.mk.inj (Option.some.inj found')
  intro key e has dynamic
  rcases left.get has with there | ⟨e', passes, rfl, there, notStatic, young, rfl⟩
  · rcases learn_get there with old | ⟨rfl, rfl⟩
    · exact lasts.later _ _ _ _ _ (h key e old dynamic)
    · exact lasts.received ⟨vlanid, f.src, f.dst, inIfc, now, c.agingTime⟩ before
  · have received (same : (vlanid, f.dst) = (vlanid, f.src))
        (own : e' = ⟨now, inIfc, .dynamic⟩) :
        R (⟨vlanid, f.src, f.dst, inIfc, now, c.agingTime⟩ :: before) (vlanid, f.dst) e'.port now := by
      rw [same, own]
      exact lasts.received ⟨vlanid, f.src, f.dst, inIfc, now, c.agingTime⟩ before
    rcases learn_get there with old | ⟨same, own⟩
    · by_cases self : f.dst = f.src
      · rw [self] at there old
        rw [learn_own old notStatic, Option.some.injEq] at there
        exact received (by rw [self]) there.symm
      · exact used e' passes self old dynamic young
    · exact received same own

theorem handleRx_redirect {port : ℕ} {tagged : Bool}
    (sent : (handleRx c t now fdb inIfc f).1 = .redirect port tagged) :
    ∃ vlanid entry e, classify t inIfc f = some (vlanid, entry) ∧
      (learn fdb now inIfc vlanid f).get (vlanid, f.dst) = some e ∧ e.port = port ∧
        (e.type = .dynamic → ¬ c.agingTime < now - e.timestamp) ∧
          (handleRx c t now fdb inIfc f).2.get (vlanid, f.dst) =
            some (if e.type = .static then e else { e with timestamp := now }) := by
  have out : ∀ vlanid dst, forward c t inIfc vlanid dst = .redirect port tagged → dst = port := by
    intro vlanid dst h
    unfold forward at h
    repeat' split at h
    all_goals first | exact (Verdict.redirect.inj h).1 | cases h
  unfold handleRx at sent ⊢
  cases found : classify t inIfc f with
  | none =>
    rw [found] at sent
    cases sent
  | some pair =>
    obtain ⟨vlanid, entry⟩ := pair
    refine ⟨vlanid, entry, ?_⟩
    simp only [found] at sent ⊢
    by_cases bpdu : (c.stpEnabled && f.isBpdu) = true
    · rw [if_pos bpdu] at sent
      cases sent
    rw [if_neg bpdu] at sent ⊢
    by_cases learns : (c.stpEnabled && !entry.stpState.learns) = true
    · rw [if_pos learns] at sent
      cases sent
    rw [if_neg learns] at sent ⊢
    by_cases forwards : (c.stpEnabled && !entry.stpState.forwards) = true
    · rw [if_pos forwards] at sent
      cases sent
    rw [if_neg forwards] at sent ⊢
    cases has : (learn fdb now inIfc vlanid f).get (vlanid, f.dst) with
    | none =>
      rw [has] at sent
      cases sent
    | some e =>
      simp only [has] at sent ⊢
      by_cases static : e.type = .static
      · rw [if_pos static] at sent ⊢
        refine ⟨e, trivial, rfl, out _ _ sent, fun dynamic => ?_, by rw [has, if_pos static]⟩
        rw [static] at dynamic
        cases dynamic
      rw [if_neg static] at sent ⊢
      by_cases old : c.agingTime < now - e.timestamp
      · rw [if_pos old] at sent
        cases sent
      rw [if_neg old] at sent ⊢
      refine ⟨e, trivial, rfl, out _ _ sent, fun _ => old, ?_⟩
      rw [HashTable.get_replace (mem_keys_of_get has), if_pos rfl, if_neg static]

end

section

variable {b : Bridge} {index : ℕ}

def indices (b : Bridge) : List ℕ := b.ports.map Ports.index

theorem portAt_iff_mem_indices : (∃ p, b.portAt index = some p) ↔ index ∈ indices b := by
  rw [← Option.ne_none_iff_exists']
  unfold Bridge.portAt
  rw [Ne, findKey_eq_none_iff, not_not]
  rfl

theorem indices_store {p : Ports} {w : Work} (others : Others ⟨b, p⟩ w) :
    indices (w.bridge.store w.port) = indices b := by
  unfold indices Bridge.store
  rw [map_modifyKey (f := w.port.overwrite) fun _ => rfl, others.bridgePorts]

theorem indices_withPort {op : PortOp} (isLocal : PortOp.Local op) (name : String) :
    indices (b.withPort name op) = indices b := by
  unfold Bridge.withPort
  cases h : b.portNamed name with
  | none => rfl
  | some p =>
    have result := isLocal ⟨b, p⟩
    unfold wp at result
    dsimp only
    split at result <;> rename_i run <;> rw [run] <;> exact indices_store result

theorem indices_eachPort {op : PortOp} (isLocal : PortOp.Local op) (names : List String) :
    indices (Bridge.eachPort op names b) = indices b := by
  induction names generalizing b with
  | nil => rfl
  | cons name names ih =>
    rw [Bridge.eachPort]
    cases h : b.portNamed name with
    | none => exact ih
    | some p =>
      have result := isLocal ⟨b, p⟩
      unfold wp at result
      dsimp only
      split at result <;> rename_i run <;> rw [run]
      · exact ih.trans (indices_store result)
      · exact indices_store result

theorem indices_setStpEnabled (value : Bool) :
    indices (b.setStpEnabled value) = indices b := by
  unfold Bridge.setStpEnabled
  split_ifs
  · rfl
  · exact indices_eachPort PortOp.local_setStpEnabled _
  · exact indices_eachPort PortOp.local_removeStpList _

theorem indices_addPorts {name : String} {number : ℕ} {conf : PortOp.LinkConf} {stp : List Vlan}
    {junk : PortOp.Uninitialised} (h : index ∈ indices b) :
    index ∈ indices (b.addPorts name number conf stp junk) := by
  unfold Bridge.addPorts Bridge.insertPorts
  split_ifs
  · exact h
  have result := PortOp.local_create conf stp junk ⟨b, Bridge.newPort name number⟩
  unfold wp at result
  split at result <;> rename_i run <;> rw [run]
  · rename_i w
    have grown : indices { w.bridge with ports := w.bridge.ports ++ [w.port] } =
        indices b ++ [w.port.index] := by
      unfold indices
      rw [List.map_append, result.bridgePorts]
      rfl
    rw [grown]
    exact List.mem_append_left _ h
  · rename_i e w
    have removed := PortOp.local_removeStpList w
    unfold wp at removed
    dsimp only
    split at removed <;> rename_i run' <;> rw [run'] <;> unfold indices <;>
      rw [removed.bridgePorts, result.bridgePorts] <;> exact h

theorem indices_step {e : Bridge.Event} (other : ∀ name, e ≠ .delPorts name)
    (h : index ∈ indices b) : index ∈ indices (b.step e) := by
  have same : ∀ {b' : Bridge}, indices b' = indices b → index ∈ indices b' := fun same => same ▸ h
  cases e with
  | addPorts name number conf stp junk => exact indices_addPorts h
  | delPorts name => exact absurd rfl (other name)
  | setMode name value junk => exact same (indices_withPort (PortOp.local_setMode _ _) _)
  | setVlanid name value =>
    exact same (indices_withPort (PortOp.local_onAccess fun _ => PortOp.local_setVlanid _ _) _)
  | addAllowed name vlanid =>
    exact same (indices_withPort (PortOp.local_onTrunk (PortOp.local_addAllowed _)) _)
  | delAllowed name vlanid =>
    exact same (indices_withPort (PortOp.local_onTrunk (PortOp.local_delAllowed _)) _)
  | delAllowedList name =>
    exact same (indices_withPort
      (PortOp.local_onTrunk fun _ => PortOp.local_delAllowedList _) _)
  | replaceAllowed name vlanid value =>
    exact same (indices_withPort (PortOp.local_replaceAllowed _ _) _)
  | setNativeVlanEnabled name value =>
    exact same (indices_withPort (PortOp.local_onTrunk (PortOp.local_setNativeVlanEnabled _)) _)
  | setNativeVlan name value =>
    exact same (indices_withPort (PortOp.local_onTrunk (PortOp.local_setNativeVlan _)) _)
  | setStpEnabled value => exact same (indices_setStpEnabled _)
  | stpUpdate vlan next =>
    have kept : indices (b.stpUpdate vlan next) = indices b := by
      unfold Bridge.stpUpdate
      split <;> rfl
    exact same kept

theorem indices_delPorts {name : String} {p : Ports} (found : b.portNamed name = some p)
    (h : index ∈ indices b) : index = p.index ∨ index ∈ indices (b.delPorts name) := by
  by_cases own : index = p.index
  · exact .inl own
  refine .inr ?_
  have left : ∀ w, Others ⟨b, p⟩ w → index ∈ indices
      { w.bridge with ports := eraseKey Ports.index p.index w.bridge.ports } := by
    intro w others
    unfold indices eraseKey
    rw [others.bridgePorts]
    obtain ⟨q, hq, rfl⟩ := List.mem_map.1 h
    exact List.mem_map_of_mem (List.mem_filter.2 ⟨hq, by simpa using own⟩)
  unfold Bridge.delPorts
  rw [found]
  have result := PortOp.local_destroy ⟨b, p⟩
  unfold wp at result
  dsimp only
  split at result <;> rename_i run <;> rw [run] <;> exact left _ result

end

/-! ### What holds in every run -/

structure Sound (R : Record) (r : State × List Sighting) : Prop where
  ports : ∀ key e, r.1.table.get key = some e → e.port ∈ indices r.1.bridge ∨ e.port ∈ r.1.unfinished
  backs : Backs R r.2 r.1.table

namespace State

variable {R : Record} {s s' : State} {before : List Sighting} {e : Event}

theorem backs_from {fdb fdb' : Fdb} (h : Fdb.From fdb fdb') (backs : Backs R before fdb.fwdtable) :
    Backs R before fdb'.fwdtable := by
  intro key e has dynamic
  rcases h.entry key e has with there | ⟨static, -⟩
  · exact backs key e there dynamic
  · rw [static] at dynamic
    cases dynamic

theorem sound_call {α : Type} {x : Call Fdb α} (h : Fdb.From s.fdb.state (x.after s.fdb).state)
    (sound : Sound R (s, before)) : Sound R (s.call x, before) := by
  refine ⟨fun key e has => ?_, backs_from h sound.backs⟩
  have same : indices (s.call x).bridge = indices s.bridge := congrArg indices h.parent
  rw [same]
  rcases h.entry key e has with there | ⟨-, port⟩
  · exact sound.ports key e there
  · exact .inl (portAt_iff_mem_indices.1 port)

theorem receive_of_port {inIfc : ℕ} {f : Frame} {p : Ports}
    (found : s.bridge.portAt inIfc = some p) : s.receive inIfc f =
      ((handleRx s.code s.bridge.tables s.timestamp s.table inIfc f).1,
        s.setTable (handleRx s.code s.bridge.tables s.timestamp s.table inIfc f).2) := by
  unfold receive
  rw [found]

theorem seen_frame {inIfc : ℕ} {f : Frame} {p : Ports} {vlanid : Vlan} {entry : PortVlanValue}
    (found : s.bridge.portAt inIfc = some p)
    (classified : classify s.bridge.tables inIfc f = some (vlanid, entry)) :
    s.seen before (.frame inIfc f) =
      ⟨vlanid, f.src, f.dst, inIfc, s.timestamp, s.code.agingTime⟩ :: before := by
  unfold seen sighting
  simp [found, classified]

/-- A frame comes in by a port of the bridge and finds its destination by a dynamic entry of another
address than its own, not heard of now and not too old: it moves the timestamp on. -/
def Refreshes (s : State) (inIfc : ℕ) (f : Frame) : Prop :=
  ∃ p vlanid entry e, s.bridge.portAt inIfc = some p ∧
    classify s.bridge.tables inIfc f = some (vlanid, entry) ∧ Passes s.code entry f ∧
      f.dst ≠ f.src ∧ s.table.get (vlanid, f.dst) = some e ∧ e.type = .dynamic ∧
        ¬ s.code.agingTime < s.timestamp - e.timestamp ∧ e.timestamp ≠ s.timestamp

/-- The frames that have been let in back what `receive` leaves. -/
theorem sound_frame {inIfc : ℕ} {f : Frame} (lasts : R.Lasts) (sound : Sound R (s, before))
    (used : ∀ p vlanid entry e, s.bridge.portAt inIfc = some p →
      classify s.bridge.tables inIfc f = some (vlanid, entry) → Passes s.code entry f →
        f.dst ≠ f.src → s.table.get (vlanid, f.dst) = some e → e.type = .dynamic →
          ¬ s.code.agingTime < s.timestamp - e.timestamp →
            R (⟨vlanid, f.src, f.dst, inIfc, s.timestamp, s.code.agingTime⟩ :: before)
              (vlanid, f.dst) e.port s.timestamp) :
    Sound R ((s.receive inIfc f).2, s.seen before (.frame inIfc f)) := by
  cases found : s.bridge.portAt inIfc with
  | none =>
    have same : s.receive inIfc f = (.drop, s) := by
      unfold receive
      rw [found]
    have unseen : s.seen before (.frame inIfc f) = before := by
      simp [seen, sighting, found]
    rw [same, unseen]
    exact sound
  | some p =>
    have here : inIfc ∈ indices s.bridge := portAt_iff_mem_indices.1 ⟨p, found⟩
    rw [receive_of_port found]
    refine ⟨fun key e has => ?_, ?_⟩
    · rcases handleRx_port has with rfl | ⟨e', there, port⟩
      · exact .inl here
      · exact port ▸ sound.ports key e' there
    · cases classified : classify s.bridge.tables inIfc f with
      | none =>
        have same : (handleRx s.code s.bridge.tables s.timestamp s.table inIfc f).2 = s.table := by
          unfold handleRx
          rw [classified]
        have unseen : s.seen before (.frame inIfc f) = before := by
          simp [seen, sighting, classified]
        rw [unseen, same]
        exact sound.backs
      | some pair =>
        rw [seen_frame found classified]
        exact backs_handleRx lasts sound.backs classified fun e =>
          used p pair.1 pair.2 e found classified

theorem sound_frame_vouched {inIfc : ℕ} {f : Frame} (sound : Sound Vouched (s, before)) :
    Sound Vouched ((s.receive inIfc f).2, s.seen before (.frame inIfc f)) :=
  sound_frame lasts_vouched sound fun _ _ _ e _ _ _ _ has dynamic young =>
    .used (x := ⟨_, f.src, f.dst, inIfc, s.timestamp, s.code.agingTime⟩)
      (sound.backs _ e has dynamic) young

theorem sound_frame_heard {inIfc : ℕ} {f : Frame} (sound : Sound Heard (s, before))
    (unrefreshed : ¬ s.Refreshes inIfc f) :
    Sound Heard ((s.receive inIfc f).2, s.seen before (.frame inIfc f)) := by
  refine sound_frame lasts_heard sound
    fun p vlanid entry e found classified passes other has dynamic young => ?_
  have now : e.timestamp = s.timestamp := by
    by_contra moved
    exact unrefreshed ⟨p, vlanid, entry, e, found, classified, passes, other, has, dynamic, young,
      moved⟩
  rw [← now]
  exact lasts_heard.later _ _ _ _ _ (sound.backs _ e has dynamic)

theorem sound_delPorts {name : String} (sound : Sound R (s, before)) :
    Sound R (s.delPorts name, before) := by
  unfold delPorts
  cases found : s.bridge.portNamed name with
  | none => exact sound
  | some p =>
    -- Without the flush, the entries of the port are those of a removal that goes on.
    have going : Sound R ({ s.setBridge (s.bridge.delPorts name) with
        unfinished := p.index :: s.unfinished }, before) := by
      refine ⟨fun key e has => ?_, sound.backs⟩
      rcases sound.ports key e has with there | waiting
      · rcases indices_delPorts found there with own | still
        · exact .inr (own ▸ List.mem_cons_self)
        · exact .inl still
      · exact .inr (List.mem_cons_of_mem _ waiting)
    dsimp only
    split
    · exact going
    · split
      · exact going
      · rename_i held
        have flushed := (Fdb.ends_flushByPort p.index
          (m := (s.setBridge (s.bridge.delPorts name)).fdb) (eq_false_of_ne_true held)).after.1
        refine ⟨fun key e has => ?_, backs_from flushed.toFrom sound.backs⟩
        have entry : (s.table.get key).filter (fun e => !decide (e.port = p.index)) = some e :=
          (flushed.entry key).symm.trans has
        rw [Option.filter_eq_some_iff] at entry
        have same : indices ((s.setBridge (s.bridge.delPorts name)).call
            (Fdb.flushByPort p.index)).bridge = indices (s.bridge.delPorts name) :=
          congrArg indices flushed.parent
        rcases sound.ports key e entry.1 with there | waiting
        · rcases indices_delPorts found there with own | still
          · simp [own] at entry
          · exact .inl (same ▸ still)
        · exact .inr waiting

theorem sound_configure {e : Bridge.Event} {reloaded : Bool} (sound : Sound R (s, before)) :
    Sound R (s.configure e reloaded, before) := by
  by_cases removes : ∃ name, e = .delPorts name
  · obtain ⟨name, rfl⟩ := removes
    exact sound_delPorts sound
  · have other : ∀ name, e ≠ .delPorts name := fun name same => removes ⟨name, same⟩
    have steps : s.configure e reloaded =
        { s.setBridge (s.bridge.step e) with code := s.reloadCodeWithStp reloaded e } := by
      cases e with
      | delPorts name => exact absurd rfl (other name)
      | _ => rfl
    rw [steps]
    refine ⟨fun key e has => ?_, sound.backs⟩
    exact (sound.ports key e has).imp_left (indices_step other)

theorem sound_step (sound : Sound R (s, before)) (e : Event)
    (frame : ∀ inIfc f, e = .frame inIfc f →
      Sound R ((s.receive inIfc f).2, s.seen before (.frame inIfc f))) :
    Sound R (track (s, before) e) := by
  cases e with
  | frame inIfc f => exact frame inIfc f rfl
  | updateTimestamp now => exact ⟨sound.ports, sound.backs⟩
  | request r => exact sound_call (r.from_after s.fdb) sound
  | update now later conf => exact sound_call (Fdb.from_update s.fdb) sound
  | setAgingTime value reloaded =>
    unfold track step seen setAgingTime
    dsimp only
    split
    · exact sound
    · exact ⟨sound.ports, sound.backs⟩
  | flushOldEntries now vlan maxAge => exact sound_call (Fdb.ages_flushOldEntries s.fdb).toFrom sound
  | configure e reloaded => exact sound_configure sound

theorem sound_start (R : Record) (stpEnabled : Bool) (agingTime : BitVec 32) :
    Sound R (start stpEnabled agingTime, []) := by
  have empty : ∀ key, (start stpEnabled agingTime).table.get key = none := fun _ => rfl
  refine ⟨?_, ?_⟩
  · intro key e has
    rw [empty] at has
    cases has
  · intro key e has
    rw [empty] at has
    cases has

theorem sound_run (stpEnabled : Bool) (agingTime : BitVec 32) (events : List Event) :
    Sound Vouched (run track (start stpEnabled agingTime, []) events) := by
  refine run_invariant (P := Sound Vouched) (fun r e sound => ?_) events
    (sound_start Vouched stpEnabled agingTime)
  exact sound_step sound e fun inIfc f _ => sound_frame_vouched sound

/-- No frame refreshes an entry that it finds. -/
def Unrefreshed (r : State × List Sighting) : Event → Prop
  | .frame inIfc f => ¬ r.1.Refreshes inIfc f
  | _ => True

theorem sound_run_heard {stpEnabled : Bool} {agingTime : BitVec 32} {events : List Event}
    (unrefreshed : Meets track Unrefreshed (start stpEnabled agingTime, []) events) :
    Sound Heard (run track (start stpEnabled agingTime, []) events) := by
  refine run_induction (P := Sound Heard) (fun r e sound unrefreshed => ?_)
    (sound_start Heard stpEnabled agingTime) unrefreshed
  refine sound_step sound e fun inIfc f same => ?_
  subst same
  exact sound_frame_heard sound unrefreshed

/-- The frame goes out of the port of an entry, and what is said of its VLAN holds if the entry is
dynamic. -/
def ForwardsBy (s : State) (inIfc : ℕ) (f : Frame) (port : ℕ) (P : Vlan → Prop) : Prop :=
  ∃ vlanid entry e, classify s.bridge.tables inIfc f = some (vlanid, entry) ∧
    (s.receive inIfc f).2.table.get (vlanid, f.dst) = some e ∧ e.port = port ∧
      (e.type = .dynamic → P vlanid)

theorem forwardsBy {inIfc port : ℕ} {f : Frame} {tagged : Bool} (sound : Sound Vouched (s, before))
    (sent : (s.receive inIfc f).1 = .redirect port tagged) :
    s.ForwardsBy inIfc f port fun vlan =>
      Vouched (s.seen before (.frame inIfc f)) (vlan, f.dst) port s.timestamp := by
  have after : Sound Vouched ((s.receive inIfc f).2, s.seen before (.frame inIfc f)) :=
    sound_frame_vouched sound
  unfold ForwardsBy
  cases found : s.bridge.portAt inIfc with
  | none =>
    unfold receive at sent
    rw [found] at sent
    cases sent
  | some p =>
    rw [receive_of_port found] at sent after ⊢
    obtain ⟨vlanid, entry, e, classified, -, rfl, -, has⟩ := handleRx_redirect sent
    by_cases static : e.type = .static
    · rw [if_pos static] at has
      exact ⟨vlanid, entry, e, classified, has, rfl,
        fun dynamic => by rw [static] at dynamic; cases dynamic⟩
    · rw [if_neg static] at has
      exact ⟨vlanid, entry, { e with timestamp := s.timestamp }, classified, has, rfl,
        fun dynamic => after.backs _ _ has dynamic⟩

/-- The address was heard on the port at most the aging time ago. -/
def Recent (s : State) (seen : List Sighting) (vlan : Vlan) (mac : Mac) (port : ℕ) : Prop :=
  ∃ x ∈ seen, (x.vlan = vlan ∧ x.src = mac ∧ x.port = port) ∧
    ¬ s.code.agingTime < s.timestamp - x.time

instance (s : State) (seen : List Sighting) (vlan : Vlan) (mac : Mac) (port : ℕ) :
    Decidable (s.Recent seen vlan mac port) :=
  inferInstanceAs (Decidable (∃ x ∈ seen, _ ∧ _))

theorem forwardsBy_recent {inIfc port : ℕ} {f : Frame} {tagged : Bool}
    (sound : Sound Heard (s, before)) (sent : (s.receive inIfc f).1 = .redirect port tagged) :
    s.ForwardsBy inIfc f port fun vlan =>
      s.Recent (s.seen before (.frame inIfc f)) vlan f.dst port := by
  unfold ForwardsBy
  cases found : s.bridge.portAt inIfc with
  | none =>
    unfold receive at sent
    rw [found] at sent
    cases sent
  | some p =>
    rw [receive_of_port found] at sent ⊢
    obtain ⟨vlanid, entry, e, classified, there, rfl, young, has⟩ := handleRx_redirect sent
    rw [seen_frame found classified]
    refine ⟨vlanid, entry, _, classified, has, by split <;> rfl, fun dynamic => ?_⟩
    have type : e.type = .dynamic := by
      split at dynamic
      · exact dynamic
      · exact dynamic
    -- The entry as it was found: of an address heard before, or of the frame itself.
    rcases learn_get there with old | ⟨same, own⟩
    · obtain ⟨x, hx, key, port, time⟩ := sound.backs _ e old type
      obtain ⟨rfl, mac⟩ := Prod.mk.inj key
      exact ⟨x, List.mem_cons_of_mem _ hx, ⟨rfl, mac, port⟩, time ▸ young type⟩
    · subst own
      exact ⟨_, List.mem_cons_self, ⟨rfl, (Prod.mk.inj same).2.symm, rfl⟩, young rfl⟩

end State

def Event.spares : Event → Bool
  | .frame .. | .updateTimestamp _ | .setAgingTime .. | .flushOldEntries .. => true
  | .request r =>
    match r with
    | .getEntry .. | .getEntryList _ => true
    | _ => false
  | _ => false

namespace State

variable {s : State} {event : Event} {key : FwdKey} {e : FwdEntry}

theorem static_step (spares : event.spares = true) (has : s.table.get key = some e)
    (static : e.type = .static) : (s.step event).table.get key = some e := by
  cases event with
  | frame inIfc f =>
    unfold step
    dsimp only
    cases found : s.bridge.portAt inIfc with
    | none =>
      unfold receive
      rw [found]
      exact has
    | some p =>
      rw [receive_of_port found]
      exact handleRx_static has static
  | updateTimestamp now => exact has
  | request r =>
    refine (Fdb.Request.ages_after ?_ s.fdb).static key e has static
    cases r with
    | getEntry now vlan mac => exact .inl ⟨now, vlan, mac, rfl⟩
    | getEntryList now => exact .inr ⟨now, rfl⟩
    | _ => cases spares
  | setAgingTime value reloaded =>
    unfold step setAgingTime
    dsimp only
    split <;> exact has
  | flushOldEntries now vlan maxAge =>
    exact (Fdb.ages_flushOldEntries s.fdb).static key e has static
  | _ => cases spares

/-- After every run without a refresh, a dynamic entry forwards a frame only if its address was heard
on the port at most the aging time ago.  After every run at all, frames vouch for the entry, each at
most the aging time after the one before; learning, aging and the STP leave static entries; and a
port whose removal has come to its end is in no entry. -/
theorem filtering_run (stpEnabled : Bool) (agingTime : BitVec 32) (events : List Event) :
    let r := run track (start stpEnabled agingTime, []) events
    (Meets track Unrefreshed (start stpEnabled agingTime, []) events →
      ∀ inIfc f port tagged, (r.1.receive inIfc f).1 = .redirect port tagged →
        r.1.ForwardsBy inIfc f port fun vlan =>
          r.1.Recent (r.1.seen r.2 (.frame inIfc f)) vlan f.dst port) ∧
    (∀ inIfc f port tagged, (r.1.receive inIfc f).1 = .redirect port tagged →
      r.1.ForwardsBy inIfc f port fun vlan =>
        Vouched (r.1.seen r.2 (.frame inIfc f)) (vlan, f.dst) port r.1.timestamp) ∧
    (∀ (event : Event) key e, event.spares = true → r.1.table.get key = some e →
      e.type = .static → (r.1.step event).table.get key = some e) ∧
    ∀ index, r.1.bridge.portAt index = none → index ∉ r.1.unfinished →
      ∀ key e, r.1.table.get key = some e → e.port ≠ index := by
  have sound := sound_run stpEnabled agingTime events
  refine ⟨fun unrefreshed inIfc f port tagged => forwardsBy_recent (sound_run_heard unrefreshed),
    fun inIfc f port tagged => forwardsBy sound,
    fun event key e spares has static => static_step spares has static,
    fun index gone finished key e has => ?_⟩
  rintro rfl
  rcases sound.ports key e has with there | waiting
  · obtain ⟨p, found⟩ := portAt_iff_mem_indices.2 there
    rw [gone] at found
    cases found
  · exact finished waiting

/-- Two ports in a VLAN, an address heard by the first and two hundred seconds that go by. -/
def heardFirst : List Event :=
  [.configure (.addPorts "first" 1 (.access 10#16) [] ⟨false, 0#16⟩) true,
    .configure (.addPorts "second" 2 (.access 10#16) [] ⟨false, 0#16⟩) true,
    .frame 1 ⟨6, 5, none⟩, .updateTimestamp 200]

/-- A frame for the address is forwarded, and the address was heard at most the aging time before. -/
theorem filtering_run_heardFirst :
    (run track (start false 300, []) heardFirst).1.ForwardsBy 2 ⟨5, 6, none⟩ 1 fun vlan =>
      (run track (start false 300, []) heardFirst).1.Recent
        ((run track (start false 300, []) heardFirst).1.seen
          (run track (start false 300, []) heardFirst).2 (.frame 2 ⟨5, 6, none⟩)) vlan 5 1 := by
  refine (filtering_run false 300 heardFirst).1 ⟨trivial, trivial, ?_, trivial, trivial⟩
    2 ⟨5, 6, none⟩ 1 false (by decide +kernel)
  -- Before the frame the filtering database is empty.
  rintro ⟨p, vlanid, entry, e, -, -, -, -, has, -⟩
  cases has

def refreshing : List Event := heardFirst ++ [.frame 2 ⟨5, 6, none⟩, .updateTimestamp 400]

/-- Four hundred seconds after the address was heard, a frame is still forwarded to it. -/
theorem not_recent_run : ¬ ∀ (stpEnabled : Bool) (agingTime : BitVec 32) (events : List Event),
    let r := run track (start stpEnabled agingTime, []) events
    ∀ inIfc f port tagged vlan entry, (r.1.receive inIfc f).1 = .redirect port tagged →
      classify r.1.bridge.tables inIfc f = some (vlan, entry) →
        (∃ e, r.1.table.get (vlan, f.dst) = some e ∧ e.type = .static) ∨
          r.1.Recent (r.1.seen r.2 (.frame inIfc f)) vlan f.dst port := by
  intro recent
  have forwarded := recent false 300 refreshing 2 ⟨5, 6, none⟩ 1 false 10 ⟨10, .blocking⟩
    (by decide +kernel) (by decide +kernel)
  rcases forwarded with ⟨e, has, static⟩ | heard
  · have dynamic : (run track (start false 300, []) refreshing).1.table.get (10, 5) =
        some ⟨200, 1, .dynamic⟩ := by decide +kernel
    rw [dynamic, Option.some.injEq] at has
    subst has
    cases static
  · revert heard
    decide +kernel

end State

end Polycube.Bridging.Filtering
