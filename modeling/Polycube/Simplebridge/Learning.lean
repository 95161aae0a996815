import Polycube.Simplebridge.Fdb

/-!
# The simple bridge learns

Beside a run stands where each address has been placed last, by a frame or by a configuration.  A
placement has the time of the clock that its event reads: the program's for a frame, and the real
one for a configuration.
-/

namespace Polycube.Simplebridge

open Function

open Lib

structure Placement where
  port : BitVec 32
  time : ℕ
  shown : ℕ

abbrev Placements := Mac → Option Placement

def Placements.inForce (placed : Placements) (s : State) (mac : Mac) : Option (BitVec 32) :=
  (placed mac).bind fun p =>
    if s.timestamp.toNat ≤ p.shown + s.agingTime_.toNat then some p.port else none

inductive Op (ports : Ports)
  | frame (inPort : { p // p ∈ ports.indices }) (refused parsed : Bool) (p : Packet)
  | tick (seconds : ℕ)
  | refresh
  | setAgingTime (value : BitVec 32) (accepted : Bool)
  | addEntry (mac : Mac) (port : Option { p // p ∈ ports.indices }) (accepted : Bool)
  | setPort (mac : Mac) (port : Option { p // p ∈ ports.indices }) (accepted : Bool)
  | replaceEntry (mac newMac : Mac) (port : Option { p // p ∈ ports.indices }) (accepted : Bool)
  | delEntry (mac : Mac)
  | getEntry (mac : Mac)
  | getEntryList (macs : List Mac)
  | flush
  | delFdb (accepted : Bool)

variable {ports : Ports}

def outcome {α : Type} (x : Work α) (s : State) : Bool × State :=
  match x.run s with
  | .ok _ s' => (true, s')
  | .error _ s' => (false, s')

def exec (s : State) : Op ports → Bool × State
  | .frame inPort refused parsed p => (true, (handleRx ports s inPort refused parsed p).2)
  | .tick seconds => (true, { s with clock := s.clock + seconds })
  | .refresh => (true, updateTimestamp s)
  | .setAgingTime value accepted => outcome (setAgingTime value accepted) s
  | .addEntry mac port accepted => outcome (addEntry mac (port.map Subtype.val) accepted) s
  | .setPort mac port accepted => outcome (setPort ports mac (port.map Subtype.val) accepted) s
  | .replaceEntry mac newMac port accepted =>
    outcome (replaceEntry ports mac newMac (port.map Subtype.val) accepted) s
  | .delEntry mac => outcome (delEntry ports mac) s
  | .getEntry mac => outcome (getEntry ports mac) s
  | .getEntryList macs => outcome (getEntryList ports macs) s
  | .flush => outcome delEntryList s
  | .delFdb accepted => outcome (delFdb accepted) s

def Op.configures : Op ports → Option (Mac × BitVec 32)
  | .addEntry mac (some port) _ => some (mac, port)
  | .setPort mac (some port) _ => some (mac, port)
  | .replaceEntry _ newMac (some port) _ => some (newMac, port)
  | _ => none

def Op.left (placed : Placements) (s : State) : Op ports → Placements
  | .frame inPort _ _ (.ethernet _ src) =>
    update placed src (some ⟨inPort, s.clock, s.timestamp.toNat⟩)
  | .replaceEntry mac _ _ _ => update placed mac none
  | .delEntry mac => update placed mac none
  | .flush => fun _ => none
  | .delFdb _ => fun _ => none
  | _ => placed

def Placements.configure (placed : Placements) (s : State) (returned : Bool) :
    Option (Mac × BitVec 32) → Placements
  | some (mac, port) => if returned = true
    then update placed mac (some ⟨port, s.clock, s.clock⟩) else placed
  | none => placed

structure Bridge where
  state : State
  placed : Placements

def Bridge.start (clock : ℕ) : Bridge := ⟨State.start clock, fun _ => none⟩

def step (b : Bridge) (op : Op ports) : Bridge :=
  ⟨(exec b.state op).2,
    (op.left b.placed b.state).configure b.state (exec b.state op).1 op.configures⟩

def Forwarded (ports : Ports) (inPort : BitVec 32) (v : Verdict) :
    Option (BitVec 32) → Prop
  | some port => v = if port = inPort then .drop else .redirect port
  | none => ∃ l, v = .flood l ∧ l.Nodup ∧ ∀ p, p ∈ l ↔ p ∈ ports.indices ∧ p ≠ inPort

def Lags (period shown time : ℕ) : Prop := shown ≤ time ∧ time ≤ shown + period

/-- What becomes of a frame, with the placements after it has been learned.  The clocks that it
depends on lag by up to the period. -/
def Frames (ports : Ports) (period : ℕ) (placed : Placements) (s : State) (inPort : BitVec 32) (v : Verdict) :
    Packet → Prop
  | .short => v = .drop
  | .ethernet dst _ => Lags period s.timestamp.toNat s.clock ∧
    (∀ p, placed dst = some p → Lags period p.shown p.time) ∧
    Forwarded ports inPort v (placed.inForce s dst)

def State.finds (s : State) (mac : Mac) : Option (BitVec 32) :=
  (s.fwdtable mac).bind fun e => if s.tooOld e = true then none else some e.port

def Does (period : ℕ) (b : Bridge) : Op ports → Prop
  | .frame inPort refused parsed p =>
    Frames ports period (Op.left b.placed b.state (.frame inPort refused parsed p))
      b.state inPort (handleRx ports b.state inPort refused parsed p).1 p
  | .setAgingTime value accepted =>
    (step b (.setAgingTime value accepted : Op ports)).state.agingTime_ = value
  | _ => True

structure Right (period : ℕ) (b : Bridge) (op : Op ports) : Prop where
  does : Does period b op
  applied : (step b op).state.fdbTimeout = (step b op).state.agingTime_
  configured : ∀ mac port, op.configures = some (mac, port) → (exec b.state op).1 = true →
    (step b op).state.finds mac = some port

def State.Agrees (s : State) (mac : Mac) : Prop :=
  s.clock < 2 ^ 32 ∧ ∀ e, s.fwdtable mac = some e →
    e.timestamp.toNat + 300 < s.clock → e.timestamp.toNat + 300 < s.timestamp.toNat

def State.Young (s : State) (mac : Mac) : Prop :=
  ∃ e, s.fwdtable mac = some e ∧ s.timestamp.toNat ≤ e.timestamp.toNat + 300

/-- What a step must meet: the clock of the program lags a frame by up to the period, there is room
for its source, and it can be read if it is flooded; the time fits in 32 bits; the aging time stays
300; an entry is configured when the clock of the program shows the time, and its port is set at
time 0 only; and no entry is too old for a request that is not for the program. -/
def State.Fits (period : ℕ) (s : State) : Op ports → Prop
  | .frame _ refused parsed (.ethernet dst src) => s.clock ≤ s.timestamp.toNat + period ∧
    (s.fwdtable src = none → refused = false) ∧ (parsed = true ∨ dst = src ∨ s.Young dst)
  | .refresh => s.clock < 2 ^ 32
  | .setAgingTime value _ => value = 300
  | .addEntry _ port accepted =>
    port.isSome → accepted = true → s.clock ≤ s.timestamp.toNat
  | .setPort mac port accepted => s.Agrees mac ∧
    (port.isSome → accepted = true → s.fwdtable mac ≠ none → s.clock = 0)
  | .replaceEntry mac _ port accepted =>
    port.isSome → accepted = true → s.fwdtable mac ≠ none → s.clock ≤ s.timestamp.toNat
  | .getEntry mac => s.Agrees mac
  | .getEntryList macs => ∀ mac ∈ macs, s.Agrees mac
  | _ => True

instance (s : State) (mac : Mac) : Decidable (s.Agrees mac) :=
  decidable_of_iff (s.clock < 2 ^ 32 ∧ ∀ e ∈ s.fwdtable mac,
    e.timestamp.toNat + 300 < s.clock → e.timestamp.toNat + 300 < s.timestamp.toNat) Iff.rfl

instance (s : State) (mac : Mac) : Decidable (s.Young mac) :=
  decidable_of_iff (∃ e ∈ s.fwdtable mac, s.timestamp.toNat ≤ e.timestamp.toNat + 300) Iff.rfl

instance (period : ℕ) (s : State) : ∀ op : Op ports, Decidable (s.Fits period op)
  | .frame _ refused parsed (.ethernet dst src) => inferInstanceAs
      (Decidable (s.clock ≤ s.timestamp.toNat + period ∧
        (s.fwdtable src = none → refused = false) ∧ (parsed = true ∨ dst = src ∨ s.Young dst)))
  | .frame _ _ _ .short => inferInstanceAs (Decidable True)
  | .tick _ => inferInstanceAs (Decidable True)
  | .refresh => inferInstanceAs (Decidable (s.clock < 2 ^ 32))
  | .setAgingTime value _ => inferInstanceAs (Decidable (value = 300))
  | .addEntry _ port accepted => inferInstanceAs
      (Decidable (port.isSome → accepted = true → s.clock ≤ s.timestamp.toNat))
  | .setPort mac port accepted => inferInstanceAs (Decidable (s.Agrees mac ∧
      (port.isSome → accepted = true → s.fwdtable mac ≠ none → s.clock = 0)))
  | .replaceEntry mac _ port accepted => inferInstanceAs (Decidable
      (port.isSome → accepted = true → s.fwdtable mac ≠ none → s.clock ≤ s.timestamp.toNat))
  | .delEntry _ => inferInstanceAs (Decidable True)
  | .getEntry mac => inferInstanceAs (Decidable (s.Agrees mac))
  | .getEntryList macs => inferInstanceAs (Decidable (∀ mac ∈ macs, s.Agrees mac))
  | .flush => inferInstanceAs (Decidable True)
  | .delFdb _ => inferInstanceAs (Decidable True)

structure Shows (ports : Ports) (s : State) (placed : Placements) (mac : Mac)
    (e : FwdEntry) : Prop where
  past : e.timestamp.toNat ≤ s.timestamp.toNat
  there : e.port ∈ ports.indices
  placed : ∃ p, placed mac = some p ∧ p.port = e.port ∧ p.shown = e.timestamp.toNat

def Absent (s : State) (placed : Placements) (mac : Mac) : Prop :=
  ∀ p, placed mac = some p → p.shown + 300 < s.timestamp.toNat

structure Known (ports : Ports) (period : ℕ) (s : State) (placed : Placements)
    (mac : Mac) : Prop where
  entry : ∀ e, s.fwdtable mac = some e → Shows ports s placed mac e
  absent : s.fwdtable mac = none → Absent s placed mac
  lags : ∀ p, placed mac = some p → Lags period p.shown p.time

structure Inv (ports : Ports) (period : ℕ) (s : State) (placed : Placements) :
    Prop where
  defines : s.defines = []
  agingTime_ : s.agingTime_ = 300
  clock : s.timestamp.toNat ≤ s.clock
  known : ∀ mac, Known ports period s placed mac

variable {period : ℕ} {s s' : State} {placed : Placements} {mac : Mac}

theorem inv_start (clock : ℕ) :
    Inv ports period (Bridge.start clock).state (Bridge.start clock).placed where
  defines := rfl
  agingTime_ := rfl
  clock := Nat.zero_le _
  known _ := ⟨fun _ h => (by cases h), fun _ _ h => (by cases h), fun _ h => (by cases h)⟩

theorem Inv.fdbTimeout (inv : Inv ports period s placed) : s.fdbTimeout = 300 := by
  unfold State.fdbTimeout
  rw [inv.defines]
  rfl

variable {e : FwdEntry}

theorem Inv.tooOld_iff (inv : Inv ports period s placed)
    (past : e.timestamp.toNat ≤ s.timestamp.toNat) :
    s.tooOld e = true ↔ e.timestamp.toNat + 300 < s.timestamp.toNat := by
  unfold State.tooOld
  rw [inv.fdbTimeout, decide_eq_true_iff, BitVec.lt_def]
  have := s.timestamp.isLt
  have le : e.timestamp.setWidth 64 ≤ s.timestamp.setWidth 64 := by
    rw [BitVec.le_def, BitVec.toNat_setWidth, BitVec.toNat_setWidth]
    omega
  rw [BitVec.toNat_sub_of_le le, BitVec.toNat_setWidth, BitVec.toNat_setWidth,
    BitVec.toNat_setWidth]
  show 300 % _ < _ ↔ _
  omega

theorem Inv.stale_iff (inv : Inv ports period s placed)
    (past : e.timestamp.toNat ≤ s.timestamp.toNat) (small : s.clock < 2 ^ 32) :
    s.agingTime_ < s.seconds - e.timestamp ↔ e.timestamp.toNat + 300 < s.clock := by
  have clock := inv.clock
  have seconds : s.seconds.toNat = s.clock := by
    unfold State.seconds
    rw [BitVec.toNat_ofNat, Nat.mod_eq_of_lt small]
  have le : e.timestamp ≤ s.seconds := by
    rw [BitVec.le_def, seconds]
    omega
  rw [inv.agingTime_, BitVec.lt_def, BitVec.toNat_sub_of_le le, seconds]
  show 300 < _ ↔ _
  omega

@[simp] theorem setEntry_self (s : State) (mac : Mac) (e : Option FwdEntry) :
    (s.setEntry mac e).fwdtable mac = e := update_self _ _ _

theorem setEntry_of_ne {m : Mac} (h : m ≠ mac) (s : State) (e : Option FwdEntry) :
    (s.setEntry mac e).fwdtable m = s.fwdtable m := update_of_ne h _ _

theorem Inv.setEntry {placed' : Placements} {e : Option FwdEntry}
    (inv : Inv ports period s placed) (same : ∀ m, m ≠ mac → placed' m = placed m)
    (known : Known ports period (s.setEntry mac e) placed' mac) :
    Inv ports period (s.setEntry mac e) placed' where
  defines := inv.defines
  agingTime_ := inv.agingTime_
  clock := inv.clock
  known m := by
    by_cases here : m = mac
    · rw [here]
      exact known
    have old := inv.known m
    refine ⟨fun e' he => ?_, fun none p hp => ?_, fun p hp => ?_⟩
    · rw [setEntry_of_ne here] at he
      obtain ⟨past, there, placed⟩ := old.entry e' he
      rw [← same m here] at placed
      exact ⟨past, there, placed⟩
    · rw [setEntry_of_ne here] at none
      rw [same m here] at hp
      exact old.absent none p hp
    · rw [same m here] at hp
      exact old.lags p hp

theorem Inv.place (inv : Inv ports period s placed) (mac : Mac) (e : FwdEntry) (time : ℕ)
    (past : e.timestamp.toNat ≤ s.timestamp.toNat) (there : e.port ∈ ports.indices)
    (lags : Lags period e.timestamp.toNat time) :
    Inv ports period (s.setEntry mac (some e))
      (update placed mac (some ⟨e.port, time, e.timestamp.toNat⟩)) := by
  refine inv.setEntry (fun m here => update_of_ne here _ _) ⟨?_, ?_, ?_⟩
  · intro e' he
    rw [setEntry_self] at he
    obtain rfl := Option.some.inj he
    exact ⟨past, there, _, update_self _ _ _, rfl, rfl⟩
  · intro none
    rw [setEntry_self] at none
    cases none
  · intro p hp
    rw [update_self] at hp
    obtain rfl := Option.some.inj hp
    exact lags

theorem Inv.remove (inv : Inv ports period s placed) (mac : Mac) :
    Inv ports period (s.setEntry mac none) (update placed mac none) := by
  have unplaced : ∀ p, update placed mac none mac ≠ some p := by
    intro p hp
    rw [update_self] at hp
    cases hp
  refine inv.setEntry (fun m here => update_of_ne here _ _) ⟨?_, ?_, ?_⟩
  · intro e he
    rw [setEntry_self] at he
    cases he
  · exact fun _ p hp => absurd hp (unplaced p)
  · exact fun p hp => absurd hp (unplaced p)

theorem Inv.expire (inv : Inv ports period s placed) (he : s.fwdtable mac = some e)
    (old : e.timestamp.toNat + 300 < s.timestamp.toNat) :
    Inv ports period (s.setEntry mac none) placed := by
  refine inv.setEntry (fun _ _ => rfl) ⟨?_, ?_, (inv.known mac).lags⟩
  · intro e' he'
    rw [setEntry_self] at he'
    cases he'
  · intro _ p hp
    obtain ⟨-, -, p', hp', -, shown⟩ := (inv.known mac).entry e he
    obtain rfl := Option.some.inj (hp.symm.trans hp')
    show p.shown + 300 < s.timestamp.toNat
    rw [shown]
    exact old

theorem Inv.later (inv : Inv ports period s placed) {timestamp : BitVec 32} {clock : ℕ}
    (grows : s.timestamp.toNat ≤ timestamp.toNat) (le : timestamp.toNat ≤ clock) :
    Inv ports period { s with timestamp, clock } placed where
  defines := inv.defines
  agingTime_ := inv.agingTime_
  clock := le
  known mac := by
    refine ⟨fun e he => ?_, fun none p hp => ?_, (inv.known mac).lags⟩
    · obtain ⟨past, there, placed⟩ := (inv.known mac).entry e he
      exact ⟨Nat.le_trans past grows, there, placed⟩
    · exact Nat.lt_of_lt_of_le ((inv.known mac).absent none p hp) grows

theorem Inv.clear (inv : Inv ports period s placed) :
    Inv ports period { s with fwdtable := fun _ => none } fun _ => none where
  defines := inv.defines
  agingTime_ := inv.agingTime_
  clock := inv.clock
  known _ := ⟨fun _ h => (by cases h), fun _ _ h => (by cases h), fun _ h => (by cases h)⟩

theorem learn_eq {src : Mac} {inPort : BitVec 32} {refused : Bool}
    (room : s.fwdtable src = none → refused = false) :
    learn s inPort src refused = s.setEntry src (some ⟨s.timestamp, inPort⟩) := by
  unfold learn
  cases h : s.fwdtable src with
  | none =>
    rw [room h]
    rfl
  | some e => rfl

theorem Inv.inForce (inv : Inv ports period s placed) (mac : Mac) :
    placed.inForce s mac = s.finds mac := by
  unfold Placements.inForce State.finds
  cases he : s.fwdtable mac with
  | none =>
    cases hp : placed mac with
    | none => rfl
    | some p =>
      have old := (inv.known mac).absent he p hp
      show (if _ then _ else _) = none
      rw [if_neg]
      rw [inv.agingTime_]
      show ¬ _ ≤ p.shown + 300
      omega
  | some e =>
    obtain ⟨past, -, p, hp, port, shown⟩ := (inv.known mac).entry e he
    have old := inv.tooOld_iff past
    rw [hp]
    show (if _ ≤ _ then _ else _) = if _ then _ else _
    rw [inv.agingTime_, shown, port]
    show (if _ ≤ _ + 300 then _ else _) = _
    by_cases h : s.tooOld e = true
    · rw [if_pos h, if_neg (by have := old.1 h; omega)]
    · rw [if_neg h, if_pos (by have := mt old.2 h; omega)]

theorem forwarded_flood (inPort : BitVec 32) :
    Forwarded ports inPort (flood ports inPort true) none := by
  refine ⟨_, rfl, ports.nodup.filter _, fun p => ?_⟩
  rw [List.mem_filter, decide_eq_true_iff]

theorem Inv.forward (inv : Inv ports period s placed) {dst : Mac} {parsed : Bool}
    (inPort : BitVec 32) (read : parsed = true ∨ s.Young dst) :
    Forwarded ports inPort (forward ports s inPort dst parsed).1 (placed.inForce s dst) ∧
      Inv ports period (forward ports s inPort dst parsed).2 placed := by
  rw [inv.inForce]
  unfold Simplebridge.forward State.finds
  cases he : s.fwdtable dst with
  | none =>
    obtain rfl : parsed = true := by
      refine read.resolve_right ?_
      rintro ⟨e, he', -⟩
      rw [he] at he'
      cases he'
    exact ⟨forwarded_flood inPort, inv⟩
  | some e =>
    have past := ((inv.known dst).entry e he).past
    dsimp only [Option.bind_some]
    by_cases old : s.tooOld e = true
    · rw [if_pos old, if_pos old]
      have old := (inv.tooOld_iff past).1 old
      obtain rfl : parsed = true := by
        refine read.resolve_right ?_
        rintro ⟨e', he', young⟩
        obtain rfl := Option.some.inj (he.symm.trans he')
        omega
      exact ⟨forwarded_flood inPort, inv.expire he old⟩
    · rw [if_neg old, if_neg old]
      by_cases back : e.port = inPort
      · rw [if_pos back]
        exact ⟨(if_pos back).symm, inv⟩
      · rw [if_neg back]
        exact ⟨(if_neg back).symm, inv⟩

theorem setEntry_none (absent : s.fwdtable mac = none) : s.setEntry mac none = s := by
  unfold State.setEntry
  rw [← absent, update_eq_self]

theorem Inv.finds (inv : Inv ports period s placed) (past : e.timestamp.toNat ≤ s.timestamp.toNat)
    (young : s.timestamp.toNat ≤ e.timestamp.toNat + 300) :
    (s.setEntry mac (some e)).finds mac = some e.port := by
  unfold State.finds
  rw [setEntry_self]
  refine if_neg fun old => ?_
  have := (inv.tooOld_iff past).1 old
  omega

/-! ### Requests -/

structure Kept (ports : Ports) (period : ℕ) (s : State) (left : Placements)
    (config : Option (Mac × BitVec 32)) (r : Bool × State) : Prop where
  inv : Inv ports period r.2 (left.configure s r.1 config)
  configured : ∀ mac port, config = some (mac, port) → r.1 = true → r.2.finds mac = some port

variable {left : Placements} {config : Option (Mac × BitVec 32)}

theorem Kept.of_none {r : Bool × State} (inv : Inv ports period r.2 left) :
    Kept ports period s left none r :=
  ⟨inv, fun _ _ h => (by cases h)⟩

theorem Kept.of_throws (inv : Inv ports period s' left) :
    Kept ports period s left config (false, s') := by
  refine ⟨?_, fun _ _ _ h => (by cases h)⟩
  cases config <;> exact inv

theorem kept_outcome {α : Type} {x : Work α}
    (h : wp x (fun _ s' => Kept ports period s left config (true, s'))
      (fun _ s' => Kept ports period s left config (false, s')) s) :
    Kept ports period s left config (outcome x s) := by
  unfold wp at h
  unfold outcome
  cases run : x.run s with
  | ok _ s' =>
    rw [run] at h
    exact h
  | error _ s' =>
    rw [run] at h
    exact h

variable {accepted : Bool}

theorem kept_setTable {s₁ : State} {port timestamp : BitVec 32}
    (inv : Inv ports period s₁ left) (there : port ∈ ports.indices)
    (fits : accepted = true → timestamp.toNat = s.clock ∧ s.clock = s₁.timestamp.toNat) :
    wp (setTable mac ⟨timestamp, port⟩ accepted)
      (fun _ s' => Kept ports period s left (some (mac, port)) (true, s'))
      (fun _ s' => Kept ports period s left (some (mac, port)) (false, s')) s₁ := by
  unfold setTable
  rw [wp_ite]
  split_ifs with taken
  · obtain ⟨time, now⟩ := fits taken
    have past : timestamp.toNat ≤ s₁.timestamp.toNat := by omega
    rw [wp_modify]
    refine ⟨?_, fun mac' port' same _ => ?_⟩
    · have placed := inv.place mac ⟨timestamp, port⟩ s.clock past there
        ⟨by show timestamp.toNat ≤ _; omega, by show _ ≤ timestamp.toNat + _; omega⟩
      show Inv ports period _ (update left mac (some ⟨port, s.clock, s.clock⟩))
      rw [← time] at placed ⊢
      exact placed
    · obtain ⟨rfl, rfl⟩ := Prod.mk.inj (Option.some.inj same)
      exact inv.finds (e := ⟨timestamp, port⟩) past (by show _ ≤ timestamp.toNat + _; omega)
  · exact Kept.of_throws inv

variable {port : Option { p // p ∈ ports.indices }}

theorem kept_addEntry {s₁ : State}
    (inv : Inv ports period s₁ left) (mac : Mac) (clock : s₁.clock = s.clock)
    (fits : port.isSome → accepted = true → s.clock ≤ s₁.timestamp.toNat) :
    wp (addEntry mac (port.map Subtype.val) accepted)
      (fun _ s' => Kept ports period s left (port.map fun p => (mac, p.val)) (true, s'))
      (fun _ s' => Kept ports period s left (port.map fun p => (mac, p.val)) (false, s')) s₁ := by
  unfold addEntry
  rw [wp_bind, wp_get]
  cases port with
  | none => exact Kept.of_throws inv
  | some port =>
    refine kept_setTable inv port.2 fun taken => ?_
    have le := fits rfl taken
    have ge := inv.clock
    have small := s₁.timestamp.isLt
    unfold State.seconds
    rw [BitVec.toNat_ofNat, Nat.mod_eq_of_lt (by omega)]
    exact ⟨clock, by omega⟩

/-- The entry of an address is read, unless there is none or it is too old, and then it goes
away. -/
theorem getEntry_spec (inv : Inv ports period s placed) (mac : Mac) :
    wp (getEntry ports mac) (fun _ s' => s' = s ∧ s.fwdtable mac ≠ none)
      (fun _ s' => s' = s.setEntry mac none ∧ ∀ e, s.fwdtable mac = some e →
        s.agingTime_ < s.seconds - e.timestamp) s := by
  unfold getEntry
  rw [wp_bind, wp_get]
  cases he : s.fwdtable mac with
  | none =>
    exact ⟨(setEntry_none he).symm, fun _ h => (by cases h)⟩
  | some e =>
    unfold constructFromMap
    rw [wp_bind, wp_bind, wp_get, wp_ite, if_pos (List.contains_iff_mem.2 ((inv.known mac).entry e he).there)]
    split_ifs with stale
    · refine ⟨rfl, fun e' he' => ?_⟩
      obtain rfl := Option.some.inj he'
      exact stale
    · exact ⟨rfl, fun h => (by cases h)⟩

theorem Inv.stale (inv : Inv ports period s placed) (agrees : s.Agrees mac)
    (stale : ∀ e, s.fwdtable mac = some e → s.agingTime_ < s.seconds - e.timestamp) :
    Inv ports period (s.setEntry mac none) placed := by
  cases he : s.fwdtable mac with
  | none =>
    rw [setEntry_none he]
    exact inv
  | some e =>
    have past := ((inv.known mac).entry e he).past
    exact inv.expire he (agrees.2 e he ((inv.stale_iff past agrees.1).1 (stale e he)))

theorem kept_getEntry (inv : Inv ports period s placed) (agrees : s.Agrees mac) :
    Kept ports period s placed none (outcome (getEntry ports mac) s) := by
  refine kept_outcome (wp_mono (getEntry_spec inv mac) ?_ ?_)
  · rintro _ s' ⟨rfl, -⟩
    exact Kept.of_none inv
  · rintro _ s' ⟨rfl, stale⟩
    exact Kept.of_none (inv.stale agrees stale)

/-- A deletion ends with no entry, whether it returns or not. -/
theorem delEntry_spec (inv : Inv ports period s placed) (mac : Mac) :
    wp (delEntry ports mac) (fun _ s' => s' = s.setEntry mac none ∧ s.fwdtable mac ≠ none)
      (fun _ s' => s' = s.setEntry mac none) s := by
  unfold delEntry
  rw [wp_bind]
  refine wp_mono (getEntry_spec inv mac) ?_ fun _ _ h => h.1
  rintro _ s' ⟨rfl, there⟩
  exact ⟨rfl, there⟩

theorem kept_delEntry (inv : Inv ports period s placed) (mac : Mac) :
    Kept ports period s (update placed mac none) none
      (outcome (delEntry ports mac) s) := by
  refine kept_outcome (wp_mono (delEntry_spec inv mac) ?_ ?_)
  · rintro _ s' ⟨rfl, -⟩
    exact Kept.of_none (inv.remove mac)
  · rintro _ s' rfl
    exact Kept.of_none (inv.remove mac)

theorem kept_replaceEntry (inv : Inv ports period s placed) (newMac : Mac)
    (fits : port.isSome → accepted = true → s.fwdtable mac ≠ none →
      s.clock ≤ s.timestamp.toNat) :
    Kept ports period s (update placed mac none) (port.map fun p => (newMac, p.val))
      (outcome (replaceEntry ports mac newMac (port.map Subtype.val) accepted) s) := by
  refine kept_outcome ?_
  unfold replaceEntry
  rw [wp_bind]
  refine wp_mono (delEntry_spec inv mac) ?_ ?_
  · rintro _ s' ⟨rfl, there⟩
    exact kept_addEntry (inv.remove mac) newMac rfl fun given taken => fits given taken there
  · rintro _ s' rfl
    exact Kept.of_throws (inv.remove mac)

theorem kept_setPort (inv : Inv ports period s placed) (agrees : s.Agrees mac)
    (fits : port.isSome → accepted = true → s.fwdtable mac ≠ none → s.clock = 0) :
    Kept ports period s placed (port.map fun p => (mac, p.val))
      (outcome (setPort ports mac (port.map Subtype.val) accepted) s) := by
  refine kept_outcome ?_
  unfold setPort
  rw [wp_bind]
  refine wp_mono (getEntry_spec inv mac) ?_ ?_
  · rintro _ s' ⟨rfl, there⟩
    cases port with
    | none => exact Kept.of_throws inv
    | some port =>
      refine kept_setTable inv port.2 fun taken => ?_
      have zero := fits rfl taken there
      have := inv.clock
      exact ⟨by rw [zero]; rfl, by omega⟩
  · rintro _ s' ⟨rfl, stale⟩
    exact Kept.of_throws (inv.stale agrees stale)

structure Fresh (ports : Ports) (s : State) (x : Mac × FwdEntry) : Prop where
  there : s.fwdtable x.1 = some x.2 ∨ s.fwdtable x.1 = none
  port : x.2.port ∈ ports.indices
  agrees : s.agingTime_ < s.seconds - x.2.timestamp →
    x.2.timestamp.toNat + 300 < s.timestamp.toNat

theorem Fresh.remove {x : Mac × FwdEntry} (h : Fresh ports s x) (mac : Mac) :
    Fresh ports (s.setEntry mac none) x := by
  refine ⟨?_, h.port, h.agrees⟩
  by_cases here : x.1 = mac
  · rw [here, setEntry_self]
    exact .inr rfl
  · rw [setEntry_of_ne here]
    exact h.there

theorem constructAll_spec {l : List (Mac × FwdEntry)} (inv : Inv ports period s placed)
    (fresh : ∀ x ∈ l, Fresh ports s x) :
    wp (constructAll ports l) (fun _ s' => Inv ports period s' placed)
      (fun _ s' => Inv ports period s' placed) s := by
  induction l generalizing s with
  | nil => exact inv
  | cons x l ih =>
    obtain ⟨mac, e⟩ := x
    have this := fresh (mac, e) List.mem_cons_self
    have rest := fun x hx => fresh x (List.mem_cons_of_mem (mac, e) hx)
    unfold constructAll constructFromMap
    rw [wp_bind, wp_bind, wp_get, wp_ite, if_pos (List.contains_iff_mem.2 this.port)]
    split_ifs with stale
    · have gone : Inv ports period (s.setEntry mac none) placed := by
        rcases this.there with he | absent
        · exact inv.expire he (this.agrees stale)
        · rw [setEntry_none absent]
          exact inv
      show wp (constructAll ports l >>= _) _ _ (s.setEntry mac none)
      rw [wp_bind]
      exact ih gone fun x hx => (rest x hx).remove mac
    · show wp (constructAll ports l >>= _) _ _ s
      rw [wp_bind]
      exact ih inv rest

theorem kept_getEntryList {macs : List Mac} (inv : Inv ports period s placed)
    (agrees : ∀ mac ∈ macs, s.Agrees mac) :
    Kept ports period s placed none (outcome (getEntryList ports macs) s) := by
  refine kept_outcome ?_
  unfold getEntryList
  rw [wp_bind, wp_get]
  refine wp_mono (constructAll_spec inv fun x hx => ?_) (fun _ _ h => Kept.of_none h)
    fun _ _ h => Kept.of_none h
  obtain ⟨mac, there, found⟩ := List.mem_filterMap.1 hx
  obtain ⟨e, he, rfl⟩ := Option.map_eq_some_iff.1 found
  have shows := (inv.known mac).entry e he
  obtain ⟨small, old⟩ := agrees mac there
  exact ⟨.inl he, shows.there, fun stale => old e he ((inv.stale_iff shows.past small).1 stale)⟩

theorem setAgingTime_spec (inv : Inv ports period s placed) (accepted : Bool) :
    wp (setAgingTime 300 accepted) (fun _ s' => s' = s) (fun _ _ => False) s := by
  unfold setAgingTime
  rw [wp_modify, if_neg (not_not.2 inv.agingTime_)]

abbrev Steps (ports : Ports) (period : ℕ) (b : Bridge) (op : Op ports) : Prop :=
  Kept ports period b.state (op.left b.placed b.state) op.configures (exec b.state op)

variable {b : Bridge}

theorem frame_spec (inv : Inv ports period b.state b.placed) {inPort : { p // p ∈ ports.indices }}
    {refused parsed : Bool} {p : Packet}
    (fits : b.state.Fits period (.frame inPort refused parsed p)) :
    Does period b (.frame inPort refused parsed p) ∧
      Steps ports period b (.frame inPort refused parsed p) := by
  cases p with
  | short => exact ⟨rfl, Kept.of_none inv⟩
  | ethernet dst src =>
    obtain ⟨fresh, room, read⟩ := fits
    have learned := inv.place src ⟨b.state.timestamp, inPort⟩ b.state.clock (Nat.le_refl _) inPort.2
      ⟨inv.clock, fresh⟩
    have young : parsed = true ∨
        (b.state.setEntry src (some ⟨b.state.timestamp, inPort⟩)).Young dst := by
      refine read.imp id fun known => ?_
      by_cases here : dst = src
      · rw [here]
        exact ⟨_, setEntry_self _ _ _, Nat.le_add_right _ _⟩
      · obtain ⟨e, he, young⟩ := known.resolve_left here
        exact ⟨e, (setEntry_of_ne here _ _).trans he, young⟩
    have forwarded := learned.forward inPort.val young
    rw [← learn_eq room] at forwarded
    refine ⟨⟨⟨inv.clock, fresh⟩, (learned.known dst).lags, ?_⟩, Kept.of_none forwarded.2⟩
    have same : ∀ placed : Placements, placed.inForce (learn b.state inPort src refused) dst =
        placed.inForce b.state dst := by
      intro placed
      rw [learn_eq room]
      rfl
    rw [same] at forwarded
    exact forwarded.1

theorem steps_of_fits (inv : Inv ports period b.state b.placed) {op : Op ports}
    (fits : b.state.Fits period op) : Steps ports period b op := by
  have clock := inv.clock
  cases op with
  | frame inPort refused parsed p => exact (frame_spec inv fits).2
  | tick seconds =>
    exact Kept.of_none (inv.later (Nat.le_refl _) (Nat.le_trans clock (Nat.le_add_right _ _)))
  | refresh =>
    have now : b.state.seconds.toNat = b.state.clock := by
      unfold State.seconds
      rw [BitVec.toNat_ofNat, Nat.mod_eq_of_lt fits]
    exact Kept.of_none (inv.later (by rw [now]; exact clock) (Nat.le_of_eq now))
  | setAgingTime value accepted =>
    obtain rfl : value = 300 := fits
    refine kept_outcome (wp_mono (setAgingTime_spec inv accepted) ?_ fun _ _ h => h.elim)
    rintro _ s' rfl
    exact Kept.of_none inv
  | addEntry mac port accepted =>
    have done := kept_outcome (kept_addEntry (s := b.state) inv mac rfl fits)
    cases port <;> exact done
  | setPort mac port accepted =>
    have done := kept_setPort inv fits.1 fits.2
    cases port <;> exact done
  | replaceEntry mac newMac port accepted =>
    have done := kept_replaceEntry inv newMac fits
    cases port <;> exact done
  | delEntry mac => exact kept_delEntry inv mac
  | getEntry mac => exact kept_getEntry inv fits
  | getEntryList macs => exact kept_getEntryList inv fits
  | flush => exact Kept.of_none inv.clear
  | delFdb accepted =>
    show Kept ports period b.state (fun _ => none) none (outcome (delFdb accepted) b.state)
    refine kept_outcome ?_
    unfold delFdb delEntryList
    rw [wp_bind, wp_modify]
    refine wp_mono (setAgingTime_spec inv.clear accepted) ?_ fun _ _ h => h.elim
    rintro _ s' rfl
    exact Kept.of_none inv.clear

theorem right_of_fits (inv : Inv ports period b.state b.placed) {op : Op ports}
    (fits : b.state.Fits period op) : Right period b op := by
  have steps := steps_of_fits inv fits
  refine ⟨?_, steps.inv.fdbTimeout.trans steps.inv.agingTime_.symm, steps.configured⟩
  cases op with
  | frame inPort refused parsed p => exact (frame_spec inv fits).1
  | setAgingTime value accepted => exact steps.inv.agingTime_.trans (Eq.symm fits)
  | _ => trivial

/-- In every run whose steps meet the condition, frames go where the placements say, the aging time
is applied, and what is configured is in force. -/
theorem forwarded_of_run (ports : Ports) (period clock : ℕ) (ops : List (Op ports))
    (fits : Meets step (fun b op => b.state.Fits period op) (Bridge.start clock) ops) :
    Meets step (Right period) (Bridge.start clock) ops :=
  Meets.imp (P := fun b => Inv ports period b.state b.placed)
    (fun _ _ inv fits => (steps_of_fits inv fits).inv) (fun _ _ inv fits => right_of_fits inv fits)
    (inv_start clock) fits

def somePorts : Ports := ⟨[1, 2, 3], by decide⟩

/-- Frames between three ports, of which one is configured; entries are read, and grow too old. -/
def someOps : List (Op somePorts) :=
  [.refresh, .frame ⟨1, by decide⟩ false true (.ethernet 0xb 0xa),
    .frame ⟨2, by decide⟩ false false (.ethernet 0xa 0xb),
    .addEntry 0xc (some ⟨3, by decide⟩) true, .setAgingTime 300 true, .tick 1,
    .frame ⟨1, by decide⟩ false false (.ethernet 0xc 0xa), .getEntry 0xa, .tick 400, .refresh,
    .frame ⟨2, by decide⟩ false true (.ethernet 0xa 0xb), .delEntry 0xb, .flush]

theorem forwarded_someOps :
    Meets step (Right 1) (Bridge.start 1000) someOps :=
  forwarded_of_run somePorts 1 1000 someOps (by decide +kernel)

/-- The program does not apply an aging time that is set. -/
theorem not_forwarded_setAgingTime :
    ¬ Meets step (Right 1) (Bridge.start 1000)
      [(.setAgingTime 60 true : Op somePorts)] := by
  rintro ⟨right, -⟩
  have applied := right.applied
  revert applied
  decide +kernel

end Polycube.Simplebridge
