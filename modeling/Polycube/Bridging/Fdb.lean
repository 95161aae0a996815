import Polycube.Bridging.Ports
import Polycube.Lib.Mutex

/-!
# The operations of the filtering database

The requests for the filtering database, and the removals that a port and the STP ask for, take
`fdb_mutex_` for as long as they run.  `delEntry` looks the entry up by `getEntry`, which takes the
mutex again.
-/

namespace Polycube.Bridging.Filtering

open Lib

/-- A `Fdb` with its bridge and the table of the datapath.  `fdb_mutex_` is around it. -/
structure Fdb where
  parent : Bridge
  agingTime : BitVec 32
  fwdtable : FwdMap

abbrev MacText := Option Mac

structure FdbEntry where
  vlan : Vlan
  mac : Mac
  age : BitVec 32
  port : ℕ
  portName : String
  type : EntryType
  deriving DecidableEq

/-- `FdbEntryJsonObject` -/
structure FdbEntryConf where
  vlan : Vlan
  mac : MacText
  port : Option String
  deriving DecidableEq

namespace Fdb

open Call

def tableGet (key : FwdKey) : Call Fdb FwdEntry := do
  match (← read).fwdtable.get key with
  | none => throwing "Table get error"
  | some value => return value

def tableSet (key : FwdKey) (value : FwdEntry) : Call Fdb Unit := do
  let fdb ← read
  match fdb.fwdtable.set key value with
  | none => throwing "Table set error"
  | some fwdtable => write { fdb with fwdtable := fwdtable }

def tableRemove (key : FwdKey) : Call Fdb Unit := do
  let fdb ← read
  match fdb.fwdtable.remove key with
  | none => throwing "Table remove error"
  | some fwdtable => write { fdb with fwdtable := fwdtable }

/-- `mac_string_to_nbo_uint` -/
def macStringToNboUint (mac : MacText) : Call Fdb Mac :=
  match mac with
  | none => throwing "invalid mac address format"
  | some mac => return mac

/-! ### Requests

`now` is what `clock_gettime` gives. -/

/-- `FdbEntry::constructFromMap` -/
def constructFromMap (now : BitVec 32) (key : FwdKey) (value : FwdEntry) :
    Call Fdb (Option FdbEntry) := do
  let fdb ← read
  if value.type = .dynamic ∧ fdb.agingTime < now - value.timestamp then
    tableRemove key
    return none
  else
    match fdb.parent.portAt value.port with
    | none => throwing "Port id does not exist"
    | some p => return some ⟨key.1, key.2, now - value.timestamp, value.port, p.name, value.type⟩

def getEntry (now : BitVec 32) (vlan : Vlan) (mac : MacText) : Call Fdb FdbEntry :=
  lockGuard do
    let key := (vlan, ← macStringToNboUint mac)
    catching (do
        let value ← tableGet key
        match ← constructFromMap now key value with
        | none => throwing "Map entry not found"
        | some entry => return entry)
      fun _ => throwing "Map entry not found"

/-- The loop of `getEntryList`; the clock is read for each entry. -/
def constructAll (now : FwdKey → BitVec 32) : List (FwdKey × FwdEntry) → Call Fdb (List FdbEntry)
  | [] => return []
  | pair :: fdb => do
    let entry ← constructFromMap (now pair.1) pair.1 pair.2
    let entries ← constructAll now fdb
    return entry.toList ++ entries

def getEntryList (now : FwdKey → BitVec 32) : Call Fdb (List FdbEntry) :=
  lockGuard <| catching (do constructAll now (← read).fwdtable.entries)
    fun _ => throwing "Unable to get filtering database"

def addEntry (now : BitVec 32) (vlan : Vlan) (mac : MacText) (conf : FdbEntryConf) :
    Call Fdb Unit :=
  lockGuard do
    throwIf (PortOp.invalidVlan vlan) "Not a valid VLAN"
    match conf.port with
    | none => throwing "You should specify the output port for a STATIC entry"
    | some name =>
      match (← read).parent.portNamed name with
      | none => throwing ("Port " ++ name ++ " doesn't exist")
      | some p =>
        let key := (vlan, ← macStringToNboUint mac)
        tableSet key ⟨now, p.index, .static⟩

def addEntryList (now : BitVec 32) (conf : List FdbEntryConf) : Call Fdb Unit :=
  forEach (fun i => addEntry now i.vlan i.mac i) conf

def delEntry (now : BitVec 32) (vlan : Vlan) (mac : MacText) : Call Fdb Unit :=
  lockGuard do
    let _ ← catching (getEntry now vlan mac)
      fun _ => throwing "Filtering database entry not found"
    let key := (vlan, ← macStringToNboUint mac)
    catching (tableRemove key) fun _ => throwing "[MapEntry] does not exist"

def replaceEntry (now later : BitVec 32) (vlan : Vlan) (mac : MacText) (conf : FdbEntryConf) :
    Call Fdb Unit := do
  delEntry now vlan mac
  addEntry later conf.vlan conf.mac conf

/-- `remove_all` removes the first key of what is left, until nothing is. -/
def delEntryList : Call Fdb Unit :=
  lockGuard do forEach (fun pair => tableRemove pair.1) (← read).fwdtable.entries

def flush : Call Fdb Unit := catching delEntryList fun _ => pure ()

/-- `FdbEntry::setPort` -/
def setPort (now : BitVec 32) (entry : FdbEntry) (value : String) : Call Fdb Unit := do
  throwIf (entry.type = .dynamic)
    "Cannot set the port of a dynamic entry. Create a static one."
  match (← read).parent.portNamed value with
  | none => throwing ("Port " ++ value ++ " doesn't exist")
  | some p => tableSet (entry.vlan, entry.mac) ⟨now, p.index, entry.type⟩

/-- An entry of `FdbBase::update`. -/
def update (now later : BitVec 32) (conf : FdbEntryConf) : Call Fdb Unit := do
  let m ← getEntry now conf.vlan conf.mac
  match conf.port with
  | none => pure ()
  | some value => setPort later m value

def flushByPort (port : ℕ) : Call Fdb Unit :=
  lockGuard do
    forEach (fun pair => if pair.2.port = port then tableRemove pair.1 else pure ())
      (← read).fwdtable.entries

def flushOldEntries (now : BitVec 32) (vlan : Vlan) (maxAge : BitVec 32) : Call Fdb Unit :=
  lockGuard do
    forEach (fun pair =>
        if pair.2.type = .static then pure ()
        else if pair.1.1 ≠ vlan then pure ()
        else if now - pair.2.timestamp ≤ maxAge then pure ()
        else tableRemove pair.1)
      (← read).fwdtable.entries

/-! ### What they do to the table -/

structure From (fdb fdb' : Fdb) : Prop where
  parent : fdb'.parent = fdb.parent
  agingTime : fdb'.agingTime = fdb.agingTime
  entry : ∀ key e, fdb'.fwdtable.get key = some e → fdb.fwdtable.get key = some e ∨
    e.type = .static ∧ ∃ p, fdb.parent.portAt e.port = some p

structure Ages (fdb fdb' : Fdb) : Prop where
  parent : fdb'.parent = fdb.parent
  agingTime : fdb'.agingTime = fdb.agingTime
  entry : ∀ key e, fdb'.fwdtable.get key = some e → fdb.fwdtable.get key = some e
  static : ∀ key e, fdb.fwdtable.get key = some e → e.type = .static →
    fdb'.fwdtable.get key = some e

variable {fdb fdb' : Fdb} {m : Mutexed Fdb} {key : FwdKey} {value : FwdEntry} {now : BitVec 32}
  {vlan : Vlan} {mac : MacText}

theorem From.refl (fdb : Fdb) : From fdb fdb := ⟨rfl, rfl, fun _ _ => .inl⟩

theorem Ages.refl (fdb : Fdb) : Ages fdb fdb := ⟨rfl, rfl, fun _ _ => id, fun _ _ h _ => h⟩

theorem Ages.toFrom (h : Ages fdb fdb') : From fdb fdb' :=
  ⟨h.parent, h.agingTime, fun key e has => .inl (h.entry key e has)⟩

theorem ends_tableGet {f : FwdEntry → Call Fdb α} {Q : Mutexed Fdb → Prop} (h : Q m)
    (hf : ∀ value, m.state.fwdtable.get key = some value → Ends (f value) Q m) :
    Ends (tableGet key >>= f) Q m := by
  unfold Ends tableGet
  rw [wp_bind, wp_bind, wp_read]
  split
  · exact ⟨by simp, h⟩
  · rename_i value has
    exact hf value has

theorem ends_macStringToNboUint {Q : Mutexed Fdb → Prop} (h : Q m) :
    Ends (macStringToNboUint mac) Q m := by
  cases mac with
  | none => exact ends_throwing h
  | some mac => exact ends_pure h

theorem ends_tableRemove_dynamic (has : fdb.fwdtable.get key = some value)
    (dynamic : value.type ≠ .static) (h : Ages fdb m.state) :
    Ends (tableRemove key) (fun m' => Ages fdb m'.state) m := by
  unfold tableRemove
  refine ends_read ?_
  split
  · exact ends_throwing h
  · rename_i fwdtable removed
    refine ⟨h.parent, h.agingTime, fun k e has => h.entry k e ?_, fun k e here static => ?_⟩
    · rw [HashTable.get_remove removed] at has
      exact (Option.ite_none_left_eq_some.1 has).2
    · rw [HashTable.get_remove removed, if_neg]
      · exact h.static k e here static
      · rintro rfl
        rw [has, Option.some.injEq] at here
        exact dynamic (here ▸ static)

theorem ends_tableSet (static : value.type = .static)
    (port : ∃ p, fdb.parent.portAt value.port = some p) (h : From fdb m.state) :
    Ends (tableSet key value) (fun m' => From fdb m'.state ∧ m'.held = m.held) m := by
  unfold tableSet
  refine ends_read ?_
  split
  · exact ends_throwing ⟨h, rfl⟩
  · rename_i fwdtable set
    refine ⟨⟨h.parent, h.agingTime, fun k e has => ?_⟩, rfl⟩
    rw [HashTable.get_set set] at has
    split at has
    · obtain rfl := Option.some.inj has
      exact .inr ⟨static, port⟩
    · exact h.entry k e has

theorem portAt_of_portNamed {b : Bridge} {name : String} {p : Ports}
    (h : b.portNamed name = some p) : ∃ q, b.portAt p.index = some q := by
  refine Option.ne_none_iff_exists'.1 fun none => ?_
  refine findKey_eq_none_iff.1 none (List.mem_map_of_mem ?_)
  exact List.mem_of_find?_eq_some h

theorem ends_constructFromMap (has : fdb.fwdtable.get key = some value) (h : Ages fdb m.state) :
    Ends (constructFromMap now key value) (fun m' => Ages fdb m'.state) m := by
  unfold constructFromMap
  refine ends_read ?_
  split
  · rename_i old
    refine ends_bind (ends_tableRemove_dynamic has (by simp [old.1]) h) fun _ m' h' => ?_
    exact ends_pure h'
  · split
    · exact ends_throwing h
    · exact ends_pure h

theorem ends_getEntry (free : m.held = false) :
    Ends (getEntry now vlan mac) (fun m' => Ages m.state m'.state ∧ m'.held = false) m := by
  refine ends_guarded free ?_
  refine ends_bind (ends_macStringToNboUint (.refl _)) fun mac m' h => ?_
  refine ends_catching ?_ fun _ _ h => ends_throwing h
  refine ends_tableGet h fun value has => ?_
  refine ends_bind (ends_constructFromMap (h.entry _ _ has) h) fun entry m' h => ?_
  cases entry with
  | none => exact ends_throwing h
  | some entry => exact ends_pure h

theorem ends_constructAll {now : FwdKey → BitVec 32} {pairs : List (FwdKey × FwdEntry)}
    (has : ∀ pair ∈ pairs, fdb.fwdtable.get pair.1 = some pair.2) (h : Ages fdb m.state) :
    Ends (constructAll now pairs) (fun m' => Ages fdb m'.state) m := by
  induction pairs generalizing m with
  | nil => exact h
  | cons pair pairs ih =>
    refine ends_bind (ends_constructFromMap (has pair List.mem_cons_self) h) fun _ m' h => ?_
    refine ends_bind (ih (fun p hp => has p (List.mem_cons_of_mem _ hp)) h) fun _ m' h => ?_
    exact ends_pure h

theorem ends_getEntryList {now : FwdKey → BitVec 32} (free : m.held = false) :
    Ends (getEntryList now) (fun m' => Ages m.state m'.state ∧ m'.held = false) m := by
  refine ends_guarded free ?_
  refine ends_catching (ends_read ?_) fun _ _ h => ends_throwing h
  exact ends_constructAll (fun pair member => HashTable.get_eq_some_iff.2 member) (.refl _)

variable {conf : FdbEntryConf}

theorem ends_addEntry (free : m.held = false) :
    Ends (addEntry now vlan mac conf) (fun m' => From m.state m'.state ∧ m'.held = false) m := by
  refine ends_guarded free ?_
  have start : From m.state m.state := .refl _
  refine ends_throwIf start fun _ => ?_
  split
  · exact ends_throwing start
  · refine ends_read ?_
    split
    · exact ends_throwing start
    · rename_i found
      refine ends_bind (Q := fun m' => From m.state m'.state) (ends_macStringToNboUint start)
        fun mac m' h => ?_
      exact (ends_tableSet rfl (portAt_of_portNamed found) h).mono fun _ => And.left

theorem ends_setPort {entry : FdbEntry} {name : String} (h : From fdb m.state) :
    Ends (setPort now entry name) (fun m' => From fdb m'.state ∧ m'.held = m.held) m := by
  refine ends_throwIf ⟨h, rfl⟩ fun notDynamic => ends_read ?_
  have static : entry.type = .static := by
    cases type : entry.type with
    | static => rfl
    | dynamic => exact absurd type notDynamic
  split
  · exact ends_throwing ⟨h, rfl⟩
  · rename_i found
    have port := portAt_of_portNamed found
    rw [h.parent] at port
    exact ends_tableSet static port h

variable {later : BitVec 32}

theorem ends_update (free : m.held = false) :
    Ends (update now later conf) (fun m' => From m.state m'.state ∧ m'.held = false) m := by
  refine ends_bind (Q := fun m' => From m.state m'.state ∧ m'.held = false)
    ((ends_getEntry free).mono fun _ h => ⟨h.1.toFrom, h.2⟩) fun entry m' h => ?_
  split
  · exact ends_pure h
  · exact (ends_setPort h.1).mono fun _ h' => ⟨h'.1, h'.2.trans h.2⟩

/-! ### Loops that remove entries -/

structure Filters (p : FwdKey → FwdEntry → Bool) (fdb fdb' : Fdb) : Prop where
  parent : fdb'.parent = fdb.parent
  agingTime : fdb'.agingTime = fdb.agingTime
  entry : ∀ key, fdb'.fwdtable.get key = (fdb.fwdtable.get key).filter fun e => !p key e

def removals (p : FwdKey → FwdEntry → Bool) (pairs : List (FwdKey × FwdEntry)) : Call Fdb Unit :=
  forEach (fun pair => if p pair.1 pair.2 then tableRemove pair.1 else pure ()) pairs

theorem wp_tableRemove {ok : Unit → Mutexed Fdb → Prop} {err : Stop → Mutexed Fdb → Prop}
    (has : m.state.fwdtable.get key = some value) : wp (tableRemove key) ok err m ↔
      ok () { m with state := { m.state with fwdtable := m.state.fwdtable.erase key } } := by
  unfold tableRemove
  rw [wp_bind, wp_read, HashTable.remove_of_get has]
  exact wp_write

variable {p : FwdKey → FwdEntry → Bool}

/-- The pairs of the loop have different keys, so each is still there when it comes to it, and the
loop does not throw. -/
theorem wp_removals {pairs : List (FwdKey × FwdEntry)} (nodup : (pairs.map Prod.fst).Nodup)
    (has : ∀ pair ∈ pairs, m.state.fwdtable.get pair.1 = some pair.2) :
    wp (removals p pairs)
      (fun _ m' => (m'.state.parent = m.state.parent ∧ m'.state.agingTime = m.state.agingTime) ∧
        ∀ key, m'.state.fwdtable.get key =
          if pairs.any (fun x => x.1 = key && p key x.2) then none
          else m.state.fwdtable.get key)
      (fun _ _ => False) m := by
  induction pairs generalizing m with
  | nil =>
    refine ⟨⟨rfl, rfl⟩, fun key => ?_⟩
    rfl
  | cons pair pairs ih =>
    obtain ⟨k, v⟩ := pair
    rw [List.map_cons, List.nodup_cons] at nodup
    have other : ∀ e, (k, e) ∉ pairs := fun e member => nodup.1 (List.mem_map.2 ⟨_, member, rfl⟩)
    unfold removals
    rw [forEach, wp_bind]
    by_cases gone : p k v = true
    · rw [if_pos gone, wp_tableRemove (has _ List.mem_cons_self)]
      have still : ∀ pair ∈ pairs, (m.state.fwdtable.erase k).get pair.1 = some pair.2 := by
        rintro ⟨k', v'⟩ member
        rw [HashTable.get_erase, if_neg, has _ (List.mem_cons_of_mem _ member)]
        rintro rfl
        exact other v' member
      refine wp_mono (ih nodup.2 still) (fun _ m' h => ⟨h.1, fun key => ?_⟩) fun _ _ => id
      rw [h.2 key, HashTable.get_erase]
      rw [List.any_cons]
      by_cases same : k = key
      · rw [decide_eq_true same, ← same, gone, if_pos rfl]
        simp
      · rw [decide_eq_false same, Bool.false_and, Bool.false_or, if_neg (Ne.symm same)]
    · rw [if_neg gone, wp_pure]
      have still : ∀ pair ∈ pairs, m.state.fwdtable.get pair.1 = some pair.2 :=
        fun pair member => has _ (List.mem_cons_of_mem _ member)
      refine wp_mono (ih nodup.2 still) (fun _ m' h => ⟨h.1, fun key => ?_⟩) fun _ _ => id
      rw [h.2 key]
      rw [List.any_cons]
      by_cases same : k = key
      · rw [← same, Bool.eq_false_iff.2 gone, Bool.and_false, Bool.false_or]
      · rw [decide_eq_false same, Bool.false_and, Bool.false_or]

theorem ends_removals (free : m.held = false) :
    Ends (lockGuard do removals p (← read).fwdtable.entries)
      (fun m' => Filters p m.state m'.state ∧ m'.held = false) m := by
  refine ends_guarded free (ends_read ?_)
  have has : ∀ pair ∈ m.state.fwdtable.entries, m.state.fwdtable.get pair.1 = some pair.2 :=
    fun pair member => HashTable.get_eq_some_iff.2 member
  refine wp_mono (wp_removals m.state.fwdtable.nodup has) (fun _ m' h => ?_) fun _ _ => False.elim
  refine ⟨h.1.1, h.1.2, fun key => ?_⟩
  rw [h.2 key]
  cases found : m.state.fwdtable.get key with
  | none => simp
  | some e =>
    have only : ∀ e', (key, e') ∈ m.state.fwdtable.entries ↔ e' = e := by
      intro e'
      rw [← HashTable.get_eq_some_iff, found, Option.some.injEq, eq_comm]
    have any : m.state.fwdtable.entries.any (fun x => x.1 = key && p key x.2) = p key e := by
      rw [Bool.eq_iff_iff, List.any_eq_true]
      constructor
      · rintro ⟨⟨k, e'⟩, member, meets⟩
        rw [Bool.and_eq_true, decide_eq_true_eq] at meets
        obtain ⟨rfl, meets⟩ := meets
        exact (only e').1 member ▸ meets
      · intro meets
        exact ⟨(key, e), (only e).2 rfl, by simpa using meets⟩
    rw [any]
    by_cases gone : p key e = true <;> simp [gone, Option.filter]

theorem Filters.toFrom (h : Filters p fdb fdb') : From fdb fdb' := by
  refine ⟨h.parent, h.agingTime, fun key e has => .inl ?_⟩
  rw [h.entry key, Option.filter_eq_some_iff] at has
  exact has.1

theorem Filters.toAges (h : Filters p fdb fdb') (static : ∀ key e, e.type = .static → p key e = false) :
    Ages fdb fdb' := by
  refine ⟨h.parent, h.agingTime, fun key e has => ?_, fun key e has type => ?_⟩
  · rw [h.entry key, Option.filter_eq_some_iff] at has
    exact has.1
  · rw [h.entry key, Option.filter_eq_some_iff]
    exact ⟨has, by simp [static key e type]⟩

theorem ends_delEntryList (free : m.held = false) :
    Ends delEntryList (fun m' => Filters (fun _ _ => true) m.state m'.state ∧ m'.held = false) m := by
  have removes := ends_removals (p := fun _ _ => true) free
  simp only [removals, ↓reduceIte] at removes
  exact removes

theorem ends_flush (free : m.held = false) :
    Ends flush (fun m' => Filters (fun _ _ => true) m.state m'.state ∧ m'.held = false) m :=
  ends_catching (ends_delEntryList free) fun _ _ h => ends_pure h

theorem ends_flushByPort (port : ℕ) (free : m.held = false) :
    Ends (flushByPort port)
      (fun m' => Filters (fun _ e => e.port = port) m.state m'.state ∧ m'.held = false) m := by
  have removes := ends_removals (p := fun _ e => decide (e.port = port)) free
  simp only [removals, decide_eq_true_eq] at removes
  exact removes

def isOld (now : BitVec 32) (vlan : Vlan) (maxAge : BitVec 32) (key : FwdKey) (e : FwdEntry) : Bool :=
  e.type ≠ .static ∧ key.1 = vlan ∧ ¬ now - e.timestamp ≤ maxAge

theorem ends_flushOldEntries {maxAge : BitVec 32} (free : m.held = false) :
    Ends (flushOldEntries now vlan maxAge)
      (fun m' => Filters (isOld now vlan maxAge) m.state m'.state ∧ m'.held = false) m := by
  have round : (fun pair : FwdKey × FwdEntry =>
      if isOld now vlan maxAge pair.1 pair.2 then tableRemove pair.1 else pure ()) =
        fun pair =>
          if pair.2.type = .static then pure ()
          else if pair.1.1 ≠ vlan then pure ()
          else if now - pair.2.timestamp ≤ maxAge then pure ()
          else tableRemove pair.1 := by
    funext pair
    unfold isOld
    by_cases static : pair.2.type = .static
    · simp [static]
    · by_cases here : pair.1.1 = vlan
      · by_cases young : now - pair.2.timestamp ≤ maxAge <;> simp [static, here, young]
      · simp [static, here]
  have removes := ends_removals (p := isOld now vlan maxAge) free
  unfold removals at removes
  rw [round] at removes
  exact removes

theorem from_update (m : Mutexed Fdb) : From m.state ((update now later conf).after m).state := by
  cases held : m.held with
  | true =>
    have blocks : Blocks (update now later conf) m := by
      rw [update, getEntry]
      exact blocks_bind (blocks_lockGuard held)
    rw [blocks.after]
    exact .refl _
  | false => exact (ends_update held).after.1

theorem ages_flushOldEntries {maxAge : BitVec 32} (m : Mutexed Fdb) :
    Ages m.state ((flushOldEntries now vlan maxAge).after m).state := by
  cases held : m.held with
  | true =>
    have blocks : Blocks (flushOldEntries now vlan maxAge) m := blocks_lockGuard held
    rw [blocks.after]
    exact .refl _
  | false =>
    refine (ends_flushOldEntries held).after.1.toAges fun key e static => ?_
    unfold isOld
    simp [static]

/-! ### The mutex, taken twice -/

/-- `delEntry` waits for the mutex that it holds, whatever the table has. -/
theorem wp_delEntry (free : m.held = false) :
    wp (delEntry now vlan mac) (fun _ _ => False)
      (fun e m' => e = .blocked ∧ m' = { m with held := true }) m := by
  unfold delEntry
  rw [wp_lockGuard_free free, wp_bind, wp_catching]
  unfold getEntry
  rw [wp_lockGuard_held rfl]
  exact ⟨rfl, rfl⟩

theorem wp_replaceEntry (free : m.held = false) :
    wp (replaceEntry now later vlan mac conf) (fun _ _ => False)
      (fun e m' => e = .blocked ∧ m' = { m with held := true }) m := by
  unfold replaceEntry
  rw [wp_bind]
  exact wp_mono (wp_delEntry free) (fun _ _ => False.elim) fun _ _ => id

inductive Request
  | getEntry (now : BitVec 32) (vlan : Vlan) (mac : MacText)
  | getEntryList (now : FwdKey → BitVec 32)
  | addEntry (now : BitVec 32) (vlan : Vlan) (mac : MacText) (conf : FdbEntryConf)
  | replaceEntry (now later : BitVec 32) (vlan : Vlan) (mac : MacText) (conf : FdbEntryConf)
  | delEntry (now : BitVec 32) (vlan : Vlan) (mac : MacText)
  | delEntryList
  | flush

namespace Request

def call : Request → Call Fdb Unit
  | getEntry now vlan mac => do let _ ← Fdb.getEntry now vlan mac
  | getEntryList now => do let _ ← Fdb.getEntryList now
  | addEntry now vlan mac conf => Fdb.addEntry now vlan mac conf
  | replaceEntry now later vlan mac conf => Fdb.replaceEntry now later vlan mac conf
  | delEntry now vlan mac => Fdb.delEntry now vlan mac
  | delEntryList => Fdb.delEntryList
  | flush => Fdb.flush

def looksUp : Request → Bool
  | replaceEntry .. | delEntry .. => true
  | _ => false

def addressed (fdb : Fdb) (vlan : Vlan) (mac : MacText) : Option (FwdKey × FwdEntry) := do
  let mac ← mac
  let value ← fdb.fwdtable.get (vlan, mac)
  return ((vlan, mac), value)

/-- `delEntry` removes the addressed entry, and throws without a change if there is none. -/
def Removes (now : BitVec 32) (vlan : Vlan) (mac : MacText) (fdb : Fdb) : Prop :=
  match addressed fdb vlan mac with
  | some (key, _) =>
    wp (Fdb.delEntry now vlan mac)
      (fun _ m => m = .free { fdb with fwdtable := fdb.fwdtable.erase key }) (fun _ _ => False)
      (.free fdb)
  | none =>
    wp (Fdb.delEntry now vlan mac) (fun _ _ => False)
      (fun e m => e ≠ .blocked ∧ m = .free fdb) (.free fdb)

def Does (fdb : Fdb) : Request → Prop
  | delEntry now vlan mac => Removes now vlan mac fdb
  | replaceEntry now later vlan mac conf =>
    (Fdb.replaceEntry now later vlan mac conf).run (.free fdb) =
      (do Fdb.delEntry now vlan mac; Fdb.addEntry later conf.vlan conf.mac conf :
        Call Fdb Unit).run (.free fdb)
  | _ => True

def Completes (fdb : Fdb) (r : Request) : Prop :=
  r.call.Finishes (.free fdb) ∧ r.Does fdb

variable {r : Request}

theorem finishes_of_not_looksUp (h : r.looksUp = false) : r.call.Finishes (.free fdb) := by
  have free : (Mutexed.free fdb).held = false := rfl
  cases r with
  | getEntry now vlan mac =>
    exact (ends_bind (ends_getEntry free) fun _ _ h => ends_pure h).finishes
  | getEntryList now =>
    exact (ends_bind (ends_getEntryList free) fun _ _ h => ends_pure h).finishes
  | addEntry now vlan mac conf => exact (ends_addEntry free).finishes
  | replaceEntry now later vlan mac conf => cases h
  | delEntry now vlan mac => cases h
  | delEntryList => exact (ends_delEntryList free).finishes
  | flush => exact (ends_flush free).finishes

theorem not_finishes_of_looksUp (h : r.looksUp = true) : ¬ r.call.Finishes (.free fdb) := by
  have free : (Mutexed.free fdb).held = false := rfl
  have blocks : wp r.call (fun _ _ => False)
      (fun e m' => e = .blocked ∧ m' = { Mutexed.free fdb with held := true }) (.free fdb) := by
    cases r with
    | replaceEntry now later vlan mac conf => exact wp_replaceEntry free
    | delEntry now vlan mac => exact wp_delEntry free
    | _ => cases h
  intro finishes
  have both := wp_and blocks finishes
  unfold wp at both
  split at both
  · exact both.1
  · exact both.2 both.1.1

theorem from_after (r : Request) (m : Mutexed Fdb) : From m.state (r.call.after m).state := by
  cases held : m.held with
  | true =>
    have blocks : Blocks r.call m := by
      cases r with
      | getEntry now vlan mac => exact blocks_bind (blocks_lockGuard held)
      | getEntryList now => exact blocks_bind (blocks_lockGuard held)
      | addEntry now vlan mac conf => exact blocks_lockGuard held
      | replaceEntry now later vlan mac conf => exact blocks_bind (blocks_lockGuard held)
      | delEntry now vlan mac =>
        rw [call, Fdb.delEntry]
        exact blocks_lockGuard held
      | delEntryList => exact blocks_lockGuard held
      | flush => exact blocks_catching (blocks_lockGuard held)
    rw [blocks.after]
    exact .refl _
  | false =>
    have stuck : ∀ x : Call Fdb Unit, wp x (fun _ _ => False)
        (fun e m' => e = .blocked ∧ m' = { m with held := true }) m →
          From m.state (x.after m).state := by
      intro x h
      have after : x.after m = { m with held := true } :=
        wp_after.1 (wp_mono h (fun _ _ => False.elim) fun _ _ h => h.2)
      rw [after]
      exact .refl _
    cases r with
    | getEntry now vlan mac =>
      exact (ends_bind (ends_getEntry held) fun _ _ h => ends_pure h).after.1.toFrom
    | getEntryList now =>
      exact (ends_bind (ends_getEntryList held) fun _ _ h => ends_pure h).after.1.toFrom
    | addEntry now vlan mac conf => exact (ends_addEntry held).after.1
    | replaceEntry now later vlan mac conf => exact stuck _ (wp_replaceEntry held)
    | delEntry now vlan mac => exact stuck _ (wp_delEntry held)
    | delEntryList => exact (ends_delEntryList held).after.1.toFrom
    | flush => exact (ends_flush held).after.1.toFrom

/-- Requests that only read leave the static entries. -/
theorem ages_after (reads : (∃ now vlan mac, r = getEntry now vlan mac) ∨
    ∃ now, r = getEntryList now) (m : Mutexed Fdb) : Ages m.state (r.call.after m).state := by
  cases held : m.held with
  | true =>
    have blocks : Blocks r.call m := by
      rcases reads with ⟨now, vlan, mac, rfl⟩ | ⟨now, rfl⟩ <;>
        exact blocks_bind (blocks_lockGuard held)
    rw [blocks.after]
    exact .refl _
  | false =>
    rcases reads with ⟨now, vlan, mac, rfl⟩ | ⟨now, rfl⟩
    · exact (ends_bind (ends_getEntry held) fun _ _ h => ends_pure h).after.1
    · exact (ends_bind (ends_getEntryList held) fun _ _ h => ends_pure h).after.1

/-- Exactly the requests that do not look for an entry to remove complete. -/
theorem completes_iff (fdb : Fdb) (r : Request) : r.Completes fdb ↔ r.looksUp = false := by
  constructor
  · rintro ⟨finishes, -⟩
    rw [← Bool.not_eq_true]
    exact fun looksUp => not_finishes_of_looksUp looksUp finishes
  · intro h
    refine ⟨finishes_of_not_looksUp h, ?_⟩
    cases r with
    | replaceEntry now later vlan mac conf => cases h
    | delEntry now vlan mac => cases h
    | _ => exact trivial

def oneEntry : Fdb where
  parent := ⟨false, [⟨"port", 1, .access 10#16, []⟩], fun _ => none, ⟨fun _ => none, fun _ _ => none⟩⟩
  agingTime := 300
  fwdtable := ⟨[((10, 5), ⟨0, 1, .static⟩)], by simp, by simp⟩

/-- The removal of the entry does not end. -/
theorem not_completes_delEntry :
    ¬ ∀ fdb now vlan mac, (Request.delEntry now vlan mac).Completes fdb := by
  intro completes
  exact not_finishes_of_looksUp rfl (completes oneEntry 0 10 (some 5)).1

end Request

end Fdb

end Polycube.Bridging.Filtering
