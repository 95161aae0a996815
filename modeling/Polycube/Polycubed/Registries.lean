import Polycube.Lib.Run
import Polycube.Polycubed.Records

/-!
# The registries of cubes

A cube is listed by its service, held by the library and by the factory of the service, registered
in the two global tables, linked from the root and recorded in the saved configuration.  Requests
are served by several threads, and write the registries one after the other.
-/

namespace Polycube.Polycubed.Registries

open Function

open Lib Records

/-- The registries at a name: the services whose `cube_names_`, whose library's `cubes` and whose
factory's `cubes_` have it, `ServiceController::cubes`, `cubes_x_service`, `root_routes` and
`cubes_config_`. -/
structure Entry where
  names : Finset String
  lib : Finset String
  factory : Finset String
  cubes : Bool
  owner : Option String
  route : Bool
  saved : Bool
  deriving DecidableEq

inductive Made
  | created | updated | failed
  deriving DecidableEq

inductive Pc
  -- a new cube
  | parse | check | validate | libCheck | build | register | construct | unregister | unbuild
  | libInsert | addName | save
  -- an update
  | validateUpdate | write | saveUpdate
  -- both
  | ports (made : Made) | route (made : Made)
  -- a deletion
  | checkThere | removeName | removeRoute | libErase | unregisterErased | unbuildErased
  | eraseSaved (failed : Bool)
  deriving DecidableEq

inductive Next
  | go (pc : Pc)
  | respond (rejected : Bool)
  /-- a null pointer is used -/
  | crash
  deriving DecidableEq

structure Turn where
  entry : Entry
  save : Option Bool
  next : Next

/-- `get_cube` finds a cube of a service whose cubes are not transparent. -/
def Entry.hasCube (standard : String → Bool) (e : Entry) : Bool := e.cubes && e.owner.any standard

/-- `Service::CreateReplaceUpdate` and `Service::del`, with what they call.  `o` is what comes of
what is not said here; `recorded` is whether the saved configuration has the name in the path. -/
def turn (standard : String → Bool) (dump recorded : Bool) (s : String) (e : Entry) (o : Bool) : Pc → Turn
  | .parse => ⟨e, none, if o then .go .check else .respond true⟩
  | .check => ⟨e, none, if e.cubes then .respond true else .go .validate⟩
  | .validate => ⟨e, none, if o then .go .libCheck else .respond true⟩
  | .libCheck => ⟨e, none, .go (if s ∈ e.lib then .ports .failed else .build)⟩
  -- the programs may not be loaded
  | .build =>
    if o = false then ⟨e, none, .go (.ports .failed)⟩
    else if s ∈ e.factory then ⟨e, none, .crash⟩
    else ⟨{ e with factory := insert s e.factory }, none, .go .register⟩
  -- `emplace`, which does not tell whether the name is there
  | .register => ⟨{ e with cubes := true, owner := e.owner.or (some s) }, none, .go .construct⟩
  | .construct => ⟨e, none, .go (if o then .libInsert else .unregister)⟩
  | .unregister => ⟨{ e with cubes := false, owner := none }, none, .go .unbuild⟩
  | .unbuild => ⟨{ e with factory := e.factory.erase s }, none, .go (.ports .failed)⟩
  | .libInsert =>
    if s ∈ e.lib then ⟨e, none, .go .unregister⟩
    else ⟨{ e with lib := insert s e.lib }, none, .go .addName⟩
  | .addName => ⟨{ e with names := insert s e.names }, none, .go .save⟩
  | .save => ⟨e, if dump then some true else none, .go (.ports .created)⟩
  | .validateUpdate => ⟨e, none, if o then .go .write else .respond true⟩
  | .write => ⟨e, none, .go (if s ∈ e.lib ∧ o = true then .saveUpdate else .ports .failed)⟩
  -- `at`
  | .saveUpdate =>
    ⟨e, none, if dump = true ∧ recorded = false then .respond true else .go (.ports .updated)⟩
  -- a port may not take its configuration; where the cube is not there, the first one that has
  -- transparent cubes is asked of a null pointer
  | .ports made =>
    if o then ⟨e, none, .go (.route made)⟩
    else ⟨e, none, if e.hasCube standard then .respond true else .crash⟩
  | .route made => ⟨{ e with route := true }, none, .respond (made = .failed)⟩
  | .checkThere => ⟨e, none, if e.cubes then .go .removeName else .respond true⟩
  | .removeName => ⟨{ e with names := e.names.erase s }, none, .go .removeRoute⟩
  | .removeRoute => ⟨{ e with route := false }, none, .go .libErase⟩
  | .libErase =>
    if s ∈ e.lib then ⟨{ e with lib := e.lib.erase s }, none, .go .unregisterErased⟩
    else ⟨e, none, .go (.eraseSaved true)⟩
  -- `destroy_cube`
  | .unregisterErased =>
    if s ∈ e.factory then ⟨{ e with cubes := false, owner := none }, none, .go .unbuildErased⟩
    else ⟨e, none, .go (.eraseSaved false)⟩
  | .unbuildErased => ⟨{ e with factory := e.factory.erase s }, none, .go (.eraseSaved false)⟩
  | .eraseSaved failed => ⟨e, if dump then some false else none, .respond failed⟩

/-- A request to the service `service` for the cube `name`; what its first change has found at the
name, and what its last one has left. -/
structure Request where
  service : String
  name : String
  pc : Pc
  changes : Option (Entry × Entry)

inductive Kind
  | create | update | delete
  deriving DecidableEq

def Kind.start : Kind → Pc
  | create => .parse
  | update => .validateUpdate
  | delete => .checkThere

/-- The registries and the requests that are served, by their threads.  `changed` tells that a
request has been rejected behind changes. -/
structure State where
  entries : String → Entry
  requests : ℕ → Option Request
  changed : Bool
  crashed : Bool

def absent (linked : Bool) : Entry := ⟨∅, ∅, ∅, false, none, linked, false⟩

def State.start (services : Finset String) : State :=
  ⟨fun n => absent (n ∈ services), fun _ => none, false, false⟩

def State.put (st : State) (name : String) (e : Entry) : State :=
  { st with entries := update st.entries name e }

def State.saveAt (st : State) (name : String) : Option Bool → State
  | none => st
  | some saved => st.put (recordName name) { st.entries (recordName name) with saved := saved }

def State.setRequest (st : State) (i : ℕ) (r : Option Request) : State :=
  { st with requests := update st.requests i r }

def track (changes : Option (Entry × Entry)) (e e' : Entry) : Option (Entry × Entry) :=
  if e' = e then changes else some ((changes.map Prod.fst).getD e, e')

def isChange : Option (Entry × Entry) → Bool
  | none => false
  | some (e, e') => e ≠ e'

def State.follow (st : State) (i : ℕ) (r : Request) (changes : Option (Entry × Entry)) :
    Next → State
  | .go pc => st.setRequest i (some { r with pc := pc, changes := changes })
  | .respond rejected =>
    { st.setRequest i none with changed := st.changed || rejected && isChange changes }
  | .crash => { st.setRequest i none with crashed := true }

def State.turnOf (standard : String → Bool) (dump : Bool) (st : State) (r : Request) (o : Bool) : Turn :=
  turn standard dump (st.entries (recordName r.name)).saved r.service (st.entries r.name) o r.pc

def State.written (st : State) (name : String) (t : Turn) : State :=
  (st.put name t.entry).saveAt name t.save

def State.advance (standard : String → Bool) (dump : Bool) (st : State) (i : ℕ) (r : Request)
    (o : Bool) : State :=
  (st.written r.name (st.turnOf standard dump r o)).follow i r
    (track r.changes (st.entries r.name)
      ((st.written r.name (st.turnOf standard dump r o)).entries r.name)) (st.turnOf standard dump r o).next

inductive Ev
  | receive (i : ℕ) (kind : Kind) (service name : String)
  | go (i : ℕ) (o : Bool)

def State.step (standard : String → Bool) (dump : Bool) (st : State) : Ev → State
  | .receive i kind service name =>
    match st.requests i with
    | some _ => st
    | none => st.setRequest i (some ⟨service, name, kind.start, none⟩)
  | .go i o =>
    match st.requests i with
    | none => st
    | some r => st.advance standard dump i r o

def entryOf (dump linked : Bool) : Option String → Entry
  | none => absent linked
  | some s => ⟨{s}, {s}, {s}, true, some s, true, dump⟩

structure Agreed (dump : Bool) (services : Finset String) (st : State) : Prop where
  quiet : ∀ n, (∀ i r, st.requests i = some r → r.name ≠ n) →
    ∃ o, st.entries n = entryOf dump (n ∈ services) o
  unchanged : st.changed = false
  alive : st.crashed = false

def Pc.active : Pc → Bool
  | parse | check | validateUpdate | write | checkThere => false
  | ports made | route made => made ≠ .failed
  | eraseSaved failed => failed = false
  | _ => true

def State.Free (st : State) (i : ℕ) (name : String) : Prop :=
  ∀ j r, st.requests j = some r → j ≠ i → r.name = name → r.pc.active = false

/-- What a step must meet: a request that gets past its check is the only one for its name, and a
deletion goes to the service of the cube, which is not called as a service; the name of a cube that
is saved is the one in its record; the ports of a new cube take their configuration, and the body has
no ports with transparent cubes where the name has no cube with ports; and behind an operation that
has failed the link is there. -/
def State.Fine (standard : String → Bool) (dump : Bool) (services : Finset String) (st : State) : Ev → Prop
  | .receive _ _ _ _ => True
  | .go i o => ∀ r, st.requests i = some r →
    match r.pc with
    | .check => (st.entries r.name).cubes = false → st.Free i r.name
    | .write => r.service ∈ (st.entries r.name).lib → o = true → st.Free i r.name
    | .checkThere => (st.entries r.name).cubes = true → st.Free i r.name ∧
        (st.entries r.name).owner = some r.service ∧ r.name ∉ services
    | .save => dump = true → recordName r.name = r.name
    | .ports made => made = .created ∨ (st.entries r.name).hasCube standard = false → o = true
    | .route .failed => (st.entries r.name).route = true
    | _ => True

variable {standard : String → Bool}

section Steps

variable {dump : Bool} {st : State} {i : ℕ} {r : Request} {o : Bool} {name : String}

def Turn.wrote (t : Turn) : Entry :=
  match t.save with
  | none => t.entry
  | some saved => { t.entry with saved := saved }

@[simp] theorem put_same (e : Entry) : (st.put name e).entries name = e := update_self ..

theorem put_other {e : Entry} {m : String} (h : m ≠ name) :
    (st.put name e).entries m = st.entries m :=
  update_of_ne h ..

theorem put_put (e e' : Entry) : (st.put name e).put name e' = st.put name e' := by
  unfold State.put
  rw [update_idem]

theorem written_eq {t : Turn} (h : ∀ saved, t.save = some saved → recordName name = name) :
    st.written name t = st.put name t.wrote := by
  unfold State.written Turn.wrote
  cases hs : t.save with
  | none => rfl
  | some saved =>
    unfold State.saveAt
    dsimp only
    rw [h saved hs, put_same, put_put]

theorem advance_eq (h : ∀ saved, (st.turnOf standard dump r o).save = some saved →
    recordName r.name = r.name) :
    st.advance standard dump i r o = (st.put r.name (st.turnOf standard dump r o).wrote).follow i r
      (track r.changes (st.entries r.name) (st.turnOf standard dump r o).wrote)
      (st.turnOf standard dump r o).next := by
  unfold State.advance
  rw [written_eq h, put_same]

@[simp] theorem track_self (changes : Option (Entry × Entry)) (e : Entry) :
    track changes e e = changes :=
  if_pos rfl

end Steps

def entryAt (dump linked : Bool) (s : String) : Pc → Entry
  | .register | .unbuild => { absent linked with factory := {s} }
  | .construct | .libInsert | .unregister =>
    { absent linked with factory := {s}, cubes := true, owner := some s }
  | .addName => { absent linked with lib := {s}, factory := {s}, cubes := true, owner := some s }
  | .save =>
    { absent linked with names := {s}, lib := {s}, factory := {s}, cubes := true, owner := some s }
  | .ports .created | .route .created => ⟨{s}, {s}, {s}, true, some s, linked, dump⟩
  | .saveUpdate | .ports .updated | .route .updated | .removeName => entryOf dump linked (some s)
  | .removeRoute => ⟨∅, {s}, {s}, true, some s, true, dump⟩
  | .libErase => ⟨∅, {s}, {s}, true, some s, false, dump⟩
  | .unregisterErased => ⟨∅, ∅, {s}, true, some s, false, dump⟩
  | .unbuildErased => ⟨∅, ∅, {s}, false, none, false, dump⟩
  | .eraseSaved _ => ⟨∅, ∅, ∅, false, none, false, dump⟩
  | _ => absent linked

def ChangesFit (linked : Bool) (s : String) (changes : Option (Entry × Entry)) : Pc → Prop
  | .register | .unbuild => changes = some (absent linked, { absent linked with factory := {s} })
  | .construct | .libInsert | .unregister => changes = some (absent linked,
      { absent linked with factory := {s}, cubes := true, owner := some s })
  | .ports .failed | .route .failed => isChange changes = false
  | .addName | .save | .ports .created | .route .created => True
  | .removeRoute | .libErase | .unregisterErased | .unbuildErased | .eraseSaved false => True
  | .eraseSaved true => False
  | _ => changes = none

def Pc.deletes : Pc → Bool
  | removeName | removeRoute | libErase | unregisterErased | unbuildErased | eraseSaved _ => true
  | _ => false

variable {dump : Bool} {services : Finset String}

structure Fits (dump : Bool) (services : Finset String) (r : Request) : Prop where
  changes : ChangesFit (r.name ∈ services) r.service r.changes r.pc
  deletes : r.pc.deletes = true → r.name ∉ services

structure Inv (dump : Bool) (services : Finset String) (st : State) : Prop where
  active : ∀ i r, st.requests i = some r → r.pc.active = true →
    st.entries r.name = entryAt dump (r.name ∈ services) r.service r.pc ∧ st.Free i r.name
  idle : ∀ n, (∀ i r, st.requests i = some r → r.name = n → r.pc.active = false) →
    ∃ o, st.entries n = entryOf dump (n ∈ services) o
  fits : ∀ i r, st.requests i = some r → Fits dump services r
  recorded : ∀ n, dump = true → (st.entries n).saved = true → recordName n = n
  unchanged : st.changed = false
  alive : st.crashed = false

section Invariant

variable {st : State} {i : ℕ} {r : Request}

/-- A request goes on, or is done: what it leaves at its name concerns no other request that is past
its check, or is what there was. -/
theorem Inv.move (inv : Inv dump services st) (hr : st.requests i = some r) {e : Entry}
    {next : Option Request} {changed : Bool} (own : st.Free i r.name ∨ e = st.entries r.name)
    (going : ∀ r', next = some r' → r'.name = r.name ∧ Fits dump services r' ∧
      (r'.pc.active = true → e = entryAt dump (r'.name ∈ services) r'.service r'.pc ∧
        st.Free i r.name))
    (rest : (∀ r', next = some r' → r'.pc.active = false) → st.Free i r.name →
      ∃ o, e = entryOf dump (r.name ∈ services) o)
    (recorded : dump = true → e.saved = true → recordName r.name = r.name)
    (unchanged : changed = false) :
    Inv dump services { (st.put r.name e).setRequest i next with changed := changed } := by
  have request : ∀ j r', update st.requests i next j = some r' →
      (j = i ∧ next = some r') ∨ (j ≠ i ∧ st.requests j = some r') := by
    intro j r' h
    by_cases hj : j = i
    · rw [hj, update_self] at h
      exact .inl ⟨hj, h⟩
    · rw [update_of_ne hj] at h
      exact .inr ⟨hj, h⟩
  refine ⟨fun j r' h active => ?_, fun n none => ?_, fun j r' h => ?_, fun n hd saved => ?_,
    unchanged, inv.alive⟩
  · rcases request j r' h with ⟨rfl, hnext⟩ | ⟨hj, h⟩
    · obtain ⟨same, -, now⟩ := going r' hnext
      obtain ⟨he, free⟩ := now active
      refine ⟨?_, fun k r'' hk other hn => ?_⟩
      · show (st.put r.name e).entries r'.name = _
        rw [same, put_same, he, same]
      · rcases request k r'' hk with ⟨rfl, -⟩ | ⟨-, hk⟩
        · exact absurd rfl other
        · exact free k r'' hk other (hn.trans same)
    · obtain ⟨he, free⟩ := inv.active j r' h active
      have lone : r'.name = r.name → ¬st.Free i r.name := fun hn free => by
        rw [free j r' h hj hn] at active
        cases active
      refine ⟨?_, fun k r'' hk other hn => ?_⟩
      · show (st.put r.name e).entries r'.name = _
        by_cases hn : r'.name = r.name
        · rw [hn, put_same, own.resolve_left (lone hn), ← hn]
          exact he
        · rw [put_other hn]
          exact he
      · rcases request k r'' hk with ⟨rfl, hnext⟩ | ⟨-, hk⟩
        · obtain ⟨same, -, now⟩ := going r'' hnext
          rw [← Bool.not_eq_true]
          exact fun active' => lone (hn.symm.trans same) (now active').2
        · exact free k r'' hk other hn
  · by_cases hn : n = r.name
    · show ∃ o, (st.put r.name e).entries n = _
      rw [hn, put_same]
      refine rest (fun r' h => ?_) fun j r' h other hj => ?_
      · exact none i r' ((update_self ..).trans h) ((going r' h).1.trans hn.symm)
      · exact none j r' ((update_of_ne other ..).trans h) (hj.trans hn.symm)
    · show ∃ o, (st.put r.name e).entries n = _
      rw [put_other hn]
      refine inv.idle n fun j r' h hj => ?_
      by_cases other : j = i
      · rw [other, hr] at h
        exact absurd (hj.symm.trans (congrArg Request.name (Option.some.inj h)).symm) hn
      · exact none j r' ((update_of_ne other ..).trans h) hj
  · rcases request j r' h with ⟨-, h⟩ | ⟨-, h⟩
    · exact (going r' h).2.1
    · exact inv.fits j r' h
  · by_cases hn : n = r.name
    · rw [hn] at saved ⊢
      exact recorded hd ((congrArg Entry.saved (put_same e)).symm.trans saved)
    · exact inv.recorded n hd ((congrArg Entry.saved (put_other hn)).symm.trans saved)

theorem Inv.goes (inv : Inv dump services st) (hr : st.requests i = some r) {e : Entry} {pc : Pc}
    {changes : Option (Entry × Entry)} (own : st.Free i r.name ∨ e = st.entries r.name)
    (fits : Fits dump services { r with pc := pc, changes := changes })
    (active : pc.active = true →
      e = entryAt dump (r.name ∈ services) r.service pc ∧ st.Free i r.name)
    (rest : pc.active = false → st.Free i r.name → ∃ o, e = entryOf dump (r.name ∈ services) o)
    (recorded : dump = true → e.saved = true → recordName r.name = r.name) :
    Inv dump services ((st.put r.name e).follow i r changes (.go pc)) := by
  refine inv.move hr own (fun r' h => ?_) (fun none => rest (none _ rfl)) recorded inv.unchanged
  obtain rfl := Option.some.inj h
  exact ⟨rfl, fits, active⟩

theorem Inv.responds (inv : Inv dump services st) (hr : st.requests i = some r) {e : Entry}
    {rejected : Bool} {changes : Option (Entry × Entry)}
    (own : st.Free i r.name ∨ e = st.entries r.name)
    (rest : st.Free i r.name → ∃ o, e = entryOf dump (r.name ∈ services) o)
    (recorded : dump = true → e.saved = true → recordName r.name = r.name)
    (kept : rejected = true → isChange changes = false) :
    Inv dump services ((st.put r.name e).follow i r changes (.respond rejected)) := by
  refine inv.move hr own (fun r' h => nomatch h) (fun _ => rest) recorded ?_
  rw [show (st.put r.name e).changed = false from inv.unchanged, Bool.false_or]
  cases rejected with
  | false => rfl
  | true => rw [kept rfl]; rfl

end Invariant

/-- What is left at the name is what the rest of the request starts from, or the registries agree
and the request is done. -/
def Follows (dump linked : Bool) (s : String) (changes : Option (Entry × Entry)) (e : Entry) :
    Next → Prop
  | .go pc => (pc.active = true → e = entryAt dump linked s pc) ∧
      (pc.active = false → ∃ o, e = entryOf dump linked o) ∧ ChangesFit linked s changes pc ∧
      (pc.deletes = true → linked = false)
  | .respond rejected =>
    (∃ o, e = entryOf dump linked o) ∧ (rejected = true → isChange changes = false)
  | .crash => False

section Active

variable {linked recorded o : Bool} {s : String} {changes : Option (Entry × Entry)} {pc : Pc}

section Track

variable {e e' a b : Entry} {next : Next}

theorem follows_same (h : Follows dump linked s changes e next) :
    Follows dump linked s (track changes e e) e next := by
  rwa [track_self]

theorem follows_first (fit : changes = none) (ne : e' ≠ e)
    (h : Follows dump linked s (some (e, e')) e' next) :
    Follows dump linked s (track changes e e') e' next := by
  unfold track
  rwa [if_neg ne, fit]

theorem follows_more (fit : changes = some (a, b)) (ne : e' ≠ e)
    (h : Follows dump linked s (some (a, e')) e' next) :
    Follows dump linked s (track changes e e') e' next := by
  unfold track
  rwa [if_neg ne, fit]

end Track

theorem isChange_self (e : Entry) : isChange (some (e, e)) = false := by
  unfold isChange
  simp

theorem active_follows {t : Turn} (active : pc.active = true)
    (fit : ChangesFit linked s changes pc) (deletes : pc.deletes = true → linked = false)
    (found : pc = .saveUpdate → dump = true → recorded = true)
    (ports : ∀ made, pc = .ports made → made = .created ∨ standard s = false → o = true)
    (ht : t = turn standard dump recorded s (entryAt dump linked s pc) o pc) :
    Follows dump linked s (track changes (entryAt dump linked s pc) t.wrote) t.wrote t.next := by
  cases pc with
  | parse => cases active
  | check => cases active
  | validateUpdate => cases active
  | write => cases active
  | checkThere => cases active
  | validate =>
    obtain rfl : changes = none := fit
    cases o <;> rw [ht]
    · exact follows_same ⟨⟨none, rfl⟩, fun _ => rfl⟩
    · exact follows_same ⟨fun _ => rfl, nofun, rfl, nofun⟩
  | libCheck =>
    obtain rfl : changes = none := fit
    rw [ht]
    exact follows_same ⟨fun _ => rfl, nofun, rfl, nofun⟩
  | build =>
    obtain rfl : changes = none := fit
    cases o <;> rw [ht]
    · exact follows_same ⟨nofun, fun _ => ⟨none, rfl⟩, rfl, nofun⟩
    · refine follows_first rfl (fun h => ?_) ⟨fun _ => rfl, nofun, rfl, nofun⟩
      exact Finset.insert_ne_empty s ∅ (congrArg Entry.factory h)
  | register =>
    rw [ht]
    refine follows_more fit (fun h => ?_) ⟨fun _ => rfl, nofun, rfl, nofun⟩
    cases congrArg Entry.cubes h
  | construct =>
    cases o <;> rw [ht]
    · exact follows_same ⟨fun _ => rfl, nofun, fit, nofun⟩
    · exact follows_same ⟨fun _ => rfl, nofun, fit, nofun⟩
  | unregister =>
    rw [ht]
    refine follows_more fit (fun h => ?_) ⟨fun _ => rfl, nofun, rfl, nofun⟩
    cases congrArg Entry.cubes h
  | unbuild =>
    have back : t = ⟨absent linked, none, .go (.ports .failed)⟩ := by
      rw [ht]
      simp [turn, entryAt, absent]
    rw [back]
    refine follows_more fit (fun h => ?_) ⟨nofun, fun _ => ⟨none, rfl⟩, isChange_self _, nofun⟩
    exact Finset.singleton_ne_empty s (congrArg Entry.factory h).symm
  | libInsert =>
    have held : t = ⟨entryAt dump linked s .addName, none, .go .addName⟩ := by
      rw [ht]
      simp [turn, entryAt, absent]
    rw [held]
    exact ⟨fun _ => rfl, nofun, trivial, nofun⟩
  | addName =>
    have listed : t = ⟨entryAt dump linked s .save, none, .go .save⟩ := by
      rw [ht]
      simp [turn, entryAt, absent]
    rw [listed]
    exact ⟨fun _ => rfl, nofun, trivial, nofun⟩
  | save =>
    have recorded : t.wrote = entryAt dump linked s (.ports .created) := by
      rw [ht]
      cases dump <;> rfl
    rw [recorded, ht]
    exact ⟨fun _ => rfl, nofun, trivial, nofun⟩
  | saveUpdate =>
    obtain rfl : changes = none := fit
    have there : ¬(dump = true ∧ recorded = false) := by
      rintro ⟨hd, hr⟩
      rw [found rfl hd] at hr
      cases hr
    have next : t = ⟨entryOf dump linked (some s), none, .go (.ports .updated)⟩ := by
      rw [ht]
      unfold turn
      rw [if_neg there]
      rfl
    rw [next]
    exact follows_same ⟨fun _ => rfl, nofun, rfl, nofun⟩
  | ports made =>
    cases made with
    | failed => cases active
    | created =>
      rw [ht, ports _ rfl (.inl rfl)]
      exact ⟨fun _ => rfl, nofun, trivial, nofun⟩
    | updated =>
      obtain rfl : changes = none := fit
      cases o <;> rw [ht]
      · have ours : standard s = true := by
          by_contra other
          cases ports _ rfl (.inr (eq_false_of_ne_true other))
        have next : turn standard dump recorded s (entryAt dump linked s (.ports .updated)) false
            (.ports .updated) = ⟨entryOf dump linked (some s), none, .respond true⟩ := by
          simp [turn, entryAt, entryOf, Entry.hasCube, ours]
        rw [next]
        exact follows_same ⟨⟨some s, rfl⟩, fun _ => rfl⟩
      · exact follows_same ⟨fun _ => rfl, nofun, rfl, nofun⟩
  | route made =>
    cases made with
    | failed => cases active
    | created =>
      rw [ht]
      exact ⟨⟨some s, rfl⟩, nofun⟩
    | updated =>
      rw [ht]
      exact ⟨⟨some s, rfl⟩, nofun⟩
  | removeName =>
    have next : t = ⟨entryAt dump linked s .removeRoute, none, .go .removeRoute⟩ := by
      rw [ht]
      simp [turn, entryAt, entryOf]
    rw [next]
    exact ⟨fun _ => rfl, nofun, trivial, fun _ => deletes rfl⟩
  | removeRoute =>
    rw [ht]
    exact ⟨fun _ => rfl, nofun, trivial, fun _ => deletes rfl⟩
  | libErase =>
    have next : t = ⟨entryAt dump linked s .unregisterErased, none, .go .unregisterErased⟩ := by
      rw [ht]
      simp [turn, entryAt]
    rw [next]
    exact ⟨fun _ => rfl, nofun, trivial, fun _ => deletes rfl⟩
  | unregisterErased =>
    have next : t = ⟨entryAt dump linked s .unbuildErased, none, .go .unbuildErased⟩ := by
      rw [ht]
      simp [turn, entryAt]
    rw [next]
    exact ⟨fun _ => rfl, nofun, trivial, fun _ => deletes rfl⟩
  | unbuildErased =>
    have next : t = ⟨entryAt dump linked s (.eraseSaved false), none,
        .go (.eraseSaved false)⟩ := by
      rw [ht]
      simp [turn, entryAt]
    rw [next]
    exact ⟨fun _ => rfl, nofun, trivial, fun _ => deletes rfl⟩
  | eraseSaved failed =>
    cases failed with
    | true => cases active
    | false =>
      obtain rfl : linked = false := deletes rfl
      have last : t.wrote = absent false := by
        rw [ht]
        cases dump <;> rfl
      rw [last, ht]
      exact ⟨⟨none, rfl⟩, nofun⟩

end Active

/-! ### Runs -/

section Runs

variable {st : State} {i : ℕ} {r : Request} {o : Bool}

/-- Only two steps write to the saved configuration. -/
theorem save_of_turn {recorded saved : Bool} {s : String} {e : Entry} {pc : Pc} :
    (turn standard dump recorded s e o pc).save = some saved →
      dump = true ∧ (pc = .save ∨ ∃ failed, pc = .eraseSaved failed) := by
  cases pc with
  | save =>
    cases dump
    · exact nofun
    · exact fun _ => ⟨rfl, .inl rfl⟩
  | eraseSaved failed =>
    cases dump
    · exact nofun
    · exact fun _ => ⟨rfl, .inr ⟨failed, rfl⟩⟩
  | build => unfold turn; dsimp only; split_ifs <;> exact nofun
  | libInsert => unfold turn; dsimp only; split_ifs <;> exact nofun
  | libErase => unfold turn; dsimp only; split_ifs <;> exact nofun
  | unregisterErased => unfold turn; dsimp only; split_ifs <;> exact nofun
  | ports made => unfold turn; dsimp only; split_ifs <;> exact nofun
  | _ => exact nofun

theorem saved_of_turn {recorded : Bool} {s : String} {e : Entry} {pc : Pc} :
    (turn standard dump recorded s e o pc).entry.saved = e.saved := by
  cases pc with
  | build => unfold turn; dsimp only; split_ifs <;> rfl
  | libInsert => unfold turn; dsimp only; split_ifs <;> rfl
  | libErase => unfold turn; dsimp only; split_ifs <;> rfl
  | unregisterErased => unfold turn; dsimp only; split_ifs <;> rfl
  | ports made => unfold turn; dsimp only; split_ifs <;> rfl
  | _ => rfl

theorem Inv.recordName_eq (inv : Inv dump services st) (hr : st.requests i = some r)
    (fine : st.Fine standard dump services (.go i o)) {saved : Bool}
    (h : (st.turnOf standard dump r o).save = some saved) : recordName r.name = r.name := by
  obtain ⟨hd, hpc | ⟨failed, hpc⟩⟩ := save_of_turn h
  · have := fine r hr
    rw [hpc] at this
    exact this hd
  · cases failed with
    | true =>
      have fit := (inv.fits i r hr).changes
      rw [hpc] at fit
      exact fit.elim
    | false =>
      obtain ⟨he, -⟩ := inv.active i r hr (by rw [hpc]; rfl)
      refine inv.recorded r.name hd ?_
      rw [he, hpc]
      exact hd

theorem Inv.recorded_wrote (inv : Inv dump services st) (hr : st.requests i = some r)
    (fine : st.Fine standard dump services (.go i o)) (hd : dump = true)
    (h : (st.turnOf standard dump r o).wrote.saved = true) : recordName r.name = r.name := by
  cases hs : (st.turnOf standard dump r o).save with
  | some saved => exact inv.recordName_eq hr fine hs
  | none =>
    unfold Turn.wrote at h
    rw [hs] at h
    refine inv.recorded r.name hd ?_
    rw [← h]
    exact saved_of_turn.symm

theorem Inv.advance_active (inv : Inv dump services st) (hr : st.requests i = some r)
    (fine : st.Fine standard dump services (.go i o)) (active : r.pc.active = true) :
    Inv dump services (st.advance standard dump i r o) := by
  obtain ⟨he, free⟩ := inv.active i r hr active
  have fits := inv.fits i r hr
  have recorded : dump = true → (st.turnOf standard dump r o).wrote.saved = true →
      recordName r.name = r.name := fun hd h => inv.recorded_wrote hr fine hd h
  rw [advance_eq fun saved h => inv.recordName_eq hr fine h]
  have follows : Follows dump (r.name ∈ services) r.service
      (track r.changes (st.entries r.name) (st.turnOf standard dump r o).wrote)
      (st.turnOf standard dump r o).wrote (st.turnOf standard dump r o).next := by
    have ht : st.turnOf standard dump r o = turn standard dump (st.entries (recordName r.name)).saved r.service
        (entryAt dump (r.name ∈ services) r.service r.pc) o r.pc := by
      unfold State.turnOf
      rw [he]
    rw [he]
    refine active_follows active fits.changes (fun h => decide_eq_false (fits.deletes h))
      (fun hpc hd => ?_) (fun made hpc h => ?_) ht
    · have there : (st.entries r.name).saved = true := by
        rw [he, hpc]
        exact hd
      rwa [inv.recorded r.name hd there]
    · have takes := fine r hr
      rw [hpc] at takes active
      refine takes (h.imp_right fun other => ?_)
      rw [he, hpc]
      cases made with
      | failed => cases active
      | created => simp [Entry.hasCube, entryAt, other]
      | updated => simp [Entry.hasCube, entryAt, entryOf, other]
  generalize st.turnOf standard dump r o = t at follows recorded
  cases hn : t.next with
  | crash =>
    rw [hn] at follows
    exact follows.elim
  | respond rejected =>
    rw [hn] at follows
    exact inv.responds hr (.inl free) (fun _ => follows.1) recorded follows.2
  | go pc =>
    rw [hn] at follows
    obtain ⟨now, rest, fit, deletes⟩ := follows
    exact inv.goes hr (.inl free) ⟨fit, fun h => of_decide_eq_false (deletes h)⟩
      (fun h => ⟨now h, free⟩) (fun h _ => rest h) recorded

theorem Inv.stays (inv : Inv dump services st) (hr : st.requests i = some r) {pc : Pc}
    (fits : Fits dump services { r with pc := pc })
    (passes : pc.active = true → st.Free i r.name ∧
      ∀ o, st.entries r.name = entryOf dump (r.name ∈ services) o →
        st.entries r.name = entryAt dump (r.name ∈ services) r.service pc)
    (quiet : r.pc.active = false) :
    Inv dump services ((st.put r.name (st.entries r.name)).follow i r r.changes (.go pc)) := by
  have agreed : st.Free i r.name →
      ∃ o, st.entries r.name = entryOf dump (r.name ∈ services) o := by
    refine fun free => inv.idle r.name fun j r' h hn => ?_
    by_cases other : j = i
    · rw [other, hr] at h
      rw [← Option.some.inj h]
      exact quiet
    · exact free j r' h other hn
  refine inv.goes hr (.inr rfl) fits (fun h => ?_) (fun _ => agreed) (inv.recorded r.name)
  obtain ⟨free, same⟩ := passes h
  obtain ⟨o, ho⟩ := agreed free
  exact ⟨same o ho, free⟩

theorem Inv.ends (inv : Inv dump services st) (hr : st.requests i = some r) {rejected : Bool}
    (quiet : r.pc.active = false) (kept : rejected = true → isChange r.changes = false) :
    Inv dump services
      ((st.put r.name (st.entries r.name)).follow i r r.changes (.respond rejected)) := by
  refine inv.responds hr (.inr rfl) (fun free => inv.idle r.name fun j r' h hn => ?_)
    (inv.recorded r.name) kept
  by_cases other : j = i
  · rw [other, hr] at h
    rw [← Option.some.inj h]
    exact quiet
  · exact free j r' h other hn

theorem Inv.received (inv : Inv dump services st) (none : st.requests i = none)
    {service name : String} {kind : Kind} :
    Inv dump services (st.setRequest i (some ⟨service, name, kind.start, Option.none⟩)) := by
  have quiet : kind.start.active = false := by cases kind <;> rfl
  have request : ∀ j r, update st.requests i
      (some ⟨service, name, kind.start, Option.none⟩) j = some r →
      r = ⟨service, name, kind.start, Option.none⟩ ∨ st.requests j = some r := by
    intro j r h
    by_cases hj : j = i
    · rw [hj, update_self] at h
      exact .inl (Option.some.inj h).symm
    · rw [update_of_ne hj] at h
      exact .inr h
  refine ⟨fun j r h active => ?_, fun n all => inv.idle n fun j r h hn => ?_, fun j r h => ?_,
    inv.recorded, inv.unchanged, inv.alive⟩
  · rcases request j r h with rfl | h
    · rw [quiet] at active
      cases active
    · obtain ⟨he, free⟩ := inv.active j r h active
      refine ⟨he, fun k r' hk other hn => ?_⟩
      rcases request k r' hk with rfl | hk
      · exact quiet
      · exact free k r' hk other hn
  · refine all j r ((update_of_ne ?_ ..).trans h) hn
    rintro rfl
    rw [none] at h
    cases h
  · rcases request j r h with rfl | h
    · exact ⟨by cases kind <;> rfl, by cases kind <;> exact nofun⟩
    · exact inv.fits j r h

theorem Inv.advance_quiet (inv : Inv dump services st) (hr : st.requests i = some r)
    (fine : st.Fine standard dump services (.go i o)) (quiet : r.pc.active = false) :
    Inv dump services (st.advance standard dump i r o) := by
  obtain ⟨s, n, pc, changes⟩ := r
  have fits := inv.fits i _ hr
  have fine := fine _ hr
  have eq : ∀ next, st.turnOf standard dump ⟨s, n, pc, changes⟩ o = ⟨st.entries n, none, next⟩ →
      st.advance standard dump i ⟨s, n, pc, changes⟩ o = (st.put n (st.entries n)).follow i
        ⟨s, n, pc, changes⟩ changes next := by
    intro next h
    have no : ∀ saved, (st.turnOf standard dump ⟨s, n, pc, changes⟩ o).save = some saved →
        recordName n = n := by
      rw [h]
      exact nofun
    rw [advance_eq no, h]
    exact congrArg (fun c => (st.put n (st.entries n)).follow i _ c next) (track_self ..)
  cases pc with
  | parse =>
    obtain rfl : changes = none := fits.changes
    cases o
    · rw [eq _ rfl]
      exact inv.ends hr quiet fun _ => rfl
    · rw [eq _ rfl]
      exact inv.stays hr ⟨rfl, nofun⟩ nofun quiet
  | check =>
    obtain rfl : changes = none := fits.changes
    cases hc : (st.entries n).cubes with
    | true =>
      rw [eq (.respond true) (by unfold State.turnOf turn; dsimp only; rw [hc]; rfl)]
      exact inv.ends hr quiet fun _ => rfl
    | false =>
      rw [eq (.go .validate) (by unfold State.turnOf turn; dsimp only; rw [hc]; rfl)]
      refine inv.stays hr ⟨rfl, nofun⟩ (fun _ => ⟨fine hc, fun owner ho => ?_⟩) quiet
      cases owner with
      | none => exact ho
      | some s' =>
        rw [ho] at hc
        cases hc
  | validateUpdate =>
    obtain rfl : changes = none := fits.changes
    cases o
    · rw [eq _ rfl]
      exact inv.ends hr quiet fun _ => rfl
    · rw [eq _ rfl]
      exact inv.stays hr ⟨rfl, nofun⟩ nofun quiet
  | write =>
    obtain rfl : changes = none := fits.changes
    by_cases takes : s ∈ (st.entries n).lib ∧ o = true
    · rw [eq (.go .saveUpdate)
        (by unfold State.turnOf turn; dsimp only; rw [if_pos takes])]
      refine inv.stays hr ⟨rfl, nofun⟩ (fun _ => ⟨fine takes.1 takes.2, fun owner ho => ?_⟩) quiet
      -- the library has it, so it is the cube of the service
      rw [ho] at takes ⊢
      cases owner with
      | none => exact absurd takes.1 (Finset.notMem_empty s)
      | some s' => rw [Finset.mem_singleton.1 takes.1]; rfl
    · rw [eq (.go (.ports .failed))
        (by unfold State.turnOf turn; dsimp only; rw [if_neg takes])]
      exact inv.stays hr ⟨rfl, nofun⟩ nofun quiet
  | checkThere =>
    obtain rfl : changes = none := fits.changes
    cases hc : (st.entries n).cubes with
    | false =>
      rw [eq (.respond true) (by unfold State.turnOf turn; dsimp only; rw [hc]; rfl)]
      exact inv.ends hr quiet fun _ => rfl
    | true =>
      obtain ⟨free, own, other⟩ := fine hc
      rw [eq (.go .removeName) (by unfold State.turnOf turn; dsimp only; rw [hc]; rfl)]
      refine inv.stays hr ⟨rfl, fun _ => other⟩ (fun _ => ⟨free, fun owner ho => ?_⟩) quiet
      have own : (st.entries n).owner = some s := own
      rw [ho] at own ⊢
      cases owner with
      | none => cases own
      | some s' => rw [Option.some.inj own]; rfl
  | ports made =>
    cases made with
    | created => cases quiet
    | updated => cases quiet
    | failed =>
      cases o
      · have there : (st.entries n).hasCube standard = true := by
          by_contra gone
          cases fine (.inr (eq_false_of_ne_true gone))
        rw [eq (.respond true) (by unfold State.turnOf turn; dsimp only; rw [there]; rfl)]
        exact inv.ends hr quiet fun _ => fits.changes
      · rw [eq _ rfl]
        exact inv.stays hr ⟨fits.changes, nofun⟩ nofun quiet
  | route made =>
    cases made with
    | created => cases quiet
    | updated => cases quiet
    | failed =>
      -- the link is there
      have there : { st.entries n with route := true } = st.entries n := by
        rw [← (fine : (st.entries n).route = true)]
      rw [eq (.respond true) (congrArg (Turn.mk · none (.respond true)) there)]
      exact inv.ends hr quiet fun _ => fits.changes
  | eraseSaved failed =>
    cases failed with
    | false => cases quiet
    | true => exact fits.changes.elim
  | _ => cases quiet

theorem inv_step (ev : Ev) (inv : Inv dump services st) (fine : st.Fine standard dump services ev) :
    Inv dump services (st.step standard dump ev) := by
  cases ev with
  | receive i kind service name =>
    cases hr : st.requests i with
    | some r =>
      have same : st.step standard dump (.receive i kind service name) = st := by
        unfold State.step
        dsimp only
        rw [hr]
      rw [same]
      exact inv
    | none =>
      rw [show st.step standard dump (.receive i kind service name) =
        st.setRequest i (some ⟨service, name, kind.start, none⟩) by unfold State.step; dsimp only; rw [hr]]
      exact inv.received hr
  | go i o =>
    cases hr : st.requests i with
    | none =>
      rw [show st.step standard dump (.go i o) = st by unfold State.step; dsimp only; rw [hr]]
      exact inv
    | some r =>
      have here : st.step standard dump (.go i o) = st.advance standard dump i r o := by
        unfold State.step
        dsimp only
        rw [hr]
      rw [here]
      cases active : r.pc.active with
      | true => exact inv.advance_active hr fine active
      | false => exact inv.advance_quiet hr fine active

theorem inv_start (dump : Bool) (services : Finset String) :
    Inv dump services (State.start services) where
  active _ _ h := nomatch h
  idle _ _ := ⟨none, rfl⟩
  fits _ _ h := nomatch h
  recorded _ _ h := nomatch h
  unchanged := rfl
  alive := rfl

/-- In every run whose steps are fine the registries agree wherever no request is going on, and no
request is rejected behind changes. -/
theorem agreed_of_run (dump : Bool) (services : Finset String) (evs : List Ev)
    (fine : Meets (State.step standard dump) (State.Fine standard dump services) (.start services) evs) :
    Agreed dump services (run (State.step standard dump) (.start services) evs) := by
  have inv : Inv dump services (run (State.step standard dump) (.start services) evs) :=
    run_induction (fun _ ev inv fine => inv_step ev inv fine) (inv_start dump services) fine
  refine ⟨fun n none => inv.idle n fun i r hr hn => absurd hn (none i r hr), inv.unchanged,
    inv.alive⟩

def Ev.thread : Ev → ℕ
  | receive i _ _ _ => i
  | go i _ => i

theorem requests_step (ev : Ev) {j : ℕ} (other : j ≠ ev.thread) :
    (st.step standard dump ev).requests j = st.requests j := by
  have set : ∀ (st' : State) (r : Option Request), st'.requests = st.requests →
      (st'.setRequest ev.thread r).requests j = st.requests j :=
    fun st' r same => (update_of_ne other ..).trans (congrFun same j)
  have saveAt : ∀ (st' : State) (n : String) (save : Option Bool), st'.requests = st.requests →
      (st'.saveAt n save).requests = st.requests := by
    intro st' n save same
    cases save <;> exact same
  cases ev with
  | receive i kind service name =>
    unfold State.step
    dsimp only
    split
    · rfl
    · exact set st _ rfl
  | go i o =>
    unfold State.step
    dsimp only
    split
    · rfl
    · unfold State.advance State.follow
      split
      · exact set _ _ (saveAt _ _ _ rfl)
      · exact set _ _ (saveAt _ _ _ rfl)
      · exact set _ _ (saveAt _ _ _ rfl)

def created : List Ev :=
  .receive 0 .create "bridge" "br1" :: List.replicate 12 (.go 0 true)

def someRequests : List Ev :=
  created ++ [.receive 0 .create "router" "br1", .go 0 true, .go 0 true]

theorem agreed_someRequests : Agreed true {"bridge", "router"}
    (run (State.step (fun _ => true) true) (.start {"bridge", "router"}) someRequests) := by
  refine agreed_of_run true {"bridge", "router"} someRequests
    ⟨trivial, ?_, ?_, ?_, ?_, ?_, ?_, ?_, ?_, ?_, ?_, ?_, ?_, trivial, ?_, ?_, trivial⟩
  · rintro r ⟨⟩
    trivial
  · rintro r ⟨⟩ _ j r h other
    rw [requests_step (.go 0 true) other, requests_step (.receive 0 ..) other] at h
    cases h
  · rintro r ⟨⟩
    trivial
  · rintro r ⟨⟩
    trivial
  · rintro r ⟨⟩
    trivial
  · rintro r ⟨⟩
    trivial
  · rintro r ⟨⟩
    trivial
  · rintro r ⟨⟩
    trivial
  · rintro r ⟨⟩
    trivial
  · rintro r ⟨⟩ _
    decide
  · rintro r ⟨⟩
    exact fun _ => rfl
  · rintro r ⟨⟩
    trivial
  · rintro r ⟨⟩
    trivial
  · rintro r ⟨⟩ new
    cases new

/-- An update of a cube that does not exist is rejected, and leaves a link to it. -/
theorem not_agreed_update : ¬∀ (standard : String → Bool) (dump : Bool) (services : Finset String)
    (evs : List Ev), Agreed dump services (run (State.step standard dump) (.start services) evs) := by
  intro h
  have unchanged := (h (fun _ => true) true {"bridge"}
    (.receive 0 .update "bridge" "br1" :: List.replicate 4 (.go 0 true))).unchanged
  revert unchanged
  decide

end Runs

end Polycube.Polycubed.Registries
