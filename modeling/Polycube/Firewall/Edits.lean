import Mathlib
import Polycube.Firewall.Rules
import Polycube.Lib.Run
import Polycube.Lib.Shifting

/-!
# Edits of a chain

`rules_` and `counters_` are two vectors of pointers to objects that carry their ids, which the
operations shift by loops over their places.  Here an operation is one step, with no packet in
between, but every check, exception and index of it is there; `none` is a run into undefined
behaviour.  Every operation is a single one (`is_single_op_on_chain`), so each edit ends with
`updateChain`, which may throw at any point.  The programs that it has loaded by then stay in the
slots of the next version, whose own programs are not loaded where a slot is taken; `load` does not
tell.
-/

namespace Polycube.Firewall.Edits

open Lib
open Function (update)

/-! ### State -/

/-- `ActionLookup` and `Horus` count the packets that they decide. -/
inductive Prog
  | action | horus
  deriving DecidableEq

def Prog.capacity : Prog → ℕ
  | action => 8000
  | horus => 2048

/-- An object of `rules_`; `tag` tells objects apart. -/
structure Placed where
  tag : ℕ
  rule : ChainRule
  deriving DecidableEq

def Placed.setId (id : ℕ) (r : Placed) : Placed := { r with rule := { r.rule with id := id } }

def Placed.content (r : Placed) : ℕ × ChainRule := (r.tag, { r.rule with id := 0 })

def equal (rule cmp : ChainRule) : Bool :=
  { rule with id := cmp.id, description := cmp.description } = cmp

structure Decided where
  owner : ℕ
  length : ℕ
  deriving DecidableEq

/-- An object of `counters_`, with the packets it has counted one by one: they are as many as its
`pkts`, and their lengths add up to its `bytes`. -/
structure ChainStats where
  id : ℕ
  packets : List Decided
  deriving DecidableEq

namespace ChainStats

def setId (id : ℕ) (c : ChainStats) : ChainStats := { c with id := id }

def add (id : ℕ) (packets : List Decided) : Option ChainStats → ChainStats
  | none => ⟨id, packets⟩
  | some c => { c with packets := c.packets ++ packets }

end ChainStats

/-- The chain, and its programs with what they have counted and not been asked for.  `loaded` is
the rule that a program decides by at a position, `left` whether programs of an update that threw
are in the slots of the next version, and `readable` whether the programs with the counters are in
the slots where they are looked for. -/
structure State where
  rules : List (Option Placed)
  fresh : ℕ
  counters : List (Option ChainStats)
  hasAction : Bool
  readable : Bool
  left : Bool
  horusOn : Bool
  loaded : Prog → ℕ → Option ℕ
  slot : Prog → ℕ → List Decided

def State.init : State where
  rules := []
  fresh := 0
  counters := []
  hasAction := false
  readable := true
  left := false
  horusOn := false
  loaded _ _ := none
  slot _ _ := []

inductive Outcome
  | returns | throws
  deriving DecidableEq

abbrev Result := Option (Outcome × State)

def Result.andThen (r : Result) (f : State → Result) : Result :=
  match r with
  | some (.returns, s) => f s
  | r => r

namespace State

variable (s : State)

/-! ### Counters -/

/-- `flushCounters` -/
def flush (p : Prog) (id : ℕ) : State :=
  { s with slot := update s.slot p (update (s.slot p) id []) }

/-- `fetchCounters`: what was read, or an exception for a position that a map has not. -/
def fetchCounters (id : ℕ) : Option (List Decided) × State :=
  if !s.hasAction then (some [], s)
  else if !s.readable || Prog.action.capacity ≤ id then (none, s)
  else
    if !s.horusOn then (some (s.slot .action id), s.flush .action id)
    else if Prog.horus.capacity ≤ id then (none, s.flush .action id)
    else (some (s.slot .action id ++ s.slot .horus id), (s.flush .action id).flush .horus id)

/-- `counters_` gets a place for the counter, if it has none. -/
def store (id : ℕ) (packets : List Decided) : State :=
  { s with
    counters := Shifting.put id (.add id packets s.counters[id]?.join) s.counters }

def getStats (id : ℕ) : Result :=
  if s.rules.length < id then some (.throws, s)
  else
    match s.rules[id]? with
    | none => none
    | some none => some (.throws, s)
    | some (some _) =>
      match s.fetchCounters id with
      | (none, s) => some (.throws, s)
      | (some packets, s) => some (.returns, s.store id packets)

/-- `getStats` for each rule of a list. -/
def getStatsOf : List (Option Placed) → State → Result
  | [], s => some (.returns, s)
  | none :: rules, s => getStatsOf rules s
  | some r :: rules, s => (s.getStats r.rule.id).andThen (getStatsOf rules)

def getStatsList : Result := getStatsOf s.rules s

/-- `flushCounters` of both programs, or an exception. -/
def reset (id : ℕ) : Outcome × State :=
  if !s.readable || Prog.action.capacity ≤ id then (.throws, s)
  else if !s.horusOn then (.returns, s.flush .action id)
  else if Prog.horus.capacity ≤ id then (.throws, s.flush .action id)
  else (.returns, (s.flush .action id).flush .horus id)

/-- The loop of `resetCounters`, which follows the pointers. -/
def resetOf : List (Option Placed) → State → Result
  | [], s => some (.returns, s)
  | none :: _, _ => none
  | some r :: rules, s => Result.andThen (some (s.reset r.rule.id)) (resetOf rules)

/-- An exception is caught here, and leaves `counters_` as it is. -/
def resetCounters : Result :=
  if !s.hasAction then some (.returns, s)
  else
    match resetOf s.rules s with
    | none => none
    | some (.throws, s) => some (.returns, s)
    | some (.returns, s) => some (.returns, { s with counters := [] })

/-- A new program has counted nothing; the old one goes with all it has counted. -/
def load (p : Prog) (loaded : ℕ → Option ℕ) : State :=
  { s with
    loaded := update s.loaded p loaded
    slot := update s.slot p fun _ => [] }

def ruleAt (id : ℕ) : Option ℕ :=
  s.rules.findSome? fun r => r.bind fun r => if r.rule.id = id then some r.tag else none

/-- The part of `updateChain` that turns Horus on or off. -/
def loadHorus (on : Bool) : State :=
  { s.load .horus (if on then s.ruleAt else fun _ => none) with horusOn := on }

end State

/-- How far `updateChain` comes before it throws, and whether it turns `Horus` on.  When it returns,
a program with counters may be among those whose slot was taken (`misplaced`). -/
inductive Loading
  | nothing
  | horus (on : Bool)
  | all (on misplaced : Bool)
  deriving DecidableEq

def Loading.returns : Loading → Bool
  | .all _ _ => true
  | _ => false

def State.updateChain (s : State) : Loading → Outcome × State
  | .nothing => (.throws, s)
  | .horus on => (.throws, { s.loadHorus on with left := true })
  | .all on misplaced =>
    (.returns, { (s.loadHorus on).load .action (s.loadHorus on).ruleAt with
      hasAction := true, readable := !(s.left && misplaced) })

/-! ### Operations -/

namespace State

variable (s : State)

/-- `rules_` after `addRule` -/
def putRule (id : ℕ) (rule : ChainRule) : State :=
  { s with
    rules := (if s.rules.length ≤ id then s.rules ++ [none] else s.rules).set id
      (some ⟨s.fresh, { rule with id := id }⟩)
    fresh := s.fresh + 1 }

/-- In every operation `rule` is none when the rule cannot be built from what was given. -/
def addRule (id : ℕ) (rule : Option ChainRule) (loading : Loading) : Result :=
  if s.rules.length < id then some (.throws, s)
  else
    match rule with
    | none => some (.throws, s)
    | some rule => s.getStatsList.andThen fun s => some ((s.putRule id rule).updateChain loading)

def append (rule : Option ChainRule) (loading again : Loading) : Result :=
  (s.addRule s.rules.length rule loading).andThen fun s => some (s.updateChain again)

/-- The loop goes over the places of `rules_`, for both vectors. -/
def insertRule (id : ℕ) (rule : ChainRule) : Option State :=
  if s.counters.length < s.rules.length then none
  else some { s with
    rules := Shifting.insert Placed.setId id ⟨s.fresh, rule⟩ s.rules
    fresh := s.fresh + 1
    counters := (Shifting.makeRoom ChainStats.setId (s.rules.length + 1) id
      (s.counters ++ [none])).set id (some ⟨id, []⟩) }

def insert (id : ℕ) (rule : Option ChainRule) (loading : Loading) : Result :=
  if s.rules.length < id then some (.throws, s)
  else
    match rule with
    | none => some (.throws, s)
    | some rule => s.getStatsList.andThen fun s =>
      (s.insertRule id rule).map fun s => s.updateChain loading

def eraseRule (id : ℕ) : Option State :=
  if s.counters = [] then none
  else
    (Shifting.erase Placed.setId id s.rules).bind fun rules =>
      (Shifting.erase ChainStats.setId id s.counters).map fun counters =>
        { s with rules := rules, counters := counters }

def delRule (id : ℕ) (loading : Loading) : Result :=
  match s.rules[id]?.join with
  | none => some (.throws, s)
  | some _ => s.getStatsList.andThen fun s =>
    (s.eraseRule id).map fun s => s.updateChain loading

def deletes (rule : Option ChainRule) (loading : Loading) : Result :=
  match rule with
  | none => some (.throws, s)
  | some c =>
    match s.rules.findIdx? fun r => r.any fun r => equal r.rule c with
    | some i => s.delRule i loading
    | none => some (.throws, s)

def packet (p : Prog) (id length : ℕ) : State :=
  match s.loaded p id with
  | none => s
  | some owner =>
    if id < p.capacity then
      { s with
        slot := update s.slot p
          (update (s.slot p) id (s.slot p id ++ [⟨owner, length⟩])) }
    else s

end State

inductive Op
  | append (rule : Option ChainRule) (loading again : Loading)
  | insert (id : ℕ) (rule : Option ChainRule) (loading : Loading)
  | deletes (rule : Option ChainRule) (loading : Loading)
  | addRule (id : ℕ) (rule : Option ChainRule) (loading : Loading)
  | delRule (id : ℕ) (loading : Loading)
  | resetCounters
  | updateChain (loading : Loading)
  | getStats (id : ℕ)
  | getStatsList
  deriving DecidableEq

def Op.run (op : Op) (s : State) : Result :=
  match op with
  | .append rule loading again => s.append rule loading again
  | .insert id rule loading => s.insert id rule loading
  | .deletes rule loading => s.deletes rule loading
  | .addRule id rule loading => s.addRule id rule loading
  | .delRule id loading => s.delRule id loading
  | .resetCounters => s.resetCounters
  | .updateChain loading => some (s.updateChain loading)
  | .getStats id => s.getStats id
  | .getStatsList => s.getStatsList

inductive Event
  | call (op : Op)
  | packet (p : Prog) (id length : ℕ)
  deriving DecidableEq

def Event.next (s : State) : Event → Option State
  | .call op => (op.run s).map Prod.snd
  | .packet p id length => some (s.packet p id length)

def step (s : Option State) (event : Event) : Option State := s.bind event.next

end Polycube.Firewall.Edits
