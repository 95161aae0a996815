import Polycube.Lib.Run
import Polycube.Pbforwarder.FirstMatch

/-!
# The control plane of the policy-based forwarder

A request changes the object of a rule, writes the entry, and compiles the matcher and the parser
again with the level and the number of rules of now.  When one does not load, the entry is removed
and the old programs are put back.  `Loads` says what the kernel accepts.
-/

namespace Polycube.Pbforwarder

open Function

open Lib

inductive Program
  | parsing (level : ℕ)
  | matching (rules : ℤ) (level : ℕ) (table : Table (BitVec 32) Entry)

/-- A policy-based forwarder.  `parser` is the level of the parser. -/
structure State where
  rules_ : BitVec 32 → Option Rules
  matchLevel : ℕ
  nrRules : BitVec 32
  parser : ℕ
  program : Program
  packet : ℕ → PacketHeaders

def State.start : State where
  rules_ := fun _ => none
  matchLevel := 2
  nrRules := 0
  parser := 2
  program := .matching 0 2 fun _ => none
  packet := fun _ => ⟨0, 0, 0, false, false, 0, 0, 0, 0, 0⟩

/-- What the kernel accepts of a request: the write of an entry, the two programs, and the two old
ones. -/
structure Loads where
  set : Bool
  matching : Bool
  parsing : Bool
  restoreParsing : Bool
  restoreMatching : Bool

abbrev Work := EStateM Unit State

def Program.table : Program → Option (Table (BitVec 32) Entry)
  | .parsing _ => none
  | .matching _ _ table => some table

def Program.setTable (table : Table (BitVec 32) Entry) : Program → Program
  | .parsing level => .parsing level
  | .matching rules level _ => .matching rules level table

/-- The matcher in the place of the second program, which keeps the map.  With a negative number of
rules it reads through a null pointer and does not load. -/
def reloadMatching (loads : Bool) : Work Unit := do
  let s ← get
  if loads = true ∧ 0 ≤ s.nrRules.toInt then
    modify fun s => { s with
      program := .matching s.nrRules.toInt s.matchLevel (s.program.table.getD fun _ => none) }
  else throw ()

def reloadParsing (loads : Bool) : Work Unit :=
  if loads = true then modify fun s => { s with parser := s.matchLevel } else throw ()

def reloadParsingSecond (loads : Bool) : Work Unit :=
  if loads = true then modify fun s => { s with program := .parsing s.matchLevel } else throw ()

variable (ports : String → Option (BitVec 16))

/-- `rules_table.set(id, to_rule())` -/
def setRule (accepted : Bool) (o : Rules) : Work Unit := do
  let s ← get
  match s.program.table, o.toRule ports with
  | some table, some e =>
    if accepted = true then
      modify fun s => { s with program := s.program.setTable (update table o.id (some e)) }
    else throw ()
  | _, _ => throw ()

/-- `rules_table.remove(id)` -/
def removeRule (id : BitVec 32) : Work Unit := do
  let s ← get
  match s.program.table with
  | none => throw ()
  | some table =>
    if table id = none then throw ()
    else modify fun s => { s with program := s.program.setTable (update table id none) }

def Rules.raise (o : Rules) (level : ℕ) : ℕ :=
  if 8 ≤ o.flags ∧ o.flags < 32 ∧ level < 3 then 3
  else if 32 ≤ o.flags ∧ level < 4 then 4
  else level

def nrRulesWith (rules id : BitVec 32) : BitVec 32 :=
  if rules ≤ id then id + 1 else rules

def rollBack (loads : Loads) (level : ℕ) (rules id : BitVec 32) : Work Unit := do
  removeRule id
  let s ← get
  if s.matchLevel ≠ level ∨ s.nrRules ≠ rules then do
    modify fun s => { s with matchLevel := level, nrRules := rules }
    reloadParsing loads.restoreParsing
    reloadMatching loads.restoreMatching
  else pure ()

def insertRule (o : Rules) : Work Unit :=
  modify fun s => if s.rules_ o.id = none
    then { s with rules_ := update s.rules_ o.id (some o) } else s

def updateRuleMapAndReload (loads : Loads) (o : Rules) : Work Unit := do
  let old ← get
  modify fun s => { s with matchLevel := o.raise s.matchLevel }
  setRule ports loads.set o
  modify fun s => { s with nrRules := nrRulesWith s.nrRules o.id }
  tryCatch (do
      reloadMatching loads.matching
      reloadParsing loads.parsing
      insertRule o)
    fun _ => rollBack loads old.matchLevel old.nrRules o.id

def RulesJsonObject.object (conf : RulesJsonObject) : Rules × Bool :=
  { Rules.create conf.id with updating := true }.assign (conf.setters.map Setter.htons)

def RulesJsonObject.complete (conf : RulesJsonObject) : Bool :=
  conf.action.isSome && (!decide (conf.action = some .forward) || conf.outPort.isSome)

def addRules (conf : RulesJsonObject) (loads : Loads) : Work Unit :=
  if conf.complete = true then
    if conf.object.2 = true then updateRuleMapAndReload ports loads conf.object.1 else throw ()
  else throw ()

def writeRule (id : BitVec 32) (o : Rules) : Work Unit :=
  modify fun s => { s with rules_ := update s.rules_ id (some o) }

def Rules.updated (o : Rules) (conf : RulesJsonObject) : Rules × Bool :=
  { o with updating := true }.assign (conf.setters.map Setter.htons)

def updateRules (id : BitVec 32) (conf : RulesJsonObject) (loads : Loads) : Work Unit := do
  let s ← get
  match s.rules_ id with
  | none => throw ()
  | some o => do
    writeRule id { (o.updated conf).1 with updating := false }
    if (o.updated conf).2 = true then updateRuleMapAndReload ports loads (o.updated conf).1
    else throw ()

def setRules (id : BitVec 32) (s : Setter) (loads : Loads) : Work Unit := do
  let state ← get
  match state.rules_ id with
  | none => throw ()
  | some o =>
    match s.run o with
    | none => throw ()
    | some o' => do
      writeRule id o'
      if o'.updating = true then pure () else updateRuleMapAndReload ports loads o'

def delRules (id : BitVec 32) (loads : Loads) : Work Unit := do
  modify fun s => { s with rules_ := update s.rules_ id none }
  removeRule id
  let s ← get
  if s.nrRules = id then do
    modify fun s => { s with nrRules := s.nrRules - 1 }
    reloadParsingSecond loads.parsing
    reloadMatching loads.matching
  else pure ()

def delRulesList (loads : Loads) : Work Unit := do
  modify fun s => { s with rules_ := fun _ => none }
  let s ← get
  match s.program.table with
  | none => throw ()
  | some _ => do
    modify fun s => { s with
      program := s.program.setTable fun _ => none
      matchLevel := 2
      nrRules := 0 }
    reloadParsingSecond loads.parsing
    reloadMatching loads.matching

def Program.handle (program : Program) (f : Frame) (pkt : PacketHeaders) (inPort : BitVec 16) :
    Verdict × PacketHeaders :=
  match program with
  | .parsing level => (.drop, (parse level f pkt).1)
  | .matching rules level table => (Pbforwarder.matching rules level table pkt inPort, pkt)

def State.handle (s : State) (cpu : ℕ) (inPort : BitVec 16) (f : Frame) : Verdict × PacketHeaders :=
  if (parse s.parser f (s.packet cpu)).2 = true
  then s.program.handle f (parse s.parser f (s.packet cpu)).1 inPort
  else (.drop, (parse s.parser f (s.packet cpu)).1)

end Polycube.Pbforwarder
