import Mathlib
import Polycube.Lib.Run
import Polycube.Lib.Table
import Polycube.Lib.Throwing

/-!
# The simple bridge

The program learns where addresses are and forwards by it, with a clock of its own that the control
plane refreshes.  The filtering database of the control plane is the table of the program.
-/

namespace Polycube.Simplebridge

open Lib

abbrev Mac := BitVec 48

structure FwdEntry where
  timestamp : BitVec 32
  port : BitVec 32
  deriving DecidableEq

structure Ports where
  indices : List (BitVec 32)
  nodup : indices.Nodup

/-- The table and the clock of the program, the macros that stand before its code, the aging time
of the control plane, and the real time in seconds. -/
structure State where
  fwdtable : Table Mac FwdEntry
  timestamp : BitVec 32
  defines : List (String × BitVec 32)
  agingTime_ : BitVec 32
  clock : ℕ

def State.start (clock : ℕ) : State := ⟨fun _ => none, 0, [], 300, clock⟩

def State.seconds (s : State) : BitVec 32 := BitVec.ofNat 32 s.clock

def State.setEntry (s : State) (mac : Mac) (e : Option FwdEntry) : State :=
  { s with fwdtable := Function.update s.fwdtable mac e }

/-- `FDB_TIMEOUT`: 300, unless it is defined before. -/
def State.fdbTimeout (s : State) : BitVec 32 := (s.defines.lookup "FDB_TIMEOUT").getD 300

inductive Packet
  | ethernet (dst src : Mac)
  | short

inductive Verdict
  | drop
  | redirect (port : BitVec 32)
  | flood (ports : List (BitVec 32))
  deriving DecidableEq

/-- The learning phase.  The table may refuse a new entry, which nobody checks. -/
def learn (s : State) (inPort : BitVec 32) (src : Mac) (refused : Bool) : State :=
  match s.fwdtable src with
  | none => if refused = true then s else s.setEntry src (some ⟨s.timestamp, inPort⟩)
  | some _ => s.setEntry src (some ⟨s.timestamp, inPort⟩)

def State.tooOld (s : State) (e : FwdEntry) : Bool :=
  s.fdbTimeout.setWidth 64 < s.timestamp.setWidth 64 - e.timestamp.setWidth 64

/-- `flood_packet`, if the packet can be read at all. -/
def flood (ports : Ports) (inPort : BitVec 32) (parsed : Bool) : Verdict :=
  if parsed = true then .flood (ports.indices.filter fun p => p ≠ inPort) else .drop

def forward (ports : Ports) (s : State) (inPort : BitVec 32) (dst : Mac)
    (parsed : Bool) : Verdict × State :=
  match s.fwdtable dst with
  | none => (flood ports inPort parsed, s)
  | some e =>
    if s.tooOld e = true then (flood ports inPort parsed, s.setEntry dst none)
    else if e.port = inPort then (.drop, s)
    else (.redirect e.port, s)

def handleRx (ports : Ports) (s : State) (inPort : BitVec 32) (refused parsed : Bool) :
    Packet → Verdict × State
  | .short => (.drop, s)
  | .ethernet dst src => forward ports (learn s inPort src refused) inPort dst parsed

/-! ### The control plane -/

inductive Stop
  | throws
  deriving DecidableEq

abbrev Work := EStateM Stop State

/-- `updateTimestamp` -/
def updateTimestamp (s : State) : State := { s with timestamp := s.seconds }

/-- A new program is loaded with a macro before its code, and keeps the table of the old one. -/
def reloadCodeWithAgingtime (s : State) (agingTime : BitVec 32) (accepted : Bool) : State :=
  if accepted = true then { s with defines := [("AGING_TIME", agingTime)] } else s

def setAgingTime (value : BitVec 32) (accepted : Bool) : Work Unit :=
  modify fun s => if s.agingTime_ ≠ value
    then { reloadCodeWithAgingtime s value accepted with agingTime_ := value } else s

variable (ports : Ports)

/-- `constructFromMap`: the age and the port of an entry that is not too old; one that is goes
away. -/
def constructFromMap (mac : Mac) (e : FwdEntry) : Work (Option (BitVec 32 × BitVec 32)) := do
  let s ← get
  if s.agingTime_ < s.seconds - e.timestamp then do
    modify fun s => s.setEntry mac none
    pure none
  else if ports.indices.contains e.port = true then pure (some (s.seconds - e.timestamp, e.port))
  else throw .throws

def getEntry (mac : Mac) : Work (BitVec 32 × BitVec 32) := do
  let s ← get
  match s.fwdtable mac with
  | none => throw .throws
  | some e =>
    let entry ← constructFromMap ports mac e
    match entry with
    | none => throw .throws
    | some r => pure r

/-- The loop of `getEntryList` over the entries of the table. -/
def constructAll : List (Mac × FwdEntry) → Work (List (Mac × BitVec 32 × BitVec 32))
  | [] => pure []
  | (mac, e) :: l => do
    let entry ← constructFromMap ports mac e
    let rest ← constructAll l
    pure ((entry.map fun r => (mac, r)).toList ++ rest)

def State.entries (s : State) (macs : List Mac) : List (Mac × FwdEntry) :=
  macs.filterMap fun mac => (s.fwdtable mac).map fun e => (mac, e)

def getEntryList (macs : List Mac) : Work (List (Mac × BitVec 32 × BitVec 32)) := do
  let s ← get
  constructAll ports (s.entries macs)

def setTable (mac : Mac) (e : FwdEntry) (accepted : Bool) : Work Unit :=
  if accepted = true then modify fun s => s.setEntry mac (some e) else throw .throws

/-- `addEntry`, with the port that is given, if there is one of its name. -/
def addEntry (mac : Mac) (port : Option (BitVec 32)) (accepted : Bool) : Work Unit := do
  let s ← get
  match port with
  | none => throw .throws
  | some port => setTable mac ⟨s.seconds, port⟩ accepted

def delEntry (mac : Mac) : Work Unit := do
  let _ ← getEntry ports mac
  modify fun s => s.setEntry mac none

def replaceEntry (mac newMac : Mac) (port : Option (BitVec 32)) (accepted : Bool) :
    Work Unit := do
  delEntry ports mac
  addEntry newMac port accepted

/-- The update of an entry, which has to be there: `setPort`. -/
def setPort (mac : Mac) (port : Option (BitVec 32)) (accepted : Bool) : Work Unit := do
  let _ ← getEntry ports mac
  match port with
  | none => throw .throws
  | some port => setTable mac ⟨0, port⟩ accepted

def delEntryList : Work Unit := modify fun s => { s with fwdtable := fun _ => none }

def delFdb (accepted : Bool) : Work Unit := do
  delEntryList
  setAgingTime 300 accepted

end Polycube.Simplebridge
