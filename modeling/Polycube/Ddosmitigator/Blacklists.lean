import Polycube.Lib.Run
import Polycube.Lib.Table
import Polycube.Lib.Throwing

/-!
# The blacklists of the DDoS mitigator

For sources and for destinations there is a list of texts, and a map of the program from addresses
to counters, one for each CPU.  The code that looks into a map is compiled in while its list has
entries.  How a text is read as an address (`read`) is a parameter.
-/

namespace Polycube.Ddosmitigator

open Function

open Lib

inductive Which
  | src | dst
  deriving DecidableEq

abbrev Counters := ℕ → BitVec 64

structure Blacklist where
  entries : List String
  matching : Bool
  map : Option (Table (BitVec 32) Counters)

structure State where
  lists : Which → Blacklist
  isCodeChanged : Bool
  dropcnt : Counters

def State.start : State := ⟨fun _ => ⟨[], false, none⟩, false, fun _ => 0⟩

inductive Stop
  | throws
  | crashes
  deriving DecidableEq

/-- What the kernel accepts of a request: the program, and the entry. -/
structure Loads where
  code : Bool
  set : Bool

abbrev Work := EStateM Stop State

def State.setList (s : State) (w : Which) (l : Blacklist) : State :=
  { s with lists := update s.lists w l }

/-- `setSrcMatch` and `setDstMatch` -/
def setMatch (w : Which) (value : Bool) : Work Unit :=
  modify fun s => if value ≠ (s.lists w).matching
    then { s.setList w { s.lists w with matching := value } with isCodeChanged := true } else s

def Blacklist.reload (l : Blacklist) : Blacklist :=
  { l with map := if l.matching = true then some (l.map.getD fun _ => none) else none }

def reloadCode (accepted : Bool) : Work Unit := do
  let s ← get
  if s.isCodeChanged = true then
    if accepted = true then
      modify fun s => { s with lists := fun w => (s.lists w).reload, isCodeChanged := false }
    else throw .throws
  else pure ()

variable (read : String → Option (BitVec 32))

def setEntry (w : Which) (ip : String) (accepted : Bool) : Work Unit := do
  let s ← get
  match (s.lists w).map, read ip with
  | some map, some address =>
    if accepted = true then
      modify fun s => s.setList w { s.lists w with
        map := some (update map address (some fun _ => 0)) }
    else throw .throws
  | _, _ => throw .throws

/-- `addBlacklistSrc` and `addBlacklistDst` -/
def addBlacklist (w : Which) (ip : String) (loads : Loads) : Work Unit := do
  let s ← get
  if ip ∈ (s.lists w).entries then pure ()
  else do
    setMatch w true
    reloadCode loads.code
    setEntry read w ip loads.set
    modify fun s => s.setList w { s.lists w with entries := (s.lists w).entries ++ [ip] }

def destroy (w : Which) (ip : String) : Work Unit := do
  let s ← get
  match (s.lists w).map with
  | none => throw .crashes
  | some map =>
    match read ip with
    | none => pure ()
    | some address =>
      modify fun s => s.setList w { s.lists w with map := some (update map address none) }

def unmatch (w : Which) (accepted : Bool) : Work Unit := do
  let s ← get
  if (s.lists w).entries = [] then do
    setMatch w false
    reloadCode accepted
  else pure ()

/-- `delBlacklistSrc` and `delBlacklistDst` -/
def delBlacklist (w : Which) (ip : String) (loads : Loads) : Work Unit := do
  let s ← get
  if ip ∈ (s.lists w).entries then do
    modify fun s => s.setList w { s.lists w with entries := (s.lists w).entries.erase ip }
    destroy read w ip
  else pure ()
  unmatch w loads.code

def destroyAll (w : Which) : List String → Work Unit
  | [] => pure ()
  | ip :: ips => do
    destroy read w ip
    destroyAll w ips

/-- `delBlacklistSrcList` and `delBlacklistDstList` -/
def delBlacklistList (w : Which) (loads : Loads) : Work Unit := do
  let s ← get
  modify fun s => s.setList w { s.lists w with entries := [] }
  destroyAll read w (s.lists w).entries
  unmatch w loads.code

def addBlacklistSrcList : List (String × Loads) → Work Unit
  | [] => pure ()
  | (ip, loads) :: l => do
    addBlacklist read .src ip loads
    addBlacklistSrcList l

def addBlacklistDstList : List (String × Loads) → Work Unit
  | [] => pure ()
  | (ip, loads) :: l => do
    delBlacklist read .dst ip loads
    addBlacklistDstList l

def addBlacklistList (w : Which) (l : List (String × Loads)) : Work Unit :=
  match w with
  | .src => addBlacklistSrcList read l
  | .dst => addBlacklistDstList read l

/-- `replaceBlacklistSrc` and `replaceBlacklistDst` -/
def replaceBlacklist (w : Which) (ip newIp : String) (del add : Loads) : Work Unit := do
  delBlacklist read w ip del
  addBlacklist read w newIp add

inductive Packet
  | ipv4 (src dst : BitVec 32) (protocol : BitVec 8)
  | other

def Counters.count (c : Counters) (cpu : ℕ) : Counters := update c cpu (c cpu + 1)

def Blacklist.find (l : Blacklist) (address : BitVec 32) : Option Counters :=
  l.map.bind fun map => map address

def Blacklist.hit (l : Blacklist) (address : BitVec 32) (cpu : ℕ) : Blacklist :=
  { l with map := l.map.map fun map =>
      update map address ((map address).map fun c => c.count cpu) }

/-- `parse_ipv4`: the protocol of a packet of a list, or 0. -/
def parseIpv4 (s : State) (cpu : ℕ) (src dst : BitVec 32) (protocol : BitVec 8) :
    BitVec 8 × State :=
  if ((s.lists .src).find src).isSome then
    (protocol, s.setList .src ((s.lists .src).hit src cpu))
  else if ((s.lists .dst).find dst).isSome then
    (protocol, s.setList .dst ((s.lists .dst).hit dst cpu))
  else (0, s)

def handleRx (s : State) (cpu : ℕ) : Packet → Bool × State
  | .other => (false, s)
  | .ipv4 src dst protocol =>
    if (parseIpv4 s cpu src dst protocol).1 = 0 then (false, (parseIpv4 s cpu src dst protocol).2)
    else (true, { (parseIpv4 s cpu src dst protocol).2 with
      dropcnt := (parseIpv4 s cpu src dst protocol).2.dropcnt.count cpu })

end Polycube.Ddosmitigator
