import Polycube.Lib.Keyed
import Polycube.Lib.Run
import Polycube.Lib.Throwing

/-!
# Load balancing with direct server return

The control plane keeps the backends of the pool under ids and writes the address of each into the
slot of its id, and their number into slot 0.  The program takes a slot from the hash of a session,
and keeps the address in the table of the sessions.  A text that stands for a MAC address is
modelled by the address it is read as, if it is one.
-/

namespace Polycube.Lbdsr

open Function

open Lib

abbrev Backend := BitVec 32 × Option (BitVec 48)

/-- `sessions_key` -/
structure SessionsKey where
  ipSrc : BitVec 32
  ipDst : BitVec 32
  portSrc : BitVec 16
  portDst : BitVec 16
  proto : BitVec 8
  deriving DecidableEq

structure State where
  pools_ : List Backend
  config : BitVec 32 → BitVec 64
  sessions : SessionsKey → Option (BitVec 64)

def State.start : State := ⟨[], fun _ => 0, fun _ => none⟩

def State.slot (s : State) (id : BitVec 32) : Option (BitVec 64) :=
  if id.toNat < 5 then some (s.config id) else none

abbrev Work := EStateM Unit State

/-- `pools_[id] = mac` -/
def assign (id : BitVec 32) (mac : Option (BitVec 48)) (l : List Backend) : List Backend :=
  match findKey Prod.fst id l with
  | some _ => modifyKey Prod.fst id (fun _ => (id, mac)) l
  | none => l ++ [(id, mac)]

/-- `config_table.set` -/
def setConfig (id : BitVec 32) (value : BitVec 64) : Work Unit :=
  if id.toNat < 5 then modify fun s => { s with config := update s.config id value }
  else throw ()

def addPool (id : BitVec 32) (mac : Option (BitVec 48)) : Work Unit := do
  modify fun s => { s with pools_ := assign id mac s.pools_ }
  let s ← get
  setConfig 0 (BitVec.ofNat 64 s.pools_.length)
  match mac with
  | none => throw ()
  | some mac => setConfig id (mac.setWidth 64)

/-- An entry that is read is added again; one that is not there comes to be, with an empty text for
its address. -/
def getPool (id : BitVec 32) : Work Unit := do
  let s ← get
  match findKey Prod.fst id s.pools_ with
  | some e => addPool id e.2
  | none => addPool id none

def getPools : List (BitVec 32) → Work Unit
  | [] => pure ()
  | id :: ids => do
    getPool id
    getPools ids

def getPoolList : Work Unit := do
  let s ← get
  getPools (s.pools_.map Prod.fst)

def delPool (id : BitVec 32) : Work Unit :=
  modify fun s => { s with pools_ := eraseKey Prod.fst id s.pools_ }

def replacePool (id newId : BitVec 32) (mac : Option (BitVec 48)) : Work Unit := do
  delPool id
  addPool newId mac

def updatePool (id : BitVec 32) (mac : Option (BitVec 48)) : Work Unit := do
  getPool id
  replacePool id id mac

/-! ### The program -/

structure Frontend where
  frontendPort : BitVec 16
  backendPort : BitVec 16
  ip : BitVec 32
  mac : BitVec 48

inductive L4
  | udp (src dst : BitVec 16)
  | tcp (src dst : BitVec 16)
  | icmp (type : BitVec 8)
  | short
  | other

inductive Payload
  | ip (src dst : BitVec 32) (l4 : L4)
  | arp (request : Bool) (target : BitVec 32)
  | short
  | other

structure Frame where
  inPort : BitVec 16
  dst : BitVec 48
  payload : Payload

def L4.key (src dst : BitVec 32) : L4 → Option SessionsKey
  | .udp portSrc portDst => some ⟨src, dst, portSrc, portDst, 17⟩
  | .tcp portSrc portDst => some ⟨src, dst, portSrc, portDst, 6⟩
  | .icmp type => if type = 8 ∨ type = 0 then some ⟨src, dst, 0, 0, 1⟩ else none
  | .short => none
  | .other => none

def Frontend.key (fe : Frontend) (f : Frame) : Option SessionsKey :=
  if f.inPort = fe.frontendPort then
    match f.payload with
    | .ip src dst l4 => if f.dst = fe.mac then l4.key src dst else none
    | _ => none
  else none

def Frontend.asked (fe : Frontend) (f : Frame) : Bool :=
  match f.payload with
  | .arp request target =>
    decide (f.inPort = fe.frontendPort) && request && decide (target = fe.ip)
  | _ => false

/-- What becomes of a frame: it may get a new destination, or an answer.  A remainder by 0 is no
number. -/
inductive Verdict
  | drop
  | redirect (port : BitVec 16) (dst : BitVec 48)
  | arpReply
  | divideByZero
  deriving DecidableEq

variable (jhash : SessionsKey → BitVec 32) (fe : Frontend)

/-- `get_sessions_value` and what is done with the session. -/
def getSessionsValue (s : State) (key : SessionsKey) : Verdict × State :=
  match s.sessions key with
  | some mac => (.redirect fe.backendPort (mac.setWidth 48), s)
  | none =>
    if s.config 0 = 0 then (.divideByZero, s)
    else
      match s.slot (((jhash key).setWidth 64 % s.config 0 + 1).setWidth 32) with
      | none => (.drop, s)
      | some mac => (.redirect fe.backendPort (mac.setWidth 48),
          { s with sessions := update s.sessions key (some mac) })

def handleRx (s : State) (f : Frame) : Verdict × State :=
  match fe.key f with
  | some key => getSessionsValue jhash fe s key
  | none => (if fe.asked f = true then .arpReply else .drop, s)

inductive Op
  | addPool (id : BitVec 32) (mac : Option (BitVec 48))
  | replacePool (id newId : BitVec 32) (mac : Option (BitVec 48))
  | updatePool (id : BitVec 32) (mac : Option (BitVec 48))
  | getPool (id : BitVec 32)
  | getPoolList
  | delPool (id : BitVec 32)
  | delPoolList
  | frame (f : Frame)
  | evict (key : SessionsKey)

def exec : Op → Work Unit
  | .addPool id mac => addPool id mac
  | .replacePool id newId mac => replacePool id newId mac
  | .updatePool id mac => updatePool id mac
  | .getPool id => getPool id
  | .getPoolList => getPoolList
  | .delPool id => delPool id
  | .delPoolList => pure ()
  | .frame f => modify fun s => (handleRx jhash fe s f).2
  | .evict key => modify fun s => { s with sessions := update s.sessions key none }

/-- The state after a request, if there is one.  The deletion of a pool with entries goes on from
an entry that it has erased, and does not end. -/
def stepOne (s : State) (op : Op) : Option State :=
  match op with
  | .delPoolList => if s.pools_ = [] then some s else none
  | _ =>
    match (exec jhash fe op).run s with
    | .ok _ s' => some s'
    | .error _ s' => some s'

def step (s : Option State) (op : Op) : Option State := s.bind fun s => stepOne jhash fe s op

end Polycube.Lbdsr
