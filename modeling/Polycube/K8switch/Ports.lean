import Polycube.Lib.Bytes
import Polycube.Lib.Ring
import Polycube.Lib.Table

/-!
# Ports of NodePort sessions

The program on each CPU takes the source ports of new sessions from a circular buffer of its own.  A
thread of the control plane walks over the sessions, removes those that are too old and writes their
ports back into the buffers.  Each access to a map is a step, and steps of the programs and of the
thread come in any order.
-/

namespace Polycube.K8switch

open Lib

structure CbControl where
  reader : BitVec 16
  writer : BitVec 16
  size : BitVec 32
  deriving DecidableEq

structure NodeportSessionIn where
  ipSrc : BitVec 32
  ipDst : BitVec 32
  portSrc : BitVec 16
  portDst : BitVec 16
  proto : BitVec 16
  timestamp : BitVec 64
  deriving DecidableEq

structure NodeportSessionOut where
  macDst : BitVec 64
  macSrc : BitVec 64
  ipSrc : BitVec 32
  ipDst : BitVec 32
  portSrc : BitVec 16
  portDst : BitVec 16
  proto : BitVec 16
  timestamp : BitVec 64
  deriving DecidableEq

def NodeportSessionIn.untimed (key : NodeportSessionIn) : NodeportSessionIn :=
  { key with timestamp := 0 }

def NodeportSessionOut.untimed (value : NodeportSessionOut) : NodeportSessionOut :=
  { value with timestamp := 0 }

/-- The source port of the translated packets, in host order. -/
def NodeportSessionIn.port (key : NodeportSessionIn) : BitVec 16 := bswap16 key.portSrc

/-- Where the program on a CPU is: between two packets, or between two of the updates that make a
session. -/
inductive Program
  | waiting
  | updateIn (value : NodeportSessionOut) (key : NodeportSessionIn)
  | updateOut (value : NodeportSessionOut) (key : NodeportSessionIn)
  deriving DecidableEq

/-- What the thread does next in `cleanupSessionTable`, with what it has read so far. -/
inductive Stage
  | next
  | removeOut (key : NodeportSessionIn) (value : NodeportSessionOut)
  | removeIn (key : NodeportSessionIn) (value : NodeportSessionOut)
  | getCb (port : BitVec 16)
  | getRow (port : BitVec 16) (cpu : ℕ) (cb : CbControl)
  | setRow (port : BitVec 16) (cpu : ℕ) (cb : CbControl) (ports : ℕ → BitVec 16)
  | setCb (port : BitVec 16) (cpu : ℕ) (cb : CbControl)

/-- The thread sleeps, or it walks over the sessions it has read and the `rest` is still to do. -/
inductive Cleanup
  | sleeping
  | walking (stage : Stage) (rest : List (NodeportSessionIn × NodeportSessionOut))

/-- The maps, the places of the programs and of the thread, and the ports that `get_free_port` has
returned and the thread has not freed since.  A row of the buffer has a port for each CPU. -/
structure State where
  freePortsBuffer : BitVec 16 → ℕ → BitVec 16
  freePortsCb : ℕ → CbControl
  nodeportSessionIn : Table NodeportSessionOut NodeportSessionIn
  nodeportSessionOut : Table NodeportSessionIn NodeportSessionOut
  program : ℕ → Program
  cleanup : Cleanup
  held : List (BitVec 16)

def bufSize : BitVec 32 := 65536

/-- The maps as the constructor fills them: row after row, each CPU in turn gets a port. -/
def State.init (ncpus : ℕ) : State where
  freePortsBuffer i cpu :=
    if i.toNat < (65535 - 1024) / ncpus ∧ cpu < ncpus then .ofNat 16 (1024 + i.toNat * ncpus + cpu)
    else 0
  freePortsCb cpu :=
    if cpu < ncpus then ⟨0, .ofNat 16 ((65535 - 1024) / ncpus), bufSize⟩ else ⟨0, 0, 0⟩
  nodeportSessionIn _ := none
  nodeportSessionOut _ := none
  program _ := .waiting
  cleanup := .sleeping
  held := []

def State.pool (s : State) (cpu : ℕ) : List (BitVec 16) :=
  ring (fun i => s.freePortsBuffer i cpu) (s.freePortsCb cpu).reader (s.freePortsCb cpu).writer

def CbControl.advance (cb : CbControl) (place : BitVec 16) : BitVec 16 :=
  ((place + 1#16).setWidth 32 % cb.size).setWidth 16

def State.getFreePort (s : State) (cpu : ℕ) : BitVec 16 × State :=
  let ctrl := s.freePortsCb cpu
  if ctrl.reader = ctrl.writer then (0, s)
  else (bswap16 (s.freePortsBuffer ctrl.reader cpu), { s with
    freePortsCb :=
      Function.update s.freePortsCb cpu { ctrl with reader := ctrl.advance ctrl.reader } })

/-- The tuple of the answers to a new session: the packets have got a source and a backend. -/
def sessionKey (clientIp : BitVec 32) (value : NodeportSessionOut)
    (backend : BitVec 32 × BitVec 16) (port : BitVec 16) : NodeportSessionIn :=
  ⟨clientIp, backend.1, port, backend.2, value.proto, 0⟩

/-- A packet for a NodePort service comes on a CPU, and `get_cluster_ip_backend` has a backend for
it.  A session that exists gets a new timestamp. -/
def State.packet (clientIp : BitVec 32) (s : State) (cpu : ℕ) (value : NodeportSessionOut)
    (backend : BitVec 32 × BitVec 16) (now : BitVec 64) : State :=
  match s.program cpu with
  | .waiting =>
    match s.nodeportSessionIn value.untimed with
    | some session => { s with
        nodeportSessionIn := Function.update s.nodeportSessionIn value.untimed
          (some { session with timestamp := now }) }
    | none =>
      let newPort := (s.getFreePort cpu).1
      if newPort = 0 then (s.getFreePort cpu).2
      else { (s.getFreePort cpu).2 with
        program := Function.update s.program cpu
          (.updateIn value.untimed (sessionKey clientIp value backend newPort))
        held := bswap16 newPort :: s.held }
  | _ => s

def State.update (s : State) (cpu : ℕ) (now : BitVec 64) (accepted : Bool) : State :=
  match s.program cpu with
  | .waiting => s
  | .updateIn value key => { s with
      nodeportSessionIn := if accepted then
          Function.update s.nodeportSessionIn value (some { key with timestamp := now })
        else s.nodeportSessionIn
      program := Function.update s.program cpu (.updateOut value key) }
  | .updateOut value key => { s with
      nodeportSessionOut := if accepted then
          Function.update s.nodeportSessionOut key (some { value with timestamp := now })
        else s.nodeportSessionOut
      program := Function.update s.program cpu .waiting }

def State.answer (s : State) (key : NodeportSessionIn) (now : BitVec 64) : State :=
  match s.nodeportSessionOut key with
  | none => s
  | some value => { s with
      nodeportSessionOut :=
        Function.update s.nodeportSessionOut key (some { value with timestamp := now }) }

def sessionTableTimeout : BitVec 32 := 300

def timestampToAge (now timestamp : BitVec 64) : BitVec 32 :=
  ((now - timestamp) / 1000000000#64).setWidth 32

def tooOld (now timestamp : BitVec 64) : Prop := sessionTableTimeout < timestampToAge now timestamp

instance (now timestamp : BitVec 64) : Decidable (tooOld now timestamp) :=
  inferInstanceAs (Decidable (sessionTableTimeout < timestampToAge now timestamp))

/-- The thread wakes up and reads the sessions.  The walk over the map finds keys in some order, and
may miss some that are added meanwhile. -/
def State.getAll (s : State) (keys : List NodeportSessionIn) : State :=
  match s.cleanup with
  | .sleeping => { s with
      cleanup := .walking .next
        (keys.dedup.filterMap fun key => (s.nodeportSessionOut key).map fun value => (key, value)) }
  | .walking _ _ => s

def State.cleanupSessionTable (ncpus : ℕ) (s : State) (now : BitVec 64) : State :=
  match s.cleanup with
  | .sleeping => s
  | .walking .next [] => { s with cleanup := .sleeping }
  | .walking .next ((key, value) :: rest) =>
    if tooOld now value.timestamp then
      match s.nodeportSessionIn value.untimed with
      | none => { s with cleanup := .sleeping }
      | some valueIn =>
        if tooOld now valueIn.timestamp then
          { s with cleanup := .walking (.removeOut key value) rest }
        else { s with cleanup := .walking .next rest }
    else { s with cleanup := .walking .next rest }
  | .walking (.removeOut key value) rest =>
    match s.nodeportSessionOut key with
    | none => { s with cleanup := .sleeping }
    | some _ => { s with
        nodeportSessionOut := Function.update s.nodeportSessionOut key none
        cleanup := .walking (.removeIn key value) rest }
  | .walking (.removeIn key value) rest =>
    match s.nodeportSessionIn value.untimed with
    | none => { s with cleanup := .sleeping }
    | some _ => { s with
        nodeportSessionIn := Function.update s.nodeportSessionIn value.untimed none
        cleanup := .walking (.getCb key.port) rest }
  | .walking (.getCb port) rest =>
    let cpu := port.toNat % ncpus
    { s with cleanup := .walking (.getRow port cpu (s.freePortsCb cpu)) rest }
  | .walking (.getRow port cpu cb) rest =>
    { s with cleanup := .walking (.setRow port cpu cb (s.freePortsBuffer cb.writer)) rest }
  | .walking (.setRow port cpu cb ports) rest => { s with
      freePortsBuffer :=
        Function.update s.freePortsBuffer cb.writer (Function.update ports cpu port)
      cleanup := .walking (.setCb port cpu cb) rest }
  | .walking (.setCb port cpu cb) rest => { s with
      freePortsCb := Function.update s.freePortsCb cpu { cb with writer := cb.advance cb.writer }
      held := s.held.filter (· ≠ port)
      cleanup := .walking .next rest }

inductive Event
  | packet (cpu : ℕ) (value : NodeportSessionOut) (backend : BitVec 32 × BitVec 16)
      (now : BitVec 64)
  | update (cpu : ℕ) (now : BitVec 64) (accepted : Bool)
  | answer (key : NodeportSessionIn) (now : BitVec 64)
  | getAll (keys : List NodeportSessionIn)
  | cleanupSessionTable (now : BitVec 64)
  deriving DecidableEq

def step (ncpus : ℕ) (clientIp : BitVec 32) (s : State) : Event → State
  | .packet cpu value backend now => s.packet clientIp cpu value backend now
  | .update cpu now accepted => s.update cpu now accepted
  | .answer key now => s.answer key now
  | .getAll keys => s.getAll keys
  | .cleanupSessionTable now => s.cleanupSessionTable ncpus now

end Polycube.K8switch
