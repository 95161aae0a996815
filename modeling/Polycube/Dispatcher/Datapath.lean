import Polycube.Lib.Flow
import Polycube.Lib.Table

/-!
# The dispatcher's program

`handleRx` is the program of the dispatcher between the outside (the frontend port) and the pods of
a node (the backend port).  Packets of pods to the outside leave with the address of the node, and
requests of a node port service of the whole cluster go in with an internal address; both make a
session, which is one entry in the table of each direction.
-/

namespace Polycube.Dispatcher

open Function Lib

/-! ### Maps -/

/-- The key of a session table, `st_k`. -/
abbrev StK := FiveTuple

inductive OperationType
  | xlateSrc | xlateDst
  deriving DecidableEq

inductive OriginatingRuleType
  | podToExt | nodeportCluster
  deriving DecidableEq

structure StV where
  newIp : BitVec 32
  newPort : BitVec 16
  operation : OperationType
  originatingRule : OriginatingRuleType
  deriving DecidableEq

/-- The key of a node port rule, `nt_k`. -/
structure NtK where
  port : BitVec 16
  proto : BitVec 8
  deriving DecidableEq

inductive ExternalTrafficPolicyType
  | local | cluster
  deriving DecidableEq

structure Config where
  frontendPort : BitVec 16
  backendPort : BitVec 16
  nodeIp : BitVec 32
  internalSrcIp : BitVec 32
  deriving DecidableEq

structure Datapath where
  egressSessionTable : Table StK StV
  ingressSessionTable : Table StK StV
  nprTable : Table NtK ExternalTrafficPolicyType
  freePort : BitVec 16

def getFreePort (freePort : BitVec 16) : BitVec 16 × BitVec 16 := takePort freePort

def arpopRequest : BitVec 16 := 1#16
def arpopReply : BitVec 16 := 2#16

inductive Frame
  | ip (p : Ip)
  | arp (op : BitVec 16)
  | noIp
  | short
  deriving DecidableEq

/-- What becomes of a packet.  `controller` sends a copy to the control plane, and the packet to
the stack. -/
inductive Action
  | drop
  | stack
  | controller
  | redirect (port : BitVec 16)
  deriving DecidableEq

structure Rule where
  newIp : BitVec 32
  originatingRule : OriginatingRuleType
  deriving DecidableEq

section

variable (c : Config) (s : Datapath)

/-- The entries of a new session.  The forward table is that of the packet's direction; every rule
rewrites the source. -/
def Datapath.createSession (inPort : BitVec 16) (key : StK) (rule : Rule) (newPort : BitVec 16) :
    Datapath :=
  let forwardValue : StV := ⟨rule.newIp, newPort, .xlateSrc, rule.originatingRule⟩
  let reverseKey : StK :=
    ⟨key.dstIp, rule.newIp, if key.proto = ipprotoIcmp then newPort else key.dstPort, newPort,
      key.proto⟩
  let reverseValue : StV := ⟨key.srcIp, key.srcPort, .xlateDst, rule.originatingRule⟩
  if inPort = c.backendPort then
    { s with
      egressSessionTable := update s.egressSessionTable key (some forwardValue)
      ingressSessionTable := update s.ingressSessionTable reverseKey (some reverseValue) }
  else
    { s with
      ingressSessionTable := update s.ingressSessionTable key (some forwardValue)
      egressSessionTable := update s.egressSessionTable reverseKey (some reverseValue) }

def Datapath.sessionTable (inPort : BitVec 16) : Table StK StV :=
  if inPort = c.backendPort then s.egressSessionTable else s.ingressSessionTable

/-- The rules for a packet of no session: one gives it a new source, the others decide where it goes
as it is. -/
def Datapath.ruleOf (inPort : BitVec 16) (key : StK) : Action ⊕ Rule :=
  if inPort = c.backendPort then
    -- RESP_NP_LOCAL, POD_TO_EXT
    if key.srcIp = c.nodeIp then .inl (.redirect c.frontendPort)
    else .inr ⟨c.nodeIp, .podToExt⟩
  else
    match s.nprTable ⟨key.dstPort, key.proto⟩ with
    | none => .inl .stack
    -- REQ_NP_LOCAL, REQ_NP_CLUSTER
    | some .local => .inl (.redirect c.backendPort)
    | some .cluster => .inr ⟨c.internalSrcIp, .nodeportCluster⟩

/-- `APPLY_NAT` -/
def applyNat (p : Ip) (newIp : BitVec 32) (newPort : BitVec 16) : OperationType → Ip
  | .xlateSrc => p.setSource newIp newPort
  | .xlateDst => p.setDest newIp newPort

def outPort (inPort : BitVec 16) : BitVec 16 :=
  if inPort = c.backendPort then c.frontendPort else c.backendPort

def handleIp (inPort : BitVec 16) (p : Ip) : (Action × Ip) × Datapath :=
  if inPort = c.frontendPort ∧ p.daddr ≠ c.nodeIp then ((.stack, p), s)
  else
    match p.tuple with
    | none => ((.drop, p), s)
    | some key =>
      match s.sessionTable c inPort key with
      | some entry =>
        ((.redirect (outPort c inPort), applyNat p entry.newIp entry.newPort entry.operation), s)
      | none =>
        match s.ruleOf c inPort key with
        | .inl action => ((action, p), s)
        | .inr rule =>
          let (newPort, freePort) := getFreePort s.freePort
          ((.redirect (outPort c inPort), applyNat p rule.newIp newPort .xlateSrc),
            { s with freePort := freePort }.createSession c inPort key rule newPort)

def handleArp (inPort op : BitVec 16) : Action :=
  if inPort = c.backendPort then
    if op = bswap16 arpopRequest then .redirect c.frontendPort else .drop
  else if op = bswap16 arpopRequest then .stack
  else if op = bswap16 arpopReply then .controller
  else .drop

def handleRx (inPort : BitVec 16) (frame : Frame) : (Action × Frame) × Datapath :=
  if c.frontendPort = c.backendPort then ((.drop, frame), s)
  else
    match frame with
    | .short => ((.drop, frame), s)
    | .noIp => ((.stack, frame), s)
    | .arp op => ((handleArp c inPort op, frame), s)
    | .ip p =>
      let ((action, p), s) := handleIp c s inPort p
      ((action, .ip p), s)

end

end Polycube.Dispatcher
