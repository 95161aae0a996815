import Polycube.Lib.Flow
import Polycube.Lib.Lpm

/-!
# The address translator's programs

`handleRx` is the program of the translator, once compiled for packets that leave (`egress`) and
once for packets that come in (`ingress`).  A packet of no session that a rule matches makes a
session: one entry in the table of each direction.  Addresses and ports are raw, as in the frame.
-/

namespace Polycube.Natting

open Function Lib

/-- The key of a session table, `st_k`. -/
abbrev StK := FiveTuple

/-- `NAT_SRC`, `NAT_DST`, `NAT_MSQ` and `NAT_PFW`. -/
inductive OriginatingRule
  | snat | dnat | masquerade | portforwarding
  deriving DecidableEq

/-- A rule of packets that leave: `NAT_SRC` or `NAT_MSQ`. -/
def OriginatingRule.isSource : OriginatingRule → Bool
  | .snat | .masquerade => true
  | .dnat | .portforwarding => false

structure StV where
  newIp : BitVec 32
  newPort : BitVec 16
  originatingRuleType : OriginatingRule
  deriving DecidableEq

/-- A rule of packets that leave.  The control plane writes SNAT and masquerade rules here. -/
structure SmV where
  externalIp : BitVec 32
  entryType : OriginatingRule
  isSource : entryType.isSource = true

/-- A rule of packets that come in.  The control plane writes DNAT and port forwarding rules here. -/
structure DpV where
  internalIp : BitVec 32
  internalPort : BitVec 16
  entryType : OriginatingRule
  isDestination : entryType.isSource = false

structure Datapath where
  egressSessionTable : Table StK StV
  ingressSessionTable : Table StK StV
  smRules : Lpm 32 SmV
  dpRules : Lpm 56 DpV
  firstFreePort : BitVec 16

def getFreePort (firstFreePort : BitVec 16) : BitVec 16 × BitVec 16 := takePort firstFreePort

inductive Frame
  | ip (p : Ip)
  | arp
  | noIp
  | short
  deriving DecidableEq

inductive Nattype
  | egress | ingress
  deriving DecidableEq

/-- What the session tables and the rules say of a packet: its new address and port and the rule,
and whether a session is made. -/
structure Match where
  newIp : BitVec 32
  newPort : BitVec 16
  ruleType : OriginatingRule
  updateSessionTable : Bool
  deriving DecidableEq

def dpBits (ip : BitVec 32) (port : BitVec 16) (proto : BitVec 8) : BitVec 56 :=
  bswap32 ip ++ bswap16 port ++ proto

namespace Datapath

variable (s : Datapath)

def matchEgress (key : StK) : Option Match × Datapath :=
  match s.egressSessionTable key with
  | some value => (some ⟨value.newIp, value.newPort, .snat, false⟩, s)
  | none =>
    match s.smRules.lookup (bswap32 key.srcIp) with
    | some value =>
      let (newPort, firstFreePort) := getFreePort s.firstFreePort
      (some ⟨value.externalIp, newPort, value.entryType, true⟩,
        { s with firstFreePort := firstFreePort })
    | none => (none, s)

def matchIngress (key : StK) : Option Match :=
  match s.ingressSessionTable key with
  | some value => some ⟨value.newIp, value.newPort, .dnat, false⟩
  | none =>
    match s.dpRules.lookup (dpBits key.dstIp key.dstPort key.proto) with
    | some value =>
      let newPort := if value.internalPort = 0 then key.dstPort else value.internalPort
      some ⟨value.internalIp, newPort, value.entryType, true⟩
    | none => none

def updateSessionTables (key : StK) (m : Match) : Datapath :=
  if m.ruleType.isSource then
    { s with
      egressSessionTable := update s.egressSessionTable key
        (some ⟨m.newIp, m.newPort, m.ruleType⟩)
      ingressSessionTable := update s.ingressSessionTable
        ⟨key.dstIp, m.newIp, if key.proto = ipprotoIcmp then m.newPort else key.dstPort,
          m.newPort, key.proto⟩
        (some ⟨key.srcIp, key.srcPort, m.ruleType⟩) }
  else
    { s with
      egressSessionTable := update s.egressSessionTable
        ⟨m.newIp, key.srcIp, m.newPort,
          if key.proto = ipprotoIcmp then m.newPort else key.srcPort, key.proto⟩
        (some ⟨key.dstIp, key.dstPort, m.ruleType⟩)
      ingressSessionTable := update s.ingressSessionTable key
        (some ⟨m.newIp, m.newPort, m.ruleType⟩) }

/-- `apply_nat` -/
def applyNat (p : Ip) (key : StK) (m : Match) : Ip × Datapath :=
  let s := if m.updateSessionTable then s.updateSessionTables key m else s
  if m.ruleType.isSource then (p.setSource m.newIp m.newPort, s)
  else (p.setDest m.newIp m.newPort, s)

/-- A packet, or none if it is dropped, and the maps.  A packet of another protocol than TCP, UDP
and ICMP is dropped, and so is one that ends before its header. -/
def handleIp (type : Nattype) (p : Ip) : Option Ip × Datapath :=
  match p.tuple with
  | none => (none, s)
  | some key =>
    let (m, s) := match type with
      | .egress => s.matchEgress key
      | .ingress => (s.matchIngress key, s)
    match m with
    | none => (some p, s)
    | some m =>
      let (p, s) := s.applyNat p key m
      (some p, s)

end Datapath

def handleRx (type : Nattype) (s : Datapath) (frame : Frame) : Option Frame × Datapath :=
  match frame with
  | .short => (none, s)
  | .arp => (some .arp, s)
  | .noIp => (none, s)
  | .ip p =>
    let (p, s) := s.handleIp type p
    (p.map .ip, s)

end Polycube.Natting
