import Polycube.Lib.Checksum
import Polycube.Iptables.Pipeline
import Polycube.Firewall.Conntrack

/-!
# The programs that track connections

Both services have a program `ConntrackLabel` and a program `ConntrackTableUpdate`, and what the
two services do with a session is the same text: `Firewall.label` and `Firewall.tableUpdate`.  They
differ in what comes after it.  Here is each of the four programs as a whole, with all the memory
it can write to: the packet, the per-CPU record, the table of the connections and the counters of
the packets that are accepted early.  When `ConntrackTableUpdate` of this service accepts a packet
it may send it out by itself, after a look into the routing table of the host (`bpf_fib_lookup`).
-/

namespace Polycube.Iptables

open Lib
open Polycube.Firewall (PacketHeaders Connections ConnStatus ethLen ipLen)

/-- The values of the per-CPU variable `forwardingDecision`, which `ChainSelector` writes. -/
inductive Labeling
  | input | forward | output | pass | passNo | dropNo
  deriving DecidableEq

/-- `ConntrackModes` of the firewall. -/
inductive FirewallMode
  | disabled | manual | automatic
  deriving DecidableEq

/-- What the control plane puts into the code before it is compiled: `_CONNTRACK_MODE` of each
service, `_CONNTRACK_MODE_INPUT` and its siblings, `_INGRESS_LOGIC` and `_FIB_LOOKUP_ENABLED`. -/
structure Compiled where
  firewallMode : FirewallMode
  conntrackMode : ConntrackModes
  chainMode : ChainNameEnum → ConntrackModes
  type : ProgramType
  fibLookupEnabled : Bool

structure Memory where
  frame : Buffer
  pkt : PacketHeaders
  connections : Connections
  forwardingDecision : Labeling
  pktsAccepted : ChainNameEnum → BitVec 64
  bytesAccepted : ChainNameEnum → BitVec 64

abbrev Mac := { mac : Buffer // mac.length = 6 }

/-- The parameters of `bpf_fib_lookup`. -/
structure FibParams where
  family : BitVec 8
  tos : BitVec 8
  l4Protocol : BitVec 8
  sport : BitVec 16
  dport : BitVec 16
  totLen : BitVec 16
  ipv4Src : BitVec 32
  ipv4Dst : BitVec 32
  ifindex : BitVec 32
  deriving DecidableEq

structure FibResult where
  ifindex : BitVec 32
  dmac : Mac
  smac : Mac
  deriving DecidableEq

/-- What a program reads beside the memory: the clock, the metadata of the packet and the routing
table, which answers `none` for a code that is not zero. -/
structure Surroundings where
  timestamp : BitVec 64
  packetLen : BitVec 32
  ingressIfindex : BitVec 32
  fibLookup : FibParams → Option FibResult

/-- How a program ends: a return code or a call of another program.  A call that fails drops the
packet. -/
inductive End
  | rxOk | rxDrop | xdpDrop | xdpPass
  | redirectMap (ifindex : BitVec 32)
  | chainForwarder | conntrackTableUpdate
  deriving DecidableEq

def Memory.labelled (m : Memory) (st : ConnStatus) (frame : Buffer) : Memory :=
  { m with pkt := m.pkt.setConnStatus st, frame }

/-- The part after `action` of the firewall. -/
def firewallAction (c : Compiled) (pkt : PacketHeaders) : End :=
  match c.firewallMode with
  | .disabled => .rxDrop
  | .manual =>
    if pkt.forwardingDecision = .passLabeling then .conntrackTableUpdate else .chainForwarder
  | .automatic =>
    if pkt.connStatus = .established then .conntrackTableUpdate
    else if pkt.forwardingDecision = .passLabeling then .conntrackTableUpdate
    else .chainForwarder

/-- `incrementAcceptEstablishedInput` and its siblings. -/
def Memory.incrementAcceptEstablished (m : Memory) (name : ChainNameEnum) (bytes : BitVec 32) :
    Memory :=
  { m with
    pktsAccepted := Function.update m.pktsAccepted name (m.pktsAccepted name + 1)
    bytesAccepted := Function.update m.bytesAccepted name
      (m.bytesAccepted name + bytes.setWidth 64) }

def labelingCase (c : Compiled) (e : Surroundings) (name : ChainNameEnum) (m : Memory) :
    End × Memory :=
  match c.chainMode name with
  | .off => (.chainForwarder, m)
  | .on =>
    if m.pkt.connStatus = .established then
      (.conntrackTableUpdate, m.incrementAcceptEstablished name e.packetLen)
    else (.chainForwarder, m)
  | .disabled => (.rxDrop, m)

/-- The part after `action` of this service. -/
def iptablesAction (c : Compiled) (e : Surroundings) (m : Memory) : End × Memory :=
  match c.type, m.forwardingDecision with
  | .ingress, .input => labelingCase c e .input m
  | .ingress, .forward => labelingCase c e .forward m
  | .egress, .output => labelingCase c e .output m
  | _, .pass => (.chainForwarder, m)
  | _, _ => (.rxDrop, m)

/-- `ConntrackLabel` of the firewall. -/
def firewallLabel (c : Compiled) (m : Memory) : End × Memory :=
  match Firewall.label m.connections m.pkt m.frame with
  | none => (.rxDrop, m)
  | some (st, frame) =>
    let m := m.labelled st frame
    (firewallAction c m.pkt, m)

/-- `ConntrackLabel` of this service. -/
def iptablesLabel (c : Compiled) (e : Surroundings) (m : Memory) : End × Memory :=
  match Firewall.label m.connections m.pkt m.frame with
  | none => (.rxDrop, m)
  | some (st, frame) => iptablesAction c e (m.labelled st frame)

def Memory.tracked (m : Memory) (pkt : PacketHeaders) (connections : Connections) : Memory :=
  { m with pkt, connections }

/-- `ConntrackTableUpdate` of the firewall. -/
def firewallTableUpdate (c : Compiled) (e : Surroundings) (m : Memory) : End × Memory :=
  match c.firewallMode with
  | .disabled => (.rxOk, m)
  | _ =>
    match Firewall.tableUpdate m.pkt m.frame e.timestamp m.connections with
    | ((.rxDrop, pkt), connections) => (.rxDrop, m.tracked pkt connections)
    | ((.rxOk, pkt), connections) => (.rxOk, m.tracked pkt connections)

/-- `AF_INET` -/
def afInet : BitVec 8 := 2#8

/-- `ip_decrease_ttl`: the checksum goes up by what the time to live goes down. -/
def ipDecreaseTtl (frame : Buffer) : Buffer :=
  let check : BitVec 32 := (frame.load16 (ethLen + 10)).setWidth 32 +
    (bswap16 0x0100#16).setWidth 32
  let check := check + if check ≥ 0xFFFF#32 then 1#32 else 0#32
  let frame := frame.store16 (ethLen + 10) (check.setWidth 16)
  frame.store8 (ethLen + 8) (frame.byte (ethLen + 8) - 1#8)

/-- What `bpf_fib_lookup` is asked for a packet. -/
def fibParams (e : Surroundings) (frame : Buffer) : FibParams where
  family := afInet
  tos := frame.byte (ethLen + 1)
  l4Protocol := frame.byte (ethLen + 9)
  sport := 0#16
  dport := 0#16
  totLen := bswap16 (frame.load16 (ethLen + 2))
  ipv4Src := frame.load32 (ethLen + 12)
  ipv4Dst := frame.load32 (ethLen + 16)
  ifindex := e.ingressIfindex

/-- The frame that is sent out: one hop less to live, and the MAC addresses of the next link. -/
def redirected (r : FibResult) (frame : Buffer) : Buffer :=
  ((ipDecreaseTtl frame).storeBytes 0 r.dmac.1).storeBytes 6 r.smac.1

/-- The part after `forward_action`. -/
def forwardAction (c : Compiled) (e : Surroundings) (m : Memory) : End × Memory :=
  if c.fibLookupEnabled ∧ c.type = .ingress then
    if m.frame.length < ethLen then (.xdpDrop, m)
    else if m.frame.load16 12 = bswap16 Firewall.ethPIp then
      if m.frame.length < ethLen + ipLen then (.xdpDrop, m)
      else if m.frame.byte (ethLen + 8) ≤ 1#8 then (.xdpPass, m)
      else
        match e.fibLookup (fibParams e m.frame) with
        | some r => (.redirectMap r.ifindex, { m with frame := redirected r m.frame })
        | none => (.rxOk, m)
    else (.rxOk, m)
  else (.rxOk, m)

/-- `ConntrackTableUpdate` of this service. -/
def iptablesTableUpdate (c : Compiled) (e : Surroundings) (m : Memory) : End × Memory :=
  match c.conntrackMode with
  | .disabled => (.rxOk, m)
  | _ =>
    match Firewall.tableUpdate m.pkt m.frame e.timestamp m.connections with
    | ((.rxDrop, pkt), connections) => (.rxDrop, m.tracked pkt connections)
    | ((.rxOk, pkt), connections) => forwardAction c e (m.tracked pkt connections)

inductive TrackingProgram
  | firewallLabel | firewallTableUpdate | iptablesLabel | iptablesTableUpdate
  deriving DecidableEq

/-- `handle_rx` of each. -/
def TrackingProgram.handleRx (c : Compiled) (e : Surroundings) (m : Memory) :
    TrackingProgram → End × Memory
  | firewallLabel => Iptables.firewallLabel c m
  | firewallTableUpdate => Iptables.firewallTableUpdate c e m
  | iptablesLabel => Iptables.iptablesLabel c e m
  | iptablesTableUpdate => Iptables.iptablesTableUpdate c e m

end Polycube.Iptables
