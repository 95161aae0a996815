import Polycube.Lib.Table
import Polycube.Pbforwarder.Rules

/-!
# The programs of the policy-based forwarder

The parser writes the headers of a packet to memory that all packets on a CPU share, and the matcher
reads them there.  Both are compiled for a level, up to which headers are looked at, and the matcher
for a number of rules.  The tag of a packet is not in its frame, and the parser takes it for the
protocol of the frame.
-/

namespace Polycube.Pbforwarder

open Lib

/-- What follows the IP header: the ports of a TCP or UDP header, unless the frame ends in it. -/
inductive L4
  | segment (proto : RulesL4ProtoEnum) (ports : Option (BitVec 16 × BitVec 16))
  | other

/-- What follows the Ethernet header: the frame may end in the IP header. -/
inductive Payload
  | ip (src dst : BitVec 32) (l4 : L4)
  | short
  | other

structure Frame where
  srcMac : BitVec 48
  dstMac : BitVec 48
  vlan : Option (BitVec 12)
  payload : Payload

/-- `struct packetHeaders`, ports in network byte order. -/
structure PacketHeaders where
  srcMac : BitVec 48
  dstMac : BitVec 48
  vlan : BitVec 16
  vlanPresent : Bool
  ip : Bool
  srcIp : BitVec 32
  dstIp : BitVec 32
  l4proto : BitVec 8
  srcPort : BitVec 16
  dstPort : BitVec 16

def parseL4 (l4 : L4) (pkt : PacketHeaders) : PacketHeaders × Bool :=
  match l4 with
  | .segment _ none => (pkt, false)
  | .segment proto (some (src, dst)) =>
    ({ pkt with
      l4proto := proto.number.setWidth 8
      srcPort := bswap16 src
      dstPort := bswap16 dst }, true)
  | .other => (pkt, true)

def parseIp (level : ℕ) (payload : Payload) (pkt : PacketHeaders) : PacketHeaders × Bool :=
  match payload with
  | .ip src dst l4 =>
    if level = 4 then parseL4 l4 { pkt with ip := true, srcIp := src, dstIp := dst }
    else ({ pkt with ip := true, srcIp := src, dstIp := dst }, true)
  | .short => (pkt, false)
  | .other => (pkt, true)

def parseEth (f : Frame) (pkt : PacketHeaders) : PacketHeaders :=
  { pkt with
    srcMac := f.srcMac
    dstMac := f.dstMac
    vlanPresent := f.vlan.isSome
    vlan := (f.vlan.map fun id => id.setWidth 16).getD pkt.vlan
    ip := false }

/-- The parser.  Of a tagged packet `ether_type` is the protocol of the tag. -/
def parse (level : ℕ) (f : Frame) (pkt : PacketHeaders) : PacketHeaders × Bool :=
  if level > 2 ∧ f.vlan = none then parseIp level f.payload (parseEth f pkt)
  else (parseEth f pkt, true)

def Entry.matchesL2 (e : Entry) (pkt : PacketHeaders) : Bool :=
  (!isSet e.flags 0 || pkt.srcMac == e.srcMac) && (!isSet e.flags 1 || pkt.dstMac == e.dstMac) &&
    (!isSet e.flags 2 || (pkt.vlanPresent && pkt.vlan == e.vlanid))

def Entry.matchesL3 (e : Entry) (pkt : PacketHeaders) : Bool :=
  (!isSet e.flags 3 || (pkt.ip && pkt.srcIp == e.srcIp)) &&
    (!isSet e.flags 4 || (pkt.ip && pkt.dstIp == e.dstIp))

def Entry.matchesL4 (e : Entry) (pkt : PacketHeaders) (inPort : BitVec 16) : Bool :=
  (!isSet e.flags 5 ||
    (!((e.lvl4Proto == 6 && pkt.l4proto != 6) || (e.lvl4Proto == 17 && pkt.l4proto != 17)) &&
      (!isSet e.flags 6 || pkt.srcPort == e.srcPort) &&
      (!isSet e.flags 7 || pkt.dstPort == e.dstPort))) &&
    (!isSet e.flags 8 || inPort == e.inport)

def Entry.matches (e : Entry) (level : ℕ) (pkt : PacketHeaders) (inPort : BitVec 16) : Bool :=
  e.matchesL2 pkt && (!decide (level > 2) || e.matchesL3 pkt) &&
    (!decide (level = 4) || e.matchesL4 pkt inPort)

inductive Verdict
  | drop
  | slowpath
  | forward (port : BitVec 16)
  deriving DecidableEq

def action (action outport : BitVec 16) : Verdict :=
  if action = 1 then .slowpath else if action = 2 then .forward outport else .drop

def matching (rules : ℤ) (level : ℕ) (table : Table (BitVec 32) Entry) (pkt : PacketHeaders)
    (inPort : BitVec 16) : Verdict :=
  match (List.range rules.toNat).findSome? fun i =>
      (table (BitVec.ofNat 32 i)).filter fun e => e.matches level pkt inPort with
  | some e => action e.action e.outport
  | none => .drop

end Polycube.Pbforwarder
