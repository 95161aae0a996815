import Polycube.Lib.Bytes

/-!
# The per-CPU packet record

Every program of a firewall chain reads the packet through one per-CPU record, `packetHeaders`.
The first program, `Parser`, fills it from the frame; `parse` is that program up to its tail call.
The fields a packet does not have (ports of an ICMP packet, flags of a UDP packet) are not written:
they keep what an earlier packet left there.
-/

namespace Polycube.Firewall

open Lib

inductive ConnStatus
  | new | established | related | invalid
  | synSent | synRecv | finWait1 | finWait2 | lastAck | timeWait
  deriving DecidableEq

inductive ForwardingDecision
  | notSet | passLabeling
  deriving DecidableEq

/-- The per-CPU packet record.  Addresses, ports and sequence numbers are raw: they are the
words a little-endian host reads from the frame. -/
structure PacketHeaders where
  srcIp : BitVec 32
  dstIp : BitVec 32
  l4proto : BitVec 8
  srcPort : BitVec 16
  dstPort : BitVec 16
  flags : BitVec 8
  seqN : BitVec 32
  ackN : BitVec 32
  connStatus : ConnStatus
  forwardingDecision : ForwardingDecision
  deriving DecidableEq

inductive Ret
  | rxOk | rxDrop
  deriving DecidableEq

def ipprotoIcmp : BitVec 8 := 1#8
def ipprotoTcp : BitVec 8 := 6#8
def ipprotoUdp : BitVec 8 := 17#8
def ipprotoGre : BitVec 8 := 47#8

def tcphdrFin : BitVec 8 := 0x01#8
def tcphdrSyn : BitVec 8 := 0x02#8
def tcphdrRst : BitVec 8 := 0x04#8
def tcphdrAck : BitVec 8 := 0x10#8

/-- `ETH_P_IP`. -/
def ethPIp : BitVec 16 := 0x0800#16

/-! Sizes of the Ethernet, IP, TCP, UDP and ICMP headers. -/

def ethLen : Nat := 14
def ipLen : Nat := 20
def tcpLen : Nat := 20
def udpLen : Nat := 8
def icmpLen : Nat := 8

/-- `Parser`: fill the record `pkt` from the frame.  `some ret` is an early return; the record is
the one left behind in every case. -/
def parse (frame : Buffer) (pkt : PacketHeaders) : PacketHeaders × Option Ret :=
  if frame.length < ethLen then (pkt, some .rxDrop)
  else if frame.load16 12 ≠ bswap16 ethPIp then (pkt, some .rxOk)
  else if frame.length < ethLen + ipLen then (pkt, some .rxDrop)
  else
    let pkt := { pkt with
      srcIp := frame.load32 26
      dstIp := frame.load32 30
      l4proto := frame.byte 23
      forwardingDecision := .notSet }
    if pkt.l4proto = ipprotoTcp then
      if frame.length < ethLen + ipLen + tcpLen then (pkt, some .rxDrop)
      else
        ({ pkt with
            srcPort := frame.load16 34
            dstPort := frame.load16 36
            seqN := frame.load32 38
            ackN := frame.load32 42
            flags := frame.byte 47 }, none)
    else if pkt.l4proto = ipprotoUdp then
      if frame.length < ethLen + ipLen + udpLen then (pkt, some .rxDrop)
      else ({ pkt with srcPort := frame.load16 34, dstPort := frame.load16 36 }, none)
    else (pkt, none)

end Polycube.Firewall
