import Polycube.Lib.Ipv4
import Polycube.Router.Routes

/-!
# The router's program

`handleRx` is the program of the router, byte by byte, as it is compiled for XDP and for TC.  A
packet that is sent on loses one hop: for XDP its checksum is computed again, for TC it is mended.
Addresses in the tables are numbers.
-/

namespace Polycube.Router

open Lib Lib.Ipv4

/-- `r_port`, with what the program reads of it.  An unused place for a secondary address is 0. -/
structure RPort where
  ip : BitVec 32
  secondaryIp : List (BitVec 32)
  mac : BitVec 48
  deriving DecidableEq

structure ArpEntry where
  mac : BitVec 64
  port : BitVec 32
  deriving DecidableEq

structure Maps where
  routerPort : Table (BitVec 16) RPort
  routingTable : Lpm 32 RtV
  arpTable : Table (BitVec 32) ArpEntry

def icmpLen : ℕ := 8
def arpLen : ℕ := 28

def arpopRequest : BitVec 16 := bswap16 1
def arpopReply : BitVec 16 := bswap16 2

def load48 (frame : Buffer) (off : ℕ) : BitVec 48 :=
  frame.load16 (off + 4) ++ frame.load32 off

def store48 (frame : Buffer) (off : ℕ) (v : BitVec 48) : Buffer :=
  frame.storeBytes off ((List.range 6).map fun i => v.extractLsb' (8 * i) 8)

def ipAt (frame : Buffer) (off : ℕ) : BitVec 32 := bswap32 (frame.load32 off)

inductive SlowpathReason
  | arpReply | arpLookupMiss | ttlExceeded | pktForRouter
  deriving DecidableEq

inductive Verdict
  | drop
  | redirect (port : BitVec 16)
  | redirectNs (port : BitVec 16)
  | controller (reason : SlowpathReason) (metadata : List (BitVec 32))
  deriving DecidableEq

structure Result where
  verdict : Verdict
  frame : Buffer
  arpTable : Table (BitVec 32) ArpEntry

inductive Hook
  | xdp
  | tc (helpers : CsumHelpers)

/-- The loop of `checksum`. -/
def checksumSum (buf : Buffer) : ℕ → ℕ → BitVec 64 → BitVec 64
  | off, bufsz + 2, sum => checksumSum buf (off + 2) bufsz (sum + (buf.load16 off).setWidth 64)
  | off, 1, sum => sum + (buf.byte off).setWidth 64
  | _, 0, sum => sum

def checksum (buf : Buffer) (off bufsz : ℕ) : BitVec 16 :=
  let sum := checksumSum buf off bufsz 0
  let sum := (sum &&& 0xFFFF#64) + (sum >>> 16)
  (~~~sum).setWidth 16

def decrementTtl (hook : Hook) (frame : Buffer) : Buffer :=
  let oldTtl : BitVec 32 := (frame.byte (ethLen + 8)).setWidth 32
  let newTtl := oldTtl - 1#32
  match hook with
  | .xdp =>
    let frame := frame.store16 (ethLen + 10) 0
    let frame := frame.store8 (ethLen + 8) (newTtl.setWidth 8)
    frame.store16 (ethLen + 10) (checksum frame ethLen ipLen)
  | .tc helpers =>
    let l3sum := helpers.csumDiff oldTtl newTtl
    let frame := frame.store8 (ethLen + 8) (newTtl.setWidth 8)
    frame.store16 (ethLen + 10) (helpers.replaceByDiff (frame.load16 (ethLen + 10)) l3sum)

/-- `send_packet_to_output_interface` -/
def sendPacketToOutputInterface (hook : Hook) (m : Maps) (frame : Buffer) (nexthop : BitVec 32)
    (outPort : BitVec 16) (ipPort : BitVec 32) (macPort : BitVec 48) : Result :=
  let dstIp := if nexthop = 0 then ipAt frame (ethLen + 16) else nexthop
  match m.arpTable dstIp with
  | none =>
    ⟨.controller .arpLookupMiss [dstIp, outPort.setWidth 32, ipPort], frame, m.arpTable⟩
  | some entry =>
    let frame := store48 frame 0 (entry.mac.setWidth 48)
    let frame := store48 frame 6 macPort
    ⟨.redirect outPort, decrementTtl hook frame, m.arpTable⟩

/-- `send_packet_for_router_to_slowpath` -/
def sendPacketForRouterToSlowpath (m : Maps) (frame : Buffer) : Result :=
  if frame.length < ethLen + ipLen + icmpLen then ⟨.drop, frame, m.arpTable⟩
  else ⟨.controller .pktForRouter [ipAt frame (ethLen + 12), ipAt frame (ethLen + 16),
    (frame.byte (ethLen + 9)).setWidth 32], frame, m.arpTable⟩

def sendArpReply (m : Maps) (frame : Buffer) (inPort : BitVec 16) (port : RPort) : Result :=
  let targetIp := ipAt frame (ethLen + 24)
  if targetIp = port.ip ∨ targetIp ∈ port.secondaryIp then
    let remotemac := load48 frame (ethLen + 8)
    let remoteip := ipAt frame (ethLen + 14)
    let frame := frame.store16 (ethLen + 6) arpopReply
    let frame := store48 frame (ethLen + 18) remotemac
    let frame := store48 frame (ethLen + 8) port.mac
    let frame := frame.store32 (ethLen + 14) (bswap32 targetIp)
    let frame := frame.store32 (ethLen + 24) (bswap32 remoteip)
    let frame := store48 frame 0 remotemac
    let frame := store48 frame 6 port.mac
    ⟨.redirect inPort, frame, Function.update m.arpTable remoteip
      (some ⟨remotemac.setWidth 64, inPort.setWidth 32⟩)⟩
  else ⟨.drop, frame, m.arpTable⟩

def notifyArpReplyToSlowpath (m : Maps) (frame : Buffer) (inPort : BitVec 16) : Result :=
  let ip := ipAt frame (ethLen + 14)
  ⟨.controller .arpReply [ip], frame, Function.update m.arpTable ip
    (some ⟨(load48 frame (ethLen + 8)).setWidth 64, inPort.setWidth 32⟩)⟩

def isEtherMcast (mac : BitVec 48) : Bool := mac.getLsbD 0

/-- From the label `IP` on. -/
def handleIp (hook : Hook) (shadow : Bool) (m : Maps) (frame : Buffer) (inPort : BitVec 16)
    (port : RPort) : Result :=
  if frame.length < ethLen + ipLen then ⟨.drop, frame, m.arpTable⟩
  else
    match m.routingTable.lookup (ipAt frame (ethLen + 16)) with
    | none => ⟨.drop, frame, m.arpTable⟩
    | some entry =>
      if entry.type = .localInterface then
        if shadow then ⟨.redirectNs inPort, frame, m.arpTable⟩
        else sendPacketForRouterToSlowpath m frame
      else if frame.byte (ethLen + 8) = 1 then
        ⟨.controller .ttlExceeded [port.ip], frame, m.arpTable⟩
      else
        let outPort := entry.port.setWidth 16
        match m.routerPort outPort with
        | none => ⟨.drop, frame, m.arpTable⟩
        | some out =>
          sendPacketToOutputInterface hook m frame entry.nexthop outPort out.ip out.mac

/-- From the label `ARP` on. -/
def handleArp (shadow : Bool) (m : Maps) (frame : Buffer) (inPort : BitVec 16) (port : RPort) :
    Result :=
  if frame.length < ethLen + arpLen then ⟨.drop, frame, m.arpTable⟩
  else if frame.load16 (ethLen + 6) = arpopRequest then
    if shadow then ⟨.redirectNs inPort, frame, m.arpTable⟩
    else sendArpReply m frame inPort port
  else if frame.load16 (ethLen + 6) = arpopReply then notifyArpReplyToSlowpath m frame inPort
  else ⟨.drop, frame, m.arpTable⟩

def handleRx (hook : Hook) (shadow : Bool) (m : Maps) (frame : Buffer) (inPort : BitVec 16) :
    Result :=
  if frame.length < ethLen then ⟨.drop, frame, m.arpTable⟩
  else
    match m.routerPort inPort with
    | none => ⟨.drop, frame, m.arpTable⟩
    | some port =>
      if load48 frame 0 ≠ port.mac ∧ isEtherMcast (load48 frame 0) = false then
        ⟨.drop, frame, m.arpTable⟩
      else if frame.load16 12 = ethPIp then handleIp hook shadow m frame inPort port
      else if frame.load16 12 = ethPArp then handleArp shadow m frame inPort port
      else ⟨.drop, frame, m.arpTable⟩

end Polycube.Router
