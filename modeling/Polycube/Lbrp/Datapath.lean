import Polycube.Lib.Bytes
import Polycube.Lib.Lpm

/-!
# The load balancer's program

`handleRx` is the program of the load balancer.  A packet from a frontend port for a virtual
service goes to one of its backends, the answer of a backend goes out under the address of the
service.  `jhash` is the kernel's hash.  Addresses and ports are raw, as in the frame.
-/

namespace Polycube.Lbrp

open Lib

structure Vip where
  ip : BitVec 32
  port : BitVec 16
  proto : BitVec 16
  index : BitVec 16
  deriving DecidableEq

structure Backend where
  ip : BitVec 32
  port : BitVec 16
  proto : BitVec 16
  deriving DecidableEq

structure Sessions where
  ipSrc : BitVec 32
  ipDst : BitVec 32
  portSrc : BitVec 16
  portDst : BitVec 16
  proto : BitVec 16
  deriving DecidableEq

inductive Sense
  | fromFrontend | fromBackend
  deriving DecidableEq

structure SrcIpRValue where
  sense : Sense
  net : BitVec 32
  mask : BitVec 32
  deriving DecidableEq

/-- The maps.  `hashSession` drops the sessions that are longest unused. -/
structure Datapath where
  services : Table Vip Backend
  hashSession : Table (BitVec 32) Vip
  srcIpRewrite : Lpm 32 SrcIpRValue
  backendToService : Table Backend Vip
  ipToFrontendPort : Table (BitVec 32) (BitVec 16)
  singlePortMode : Bool
  backendPort : BitVec 16
  frontendPort : BitVec 16

/-! ### Packets -/

def ipprotoIcmp : BitVec 16 := 1#16
def ipprotoTcp : BitVec 16 := 6#16
def ipprotoUdp : BitVec 16 := 17#16

def icmpEchoReply : BitVec 8 := 0#8
def icmpEcho : BitVec 8 := 8#8

def arpopRequest : BitVec 16 := 1#16
def arpopReply : BitVec 16 := 2#16

/-- What follows the IP header; `short` is a frame that ends before its header does. -/
inductive L4
  | icmp (type : BitVec 8) (id : BitVec 16)
  | udp (source dest : BitVec 16)
  | tcp (source dest : BitVec 16)
  | other (protocol : BitVec 8)
  | short
  deriving DecidableEq

structure Ip where
  saddr : BitVec 32
  daddr : BitVec 32
  l4 : L4
  deriving DecidableEq

inductive Frame
  | ip (p : Ip)
  | arp (op : BitVec 16) (sip tip : BitVec 32)
  | noIp
  | short
  deriving DecidableEq

inductive Reason
  | arpReply | flooding
  deriving DecidableEq

inductive Action
  | drop
  | redirect (port : BitVec 16)
  | controller (reason : Reason)
  deriving DecidableEq

structure Ports where
  source : BitVec 16
  dest : BitVec 16
  proto : BitVec 16
  deriving DecidableEq

/-- `source`, `dest` and `ip_proto`; none for a packet that is dropped.  An echo has its
identifier for a source port and no destination port. -/
def L4.ports : L4 → Option Ports
  | .icmp type id =>
      if type = icmpEcho ∨ type = icmpEchoReply then some ⟨id, 0, bswap16 ipprotoIcmp⟩ else none
  | .udp source dest => some ⟨source, dest, bswap16 ipprotoUdp⟩
  | .tcp source dest => some ⟨source, dest, bswap16 ipprotoTcp⟩
  | .other _ => none
  | .short => none

def L4.setDest (port : BitVec 16) : L4 → L4
  | .udp source _ => .udp source port
  | .tcp source _ => .tcp source port
  | l4 => l4

def L4.setSource (port : BitVec 16) : L4 → L4
  | .udp _ dest => .udp port dest
  | .tcp _ dest => .tcp port dest
  | l4 => l4

/-! ### The program -/

section

variable (jhash : Sessions → BitVec 32) (s : Datapath)

def Datapath.rewrite (ip : BitVec 32) : Option SrcIpRValue := s.srcIpRewrite.lookup (bswap32 ip)

def SrcIpRValue.apply (v : SrcIpRValue) (ip : BitVec 32) : BitVec 32 :=
  (ip &&& bswap32 v.mask) ||| bswap32 v.net

def session (ipSrc ipDst : BitVec 32) (ports : Ports) (bckPort : BitVec 16) : Sessions where
  ipSrc := ipSrc
  ipDst := ipDst
  portSrc := ports.source
  portDst := if ports.proto = bswap16 ipprotoIcmp then ports.dest else bckPort
  proto := ports.proto

def slot (ipSrc ipDst : BitVec 32) (ports : Ports) (poolSize : BitVec 16) : BitVec 16 :=
  BitVec.ofNat 16
    ((jhash ⟨ipSrc, ipDst, ports.source, ports.dest, ports.proto⟩).toNat % poolSize.toNat + 1)

def Datapath.remember (check : BitVec 32) (vip : Vip) : Datapath :=
  { s with hashSession := Function.update s.hashSession check (some vip) }

/-- The kernel makes room in `hash_session`. -/
def Datapath.forget (check : BitVec 32) : Datapath :=
  { s with hashSession := Function.update s.hashSession check none }

/-- `get_bck_ip` -/
def getBckIp (ipSrc ipDst : BitVec 32) (ports : Ports) (poolSize : BitVec 16) :
    Option Backend × Datapath :=
  if poolSize = 0 then (none, s)
  else
    match s.services ⟨ipDst, ports.dest, ports.proto, slot jhash ipSrc ipDst ports poolSize⟩ with
    | none => (none, s)
    | some bck =>
      match s.rewrite ipDst with
      | some _ => (some bck, s)
      | none =>
        let check := jhash (session ipSrc bck.ip ports bck.port)
        (some bck, s.remember check ⟨ipDst, ports.dest, ports.proto, 0⟩)

def Datapath.newSource (ip : BitVec 32) : BitVec 32 :=
  match s.rewrite ip with
  | some v => if v.sense = .fromFrontend then v.apply ip else ip
  | none => ip

def Datapath.frontend (ip : BitVec 32) : Option (BitVec 16) :=
  if s.singlePortMode then some s.frontendPort else s.ipToFrontendPort ip

/-- `send_to_frontend` -/
def sendToFrontend (ip : BitVec 32) : Action :=
  match s.frontend ip with
  | none => .drop
  | some port => .redirect port

def fromFrontend (p : Ip) (ports : Ports) : (Action × Ip) × Datapath :=
  match s.services ⟨p.daddr, ports.dest, ports.proto, 0⟩ with
  | none => ((.redirect s.backendPort, p), s)
  | some header =>
    match getBckIp jhash s p.saddr p.daddr ports header.port with
    | (none, s) => ((.drop, p), s)
    | (some bck, s) =>
      ((.redirect s.backendPort, ⟨s.newSource p.saddr, bck.ip, p.l4.setDest bck.port⟩), s)

/-- The end of the way back: the service's address for the backend's, on the port that leads to
the client. -/
def deliver (p : Ip) (daddr : BitVec 32) (vip : Vip) : Action × Ip :=
  match s.frontend daddr with
  | none => (.drop, ⟨vip.ip, daddr, p.l4⟩)
  | some port => (.redirect port, ⟨vip.ip, daddr, p.l4.setSource vip.port⟩)

def fromSession (p : Ip) (ports : Ports) : Action × Ip :=
  let back : Ports :=
    if ports.proto = bswap16 ipprotoIcmp then ports else ⟨ports.dest, ports.source, ports.proto⟩
  match s.hashSession (jhash (session p.daddr p.saddr back ports.source)) with
  | none => (sendToFrontend s p.daddr, p)
  | some vip => deliver s p p.daddr vip

def fromBackend (p : Ip) (ports : Ports) : Action × Ip :=
  match s.rewrite p.daddr with
  | some v =>
    if v.sense = .fromBackend then
      match s.backendToService ⟨p.saddr, ports.source, ports.proto⟩ with
      | none => (.drop, p)
      | some vip => deliver s p (v.apply p.daddr) vip
    else fromSession jhash s p ports
  | none => fromSession jhash s p ports

def handleIp (inPort : BitVec 16) (p : Ip) : (Action × Ip) × Datapath :=
  match p.l4.ports with
  | none => ((.drop, p), s)
  | some ports =>
    if inPort ≠ s.backendPort then fromFrontend jhash s p ports
    else (fromBackend jhash s p ports, s)

def handleArp (inPort op : BitVec 16) (sip tip : BitVec 32) : Action × Frame :=
  if inPort = s.backendPort then
    let tip :=
      if op = bswap16 arpopRequest then
        match s.rewrite tip with
        | some v => if v.sense = .fromBackend then v.apply tip else tip
        | none => tip
      else tip
    (sendToFrontend s tip, .arp op sip tip)
  else
    let slow := op = bswap16 arpopReply ∧ (s.rewrite sip).map SrcIpRValue.sense = some .fromFrontend
    (if slow then .controller .arpReply else .redirect s.backendPort, .arp op sip tip)

def handleNoIp (inPort : BitVec 16) : Action :=
  if inPort = s.backendPort then
    if s.singlePortMode then .redirect s.frontendPort else .controller .flooding
  else .redirect s.backendPort

/-- `handle_rx` -/
def handleRx (inPort : BitVec 16) (frame : Frame) : (Action × Frame) × Datapath :=
  match frame with
  | .short => ((.drop, .short), s)
  | .ip p =>
      let r := handleIp jhash s inPort p
      ((r.1.1, .ip r.1.2), r.2)
  | .arp op sip tip => (handleArp s inPort op sip tip, s)
  | .noIp => ((handleNoIp s inPort, .noIp), s)

end

end Polycube.Lbrp
