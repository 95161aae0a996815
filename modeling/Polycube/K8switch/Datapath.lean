import Polycube.K8switch.Ports
import Polycube.Lib.Subnets

/-!
# The program of the switch

`handleRx` tells by the destination of a packet, and for packets that come from outside by the port,
which of four types it is: to a ClusterIP service, to a NodePort service, and the answers to the
packets of both.  Packets to ClusterIP services go on with a client address of a virtual subnet,
from which the answers are known again; NodePort services have sessions.  Addresses and ports are
raw, as in the frame.
-/

namespace Polycube.K8switch

open Function Lib

structure Vip where
  ip : BitVec 32
  port : BitVec 16
  proto : BitVec 16
  index : BitVec 16
  deriving DecidableEq

structure Backend where
  ip : BitVec 32
  port : BitVec 16
  proto : BitVec 16
  deriving DecidableEq

structure Pod where
  mac : BitVec 64
  port : BitVec 16
  deriving DecidableEq

/-- The maps of the program; `fwdTable` has 256 entries. -/
structure Maps where
  services : Table Vip Backend
  clusterIpReverse : Table Backend Vip
  nodeportSessionIn : Table NodeportSessionOut NodeportSessionIn
  nodeportSessionOut : Table NodeportSessionIn NodeportSessionOut
  fwdTable : BitVec 32 → Pod

/-- What is compiled into the program, in network order. -/
structure Config where
  clientSubnetMask : BitVec 32
  clientSubnet : BitVec 32
  virtualClientSubnet : BitVec 32
  clusterIpSubnet : BitVec 32
  clusterIpMask : BitVec 32
  nodeportPort : BitVec 16
  deriving DecidableEq

inductive L4Proto
  | tcp | udp | other
  deriving DecidableEq

/-- `htons` of the protocol number; the program translates no other protocol. -/
def L4Proto.ipProto : L4Proto → Option (BitVec 16)
  | .tcp => some (bswap16 6)
  | .udp => some (bswap16 17)
  | .other => none

structure Packet where
  ethDst : BitVec 48
  ethSrc : BitVec 48
  saddr : BitVec 32
  daddr : BitVec 32
  proto : L4Proto
  sport : BitVec 16
  dport : BitVec 16
  deriving DecidableEq

inductive PacketType
  | clusterIpIn | nodePortIn | fromClusterIpService | fromNodePortService
  deriving DecidableEq

def nodeportHost : BitVec 32 := bswap32 2

def Config.nodeportAddress (c : Config) : BitVec 32 := c.virtualClientSubnet + nodeportHost

def Config.packetType (c : Config) (inPort : BitVec 16) (daddr : BitVec 32) : Option PacketType :=
  if daddr &&& c.clusterIpMask = c.clusterIpSubnet then some .clusterIpIn
  else if daddr &&& c.clientSubnetMask = c.virtualClientSubnet then
    if daddr &&& ~~~c.clientSubnetMask = nodeportHost then some .fromNodePortService
    else some .fromClusterIpService
  else if inPort = c.nodeportPort then some .nodePortIn
  else none

/-! ### The program -/

inductive Ret
  | rxDrop
  | rxOk
  | redirect (port : BitVec 16) (p : Packet)
  deriving DecidableEq

/-- `KUBE_PROXY_FLAG` -/
def kubeProxyFlag : BitVec 16 := 65535

inductive BackendLookup
  | none
  | kubeProxy
  | backend (b : Backend)
  deriving DecidableEq

/-- `jhash` of a session: addresses, ports and protocol. -/
abbrev SessionHash :=
  BitVec 32 → BitVec 32 → BitVec 16 → BitVec 16 → BitVec 16 → BitVec 32

/-- `get_cluster_ip_backend`.  The value of index 0 has the number of backends for a port. -/
def getClusterIpBackend (hash : SessionHash)
    (services : Table Vip Backend) (ipSrc ipDst : BitVec 32) (portSrc portDst proto : BitVec 16) :
    BackendLookup :=
  match services ⟨ipDst, portDst, proto, 0⟩ with
  | none => .none
  | some value =>
    if value.port = 0 then .none
    else if value.port = kubeProxyFlag then .kubeProxy
    else
      let id := hash ipSrc ipDst portSrc portDst proto % value.port.setWidth 32 + 1
      match services ⟨ipDst, portDst, proto, id.setWidth 16⟩ with
      | none => .none
      | some b => .backend b

section HandleRx

variable (hash : SessionHash) (c : Config) (m : Maps)

/-- The key of a pod in `fwd_table`: its host number if it is local, or 0 for the gateway. -/
def Config.fwdKey (daddr : BitVec 32) : BitVec 32 :=
  if daddr &&& c.clientSubnetMask = c.clientSubnet then bswap32 (daddr &&& ~~~c.clientSubnetMask)
  else 0

/-- `FORWARD` and `FORWARD_CSUM` -/
def forward (p : Packet) : Ret :=
  let dstIp := c.fwdKey p.daddr
  if dstIp.toNat < 256 then
    .redirect (m.fwdTable dstIp).port { p with ethDst := (m.fwdTable dstIp).mac.setWidth 48 }
  else .rxDrop

def Packet.session (p : Packet) (proto : BitVec 16) : NodeportSessionOut :=
  ⟨p.ethDst.setWidth 64, p.ethSrc.setWidth 64, p.saddr, p.daddr, p.sport, p.dport, proto, 0⟩

def handleClusterIpIn (p : Packet) (proto : BitVec 16) : Ret :=
  match getClusterIpBackend hash m.services p.saddr p.daddr p.sport p.dport proto with
  | .none => .rxDrop
  | .kubeProxy => forward c m p
  | .backend b => forward c m { p with
      saddr := moveHost c.clientSubnetMask c.virtualClientSubnet p.saddr
      daddr := b.ip
      dport := b.port }

def handleFromClusterIpService (p : Packet) (proto : BitVec 16) : Ret :=
  match m.clusterIpReverse ⟨p.saddr, p.sport, proto⟩ with
  | none => .rxDrop
  | some vip => forward c m { p with
      saddr := vip.ip
      daddr := moveHost c.clientSubnetMask c.clientSubnet p.daddr
      sport := vip.port }

def Packet.translate (p : Packet) (key : NodeportSessionIn) : Packet :=
  { p with
    saddr := c.nodeportAddress
    daddr := key.ipDst
    sport := key.portSrc
    dport := key.portDst }

/-- `port` is what `get_free_port` returns, and `now` the time. -/
def handleNodePortIn (port : BitVec 16) (now : BitVec 64) (p : Packet) (proto : BitVec 16) :
    Maps × Ret :=
  let value := p.session proto
  match m.nodeportSessionIn value with
  | some session =>
    ({ m with
      nodeportSessionIn := update m.nodeportSessionIn value
        (some { session with timestamp := now }) }, forward c m (p.translate c session))
  | none =>
    match getClusterIpBackend hash m.services p.saddr p.daddr p.sport p.dport proto with
    | .none => (m, .rxOk)
    | .kubeProxy => (m, .rxOk)
    | .backend b =>
      if port = 0 then (m, .rxDrop)
      else
        let key := sessionKey c.nodeportAddress value (b.ip, b.port) port
        ({ m with
          nodeportSessionIn := update m.nodeportSessionIn value
            (some { key with timestamp := now })
          nodeportSessionOut := update m.nodeportSessionOut key
            (some { value with timestamp := now }) }, forward c m (p.translate c key))

def handleFromNodePortService (now : BitVec 64) (p : Packet) (proto : BitVec 16) : Maps × Ret :=
  let key : NodeportSessionIn := ⟨p.daddr, p.saddr, p.dport, p.sport, proto, 0⟩
  match m.nodeportSessionOut key with
  | none => (m, .rxDrop)
  | some value =>
    ({ m with
      nodeportSessionOut := update m.nodeportSessionOut key
        (some { value with timestamp := now }) },
      .redirect c.nodeportPort
        { ethDst := value.macSrc.setWidth 48
          ethSrc := value.macDst.setWidth 48
          saddr := value.ipDst
          daddr := value.ipSrc
          proto := p.proto
          sport := value.portDst
          dport := value.portSrc })

def handleRx (inPort port : BitVec 16) (now : BitVec 64) (p : Packet) : Maps × Ret :=
  match c.packetType inPort p.daddr with
  | none => (m, forward c m p)
  | some type =>
    match p.proto.ipProto with
    | none => (m, forward c m p)
    | some proto =>
      match type with
      | .clusterIpIn => (m, handleClusterIpIn hash c m p proto)
      | .nodePortIn => handleNodePortIn hash c m port now p proto
      | .fromClusterIpService => (m, handleFromClusterIpService c m p proto)
      | .fromNodePortService => handleFromNodePortService c m now p proto

end HandleRx

/-- A packet comes in, the thread of the control plane removes a session that is too old, or the
control plane changes what does not belong to a session. -/
inductive PacketEvent
  | packet (inPort port : BitVec 16) (now : BitVec 64) (p : Packet)
  | remove (key : NodeportSessionIn)
  | configure (services : Table Vip Backend) (clusterIpReverse : Table Backend Vip)
      (fwdTable : BitVec 32 → Pod)

def Maps.remove (m : Maps) (key : NodeportSessionIn) : Maps :=
  match m.nodeportSessionOut key with
  | none => m
  | some value =>
    match m.nodeportSessionIn value.untimed with
    | none => m
    | some _ => { m with
        nodeportSessionOut := update m.nodeportSessionOut key none
        nodeportSessionIn := update m.nodeportSessionIn value.untimed none }

def Maps.next (hash : SessionHash) (c : Config) (m : Maps) : PacketEvent → Maps
  | .packet inPort port now p => (handleRx hash c m inPort port now p).1
  | .remove key => m.remove key
  | .configure services clusterIpReverse fwdTable =>
    { m with services, clusterIpReverse, fwdTable }

def Maps.init : Maps where
  services _ := none
  clusterIpReverse _ := none
  nodeportSessionIn _ := none
  nodeportSessionOut _ := none
  fwdTable _ := ⟨0, 0⟩

end Polycube.K8switch
