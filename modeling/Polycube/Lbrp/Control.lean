import Polycube.Lbrp.Datapath
import Polycube.Lib.Run

/-!
# The load balancer's control plane

What the control plane writes into the maps: a service its backends (`updateKernelServiceMap`), the
rewrite of client addresses its two prefixes (`SrcIpRewriteConf.update`), a port its address and
the constants of the program.  An exception leaves the maps as they are when it is thrown.
-/

namespace Polycube.Lbrp

open Function Lib

/-! ### Services -/

inductive ServiceProto
  | icmp | tcp | udp | all
  deriving DecidableEq

def convertProtoToNumber : ServiceProto → BitVec 16
  | .icmp => 1
  | .tcp => 6
  | .udp => 17
  | .all => 143

structure ServiceBackend where
  ip : BitVec 32
  port : BitVec 16
  deriving DecidableEq

structure Service where
  vip : BitVec 32
  vport : BitVec 16
  proto : ServiceProto
  backends : List ServiceBackend
  backendSize : ℕ
  deriving DecidableEq

/-- `BACKEND_REPLICAS` -/
def backendReplicas : ℕ := 3

def Service.key (svc : Service) (index : ℕ) : Vip where
  ip := svc.vip
  port := bswap16 svc.vport
  proto := bswap16 (convertProtoToNumber svc.proto)
  index := BitVec.ofNat 16 index

def Service.value (svc : Service) (bck : ServiceBackend) : Backend where
  ip := bck.ip
  port := bswap16 bck.port
  proto := bswap16 (convertProtoToNumber svc.proto)

def Service.getBackend (svc : Service) (ip : BitVec 32) : Except String ServiceBackend :=
  match svc.backends.find? fun b => b.ip == ip with
  | some b => .ok b
  | none => .error "There are no entries associated with that key"

/-- The entries of the pool from `index` on. -/
def setSlots (svc : Service) : ℕ → List (BitVec 32) → Datapath → Datapath × Except String Unit
  | _, [], s => (s, .ok ())
  | index, ip :: ips, s =>
    match svc.getBackend ip with
    | .error e => (s, .error e)
    | .ok bck =>
      let key := svc.key (index + 1)
      let value := svc.value bck
      setSlots svc (index + 1) ips { s with
        services := update s.services key (some value)
        backendToService := update s.backendToService value (some key) }

/-- `updateKernelServiceMap`: the entry of index 0 has the size of the pool for a port. -/
def updateKernelServiceMap (svc : Service) (consistentArray : List (BitVec 32)) (s : Datapath) :
    Datapath × Except String Unit :=
  setSlots svc 0 consistentArray { s with
    services := update s.services (svc.key 0)
      (some ⟨svc.vip, BitVec.ofNat 16 consistentArray.length, 0⟩) }

def removeServiceFromKernelMap (svc : Service) (s : Datapath) : Datapath :=
  { s with
    services := (List.range (svc.backendSize * backendReplicas)).foldl
      (fun t index => update t (svc.key index) none) s.services }

structure IpRange where
  net : BitVec 32
  len : ℕ
  len_le : len ≤ 32

def hostMask (len : ℕ) : BitVec 32 := ~~~(0xFFFFFFFF#32 <<< ((32 - len) % 32))

structure SrcIpRewriteConf where
  ipRange : Option IpRange
  newIpRange : Option IpRange

/-- `SrcIpRewrite::update` -/
def SrcIpRewriteConf.update (conf : SrcIpRewriteConf) (s : Datapath) :
    Datapath × Except String Unit :=
  match conf.ipRange, conf.newIpRange with
  | some old, some new =>
    if old.len ≠ new.len then (s, .error "both masks have to be the same")
    else
      let table := s.srcIpRewrite.set old.len (bswap32 old.net)
        ⟨.fromBackend, new.net, hostMask new.len⟩
      let table := table.set new.len (bswap32 new.net)
        ⟨.fromBackend, old.net, hostMask old.len⟩
      ({ s with srcIpRewrite := table }, .ok ())
  | _, _ => (s, .ok ())

/-- What happens to a load balancer.  Ports come and go with their addresses and the constants
the program is compiled with. -/
inductive Event
  | updateKernelServiceMap (svc : Service) (consistentArray : List (BitVec 32))
  | removeServiceFromKernelMap (svc : Service)
  | srcIpRewrite (conf : SrcIpRewriteConf)
  | setFrontendIp (ip : BitVec 32) (index : Option (BitVec 16))
  | reload (backendPort frontendPort : BitVec 16)
  | packet (inPort : BitVec 16) (frame : Frame)
  | evict (check : BitVec 32)

def Datapath.empty (singlePortMode : Bool) : Datapath where
  services := fun _ => none
  hashSession := fun _ => none
  srcIpRewrite := fun _ => none
  backendToService := fun _ => none
  ipToFrontendPort := fun _ => none
  singlePortMode := singlePortMode
  backendPort := 0
  frontendPort := 1

variable (jhash : Sessions → BitVec 32)

def step (s : Datapath) : Event → Datapath
  | .updateKernelServiceMap svc consistentArray => (updateKernelServiceMap svc consistentArray s).1
  | .removeServiceFromKernelMap svc => removeServiceFromKernelMap svc s
  | .srcIpRewrite conf => (conf.update s).1
  | .setFrontendIp ip index =>
      { s with ipToFrontendPort := update s.ipToFrontendPort ip index }
  | .reload backendPort frontendPort =>
      { s with backendPort := backendPort, frontendPort := frontendPort }
  | .packet inPort frame => (handleRx jhash s inPort frame).2
  | .evict check => s.forget check

end Polycube.Lbrp
