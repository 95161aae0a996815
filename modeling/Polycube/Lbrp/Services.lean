import Polycube.Lbrp.Control
import Polycube.Lib.ConsistentOrder
import Polycube.Lib.ServiceMaps

/-!
# Services of the load balancer

The operations on services and their backends, with the two maps of the kernel that they write.  An
exception leaves both sides as they are when it is thrown: `addBackend` has stored the backend before
it writes the maps, and a service whose constructor throws is not stored.
-/

namespace Polycube.Lbrp

open Function Lib

/-! ### Pools -/

structure PoolBackend extends ServiceBackend where
  weight : ℕ
  deriving DecidableEq

structure BackendConf where
  ip : BitVec 32
  port : BitVec 16
  weight : Option ℕ
  deriving DecidableEq

def PoolBackend.ofConf (conf : BackendConf) : PoolBackend :=
  ⟨⟨conf.ip, conf.port⟩, conf.weight.getD 1⟩

/-- What is not determined when a backend is added: how `std::shuffle` orders the rows, and in which
order the hash map of the backends is iterated from then on. -/
structure Draw where
  shuffle : ℕ → List ℕ
  shuffle_perm : ∀ n, (shuffle n).Perm (List.range n)
  order : List PoolBackend → List PoolBackend
  order_perm : ∀ backends, (order backends).Perm backends

/-- A `Service`, with the backends in the order of their iteration.  In the matrix, `none` is the
column with all numbers -2. -/
structure Pool where
  vip : BitVec 32
  vport : BitVec 16
  proto : ServiceProto
  backends : List PoolBackend
  matrix : List (BitVec 32 × Option (List ℕ))

/-- `INITIAL_BACKEND_SIZE` -/
def initialBackendSize : ℕ := 10

def ipBefore (a b : BitVec 32) : Prop := dotted a < dotted b

instance : DecidableRel ipBefore := fun a b => inferInstanceAs (Decidable (dotted a < dotted b))

namespace Pool

def service (P : Pool) : Service :=
  ⟨P.vip, P.vport, P.proto, P.backends.map (·.toServiceBackend), initialBackendSize⟩

def rows (P : Pool) : ℕ := max initialBackendSize P.backends.length * backendReplicas

def ips (P : Pool) : List (BitVec 32) := P.backends.map (·.ip)

def valueOf (P : Pool) (ip : BitVec 32) : Option Backend :=
  (P.service.getBackend ip).toOption.map P.service.value

end Pool

/-- The maps of the kernel, with `MAX_SERVICES` entries. -/
abbrev Maps := ServiceMaps Vip Backend 1024

section Operations

variable (share : ℕ → ℕ → ℕ → ℕ)

/-- `share rows sum weight` is `weight * (float(rows) / sum)` as an integer. -/
def getWeightBackend (P : Pool) : Option (BitVec 32 → ℕ) :=
  weightBackend share P.rows (P.backends.map fun b => (b.ip, b.weight))

/-- `none` when `get_weight_backend` does not end, or the last place of a vector is read past: a
column is as long as there were rows when it was shuffled. -/
def getConsistentArray (P : Pool) : Option (List (Option (BitVec 32))) :=
  slotArrayChecked share P.rows P.matrix (P.backends.map fun b => (b.ip, b.weight))

/-- The exception of `getBackend`, and of `getService`. -/
def noEntriesError : String := "There are no entries associated with that key"

def Pool.header (P : Pool) (size : ℕ) : Backend := ⟨P.vip, BitVec.ofNat 16 size, 0⟩

def Pool.updateKernelServiceMap (P : Pool) (array : List (Option (BitVec 32))) (m : Maps) :
    Maps × Exit :=
  setRow P.service.key P.valueOf true noEntriesError (P.header array.length) array m

def updateConsistentHashMap (P : Pool) (m : Maps) : Maps × Exit :=
  match getConsistentArray share P with
  | none => (m, .undefined)
  | some array => P.updateKernelServiceMap array m

def Pool.removeServiceFromKernelMap (P : Pool) (m : Maps) : Maps × Exit :=
  removeIndices P.service.key (List.range (initialBackendSize * backendReplicas)) m

def Pool.withBackend (P : Pool) (conf : BackendConf) (draw : Draw) : Pool :=
  let stored := { P with backends := draw.order (PoolBackend.ofConf conf :: P.backends) }
  { stored with
    matrix := setColumn ipBefore P.matrix conf.ip (some (draw.shuffle stored.rows)) }

def addBackend (P : Pool) (m : Maps) (conf : BackendConf) (draw : Draw) : Pool × Maps × Exit :=
  if conf.ip ∈ P.ips then
    (P, m, .throws ("Backend " ++ String.ofList (dotted conf.ip) ++
      " already exists in the service map"))
  else (P.withBackend conf draw, updateConsistentHashMap share (P.withBackend conf draw) m)

def addBackendList (P : Pool) (m : Maps) (draw : BitVec 32 → Draw) :
    List BackendConf → Pool × Maps × Exit
  | [] => (P, m, .returns)
  | conf :: confs =>
    match addBackend share P m conf (draw conf.ip) with
    | (P, m, .returns) => addBackendList P m draw confs
    | failed => failed

def Pool.withoutBackend (P : Pool) (ip : BitVec 32) : Pool :=
  { P with
    backends := P.backends.filter (·.ip ≠ ip)
    matrix := setColumn ipBefore P.matrix ip none }

def Pool.clear (P : Pool) : Pool :=
  { P with
    backends := []
    matrix := [] }

def delBackend (P : Pool) (m : Maps) (ip : BitVec 32) : Pool × Maps × Exit :=
  if ip ∈ P.ips then
    if (P.withoutBackend ip).backends = [] then (P.clear, P.removeServiceFromKernelMap m)
    else (P.withoutBackend ip, updateConsistentHashMap share (P.withoutBackend ip) m)
  else (P, m, .throws noEntriesError)

def delBackendList (P : Pool) (m : Maps) : Pool × Maps × Exit :=
  if P.backends = [] then (P, m, .returns) else (P.clear, P.removeServiceFromKernelMap m)

/-- `setWeight` of a backend changes nothing in the kernel. -/
def Pool.setWeight (P : Pool) (ip : BitVec 32) (weight : ℕ) : Pool :=
  { P with backends := P.backends.map fun b => if b.ip = ip then { b with weight } else b }

def setWeight (P : Pool) (m : Maps) (ip : BitVec 32) (weight : ℕ) : Pool × Maps × Exit :=
  if ip ∈ P.ips then (P.setWeight ip weight, m, .returns) else (P, m, .throws noEntriesError)

/-! ### The load balancer -/

/-- The key of `service_map_`. -/
structure ServiceKey where
  vip : BitVec 32
  vport : BitVec 16
  proto : BitVec 16
  deriving DecidableEq

def serviceKey (vip : BitVec 32) (vport : BitVec 16) (proto : ServiceProto) : ServiceKey :=
  ⟨vip, vport, convertProtoToNumber proto⟩

/-- The load balancer with its `service_map_`. -/
structure Services where
  serviceMap : Table ServiceKey Pool
  maps : Maps

def Services.init : Services := ⟨fun _ => none, ServiceMaps.empty⟩

def Services.andThen (r : Services × Exit) (f : Services → Services × Exit) : Services × Exit :=
  match r.2 with
  | .returns => f r.1
  | _ => r

/-- The constructor of `Service` adds the backends, and then the service is stored. -/
def addOneService (s : Services) (vip : BitVec 32) (vport : BitVec 16) (proto : ServiceProto)
    (backends : List BackendConf) (draw : BitVec 32 → Draw) : Services × Exit :=
  match s.serviceMap (serviceKey vip vport proto) with
  | some _ => (s, .throws "This service already exists")
  | none =>
    match addBackendList share ⟨vip, vport, proto, [], []⟩ s.maps draw backends with
    | (P, m, .returns) =>
      (⟨update s.serviceMap (serviceKey vip vport proto) (some P), m⟩, .returns)
    | (_, m, e) => (⟨s.serviceMap, m⟩, e)

def icmpPortError : String :=
  "ICMP Service requires 0 as virtual port. Since this parameter is useless for ICMP services"

def addService (s : Services) (vip : BitVec 32) (vport : BitVec 16) (proto : ServiceProto)
    (backends : List BackendConf) (draw : ServiceProto → BitVec 32 → Draw) : Services × Exit :=
  match proto with
  | .all =>
    Services.andThen (addOneService share s vip vport .tcp backends (draw .tcp)) fun s =>
    Services.andThen (addOneService share s vip vport .udp backends (draw .udp)) fun s =>
    addOneService share s vip 0 .icmp backends (draw .icmp)
  | .icmp =>
    if vport ≠ 0 then (s, .throws icmpPortError)
    else addOneService share s vip vport .icmp backends (draw .icmp)
  | proto => addOneService share s vip vport proto backends (draw proto)

def delOneService (s : Services) (key : ServiceKey) : Services × Exit :=
  match s.serviceMap key with
  | none => (s, .throws noEntriesError)
  | some P =>
    match delBackendList P s.maps with
    | (_, m, .returns) => (⟨update s.serviceMap key none, m⟩, .returns)
    | (P, m, e) => (⟨update s.serviceMap key (some P), m⟩, e)

def delService (s : Services) (vip : BitVec 32) (vport : BitVec 16) (proto : ServiceProto) :
    Services × Exit :=
  match proto with
  | .all =>
    Services.andThen (delOneService s (serviceKey vip vport .tcp)) fun s =>
    Services.andThen (delOneService s (serviceKey vip vport .udp)) fun s =>
    delOneService s (serviceKey vip 0 .icmp)
  | .icmp =>
    if vport ≠ 0 then (s, .throws icmpPortError) else delOneService s (serviceKey vip vport .icmp)
  | proto => delOneService s (serviceKey vip vport proto)

/-- An operation on the service that `getService` finds. -/
def onService (s : Services) (key : ServiceKey) (f : Pool → Maps → Pool × Maps × Exit) : Services × Exit :=
  match s.serviceMap key with
  | none => (s, .throws noEntriesError)
  | some P =>
    let r := f P s.maps
    (⟨update s.serviceMap key (some r.1), r.2.1⟩, r.2.2)

inductive Request
  | addService (vip : BitVec 32) (vport : BitVec 16) (proto : ServiceProto)
      (backends : List BackendConf) (draw : ServiceProto → BitVec 32 → Draw)
  | delService (vip : BitVec 32) (vport : BitVec 16) (proto : ServiceProto)
  | addBackend (key : ServiceKey) (conf : BackendConf) (draw : Draw)
  | delBackend (key : ServiceKey) (ip : BitVec 32)
  | delBackendList (key : ServiceKey)
  | setWeight (key : ServiceKey) (ip : BitVec 32) (weight : ℕ)

def Services.apply (s : Services) : Request → Services × Exit
  | .addService vip vport proto backends draw => addService share s vip vport proto backends draw
  | .delService vip vport proto => delService s vip vport proto
  | .addBackend key conf draw => onService s key fun P m => addBackend share P m conf draw
  | .delBackend key ip => onService s key fun P m => delBackend share P m ip
  | .delBackendList key => onService s key delBackendList
  | .setWeight key ip weight => onService s key fun P m => setWeight P m ip weight

def Services.next (s : Services) (r : Request) : Services := (s.apply share r).1

end Operations

section Program

variable {P : Pool} {array : List (BitVec 32)} {m m' : Maps}

end Program

end Polycube.Lbrp
