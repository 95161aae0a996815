import Polycube.K8switch.Datapath
import Polycube.Lib.ConsistentOrder
import Polycube.Lib.ServiceMaps

/-!
# Services of the switch

The operations on services and their backends, with the maps that they write.  A backend of a
ClusterIP service is named in the reverse map, so it can be of one service only: a service that gets
the backend of another one is left to kube-proxy from then on, and has only a header with a flag.
-/

namespace Polycube.K8switch

open Function Lib

/-! ### Pools -/

inductive ServiceProto
  | tcp | udp
  deriving DecidableEq

def convertProtoToNumber : ServiceProto → BitVec 16
  | .tcp => 6
  | .udp => 17

abbrev BackendKey := BitVec 32 × BitVec 16

def keyBefore (a b : BackendKey) : Prop :=
  dotted a.1 < dotted b.1 ∨ dotted a.1 = dotted b.1 ∧ a.2 < b.2

instance : DecidableRel keyBefore := fun a b =>
  inferInstanceAs (Decidable (dotted a.1 < dotted b.1 ∨ dotted a.1 = dotted b.1 ∧ a.2 < b.2))

structure BackendConf where
  key : BackendKey
  weight : Option ℕ
  deriving DecidableEq

/-- An order of the rows by `std::shuffle`. -/
structure Shuffle where
  nums : ℕ → List ℕ
  perm : ∀ n, (nums n).Perm (List.range n)

/-- A `Service`; the backends have their weights.  In the matrix, `none` is the column with all
numbers -2. -/
structure Pool where
  vip : BitVec 32
  vport : BitVec 16
  proto : ServiceProto
  backends : List (BackendKey × ℕ)
  matrix : List (BackendKey × Option (List ℕ))
  kubeProxyService : Bool

/-- `INITIAL_BACKEND_SIZE` -/
def initialBackendSize : ℕ := 10

/-- `BACKEND_REPLICAS` -/
def backendReplicas : ℕ := 3

/-- `ServiceType::CLUSTER_IP`; the other type is `NODE_PORT`. -/
def Config.clusterIp (c : Config) (vip : BitVec 32) : Bool :=
  vip &&& c.clusterIpMask = c.clusterIpSubnet

/-- The maps of the kernel, with `SERVICES_MAP_DIM` entries. -/
abbrev ServiceTables := ServiceMaps Vip Backend 65536

namespace Pool

def keys (P : Pool) : List BackendKey := P.backends.map Prod.fst

def rows (P : Pool) : ℕ := max initialBackendSize P.backends.length * backendReplicas

def vipKey (P : Pool) (index : ℕ) : Vip :=
  ⟨P.vip, bswap16 P.vport, bswap16 (convertProtoToNumber P.proto), BitVec.ofNat 16 index⟩

def value (P : Pool) (key : BackendKey) : Backend :=
  ⟨key.1, bswap16 key.2, bswap16 (convertProtoToNumber P.proto)⟩

/-- `service_backends_.at` -/
def valueOf (P : Pool) (key : BackendKey) : Option Backend :=
  if key ∈ P.keys then some (P.value key) else none

def header (P : Pool) (size : ℕ) : Backend := ⟨P.vip, (BitVec.ofNat 8 size).setWidth 16, 0⟩

def kubeProxyHeader (P : Pool) : Backend := ⟨P.vip, kubeProxyFlag, 0⟩

end Pool

/-! ### Operations -/

section Operations

variable (share : ℕ → ℕ → ℕ → ℕ) (c : Config)

/-- `share rows sum weight` is `(float(rows) / sum) * weight` as an integer. -/
def getWeightBackend (P : Pool) : Option (BackendKey → ℕ) :=
  weightBackend share P.rows P.backends

/-- `none` when `getWeightBackend` does not end, or a vector is read behind its end. -/
def getConsistentArray (P : Pool) : Option (List (Option BackendKey)) :=
  slotArrayChecked share P.rows P.matrix P.backends

def updateKernelServiceMap (P : Pool) (m : ServiceTables) : ServiceTables × Exit :=
  match getConsistentArray share P with
  | none => (m, .undefined)
  | some array =>
    setRow P.vipKey P.valueOf (c.clusterIp P.vip) "map::at" (P.header array.length) array m

def insertAsKubeProxyService (P : Pool) (m : ServiceTables) : ServiceTables × Exit :=
  setRow P.vipKey P.valueOf (c.clusterIp P.vip) "map::at" P.kubeProxyHeader [] m

def removeReverse (P : Pool) (m : ServiceTables) : ServiceTables :=
  P.backends.foldl (fun m b => match m.reverse.remove (P.value b.1) with
    | none => m
    | some reverse => { m with reverse }) m

def removeServiceFromKernelMap (P : Pool) (m : ServiceTables) : ServiceTables × Exit :=
  if P.backends = [] then (m, .returns)
  else
    match removeIndices P.vipKey (List.range (initialBackendSize * backendReplicas)) m with
    | (m, .returns) => (if c.clusterIp P.vip then removeReverse P m else m, .returns)
    | failed => failed

/-- `emplace` in the map of the backends. -/
def Pool.withBackend (P : Pool) (conf : BackendConf) : Pool :=
  { P with
    backends := P.backends.orderedInsert (fun a b => keyBefore a.1 b.1)
      (conf.key, conf.weight.getD 1) }

def addKubeProxyBackend (P : Pool) (m : ServiceTables) (conf : BackendConf) :
    Pool × ServiceTables × Exit :=
  (P.withBackend conf, insertAsKubeProxyService c (P.withBackend conf) m)

def Pool.withColumn (P : Pool) (conf : BackendConf) (shuffle : Shuffle) : Pool :=
  { P.withBackend conf with
    matrix := setColumn keyBefore P.matrix conf.key
      (some (shuffle.nums (P.withBackend conf).rows)) }

/-- `taken` says that another ClusterIP service for the protocol has the backend. -/
def addBackend (taken : Bool) (P : Pool) (m : ServiceTables) (conf : BackendConf)
    (shuffle : Shuffle) : Pool × ServiceTables × Exit :=
  if conf.key ∈ P.keys then (P, m, .throws "Backend exists")
  else if P.kubeProxyService then addKubeProxyBackend c P m conf
  else if c.clusterIp P.vip ∧ taken then
    match removeServiceFromKernelMap c P m with
    | (m, .returns) => addKubeProxyBackend c { P with kubeProxyService := true } m conf
    | (m, e) => (P, m, e)
  else
    (P.withColumn conf shuffle, updateKernelServiceMap share c (P.withColumn conf shuffle) m)

def addBackendList (taken : BackendKey → Bool) (shuffle : BackendKey → Shuffle) (P : Pool)
    (m : ServiceTables) : List BackendConf → Pool × ServiceTables × Exit
  | [] => (P, m, .returns)
  | conf :: confs =>
    match addBackend share c (taken conf.key) P m conf (shuffle conf.key) with
    | (P, m, .returns) => addBackendList taken shuffle P m confs
    | failed => failed

def Pool.withoutBackend (P : Pool) (key : BackendKey) : Pool :=
  { P with
    backends := P.backends.filter (·.1 ≠ key)
    matrix := setColumn keyBefore P.matrix key none }

def Pool.clear (P : Pool) : Pool :=
  { P with
    backends := []
    matrix := [] }

def backendError : String := "Backend does not exist"

def delBackend (P : Pool) (m : ServiceTables) (key : BackendKey) : Pool × ServiceTables × Exit :=
  if key ∈ P.keys then
    if (P.withoutBackend key).backends = [] then
      (P.withoutBackend key, removeServiceFromKernelMap c (P.withoutBackend key) m)
    else (P.withoutBackend key, updateKernelServiceMap share c (P.withoutBackend key) m)
  else (P, m, .throws backendError)

def delBackendList (P : Pool) (m : ServiceTables) : Pool × ServiceTables × Exit :=
  (P.clear, removeServiceFromKernelMap c P.clear m)

/-- `setWeight` of a backend changes nothing in the kernel. -/
def Pool.setWeight (P : Pool) (key : BackendKey) (weight : ℕ) : Pool :=
  { P with backends := P.backends.map fun b => if b.1 = key then (b.1, weight) else b }

def setWeight (P : Pool) (m : ServiceTables) (key : BackendKey) (weight : ℕ) :
    Pool × ServiceTables × Exit :=
  if key ∈ P.keys then (P.setWeight key weight, m, .returns) else (P, m, .throws backendError)

/-! ### The switch -/

/-- The key of `service_map_`. -/
structure ServiceKey where
  vip : BitVec 32
  vport : BitVec 16
  proto : BitVec 16
  deriving DecidableEq

def serviceKey (vip : BitVec 32) (vport : BitVec 16) (proto : ServiceProto) : ServiceKey :=
  ⟨vip, vport, convertProtoToNumber proto⟩

/-- The switch with its `service_map_`, the keys of which are in `keys`. -/
structure Services where
  serviceMap : Table ServiceKey Pool
  keys : List ServiceKey
  maps : ServiceTables

def Services.init : Services := ⟨fun _ => none, [], ServiceMaps.empty⟩

def Services.taken (s : Services) (key : ServiceKey) (backend : BackendKey) : Bool :=
  s.keys.any fun k => k.proto = key.proto ∧ ¬(k.vip = key.vip ∧ k.vport = key.vport) ∧
    c.clusterIp k.vip ∧ ∃ P ∈ s.serviceMap k, backend ∈ P.keys

/-- `~Service` removes the entries, and must not throw. -/
def removeService (P : Pool) (m : ServiceTables) : ServiceTables × Exit :=
  match removeServiceFromKernelMap c P m with
  | (m, .throws _) => (m, .terminates)
  | r => r

def addService (s : Services) (vip : BitVec 32) (vport : BitVec 16) (proto : ServiceProto)
    (backends : List BackendConf) (shuffle : BackendKey → Shuffle) : Services × Exit :=
  let key := serviceKey vip vport proto
  match s.serviceMap key with
  | some _ => (s, .throws "Service exists")
  | none =>
    match addBackendList share c (s.taken c key) shuffle ⟨vip, vport, proto, [], [], false⟩ s.maps
        backends with
    | (P, m, .returns) =>
      (⟨update s.serviceMap key (some P), key :: s.keys, m⟩, .returns)
    | (_, m, e) => ({ s with maps := m }, e)

def serviceError : String := "Service does not exist"

def delService (s : Services) (key : ServiceKey) : Services × Exit :=
  match s.serviceMap key with
  | none => (s, .throws serviceError)
  | some P =>
    let r := removeService c P s.maps
    (⟨update s.serviceMap key none, s.keys.filter (· ≠ key), r.1⟩, r.2)

/-- An operation on the service that `getService` finds. -/
def onService (s : Services) (key : ServiceKey)
    (f : Pool → ServiceTables → Pool × ServiceTables × Exit) : Services × Exit :=
  match s.serviceMap key with
  | none => (s, .throws serviceError)
  | some P =>
    let r := f P s.maps
    ({ s with
      serviceMap := update s.serviceMap key (some r.1)
      maps := r.2.1 }, r.2.2)

inductive Request
  | addService (vip : BitVec 32) (vport : BitVec 16) (proto : ServiceProto)
      (backends : List BackendConf) (shuffle : BackendKey → Shuffle)
  | delService (key : ServiceKey)
  | addBackend (key : ServiceKey) (conf : BackendConf) (shuffle : Shuffle)
  | delBackend (key : ServiceKey) (backend : BackendKey)
  | delBackendList (key : ServiceKey)
  | setWeight (key : ServiceKey) (backend : BackendKey) (weight : ℕ)

def Services.apply (s : Services) : Request → Services × Exit
  | .addService vip vport proto backends shuffle =>
    addService share c s vip vport proto backends shuffle
  | .delService key => delService c s key
  | .addBackend key conf shuffle => onService s key fun P m =>
      addBackend share c (s.taken c key conf.key) P m conf shuffle
  | .delBackend key backend => onService s key fun P m => delBackend share c P m backend
  | .delBackendList key => onService s key (delBackendList c)
  | .setWeight key backend weight => onService s key fun P m => setWeight P m backend weight

def Services.next (s : Services) (r : Request) : Services := (s.apply share c r).1

end Operations

end Polycube.K8switch
