import Polycube.K8switch.Services
import Polycube.Lib.Run

/-!
# The maps mirror the services

`Services.Inv` says that the maps hold the row of each service that has backends, and nothing else:
a header and slots, or only a header for a service that is left to kube-proxy.  A request keeps it when
it adds backends, and a service is left to kube-proxy from its first backend on.  Backends are only
removed from NodePort services, and never the last one.
-/

namespace Polycube.K8switch

open Lib

variable {share : ℕ → ℕ → ℕ → ℕ} {c : Config} {P : Pool} {m : ServiceTables}
  {rows : ServiceKey → ℕ → Option Backend} {conf : BackendConf} {shuffle : Shuffle} {taken : Bool}

/-! ### Rows -/

def ServiceKey.slot (k : ServiceKey) (i : ℕ) : Vip :=
  ⟨k.vip, bswap16 k.vport, bswap16 k.proto, BitVec.ofNat 16 i⟩

theorem slot_inj (s s' : ServiceKey) (i i' : ℕ) (hi : i ≤ 65535) (hi' : i' ≤ 65535)
    (h : s.slot i = s'.slot i') : s = s' ∧ i = i' := by
  rcases s with ⟨vip, vport, proto⟩
  rcases s' with ⟨vip', vport', proto'⟩
  simp only [ServiceKey.slot, Vip.mk.injEq] at h
  obtain ⟨hvip, hport, hproto, hindex⟩ := h
  have index := congrArg BitVec.toNat hindex
  rw [BitVec.toNat_ofNat, BitVec.toNat_ofNat, Nat.mod_eq_of_lt (by omega),
    Nat.mod_eq_of_lt (by omega)] at index
  exact ⟨by rw [hvip, bswap16_injective hport, bswap16_injective hproto], index⟩

def Pool.key (P : Pool) : ServiceKey := serviceKey P.vip P.vport P.proto

theorem vipKey_eq (P : Pool) : P.vipKey = P.key.slot := rfl

def Pool.row (share : ℕ → ℕ → ℕ → ℕ) (P : Pool) : ℕ → Option Backend :=
  if P.backends = [] then fun _ => none
  else if P.kubeProxyService then rowOf P.kubeProxyHeader []
  else match getConsistentArray share P with
    | none => fun _ => none
    | some array => rowOf (P.header array.length) (array.filterMap (·.bind P.valueOf))

structure Pool.Balanced (P : Pool) : Prop where
  few : P.backends.length ≤ initialBackendSize
  weights : ∀ b ∈ P.backends, b.2 ≠ 0
  columns : Columns (initialBackendSize * backendReplicas) P.keys P.matrix

structure Pool.Valid (c : Config) (P : Pool) : Prop where
  nodup : P.keys.Nodup
  kubeProxy : P.kubeProxyService = true → c.clusterIp P.vip = true
  balanced : P.kubeProxyService = false → P.Balanced

theorem rows_eq (few : P.backends.length ≤ initialBackendSize) :
    P.rows = initialBackendSize * backendReplicas := by
  rw [Pool.rows, Nat.max_eq_left few]

theorem valueOf_of_mem {key : BackendKey} (h : key ∈ P.keys) :
    P.valueOf key = some (P.value key) := if_pos h

theorem row_of_empty (h : P.backends = []) : P.row share = fun _ => none := if_pos h

theorem row_of_kubeProxy (any : P.backends ≠ []) (h : P.kubeProxyService = true) :
    P.row share = rowOf P.kubeProxyHeader [] := by
  rw [Pool.row, if_neg any, if_pos h]

theorem Pool.Balanced.ready (balanced : P.Balanced) (nodup : P.keys.Nodup) :
    Columns P.rows P.keys P.matrix ∧ P.keys.Nodup ∧ (∀ b ∈ P.backends, b.2 ≠ 0) ∧
      P.backends.length ≤ P.rows := by
  have few := balanced.few
  rw [rows_eq few]
  refine ⟨balanced.columns, nodup, balanced.weights, ?_⟩
  unfold initialBackendSize backendReplicas at *
  omega

theorem Pool.Valid.array (valid : P.Valid c) (any : P.backends ≠ [])
    (kube : P.kubeProxyService = false) : ∃ l : List BackendKey,
      getConsistentArray share P = some (l.map some) ∧
      l.length = initialBackendSize * backendReplicas ∧ ∀ key, key ∈ l ↔ key ∈ P.keys := by
  have balanced := valid.balanced kube
  obtain ⟨columns, nodup, weights, few⟩ := balanced.ready valid.nodup
  obtain ⟨l, harray, length, mem⟩ := @Columns.array _ _ _ _ share _ columns nodup weights any few
  exact ⟨l, (slotArrayChecked_of_perm _ columns.perm).trans harray,
    length.trans (rows_eq balanced.few), mem⟩

theorem Pool.Valid.row (valid : P.Valid c) (any : P.backends ≠ [])
    (kube : P.kubeProxyService = false) :
    ∃ (array : List (Option BackendKey)) (l : List Backend),
      getConsistentArray share P = some array ∧ array.map (·.bind P.valueOf) = l.map some ∧
      l.length = initialBackendSize * backendReplicas ∧
      (∀ v, v ∈ l ↔ ∃ key ∈ P.keys, v = P.value key) ∧
      P.row share = rowOf (P.header array.length) l := by
  have balanced := valid.balanced kube
  obtain ⟨columns, nodup, weights, few⟩ := balanced.ready valid.nodup
  obtain ⟨array, l, harray, values, _, length, mem⟩ := @Columns.values _ _ _ _ share _ _ P.valueOf
    columns nodup weights any few (by
      intro key hkey
      rw [valueOf_of_mem hkey]
      exact Option.some_ne_none _)
  have array_eq : getConsistentArray share P = some array :=
    (slotArrayChecked_of_perm _ columns.perm).trans harray
  refine ⟨array, l, array_eq, values, length.trans (rows_eq balanced.few), fun v => ?_, ?_⟩
  · rw [mem]
    constructor
    · rintro ⟨key, hkey, hv⟩
      rw [valueOf_of_mem hkey, Option.some.injEq] at hv
      exact ⟨key, hkey, hv.symm⟩
    · rintro ⟨key, hkey, rfl⟩
      exact ⟨key, hkey, valueOf_of_mem hkey⟩
  · rw [Pool.row, if_neg any, if_neg (by simp [kube]), array_eq]
    dsimp only
    rw [filterMap_of_map_eq values]

theorem Pool.Valid.row_beyond (valid : P.Valid c) {i : ℕ}
    (hi : initialBackendSize * backendReplicas < i) : P.row share i = none := by
  by_cases any : P.backends = []
  · rw [row_of_empty any]
  · cases kube : P.kubeProxyService with
    | true =>
      rw [row_of_kubeProxy any kube]
      exact rowOf_beyond (Nat.zero_lt_of_lt hi)
    | false =>
      obtain ⟨array, l, _, _, length, _, hrow⟩ := @Pool.Valid.row share c P valid any kube
      rw [hrow, rowOf_beyond (by omega)]

theorem Pool.Valid.row_mem (valid : P.Valid c) {i : ℕ} (hi : 1 ≤ i) {v : Backend}
    (h : P.row share i = some v) :
    P.kubeProxyService = false ∧ ∃ key ∈ P.keys, v = P.value key := by
  by_cases any : P.backends = []
  · rw [row_of_empty any] at h
    cases h
  · cases kube : P.kubeProxyService with
    | true =>
      rw [row_of_kubeProxy any kube, rowOf_beyond hi] at h
      cases h
    | false =>
      obtain ⟨array, l, _, _, _, mem, hrow⟩ := @Pool.Valid.row share c P valid any kube
      rw [hrow] at h
      exact ⟨rfl, (mem v).1 (mem_of_rowOf hi h)⟩

theorem Pool.Valid.exists_slot (valid : P.Valid c) (kube : P.kubeProxyService = false)
    {key : BackendKey} (hkey : key ∈ P.keys) :
    ∃ i, 1 ≤ i ∧ i ≤ 65535 ∧ P.row share i = some (P.value key) := by
  have any : P.backends ≠ [] := by
    intro e
    rw [Pool.keys, e] at hkey
    cases hkey
  obtain ⟨array, l, _, _, length, mem, hrow⟩ := @Pool.Valid.row share c P valid any kube
  obtain ⟨i, h1, hi, hv⟩ := @exists_rowOf _ (P.header array.length) _ _ ((mem _).2 ⟨key, hkey, rfl⟩)
  refine ⟨i, h1, ?_, by rw [hrow, hv]⟩
  unfold initialBackendSize backendReplicas at length
  omega

/-! ### Pools -/

abbrev MapsMirror (c : Config) (rows : ServiceKey → ℕ → Option Backend) (m : ServiceTables) : Prop :=
  Mirrored ServiceKey.slot 65535 rows (fun k => c.clusterIp k.vip = true) m

structure Room (ks : Finset Vip) (vs : Finset Backend) (m : ServiceTables) : Prop where
  services : (m.services.keys ∪ ks).card ≤ 65536
  reverse : (m.reverse.keys ∪ vs).card ≤ 65536

def ServiceKey.slots (k : ServiceKey) : Finset Vip :=
  ((List.range (initialBackendSize * backendReplicas + 1)).map k.slot).toFinset

theorem mem_slots (k : ServiceKey) {i : ℕ} (hi : i ≤ initialBackendSize * backendReplicas) :
    k.slot i ∈ k.slots := by
  rw [ServiceKey.slots, List.mem_toFinset]
  exact List.mem_map.2 ⟨i, List.mem_range.2 (by omega), rfl⟩

theorem updateKernelServiceMap_mirrors (h : MapsMirror c rows m) (valid : P.Valid c)
    (any : P.backends ≠ []) (kube : P.kubeProxyService = false) {ks : Finset Vip}
    (hks : P.key.slots ⊆ ks) {vs : Finset Backend}
    (hvs : c.clusterIp P.vip = true → ∀ key ∈ P.keys, P.value key ∈ vs) (room : Room ks vs m)
    (beyond : ∀ i, initialBackendSize * backendReplicas < i → i ≤ 65535 → rows P.key i = none)
    (stale : ∀ v i, 1 ≤ i → i ≤ 65535 → m.reverse.entry v = some (P.key.slot i) →
      c.clusterIp P.vip = true ∧ ∃ key ∈ P.keys, v = P.value key) :
    ∃ m', updateKernelServiceMap share c P m = (m', .returns) ∧
      MapsMirror c (Function.update rows P.key (P.row share)) m' ∧
      m'.services.keys ∪ ks = m.services.keys ∪ ks ∧
      m'.reverse.keys ∪ vs = m.reverse.keys ∪ vs := by
  obtain ⟨array, l, harray, values, length, mem, hrow⟩ := @Pool.Valid.row share c P valid any kube
  rw [updateKernelServiceMap, harray, hrow]
  rw [vipKey_eq]
  refine h.setRow slot_inj values ?_ (fun i hi => ?_) room.services (fun hb v hv => ?_)
    (fun _ => room.reverse) ?_ ?_ (fun _ _ => Iff.rfl) Iff.rfl
  · rw [length]
    decide
  · exact hks (mem_slots P.key (by omega))
  · obtain ⟨key, hkey, e⟩ := (mem v).1 hv
    rw [e]
    exact hvs hb key hkey
  · rwa [length]
  · intro v i h1 hi hv
    obtain ⟨hb, backend⟩ := stale v i h1 hi hv
    exact ⟨hb, (mem v).2 backend⟩

theorem insertAsKubeProxyService_mirrors (h : MapsMirror c rows m) (any : P.backends ≠ [])
    (kube : P.kubeProxyService = true) {ks : Finset Vip} (hks : P.key.slot 0 ∈ ks)
    {vs : Finset Backend} (room : Room ks vs m)
    (beyond : ∀ i, 0 < i → i ≤ 65535 → rows P.key i = none) :
    ∃ m', insertAsKubeProxyService c P m = (m', .returns) ∧
      MapsMirror c (Function.update rows P.key (P.row share)) m' ∧ Room ks vs m' := by
  rw [row_of_kubeProxy any kube, insertAsKubeProxyService, vipKey_eq]
  obtain ⟨m', run, mirrors, services, reverse⟩ := @Mirrored.setRow Vip Backend BackendKey ServiceKey
    _ _ _ _ _ rows _ m _ h slot_inj P.key P.valueOf "map::at" [] P.kubeProxyHeader [] rfl
    (Nat.zero_le _) (c.clusterIp P.vip) ks (fun i hi => by
      have zero : i = 0 := Nat.le_zero.1 hi
      rwa [zero]) room.services vs (fun _ v hv => by cases hv) (fun _ => room.reverse) beyond
    (fun v i h1 hi hv => by
      have := h.row_of_reverse slot_inj hi hv
      rw [beyond i h1 hi] at this
      cases this) (fun k => c.clusterIp k.vip = true) (fun _ _ => Iff.rfl) Iff.rfl
  refine ⟨m', run, mirrors, ⟨?_, ?_⟩⟩
  · rw [services]
    exact room.services
  · rw [reverse]
    exact room.reverse

theorem MapsMirror.named (h : MapsMirror c rows m) (valid : P.Valid c)
    (hrow : rows P.key = P.row share) {v : Backend} {i : ℕ} (h1 : 1 ≤ i) (hi : i ≤ 65535)
    (hv : m.reverse.entry v = some (P.key.slot i)) :
    c.clusterIp P.vip = true ∧ ∃ key ∈ P.keys, v = P.value key := by
  obtain ⟨s, i', cluster, _, hi', e, _⟩ := h.reverse v _ hv
  have this := h.row_of_reverse slot_inj hi hv
  rw [hrow] at this
  obtain ⟨hs, _⟩ := slot_inj _ _ _ _ hi hi' e
  rw [← hs] at cluster
  exact ⟨cluster, (valid.row_mem h1 this).2⟩

theorem mem_withBackend {b : BackendKey × ℕ} : b ∈ (P.withBackend conf).backends ↔
    b = (conf.key, conf.weight.getD 1) ∨ b ∈ P.backends :=
  List.mem_orderedInsert _

theorem keys_withBackend_perm : (P.withBackend conf).keys.Perm (conf.key :: P.keys) :=
  (List.perm_orderedInsert (fun a b : BackendKey × ℕ => keyBefore a.1 b.1)
    (conf.key, conf.weight.getD 1) P.backends).map _

theorem length_withBackend : (P.withBackend conf).backends.length = P.backends.length + 1 :=
  List.orderedInsert_length _ _ _

theorem withBackend_ne_nil : (P.withBackend conf).backends ≠ [] :=
  List.ne_nil_of_mem (mem_withBackend.2 (Or.inl rfl))

theorem addKubeProxyBackend_mirrors (h : MapsMirror c rows m) (valid : P.Valid c)
    (kube : P.kubeProxyService = true) (new : conf.key ∉ P.keys) {ks : Finset Vip}
    (hks : P.key.slot 0 ∈ ks) {vs : Finset Backend} (room : Room ks vs m)
    (beyond : ∀ i, 0 < i → i ≤ 65535 → rows P.key i = none) :
    ∃ m', addKubeProxyBackend c P m conf = (P.withBackend conf, m', .returns) ∧
      (P.withBackend conf).Valid c ∧
      MapsMirror c (Function.update rows P.key ((P.withBackend conf).row share)) m' ∧
      Room ks vs m' := by
  have valid' : (P.withBackend conf).Valid c := by
    refine ⟨?_, valid.kubeProxy, fun no => ?_⟩
    · exact keys_withBackend_perm.nodup_iff.2 (List.nodup_cons.2 ⟨new, valid.nodup⟩)
    · have : P.kubeProxyService = false := no
      rw [kube] at this
      cases this
  obtain ⟨m', run, mirrors, room'⟩ := @insertAsKubeProxyService_mirrors share c (P.withBackend conf) m
    rows h withBackend_ne_nil kube ks hks vs room beyond
  exact ⟨m', by rw [addKubeProxyBackend, run], valid', mirrors, room'⟩

theorem Pool.Valid.row_kubeProxy (valid : P.Valid c) (kube : P.kubeProxyService = true) (i : ℕ)
    (hi : 0 < i) : P.row share i = none := by
  cases hrow : P.row share i with
  | none => rfl
  | some v =>
    have := (valid.row_mem hi hrow).1
    rw [kube] at this
    cases this

theorem Pool.Valid.withColumn (valid : P.Valid c) (kube : P.kubeProxyService = false)
    (new : conf.key ∉ P.keys) (few : P.backends.length < initialBackendSize)
    (weight : conf.weight ≠ some 0) : (P.withColumn conf shuffle).Valid c := by
  have balanced := valid.balanced kube
  have few' : (P.withBackend conf).backends.length ≤ initialBackendSize := by
    rw [length_withBackend]
    exact few
  refine ⟨?_, valid.kubeProxy, fun _ => ⟨few', fun b hb => ?_, ?_⟩⟩
  · exact keys_withBackend_perm.nodup_iff.2 (List.nodup_cons.2 ⟨new, valid.nodup⟩)
  · rcases mem_withBackend.1 hb with rfl | hb
    · cases hw : conf.weight with
      | none => simp
      | some w =>
        intro zero
        have : w = 0 := zero
        exact weight (by rw [hw, this])
    · exact balanced.weights b hb
  · apply balanced.columns.add
    · rw [← rows_eq few']
      exact shuffle.perm _
    · intro key hkey
      exact List.mem_cons.1 (keys_withBackend_perm.mem_iff.1 hkey)

theorem addColumn_mirrors (h : MapsMirror c rows m) (valid : P.Valid c)
    (hrow : rows P.key = P.row share) (kube : P.kubeProxyService = false) (new : conf.key ∉ P.keys)
    (few : P.backends.length < initialBackendSize) (weight : conf.weight ≠ some 0)
    {ks : Finset Vip} (hks : P.key.slots ⊆ ks) {vs : Finset Backend}
    (hvs : c.clusterIp P.vip = true → P.value conf.key ∈ vs) (room : Room ks vs m) :
    ∃ m', updateKernelServiceMap share c (P.withColumn conf shuffle) m = (m', .returns) ∧
      (P.withColumn conf shuffle).Valid c ∧
      MapsMirror c (Function.update rows P.key ((P.withColumn conf shuffle).row share)) m' ∧
      Room ks vs m' := by
  -- the other backends are in the map already
  have old : c.clusterIp P.vip = true → ∀ key ∈ P.keys, P.value key ∈ m.reverse.keys := by
    intro cluster key hkey
    obtain ⟨i, h1, hi, hv⟩ := @Pool.Valid.exists_slot share c P valid kube key hkey
    rw [← hrow] at hv
    exact h.mem_reverse_keys cluster h1 hi hv
  have all : m.reverse.keys ∪ (vs ∪ if c.clusterIp P.vip then (P.keys.map P.value).toFinset else ∅) =
      m.reverse.keys ∪ vs := by
    rw [← Finset.union_assoc, Finset.union_eq_left]
    intro v hv
    split at hv
    · next cluster =>
      rw [List.mem_toFinset, List.mem_map] at hv
      obtain ⟨key, hkey, e⟩ := hv
      exact Finset.mem_union_left _ (e ▸ old cluster key hkey)
    · exact absurd hv (Finset.notMem_empty v)
  have valid' : (P.withColumn conf shuffle).Valid c := valid.withColumn kube new few weight
  obtain ⟨m', run, mirrors, services, reverse⟩ := @updateKernelServiceMap_mirrors share c
    (P.withColumn conf shuffle) m rows h valid' withBackend_ne_nil kube ks hks
    (vs ∪ if c.clusterIp P.vip then (P.keys.map P.value).toFinset else ∅) (by
      intro cluster key hkey
      have cluster' : c.clusterIp P.vip = true := cluster
      rw [Finset.mem_union, if_pos cluster', List.mem_toFinset]
      rcases List.mem_cons.1 (keys_withBackend_perm.mem_iff.1 hkey) with rfl | hkey
      · exact Or.inl (hvs cluster)
      · exact Or.inr (List.mem_map.2 ⟨key, hkey, rfl⟩)) ⟨room.services, by
        rw [all]
        exact room.reverse⟩ (by
      intro i hi _
      exact (congrFun hrow i).trans (valid.row_beyond hi)) (by
      intro v i h1 hi hv
      obtain ⟨cluster, key, hkey, e⟩ := MapsMirror.named h valid hrow h1 hi hv
      exact ⟨cluster, key, keys_withBackend_perm.mem_iff.2 (List.mem_cons_of_mem _ hkey), e⟩)
  refine ⟨m', run, valid', mirrors, ?_, ?_⟩
  · rw [services]
    exact room.services
  · apply le_trans (Finset.card_le_card ?_) room.reverse
    rw [← all, ← reverse]
    exact Finset.union_subset_union_right Finset.subset_union_left

def Pool.LeftToKubeProxy (c : Config) (taken : Bool) (P : Pool) : Prop :=
  P.kubeProxyService = true ∨ c.clusterIp P.vip = true ∧ taken = true

structure Pool.Takes (c : Config) (taken : Bool) (P : Pool) (conf : BackendConf) (ks : Finset Vip)
    (vs : Finset Backend) : Prop where
  kubeProxy : P.LeftToKubeProxy c taken →
    (P.kubeProxyService = false → P.backends = []) ∧ P.key.slot 0 ∈ ks
  balanced : ¬P.LeftToKubeProxy c taken →
    P.backends.length < initialBackendSize ∧ conf.weight ≠ some 0 ∧ P.key.slots ⊆ ks ∧
      (c.clusterIp P.vip = true → P.value conf.key ∈ vs)

theorem addBackend_mirrors (h : MapsMirror c rows m) (valid : P.Valid c)
    (hrow : rows P.key = P.row share) (new : conf.key ∉ P.keys) {ks : Finset Vip}
    {vs : Finset Backend} (takes : P.Takes c taken conf ks vs) (room : Room ks vs m) :
    ∃ P' m', addBackend share c taken P m conf shuffle = (P', m', .returns) ∧ P'.Valid c ∧
      P'.key = P.key ∧ P'.keys.Perm (conf.key :: P.keys) ∧
      (P'.kubeProxyService = true ↔ P.LeftToKubeProxy c taken) ∧
      MapsMirror c (Function.update rows P.key (P'.row share)) m' ∧ Room ks vs m' := by
  rw [addBackend, if_neg new]
  by_cases kube : P.kubeProxyService = true
  · obtain ⟨_, hks⟩ := takes.kubeProxy (Or.inl kube)
    obtain ⟨m', run, valid', mirrors, room'⟩ := @addKubeProxyBackend_mirrors share c P m rows conf h
      valid kube new ks hks vs room fun i hi _ => by rw [hrow, valid.row_kubeProxy kube i hi]
    rw [if_pos kube, run]
    exact ⟨_, _, rfl, valid', rfl, keys_withBackend_perm, ⟨fun _ => Or.inl kube, fun _ => kube⟩,
      mirrors, room'⟩
  · rw [if_neg kube]
    have off : P.kubeProxyService = false := by simpa using kube
    by_cases flag : c.clusterIp P.vip = true ∧ taken = true
    · obtain ⟨empty, hks⟩ := takes.kubeProxy (Or.inr flag)
      have none_ := empty off
      have valid' : Pool.Valid c { P with kubeProxyService := true } := by
        refine ⟨valid.nodup, fun _ => flag.1, fun no => ?_⟩
        cases no
      obtain ⟨m', run, valid'', mirrors, room'⟩ := @addKubeProxyBackend_mirrors share c
        { P with kubeProxyService := true } m rows conf h valid' rfl new ks hks vs room
        fun i hi _ => by
          have : rows P.key i = none := by rw [hrow, row_of_empty none_]
          exact this
      rw [if_pos flag, removeServiceFromKernelMap, if_pos none_]
      dsimp only
      rw [run]
      exact ⟨_, _, rfl, valid'', rfl, keys_withBackend_perm, ⟨fun _ => Or.inr flag, fun _ => rfl⟩,
        mirrors, room'⟩
    · have other : ¬P.LeftToKubeProxy c taken := by
        rintro (on | on)
        · exact kube on
        · exact flag on
      obtain ⟨few, weight, hks, hvs⟩ := takes.balanced other
      obtain ⟨m', run, valid', mirrors, room'⟩ := @addColumn_mirrors share c P m rows conf shuffle h
        valid hrow off new few weight ks hks vs hvs room
      rw [if_neg flag, run]
      exact ⟨_, _, rfl, valid', rfl, keys_withBackend_perm,
        ⟨fun on => absurd on kube, fun on => absurd on other⟩, mirrors, room'⟩

/-- What a list of backends needs, and there is room for.  Either the service is left to kube-proxy
with the first one at the latest, or none of them leads to that. -/
structure Pool.Accepts (c : Config) (taken : BackendKey → Bool) (P : Pool) (confs : List BackendConf)
    (ks : Finset Vip) (vs : Finset Backend) : Prop where
  nodup : (confs.map (·.key)).Nodup
  new : ∀ conf ∈ confs, conf.key ∉ P.keys
  mode : ∀ conf rest, confs = conf :: rest →
    P.LeftToKubeProxy c (taken conf.key) ∧ (P.kubeProxyService = false → P.backends = []) ∧
      P.key.slot 0 ∈ ks ∨
    P.kubeProxyService = false ∧ (∀ conf ∈ confs, ¬(c.clusterIp P.vip = true ∧ taken conf.key = true)) ∧
      P.backends.length + confs.length ≤ initialBackendSize ∧
      (∀ conf ∈ confs, conf.weight ≠ some 0) ∧ P.key.slots ⊆ ks ∧
      (c.clusterIp P.vip = true → ∀ conf ∈ confs, P.value conf.key ∈ vs)

variable {taken' : BackendKey → Bool} {confs : List BackendConf} {ks : Finset Vip}
  {vs : Finset Backend}

theorem Pool.Accepts.takes (h : P.Accepts c taken' (conf :: confs) ks vs) :
    P.Takes c (taken' conf.key) conf ks vs := by
  rcases h.mode conf confs rfl with ⟨left, empty, hks⟩ | ⟨off, free, few, weights, hks, hvs⟩
  · exact ⟨fun _ => ⟨empty, hks⟩, fun no => absurd left no⟩
  · refine ⟨fun left => ?_, fun _ => ⟨?_, weights conf List.mem_cons_self, hks, fun cluster =>
      hvs cluster conf List.mem_cons_self⟩⟩
    · rcases left with on | flag
      · rw [off] at on
        cases on
      · exact absurd flag (free conf List.mem_cons_self)
    · rw [List.length_cons] at few
      omega

theorem Pool.Accepts.tail {P' : Pool} (h : P.Accepts c taken' (conf :: confs) ks vs)
    (key : P'.key = P.key) (perm : P'.keys.Perm (conf.key :: P.keys))
    (kube : P'.kubeProxyService = true ↔ P.LeftToKubeProxy c (taken' conf.key)) :
    P'.Accepts c taken' confs ks vs := by
  have nodup := h.nodup
  rw [List.map_cons, List.nodup_cons] at nodup
  have vip : P'.vip = P.vip := congrArg ServiceKey.vip key
  have proto : convertProtoToNumber P'.proto = convertProtoToNumber P.proto :=
    congrArg ServiceKey.proto key
  refine ⟨nodup.2, fun conf' hc hin => ?_, fun conf' rest e => ?_⟩
  · rcases List.mem_cons.1 (perm.mem_iff.1 hin) with same | old
    · exact nodup.1 (same ▸ List.mem_map.2 ⟨conf', hc, rfl⟩)
    · exact h.new conf' (List.mem_cons_of_mem _ hc) old
  · rcases h.mode conf confs rfl with ⟨left, _, hks⟩ | ⟨off, free, few, weights, hks, hvs⟩
    · have on := kube.2 left
      refine Or.inl ⟨Or.inl on, fun no => ?_, key ▸ hks⟩
      rw [on] at no
      cases no
    · have off' : P'.kubeProxyService = false := by
        rw [← Bool.not_eq_true, kube]
        rintro (on | flag)
        · rw [off] at on
          cases on
        · exact free conf List.mem_cons_self flag
      have length := perm.length_eq
      rw [Pool.keys, Pool.keys, List.length_map, List.length_cons, List.length_map] at length
      rw [List.length_cons] at few
      refine Or.inr ⟨off', ?_, by omega, fun c hc => weights c (List.mem_cons_of_mem _ hc), key ▸ hks,
        ?_⟩
      · rw [vip]
        exact fun c hc => free c (List.mem_cons_of_mem _ hc)
      · rw [vip]
        intro cluster c hc
        rw [Pool.value, proto]
        exact hvs cluster c (List.mem_cons_of_mem _ hc)

theorem addBackendList_mirrors {shuffles : BackendKey → Shuffle} (h : MapsMirror c rows m)
    (valid : P.Valid c) (hrow : rows P.key = P.row share)
    (accepts : P.Accepts c taken' confs ks vs) (room : Room ks vs m) :
    ∃ P' m', addBackendList share c taken' shuffles P m confs = (P', m', .returns) ∧ P'.Valid c ∧
      P'.key = P.key ∧ MapsMirror c (Function.update rows P.key (P'.row share)) m' := by
  induction confs generalizing P m rows with
  | nil =>
    refine ⟨P, m, rfl, valid, rfl, ?_⟩
    rwa [← hrow, Function.update_eq_self]
  | cons conf confs ih =>
    obtain ⟨P₁, m₁, run, valid₁, key₁, perm, kube, mirrors₁, room₁⟩ := @addBackend_mirrors share c P m
      rows conf (shuffles conf.key) (taken' conf.key) h valid hrow (accepts.new conf List.mem_cons_self)
      ks vs accepts.takes room
    obtain ⟨P', m', run', valid', key', mirrors'⟩ := @ih P₁ m₁
      (Function.update rows P.key (P₁.row share)) mirrors₁ valid₁
      (by rw [key₁, Function.update_self]) (accepts.tail key₁ perm kube) room₁
    refine ⟨P', m', ?_, valid', key'.trans key₁, ?_⟩
    · rw [addBackendList, run]
      exact run'
    · rwa [key₁, Function.update_idem] at mirrors'

/-- A backend of a NodePort service goes, and another one stays. -/
theorem delBackend_mirrors (h : MapsMirror c rows m) (valid : P.Valid c)
    (hrow : rows P.key = P.row share) {key : BackendKey} (hkey : key ∈ P.keys)
    (nodePort : c.clusterIp P.vip = false) (other : ∃ key' ∈ P.keys, key' ≠ key) :
    ∃ m', delBackend share c P m key = (P.withoutBackend key, m', .returns) ∧
      (P.withoutBackend key).Valid c ∧
      MapsMirror c (Function.update rows P.key ((P.withoutBackend key).row share)) m' := by
  have kube : P.kubeProxyService = false := by
    rw [← Bool.not_eq_true]
    intro on
    have := valid.kubeProxy on
    rw [nodePort] at this
    cases this
  have balanced := valid.balanced kube
  have mem : ∀ key', key' ∈ (P.withoutBackend key).keys ↔ key' ∈ P.keys ∧ key' ≠ key := by
    intro key'
    simp only [Pool.withoutBackend, Pool.keys, List.mem_map, List.mem_filter, decide_eq_true_eq]
    constructor
    · rintro ⟨b, ⟨hb, hne⟩, rfl⟩
      exact ⟨⟨b, hb, rfl⟩, hne⟩
    · rintro ⟨⟨b, hb, rfl⟩, hne⟩
      exact ⟨b, ⟨hb, hne⟩, rfl⟩
  have valid' : (P.withoutBackend key).Valid c := by
    refine ⟨?_, valid.kubeProxy, fun _ => ⟨?_, fun b hb => ?_, ?_⟩⟩
    · exact valid.nodup.sublist (List.filter_sublist.map _)
    · exact (List.length_filter_le _ _).trans balanced.few
    · exact balanced.weights b (List.mem_filter.1 hb).1
    · exact balanced.columns.remove fun y hy => (mem y).1 hy
  have any : (P.withoutBackend key).backends ≠ [] := by
    intro e
    obtain ⟨key', hkey', hne⟩ := other
    have := (mem key').2 ⟨hkey', hne⟩
    rw [Pool.keys, e] at this
    cases this
  have any_old : P.backends ≠ [] := by
    intro e
    rw [Pool.keys, e] at hkey
    cases hkey
  -- the keys of the service are there, with its old row
  have services : m.services.keys ∪ P.key.slots = m.services.keys := by
    apply Bounded.union_of_subset
    intro k hk
    rw [ServiceKey.slots, List.mem_toFinset] at hk
    obtain ⟨i, hi, e⟩ := List.mem_map.1 hk
    obtain ⟨array, l, _, _, length, _, row_eq⟩ := @Pool.Valid.row share c P valid any_old kube
    have bound : i ≤ 65535 := by
      have := List.mem_range.1 hi
      unfold initialBackendSize backendReplicas at this
      omega
    rw [← e, h.services P.key i bound, hrow, row_eq, rowOf]
    split
    · exact Option.some_ne_none _
    · rw [List.getElem?_eq_getElem (by
        have := List.mem_range.1 hi
        omega)]
      exact Option.some_ne_none _
  obtain ⟨m', run, mirrors, _, _⟩ := @updateKernelServiceMap_mirrors share c (P.withoutBackend key) m
    rows h valid' any kube P.key.slots (Finset.Subset.refl _) ∅ (by
      intro cluster
      have : c.clusterIp P.vip = true := cluster
      rw [nodePort] at this
      cases this) ⟨by
        rw [services]
        exact m.services.card_le, by
        rw [Finset.union_empty]
        exact m.reverse.card_le⟩ (by
      intro i hi _
      exact (congrFun hrow i).trans (valid.row_beyond hi)) (by
      intro v i h1 hi hv
      obtain ⟨cluster, _⟩ := MapsMirror.named h valid hrow h1 hi hv
      rw [nodePort] at cluster
      cases cluster)
  refine ⟨m', ?_, valid', mirrors⟩
  rw [delBackend, if_pos hkey, if_neg any, run]

structure Services.Inv (share : ℕ → ℕ → ℕ → ℕ) (c : Config) (s : Services) : Prop where
  pools : ∀ k P, s.serviceMap k = some P → P.key = k ∧ P.Valid c
  mirrors : MapsMirror c (rowsOf (Pool.row share) s.serviceMap) s.maps

variable {s : Services} {k : ServiceKey}

theorem inv_init : Services.init.Inv share c := by
  refine ⟨fun k P h => ?_, mirrored_empty⟩
  cases h

theorem Services.Inv.update {keys : List ServiceKey} (inv : s.Inv share c) (valid : P.Valid c)
    (key : P.key = k)
    (mirrors : MapsMirror c (Function.update (rowsOf (Pool.row share) s.serviceMap) k (P.row share)) m) :
    Services.Inv share c ⟨Function.update s.serviceMap k (some P), keys, m⟩ := by
  refine ⟨fun k' P' h => ?_, ?_⟩
  · dsimp only at h
    by_cases hk : k' = k
    · rw [hk, Function.update_self, Option.some.injEq] at h
      rw [← h, hk]
      exact ⟨key, valid⟩
    · rw [Function.update_of_ne hk] at h
      exact inv.pools k' P' h
  · rwa [rowsOf_update]

theorem Services.Inv.erase {keys : List ServiceKey} (inv : s.Inv share c)
    (h : rowsOf (Pool.row share) s.serviceMap k = fun _ => none) :
    Services.Inv share c ⟨Function.update s.serviceMap k none, keys, s.maps⟩ := by
  refine ⟨fun k' P' h' => ?_, ?_⟩
  · dsimp only at h'
    by_cases hk : k' = k
    · rw [hk, Function.update_self] at h'
      cases h'
    · rw [Function.update_of_ne hk] at h'
      exact inv.pools k' P' h'
  · rw [rowsOf_erase h]
    exact inv.mirrors

/-! ### Requests -/

def newPool (vip : BitVec 32) (vport : BitVec 16) (proto : ServiceProto) : Pool :=
  ⟨vip, vport, proto, [], [], false⟩

def Pool.reverseValues (c : Config) (P : Pool) (keys : List BackendKey) : Finset Backend :=
  if c.clusterIp P.vip then (keys.map P.value).toFinset else ∅

/-- The requests that keep both sides in step.
* The backends of a service that is added are different.  Either the first one leaves it to
  kube-proxy, or none of them does, there are at most ten, and no weight is 0.  The maps have room.
* The same goes for a backend that is added.  A service that has backends and is not left to
  kube-proxy is not to be left to it by a new one.
* A backend is only removed from a NodePort service, and when another one stays.
* Services are only removed, and their backends, when they have none.
* A new weight leaves the numbers of slots as they are, or its service is left to kube-proxy. -/
def Allowed (share : ℕ → ℕ → ℕ → ℕ) (c : Config) (s : Services) : Request → Prop
  | .addService vip vport proto confs _ =>
    let k := serviceKey vip vport proto
    s.serviceMap k = none → confs ≠ [] → (confs.map (·.key)).Nodup ∧
    ((∃ conf ∈ confs.head?, c.clusterIp vip = true ∧ s.taken c k conf.key = true) ∧
        Room {k.slot 0} ∅ s.maps ∨
      (∀ conf ∈ confs, ¬(c.clusterIp vip = true ∧ s.taken c k conf.key = true)) ∧
        confs.length ≤ initialBackendSize ∧ (∀ conf ∈ confs, conf.weight ≠ some 0) ∧
        Room k.slots ((newPool vip vport proto).reverseValues c (confs.map (·.key))) s.maps)
  | .delService k => ∀ P, s.serviceMap k = some P → P.backends = []
  | .addBackend k conf _ => ∀ P, s.serviceMap k = some P → conf.key ∉ P.keys →
    (P.LeftToKubeProxy c (s.taken c k conf.key) ∧
        (P.kubeProxyService = false → P.backends = []) ∧ Room {k.slot 0} ∅ s.maps ∨
      ¬P.LeftToKubeProxy c (s.taken c k conf.key) ∧ P.backends.length < initialBackendSize ∧
        conf.weight ≠ some 0 ∧ Room k.slots (P.reverseValues c [conf.key]) s.maps)
  | .delBackend k key => ∀ P, s.serviceMap k = some P → key ∈ P.keys →
    c.clusterIp k.vip = false ∧ ∃ key' ∈ P.keys, key' ≠ key
  | .delBackendList k => ∀ P, s.serviceMap k = some P → P.backends = []
  | .setWeight k key weight => ∀ P, s.serviceMap k = some P → key ∈ P.keys →
    P.kubeProxyService = true ∨
      weight ≠ 0 ∧ getWeightBackend share (P.setWeight key weight) = getWeightBackend share P

theorem mem_reverseValues {keys : List BackendKey} {key : BackendKey}
    (cluster : c.clusterIp P.vip = true) (hk : key ∈ keys) :
    P.value key ∈ P.reverseValues c keys := by
  rw [Pool.reverseValues, if_pos cluster, List.mem_toFinset]
  exact List.mem_map.2 ⟨key, hk, rfl⟩

theorem addService_inv {vip : BitVec 32} {vport : BitVec 16} {proto : ServiceProto}
    {shuffles : BackendKey → Shuffle} (inv : s.Inv share c)
    (ok : Allowed share c s (.addService vip vport proto confs shuffles)) :
    (addService share c s vip vport proto confs shuffles).1.Inv share c := by
  unfold addService
  dsimp only
  cases hk : s.serviceMap (serviceKey vip vport proto) with
  | some P => exact inv
  | none =>
    dsimp only
    have valid : (newPool vip vport proto).Valid c := by
      refine ⟨List.nodup_nil, fun on => ?_, fun _ => ⟨Nat.zero_le _, fun b hb => ?_, columns_nil⟩⟩
      · cases on
      · cases hb
    have hrow : rowsOf (Pool.row share) s.serviceMap (newPool vip vport proto).key =
        (newPool vip vport proto).row share := (rowsOf_none hk).trans (row_of_empty rfl).symm
    obtain ⟨ks, vs, room, accepts⟩ : ∃ ks vs, Room ks vs s.maps ∧ (newPool vip vport proto).Accepts c
        (s.taken c (serviceKey vip vport proto)) confs ks vs := by
      cases confs with
      | nil =>
        refine ⟨∅, ∅, ⟨?_, ?_⟩, List.nodup_nil, fun conf hc => ?_, fun conf rest e => ?_⟩
        · rw [Finset.union_empty]
          exact s.maps.services.card_le
        · rw [Finset.union_empty]
          exact s.maps.reverse.card_le
        · cases hc
        · cases e
      | cons conf confs =>
        have new : ∀ c ∈ conf :: confs, c.key ∉ (newPool vip vport proto).keys :=
          fun _ _ h => by cases h
        obtain ⟨nodup, mode⟩ := ok hk (List.cons_ne_nil _ _)
        rcases mode with ⟨⟨first, hfirst, flag⟩, room⟩ | ⟨free, few, weights, room⟩
        · refine ⟨_, _, room, nodup, new, fun conf' rest e => Or.inl ⟨Or.inr ?_, fun _ => rfl, ?_⟩⟩
          · have same : first = conf := by simpa using hfirst.symm
            rw [List.cons.injEq] at e
            rwa [← e.1, ← same]
          · exact Finset.mem_singleton_self _
        · refine ⟨_, _, room, nodup, new, fun conf' rest e => Or.inr ⟨rfl, free, ?_, weights,
            Finset.Subset.refl _, fun cluster c hc => ?_⟩⟩
          · show 0 + (conf :: confs).length ≤ initialBackendSize
            rwa [Nat.zero_add]
          · exact mem_reverseValues cluster (List.mem_map.2 ⟨c, hc, rfl⟩)
    obtain ⟨P', m', run, valid', key', mirrors⟩ := @addBackendList_mirrors share c
      (newPool vip vport proto) s.maps (rowsOf (Pool.row share) s.serviceMap)
      (s.taken c (serviceKey vip vport proto)) confs ks vs shuffles inv.mirrors valid hrow accepts room
    rw [newPool] at run
    rw [run]
    exact inv.update valid' key' mirrors

theorem onService_inv {f : Pool → ServiceTables → Pool × ServiceTables × Exit} (inv : s.Inv share c)
    (ok : ∀ P, s.serviceMap k = some P → (f P s.maps).1.Valid c ∧ (f P s.maps).1.key = k ∧
      MapsMirror c (Function.update (rowsOf (Pool.row share) s.serviceMap) k
        ((f P s.maps).1.row share)) (f P s.maps).2.1) :
    (onService s k f).1.Inv share c := by
  unfold onService
  cases hk : s.serviceMap k with
  | none => exact inv
  | some P =>
    obtain ⟨valid, key, mirrors⟩ := ok P hk
    exact inv.update valid key mirrors

theorem Services.Inv.unchanged (inv : s.Inv share c) (hk : s.serviceMap k = some P) {P' : Pool}
    (row : P'.row share = P.row share) :
    MapsMirror c (Function.update (rowsOf (Pool.row share) s.serviceMap) k (P'.row share)) s.maps := by
  have hrow := @rowsOf_some _ _ _ (Pool.row share) _ _ _ hk
  rw [row, ← hrow, Function.update_eq_self]
  exact inv.mirrors

theorem addBackend_inv (inv : s.Inv share c) (ok : Allowed share c s (.addBackend k conf shuffle)) :
    (onService s k fun P m => addBackend share c (s.taken c k conf.key) P m conf shuffle).1.Inv
      share c := by
  apply onService_inv inv
  intro P hk
  obtain ⟨key, valid⟩ := inv.pools k P hk
  by_cases new : conf.key ∈ P.keys
  · rw [addBackend, if_pos new]
    exact ⟨valid, key, inv.unchanged hk rfl⟩
  · have hrow := @rowsOf_some _ _ _ (Pool.row share) _ _ _ hk
    obtain ⟨ks, vs, room, takes⟩ : ∃ ks vs, Room ks vs s.maps ∧
        P.Takes c (s.taken c k conf.key) conf ks vs := by
      rcases ok P hk new with ⟨left, empty, room⟩ | ⟨free, few, weight, room⟩
      · refine ⟨_, _, room, fun _ => ⟨empty, ?_⟩, fun no => absurd left no⟩
        rw [key]
        exact Finset.mem_singleton_self _
      · refine ⟨_, _, room, fun left => absurd left free, fun _ => ⟨few, weight, ?_, fun cluster =>
          mem_reverseValues cluster List.mem_cons_self⟩⟩
        rw [key]
    rw [← key] at hrow ⊢
    obtain ⟨P', m', run, valid', key', _, _, mirrors, _⟩ := @addBackend_mirrors share c P s.maps
      (rowsOf (Pool.row share) s.serviceMap) conf shuffle (s.taken c P.key conf.key) inv.mirrors valid
      hrow new ks vs (by rwa [key]) room
    rw [run]
    exact ⟨valid', key', mirrors⟩

theorem delBackend_inv {key : BackendKey} (inv : s.Inv share c)
    (ok : Allowed share c s (.delBackend k key)) :
    (onService s k fun P m => delBackend share c P m key).1.Inv share c := by
  apply onService_inv inv
  intro P hk
  obtain ⟨hkey, valid⟩ := inv.pools k P hk
  by_cases hmem : key ∈ P.keys
  · obtain ⟨nodePort, other⟩ := ok P hk hmem
    have hrow := @rowsOf_some _ _ _ (Pool.row share) _ _ _ hk
    rw [← hkey] at nodePort hrow ⊢
    obtain ⟨m', run, valid', mirrors⟩ := delBackend_mirrors inv.mirrors valid hrow hmem nodePort other
    rw [run]
    exact ⟨valid', rfl, mirrors⟩
  · rw [delBackend, if_neg hmem]
    exact ⟨valid, hkey, inv.unchanged hk rfl⟩

theorem setWeight_inv {key : BackendKey} {weight : ℕ} (inv : s.Inv share c)
    (ok : Allowed share c s (.setWeight k key weight)) :
    (onService s k fun P m => setWeight P m key weight).1.Inv share c := by
  apply onService_inv inv
  intro P hk
  obtain ⟨hkey, valid⟩ := inv.pools k P hk
  by_cases hmem : key ∈ P.keys
  · rw [setWeight, if_pos hmem]
    have keys : (P.setWeight key weight).keys = P.keys := by
      unfold Pool.keys Pool.setWeight
      rw [List.map_map]
      apply List.map_congr_left
      intro b _
      dsimp only [Function.comp]
      split <;> rfl
    have length : (P.setWeight key weight).backends.length = P.backends.length := List.length_map ..
    have empty : (P.setWeight key weight).backends = [] ↔ P.backends = [] := by
      rw [← List.length_eq_zero_iff, length, List.length_eq_zero_iff]
    have value : (P.setWeight key weight).valueOf = P.valueOf := by
      funext x
      rw [Pool.valueOf, Pool.valueOf, keys]
      rfl
    have nodup : (P.setWeight key weight).keys.Nodup := by
      rw [keys]
      exact valid.nodup
    rcases ok P hk hmem with kube | ⟨positive, same⟩
    · have kube' : (P.setWeight key weight).kubeProxyService = true := kube
      have row : (P.setWeight key weight).row share = P.row share := by
        unfold Pool.row
        simp only [empty, kube, kube', if_true]
        rfl
      refine ⟨⟨nodup, valid.kubeProxy, fun no => ?_⟩, hkey, inv.unchanged hk row⟩
      rw [kube'] at no
      cases no
    · have row : (P.setWeight key weight).row share = P.row share := by
        have rows : (P.setWeight key weight).rows = P.rows := by
          rw [Pool.rows, Pool.rows, length]
        have array :
            getConsistentArray share (P.setWeight key weight) = getConsistentArray share P := by
          show (getWeightBackend share (P.setWeight key weight)).bind _ =
            (getWeightBackend share P).bind _
          rw [same, rows]
          rfl
        have flag : (P.setWeight key weight).kubeProxyService = P.kubeProxyService := rfl
        unfold Pool.row
        simp only [empty, array, value, flag]
        rfl
      refine ⟨⟨nodup, valid.kubeProxy, fun off => ?_⟩, hkey, inv.unchanged hk row⟩
      have balanced := valid.balanced off
      refine ⟨?_, fun b hb => ?_, ?_⟩
      · rw [length]
        exact balanced.few
      · obtain ⟨b', hb', e⟩ := List.mem_map.1 hb
        rw [← e]
        split
        · exact positive
        · exact balanced.weights b' hb'
      · rw [keys]
        exact balanced.columns
  · rw [setWeight, if_neg hmem]
    exact ⟨valid, hkey, inv.unchanged hk rfl⟩

theorem next_inv (inv : s.Inv share c) {r : Request} (ok : Allowed share c s r) :
    (s.next share c r).Inv share c := by
  cases r with
  | addService vip vport proto confs shuffle => exact addService_inv inv ok
  | delService k =>
    show (delService c s k).1.Inv share c
    unfold delService
    cases hk : s.serviceMap k with
    | none => exact inv
    | some P =>
      have empty := ok P hk
      dsimp only
      rw [removeService, removeServiceFromKernelMap, if_pos empty]
      exact inv.erase ((rowsOf_some hk).trans (row_of_empty empty))
  | addBackend k conf shuffle => exact addBackend_inv inv ok
  | delBackend k key => exact delBackend_inv inv ok
  | delBackendList k =>
    apply onService_inv inv
    intro P hk
    obtain ⟨key, valid⟩ := inv.pools k P hk
    have empty := ok P hk
    have cleared : P.clear.backends = [] := rfl
    rw [delBackendList, removeServiceFromKernelMap, if_pos cleared]
    refine ⟨⟨List.nodup_nil, valid.kubeProxy, fun _ => ⟨Nat.zero_le _, fun b hb => ?_, columns_nil⟩⟩,
      key, inv.unchanged hk ?_⟩
    · cases hb
    · rw [row_of_empty empty, row_of_empty rfl]
  | setWeight k key weight => exact setWeight_inv inv ok

/-! ### Runs -/

def Vip.service (k : Vip) : ServiceKey := ⟨k.ip, bswap16 k.port, bswap16 k.proto⟩

/-- The maps mirror the services.  The first one has for each service its row, and nothing else: for
one that is left to kube-proxy the flag, and else the size of its consistent array and the backends in
it.  The size is the number of slots, each of which has a backend of the service, and each backend has
one.  The reverse map has an entry for each backend of a ClusterIP service that is not left to
kube-proxy, and for nothing else, and it names a slot with the backend. -/
structure Mirrors (share : ℕ → ℕ → ℕ → ℕ) (c : Config) (s : Services) : Prop where
  services : ∀ k, s.maps.services.entry k =
    rowsOf (Pool.row share) s.serviceMap k.service k.index.toNat
  filled : ∀ k P, s.serviceMap k = some P → P.backends ≠ [] → P.kubeProxyService = false →
    ∃ l : List BackendKey, getConsistentArray share P = some (l.map some) ∧
      (P.header l.length).port.toNat = l.length ∧ ∀ key, key ∈ l ↔ key ∈ P.keys
  reverse : ∀ v, s.maps.reverse.entry v ≠ none ↔
    ∃ k P, s.serviceMap k = some P ∧ c.clusterIp k.vip = true ∧ P.kubeProxyService = false ∧
      ∃ key ∈ P.keys, v = P.value key
  named : ∀ v k, s.maps.reverse.entry v = some k →
    k.index ≠ 0 ∧ s.maps.services.entry k = some v

theorem slot_service (k : Vip) : k = k.service.slot k.index.toNat := by
  simp [ServiceKey.slot, Vip.service]

theorem Services.Inv.toMirrors (inv : s.Inv share c) : Mirrors share c s := by
  refine ⟨fun k => ?_, fun k P hk any kube => ?_, fun v => ⟨fun h => ?_, ?_⟩, fun v k h => ?_⟩
  · have bound : k.index.toNat ≤ 65535 := by
      have := k.index.isLt
      omega
    rw [← inv.mirrors.services k.service k.index.toNat bound, ← slot_service]
  · obtain ⟨l, hl, length, mem⟩ := @Pool.Valid.array share c P (inv.pools k P hk).2 any kube
    refine ⟨l, hl, ?_, mem⟩
    rw [length]
    rfl
  · obtain ⟨key, hkey⟩ := Option.ne_none_iff_exists'.1 h
    obtain ⟨k, i, cluster, h1, _, _, hrow⟩ := inv.mirrors.reverse v key hkey
    cases hk : s.serviceMap k with
    | none =>
      rw [rowsOf_none hk] at hrow
      cases hrow
    | some P =>
      rw [rowsOf_some hk] at hrow
      obtain ⟨kube, backend⟩ := (inv.pools k P hk).2.row_mem h1 hrow
      exact ⟨k, P, hk, cluster, kube, backend⟩
  · rintro ⟨k, P, hk, cluster, kube, key, hkey, rfl⟩
    obtain ⟨i, h1, hi, hrow⟩ := @Pool.Valid.exists_slot share c P (inv.pools k P hk).2 kube key hkey
    rw [← @rowsOf_some _ _ _ (Pool.row share) _ _ _ hk] at hrow
    exact Mirrored.named inv.mirrors k i _ cluster h1 hi hrow
  · obtain ⟨s', i, _, h1, hi, e, hrow⟩ := inv.mirrors.reverse v k h
    rw [e, inv.mirrors.services s' i hi]
    refine ⟨fun zero => ?_, hrow⟩
    have index := congrArg BitVec.toNat zero
    rw [ServiceKey.slot, BitVec.toNat_ofNat, Nat.mod_eq_of_lt (by omega)] at index
    have : i = 0 := index
    omega

/-- In every run of requests that keep both sides in step, the maps mirror the services. -/
theorem tables_mirror_services {requests : List Request}
    (meets : Meets (Services.next share c) (Allowed share c) Services.init requests) :
    Mirrors share c (run (Services.next share c) Services.init requests) := by
  have inv : (run (Services.next share c) Services.init requests).Inv share c :=
    @run_induction _ _ (Services.next share c) (Services.Inv share c) (Allowed share c)
      (fun _ _ inv ok => next_inv inv ok) _ _ inv_init meets
  exact inv.toMirrors

def floorShare (rows sum weight : ℕ) : ℕ := weight * rows / sum

def plainShuffle : Shuffle := ⟨List.range, fun _ => List.Perm.refl _⟩

def clusterConfig : Config := ⟨0x00FFFFFF, 0x0001A8C0, 0x00010A0A, 0x0000600A, 0x0000F0FF, 7⟩

def addWeb : Request :=
  .addService 0x0100600A 80 .tcp [⟨(0x0500140A, 8080), none⟩] fun _ => plainShuffle

def addOther : Request :=
  .addService 0x0200600A 80 .tcp [⟨(0x0500140A, 8080), none⟩] fun _ => plainShuffle

/-- Both services are added. -/
theorem web_tables_mirror : Mirrors floorShare clusterConfig
    (run (Services.next floorShare clusterConfig) Services.init [addWeb, addOther]) := by
  have first : Allowed floorShare clusterConfig Services.init addWeb := by
    refine fun _ _ => ⟨by decide, Or.inr ⟨by decide, by decide, by decide, ?_, ?_⟩⟩
    · decide +kernel
    · decide +kernel
  have second : Allowed floorShare clusterConfig
      (Services.init.next floorShare clusterConfig addWeb) addOther := by
    refine fun _ _ => ⟨by decide, Or.inl ⟨⟨_, rfl, by decide +kernel⟩, ?_, ?_⟩⟩
    · decide +kernel
    · decide +kernel
  exact tables_mirror_services ⟨first, second, trivial⟩

/-- The last backend of the service is removed.  The header and the slots stay. -/
theorem slots_of_last_backend : ¬ Mirrors floorShare clusterConfig
    (run (Services.next floorShare clusterConfig) Services.init
      [addWeb, .delBackend ⟨0x0100600A, 80, 6⟩ (0x0500140A, 8080)]) := by
  intro h
  have slot := h.services ⟨0x0100600A, 0x5000, 0x0600, 1⟩
  have stays : (run (Services.next floorShare clusterConfig) Services.init
      [addWeb, .delBackend ⟨0x0100600A, 80, 6⟩ (0x0500140A, 8080)]).maps.services.entry
        ⟨0x0100600A, 0x5000, 0x0600, 1⟩ = some ⟨0x0500140A, 0x901F, 0x0600⟩ := by
    decide +kernel
  have row : rowsOf (Pool.row floorShare) (run (Services.next floorShare clusterConfig) Services.init
      [addWeb, .delBackend ⟨0x0100600A, 80, 6⟩ (0x0500140A, 8080)]).serviceMap ⟨0x0100600A, 80, 6⟩ 1 =
        none := by
    decide +kernel
  exact absurd (stays.symm.trans (slot.trans row)) (by decide)

end Polycube.K8switch
