import Polycube.Lbrp.Services

/-!
# The maps mirror the services

`Services.Inv` says that the maps hold the row of each service that has backends, and nothing else.
A request keeps it when it adds backends with a weight, at most ten to a service, for which the maps
have room.  Nothing that takes the last backend from a service keeps it, and what takes another one
does only if another service has the backend too.
-/

namespace Polycube.Lbrp

open Lib
open Function (update_of_ne update_self)

variable {share : ℕ → ℕ → ℕ → ℕ} {P : Pool} {m : Maps}
  {rows : ServiceKey → ℕ → Option Backend}

/-! ### Rows -/

def ServiceKey.slot (k : ServiceKey) (i : ℕ) : Vip :=
  ⟨k.vip, bswap16 k.vport, bswap16 k.proto, BitVec.ofNat 16 i⟩

theorem slot_inj (s s' : ServiceKey) (i i' : ℕ) (hi : i ≤ 65535) (hi' : i' ≤ 65535)
    (h : s.slot i = s'.slot i') : s = s' ∧ i = i' := by
  rcases s with ⟨vip, vport, proto⟩
  rcases s' with ⟨vip', vport', proto'⟩
  simp only [ServiceKey.slot, Vip.mk.injEq] at h
  obtain ⟨hvip, hport, hproto, hindex⟩ := h
  have index := congrArg BitVec.toNat hindex
  rw [BitVec.toNat_ofNat, BitVec.toNat_ofNat, Nat.mod_eq_of_lt (by omega),
    Nat.mod_eq_of_lt (by omega)] at index
  exact ⟨by rw [hvip, bswap16_injective hport, bswap16_injective hproto], index⟩

def Pool.key (P : Pool) : ServiceKey := serviceKey P.vip P.vport P.proto

def Pool.value (P : Pool) (b : PoolBackend) : Backend := P.service.value b.toServiceBackend

def Pool.row (share : ℕ → ℕ → ℕ → ℕ) (P : Pool) : ℕ → Option Backend :=
  if P.backends = [] then fun _ => none
  else match getConsistentArray share P with
    | none => fun _ => none
    | some array => rowOf (P.header array.length) (array.filterMap (·.bind P.valueOf))

structure Pool.Valid (P : Pool) : Prop where
  nodup : P.ips.Nodup
  few : P.backends.length ≤ initialBackendSize
  weights : ∀ b ∈ P.backends, b.weight ≠ 0
  columns : Columns (initialBackendSize * backendReplicas) P.ips P.matrix

theorem rows_eq (few : P.backends.length ≤ initialBackendSize) :
    P.rows = initialBackendSize * backendReplicas := by
  rw [Pool.rows, Nat.max_eq_left few]

theorem Pool.Valid.valueOf (valid : P.Valid) {b : PoolBackend} (hb : b ∈ P.backends) :
    P.valueOf b.ip = some (P.value b) := by
  have found : P.service.backends.find? (fun b' => b'.ip == b.ip) = some b.toServiceBackend := by
    have nodup := valid.nodup
    unfold Pool.service
    unfold Pool.ips at nodup
    generalize P.backends = bs at hb nodup
    induction bs with
    | nil => cases hb
    | cons b' bs ih =>
      rw [List.map_cons] at nodup ⊢
      rw [List.nodup_cons] at nodup
      rcases List.mem_cons.1 hb with rfl | later
      · rw [List.find?_cons_of_pos (by simp)]
      · rw [List.find?_cons_of_neg, ih later nodup.2]
        have : b'.ip ≠ b.ip := by
          intro e
          exact nodup.1 (e ▸ List.mem_map.2 ⟨b, later, rfl⟩)
        simpa using this
  rw [Pool.valueOf, Service.getBackend, found]
  rfl

def Pool.weights (P : Pool) : List (BitVec 32 × ℕ) := P.backends.map fun b => (b.ip, b.weight)

theorem weights_fst (P : Pool) : P.weights.map Prod.fst = P.ips := by
  rw [Pool.weights, List.map_map]
  rfl

theorem Pool.Valid.ready (valid : P.Valid) (any : P.backends ≠ []) :
    Columns P.rows (P.weights.map Prod.fst) P.matrix ∧ (P.weights.map Prod.fst).Nodup ∧
      (∀ b ∈ P.weights, b.2 ≠ 0) ∧ P.weights ≠ [] ∧ P.weights.length ≤ P.rows := by
  have few := valid.few
  rw [weights_fst, rows_eq few]
  refine ⟨valid.columns, valid.nodup, fun b hb => ?_, ?_, ?_⟩
  · obtain ⟨b', hb', e⟩ := List.mem_map.1 hb
    rw [← e]
    exact valid.weights b' hb'
  · simpa [Pool.weights] using any
  · rw [Pool.weights, List.length_map]
    unfold initialBackendSize backendReplicas at *
    omega

theorem Pool.Valid.array (valid : P.Valid) (any : P.backends ≠ []) :
    ∃ l : List (BitVec 32), getConsistentArray share P = some (l.map some) ∧
      ∀ ip, ip ∈ l ↔ ip ∈ P.ips := by
  obtain ⟨columns, nodup, weights, any', few⟩ := valid.ready any
  obtain ⟨l, harray, _, mem⟩ := @Columns.array _ _ _ _ share _ columns nodup weights any' few
  exact ⟨l, (slotArrayChecked_of_perm _ columns.perm).trans harray,
    fun ip => by rw [mem, weights_fst]⟩

theorem Pool.Valid.row (valid : P.Valid) (any : P.backends ≠ []) :
    ∃ (array : List (Option (BitVec 32))) (l : List Backend),
      getConsistentArray share P = some array ∧ array.map (·.bind P.valueOf) = l.map some ∧
      l.length = initialBackendSize * backendReplicas ∧
      (∀ v, v ∈ l ↔ ∃ b ∈ P.backends, v = P.value b) ∧
      P.row share = rowOf (P.header array.length) l := by
  obtain ⟨columns, nodup, weights, any', few⟩ := valid.ready any
  obtain ⟨array, l, harray, values, _, length, mem⟩ := @Columns.values _ _ _ _ share _ _ P.valueOf
    columns nodup weights any' few (by
      intro ip hip
      rw [weights_fst] at hip
      obtain ⟨b, hb, e⟩ := List.mem_map.1 hip
      rw [← e, valid.valueOf hb]
      exact Option.some_ne_none _)
  have array_eq : getConsistentArray share P = some array :=
    (slotArrayChecked_of_perm _ columns.perm).trans harray
  refine ⟨array, l, array_eq, values, length.trans (rows_eq valid.few), fun v => ?_, ?_⟩
  · rw [mem, weights_fst]
    constructor
    · rintro ⟨ip, hip, hv⟩
      obtain ⟨b, hb, e⟩ := List.mem_map.1 hip
      rw [← e, valid.valueOf hb, Option.some.injEq] at hv
      exact ⟨b, hb, hv.symm⟩
    · rintro ⟨b, hb, rfl⟩
      exact ⟨b.ip, List.mem_map.2 ⟨b, hb, rfl⟩, valid.valueOf hb⟩
  · rw [Pool.row, if_neg any, array_eq]
    dsimp only
    rw [filterMap_of_map_eq values]

theorem row_of_empty (h : P.backends = []) : P.row share = fun _ => none := if_pos h

theorem Pool.Valid.row_beyond (valid : P.Valid) {i : ℕ}
    (hi : initialBackendSize * backendReplicas < i) : P.row share i = none := by
  by_cases any : P.backends = []
  · rw [row_of_empty any]
  · obtain ⟨array, l, _, _, length, _, hrow⟩ := @Pool.Valid.row share P valid any
    rw [hrow, rowOf_beyond (by omega)]

theorem Pool.Valid.row_mem (valid : P.Valid) {i : ℕ} (hi : 1 ≤ i) {v : Backend}
    (h : P.row share i = some v) : ∃ b ∈ P.backends, v = P.value b := by
  by_cases any : P.backends = []
  · rw [row_of_empty any] at h
    cases h
  · obtain ⟨array, l, _, _, _, mem, hrow⟩ := @Pool.Valid.row share P valid any
    rw [hrow] at h
    exact (mem v).1 (mem_of_rowOf hi h)

theorem Pool.Valid.exists_slot (valid : P.Valid) {b : PoolBackend} (hb : b ∈ P.backends) :
    ∃ i, 1 ≤ i ∧ i ≤ 65535 ∧ P.row share i = some (P.value b) := by
  have any : P.backends ≠ [] := List.ne_nil_of_mem hb
  obtain ⟨array, l, _, _, length, mem, hrow⟩ := @Pool.Valid.row share P valid any
  obtain ⟨i, h1, hi, hv⟩ := @exists_rowOf _ (P.header array.length) _ _ ((mem _).2 ⟨b, hb, rfl⟩)
  refine ⟨i, h1, ?_, by rw [hrow, hv]⟩
  unfold initialBackendSize backendReplicas at length
  omega

/-! ### Pools -/

theorem service_key_eq (P : Pool) : P.service.key = P.key.slot := rfl

abbrev MapsMirror (rows : ServiceKey → ℕ → Option Backend) (m : Maps) : Prop :=
  Mirrored ServiceKey.slot 65535 rows (fun _ => True) m

structure Room (ks : Finset Vip) (vs : Finset Backend) (m : Maps) : Prop where
  services : (m.services.keys ∪ ks).card ≤ 1024
  reverse : (m.reverse.keys ∪ vs).card ≤ 1024

def ServiceKey.slots (k : ServiceKey) : Finset Vip :=
  ((List.range (initialBackendSize * backendReplicas + 1)).map k.slot).toFinset

theorem mem_slots (k : ServiceKey) {i : ℕ} (hi : i ≤ initialBackendSize * backendReplicas) :
    k.slot i ∈ k.slots := by
  rw [ServiceKey.slots, List.mem_toFinset]
  exact List.mem_map.2 ⟨i, List.mem_range.2 (by omega), rfl⟩

theorem updateConsistentHashMap_mirrors (h : MapsMirror rows m) (valid : P.Valid)
    (any : P.backends ≠ []) {ks : Finset Vip} (hks : P.key.slots ⊆ ks) {vs : Finset Backend}
    (hvs : ∀ b ∈ P.backends, P.value b ∈ vs) (room : Room ks vs m)
    (beyond : ∀ i, initialBackendSize * backendReplicas < i → i ≤ 65535 → rows P.key i = none)
    (stale : ∀ v i, 1 ≤ i → i ≤ 65535 → m.reverse.entry v = some (P.key.slot i) →
      ∃ b ∈ P.backends, v = P.value b) :
    ∃ m', updateConsistentHashMap share P m = (m', .returns) ∧
      MapsMirror (Function.update rows P.key (P.row share)) m' ∧
      m'.services.keys ∪ ks = m.services.keys ∪ ks ∧
      m'.reverse.keys ∪ vs = m.reverse.keys ∪ vs := by
  obtain ⟨array, l, harray, values, length, mem, hrow⟩ := @Pool.Valid.row share P valid any
  rw [updateConsistentHashMap, harray, hrow]
  dsimp only
  rw [Pool.updateKernelServiceMap, service_key_eq]
  refine h.setRow slot_inj values ?_ (fun i hi => ?_) room.services (fun _ v hv => ?_)
    (fun _ => room.reverse) ?_ ?_ (fun _ _ => Iff.rfl) (by simp)
  · rw [length]
    decide
  · exact hks (mem_slots P.key (by omega))
  · obtain ⟨b, hb, e⟩ := (mem v).1 hv
    rw [e]
    exact hvs b hb
  · rwa [length]
  · intro v i h1 hi hv
    exact ⟨rfl, (mem v).2 (stale v i h1 hi hv)⟩

theorem MapsMirror.named (h : MapsMirror rows m) (valid : P.Valid)
    (hrow : rows P.key = P.row share) {v : Backend} {i : ℕ} (h1 : 1 ≤ i) (hi : i ≤ 65535)
    (hv : m.reverse.entry v = some (P.key.slot i)) : ∃ b ∈ P.backends, v = P.value b := by
  have := h.row_of_reverse slot_inj hi hv
  rw [hrow] at this
  exact valid.row_mem h1 this

theorem mem_ips {b : PoolBackend} (hb : b ∈ P.backends) : b.ip ∈ P.ips :=
  List.mem_map.2 ⟨b, hb, rfl⟩

section AddBackend

variable {conf : BackendConf} {draw : Draw}

theorem mem_withBackend {b : PoolBackend} : b ∈ (P.withBackend conf draw).backends ↔
    b = PoolBackend.ofConf conf ∨ b ∈ P.backends := by
  have perm := draw.order_perm (PoolBackend.ofConf conf :: P.backends)
  exact perm.mem_iff.trans List.mem_cons

theorem length_withBackend :
    (P.withBackend conf draw).backends.length = P.backends.length + 1 :=
  (draw.order_perm (PoolBackend.ofConf conf :: P.backends)).length_eq

theorem ips_withBackend_perm : (P.withBackend conf draw).ips.Perm (conf.ip :: P.ips) :=
  (draw.order_perm (PoolBackend.ofConf conf :: P.backends)).map _

theorem Pool.Valid.withBackend (valid : P.Valid) (new : conf.ip ∉ P.ips)
    (few : P.backends.length < initialBackendSize) (weight : conf.weight ≠ some 0) :
    (P.withBackend conf draw).Valid := by
  have few' : (P.withBackend conf draw).backends.length ≤ initialBackendSize := by
    rw [length_withBackend]
    exact few
  refine ⟨?_, few', fun b hb => ?_, ?_⟩
  · exact ips_withBackend_perm.nodup_iff.2 (List.nodup_cons.2 ⟨new, valid.nodup⟩)
  · rcases mem_withBackend.1 hb with rfl | hb
    · show conf.weight.getD 1 ≠ 0
      cases hw : conf.weight with
      | none => decide
      | some w =>
        rintro rfl
        exact weight hw
    · exact valid.weights b hb
  · apply valid.columns.add
    · have := rows_eq few'
      rw [← this]
      exact draw.shuffle_perm _
    · intro ip hip
      exact List.mem_cons.1 (ips_withBackend_perm.mem_iff.1 hip)

theorem addBackend_mirrors (h : MapsMirror rows m) (valid : P.Valid)
    (hrow : rows P.key = P.row share) (new : conf.ip ∉ P.ips)
    (few : P.backends.length < initialBackendSize) (weight : conf.weight ≠ some 0)
    {ks : Finset Vip} (hks : P.key.slots ⊆ ks) {vs : Finset Backend}
    (hvs : P.value (PoolBackend.ofConf conf) ∈ vs) (room : Room ks vs m) :
    ∃ m', addBackend share P m conf draw = (P.withBackend conf draw, m', .returns) ∧
      (P.withBackend conf draw).Valid ∧
      MapsMirror (Function.update rows P.key ((P.withBackend conf draw).row share)) m' ∧
      Room ks vs m' := by
  -- the other backends are in the map already
  have old : ∀ b ∈ P.backends, P.value b ∈ m.reverse.keys := by
    intro b hb
    obtain ⟨i, h1, hi, hv⟩ := @Pool.Valid.exists_slot share P valid b hb
    rw [← hrow] at hv
    exact h.mem_reverse_keys trivial h1 hi hv
  have all : m.reverse.keys ∪ (vs ∪ (P.backends.map P.value).toFinset) = m.reverse.keys ∪ vs := by
    rw [← Finset.union_assoc, Finset.union_eq_left]
    intro v hv
    rw [List.mem_toFinset, List.mem_map] at hv
    obtain ⟨b, hb, e⟩ := hv
    exact Finset.mem_union_left _ (e ▸ old b hb)
  obtain ⟨m', run, mirrors, services, reverse⟩ := @updateConsistentHashMap_mirrors share
    (P.withBackend conf draw) m rows h (valid.withBackend new few weight)
    (List.ne_nil_of_mem (mem_withBackend.2 (Or.inl rfl))) ks hks
    (vs ∪ (P.backends.map P.value).toFinset) (by
      intro b hb
      rw [Finset.mem_union, List.mem_toFinset, List.mem_map]
      rcases mem_withBackend.1 hb with rfl | hb
      · exact Or.inl hvs
      · exact Or.inr ⟨b, hb, rfl⟩) ⟨room.services, by rw [all]; exact room.reverse⟩ (by
      intro i hi _
      exact (congrFun hrow i).trans (valid.row_beyond hi)) (by
      intro v i h1 hi hv
      obtain ⟨b, hb, e⟩ := MapsMirror.named h valid hrow h1 hi hv
      exact ⟨b, mem_withBackend.2 (Or.inr hb), e⟩)
  refine ⟨m', ?_, valid.withBackend new few weight, mirrors, ?_, ?_⟩
  · rw [addBackend, if_neg new, run]
  · rw [services]
    exact room.services
  · apply le_trans (Finset.card_le_card ?_) room.reverse
    rw [← all, ← reverse]
    exact Finset.union_subset_union_right Finset.subset_union_left

structure NewBackends (confs : List BackendConf) : Prop where
  nodup : (confs.map (·.ip)).Nodup
  few : confs.length ≤ initialBackendSize
  weights : ∀ conf ∈ confs, conf.weight ≠ some 0

theorem addBackendList_mirrors {confs : List BackendConf} {draw : BitVec 32 → Draw}
    (h : MapsMirror rows m) (valid : P.Valid) (hrow : rows P.key = P.row share)
    (nodup : (confs.map (·.ip)).Nodup) (new : ∀ conf ∈ confs, conf.ip ∉ P.ips)
    (few : P.backends.length + confs.length ≤ initialBackendSize)
    (weights : ∀ conf ∈ confs, conf.weight ≠ some 0) {ks : Finset Vip}
    (hks : confs ≠ [] → P.key.slots ⊆ ks) {vs : Finset Backend}
    (hvs : ∀ conf ∈ confs, P.value (PoolBackend.ofConf conf) ∈ vs) (room : Room ks vs m) :
    ∃ P' m', addBackendList share P m draw confs = (P', m', .returns) ∧ P'.Valid ∧
      P'.key = P.key ∧ MapsMirror (Function.update rows P.key (P'.row share)) m' ∧ Room ks vs m' := by
  induction confs generalizing P m rows with
  | nil =>
    refine ⟨P, m, rfl, valid, rfl, ?_, room⟩
    rwa [← hrow, Function.update_eq_self]
  | cons conf confs ih =>
    rw [List.map_cons, List.nodup_cons] at nodup
    rw [List.length_cons] at few
    have hks' : P.key.slots ⊆ ks := hks (List.cons_ne_nil _ _)
    obtain ⟨m₁, run, valid₁, mirrors₁, room₁⟩ := @addBackend_mirrors share P m rows conf
      (draw conf.ip) h valid hrow (new conf List.mem_cons_self) (by omega)
      (weights conf List.mem_cons_self) ks hks' vs (hvs conf List.mem_cons_self) room
    obtain ⟨P', m', run', valid', key', mirrors', room'⟩ := @ih (P.withBackend conf (draw conf.ip)) m₁
      (Function.update rows P.key ((P.withBackend conf (draw conf.ip)).row share)) mirrors₁ valid₁
      (update_self ..) nodup.2 (by
        intro c hc hin
        rcases List.mem_cons.1 (ips_withBackend_perm.mem_iff.1 hin) with e | old
        · exact nodup.1 (e ▸ List.mem_map.2 ⟨c, hc, rfl⟩)
        · exact new c (List.mem_cons_of_mem _ hc) old) (by
        rw [length_withBackend]
        omega) (fun c hc => weights c (List.mem_cons_of_mem _ hc)) (fun _ => hks')
      (fun c hc => hvs c (List.mem_cons_of_mem _ hc)) room₁
    refine ⟨P', m', ?_, valid', key', ?_, room'⟩
    · rw [addBackendList, run]
      exact run'
    · have same : (P.withBackend conf (draw conf.ip)).key = P.key := rfl
      rwa [same, Function.update_idem] at mirrors'

end AddBackend

/-- A backend goes and another one stays: its value must be named as one of another service. -/
theorem delBackend_mirrors (h : MapsMirror rows m) (valid : P.Valid)
    (hrow : rows P.key = P.row share) {ip : BitVec 32} (hip : ip ∈ P.ips)
    (other : ∃ b ∈ P.backends, b.ip ≠ ip)
    (elsewhere : ∀ b ∈ P.backends, b.ip = ip → ∀ i,
      m.reverse.entry (P.value b) ≠ some (P.key.slot i)) :
    ∃ m', delBackend share P m ip = (P.withoutBackend ip, m', .returns) ∧
      (P.withoutBackend ip).Valid ∧
      MapsMirror (Function.update rows P.key ((P.withoutBackend ip).row share)) m' := by
  have mem : ∀ b, b ∈ (P.withoutBackend ip).backends ↔ b ∈ P.backends ∧ b.ip ≠ ip := by
    intro b
    simp [Pool.withoutBackend]
  have valid' : (P.withoutBackend ip).Valid := by
    refine ⟨?_, ?_, fun b hb => valid.weights b ((mem b).1 hb).1, ?_⟩
    · exact valid.nodup.sublist (List.filter_sublist.map _)
    · exact (List.length_filter_le _ _).trans valid.few
    · apply valid.columns.remove
      intro y hy
      obtain ⟨b, hb, e⟩ := List.mem_map.1 hy
      rw [← e]
      exact ⟨mem_ips ((mem b).1 hb).1, ((mem b).1 hb).2⟩
  have any : (P.withoutBackend ip).backends ≠ [] := by
    obtain ⟨b, hb, hne⟩ := other
    exact List.ne_nil_of_mem ((mem b).2 ⟨hb, hne⟩)
  -- all keys are there: those of the service with its old row, and those of the values that stay
  have services : m.services.keys ∪ P.key.slots = m.services.keys := by
    apply Bounded.union_of_subset
    intro k hk
    rw [ServiceKey.slots, List.mem_toFinset] at hk
    obtain ⟨i, hi, e⟩ := List.mem_map.1 hk
    obtain ⟨array, l, _, _, length, _, row_eq⟩ := @Pool.Valid.row share P valid
      (List.ne_nil_of_mem other.choose_spec.1)
    have bound : i ≤ 65535 := by
      have := List.mem_range.1 hi
      unfold initialBackendSize backendReplicas at this
      omega
    rw [← e, h.services P.key i bound, hrow, row_eq, rowOf]
    split
    · exact Option.some_ne_none _
    · rw [List.getElem?_eq_getElem (by
        have := List.mem_range.1 hi
        omega)]
      exact Option.some_ne_none _
  have reverse : m.reverse.keys ∪ (P.backends.map P.value).toFinset = m.reverse.keys := by
    apply Bounded.union_of_subset
    intro v hv
    rw [List.mem_toFinset, List.mem_map] at hv
    obtain ⟨b, hb, e⟩ := hv
    obtain ⟨i, h1, hi, hvi⟩ := @Pool.Valid.exists_slot share P valid b hb
    rw [← hrow] at hvi
    exact e ▸ Mirrored.named h _ _ _ trivial h1 hi hvi
  obtain ⟨m', run, mirrors, _, _⟩ := @updateConsistentHashMap_mirrors share (P.withoutBackend ip) m rows
    h valid' any P.key.slots (Finset.Subset.refl _) (P.backends.map P.value).toFinset (by
      intro b hb
      rw [List.mem_toFinset]
      exact List.mem_map.2 ⟨b, ((mem b).1 hb).1, rfl⟩) ⟨by
        rw [services]
        exact m.services.card_le, by
        rw [reverse]
        exact m.reverse.card_le⟩ (by
      intro i hi _
      exact (congrFun hrow i).trans (valid.row_beyond hi)) (by
      intro v i h1 hi hv
      obtain ⟨b, hb, e⟩ := MapsMirror.named h valid hrow h1 hi hv
      refine ⟨b, (mem b).2 ⟨hb, fun hbi => ?_⟩, e⟩
      rw [e] at hv
      exact elsewhere b hb hbi i hv)
  refine ⟨m', ?_, valid', mirrors⟩
  rw [delBackend, if_pos hip, if_neg any, run]

structure Services.Inv (share : ℕ → ℕ → ℕ → ℕ) (s : Services) : Prop where
  pools : ∀ k P, s.serviceMap k = some P → P.key = k ∧ P.Valid
  mirrors : MapsMirror (rowsOf (Pool.row share) s.serviceMap) s.maps

variable {s s' : Services} {k : ServiceKey}

theorem inv_init : Services.init.Inv share := by
  refine ⟨fun k P h => ?_, mirrored_empty⟩
  cases h

theorem Services.Inv.update (inv : s.Inv share) (valid : P.Valid) (key : P.key = k)
    (mirrors : MapsMirror (Function.update (rowsOf (Pool.row share) s.serviceMap) k (P.row share)) m) :
    Services.Inv share ⟨Function.update s.serviceMap k (some P), m⟩ := by
  refine ⟨fun k' P' h => ?_, ?_⟩
  · dsimp only at h
    by_cases hk : k' = k
    · rw [hk, update_self, Option.some.injEq] at h
      rw [← h, hk]
      exact ⟨key, valid⟩
    · rw [update_of_ne hk] at h
      exact inv.pools k' P' h
  · rwa [rowsOf_update]

theorem Services.Inv.erase (inv : s.Inv share) (h : rowsOf (Pool.row share) s.serviceMap k = fun _ => none) :
    Services.Inv share ⟨Function.update s.serviceMap k none, s.maps⟩ := by
  refine ⟨fun k' P' h' => ?_, ?_⟩
  · dsimp only at h'
    by_cases hk : k' = k
    · rw [hk, update_self] at h'
      cases h'
    · rw [update_of_ne hk] at h'
      exact inv.pools k' P' h'
  · rw [rowsOf_erase h]
    exact inv.mirrors

/-! ### Requests -/

def serviceKeys (vip : BitVec 32) (vport : BitVec 16) : ServiceProto → List ServiceKey
  | .all => [serviceKey vip vport .tcp, serviceKey vip vport .udp, serviceKey vip 0 .icmp]
  | .icmp => if vport ≠ 0 then [] else [serviceKey vip vport .icmp]
  | proto => [serviceKey vip vport proto]

def ServiceKey.value (k : ServiceKey) (conf : BackendConf) : Backend :=
  ⟨conf.ip, bswap16 conf.port, bswap16 k.proto⟩

def RoomFor (s : Services) (keys : List ServiceKey) (confs : List BackendConf) : Prop :=
  confs ≠ [] → Room (keys.toFinset.biUnion ServiceKey.slots)
    (keys.toFinset.biUnion fun k => (confs.map k.value).toFinset) s.maps

/-- The requests that keep both sides in step.
* A service that is added (up to the first one that exists already) has not more backends than the
  columns are for, with different addresses and weights that are not 0, and the maps have room.
* A backend that is added has a weight that is not 0, and there are less than ten, and there is room.
* A backend is only removed when another one stays, and its value is named as one of another service.
* Services are only removed, and their backends, when they have none.
* A new weight leaves the numbers of slots as they are. -/
def Allowed (share : ℕ → ℕ → ℕ → ℕ) (s : Services) : Request → Prop
  | .addService vip vport proto backends _ =>
    let keys := (serviceKeys vip vport proto).takeWhile fun k => (s.serviceMap k).isNone
    keys ≠ [] → NewBackends backends ∧ RoomFor s keys backends
  | .delService vip vport proto =>
    ∀ k ∈ (serviceKeys vip vport proto).takeWhile fun k => (s.serviceMap k).isSome,
      ∀ P, s.serviceMap k = some P → P.backends = []
  | .addBackend key conf _ => ∀ P, s.serviceMap key = some P → conf.ip ∉ P.ips →
    P.backends.length < initialBackendSize ∧ conf.weight ≠ some 0 ∧ RoomFor s [key] [conf]
  | .delBackend key ip => ∀ P, s.serviceMap key = some P → ip ∈ P.ips →
    (∃ b ∈ P.backends, b.ip ≠ ip) ∧ ∀ b ∈ P.backends, b.ip = ip → ∀ i,
      s.maps.reverse.entry (P.value b) ≠ some (key.slot i)
  | .delBackendList key => ∀ P, s.serviceMap key = some P → P.backends = []
  | .setWeight key ip weight => ∀ P, s.serviceMap key = some P → ip ∈ P.ips →
    weight ≠ 0 ∧ getWeightBackend share (P.setWeight ip weight) = getWeightBackend share P

/-- One of the services of a request is added, or it exists already and nothing happens. -/
theorem addOneService_inv {vip : BitVec 32} {vport : BitVec 16} {proto : ServiceProto}
    {confs : List BackendConf} {draw : BitVec 32 → Draw} (inv : s.Inv share)
    {ks : Finset Vip} {vs : Finset Backend} (room : Room ks vs s.maps)
    (new : s.serviceMap (serviceKey vip vport proto) = none → NewBackends confs ∧
      (confs ≠ [] → (serviceKey vip vport proto).slots ⊆ ks) ∧
      ∀ conf ∈ confs, (serviceKey vip vport proto).value conf ∈ vs) :
    (addOneService share s vip vport proto confs draw).1.Inv share ∧
    Room ks vs (addOneService share s vip vport proto confs draw).1.maps ∧
    ((addOneService share s vip vport proto confs draw).2 = .returns →
      s.serviceMap (serviceKey vip vport proto) = none ∧ ∀ k ≠ serviceKey vip vport proto,
        (addOneService share s vip vport proto confs draw).1.serviceMap k = s.serviceMap k) := by
  unfold addOneService
  cases hk : s.serviceMap (serviceKey vip vport proto) with
  | some P =>
    refine ⟨inv, room, fun h => ?_⟩
    cases h
  | none =>
    obtain ⟨backends, hks, hvs⟩ := new hk
    have valid : Pool.Valid ⟨vip, vport, proto, [], []⟩ := by
      refine ⟨List.nodup_nil, Nat.zero_le _, fun b hb => ?_, columns_nil⟩
      cases hb
    obtain ⟨P', m', run, valid', key', mirrors', room'⟩ := @addBackendList_mirrors share
      ⟨vip, vport, proto, [], []⟩ s.maps (rowsOf (Pool.row share) s.serviceMap) confs draw inv.mirrors valid
      ((rowsOf_none hk).trans (row_of_empty rfl).symm) backends.nodup (fun _ _ h => by cases h)
      (by simpa using backends.few) backends.weights ks hks vs hvs room
    rw [run]
    exact ⟨inv.update valid' key' mirrors', room', fun _ =>
      ⟨rfl, fun k hne => update_of_ne hne _ _⟩⟩

theorem RoomFor.room {keys : List ServiceKey} {confs : List BackendConf}
    (room : RoomFor s keys confs) : ∃ ks vs, Room ks vs s.maps ∧ ∀ k ∈ keys,
      (confs ≠ [] → k.slots ⊆ ks) ∧ ∀ conf ∈ confs, k.value conf ∈ vs := by
  by_cases any : confs = []
  · refine ⟨∅, ∅, ⟨?_, ?_⟩, fun k _ => ⟨fun h => absurd any h, fun conf hc => ?_⟩⟩
    · rw [Finset.union_empty]
      exact s.maps.services.card_le
    · rw [Finset.union_empty]
      exact s.maps.reverse.card_le
    · rw [any] at hc
      cases hc
  · refine ⟨_, _, room any, fun k hk => ⟨fun _ => ?_, fun conf hc => ?_⟩⟩
    · exact Finset.subset_biUnion_of_mem ServiceKey.slots (List.mem_toFinset.2 hk)
    · rw [Finset.mem_biUnion]
      exact ⟨k, List.mem_toFinset.2 hk, List.mem_toFinset.2 (List.mem_map.2 ⟨conf, hc, rfl⟩)⟩

theorem andThen_inv {r : Services × Exit} {f : Services → Services × Exit} (first : r.1.Inv share)
    (rest : r.2 = .returns → (f r.1).1.Inv share) : (Services.andThen r f).1.Inv share := by
  unfold Services.andThen
  split
  · next h => exact rest h
  · exact first

theorem serviceKey_ne {vip : BitVec 32} {vport vport' : BitVec 16} {proto proto' : ServiceProto}
    (h : convertProtoToNumber proto ≠ convertProtoToNumber proto') :
    serviceKey vip vport proto ≠ serviceKey vip vport' proto' := by
  intro e
  exact h (congrArg ServiceKey.proto e)

theorem addService_inv {vip : BitVec 32} {vport : BitVec 16} {proto : ServiceProto}
    {confs : List BackendConf} {draw : ServiceProto → BitVec 32 → Draw} (inv : s.Inv share)
    (ok : Allowed share s (.addService vip vport proto confs draw)) :
    (addService share s vip vport proto confs draw).1.Inv share := by
  -- for one service
  have single : ∀ (vport : BitVec 16) (proto : ServiceProto),
      (([serviceKey vip vport proto].takeWhile fun k => (s.serviceMap k).isNone) ≠ [] →
        NewBackends confs ∧ RoomFor s
          ([serviceKey vip vport proto].takeWhile fun k => (s.serviceMap k).isNone) confs) →
      (addOneService share s vip vport proto confs (draw proto)).1.Inv share := by
    intro vport proto ok
    cases hk : s.serviceMap (serviceKey vip vport proto) with
    | some P =>
      unfold addOneService
      rw [hk]
      exact inv
    | none =>
      have keys : ([serviceKey vip vport proto].takeWhile fun k => (s.serviceMap k).isNone) =
          [serviceKey vip vport proto] := by
        simp [List.takeWhile, hk]
      rw [keys] at ok
      obtain ⟨backends, room⟩ := ok (List.cons_ne_nil _ _)
      obtain ⟨ks, vs, room', good⟩ := room.room
      exact (addOneService_inv inv room' fun _ =>
        ⟨backends, good _ List.mem_cons_self⟩).1
  cases proto with
  | tcp => exact single vport .tcp ok
  | udp => exact single vport .udp ok
  | icmp =>
    unfold addService
    by_cases hv : vport ≠ 0
    · rw [if_pos hv]
      exact inv
    · rw [if_neg hv]
      simp only [Allowed, serviceKeys, if_neg hv] at ok
      exact single vport .icmp ok
  | all =>
    unfold addService
    simp only [Allowed, serviceKeys] at ok
    cases htcp : s.serviceMap (serviceKey vip vport .tcp) with
    | some P =>
      apply andThen_inv
      · unfold addOneService
        rw [htcp]
        exact inv
      · intro h
        unfold addOneService at h
        rw [htcp] at h
        cases h
    | none =>
      obtain ⟨backends, room⟩ := ok (by simp [List.takeWhile, htcp])
      obtain ⟨ks, vs, room', good⟩ := room.room
      have mem_tcp : serviceKey vip vport .tcp ∈ [serviceKey vip vport .tcp,
          serviceKey vip vport .udp, serviceKey vip 0 .icmp].takeWhile
            fun k => (s.serviceMap k).isNone := by
        simp [List.takeWhile, htcp]
      obtain ⟨inv₁, room₁, same₁⟩ := @addOneService_inv share s vip vport .tcp confs (draw .tcp) inv
        ks vs room' fun _ => ⟨backends, good _ mem_tcp⟩
      apply andThen_inv inv₁
      intro ret₁
      have udp₁ := (same₁ ret₁).2 (serviceKey vip vport .udp) (serviceKey_ne (by decide))
      obtain ⟨inv₂, room₂, same₂⟩ := @addOneService_inv share _ vip vport .udp confs (draw .udp) inv₁
        ks vs room₁ (by
        intro hudp
        rw [udp₁] at hudp
        exact ⟨backends, good (serviceKey vip vport .udp) (by simp [List.takeWhile, htcp, hudp])⟩)
      apply andThen_inv inv₂
      intro ret₂
      have icmp₁ := (same₁ ret₁).2 (serviceKey vip 0 .icmp) (serviceKey_ne (by decide))
      have icmp₂ := (same₂ ret₂).2 (serviceKey vip 0 .icmp) (serviceKey_ne (by decide))
      have hudp := (same₂ ret₂).1
      rw [udp₁] at hudp
      exact (addOneService_inv inv₂ room₂ (by
        intro hicmp
        rw [icmp₂, icmp₁] at hicmp
        have hicmp' : s.serviceMap (serviceKey vip 0#16 .icmp) = none := hicmp
        exact ⟨backends, good (serviceKey vip 0 .icmp)
          (by simp [List.takeWhile, htcp, hudp, hicmp'])⟩)).1

theorem delOneService_inv (inv : s.Inv share)
    (ok : ∀ P, s.serviceMap k = some P → P.backends = []) :
    (delOneService s k).1.Inv share ∧ ((delOneService s k).2 = .returns →
      s.serviceMap k ≠ none ∧ ∀ k' ≠ k, (delOneService s k).1.serviceMap k' = s.serviceMap k') := by
  unfold delOneService
  cases hk : s.serviceMap k with
  | none =>
    refine ⟨inv, fun h => ?_⟩
    cases h
  | some P =>
    have empty := ok P hk
    dsimp only
    rw [delBackendList, if_pos empty]
    exact ⟨inv.erase ((rowsOf_some hk).trans (row_of_empty empty)), fun _ =>
      ⟨Option.some_ne_none P, fun k' hne => update_of_ne hne _ _⟩⟩

theorem delService_inv {vip : BitVec 32} {vport : BitVec 16} {proto : ServiceProto}
    (inv : s.Inv share) (ok : Allowed share s (.delService vip vport proto)) :
    (delService s vip vport proto).1.Inv share := by
  have single : ∀ k, (∀ k' ∈ ([k].takeWhile fun k => (s.serviceMap k).isSome), ∀ P,
      s.serviceMap k' = some P → P.backends = []) → (delOneService s k).1.Inv share := by
    intro k ok
    refine (delOneService_inv inv fun P hP => ok k ?_ P hP).1
    simp [List.takeWhile, hP]
  cases proto with
  | tcp => exact single _ ok
  | udp => exact single _ ok
  | icmp =>
    unfold delService
    by_cases hv : vport ≠ 0
    · rw [if_pos hv]
      exact inv
    · rw [if_neg hv]
      simp only [Allowed, serviceKeys, if_neg hv] at ok
      exact single _ ok
  | all =>
    unfold delService
    simp only [Allowed, serviceKeys] at ok
    obtain ⟨inv₁, same₁⟩ := @delOneService_inv share s (serviceKey vip vport .tcp) inv fun P hP =>
      ok _ (by simp [List.takeWhile, hP]) P hP
    apply andThen_inv inv₁
    intro ret₁
    obtain ⟨htcp, others₁⟩ := same₁ ret₁
    have tcp_some := Option.isSome_iff_ne_none.2 htcp
    have udp₁ := others₁ (serviceKey vip vport .udp) (serviceKey_ne (by decide))
    obtain ⟨inv₂, same₂⟩ := @delOneService_inv share _ (serviceKey vip vport .udp) inv₁ (by
      intro P hP
      rw [udp₁] at hP
      exact ok (serviceKey vip vport .udp) (by simp [List.takeWhile, tcp_some, hP]) P hP)
    apply andThen_inv inv₂
    intro ret₂
    obtain ⟨hudp, others₂⟩ := same₂ ret₂
    rw [udp₁] at hudp
    have udp_some := Option.isSome_iff_ne_none.2 hudp
    have icmp₁ := others₁ (serviceKey vip 0 .icmp) (serviceKey_ne (by decide))
    have icmp₂ := others₂ (serviceKey vip 0 .icmp) (serviceKey_ne (by decide))
    refine (delOneService_inv inv₂ ?_).1
    intro P hP
    rw [icmp₂, icmp₁] at hP
    have hP' : s.serviceMap (serviceKey vip 0#16 .icmp) = some P := hP
    exact ok (serviceKey vip 0 .icmp) (by simp [List.takeWhile, tcp_some, udp_some, hP']) P hP

theorem onService_inv {f : Pool → Maps → Pool × Maps × Exit} (inv : s.Inv share)
    (ok : ∀ P, s.serviceMap k = some P → (f P s.maps).1.Valid ∧ (f P s.maps).1.key = k ∧
      MapsMirror (Function.update (rowsOf (Pool.row share) s.serviceMap) k ((f P s.maps).1.row share))
        (f P s.maps).2.1) :
    (onService s k f).1.Inv share := by
  unfold onService
  cases hk : s.serviceMap k with
  | none => exact inv
  | some P =>
    obtain ⟨valid, key, mirrors⟩ := ok P hk
    exact inv.update valid key mirrors

theorem Services.Inv.unchanged (inv : s.Inv share) (hk : s.serviceMap k = some P) :
    P.Valid ∧ P.key = k ∧
      MapsMirror (Function.update (rowsOf (Pool.row share) s.serviceMap) k (P.row share)) s.maps := by
  obtain ⟨key, valid⟩ := inv.pools k P hk
  refine ⟨valid, key, ?_⟩
  have hrow := @rowsOf_some _ _ _ (Pool.row share) _ _ _ hk
  rw [← hrow, Function.update_eq_self]
  exact inv.mirrors

theorem addBackend_inv {conf : BackendConf} {draw : Draw} (inv : s.Inv share)
    (ok : Allowed share s (.addBackend k conf draw)) :
    (onService s k fun P m => addBackend share P m conf draw).1.Inv share := by
  apply onService_inv inv
  intro P hk
  by_cases new : conf.ip ∈ P.ips
  · rw [addBackend, if_pos new]
    exact inv.unchanged hk
  · obtain ⟨key, valid⟩ := inv.pools k P hk
    obtain ⟨few, weight, room⟩ := ok P hk new
    obtain ⟨ks, vs, room', good⟩ := room.room
    obtain ⟨hks, hvs⟩ := good k List.mem_cons_self
    have hrow := @rowsOf_some _ _ _ (Pool.row share) _ _ _ hk
    rw [← key] at hks hvs hrow ⊢
    obtain ⟨m', run, valid', mirrors, _⟩ := @addBackend_mirrors share P s.maps
      (rowsOf (Pool.row share) s.serviceMap) conf draw inv.mirrors valid hrow new few weight ks
      (hks (List.cons_ne_nil _ _)) vs (hvs conf List.mem_cons_self) room'
    rw [run]
    exact ⟨valid', rfl, mirrors⟩

theorem delBackend_inv {ip : BitVec 32} (inv : s.Inv share)
    (ok : Allowed share s (.delBackend k ip)) :
    (onService s k fun P m => delBackend share P m ip).1.Inv share := by
  apply onService_inv inv
  intro P hk
  by_cases hip : ip ∈ P.ips
  · obtain ⟨key, valid⟩ := inv.pools k P hk
    obtain ⟨other, elsewhere⟩ := ok P hk hip
    have hrow := @rowsOf_some _ _ _ (Pool.row share) _ _ _ hk
    rw [← key] at elsewhere hrow ⊢
    obtain ⟨m', run, valid', mirrors⟩ := delBackend_mirrors inv.mirrors valid hrow hip other elsewhere
    rw [run]
    exact ⟨valid', rfl, mirrors⟩
  · rw [delBackend, if_neg hip]
    exact inv.unchanged hk

theorem setWeight_inv {ip : BitVec 32} {weight : ℕ} (inv : s.Inv share)
    (ok : Allowed share s (.setWeight k ip weight)) :
    (onService s k fun P m => setWeight P m ip weight).1.Inv share := by
  apply onService_inv inv
  intro P hk
  by_cases hip : ip ∈ P.ips
  · rw [setWeight, if_pos hip]
    obtain ⟨positive, same⟩ := ok P hk hip
    obtain ⟨valid, key, mirrors⟩ := inv.unchanged hk
    have ips : (P.setWeight ip weight).ips = P.ips := by
      unfold Pool.ips Pool.setWeight
      rw [List.map_map]
      apply List.map_congr_left
      intro b _
      dsimp only [Function.comp]
      split <;> rfl
    have service : (P.setWeight ip weight).service = P.service := by
      unfold Pool.service Pool.setWeight
      rw [List.map_map]
      congr 1
      apply List.map_congr_left
      intro b _
      dsimp only [Function.comp]
      split <;> rfl
    have length : (P.setWeight ip weight).backends.length = P.backends.length := List.length_map ..
    have row : (P.setWeight ip weight).row share = P.row share := by
      have empty : (P.setWeight ip weight).backends = [] ↔ P.backends = [] := by
        rw [← List.length_eq_zero_iff, length, List.length_eq_zero_iff]
      have rows : (P.setWeight ip weight).rows = P.rows := by
        rw [Pool.rows, Pool.rows, length]
      have array : getConsistentArray share (P.setWeight ip weight) = getConsistentArray share P := by
        show (getWeightBackend share (P.setWeight ip weight)).bind _ =
          (getWeightBackend share P).bind _
        rw [same, rows]
        rfl
      have value : (P.setWeight ip weight).valueOf = P.valueOf := by
        funext x
        rw [Pool.valueOf, Pool.valueOf, service]
      unfold Pool.row
      simp only [empty, array, value]
      rfl
    refine ⟨⟨?_, ?_, fun b hb => ?_, ?_⟩, key, ?_⟩
    · rw [ips]
      exact valid.nodup
    · rw [length]
      exact valid.few
    · obtain ⟨b', hb', e⟩ := List.mem_map.1 hb
      rw [← e]
      split
      · exact positive
      · exact valid.weights b' hb'
    · rw [ips]
      exact valid.columns
    · rwa [row]
  · rw [setWeight, if_neg hip]
    exact inv.unchanged hk

theorem next_inv (inv : s.Inv share) {r : Request} (ok : Allowed share s r) :
    (s.next share r).Inv share := by
  cases r with
  | addService vip vport proto backends draw => exact addService_inv inv ok
  | delService vip vport proto => exact delService_inv inv ok
  | addBackend key conf draw => exact addBackend_inv inv ok
  | delBackend key ip => exact delBackend_inv inv ok
  | delBackendList key =>
    apply onService_inv inv
    intro P hk
    rw [delBackendList, if_pos (ok P hk)]
    exact inv.unchanged hk
  | setWeight key ip weight => exact setWeight_inv inv ok

/-! ### Runs -/

def Vip.service (k : Vip) : ServiceKey := ⟨k.ip, bswap16 k.port, bswap16 k.proto⟩

/-- The maps mirror the services.  The first one has for each service with backends the size of its
consistent array at index 0 and after it the backends in the array, and nothing else.  All places of
the array have a backend of the service, and each backend has one.  The second map has an entry for
each backend of a service, and for nothing else, and it names a slot with the backend. -/
structure Mirrors (share : ℕ → ℕ → ℕ → ℕ) (s : Services) : Prop where
  services : ∀ k, s.maps.services.entry k = rowsOf (Pool.row share) s.serviceMap k.service k.index.toNat
  filled : ∀ k P, s.serviceMap k = some P → P.backends ≠ [] → ∃ l : List (BitVec 32),
    getConsistentArray share P = some (l.map some) ∧ ∀ ip, ip ∈ l ↔ ip ∈ P.ips
  backendToService : ∀ v, s.maps.reverse.entry v ≠ none ↔
    ∃ k P, s.serviceMap k = some P ∧ ∃ b ∈ P.backends, v = P.value b
  named : ∀ v k, s.maps.reverse.entry v = some k →
    k.index ≠ 0 ∧ s.maps.services.entry k = some v

theorem slot_service (k : Vip) : k = k.service.slot k.index.toNat := by
  simp [ServiceKey.slot, Vip.service]

theorem Services.Inv.toMirrors (inv : s.Inv share) : Mirrors share s := by
  refine ⟨fun k => ?_, fun k P hk any => ?_, fun v => ⟨fun h => ?_, ?_⟩, fun v k h => ?_⟩
  · have bound : k.index.toNat ≤ 65535 := by
      have := k.index.isLt
      omega
    rw [← inv.mirrors.services k.service k.index.toNat bound, ← slot_service]
  · exact (inv.pools k P hk).2.array any
  · obtain ⟨key, hkey⟩ := Option.ne_none_iff_exists'.1 h
    obtain ⟨k, i, _, h1, _, _, hrow⟩ := inv.mirrors.reverse v key hkey
    cases hk : s.serviceMap k with
    | none =>
      rw [rowsOf_none hk] at hrow
      cases hrow
    | some P =>
      rw [rowsOf_some hk] at hrow
      exact ⟨k, P, hk, (inv.pools k P hk).2.row_mem h1 hrow⟩
  · rintro ⟨k, P, hk, b, hb, rfl⟩
    obtain ⟨i, h1, hi, hrow⟩ := @Pool.Valid.exists_slot share P (inv.pools k P hk).2 b hb
    rw [← @rowsOf_some _ _ _ (Pool.row share) _ _ _ hk] at hrow
    exact Mirrored.named inv.mirrors k i _ trivial h1 hi hrow
  · obtain ⟨s', i, _, h1, hi, e, hrow⟩ := inv.mirrors.reverse v k h
    rw [e, inv.mirrors.services s' i hi]
    refine ⟨fun zero => ?_, hrow⟩
    have index := congrArg BitVec.toNat zero
    rw [ServiceKey.slot, BitVec.toNat_ofNat, Nat.mod_eq_of_lt (by omega)] at index
    have : i = 0 := index
    omega

/-- In every run of requests that keep both sides in step, the maps mirror the services. -/
theorem maps_mirror_services {requests : List Request}
    (meets : Meets (Services.next share) (Allowed share) Services.init requests) :
    Mirrors share (run (Services.next share) Services.init requests) := by
  have inv : (run (Services.next share) Services.init requests).Inv share :=
    @run_induction _ _ (Services.next share) (Services.Inv share) (Allowed share)
      (fun _ _ inv ok => next_inv inv ok) _ _ inv_init meets
  exact inv.toMirrors

def floorShare (rows sum weight : ℕ) : ℕ := weight * rows / sum

theorem range_perm_range (n : ℕ) : (List.range n).Perm (List.range n) := List.Perm.refl _

theorem backends_perm (backends : List PoolBackend) : backends.Perm backends := List.Perm.refl _

def plainDraw : Draw where
  shuffle := List.range
  shuffle_perm := range_perm_range
  order backends := backends
  order_perm := backends_perm

def addWeb : Request :=
  .addService 0x0100000A 80 .tcp [⟨0x0200000A, 8080, none⟩] fun _ _ => plainDraw

def addSecond : Request :=
  .addBackend ⟨0x0100000A, 80, 6⟩ ⟨0x0300000A, 8080, some 5⟩ plainDraw

/-- A service is added, with a backend and then another one. -/
theorem web_maps_mirror : Mirrors floorShare
    (run (Services.next floorShare) Services.init [addWeb, addSecond]) := by
  have first : Allowed floorShare Services.init addWeb := by
    refine fun _ => ⟨⟨by decide, by decide, by decide⟩, fun _ => ⟨?_, ?_⟩⟩
    · decide +kernel
    · decide +kernel
  have second : Allowed floorShare (Services.init.next floorShare addWeb) addSecond := by
    intro P hP _
    have stored : (Services.init.next floorShare addWeb).serviceMap ⟨0x0100000A, 80, 6⟩ =
        some ⟨0x0100000A, 80, .tcp, [⟨⟨0x0200000A, 8080⟩, 1⟩],
          [(0x0200000A, some (List.range 30))]⟩ := by
      rfl
    rw [stored, Option.some.injEq] at hP
    rw [← hP]
    refine ⟨by decide, by decide, fun _ => ⟨?_, ?_⟩⟩
    · decide +kernel
    · decide +kernel
  exact maps_mirror_services ⟨first, second, trivial⟩

/-- The service is removed again.  Its last slot stays, with the backend. -/
theorem slot_of_removed_service : ¬ Mirrors floorShare (run (Services.next floorShare) Services.init
    [addWeb, .delService 0x0100000A 80 .tcp]) := by
  intro h
  have slot := h.services ⟨0x0100000A, 0x5000, 0x0600, 30⟩
  have stays : (run (Services.next floorShare) Services.init
      [addWeb, .delService 0x0100000A 80 .tcp]).maps.services.entry
        ⟨0x0100000A, 0x5000, 0x0600, 30⟩ = some ⟨0x0200000A, 0x901F, 0x0600⟩ := by
    decide +kernel
  rw [stays, rowsOf_none] at slot
  · cases slot
  · rfl

end Polycube.Lbrp
