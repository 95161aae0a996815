import Polycube.Lbrp.Arrays
import Polycube.Lbrp.Mirror
import Polycube.Lib.Plans

/-!
# A service for all protocols

`addService` with `ALL` adds three services, one after the other, and nothing is taken back when one
of them throws.  The constructor of a service writes a row for each backend, so what it does to the
maps is a plan of writes.
-/

namespace Polycube.Lbrp

open Function Lib

section Plans

variable (share : ℕ → ℕ → ℕ → ℕ)

/-- `updateConsistentHashMap` -/
def Pool.updatePlan (P : Pool) : Plan Vip Backend :=
  match getConsistentArray share P with
  | none => ([], .undefined)
  | some array => rowPlan P.service.key P.valueOf noEntriesError (P.header array.length) array

def addBackendPlan (P : Pool) (conf : BackendConf) (draw : Draw) : Plan Vip Backend :=
  if conf.ip ∈ P.ips then
    ([], .throws ("Backend " ++ String.ofList (dotted conf.ip) ++
      " already exists in the service map"))
  else (P.withBackend conf draw).updatePlan share

def addBackendListPlan (P : Pool) (draw : BitVec 32 → Draw) : List BackendConf → Plan Vip Backend
  | [] => ([], .returns)
  | conf :: confs => (addBackendPlan share P conf (draw conf.ip)).andThen
      (addBackendListPlan (P.withBackend conf (draw conf.ip)) draw confs)

variable (vip : BitVec 32) (vport : BitVec 16) (backends : List BackendConf)

def portFor : ServiceProto → BitVec 16
  | .icmp => 0
  | _ => vport

def keyFor (proto : ServiceProto) : ServiceKey := serviceKey vip (portFor vport proto) proto

def newPool (proto : ServiceProto) (draw : BitVec 32 → Draw) : Pool :=
  (Pool.empty vip (portFor vport proto) proto).withBackends draw backends

def servicePlan (proto : ServiceProto) (draw : BitVec 32 → Draw) : Plan Vip Backend :=
  addBackendListPlan share (Pool.empty vip (portFor vport proto) proto) draw backends

variable (draw : ServiceProto → BitVec 32 → Draw)

def allPlan : Plan Vip Backend :=
  (servicePlan share vip vport backends .tcp (draw .tcp)).andThen
    ((servicePlan share vip vport backends .udp (draw .udp)).andThen
      (servicePlan share vip vport backends .icmp (draw .icmp)))

def InKernel (P : Pool) (m : Maps) : Prop :=
  P.backends = [] ∨ ∃ array l, getConsistentArray share P = some array ∧
    array.map (·.bind P.valueOf) = l.map some ∧ Row P.service.key (P.header array.length) l m

def Created (s : Services) (proto : ServiceProto) : Prop :=
  ∃ P, s.serviceMap (keyFor vip vport proto) = some P ∧
    P.vip = vip ∧ P.vport = portFor vport proto ∧ P.proto = proto ∧
    P.backends.Perm (backends.map PoolBackend.ofConf) ∧ InKernel share P s.maps

structure AllCreated (s s' : Services) : Prop where
  created : ∀ proto ≠ ServiceProto.all, Created share vip vport backends s' proto
  others : ∀ k, (∀ proto ≠ ServiceProto.all, k ≠ keyFor vip vport proto) →
    s'.serviceMap k = s.serviceMap k

def AllOrNothing (s : Services) (r : Services × Exit) : Prop :=
  match r.2 with
  | .returns => AllCreated share vip vport backends s r.1
  | .throws _ => r.1.serviceMap = s.serviceMap ∧ r.1.maps.entries = s.maps.entries
  | _ => False

/-- All three services are new, their constructors have nothing to complain of, and the maps have
room for what they write. -/
structure Addable (s : Services) : Prop where
  free : ∀ proto ≠ ServiceProto.all, s.serviceMap (keyFor vip vport proto) = none
  returns : (allPlan share vip vport backends draw).2 = .returns
  fits : s.maps.Fits (allPlan share vip vport backends draw).1

structure FailsIdle (s : Services) : Prop where
  free : s.serviceMap (keyFor vip vport .tcp) = none
  idle : s.maps.Idle (servicePlan share vip vport backends .tcp (draw .tcp)).1
  fails : ¬ s.maps.Fits (servicePlan share vip vport backends .tcp (draw .tcp)).1 ∨
    ∃ what, (servicePlan share vip vport backends .tcp (draw .tcp)).2 = .throws what

end Plans

variable {share : ℕ → ℕ → ℕ → ℕ} {P : Pool} {m m' : Maps} {s : Services}

theorem updateConsistentHashMap_eq :
    updateConsistentHashMap share P m = ServiceMaps.exec (P.updatePlan share) m := by
  unfold updateConsistentHashMap Pool.updatePlan
  cases getConsistentArray share P with
  | none => rfl
  | some array => exact setRow_eq_exec

theorem addBackend_eq (conf : BackendConf) (draw : Draw) :
    (addBackend share P m conf draw).2 = ServiceMaps.exec (addBackendPlan share P conf draw) m := by
  unfold addBackend addBackendPlan
  split
  · rfl
  · exact updateConsistentHashMap_eq

theorem addBackend_pool {conf : BackendConf} {draw : Draw}
    (h : (addBackend share P m conf draw).2 = (m', .returns)) :
    (addBackend share P m conf draw).1 = P.withBackend conf draw := by
  unfold addBackend at h ⊢
  split
  · rename_i known
    rw [if_pos known] at h
    cases h
  · rfl

theorem addBackendList_eq (draw : BitVec 32 → Draw) (confs : List BackendConf) :
    (addBackendList share P m draw confs).2 =
        ServiceMaps.exec (addBackendListPlan share P draw confs) m ∧
      ((addBackendList share P m draw confs).2.2 = .returns →
        (addBackendList share P m draw confs).1 = P.withBackends draw confs) := by
  induction confs generalizing P m with
  | nil => exact ⟨rfl, fun _ => rfl⟩
  | cons conf confs ih =>
    have pool := @addBackend_pool share P m
    unfold addBackendList addBackendListPlan
    rw [ServiceMaps.exec_andThen, ← addBackend_eq]
    cases added : addBackend share P m conf (draw conf.ip) with
    | mk P₁ r =>
      obtain ⟨m₁, e⟩ := r
      cases e with
      | returns =>
        obtain rfl : P₁ = P.withBackend conf (draw conf.ip) := by
          rw [← pool (congrArg Prod.snd added), added]
        exact ih
      | throws _ | undefined | terminates => exact ⟨rfl, fun h => by cases h⟩

theorem withBackends_fields (draw : BitVec 32 → Draw) (confs : List BackendConf) :
    (P.withBackends draw confs).vip = P.vip ∧ (P.withBackends draw confs).vport = P.vport ∧
      (P.withBackends draw confs).proto = P.proto := by
  induction confs generalizing P with
  | nil => exact ⟨rfl, rfl, rfl⟩
  | cons conf confs ih => exact ih

theorem updatePlan_row (h : ServiceMaps.exec (P.updatePlan share) m = (m', .returns)) :
    InKernel share P m' := by
  rw [← updateConsistentHashMap_eq] at h
  unfold updateConsistentHashMap at h
  cases array : getConsistentArray share P with
  | none =>
    rw [array] at h
    cases h
  | some slots =>
    rw [array] at h
    obtain ⟨l, values, row⟩ := setRow_row (N := 65535)
      (fun i j hi hj e => (slot_inj P.key P.key i j hi hj e).2) (by decide) h
    exact .inr ⟨slots, l, array, values, row⟩

theorem addBackendListPlan_row (draw : BitVec 32 → Draw) (confs : List BackendConf)
    (start : InKernel share P m)
    (h : ServiceMaps.exec (addBackendListPlan share P draw confs) m = (m', .returns)) :
    InKernel share (P.withBackends draw confs) m' := by
  induction confs generalizing P m with
  | nil =>
    obtain rfl : m = m' := (Prod.mk.inj h).1
    exact start
  | cons conf confs ih =>
    unfold addBackendListPlan at h
    rw [ServiceMaps.exec_andThen] at h
    split at h
    · rename_i m₁ added
      refine ih ?_ h
      unfold addBackendPlan at added
      split at added
      · cases added
      · exact updatePlan_row added
    · rename_i failed
      exact absurd h (failed m')

def writeProto : Write Vip Backend → BitVec 16
  | .service k _ => k.proto
  | .reverse v _ => v.proto

theorem valueOf_proto {ip : BitVec 32} {v : Backend} (h : P.valueOf ip = some v) :
    v.proto = bswap16 (convertProtoToNumber P.proto) := by
  obtain ⟨b, -, rfl⟩ := Option.map_eq_some_iff.1 h
  rfl

theorem updatePlan_proto {w : Write Vip Backend} (h : w ∈ (P.updatePlan share).1) :
    writeProto w = bswap16 (convertProtoToNumber P.proto) := by
  unfold Pool.updatePlan at h
  split at h
  · cases h
  · rcases List.mem_cons.1 h with rfl | h
    · rfl
    · obtain ⟨i, v, ip, read, rfl | rfl⟩ := mem_slotPlan h
      · rfl
      · exact valueOf_proto read

theorem addBackendListPlan_proto {draw : BitVec 32 → Draw} {confs : List BackendConf}
    {w : Write Vip Backend} (h : w ∈ (addBackendListPlan share P draw confs).1) :
    writeProto w = bswap16 (convertProtoToNumber P.proto) := by
  induction confs generalizing P with
  | nil => cases h
  | cons conf confs ih =>
    rcases Plan.mem_andThen h with h | h
    · unfold addBackendPlan at h
      split at h
      · cases h
      · have same := updatePlan_proto h
        exact same
    · have same := ih h
      exact same

variable {vip : BitVec 32} {vport : BitVec 16} {backends : List BackendConf}
  {draw : ServiceProto → BitVec 32 → Draw} {proto proto' : ServiceProto}

/-- A constructor leaves the row of a service for another protocol. -/
theorem InKernel.frame (h : InKernel share P m) (draw : BitVec 32 → Draw)
    (apart : bswap16 (convertProtoToNumber P.proto) ≠ bswap16 (convertProtoToNumber proto))
    (done : ServiceMaps.exec (servicePlan share vip vport backends proto draw) m = (m', .returns)) :
    InKernel share P m' := by
  obtain ⟨services, reverse⟩ :=
    ServiceMaps.perform_frame (servicePlan share vip vport backends proto draw).1 m
  rw [← ServiceMaps.exec_fst, done] at services reverse
  rcases h with empty | ⟨array, l, found, values, row⟩
  · exact .inl empty
  · refine .inr ⟨array, l, found, values, row.congr (fun i => ?_) fun v hv => ?_⟩
    · apply services
      intro hk
      obtain ⟨v, hv⟩ := mem_serviceKeys.1 hk
      exact apart (addBackendListPlan_proto hv)
    · apply reverse
      intro hk
      obtain ⟨k, hk⟩ := mem_reverseKeys.1 hk
      obtain ⟨slot, -, read⟩ : ∃ slot ∈ array, slot.bind P.valueOf = some v := by
        rw [← List.mem_map, values]
        exact List.mem_map_of_mem hv
      obtain ⟨ip, -, read⟩ := Option.bind_eq_some_iff.1 read
      exact apart ((valueOf_proto read).symm.trans (addBackendListPlan_proto hk))

theorem addOneService_taken (taken : s.serviceMap (keyFor vip vport proto) ≠ none)
    (draw : BitVec 32 → Draw) :
    addOneService share s vip (portFor vport proto) proto backends draw =
      (s, .throws "This service already exists") := by
  obtain ⟨P, hP⟩ := Option.ne_none_iff_exists'.1 taken
  unfold addOneService
  rw [show s.serviceMap (serviceKey vip (portFor vport proto) proto) = some P from hP]

theorem addOneService_free (free : s.serviceMap (keyFor vip vport proto) = none)
    (draw : BitVec 32 → Draw) :
    addOneService share s vip (portFor vport proto) proto backends draw =
      match ServiceMaps.exec (servicePlan share vip vport backends proto draw) s.maps with
      | (m, .returns) => (⟨update s.serviceMap (keyFor vip vport proto)
          (some (newPool vip vport backends proto draw)), m⟩, .returns)
      | (m, e) => (⟨s.serviceMap, m⟩, e) := by
  have free : s.serviceMap (serviceKey vip (portFor vport proto) proto) = none := free
  obtain ⟨plan, pool⟩ := @addBackendList_eq share (Pool.empty vip (portFor vport proto) proto)
    s.maps draw backends
  unfold addOneService servicePlan
  rw [free, ← plan]
  have start : (⟨vip, portFor vport proto, proto, [], []⟩ : Pool) =
      Pool.empty vip (portFor vport proto) proto := rfl
  rw [start]
  cases added : addBackendList share (Pool.empty vip (portFor vport proto) proto) s.maps draw
      backends with
  | mk P r =>
    obtain ⟨m, e⟩ := r
    rw [added] at pool
    cases e with
    | returns =>
      obtain rfl : P = _ := pool rfl
      rfl
    | throws _ | undefined | terminates => rfl

/-! ### All three -/

theorem number_injective : Function.Injective convertProtoToNumber := by
  intro a b
  cases a <;> cases b <;> decide

theorem keyFor_ne (h : proto ≠ proto') : keyFor vip vport proto ≠ keyFor vip vport proto' :=
  serviceKey_ne fun e => h (number_injective e)

theorem addAll_eq : addService share s vip vport .all backends draw =
    Services.andThen (addOneService share s vip (portFor vport .tcp) .tcp backends (draw .tcp)) fun s =>
    Services.andThen (addOneService share s vip (portFor vport .udp) .udp backends (draw .udp)) fun s =>
    addOneService share s vip (portFor vport .icmp) .icmp backends (draw .icmp) := rfl

theorem addOneService_returns {s' : Services} {draw : BitVec 32 → Draw} :
    addOneService share s vip (portFor vport proto) proto backends draw = (s', .returns) ↔
      s.serviceMap (keyFor vip vport proto) = none ∧
      ServiceMaps.exec (servicePlan share vip vport backends proto draw) s.maps =
        (s'.maps, .returns) ∧
      s'.serviceMap = update s.serviceMap (keyFor vip vport proto)
        (some (newPool vip vport backends proto draw)) := by
  by_cases free : s.serviceMap (keyFor vip vport proto) = none
  · rw [addOneService_free free, and_iff_right free]
    cases ran : ServiceMaps.exec (servicePlan share vip vport backends proto draw) s.maps with
    | mk m e =>
      obtain ⟨serviceMap, maps⟩ := s'
      cases e with
      | returns =>
        constructor
        · intro h
          cases h
          exact ⟨rfl, rfl⟩
        · rintro ⟨h, h'⟩
          cases h
          dsimp only at h' ⊢
          rw [h']
      | throws _ | undefined | terminates =>
        refine iff_of_false (fun h => by cases h) fun h => by cases h.1
  · rw [addOneService_taken free]
    exact iff_of_false (fun h => by cases h) fun h => free h.1

theorem created_newPool (draw : BitVec 32 → Draw) {s' : Services}
    (stored : s'.serviceMap (keyFor vip vport proto) = some (newPool vip vport backends proto draw))
    (row : InKernel share (newPool vip vport backends proto draw) s'.maps) :
    Created share vip vport backends s' proto := by
  obtain ⟨hvip, hvport, hproto⟩ :=
    withBackends_fields (P := Pool.empty vip (portFor vport proto) proto) draw backends
  exact ⟨_, stored, hvip, hvport, hproto, backends_withBackends _ _ _, row⟩

theorem newPool_row {draw : BitVec 32 → Draw}
    (h : ServiceMaps.exec (servicePlan share vip vport backends proto draw) m = (m', .returns)) :
    InKernel share (newPool vip vport backends proto draw) m' :=
  addBackendListPlan_row draw backends (.inl rfl) h

theorem newPool_proto (draw : BitVec 32 → Draw) :
    (newPool vip vport backends proto draw).proto = proto :=
  (withBackends_fields draw backends).2.2

theorem andThen_returns {r : Services × Exit} {f : Services → Services × Exit} {s' : Services} :
    Services.andThen r f = (s', .returns) ↔
      ∃ s₁, r = (s₁, .returns) ∧ f s₁ = (s', .returns) := by
  obtain ⟨s₁, e⟩ := r
  unfold Services.andThen
  cases e with
  | returns =>
    constructor
    · exact fun h => ⟨s₁, rfl, h⟩
    · rintro ⟨_, ⟨⟩, h⟩
      exact h
  | throws _ | undefined | terminates =>
    refine iff_of_false (fun h => by cases h) ?_
    rintro ⟨_, ⟨⟩, -⟩

def withPool (serviceMap : Table ServiceKey Pool) (vip : BitVec 32) (vport : BitVec 16)
    (backends : List BackendConf) (draw : ServiceProto → BitVec 32 → Draw) (proto : ServiceProto) :
    Table ServiceKey Pool :=
  update serviceMap (keyFor vip vport proto)
    (some (newPool vip vport backends proto (draw proto)))

theorem withPool_self {serviceMap : Table ServiceKey Pool} :
    withPool serviceMap vip vport backends draw proto (keyFor vip vport proto) =
      some (newPool vip vport backends proto (draw proto)) :=
  update_self ..

theorem withPool_of_ne {serviceMap : Table ServiceKey Pool} {k : ServiceKey}
    (h : k ≠ keyFor vip vport proto) :
    withPool serviceMap vip vport backends draw proto k = serviceMap k :=
  update_of_ne h _ _

theorem addAll_returns {s' : Services} :
    addService share s vip vport .all backends draw = (s', .returns) ↔
      (∀ proto ≠ ServiceProto.all, s.serviceMap (keyFor vip vport proto) = none) ∧
      (∃ m₁ m₂, ServiceMaps.exec (servicePlan share vip vport backends .tcp (draw .tcp)) s.maps =
          (m₁, .returns) ∧
        ServiceMaps.exec (servicePlan share vip vport backends .udp (draw .udp)) m₁ =
          (m₂, .returns) ∧
        ServiceMaps.exec (servicePlan share vip vport backends .icmp (draw .icmp)) m₂ =
          (s'.maps, .returns)) ∧
      s'.serviceMap = withPool (withPool (withPool s.serviceMap vip vport backends draw .tcp)
        vip vport backends draw .udp) vip vport backends draw .icmp := by
  have tcp_udp : keyFor vip vport .udp ≠ keyFor vip vport .tcp := keyFor_ne (by decide)
  have tcp_icmp : keyFor vip vport .icmp ≠ keyFor vip vport .tcp := keyFor_ne (by decide)
  have udp_icmp : keyFor vip vport .icmp ≠ keyFor vip vport .udp := keyFor_ne (by decide)
  rw [addAll_eq, andThen_returns]
  simp only [andThen_returns, addOneService_returns]
  constructor
  · rintro ⟨s₁, ⟨tcp, ran₁, stored₁⟩, s₂, ⟨udp, ran₂, stored₂⟩, icmp, ran₃, stored₃⟩
    rw [stored₁, update_of_ne tcp_udp] at udp
    rw [stored₂, stored₁, update_of_ne udp_icmp, update_of_ne tcp_icmp] at icmp
    rw [stored₂, stored₁] at stored₃
    refine ⟨?_, ⟨s₁.maps, s₂.maps, ran₁, ran₂, ran₃⟩, stored₃⟩
    intro proto one
    cases proto with
    | icmp => exact icmp
    | tcp => exact tcp
    | udp => exact udp
    | all => exact absurd rfl one
  · rintro ⟨free, ⟨m₁, m₂, ran₁, ran₂, ran₃⟩, stored⟩
    have tcp := free .tcp (by decide)
    have udp := free .udp (by decide)
    have icmp := free .icmp (by decide)
    let first := withPool s.serviceMap vip vport backends draw .tcp
    let second := withPool first vip vport backends draw .udp
    have udp : first (keyFor vip vport .udp) = none := (withPool_of_ne tcp_udp).trans udp
    have icmp : second (keyFor vip vport .icmp) = none :=
      (withPool_of_ne udp_icmp).trans ((withPool_of_ne tcp_icmp).trans icmp)
    exact ⟨⟨first, m₁⟩, ⟨tcp, ran₁, rfl⟩, ⟨second, m₂⟩, ⟨udp, ran₂, rfl⟩, icmp, ran₃, stored⟩

theorem addable_iff : Addable share vip vport backends draw s ↔
    (addService share s vip vport .all backends draw).2 = .returns := by
  constructor
  · rintro ⟨free, returns, fits⟩
    have ran := ServiceMaps.exec_returns_iff.2 ⟨returns, fits⟩
    obtain ⟨m₁, ran₁, ran⟩ := ServiceMaps.exec_andThen_returns.1 (Prod.ext rfl ran)
    obtain ⟨m₂, ran₂, ran₃⟩ := ServiceMaps.exec_andThen_returns.1 ran
    let all := withPool (withPool (withPool s.serviceMap vip vport backends draw .tcp)
      vip vport backends draw .udp) vip vport backends draw .icmp
    let s' : Services :=
      ⟨all, (ServiceMaps.exec (allPlan share vip vport backends draw) s.maps).1⟩
    have added : addService share s vip vport .all backends draw = (s', .returns) :=
      addAll_returns.2 ⟨free, ⟨m₁, m₂, ran₁, ran₂, ran₃⟩, rfl⟩
    rw [added]
  · intro h
    obtain ⟨free, ⟨m₁, m₂, ran₁, ran₂, ran₃⟩, -⟩ := addAll_returns.1 (Prod.ext rfl h)
    have ran := ServiceMaps.exec_andThen_returns.2
      ⟨m₁, ran₁, ServiceMaps.exec_andThen_returns.2 ⟨m₂, ran₂, ran₃⟩⟩
    obtain ⟨returns, fits⟩ := ServiceMaps.exec_returns_iff.1 (congrArg Prod.snd ran)
    exact ⟨free, returns, fits⟩

theorem allCreated_of_returns {s' : Services}
    (h : addService share s vip vport .all backends draw = (s', .returns)) :
    AllCreated share vip vport backends s s' := by
  obtain ⟨free, ⟨m₁, m₂, ran₁, ran₂, ran₃⟩, stored⟩ := addAll_returns.1 h
  have tcp_udp : keyFor vip vport .tcp ≠ keyFor vip vport .udp := keyFor_ne (by decide)
  have tcp_icmp : keyFor vip vport .tcp ≠ keyFor vip vport .icmp := keyFor_ne (by decide)
  have udp_icmp : keyFor vip vport .udp ≠ keyFor vip vport .icmp := keyFor_ne (by decide)
  have apart (proto proto' : ServiceProto) (d : BitVec 32 → Draw) (h : proto ≠ proto') :
      bswap16 (convertProtoToNumber (newPool vip vport backends proto d).proto) ≠
        bswap16 (convertProtoToNumber proto') := by
    rw [newPool_proto]
    exact fun e => h (number_injective (bswap16_injective e))
  constructor
  · intro proto one
    cases proto with
    | tcp =>
      refine created_newPool (draw .tcp) ?_ ?_
      · rw [stored, withPool_of_ne tcp_icmp, withPool_of_ne tcp_udp, withPool_self]
      · exact ((newPool_row ran₁).frame _ (apart _ _ _ (by decide)) ran₂).frame _
          (apart _ _ _ (by decide)) ran₃
    | udp =>
      refine created_newPool (draw .udp) ?_ ?_
      · rw [stored, withPool_of_ne udp_icmp, withPool_self]
      · exact (newPool_row ran₂).frame _ (apart _ _ _ (by decide)) ran₃
    | icmp =>
      refine created_newPool (draw .icmp) ?_ (newPool_row ran₃)
      rw [stored, withPool_self]
    | all => exact absurd rfl one
  · intro k hk
    rw [stored, withPool_of_ne (hk .icmp (by decide)), withPool_of_ne (hk .udp (by decide)),
      withPool_of_ne (hk .tcp (by decide))]

theorem addOneService_keeps {k : ServiceKey} (h : s.serviceMap k ≠ none) (draw : BitVec 32 → Draw) :
    (addOneService share s vip (portFor vport proto) proto backends draw).1.serviceMap k ≠ none := by
  by_cases free : s.serviceMap (keyFor vip vport proto) = none
  · rw [addOneService_free free]
    split
    · dsimp only
      by_cases same : k = keyFor vip vport proto
      · rw [same, update_self]
        exact Option.some_ne_none _
      · rwa [update_of_ne same]
    · exact h
  · rw [addOneService_taken free]
    exact h

/-- Once the first service is stored it is not taken back. -/
theorem addAll_keeps {s₁ : Services}
    (h : addOneService share s vip (portFor vport .tcp) .tcp backends (draw .tcp) = (s₁, .returns)) :
    (addService share s vip vport .all backends draw).1.serviceMap (keyFor vip vport .tcp) ≠
      none := by
  have stored : s₁.serviceMap (keyFor vip vport .tcp) ≠ none := by
    rw [(addOneService_returns.1 h).2.2, update_self]
    exact Option.some_ne_none _
  rw [addAll_eq, h]
  unfold Services.andThen
  dsimp only
  have udp := @addOneService_keeps share s₁ vip vport backends .udp _ stored (draw .udp)
  split
  · exact addOneService_keeps udp (draw .icmp)
  · exact udp

theorem allOrNothing_of_free (free : s.serviceMap (keyFor vip vport .tcp) = none)
    (fails : (addService share s vip vport .all backends draw).2 ≠ .returns) :
    AllOrNothing share vip vport backends s (addService share s vip vport .all backends draw) ↔
      FailsIdle share vip vport backends draw s := by
  have one := @addOneService_free share s vip vport backends .tcp free (draw .tcp)
  cases ran : ServiceMaps.exec (servicePlan share vip vport backends .tcp (draw .tcp)) s.maps with
  | mk m e =>
    rw [ran] at one
    have unchanged := @ServiceMaps.perform_unchanged_iff _ _ _ _ _ s.maps
      (servicePlan share vip vport backends .tcp (draw .tcp)).1
    rw [← ServiceMaps.exec_fst, ran] at unchanged
    have throws := ServiceMaps.exec_throws_iff (m := s.maps)
      (p := servicePlan share vip vport backends .tcp (draw .tcp))
    rw [ran] at throws
    cases e with
    | returns =>
      refine iff_of_false ?_ ?_
      · have stored := addAll_keeps one
        unfold AllOrNothing
        split
        · rename_i returns
          exact absurd returns fails
        · rintro ⟨same, -⟩
          exact stored ((congrFun same _).trans free)
        · exact id
      · rintro ⟨-, -, failed⟩
        obtain ⟨_, ⟨⟩⟩ := throws.2 failed
    | throws what =>
      rw [addAll_eq, one]
      constructor
      · rintro ⟨-, same⟩
        exact ⟨free, unchanged.1 same, throws.1 ⟨what, rfl⟩⟩
      · exact fun h => ⟨rfl, unchanged.2 h.idle⟩
    | undefined | terminates =>
      rw [addAll_eq, one]
      refine iff_of_false id ?_
      rintro ⟨-, -, failed⟩
      obtain ⟨_, ⟨⟩⟩ := throws.2 failed

/-- The three services are added or nothing is, if and only if the first one is there already, all
three can be added, or the constructor of the first one fails without a change. -/
theorem addAll_allOrNothing_iff (share : ℕ → ℕ → ℕ → ℕ) (s : Services) (vip : BitVec 32)
    (vport : BitVec 16) (backends : List BackendConf) (draw : ServiceProto → BitVec 32 → Draw) :
    AllOrNothing share vip vport backends s (addService share s vip vport .all backends draw) ↔
      s.serviceMap (keyFor vip vport .tcp) ≠ none ∨ Addable share vip vport backends draw s ∨
        FailsIdle share vip vport backends draw s := by
  by_cases free : s.serviceMap (keyFor vip vport .tcp) = none
  · rw [or_iff_right (not_not_intro free)]
    by_cases returns : (addService share s vip vport .all backends draw).2 = .returns
    · refine iff_of_true ?_ (.inl (addable_iff.2 returns))
      unfold AllOrNothing
      rw [returns]
      exact allCreated_of_returns (Prod.ext rfl returns)
    · rw [or_iff_right fun h => returns (addable_iff.1 h)]
      exact allOrNothing_of_free free returns
  · refine iff_of_true ?_ (.inl free)
    rw [addAll_eq, addOneService_taken free]
    exact ⟨rfl, rfl⟩

def udpThere : Services :=
  ⟨update (fun _ => none) (keyFor 0x0100000A 80 .udp)
    (some ⟨0x0100000A, 80, .udp, [], []⟩), ServiceMaps.empty⟩

/-- The TCP service is left behind. -/
theorem not_allOrNothing_udpThere : ¬ AllOrNothing floorShare 0x0100000A 80 [] udpThere
    (addService floorShare udpThere 0x0100000A 80 .all [] fun _ _ => plainDraw) := by
  rintro ⟨same, -⟩
  have left := congrFun same (keyFor 0x0100000A 80 .tcp)
  cases left

end Polycube.Lbrp
