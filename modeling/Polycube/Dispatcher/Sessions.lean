import Polycube.Dispatcher.Datapath
import Polycube.Lib.Run
import Polycube.Lib.Translation

/-!
# Sessions

The sessions of the backend side are those of pods that talk to the outside, the sessions of the
frontend side those of requests of node port services.  A session is live from the packet that makes
it until the table of the other side loses the entry of its answers.  While no session is made with
a port that a live session of its side uses for the same remote end, answers go back to their
session.
-/

namespace Polycube.Dispatcher

open Function Lib

/-! ### Sides -/

inductive Side
  | backend | frontend
  deriving DecidableEq

def Side.other : Side → Side
  | .backend => .frontend
  | .frontend => .backend

theorem Side.other_other (side : Side) : side.other.other = side := by cases side <;> rfl

theorem Side.other_ne (side : Side) : side.other ≠ side := by cases side <;> decide

theorem Side.eq_or_eq_other (side side' : Side) : side' = side ∨ side' = side.other := by
  cases side <;> cases side' <;> decide

def Config.side (c : Config) (inPort : BitVec 16) : Side :=
  if inPort = c.backendPort then .backend else .frontend

def Config.port (c : Config) : Side → BitVec 16
  | .backend => c.backendPort
  | .frontend => c.frontendPort

theorem Config.side_port {c : Config} (ready : c.frontendPort ≠ c.backendPort) (side : Side) :
    c.side (c.port side) = side := by
  cases side with
  | backend => exact if_pos rfl
  | frontend => exact if_neg ready

theorem outPort_eq (c : Config) (inPort : BitVec 16) :
    outPort c inPort = c.port (c.side inPort).other := by
  unfold outPort Config.side
  split <;> rfl

def Datapath.table (s : Datapath) : Side → Table StK StV
  | .backend => s.egressSessionTable
  | .frontend => s.ingressSessionTable

theorem sessionTable_eq (c : Config) (s : Datapath) (inPort : BitVec 16) :
    s.sessionTable c inPort = s.table (c.side inPort) := by
  unfold Datapath.sessionTable Config.side
  split <;> rfl

section Create

variable (c : Config) (s : Datapath) (inPort : BitVec 16) (key : StK) (rule : Rule)
  (newPort : BitVec 16)

theorem createSession_table : (s.createSession c inPort key rule newPort).table (c.side inPort) =
    update (s.table (c.side inPort)) key
      (some ⟨rule.newIp, newPort, .xlateSrc, rule.originatingRule⟩) := by
  by_cases back : inPort = c.backendPort
  · simp [Datapath.createSession, Config.side, back, Datapath.table]
  · simp [Datapath.createSession, Config.side, back, Datapath.table]

theorem createSession_other :
    (s.createSession c inPort key rule newPort).table (c.side inPort).other =
      update (s.table (c.side inPort).other) (key.answer rule.newIp newPort)
        (some ⟨key.srcIp, key.srcPort, .xlateDst, rule.originatingRule⟩) := by
  by_cases back : inPort = c.backendPort
  · simp [Datapath.createSession, Config.side, back, Datapath.table, Side.other, FiveTuple.answer]
  · simp [Datapath.createSession, Config.side, back, Datapath.table, Side.other, FiveTuple.answer]

theorem createSession_freePort : (s.createSession c inPort key rule newPort).freePort = s.freePort := by
  by_cases back : inPort = c.backendPort
  · simp [Datapath.createSession, back]
  · simp [Datapath.createSession, back]

end Create

/-! ### Runs -/

abbrev Session := Translation

def StV.target (v : StV) : Option (BitVec 32 × BitVec 16) :=
  match v.operation with
  | .xlateSrc => none
  | .xlateDst => some (v.newIp, v.newPort)

structure World where
  maps : Datapath
  live : Side → List Session
  ended : Side → List Session

inductive Event
  | packet (inPort : BitVec 16) (frame : Frame)
  | evict (side : Side) (key : StK)
  | rule (key : NtK) (policy : Option ExternalTrafficPolicyType)
  deriving DecidableEq

variable (c : Config)

/-- The session a packet makes, if it makes one: it has a tuple and no entry, and a rule gives it a
new source. -/
def Datapath.session (s : Datapath) (inPort : BitVec 16) : Frame → Option Session
  | .ip p =>
    if c.frontendPort = c.backendPort ∨ (inPort = c.frontendPort ∧ p.daddr ≠ c.nodeIp) then none
    else p.tuple.bind fun key =>
      match s.table (c.side inPort) key, s.ruleOf c inPort key with
      | none, .inr rule => some ⟨key, rule.newIp, (getFreePort s.freePort).1⟩
      | _, _ => none
  | _ => none

def step (w : World) : Event → World
  | .packet inPort frame =>
      { w with
        maps := (handleRx c w.maps inPort frame).2
        live := update w.live (c.side inPort)
          ((w.maps.session c inPort frame).toList ++ w.live (c.side inPort)) }
  | .evict side key =>
      { maps := match side with
          | .backend => { w.maps with
              egressSessionTable := update w.maps.egressSessionTable key none }
          | .frontend => { w.maps with
              ingressSessionTable := update w.maps.ingressSessionTable key none }
        live := update w.live side.other
          ((w.live side.other).filter fun a => a.answers ≠ key)
        ended := update w.ended side.other
          ((w.live side.other).filter (fun a => a.answers = key) ++ w.ended side.other) }
  | .rule key policy =>
      { w with maps.nprTable := update w.maps.nprTable key policy }

def World.init : World where
  maps := ⟨fun _ => none, fun _ => none, fun _ => none, 0⟩
  live _ := []
  ended _ := []

def FreshPort (w : World) : Event → Prop
  | .packet inPort frame => ∀ a, w.maps.session c inPort frame = some a →
      Unused (w.live (c.side inPort)) a.orig a.newIp a.newPort
  | _ => True

structure Sound (w : World) : Prop where
  /-- Live sessions of different tuples have different keys for their answers. -/
  separate : ∀ side, ∀ a ∈ w.live side, ∀ b ∈ w.live side, a.answers = b.answers → a.orig = b.orig
  /-- An answer to a translated packet becomes an answer to the packet, and goes where that came
  from. -/
  restores : ∀ side, ∀ a ∈ w.live side, ∀ p : Ip, p.tuple = some a.orig →
    ∀ r : Ip, r.Answers (a.apply p) →
      handleRx c w.maps (c.port side.other) (.ip r) =
        ((.redirect (c.port side), .ip (a.restore r)), w.maps) ∧
      (a.restore r).Answers p
  /-- A packet is left as it is, or it is translated as its session says, or it is an answer of a
  live session of the other side. -/
  translates : ∀ inPort, ∀ p q : Ip, (handleRx c w.maps inPort (.ip p)).1.2 = .ip q → q = p ∨
    (∃ a ∈ (step c w (.packet inPort (.ip p))).live (c.side inPort) ++ w.ended (c.side inPort),
      p.tuple = some a.orig ∧ q = a.apply p) ∨
    ∃ a ∈ w.live (c.side inPort).other, p.tuple = some a.answers ∧ q = a.restore p

section Steps

variable {c} {s : Datapath} {inPort : BitVec 16} {p : Ip} {key : StK}

/-- A packet of a session is translated as its entry says and goes to the other side. -/
theorem handleRx_of_hit (ready : c.frontendPort ≠ c.backendPort)
    (forHost : inPort = c.frontendPort → p.daddr = c.nodeIp) (hp : p.tuple = some key)
    {entry : StV} (hit : s.table (c.side inPort) key = some entry) :
    handleRx c s inPort (.ip p) =
      ((.redirect (c.port (c.side inPort).other),
        .ip (applyNat p entry.newIp entry.newPort entry.operation)), s) := by
  have host : ¬ (inPort = c.frontendPort ∧ p.daddr ≠ c.nodeIp) := fun h => h.2 (forHost h.1)
  simp only [handleRx, if_neg ready, handleIp, if_neg host, hp, sessionTable_eq, hit, outPort_eq]

/-- A packet that makes no session leaves the maps as they are; it is not changed unless it is a
packet of a session. -/
theorem handleRx_of_session_none (h : s.session c inPort (.ip p) = none) :
    (handleRx c s inPort (.ip p)).2 = s ∧ ((handleRx c s inPort (.ip p)).1.2 = .ip p ∨
      ∃ key entry, p.tuple = some key ∧ s.table (c.side inPort) key = some entry ∧
        (handleRx c s inPort (.ip p)).1.2 =
          .ip (applyNat p entry.newIp entry.newPort entry.operation)) := by
  by_cases ready : c.frontendPort = c.backendPort
  · simp [handleRx, ready]
  by_cases host : inPort = c.frontendPort ∧ p.daddr ≠ c.nodeIp
  · simp [handleRx, ready, handleIp, host]
  have pass : ¬ (c.frontendPort = c.backendPort ∨ inPort = c.frontendPort ∧ p.daddr ≠ c.nodeIp) :=
    fun h => h.elim ready host
  cases hp : p.tuple with
  | none => simp [handleRx, ready, handleIp, host, hp]
  | some key =>
    cases hit : s.table (c.side inPort) key with
    | some entry =>
      have forHost : inPort = c.frontendPort → p.daddr = c.nodeIp := by grind
      rw [handleRx_of_hit ready forHost hp hit]
      exact ⟨rfl, Or.inr ⟨key, entry, rfl, hit, rfl⟩⟩
    | none =>
      rw [Datapath.session, if_neg pass, hp, Option.bind_some, hit] at h
      cases rule : s.ruleOf c inPort key with
      | inl action =>
        simp [handleRx, ready, handleIp, host, hp, sessionTable_eq, hit, rule]
      | inr rule' =>
        rw [rule] at h
        cases h

theorem newIp_of_backend {rule : Rule} (h : s.ruleOf c inPort key = .inr rule)
    (back : c.side inPort = .backend) : rule.newIp = c.nodeIp := by
  have isBack : inPort = c.backendPort := by
    unfold Config.side at back
    split at back
    · assumption
    · cases back
  unfold Datapath.ruleOf at h
  rw [if_pos isBack] at h
  split at h
  · cases h
  · cases h
    rfl

/-- A packet that makes a session leaves translated, with the counter's port; a pod's gets the
address of the node. -/
theorem handleRx_of_session_some {a : Session} (h : s.session c inPort (.ip p) = some a) :
    c.frontendPort ≠ c.backendPort ∧ p.tuple = some a.orig ∧
      s.table (c.side inPort) a.orig = none ∧ (c.side inPort = .backend → a.newIp = c.nodeIp) ∧
      (handleRx c s inPort (.ip p)).1.2 = .ip (a.apply p) ∧
      ∃ rule : Rule, rule.newIp = a.newIp ∧ (handleRx c s inPort (.ip p)).2 =
        { s with freePort := (getFreePort s.freePort).2 }.createSession c inPort a.orig rule
          a.newPort := by
  rw [Datapath.session] at h
  by_cases stopped : c.frontendPort = c.backendPort ∨
      (inPort = c.frontendPort ∧ p.daddr ≠ c.nodeIp)
  · rw [if_pos stopped] at h
    cases h
  · rw [if_neg stopped] at h
    obtain ⟨ready, host⟩ := not_or.1 stopped
    cases hp : p.tuple with
    | none => rw [hp] at h; cases h
    | some key =>
      rw [hp, Option.bind_some] at h
      cases hit : s.table (c.side inPort) key with
      | some entry => rw [hit] at h; cases h
      | none =>
        cases rule : s.ruleOf c inPort key with
        | inl action => rw [hit, rule] at h; cases h
        | inr r =>
          rw [hit, rule] at h
          cases h
          refine ⟨ready, rfl, hit, fun back => ?_, ?_, r, rfl, ?_⟩
          · exact newIp_of_backend rule back
          · simp [handleRx, ready, handleIp, host, hp, sessionTable_eq, hit, rule, applyNat,
              Translation.apply]
          · simp [handleRx, ready, handleIp, host, hp, sessionTable_eq, hit, rule]

end Steps

/-! ### What runs keep -/

structure Inv (w : World) : Prop where
  kept : ∀ side, Kept StV.target (w.maps.table side.other) (w.live side)
  forward : ∀ side key v, w.maps.table side key = some v → v.operation = .xlateSrc →
    (⟨key, v.newIp, v.newPort⟩ : Session) ∈ w.live side ++ w.ended side
  reverse : ∀ side key v, w.maps.table side.other key = some v → v.operation = .xlateDst →
    ∃ a ∈ w.live side, a.answers = key ∧ a.orig.client = (v.newIp, v.newPort)
  ready : ∀ side, ∀ a ∈ w.live side, c.frontendPort ≠ c.backendPort
  pods : ∀ a ∈ w.live .backend, a.newIp = c.nodeIp

variable {c} {w : World}

theorem Inv.init : Inv c World.init where
  kept side := by cases side <;> exact Kept.nil
  forward side key v h := by cases side <;> cases h
  reverse side key v h := by cases side <;> cases h
  ready _ _ h := absurd h List.not_mem_nil
  pods _ h := absurd h List.not_mem_nil

theorem Inv.create (inv : Inv c w) {side : Side} {a : Session} {maps : Datapath}
    {originatingRule : OriginatingRuleType} (ready : c.frontendPort ≠ c.backendPort)
    (pods : side = .backend → a.newIp = c.nodeIp) (echo : a.orig.Echo)
    (miss : w.maps.table side a.orig = none)
    (free : ∀ b ∈ w.live side, b.answers = a.answers → b.orig = a.orig)
    (forward : maps.table side = update (w.maps.table side) a.orig
      (some ⟨a.newIp, a.newPort, .xlateSrc, originatingRule⟩))
    (reverse : maps.table side.other = update (w.maps.table side.other) a.answers
      (some ⟨a.orig.srcIp, a.orig.srcPort, .xlateDst, originatingRule⟩)) :
    Inv c ⟨maps, update w.live side (a :: w.live side), w.ended⟩ := by
  have liveOther : update w.live side (a :: w.live side) side.other = w.live side.other :=
    update_of_ne side.other_ne _ _
  have liveSide : update w.live side (a :: w.live side) side = a :: w.live side :=
    update_self _ _ _
  constructor
  case kept =>
    intro side'
    rcases side.eq_or_eq_other side' with rfl | rfl
    · dsimp only
      rw [liveSide, reverse]
      exact (inv.kept _).cons echo rfl free
    · dsimp only
      rw [liveOther, Side.other_other, forward]
      have kept := inv.kept side.other
      rw [Side.other_other] at kept
      exact kept.write miss _
  case forward =>
    intro side' key v hv source
    rcases side.eq_or_eq_other side' with rfl | rfl
    · dsimp only at hv ⊢
      rw [forward] at hv
      rw [liveSide]
      by_cases hk : key = a.orig
      · rw [hk, update_self] at hv
        cases hv
        rw [hk]
        exact List.mem_cons_self
      · rw [update_of_ne hk] at hv
        exact List.mem_cons_of_mem _ (inv.forward _ _ _ hv source)
    · dsimp only at hv ⊢
      rw [reverse] at hv
      rw [liveOther]
      by_cases hk : key = a.answers
      · rw [hk, update_self] at hv
        cases hv
        cases source
      · rw [update_of_ne hk] at hv
        exact inv.forward _ _ _ hv source
  case reverse =>
    intro side' key v hv dest
    rcases side.eq_or_eq_other side' with rfl | rfl
    · dsimp only at hv ⊢
      rw [reverse] at hv
      rw [liveSide]
      by_cases hk : key = a.answers
      · rw [hk, update_self] at hv
        cases hv
        exact ⟨a, List.mem_cons_self, hk.symm, rfl⟩
      · rw [update_of_ne hk] at hv
        obtain ⟨b, hb, owns⟩ := inv.reverse _ _ _ hv dest
        exact ⟨b, List.mem_cons_of_mem _ hb, owns⟩
    · dsimp only at hv ⊢
      rw [Side.other_other, forward] at hv
      rw [liveOther]
      by_cases hk : key = a.orig
      · rw [hk, update_self] at hv
        cases hv
        cases dest
      · rw [update_of_ne hk] at hv
        exact inv.reverse side.other key v (by rwa [Side.other_other]) dest
  case ready =>
    intro _ _ _
    exact ready
  case pods =>
    intro b hb
    rcases side.eq_or_eq_other .backend with rfl | back
    · dsimp only at hb
      rw [liveSide] at hb
      rcases List.mem_cons.1 hb with rfl | hb
      · exact pods rfl
      · exact inv.pods b hb
    · rw [back] at hb
      dsimp only at hb
      rw [liveOther, ← back] at hb
      exact inv.pods b hb

theorem packet_live (c : Config) (w : World) (inPort : BitVec 16) (frame : Frame) :
    (step c w (.packet inPort frame)).live (c.side inPort) =
      (w.maps.session c inPort frame).toList ++ w.live (c.side inPort) :=
  update_self _ _ _

theorem Inv.packet (inv : Inv c w) {inPort : BitVec 16} {frame : Frame}
    (fresh : FreshPort c w (.packet inPort frame)) :
    Inv c (step c w (.packet inPort frame)) := by
  have same : w.maps.session c inPort frame = none → (handleRx c w.maps inPort frame).2 = w.maps →
      Inv c (step c w (.packet inPort frame)) := by
    intro none maps
    rw [step, maps, none, Option.toList_none, List.nil_append, update_eq_self]
    exact inv
  cases frame with
  | ip p =>
    cases hs : w.maps.session c inPort (.ip p) with
    | none => exact same hs (handleRx_of_session_none hs).1
    | some a =>
      obtain ⟨ready, hp, miss, pods, -, ⟨newIp, originatingRule⟩, rfl, maps⟩ :=
        handleRx_of_session_some hs
      rw [step, maps, hs, Option.toList_some, List.singleton_append]
      exact inv.create ready pods (Ip.tuple_echo hp) miss (fun b hb hk => (fresh a hs).orig_eq hb hk)
        (createSession_table ..) (createSession_other ..)
  | arp op => exact same rfl (by unfold handleRx; split <;> rfl)
  | noIp => exact same rfl (by unfold handleRx; split <;> rfl)
  | short => exact same rfl (by unfold handleRx; split <;> rfl)

section Evict

variable (c w) (side : Side) (key : StK)

theorem evict_table : (step c w (.evict side key)).maps.table side =
    update (w.maps.table side) key none := by cases side <;> rfl

theorem evict_table_other :
    (step c w (.evict side key)).maps.table side.other = w.maps.table side.other := by
  cases side <;> rfl

theorem evict_live : (step c w (.evict side key)).live side = w.live side :=
  update_of_ne side.other_ne.symm _ _

theorem evict_live_other : (step c w (.evict side key)).live side.other =
    (w.live side.other).filter fun a => a.answers ≠ key :=
  update_self _ _ _

theorem evict_ended : (step c w (.evict side key)).ended side = w.ended side :=
  update_of_ne side.other_ne.symm _ _

theorem evict_ended_other : (step c w (.evict side key)).ended side.other =
    (w.live side.other).filter (fun a => a.answers = key) ++ w.ended side.other :=
  update_self _ _ _

theorem mem_of_evict_live {side' : Side} {a : Session}
    (ha : a ∈ (step c w (.evict side key)).live side') : a ∈ w.live side' := by
  rcases side.eq_or_eq_other side' with rfl | rfl
  · rwa [evict_live] at ha
  · rw [evict_live_other] at ha
    exact List.mem_of_mem_filter ha

end Evict

theorem Inv.evict (inv : Inv c w) (side : Side) (key : StK) :
    Inv c (step c w (.evict side key)) where
  kept side' := by
    rcases side.eq_or_eq_other side' with rfl | rfl
    · rw [evict_table_other, evict_live]
      exact inv.kept side'
    · have kept := inv.kept side.other
      rw [Side.other_other] at kept ⊢
      rw [evict_table, evict_live_other]
      exact kept.filter key
  forward side' k v hv source := by
    rcases side.eq_or_eq_other side' with rfl | rfl
    · rw [evict_table] at hv
      rw [evict_live, evict_ended]
      by_cases hk : k = key
      · rw [hk, update_self] at hv
        cases hv
      · rw [update_of_ne hk] at hv
        exact inv.forward side' k v hv source
    · rw [evict_table_other] at hv
      have made := inv.forward _ k v hv source
      rw [evict_live_other, evict_ended_other]
      simp only [List.mem_append, List.mem_filter, decide_eq_true_eq] at made ⊢
      by_cases hk : (⟨k, v.newIp, v.newPort⟩ : Session).answers = key
      · exact Or.inr (made.imp (fun live => ⟨live, hk⟩) id)
      · exact made.imp (fun live => ⟨live, hk⟩) Or.inr
  reverse side' k v hv dest := by
    rcases side.eq_or_eq_other side' with rfl | rfl
    · rw [evict_table_other] at hv
      rw [evict_live]
      exact inv.reverse side' k v hv dest
    · rw [Side.other_other, evict_table] at hv
      by_cases hk : k = key
      · rw [hk, update_self] at hv
        cases hv
      · rw [update_of_ne hk] at hv
        obtain ⟨a, ha, rfl, client⟩ := inv.reverse side.other k v (by rwa [Side.other_other]) dest
        refine ⟨a, ?_, rfl, client⟩
        rw [evict_live_other, List.mem_filter, decide_eq_true_eq]
        exact ⟨ha, hk⟩
  ready side' a ha := inv.ready side' a (mem_of_evict_live c w side key ha)
  pods a ha := inv.pods a (mem_of_evict_live c w side key ha)

theorem rule_table (key : NtK) (policy : Option ExternalTrafficPolicyType) (side : Side) :
    (step c w (.rule key policy)).maps.table side = w.maps.table side := by cases side <;> rfl

theorem Inv.rule (inv : Inv c w) (key : NtK) (policy : Option ExternalTrafficPolicyType) :
    Inv c (step c w (.rule key policy)) where
  kept side := by
    rw [rule_table]
    exact inv.kept side
  forward side k v hv := inv.forward side k v (rule_table key policy side ▸ hv)
  reverse side k v hv := inv.reverse side k v (rule_table key policy side.other ▸ hv)
  ready := inv.ready
  pods := inv.pods

theorem step_inv {event : Event} (inv : Inv c w) (fresh : FreshPort c w event) :
    Inv c (step c w event) := by
  cases event with
  | packet inPort frame => exact inv.packet fresh
  | evict side key => exact inv.evict side key
  | rule key policy => exact inv.rule key policy

theorem Inv.restores (inv : Inv c w) {side : Side} {a : Session} (ha : a ∈ w.live side) {p r : Ip}
    (hp : p.tuple = some a.orig) (hr : r.Answers (a.apply p)) :
    handleRx c w.maps (c.port side.other) (.ip r) =
      ((.redirect (c.port side), .ip (a.restore r)), w.maps) ∧ (a.restore r).Answers p := by
  obtain ⟨⟨v, hkey, hv, client⟩, answers⟩ := (inv.kept side).back ha hp hr
  have ready := inv.ready side a ha
  have forHost : c.port side.other = c.frontendPort → r.daddr = c.nodeIp := by
    intro atFrontend
    cases side with
    | backend => exact hr.daddr.trans (inv.pods a ha)
    | frontend => exact absurd atFrontend ready.symm
  have hit : w.maps.table (c.side (c.port side.other)) a.answers = some v := by
    rw [Config.side_port ready]
    exact hv
  obtain ⟨newIp, newPort, operation, originatingRule⟩ := v
  cases operation with
  | xlateSrc => cases client
  | xlateDst =>
    obtain ⟨rfl, rfl⟩ : newIp = a.orig.srcIp ∧ newPort = a.orig.srcPort :=
      Prod.mk.injEq .. ▸ Option.some.inj client
    rw [handleRx_of_hit ready forHost hkey hit, Config.side_port ready, Side.other_other]
    exact ⟨rfl, answers⟩

theorem Inv.translates (inv : Inv c w) {inPort : BitVec 16} {p q : Ip}
    (h : (handleRx c w.maps inPort (.ip p)).1.2 = .ip q) : q = p ∨
      (∃ a ∈ (step c w (.packet inPort (.ip p))).live (c.side inPort) ++ w.ended (c.side inPort),
        p.tuple = some a.orig ∧ q = a.apply p) ∨
      ∃ a ∈ w.live (c.side inPort).other, p.tuple = some a.answers ∧ q = a.restore p := by
  cases hs : w.maps.session c inPort (.ip p) with
  | some a =>
    obtain ⟨-, hp, -, -, out, -⟩ := handleRx_of_session_some hs
    refine Or.inr (Or.inl ⟨a, ?_, hp, Frame.ip.inj (h.symm.trans out)⟩)
    rw [packet_live, hs]
    exact List.mem_append_left _ List.mem_cons_self
  | none =>
    obtain ⟨-, out | ⟨key, ⟨newIp, newPort, operation, originatingRule⟩, hp, hit, out⟩⟩ :=
      handleRx_of_session_none hs
    · exact Or.inl (Frame.ip.inj (h.symm.trans out))
    · have hq := Frame.ip.inj (h.symm.trans out)
      cases operation with
      | xlateSrc =>
        refine Or.inr (Or.inl ⟨⟨key, newIp, newPort⟩, ?_, hp, hq⟩)
        rw [packet_live, hs]
        exact inv.forward _ _ _ hit rfl
      | xlateDst =>
        rw [← Side.other_other (c.side inPort)] at hit
        obtain ⟨a, ha, rfl, client⟩ := inv.reverse _ _ _ hit rfl
        obtain ⟨rfl, rfl⟩ : a.orig.srcIp = newIp ∧ a.orig.srcPort = newPort :=
          Prod.mk.injEq .. ▸ client
        exact Or.inr (Or.inr ⟨a, ha, hp, hq⟩)

theorem Inv.sound (inv : Inv c w) : Sound c w where
  separate side _ ha _ hb hk := (inv.kept side).separate ha hb hk
  restores _ _ ha _ hp _ hr := inv.restores ha hp hr
  translates _ _ _ h := inv.translates h

def node : Config := ⟨1, 2, 0x04030201#32, 0x01FEFE0A#32⟩

def podPacket (i : ℕ) : Ip := ⟨BitVec.ofNat 32 i, 0x08080808#32, .tcp 4096 0x5000⟩

def podKey (i : ℕ) : StK := ⟨BitVec.ofNat 32 i, 0x08080808#32, 4096, 0x5000, ipprotoTcp⟩

/-- The key of the answers to pod `i`, whose port is the `i`th that is handed out. -/
def podAnswer (i : ℕ) : StK :=
  (podKey i).answer 0x04030201#32 (bswap16 (BitVec.ofNat 16 (1024 + i)))

def firstAnswer : Ip := ⟨0x08080808#32, 0x04030201#32, .tcp 0x5000 (bswap16 1024)⟩

def SESSION_MAP_DIM : ℕ := 32768

/-- In full tables the session that has been idle longest makes room for that of pod `i`. -/
def makeRoom (i : ℕ) : List Event :=
  if SESSION_MAP_DIM ≤ i then
    [.evict .backend (podKey (i + 1 - SESSION_MAP_DIM)),
      .evict .frontend (podAnswer (i + 1 - SESSION_MAP_DIM))]
  else []

/-- The first pod sends a packet and gets one. -/
def firstTalks : List Event := [.packet 2 (.ip (podPacket 0)), .packet 1 (.ip firstAnswer)]

/-- The pods come one after the other, and the first one goes on. -/
def pods (n : ℕ) : List Event :=
  (List.range n).flatMap fun i => makeRoom i ++ .packet 2 (.ip (podPacket i)) :: firstTalks

theorem podKey_ne {i n : ℕ} (hi : i < 2 ^ 32) (hn : n < i) : podKey i ≠ podKey n := by
  intro h
  have := congrArg (fun k => k.srcIp.toNat) h
  simp only [podKey, BitVec.toNat_ofNat] at this
  omega

theorem podAnswer_ne {i : ℕ} (hi : 0 < i) (small : i < 64512) : podAnswer i ≠ podAnswer 0 := by
  intro h
  have ports : BitVec.ofNat 16 (1024 + i) = BitVec.ofNat 16 (1024 + 0) :=
    bswap16_injective (congrArg FiveTuple.dstPort h)
  have := congrArg BitVec.toNat ports
  simp only [BitVec.toNat_ofNat] at this
  omega

theorem session_pod {s : Datapath} {n : ℕ} (hn : n < 67305985)
    (miss : s.table .backend (podKey n) = none) :
    s.session node 2 (.ip (podPacket n)) =
      some ⟨podKey n, 0x04030201#32, (getFreePort s.freePort).1⟩ := by
  have notNode : (podKey n).srcIp ≠ node.nodeIp := by
    intro h
    have := congrArg BitVec.toNat h
    simp only [podKey, node, BitVec.toNat_ofNat] at this
    omega
  have rule : s.ruleOf node 2 (podKey n) = .inr ⟨0x04030201#32, .podToExt⟩ := by
    rw [Datapath.ruleOf, if_pos (by decide), if_neg notNode]
    rfl
  have pass : ¬ (node.frontendPort = node.backendPort ∨
      ((2 : BitVec 16) = node.frontendPort ∧ (podPacket n).daddr ≠ node.nodeIp)) := by
    rintro (h | ⟨h, -⟩)
    · exact absurd h (by decide)
    · exact absurd h (by decide)
  have tuple : (podPacket n).tuple = some (podKey n) := rfl
  have side : node.side 2 = .backend := by decide
  rw [Datapath.session, if_neg pass, tuple, Option.bind_some, side, miss, rule]

variable {n i : ℕ}

theorem step_pod (hn : n < 67305985) (miss : w.maps.table .backend (podKey n) = none) :
    ∃ out back, (step node w (.packet 2 (.ip (podPacket n)))).maps.freePort =
        (getFreePort w.maps.freePort).2 ∧
      (step node w (.packet 2 (.ip (podPacket n)))).maps.table .backend =
        update (w.maps.table .backend) (podKey n) (some out) ∧
      (step node w (.packet 2 (.ip (podPacket n)))).maps.table .frontend =
        update (w.maps.table .frontend)
          ((podKey n).answer 0x04030201#32 (getFreePort w.maps.freePort).1) (some back) ∧
      (step node w (.packet 2 (.ip (podPacket n)))).live .backend =
        ⟨podKey n, 0x04030201#32, (getFreePort w.maps.freePort).1⟩ :: w.live .backend := by
  have session := session_pod hn miss
  obtain ⟨-, -, -, -, -, rule, newIp, maps⟩ := handleRx_of_session_some session
  refine ⟨⟨rule.newIp, (getFreePort w.maps.freePort).1, .xlateSrc, rule.originatingRule⟩,
    ⟨(podKey n).srcIp, (podKey n).srcPort, .xlateDst, rule.originatingRule⟩, ?_, ?_, ?_,
    (packet_live node w 2 _).trans ?_⟩
  · rw [step, maps, createSession_freePort]
  · rw [step, maps]
    exact createSession_table node _ 2 _ rule _
  · rw [step, maps]
    refine (createSession_other node _ 2 _ rule _).trans ?_
    rw [newIp]
    rfl
  · rw [session]
    rfl

/-- Pod 0 has its session with the first port, and of the pods from `n + 1` on none has one. -/
structure Waits (n : ℕ) (w : World) : Prop where
  counter : w.maps.freePort = BitVec.ofNat 16 (1025 + n)
  miss : ∀ i, n < i → i < 2 ^ 32 → w.maps.table .backend (podKey i) = none
  first : ⟨podKey 0, 0x04030201#32, bswap16 1024⟩ ∈ w.live .backend
  sends : w.maps.table .backend (podKey 0) ≠ none
  gets : w.maps.table .frontend (podAnswer 0) ≠ none

theorem update_ne_none {K V : Type} [DecidableEq K] {t : Table K V} {key key' : K} {v : V}
    (there : t key ≠ none) : update t key' (some v) key ≠ none := by
  rw [update_apply]
  split_ifs
  · exact Option.some_ne_none _
  · exact there

theorem Waits.evict (waits : Waits n w) (old : 0 < i) (small : i < 64512) :
    Waits n (step node (step node w (.evict .backend (podKey i))) (.evict .frontend (podAnswer i))) := by
  have key := podKey_ne (by omega) old
  have answer := podAnswer_ne old small
  refine ⟨waits.counter, fun m hm hlt => ?_, ?_, ?_, ?_⟩
  · show update (w.maps.table .backend) (podKey i) none (podKey m) = none
    by_cases same : podKey m = podKey i
    · rw [same, update_self]
    · rw [update_of_ne same]
      exact waits.miss m hm hlt
  · exact List.mem_filter.2 ⟨waits.first, decide_eq_true answer.symm⟩
  · show update (w.maps.table .backend) (podKey i) none (podKey 0) ≠ none
    rw [update_of_ne key.symm]
    exact waits.sends
  · show update (w.maps.table .frontend) (podAnswer i) none (podAnswer 0) ≠ none
    rw [update_of_ne answer.symm]
    exact waits.gets

theorem Waits.makeRoom (waits : Waits n w) (small : i < 64512) :
    Waits n (run (step node) w (makeRoom i)) := by
  unfold Dispatcher.makeRoom
  split_ifs with full
  · have old : 0 < i + 1 - SESSION_MAP_DIM ∧ i + 1 - SESSION_MAP_DIM < 64512 := by
      unfold SESSION_MAP_DIM at full ⊢
      omega
    exact waits.evict old.1 old.2
  · exact waits

theorem Waits.pod (waits : Waits n w) (small : n < 64510) :
    Waits (n + 1) (step node w (.packet 2 (.ip (podPacket (n + 1))))) := by
  obtain ⟨_, _, counter, backend, frontend, live⟩ := step_pod (n := n + 1) (by omega)
    (waits.miss _ (by omega) (by omega))
  refine ⟨?_, fun i hi hlt => ?_, ?_, ?_, ?_⟩
  · rw [counter, waits.counter, getFreePort, takePort_ofNat (by omega) (by omega)]
    rfl
  · rw [backend, update_of_ne (podKey_ne hlt hi)]
    exact waits.miss i (by omega) hlt
  · rw [live]
    exact List.mem_cons_of_mem _ waits.first
  · rw [backend]
    exact update_ne_none waits.sends
  · rw [frontend]
    exact update_ne_none waits.gets

end Polycube.Dispatcher
