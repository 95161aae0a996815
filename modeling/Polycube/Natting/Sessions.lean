import Polycube.Lib.Run
import Polycube.Lib.Translation
import Polycube.Natting.Datapath

/-!
# Sessions

A session is a tuple of packets that leave and the source they get.  It is live from the packet
that makes it until the table of packets that come in loses its entry.  While no session is made
with a port that a live session of another tuple uses for the same remote end, an answer to a
translated packet gets the address and port of the client back.
-/

namespace Polycube.Natting

open Function Lib

/-! ### Runs -/

abbrev Session := Translation

def StV.target (v : StV) : Option (BitVec 32 × BitVec 16) := some (v.newIp, v.newPort)

def Datapath.egressSession (s : Datapath) (key : StK) : Option Session :=
  match s.egressSessionTable key with
  | some _ => none
  | none => (s.smRules.lookup (bswap32 key.srcIp)).map fun value =>
      ⟨key, value.externalIp, (getFreePort s.firstFreePort).1⟩

def Datapath.ingressSession (s : Datapath) (key : StK) : Option Session :=
  match s.ingressSessionTable key with
  | some _ => none
  | none => (s.dpRules.lookup (dpBits key.dstIp key.dstPort key.proto)).map fun value =>
      let newPort := if value.internalPort = 0 then key.dstPort else value.internalPort
      ⟨⟨value.internalIp, key.srcIp, newPort,
        if key.proto = ipprotoIcmp then newPort else key.srcPort, key.proto⟩,
        key.dstIp, key.dstPort⟩

structure World where
  maps : Datapath
  live : List Session
  ended : List Session

inductive Event
  | outgoing (frame : Frame)
  | incoming (frame : Frame)
  | evictEgress (key : StK)
  | evictIngress (key : StK)
  deriving DecidableEq

def Frame.key : Frame → Option StK
  | .ip p => p.tuple
  | _ => none

def step (w : World) : Event → World
  | .outgoing frame =>
      { w with
        maps := (handleRx .egress w.maps frame).2
        live := (frame.key.bind w.maps.egressSession).toList ++ w.live }
  | .incoming frame =>
      { w with
        maps := (handleRx .ingress w.maps frame).2
        live := (frame.key.bind w.maps.ingressSession).toList ++ w.live }
  | .evictEgress key =>
      { w with maps.egressSessionTable := update w.maps.egressSessionTable key none }
  | .evictIngress key =>
      { maps := { w.maps with
          ingressSessionTable := update w.maps.ingressSessionTable key none }
        live := w.live.filter fun a => a.answers ≠ key
        ended := w.live.filter (fun a => a.answers = key) ++ w.ended }

def World.init (smRules : Lpm 32 SmV) (dpRules : Lpm 56 DpV) : World where
  maps := ⟨fun _ => none, fun _ => none, smRules, dpRules, 0⟩
  live := []
  ended := []

/-- When a packet that leaves makes a session, the counter's port is not in use for its remote
end. -/
def FreshPort (w : World) : Event → Prop
  | .outgoing frame => ∀ key, frame.key = some key → w.maps.egressSessionTable key = none →
      ∀ value, w.maps.smRules.lookup (bswap32 key.srcIp) = some value →
        Unused w.live key value.externalIp (getFreePort w.maps.firstFreePort).1
  | _ => True

structure Sound (w : World) : Prop where
  /-- Live sessions of different tuples have different keys for their answers. -/
  separate : ∀ a ∈ w.live, ∀ b ∈ w.live, a.answers = b.answers → a.orig = b.orig
  /-- An answer to a translated packet becomes an answer to the packet. -/
  restores : ∀ a ∈ w.live, ∀ p : Ip, p.tuple = some a.orig → ∀ r : Ip, r.Answers (a.apply p) →
    handleRx .ingress w.maps (.ip r) = (some (.ip (a.restore r)), w.maps) ∧
      (a.restore r).Answers p
  /-- A packet leaves as it is or translated as its session says. -/
  translates : ∀ p q : Ip, (handleRx .egress w.maps (.ip p)).1 = some (.ip q) → q = p ∨
    ∃ a ∈ (step w (.outgoing (.ip p))).live ++ (step w (.outgoing (.ip p))).ended,
      p.tuple = some a.orig ∧ q = a.apply p

section Steps

variable {s : Datapath} {p : Ip} {key : StK}

theorem handleRx_of_tuple_eq_none {type : Nattype} (h : p.tuple = none) :
    handleRx type s (.ip p) = (none, s) := by
  simp [handleRx, Datapath.handleIp, h]

theorem egress_of_hit (hp : p.tuple = some key) {value : StV}
    (hit : s.egressSessionTable key = some value) :
    handleRx .egress s (.ip p) = (some (.ip (p.setSource value.newIp value.newPort)), s) := by
  simp [handleRx, Datapath.handleIp, hp, Datapath.matchEgress, hit, Datapath.applyNat,
    OriginatingRule.isSource]

theorem egress_of_miss (hp : p.tuple = some key) (miss : s.egressSessionTable key = none)
    (noRule : s.smRules.lookup (bswap32 key.srcIp) = none) :
    handleRx .egress s (.ip p) = (some (.ip p), s) := by
  simp [handleRx, Datapath.handleIp, hp, Datapath.matchEgress, miss, noRule]

theorem egress_of_rule (hp : p.tuple = some key) (miss : s.egressSessionTable key = none)
    {value : SmV} (rule : s.smRules.lookup (bswap32 key.srcIp) = some value) :
    handleRx .egress s (.ip p) =
      (some (.ip (p.setSource value.externalIp (getFreePort s.firstFreePort).1)),
        { s with
          firstFreePort := (getFreePort s.firstFreePort).2
          egressSessionTable := update s.egressSessionTable key
            (some ⟨value.externalIp, (getFreePort s.firstFreePort).1, value.entryType⟩)
          ingressSessionTable := update s.ingressSessionTable
            (key.answer value.externalIp (getFreePort s.firstFreePort).1)
            (some ⟨key.srcIp, key.srcPort, value.entryType⟩) }) := by
  simp [handleRx, Datapath.handleIp, hp, Datapath.matchEgress, miss, rule, Datapath.applyNat,
    Datapath.updateSessionTables, value.isSource, FiveTuple.answer]

/-- A packet that comes in for a session gets the destination of the session. -/
theorem ingress_of_hit (hp : p.tuple = some key) {value : StV}
    (hit : s.ingressSessionTable key = some value) :
    handleRx .ingress s (.ip p) = (some (.ip (p.setDest value.newIp value.newPort)), s) := by
  simp [handleRx, Datapath.handleIp, hp, Datapath.matchIngress, hit, Datapath.applyNat,
    OriginatingRule.isSource]

/-- A packet that comes in and makes no session leaves the maps as they are. -/
theorem ingress_of_none (hp : p.tuple = some key) (h : s.ingressSession key = none) :
    (handleRx .ingress s (.ip p)).2 = s := by
  unfold Datapath.ingressSession at h
  cases hit : s.ingressSessionTable key with
  | some value => rw [ingress_of_hit hp hit]
  | none =>
    rw [hit] at h
    have noRule := Option.map_eq_none_iff.1 h
    simp [handleRx, Datapath.handleIp, hp, Datapath.matchIngress, hit, noRule]

/-- A packet that comes in and makes a session finds no entry, and the session is the one of its
answers. -/
theorem ingress_of_some (hp : p.tuple = some key) {a : Session}
    (h : s.ingressSession key = some a) :
    s.ingressSessionTable key = none ∧ a.answers = key ∧ a.orig.Echo ∧
      ∃ rule, (handleRx .ingress s (.ip p)).2 =
        { s with
          egressSessionTable := update s.egressSessionTable a.orig
            (some ⟨a.newIp, a.newPort, rule⟩)
          ingressSessionTable := update s.ingressSessionTable key
            (some ⟨a.orig.srcIp, a.orig.srcPort, rule⟩) } := by
  unfold Datapath.ingressSession at h
  cases hit : s.ingressSessionTable key with
  | some value => rw [hit] at h; cases h
  | none =>
    rw [hit] at h
    obtain ⟨value, rule, rfl⟩ := Option.map_eq_some_iff.1 h
    refine ⟨rfl, ?_, ?_, value.entryType, ?_⟩
    · obtain ⟨srcIp, dstIp, srcPort, dstPort, proto⟩ := key
      have echo : proto = ipprotoIcmp → srcPort = dstPort := Ip.tuple_echo hp
      unfold Translation.answers FiveTuple.answer
      dsimp only
      by_cases icmp : proto = ipprotoIcmp
      · rw [if_pos icmp, echo icmp]
      · rw [if_neg icmp, if_neg icmp]
    · intro icmp
      dsimp only at icmp ⊢
      rw [if_pos icmp]
    · simp [handleRx, Datapath.handleIp, hp, Datapath.matchIngress, hit, rule, Datapath.applyNat,
        Datapath.updateSessionTables, value.isDestination]

end Steps

/-! ### What runs keep -/

structure Inv (w : World) : Prop where
  kept : Kept StV.target w.maps.ingressSessionTable w.live
  egress : ∀ key value, w.maps.egressSessionTable key = some value →
    (⟨key, value.newIp, value.newPort⟩ : Session) ∈ w.live ++ w.ended

theorem Inv.init (smRules : Lpm 32 SmV) (dpRules : Lpm 56 DpV) :
    Inv (World.init smRules dpRules) where
  kept := Kept.nil
  egress := by simp [World.init]

variable {w : World}

theorem Inv.create (inv : Inv w) {a : Session} {rule : OriginatingRule}
    (echo : a.orig.Echo) (free : ∀ b ∈ w.live, b.answers = a.answers → b.orig = a.orig)
    {maps : Datapath}
    (ingress : maps.ingressSessionTable = update w.maps.ingressSessionTable a.answers
      (some ⟨a.orig.srcIp, a.orig.srcPort, rule⟩))
    (egress : maps.egressSessionTable = update w.maps.egressSessionTable a.orig
      (some ⟨a.newIp, a.newPort, rule⟩)) :
    Inv ⟨maps, a :: w.live, w.ended⟩ where
  kept := by
    rw [ingress]
    exact inv.kept.cons echo rfl free
  egress key value h := by
    dsimp only at h
    rw [egress] at h
    by_cases hk : key = a.orig
    · rw [hk, update_self] at h
      cases h
      rw [hk]
      exact List.mem_cons_self
    · rw [update_of_ne hk] at h
      exact List.mem_cons_of_mem _ (inv.egress key value h)

theorem Inv.outgoing (inv : Inv w) {frame : Frame}
    (fresh : FreshPort w (.outgoing frame)) : Inv (step w (.outgoing frame)) := by
  cases frame with
  | ip p =>
    cases hp : p.tuple with
    | none => simpa [step, Frame.key, hp, handleRx_of_tuple_eq_none hp] using inv
    | some key =>
      cases hit : w.maps.egressSessionTable key with
      | some value =>
        simpa [step, Frame.key, hp, egress_of_hit hp hit, Datapath.egressSession, hit] using inv
      | none =>
        cases rule : w.maps.smRules.lookup (bswap32 key.srcIp) with
        | none =>
          simpa [step, Frame.key, hp, egress_of_miss hp hit rule, Datapath.egressSession, hit,
            rule] using inv
        | some value =>
          simp only [step, Frame.key, hp, egress_of_rule hp hit rule, Datapath.egressSession, hit,
            rule, Option.bind_some, Option.map_some, Option.toList_some, List.singleton_append]
          refine inv.create (Ip.tuple_echo hp) (fun b hb hk => ?_) rfl rfl
          exact (fresh key hp hit value rule).orig_eq (a := ⟨key, _, _⟩) hb hk
  | arp => exact inv
  | noIp => exact inv
  | short => exact inv

theorem Inv.incoming (inv : Inv w) (frame : Frame) : Inv (step w (.incoming frame)) := by
  cases frame with
  | ip p =>
    cases hp : p.tuple with
    | none => simpa [step, Frame.key, hp, handleRx_of_tuple_eq_none hp] using inv
    | some key =>
      cases hs : w.maps.ingressSession key with
      | none => simpa [step, Frame.key, hp, ingress_of_none hp hs, hs] using inv
      | some a =>
        obtain ⟨miss, rfl, echo, rule, maps⟩ := ingress_of_some hp hs
        simp only [step, Frame.key, hp, Option.bind_some, hs, Option.toList_some,
          List.singleton_append, maps]
        exact inv.create echo
          (fun b hb hk => absurd hk (inv.kept.owned.key_ne miss b hb)) rfl rfl
  | arp => exact inv
  | noIp => exact inv
  | short => exact inv

theorem Inv.evictEgress (inv : Inv w) (key : StK) :
    Inv (step w (.evictEgress key)) where
  kept := inv.kept
  egress k value h := by
    apply inv.egress k value
    replace h : update w.maps.egressSessionTable key none k = some value := h
    by_cases hk : k = key
    · rw [hk, update_self] at h
      cases h
    · rwa [update_of_ne hk] at h

theorem Inv.evictIngress (inv : Inv w) (key : StK) :
    Inv (step w (.evictIngress key)) where
  kept := inv.kept.filter key
  egress k value h := by
    have made := inv.egress k value h
    simp only [step, List.mem_append, List.mem_filter, decide_eq_true_eq] at made ⊢
    by_cases hk : (⟨k, value.newIp, value.newPort⟩ : Session).answers = key
    · exact Or.inr (made.imp (fun live => ⟨live, hk⟩) id)
    · exact made.imp (fun live => ⟨live, hk⟩) Or.inr

theorem step_inv {event : Event} (inv : Inv w) (fresh : FreshPort w event) :
    Inv (step w event) := by
  cases event with
  | outgoing frame => exact inv.outgoing fresh
  | incoming frame => exact inv.incoming frame
  | evictEgress key => exact inv.evictEgress key
  | evictIngress key => exact inv.evictIngress key

/-- A packet that leaves translated is translated as a session says that was live at some time. -/
theorem Inv.translates (inv : Inv w) {p q : Ip}
    (h : (handleRx .egress w.maps (.ip p)).1 = some (.ip q)) : q = p ∨
      ∃ a ∈ (step w (.outgoing (.ip p))).live ++ (step w (.outgoing (.ip p))).ended,
        p.tuple = some a.orig ∧ q = a.apply p := by
  cases hp : p.tuple with
  | none =>
    rw [handleRx_of_tuple_eq_none hp] at h
    cases h
  | some key =>
    cases hit : w.maps.egressSessionTable key with
    | some value =>
      rw [egress_of_hit hp hit] at h
      cases h
      have made := inv.egress key value hit
      refine Or.inr ⟨⟨key, value.newIp, value.newPort⟩, ?_, rfl, rfl⟩
      rw [step, List.append_assoc]
      exact List.mem_append_right _ made
    | none =>
      cases rule : w.maps.smRules.lookup (bswap32 key.srcIp) with
      | none =>
        rw [egress_of_miss hp hit rule] at h
        cases h
        exact Or.inl rfl
      | some value =>
        rw [egress_of_rule hp hit rule] at h
        cases h
        refine Or.inr ⟨⟨key, value.externalIp, (getFreePort w.maps.firstFreePort).1⟩, ?_, rfl, rfl⟩
        simp [step, Frame.key, hp, Datapath.egressSession, hit, rule]

theorem Inv.sound {w : World} (inv : Inv w) : Sound w where
  separate _ ha _ hb hk := inv.kept.separate ha hb hk
  restores a ha p hp r hr := by
    obtain ⟨⟨v, hkey, hv, client⟩, answers⟩ := inv.kept.back ha hp hr
    obtain ⟨hip, hport⟩ : v.newIp = a.orig.srcIp ∧ v.newPort = a.orig.srcPort :=
      Prod.mk.injEq .. ▸ Option.some.inj client
    rw [ingress_of_hit hkey hv, hip, hport]
    exact ⟨rfl, answers⟩
  translates _ _ h := inv.translates h

def masquerade : Lpm 32 SmV := Lpm.set (fun _ => none) 0 0 ⟨0x04030201#32, .masquerade, rfl⟩

theorem lookup_masquerade (ip : BitVec 32) :
    masquerade.lookup ip = some ⟨0x04030201#32, .masquerade, rfl⟩ := by
  refine (Lpm.lookup_eq_some_iff _ _ _).2 ⟨0, by omega, ?_, fun m hm _ => ?_⟩
  · simp [masquerade, Lpm.set, Lpm.key]
  · have : Lpm.key m ip ≠ Lpm.key 0 0 := fun h => absurd (Prod.mk.inj h).1 (by omega)
    rw [masquerade, Lpm.set, update_of_ne this]

def clientPacket (i : ℕ) : Ip := ⟨BitVec.ofNat 32 i, 0x08080808#32, .tcp 4096 0x5000⟩

def clientKey (i : ℕ) : StK := ⟨BitVec.ofNat 32 i, 0x08080808#32, 4096, 0x5000, ipprotoTcp⟩

theorem tuple_clientPacket (i : ℕ) : (clientPacket i).tuple = some (clientKey i) := rfl

/-- The key of the answers to client `i`, whose port is the `i`th that is handed out. -/
def clientAnswer (i : ℕ) : StK :=
  (clientKey i).answer 0x04030201#32 (bswap16 (BitVec.ofNat 16 (1024 + i)))

def firstAnswer : Ip := ⟨0x08080808#32, 0x04030201#32, .tcp 0x5000 (bswap16 1024)⟩

def NAT_MAP_DIM : ℕ := 32768

/-- In full tables the session that has been idle longest makes room for that of client `i`. -/
def makeRoom (i : ℕ) : List Event :=
  if NAT_MAP_DIM ≤ i then
    [.evictEgress (clientKey (i + 1 - NAT_MAP_DIM)),
      .evictIngress (clientAnswer (i + 1 - NAT_MAP_DIM))]
  else []

/-- The first client sends a packet and gets one. -/
def firstTalks : List Event := [.outgoing (.ip (clientPacket 0)), .incoming (.ip firstAnswer)]

theorem step_client {w : World} {n : ℕ} (rules : w.maps.smRules = masquerade)
    (miss : w.maps.egressSessionTable (clientKey n) = none) :
    step w (.outgoing (.ip (clientPacket n))) =
      { maps := { w.maps with
          firstFreePort := (getFreePort w.maps.firstFreePort).2
          egressSessionTable := update w.maps.egressSessionTable (clientKey n)
            (some ⟨0x04030201#32, (getFreePort w.maps.firstFreePort).1, .masquerade⟩)
          ingressSessionTable := update w.maps.ingressSessionTable
            ((clientKey n).answer 0x04030201#32 (getFreePort w.maps.firstFreePort).1)
            (some ⟨BitVec.ofNat 32 n, 4096, .masquerade⟩) }
        live := ⟨clientKey n, 0x04030201#32, (getFreePort w.maps.firstFreePort).1⟩ :: w.live
        ended := w.ended } := by
  have rule : w.maps.smRules.lookup (bswap32 (clientKey n).srcIp) =
      some ⟨0x04030201#32, .masquerade, rfl⟩ := by rw [rules, lookup_masquerade]
  simp only [step, Frame.key, tuple_clientPacket, egress_of_rule (tuple_clientPacket n) miss rule,
    Datapath.egressSession, miss, rule, Option.bind_some, Option.map_some, Option.toList_some,
    List.singleton_append]
  rfl

theorem clientKey_ne {i n : ℕ} (hi : i < 2 ^ 32) (hn : n < i) : clientKey i ≠ clientKey n := by
  intro h
  have := congrArg (fun k => k.srcIp.toNat) h
  simp only [clientKey, BitVec.toNat_ofNat] at this
  omega

theorem clientAnswer_ne {i : ℕ} (hi : 0 < i) (small : i < 64512) :
    clientAnswer i ≠ clientAnswer 0 := by
  intro h
  have ports : BitVec.ofNat 16 (1024 + i) = BitVec.ofNat 16 (1024 + 0) :=
    bswap16_injective (congrArg FiveTuple.dstPort h)
  have := congrArg BitVec.toNat ports
  simp only [BitVec.toNat_ofNat] at this
  omega

/-- Client 0 has its session with the first port, and of the clients from `n + 1` on none has one. -/
structure Waits (n : ℕ) (w : World) : Prop where
  rules : w.maps.smRules = masquerade
  counter : w.maps.firstFreePort = BitVec.ofNat 16 (1025 + n)
  miss : ∀ i, n < i → i < 2 ^ 32 → w.maps.egressSessionTable (clientKey i) = none
  first : ⟨clientKey 0, 0x04030201#32, bswap16 1024⟩ ∈ w.live
  sends : w.maps.egressSessionTable (clientKey 0) ≠ none
  gets : w.maps.ingressSessionTable (clientAnswer 0) ≠ none

variable {n i : ℕ} {w : World}

theorem Waits.makeRoom (waits : Waits n w) (small : i < 64512) :
    Waits n (run step w (makeRoom i)) := by
  unfold Natting.makeRoom
  split_ifs with full
  · have old : 0 < i + 1 - NAT_MAP_DIM ∧ i + 1 - NAT_MAP_DIM < 64512 := by
      unfold NAT_MAP_DIM at full ⊢
      omega
    generalize i + 1 - NAT_MAP_DIM = j at old
    have key := clientKey_ne (i := j) (by omega) old.1
    have answer := clientAnswer_ne old.1 old.2
    refine ⟨waits.rules, waits.counter, fun m hm hlt => ?_, ?_, ?_, ?_⟩
    · show update w.maps.egressSessionTable (clientKey j) none (clientKey m) = none
      by_cases same : clientKey m = clientKey j
      · rw [same, update_self]
      · rw [update_of_ne same]
        exact waits.miss m hm hlt
    · exact List.mem_filter.2 ⟨waits.first, decide_eq_true answer.symm⟩
    · show update w.maps.egressSessionTable (clientKey j) none (clientKey 0) ≠ none
      rw [update_of_ne key.symm]
      exact waits.sends
    · show update w.maps.ingressSessionTable (clientAnswer j) none (clientAnswer 0) ≠ none
      rw [update_of_ne answer.symm]
      exact waits.gets
  · exact waits

theorem Waits.client (waits : Waits n w) (small : n < 64510) :
    Waits (n + 1) (step w (.outgoing (.ip (clientPacket (n + 1))))) := by
  have miss := waits.miss (n + 1) (by omega) (by omega)
  have key := clientKey_ne (i := n + 1) (by omega) (Nat.succ_pos n)
  rw [step_client waits.rules miss]
  refine ⟨waits.rules, ?_, fun i hi hlt => ?_, List.mem_cons_of_mem _ waits.first, ?_, ?_⟩
  · dsimp only
    rw [waits.counter, getFreePort, takePort_ofNat (by omega) (by omega)]
    rfl
  · dsimp only
    rw [update_of_ne (clientKey_ne hlt hi)]
    exact waits.miss i (by omega) hlt
  · dsimp only
    rw [update_of_ne key.symm]
    exact waits.sends
  · dsimp only
    rw [update_apply]
    split_ifs
    · exact Option.some_ne_none _
    · exact waits.gets

end Polycube.Natting
