import Polycube.K8switch.Datapath
import Polycube.Lib.Run

/-!
# Packets to services and their answers

`Paired` says that the two maps of sessions have each session together.  Steps keep it as long as a
new session gets a port that no session has, and a session stays until its own removal.  So the
answer to a packet for a NodePort service finds the session of the packet, and the answer to one for
a ClusterIP service is known by the client's host in the virtual subnet.
-/

namespace Polycube.K8switch

open Function Lib

/-- The subnets are networks of their masks, their hosts have room for the source of NodePort
packets, and no address is of the virtual subnet and of the one of the ClusterIP services. -/
structure Config.WellFormed (c : Config) : Prop where
  clientSubnet : c.clientSubnet &&& ~~~c.clientSubnetMask = 0#32
  virtualClientSubnet : c.virtualClientSubnet &&& ~~~c.clientSubnetMask = 0#32
  nodeportHost : nodeportHost &&& c.clientSubnetMask = 0#32
  disjoint : ∀ ip, ip &&& c.clientSubnetMask = c.virtualClientSubnet →
    ip &&& c.clusterIpMask ≠ c.clusterIpSubnet

/-- An address of a pod: its host is not the one of NodePort packets, and has a place in
`fwd_table`. -/
structure Config.Client (c : Config) (ip : BitVec 32) : Prop where
  subnet : ip &&& c.clientSubnetMask = c.clientSubnet
  host : ip &&& ~~~c.clientSubnetMask ≠ nodeportHost
  place : (bswap32 (ip &&& ~~~c.clientSubnetMask)).toNat < 256

/-- `r` answers `p`: source and destination are exchanged. -/
structure Answers (r p : Packet) : Prop where
  proto : r.proto = p.proto
  saddr : r.saddr = p.daddr
  daddr : r.daddr = p.saddr
  sport : r.sport = p.dport
  dport : r.dport = p.sport

/-! ### Types of packets -/

variable {hash : SessionHash} {c : Config} {m : Maps} {inPort : BitVec 16} {ip : BitVec 32}

theorem packetType_virtual (wf : c.WellFormed)
    (h : ip &&& c.clientSubnetMask = c.virtualClientSubnet) : c.packetType inPort ip =
      if ip &&& ~~~c.clientSubnetMask = nodeportHost then some .fromNodePortService
      else some .fromClusterIpService := by
  rw [Config.packetType, if_neg (wf.disjoint ip h), if_pos h]

theorem packetType_moveHost (wf : c.WellFormed) (client : c.Client ip) :
    c.packetType inPort (moveHost c.clientSubnetMask c.virtualClientSubnet ip) =
      some .fromClusterIpService := by
  rw [packetType_virtual wf (moveHost_and_mask wf.virtualClientSubnet),
    moveHost_and_not_mask wf.virtualClientSubnet, if_neg client.host]

theorem nodeportAddress_eq (wf : c.WellFormed) : c.nodeportAddress =
    moveHost c.clientSubnetMask c.virtualClientSubnet nodeportHost :=
  add_eq_moveHost wf.virtualClientSubnet wf.nodeportHost

theorem and_not_of_and_eq_zero {mask x : BitVec 32} (h : x &&& mask = 0#32) :
    x &&& ~~~mask = x := by
  have self : moveHost mask 0#32 x = x := moveHost_self h
  rwa [moveHost, BitVec.or_zero] at self

theorem packetType_nodeportAddress (wf : c.WellFormed) :
    c.packetType inPort c.nodeportAddress = some .fromNodePortService := by
  rw [nodeportAddress_eq wf, packetType_virtual wf (moveHost_and_mask wf.virtualClientSubnet),
    moveHost_and_not_mask wf.virtualClientSubnet, and_not_of_and_eq_zero wf.nodeportHost,
    if_pos rfl]

theorem eq_nodeportAddress_iff (wf : c.WellFormed)
    (h : ip &&& c.clientSubnetMask = c.virtualClientSubnet) :
    ip = c.nodeportAddress ↔ ip &&& ~~~c.clientSubnetMask = nodeportHost := by
  refine ⟨fun e => ?_, fun e => ?_⟩
  · rw [e, nodeportAddress_eq wf, moveHost_and_not_mask wf.virtualClientSubnet,
      and_not_of_and_eq_zero wf.nodeportHost]
  · rw [nodeportAddress_eq wf, ← e, moveHost, BitVec.and_assoc, BitVec.and_self]
    exact (moveHost_self h).symm

def Config.IsOf (c : Config) (inPort : BitVec 16) (ip : BitVec 32) : PacketType → Prop
  | .clusterIpIn => ip &&& c.clusterIpMask = c.clusterIpSubnet
  | .fromNodePortService => ip = c.nodeportAddress
  | .fromClusterIpService =>
    ip &&& c.clientSubnetMask = c.virtualClientSubnet ∧ ip ≠ c.nodeportAddress
  | .nodePortIn => inPort = c.nodeportPort ∧ ip &&& c.clusterIpMask ≠ c.clusterIpSubnet ∧
    ip &&& c.clientSubnetMask ≠ c.virtualClientSubnet

theorem nodeportAddress_and_mask (wf : c.WellFormed) :
    c.nodeportAddress &&& c.clientSubnetMask = c.virtualClientSubnet := by
  rw [nodeportAddress_eq wf, moveHost_and_mask wf.virtualClientSubnet]

/-- The order of the tests does not matter. -/
theorem packetType_eq_iff (wf : c.WellFormed) (type : PacketType) :
    c.packetType inPort ip = some type ↔ c.IsOf inPort ip type := by
  by_cases hc : ip &&& c.clusterIpMask = c.clusterIpSubnet
  · have hv : ip &&& c.clientSubnetMask ≠ c.virtualClientSubnet := fun hv => wf.disjoint ip hv hc
    have hn : ip ≠ c.nodeportAddress := by
      intro e
      rw [e] at hv
      exact hv (nodeportAddress_and_mask wf)
    rw [Config.packetType, if_pos hc]
    cases type <;> simp [Config.IsOf, hc, hv, hn]
  · by_cases hv : ip &&& c.clientSubnetMask = c.virtualClientSubnet
    · rw [packetType_virtual wf hv]
      by_cases hn : ip = c.nodeportAddress
      · rw [if_pos ((eq_nodeportAddress_iff wf hv).mp hn)]
        rw [hn] at hc
        cases type <;> simp [Config.IsOf, hn, hc, nodeportAddress_and_mask wf]
      · rw [if_neg (mt (eq_nodeportAddress_iff wf hv).mpr hn)]
        cases type <;> simp [Config.IsOf, hc, hv, hn]
    · have hn : ip ≠ c.nodeportAddress := by
        intro e
        rw [e] at hv
        exact hv (nodeportAddress_and_mask wf)
      rw [Config.packetType, if_neg hc, if_neg hv]
      cases type <;> simp [Config.IsOf, hc, hv, hn]

variable {port out proto : BitVec 16} {now : BitVec 64} {p q r : Packet}

theorem handleRx_eq {type : PacketType} (ht : c.packetType inPort p.daddr = some type)
    (hp : p.proto.ipProto = some proto) : handleRx hash c m inPort port now p =
      match type with
      | .clusterIpIn => (m, handleClusterIpIn hash c m p proto)
      | .nodePortIn => handleNodePortIn hash c m port now p proto
      | .fromClusterIpService => (m, handleFromClusterIpService c m p proto)
      | .fromNodePortService => handleFromNodePortService c m now p proto := by
  simp only [handleRx, ht, hp]
  cases type <;> rfl

/-- Forwarding changes the address of the next host only. -/
theorem forward_eq_redirect (h : forward c m p = .redirect out q) :
    ∃ mac, q = { p with ethDst := mac } := by
  simp only [forward] at h
  split at h
  · injection h with _ hq
    exact ⟨_, hq.symm⟩
  · cases h

theorem fwdKey_of_client (client : c.Client ip) :
    c.fwdKey ip = bswap32 (ip &&& ~~~c.clientSubnetMask) := if_pos client.subnet

theorem forward_client (client : c.Client p.daddr) :
    ∃ out mac, forward c m p = .redirect out { p with ethDst := mac } := by
  have place := client.place
  rw [← fwdKey_of_client client] at place
  simp only [forward, if_pos place]
  exact ⟨_, _, rfl⟩

/-! ### Sessions -/

/-- Both maps have each session: under its packets, without timestamp, and under its answers. -/
structure Paired (c : Config) (m : Maps) : Prop where
  sessionIn : ∀ v k, m.nodeportSessionIn v = some k → k.ipSrc = c.nodeportAddress ∧
    k.proto = v.proto ∧ v.untimed = v ∧
    ∃ w, m.nodeportSessionOut k.untimed = some w ∧ w.untimed = v
  sessionOut : ∀ k v, m.nodeportSessionOut k = some v →
    ∃ l, m.nodeportSessionIn v.untimed = some l ∧ l.untimed = k

def PortUnused (m : Maps) : PacketEvent → Prop
  | .packet _ port _ _ => ∀ k v, m.nodeportSessionOut k = some v → k.portSrc ≠ port
  | _ => True

theorem paired_init : Paired c Maps.init where
  sessionIn _ _ h := by cases h
  sessionOut _ _ h := by cases h

theorem Paired.congr {m' : Maps} (h : Paired c m)
    (hin : m'.nodeportSessionIn = m.nodeportSessionIn)
    (hout : m'.nodeportSessionOut = m.nodeportSessionOut) : Paired c m' := by
  rcases h with ⟨ins, outs⟩
  rw [← hin, ← hout] at ins
  rw [← hin, ← hout] at outs
  exact ⟨ins, outs⟩

variable {v : NodeportSessionOut} {k : NodeportSessionIn}

theorem Paired.touchIn (h : Paired c m) (hv : m.nodeportSessionIn v = some k) (now : BitVec 64) :
    Paired c { m with
      nodeportSessionIn :=
        update m.nodeportSessionIn v (some { k with timestamp := now }) } := by
  refine ⟨fun v' k' hk' => ?_, fun k' v' hv' => ?_⟩
  · by_cases same : v' = v
    · rw [same] at hk' ⊢
      have new : k' = { k with timestamp := now } := by
        simpa using hk'.symm
      rw [new]
      exact h.sessionIn v k hv
    · exact h.sessionIn v' k' (by simpa [update_of_ne same] using hk')
  · have ⟨l, hl, hlk⟩ := h.sessionOut k' v' hv'
    by_cases same : v'.untimed = v
    · rw [same, hv, Option.some.injEq] at hl
      refine ⟨{ k with timestamp := now }, ?_, ?_⟩
      · simp [same]
      · rw [← hlk, ← hl]
        rfl
    · exact ⟨l, by simpa [update_of_ne same] using hl, hlk⟩

theorem Paired.touchOut (h : Paired c m) (hk : m.nodeportSessionOut k = some v) (now : BitVec 64) :
    Paired c { m with
      nodeportSessionOut :=
        update m.nodeportSessionOut k (some { v with timestamp := now }) } := by
  refine ⟨fun v' k' hk' => ?_, fun k' v' hv' => ?_⟩
  · have ⟨src, proto, timed, w, hw, hwv⟩ := h.sessionIn v' k' hk'
    refine ⟨src, proto, timed, ?_⟩
    by_cases same : k'.untimed = k
    · rw [same, hk, Option.some.injEq] at hw
      refine ⟨{ v with timestamp := now }, by simp [same], ?_⟩
      rw [← hwv, ← hw]
      rfl
    · exact ⟨w, by simpa [update_of_ne same] using hw, hwv⟩
  · by_cases same : k' = k
    · rw [same] at hv' ⊢
      have new : v' = { v with timestamp := now } := by
        simpa using hv'.symm
      rw [new]
      exact h.sessionOut k v hk
    · exact h.sessionOut k' v' (by simpa [update_of_ne same] using hv')

theorem Paired.create (h : Paired c m)
    (hv : m.nodeportSessionIn v = none) (unused : m.nodeportSessionOut k = none)
    (src : k.ipSrc = c.nodeportAddress) (proto : k.proto = v.proto) (timedIn : v.untimed = v)
    (timedOut : k.untimed = k) (now : BitVec 64) :
    Paired c { m with
      nodeportSessionIn := update m.nodeportSessionIn v (some { k with timestamp := now })
      nodeportSessionOut :=
        update m.nodeportSessionOut k (some { v with timestamp := now }) } := by
  refine ⟨fun v' k' hk' => ?_, fun k' v' hv' => ?_⟩
  · by_cases same : v' = v
    · rw [same] at hk' ⊢
      have new : k' = { k with timestamp := now } := by
        simpa using hk'.symm
      have key : k'.untimed = k := by
        rw [new]
        exact timedOut
      refine ⟨?_, ?_, timedIn, { v with timestamp := now }, ?_, timedIn⟩
      · rw [new]
        exact src
      · rw [new]
        exact proto
      · rw [key]
        exact update_self ..
    · have ⟨src', proto', timed', w, hw, hwv⟩ :=
        h.sessionIn v' k' (by simpa [update_of_ne same] using hk')
      have other : k'.untimed ≠ k := by
        intro e
        rw [e, unused] at hw
        cases hw
      exact ⟨src', proto', timed', w, by simpa [update_of_ne other] using hw, hwv⟩
  · by_cases same : k' = k
    · rw [same] at hv' ⊢
      have new : v' = { v with timestamp := now } := by
        simpa using hv'.symm
      have key : v'.untimed = v := by
        rw [new]
        exact timedIn
      refine ⟨{ k with timestamp := now }, ?_, timedOut⟩
      rw [key]
      exact update_self ..
    · have ⟨l, hl, hlk⟩ := h.sessionOut k' v' (by simpa [update_of_ne same] using hv')
      have other : v'.untimed ≠ v := by
        intro e
        rw [e, hv] at hl
        cases hl
      exact ⟨l, by simpa [update_of_ne other] using hl, hlk⟩

theorem Paired.remove (h : Paired c m) (key : NodeportSessionIn) : Paired c (m.remove key) := by
  unfold Maps.remove
  split
  · exact h
  · next v hv =>
    split
    · exact h
    · next k hk =>
      refine ⟨fun v' k' hk' => ?_, fun k' v' hv' => ?_⟩
      · have otherIn : v' ≠ v.untimed := by
          intro e
          simp [e] at hk'
        have ⟨src, proto, timed, w, hw, hwv⟩ :=
          h.sessionIn v' k' (by simpa [update_of_ne otherIn] using hk')
        have otherOut : k'.untimed ≠ key := by
          intro e
          rw [e, hv, Option.some.injEq] at hw
          exact otherIn (by rw [← hwv, ← hw])
        exact ⟨src, proto, timed, w, by simpa [update_of_ne otherOut] using hw, hwv⟩
      · have otherOut : k' ≠ key := by
          intro e
          simp [e] at hv'
        have ⟨l, hl, hlk⟩ :=
          h.sessionOut k' v' (by simpa [update_of_ne otherOut] using hv')
        have otherIn : v'.untimed ≠ v.untimed := by
          intro e
          have ⟨l', hl', hlk'⟩ := h.sessionOut key v hv
          rw [e, hl', Option.some.injEq] at hl
          exact otherOut (by rw [← hlk, ← hl, hlk'])
        exact ⟨l, by simpa [update_of_ne otherIn] using hl, hlk⟩

theorem Paired.handleNodePortIn (h : Paired c m)
    (unused : ∀ k v, m.nodeportSessionOut k = some v → k.portSrc ≠ port) :
    Paired c (handleNodePortIn hash c m port now p proto).1 := by
  simp only [K8switch.handleNodePortIn]
  split
  · next session hs => exact h.touchIn hs now
  · next hnone =>
    split
    · exact h
    · exact h
    · next b _ =>
      split
      · exact h
      · have free : m.nodeportSessionOut
            (sessionKey c.nodeportAddress (p.session proto) (b.ip, b.port) port) = none := by
          rw [Option.eq_none_iff_forall_ne_some]
          intro v hk
          exact unused _ v hk rfl
        have src : (sessionKey c.nodeportAddress (p.session proto) (b.ip, b.port) port).ipSrc =
            c.nodeportAddress := rfl
        exact h.create hnone free src rfl rfl rfl now

theorem Paired.handleFromNodePortService (h : Paired c m) :
    Paired c (handleFromNodePortService c m now p proto).1 := by
  simp only [K8switch.handleFromNodePortService]
  split
  · exact h
  · next v hv => exact h.touchOut hv now

theorem Paired.next (h : Paired c m) (e : PacketEvent) (unused : PortUnused m e) :
    Paired c (m.next hash c e) := by
  cases e with
  | packet inPort port now p =>
    simp only [Maps.next, handleRx]
    split
    · exact h
    · split
      · exact h
      · split
        · exact h
        · exact h.handleNodePortIn unused
        · exact h
        · exact h.handleFromNodePortService
  | remove key => exact h.remove key
  | configure => exact h.congr rfl rfl

def Maps.HasSession (m : Maps) (v : NodeportSessionOut) (k : NodeportSessionIn) : Prop :=
  ∃ l, m.nodeportSessionIn v = some l ∧ l.untimed = k

/-- The packets of a session and of new ones leave the other sessions. -/
theorem Maps.HasSession.handleNodePortIn (has : m.HasSession v k) :
    (handleNodePortIn hash c m port now p proto).1.HasSession v k := by
  have ⟨l, hl, hlk⟩ := has
  simp only [K8switch.handleNodePortIn]
  split
  · next session hs =>
    by_cases same : v = p.session proto
    · rw [← same, hl, Option.some.injEq] at hs
      refine ⟨{ session with timestamp := now }, ?_, ?_⟩
      · rw [same]
        exact update_self ..
      · rw [← hs, ← hlk]
        rfl
    · exact ⟨l, (update_of_ne same _ _).trans hl, hlk⟩
  · next hnone =>
    split
    · exact has
    · exact has
    · split
      · exact has
      · have other : v ≠ p.session proto := by
          intro e
          rw [← e, hl] at hnone
          cases hnone
        exact ⟨l, (update_of_ne other _ _).trans hl, hlk⟩

theorem Maps.HasSession.remove {key : NodeportSessionIn}
    (h : Paired c m) (has : m.HasSession v k) (kept : key ≠ k) :
    (m.remove key).HasSession v k := by
  have ⟨l, hl, hlk⟩ := has
  unfold Maps.remove
  split
  · exact has
  · next w hw =>
    split
    · exact has
    · have other : v ≠ w.untimed := by
        intro e
        have ⟨l', hl', hlk'⟩ := h.sessionOut key w hw
        rw [← e, hl, Option.some.injEq] at hl'
        exact kept (by rw [← hlk', ← hl', hlk])
      exact ⟨l, (update_of_ne other _ _).trans hl, hlk⟩

theorem Maps.HasSession.next (h : Paired c m)
    (has : m.HasSession v k) {e : PacketEvent} (kept : e ≠ .remove k) :
    (m.next hash c e).HasSession v k := by
  cases e with
  | packet inPort port now p =>
    simp only [Maps.next, handleRx]
    split
    · exact has
    · split
      · exact has
      · split
        · exact has
        · exact has.handleNodePortIn
        · exact has
        · unfold handleFromNodePortService
          dsimp only
          split
          · exact has
          · exact has
  | remove key => exact has.remove h fun e => kept (by rw [e])
  | configure => exact has

theorem Paired.run {before : List PacketEvent}
    (meets : Meets (Maps.next hash c) PortUnused m before) (h : Paired c m) :
    Paired c (Lib.run (Maps.next hash c) m before) :=
  run_induction (fun _ e h unused => h.next e unused) h meets

theorem Maps.HasSession.run
    {later : List PacketEvent} (meets : Meets (Maps.next hash c) PortUnused m later)
    (h : Paired c m) (has : m.HasSession v k) (kept : .remove k ∉ later) :
    (Lib.run (Maps.next hash c) m later).HasSession v k := by
  induction later generalizing m with
  | nil => exact has
  | cons e later ih =>
    rw [List.mem_cons, not_or] at kept
    exact ih meets.2 (h.next e meets.1) (has.next h (Ne.symm kept.1)) kept.2

section Answers

variable {m' : Maps} {inPort' port' : BitVec 16} {now' : BitVec 64}

theorem answer_clusterIp (wf : c.WellFormed) (client : c.Client p.saddr)
    (htype : c.packetType inPort p.daddr = some .clusterIpIn) (hp : p.proto.ipProto = some proto)
    {b : Backend} (backend :
      getClusterIpBackend hash m.services p.saddr p.daddr p.sport p.dport proto = .backend b)
    (sent : (handleRx hash c m inPort port now p).2 = .redirect out q) {vip : Vip}
    (reverse : m'.clusterIpReverse ⟨b.ip, b.port, proto⟩ = some vip) (hip : vip.ip = p.daddr)
    (hport : vip.port = p.dport) (answer : Answers r q) :
    c.packetType inPort' r.daddr = some .fromClusterIpService ∧
      ∃ out' s, (handleRx hash c m' inPort' port' now' r).2 = .redirect out' s ∧ Answers s p := by
  rw [handleRx_eq htype hp] at sent
  simp only [handleClusterIpIn, backend] at sent
  have ⟨mac, hq⟩ := forward_eq_redirect sent
  rcases answer with ⟨rproto, rsaddr, rdaddr, rsport, rdport⟩
  rw [hq] at rproto rsaddr rdaddr rsport rdport
  have rtype : c.packetType inPort' r.daddr = some .fromClusterIpService := by
    rw [rdaddr]
    exact packetType_moveHost wf client
  have rp : r.proto.ipProto = some proto := by
    rw [rproto, hp]
  -- the host is back in the subnet of the clients
  have back : moveHost c.clientSubnetMask c.clientSubnet r.daddr = p.saddr := by
    rw [rdaddr]
    exact (moveHost_moveHost wf.virtualClientSubnet).trans (moveHost_self client.subnet)
  have key : (⟨r.saddr, r.sport, proto⟩ : Backend) = ⟨b.ip, b.port, proto⟩ := by
    rw [rsaddr, rsport]
  refine ⟨rtype, ?_⟩
  rw [handleRx_eq rtype rp]
  simp only [handleFromClusterIpService, key, reverse, back]
  have ⟨out', mac', hs⟩ := @forward_client c m'
    { r with saddr := vip.ip, daddr := p.saddr, sport := vip.port } client
  exact ⟨out', _, hs, rproto, hip, rfl, hport, rdport⟩

theorem sent_nodePort (h : Paired c m) (htype : c.packetType inPort p.daddr = some .nodePortIn)
    (hp : p.proto.ipProto = some proto)
    (sent : (handleRx hash c m inPort port now p).2 = .redirect out q) :
    (handleRx hash c m inPort port now p).1.HasSession (p.session proto)
      ⟨q.saddr, q.daddr, q.sport, q.dport, proto, 0⟩ ∧ q.proto = p.proto := by
  rw [handleRx_eq htype hp] at sent ⊢
  simp only [handleNodePortIn] at sent ⊢
  split at sent
  · next session hs =>
    have ⟨mac, hq⟩ := forward_eq_redirect sent
    have ⟨src, hproto, _⟩ := h.sessionIn _ _ hs
    have key : session.untimed = ⟨q.saddr, q.daddr, q.sport, q.dport, proto, 0⟩ := by
      rw [hq, NodeportSessionIn.untimed, src, hproto]
      rfl
    exact ⟨⟨{ session with timestamp := now }, update_self .., key⟩,
      by rw [hq, Packet.translate]⟩
  · split at sent
    · cases sent
    · cases sent
    · split at sent
      · cases sent
      · next hport =>
        have ⟨mac, hq⟩ := forward_eq_redirect sent
        rw [if_neg hport]
        refine ⟨⟨_, update_self .., ?_⟩, ?_⟩
        · rw [hq]
          simp only [NodeportSessionIn.untimed, Packet.translate, sessionKey, Packet.session]
        · rw [hq, Packet.translate]

theorem setWidth_setWidth (mac : BitVec 48) : (mac.setWidth 64).setWidth 48 = mac := by
  rw [BitVec.setWidth_setWidth_of_le _ (by decide : 48 ≤ 64), BitVec.setWidth_eq]

theorem answer_nodePort (wf : c.WellFormed) (h : Paired c m')
    (has : m'.HasSession (p.session proto) ⟨q.saddr, q.daddr, q.sport, q.dport, proto, 0⟩)
    (hp : p.proto.ipProto = some proto) (hq : q.proto = p.proto) (answer : Answers r q) :
    c.packetType inPort' r.daddr = some .fromNodePortService ∧
      ∃ s, (handleRx hash c m' inPort' port' now' r).2 = .redirect c.nodeportPort s ∧
        Answers s p ∧ s.ethDst = p.ethSrc ∧ s.ethSrc = p.ethDst := by
  rcases answer with ⟨rproto, rsaddr, rdaddr, rsport, rdport⟩
  have ⟨k, hk, key⟩ := has
  have ⟨src, _, _, w, hw, timed⟩ := h.sessionIn _ _ hk
  have rtype : c.packetType inPort' r.daddr = some .fromNodePortService := by
    have address : q.saddr = k.ipSrc := (congrArg NodeportSessionIn.ipSrc key).symm
    rw [rdaddr, address, src]
    exact packetType_nodeportAddress wf
  have rp : r.proto.ipProto = some proto := by
    rw [rproto, hq, hp]
  have found : m'.nodeportSessionOut ⟨r.daddr, r.saddr, r.dport, r.sport, proto, 0⟩ = some w := by
    rw [rdaddr, rsaddr, rdport, rsport, ← key, hw]
  refine ⟨rtype, ?_⟩
  rw [handleRx_eq rtype rp]
  simp only [handleFromNodePortService, found]
  -- the session has the headers of its first packet
  have ⟨dst, src', ips, ipd, ports, portd⟩ : w.macDst = p.ethDst.setWidth 64 ∧
      w.macSrc = p.ethSrc.setWidth 64 ∧ w.ipSrc = p.saddr ∧ w.ipDst = p.daddr ∧
      w.portSrc = p.sport ∧ w.portDst = p.dport := by
    injection timed with h1 h2 h3 h4 h5 h6
    exact ⟨h1, h2, h3, h4, h5, h6⟩
  refine ⟨_, rfl, ⟨rproto.trans hq, ipd, ips, portd, ports⟩, ?_, ?_⟩
  · rw [src']
    exact setWidth_setWidth _
  · rw [dst]
    exact setWidth_setWidth _

end Answers

/-- Every packet has the type that its destination makes it one of.  In every run whose new sessions
get unused ports, a packet that is sent to a backend of its service has its answer, from there or
after any run, sent back to the client from the address and port that the client has contacted: for
a ClusterIP service, when the client is a pod of the node and the service of the backend is still
the same, and for a NodePort service until the session is removed. -/
theorem services_round_trip (wf : c.WellFormed) {before later : List PacketEvent}
    (first : Meets (Maps.next hash c) PortUnused Maps.init before)
    (rest : Meets (Maps.next hash c) PortUnused (run (Maps.next hash c) Maps.init before)
      (.packet inPort port now p :: later)) (hp : p.proto.ipProto = some proto)
    (sent : (handleRx hash c (run (Maps.next hash c) Maps.init before) inPort port now p).2 =
      .redirect out q) (answer : Answers r q) (inPort' port' : BitVec 16) (now' : BitVec 64) :
    (∀ inPort ip type, c.packetType inPort ip = some type ↔ c.IsOf inPort ip type) ∧
    (c.packetType inPort p.daddr = some .clusterIpIn → c.Client p.saddr → ∀ b vip,
      getClusterIpBackend hash (run (Maps.next hash c) Maps.init before).services p.saddr p.daddr
        p.sport p.dport proto = .backend b →
      (run (Maps.next hash c) Maps.init (before ++ .packet inPort port now p :: later)
        ).clusterIpReverse ⟨b.ip, b.port, proto⟩ = some vip →
      vip.ip = p.daddr → vip.port = p.dport →
      c.packetType inPort' r.daddr = some .fromClusterIpService ∧
      ∃ out' s, (handleRx hash c
        (run (Maps.next hash c) Maps.init (before ++ .packet inPort port now p :: later))
          inPort' port' now' r).2 = .redirect out' s ∧ Answers s p) ∧
    (c.packetType inPort p.daddr = some .nodePortIn →
      .remove ⟨q.saddr, q.daddr, q.sport, q.dport, proto, 0⟩ ∉ later →
      c.packetType inPort' r.daddr = some .fromNodePortService ∧
      ∃ s, (handleRx hash c
        (run (Maps.next hash c) Maps.init (before ++ .packet inPort port now p :: later))
          inPort' port' now' r).2 = .redirect c.nodeportPort s ∧
        Answers s p ∧ s.ethDst = p.ethSrc ∧ s.ethSrc = p.ethDst) := by
  refine ⟨fun _ _ => packetType_eq_iff wf, ?_, ?_⟩
  · intro htype client b vip backend reverse hip hport
    exact answer_clusterIp wf client htype hp backend sent reverse hip hport answer
  · intro htype kept
    have h := paired_init.run first
    have ⟨has, hq⟩ := sent_nodePort h htype hp sent
    rw [run_append, run_cons]
    exact answer_nodePort wf ((h.next _ rest.1).run rest.2)
      (has.run rest.2 (h.next _ rest.1) kept) hp hq answer

/-! ### A node -/

def nodeConfig : Config where
  clientSubnetMask := 0x00FFFFFF
  clientSubnet := 0x0001A8C0
  virtualClientSubnet := 0x00010A0A
  clusterIpSubnet := 0x0000600A
  clusterIpMask := 0x0000F0FF
  nodeportPort := 7

theorem nodeConfig_wellFormed : nodeConfig.WellFormed where
  clientSubnet := by decide
  virtualClientSubnet := by decide
  nodeportHost := by decide
  disjoint ip hv hc := by
    have both : nodeConfig.virtualClientSubnet &&& nodeConfig.clusterIpMask =
        nodeConfig.clusterIpSubnet &&& nodeConfig.clientSubnetMask := by
      rw [← hv, ← hc, BitVec.and_assoc, BitVec.and_assoc,
        BitVec.and_comm nodeConfig.clientSubnetMask]
    exact absurd both (by decide)

def nodeServices : Table Vip Backend := fun key =>
  if key = ⟨0x0100600A, 0x5000, 0x0600, 0⟩ ∨ key = ⟨0x057100CB, 0x3075, 0x0600, 0⟩ then
    some ⟨0, 1, 0⟩
  else if key = ⟨0x0100600A, 0x5000, 0x0600, 1⟩ ∨ key = ⟨0x057100CB, 0x3075, 0x0600, 1⟩ then
    some ⟨0x0500140A, 0x901F, 0x0600⟩
  else none

def nodeReverse : Table Backend Vip := fun key =>
  if key = ⟨0x0500140A, 0x901F, 0x0600⟩ then some ⟨0x0100600A, 0x5000, 0x0600, 0⟩ else none

def nodeConfigure : PacketEvent :=
  .configure nodeServices nodeReverse fun _ => ⟨0xAABBCCDDEE11, 3⟩

/-- `jhash` of everything is 0. -/
def nodeHash : SessionHash := fun _ _ _ _ _ => 0

def nodeRun (events : List PacketEvent) : Maps :=
  run (Maps.next nodeHash nodeConfig) Maps.init (nodeConfigure :: events)

def podPacket (saddr : BitVec 32) : Packet :=
  ⟨0xAABBCCDDEE00, 0xAABBCCDDEE11, saddr, 0x0100600A, .tcp, 0x3930, 0x5000⟩

def outsidePacket : Packet :=
  ⟨0xAABBCCDDEE00, 0xAABBCCDDEE22, 0x096433C6, 0x057100CB, .tcp, 0x3930, 0x3075⟩

def backendPacket (daddr : BitVec 32) (dport : BitVec 16) : Packet :=
  ⟨0, 0, 0x0500140A, daddr, .tcp, 0x901F, dport⟩

theorem node_portUnused (e : PacketEvent) : PortUnused (nodeRun []) e := by
  cases e with
  | packet inPort port now p =>
    intro k v h
    cases h
  | remove key => trivial
  | configure => trivial

/-- The pod 192.168.1.5 asks the ClusterIP service, and a client outside the NodePort service. -/
theorem services_round_trip_node :
    (∃ out s, (handleRx nodeHash nodeConfig (nodeRun [.packet 3 0 0 (podPacket 0x0501A8C0)]) 4 0 1
      (backendPacket 0x05010A0A 0x3930)).2 = .redirect out s ∧
        Answers s (podPacket 0x0501A8C0)) ∧
    ∃ s, (handleRx nodeHash nodeConfig (nodeRun [.packet 7 0x0004 0 outsidePacket]) 4 0 1
      (backendPacket 0x02010A0A 0x0004)).2 = .redirect 7 s ∧ Answers s outsidePacket := by
  have first : Meets (Maps.next nodeHash nodeConfig) PortUnused Maps.init [nodeConfigure] :=
    ⟨trivial, trivial⟩
  have one (e : PacketEvent) :
      Meets (Maps.next nodeHash nodeConfig) PortUnused (nodeRun []) [e] :=
    ⟨node_portUnused e, trivial⟩
  constructor
  · have client : nodeConfig.Client (podPacket 0x0501A8C0).saddr :=
      ⟨by decide, by decide, by decide⟩
    have sent : (handleRx nodeHash nodeConfig (nodeRun []) 3 0 0 (podPacket 0x0501A8C0)).2 =
        .redirect 3 ⟨0xAABBCCDDEE11, 0xAABBCCDDEE11, 0x05010A0A, 0x0500140A, .tcp, 0x3930,
          0x901F⟩ := by decide
    have trip := services_round_trip (r := backendPacket 0x05010A0A 0x3930) nodeConfig_wellFormed first
      (one (.packet 3 0 0 (podPacket 0x0501A8C0)))
      (rfl : (podPacket 0x0501A8C0).proto.ipProto = some (bswap16 6)) sent
      ⟨rfl, rfl, rfl, rfl, rfl⟩ 4 0 1
    exact (trip.2.1 (by decide) client ⟨0x0500140A, 0x901F, 0x0600⟩
      ⟨0x0100600A, 0x5000, 0x0600, 0⟩ (by decide) (by decide) rfl rfl).2
  · have sent : (handleRx nodeHash nodeConfig (nodeRun []) 7 0x0004 0 outsidePacket).2 =
        .redirect 3 ⟨0xAABBCCDDEE11, 0xAABBCCDDEE22, 0x02010A0A, 0x0500140A, .tcp, 0x0004,
          0x901F⟩ := by decide
    have trip := services_round_trip (r := backendPacket 0x02010A0A 0x0004) nodeConfig_wellFormed first
      (one (.packet 7 0x0004 0 outsidePacket))
      (rfl : outsidePacket.proto.ipProto = some (bswap16 6)) sent
      ⟨rfl, rfl, rfl, rfl, rfl⟩ 4 0 1
    have ⟨_, s, hs, answers, _⟩ := trip.2.2 (by decide) List.not_mem_nil
    exact ⟨s, hs, answers⟩

/-- The pod 192.168.1.2 asks the same service.  The answer to it is taken for one to a NodePort
packet, and dropped. -/
theorem host_two_answer_dropped :
    nodeConfig.packetType 3 (podPacket 0x0201A8C0).daddr = some .clusterIpIn ∧
    (handleRx nodeHash nodeConfig (nodeRun []) 3 0 0 (podPacket 0x0201A8C0)).2 =
      .redirect 3 ⟨0xAABBCCDDEE11, 0xAABBCCDDEE11, 0x02010A0A, 0x0500140A, .tcp, 0x3930,
        0x901F⟩ ∧
    nodeConfig.packetType 4 (backendPacket 0x02010A0A 0x3930).daddr = some .fromNodePortService ∧
    (handleRx nodeHash nodeConfig (nodeRun [.packet 3 0 0 (podPacket 0x0201A8C0)]) 4 0 1
      (backendPacket 0x02010A0A 0x3930)).2 = .rxDrop := by
  decide

end Polycube.K8switch
