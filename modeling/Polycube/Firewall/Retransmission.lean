import Polycube.Firewall.Consistent

/-!
# Retransmissions

A history is the table with, for each entry, the segment that brought it into its present state.
Over every history the two programs agree (`History.Consistent`), but for one packet: a `SYN, ACK`
sent again in `SYN_RECV` is measured against the number its first copy left there, the one after
its own sequence number, and not the one it acknowledges.
-/

namespace Polycube.Firewall

open Lib

structure Arrival where
  pkt : PacketHeaders
  frame : Buffer
  now : BitVec 64
  deriving DecidableEq

structure Segment where
  tuple : CtKey
  flags : BitVec 8
  seqN : BitVec 32
  ackN : BitVec 32
  deriving DecidableEq

def PacketHeaders.segment (pkt : PacketHeaders) : Segment :=
  ⟨pkt.tuple, pkt.flags, pkt.seqN, pkt.ackN⟩

namespace Arrival

def session (a : Arrival) : Session := normalize a.pkt.tuple

/-- The label of the packet; `none` when `ConntrackLabel` drops it. -/
def label (a : Arrival) (ct : Connections) : Option ConnStatus :=
  (Firewall.label ct a.pkt a.frame).map Prod.fst

def track (ct : Connections) (a : Arrival) : Connections :=
  (Firewall.track a.pkt a.frame a.now ct).2

def Accepted (ct : Connections) (a : Arrival) : Prop :=
  ∃ st, a.label ct = some st ∧ st ≠ .invalid

end Arrival

/-- Some packets of the session, all accepted, bring its entry to `ESTABLISHED`. -/
def CanComplete (ct : Connections) (k : CtKey) : Prop :=
  ∃ as : List Arrival,
    Meets Arrival.track (fun ct a => a.session.key = k ∧ a.Accepted ct) ct as ∧
      (run Arrival.track ct as k).map CtValue.state = some .established

structure History where
  ct : Connections
  maker : Table CtKey Segment

namespace History

def empty : History := ⟨fun _ => none, fun _ => none⟩

/-- A packet goes through both programs; the entries it changes, deadlines apart, are its own
making. -/
def step (h : History) (a : Arrival) : History where
  ct := a.track h.ct
  maker k :=
    if (a.track h.ct k).map CtValue.undated = (h.ct k).map CtValue.undated then h.maker k
    else some a.pkt.segment

/-- The packet is the segment that made the state its entry is in, `SYN_SENT` or `SYN_RECV`. -/
def Retransmits (h : History) (a : Arrival) : Prop :=
  h.maker a.session.key = some a.pkt.segment ∧
    ∃ v, h.ct a.session.key = some v ∧ (v.state = .synSent ∨ v.state = .synRecv)

structure Consistent (h : History) (a : Arrival) : Prop where
  /-- `ESTABLISHED` means there is an entry, in the packet's direction or in the other -/
  established : a.label h.ct = some .established →
    ∃ v, h.ct a.session.key = some v ∧ a.session.direction v ≠ .miss
  invalid : a.label h.ct = some .invalid → (h.step a).ct = h.ct
  /-- no host can complete a handshake with its own address -/
  retransmission : h.Retransmits a →
    a.Accepted h.ct ∧
      (CanComplete h.ct a.session.key → CanComplete (h.step a).ct a.session.key) ∧
      (a.pkt.srcIp ≠ a.pkt.dstIp → CanComplete (h.step a).ct a.session.key)
  forward : ∀ k v, k.l4proto = ipprotoTcp → h.ct k = some v →
    1 ≤ v.state.rank ∧ ∃ v', (h.step a).ct k = some v' ∧
      (v.state.rank ≤ v'.state.rank ∨
        k = a.session.key ∧ onlySyn a.pkt.flags ∧ v' = synEntry a.session a.pkt a.now)

/-- The packet is not a `SYN, ACK` sent again in the state it made, unless the number it
acknowledges happens to be the one after its own. -/
def Unrepeated (h : History) (a : Arrival) : Prop :=
  ∀ v, h.maker a.session.key = some a.pkt.segment → h.ct a.session.key = some v →
    v.state = .synRecv → a.pkt.ackN = a.pkt.seqN + hexBeOne

/-! ### What made an entry -/

structure Made (m : Option Segment) (k : CtKey) (v : CtValue) : Prop where
  tcp : k.l4proto = ipprotoTcp → 1 ≤ v.state.rank
  synSent : v.state = .synSent →
    ∃ g, m = some g ∧ g.tuple.l4proto = ipprotoTcp ∧ (normalize g.tuple).key = k ∧
      (normalize g.tuple).direction v = .forward ∧ onlySyn g.flags
  synRecv : v.state = .synRecv →
    ∃ g, m = some g ∧ g.tuple.l4proto = ipprotoTcp ∧ (normalize g.tuple).key = k ∧
      (normalize g.tuple).direction v = .reverse ∧ onlySynAck g.flags ∧
      v.sequence = g.seqN + hexBeOne

def Reached (h : History) : Prop := ∀ k v, h.ct k = some v → Made (h.maker k) k v

theorem Made.dated {m : Option Segment} {k : CtKey} {v : CtValue} (h : Made m k v)
    (ttl : BitVec 64) : Made m k { v with ttl := ttl } :=
  ⟨h.tcp, h.synSent, h.synRecv⟩

theorem Reached.empty : Reached empty := fun _ _ h => by cases h

section

variable {h : History} {a : Arrival} {k : CtKey}

theorem step_ct_of_ne (hk : k ≠ a.session.key) : (h.step a).ct k = h.ct k :=
  track_snd_apply hk.symm a.now h.ct

theorem step_moved : Moved a.session a.pkt a.now (h.ct a.session.key) ((h.step a).ct a.session.key) :=
  track_moved a.pkt a.frame a.now h.ct

theorem session_key_l4proto : a.session.key.l4proto = a.pkt.l4proto := by
  rw [Arrival.session, normalize_key]
  rfl

theorem direction_synEntry (s : Session) (pkt : PacketHeaders) (now : BitVec 64) :
    s.direction (synEntry s pkt now) = .forward := direction_forward rfl rfl

theorem made_of_moved {e e' : Option CtValue} (moved : Moved a.session a.pkt a.now e e')
    (hne : e'.map CtValue.undated ≠ e.map CtValue.undated) {v' : CtValue} (hv' : e' = some v') :
    Made (some a.pkt.segment) a.session.key v' := by
  cases moved with
  | kept => exact absurd rfl hne
  | dated v ttl => exact absurd rfl hne
  | untracked hproto _ hstate =>
    have simple := hstate v' (by simp [hv'])
    refine ⟨fun hk => absurd (session_key_l4proto.symm.trans hk) hproto, fun hs => ?_,
      fun hs => ?_⟩ <;> simp [hs] at simple
  | syn hproto hsyn _ =>
    rw [← Option.some.inj hv']
    exact ⟨fun _ => le_rfl,
      fun _ => ⟨_, rfl, hproto, rfl, direction_synEntry a.session a.pkt a.now, hsyn⟩,
      fun hs => by cases hs⟩
  | synAck hproto hflags v hstate hdir ttl =>
    rw [← Option.some.inj hv']
    refine ⟨fun _ => Nat.le_succ 1, fun hs => ?_,
      fun _ => ⟨_, rfl, hproto, rfl, hdir, hflags, rfl⟩⟩
    cases hs
  | later v st ttl sequence hproto hrank hopen =>
    rw [← Option.some.inj hv']
    refine ⟨fun _ => Nat.one_le_of_lt hopen, ?_, ?_⟩ <;>
    · rintro rfl
      exact absurd hopen (by decide)

theorem Reached.step (hr : Reached h) (a : Arrival) : Reached (h.step a) := by
  intro k v' hv'
  by_cases same : (a.track h.ct k).map CtValue.undated = (h.ct k).map CtValue.undated
  · have maker : (h.step a).maker k = h.maker k := if_pos same
    have found : (h.ct k).map CtValue.undated = some v'.undated := by
      rw [← same]
      exact congrArg (Option.map CtValue.undated) hv'
    obtain ⟨v, hv, hundated⟩ := Option.map_eq_some_iff.1 found
    rw [maker, CtValue.eq_of_undated hundated]
    exact (hr k v hv).dated _
  · have maker : (h.step a).maker k = some a.pkt.segment := if_neg same
    have own : k = a.session.key := by
      by_contra hk
      exact same (congrArg _ (step_ct_of_ne hk))
    subst own
    rw [maker]
    exact made_of_moved step_moved same hv'

theorem reached_run (as : List Arrival) : Reached (run History.step History.empty as) :=
  run_invariant (fun _ a hr => hr.step a) as Reached.empty

end

theorem onlySyn_eq : ∀ {flags : BitVec 8}, onlySyn flags → flags = tcphdrSyn := by decide

theorem onlySynAck_eq :
    ∀ {flags : BitVec 8}, onlySynAck flags → flags = tcphdrSyn ||| tcphdrAck := by decide

end History

theorem CanComplete.congr {ct ct' : Connections} (same : SameButDates ct ct') {k : CtKey}
    (h : CanComplete ct k) : CanComplete ct' k := by
  obtain ⟨as, meets, done⟩ := h
  refine ⟨as, ?_⟩
  induction as generalizing ct ct' with
  | nil =>
    refine ⟨trivial, ?_⟩
    rcases same.apply k with ⟨h₁, h₂⟩ | ⟨v, ttl, h₁, h₂⟩
    · simp [h₁] at done
    · simpa [h₁, h₂] using done
  | cons a as ih =>
    have label : a.label ct = a.label ct' := by
      rw [Arrival.label, Arrival.label, same.label]
    obtain ⟨meets', done'⟩ := ih (same.track a.pkt a.frame a.now) meets.2 done
    refine ⟨⟨⟨meets.1.1, ?_⟩, meets'⟩, done'⟩
    obtain ⟨st, hst, hne⟩ := meets.1.2
    exact ⟨st, label ▸ hst, hne⟩

theorem CanComplete.cons {ct : Connections} {k : CtKey} {a : Arrival} (hk : a.session.key = k)
    (accepted : a.Accepted ct) (h : CanComplete (a.track ct) k) : CanComplete ct k := by
  obtain ⟨as, meets, done⟩ := h
  exact ⟨a :: as, ⟨⟨hk, accepted⟩, meets⟩, done⟩

theorem Arrival.label_eq (a : Arrival) (ct : Connections) :
    a.label ct = (Firewall.track a.pkt a.frame a.now ct).1.map Tracked.label := by
  unfold Arrival.label Firewall.track
  cases Firewall.label ct a.pkt a.frame <;> rfl

section

variable {ct : Connections} {t : CtKey} {v : CtValue}

/-- The packet of tuple `t` with these flags and numbers. -/
def reply (t : CtKey) (flags : BitVec 8) (seqN ackN : BitVec 32) : Arrival :=
  ⟨⟨t.srcIp, t.dstIp, t.l4proto, t.srcPort, t.dstPort, flags, seqN, ackN, .new, .notSet⟩, [], 0#64⟩

theorem canComplete_of_synRecv (htcp : t.l4proto = ipprotoTcp)
    (hv : ct (normalize t).key = some v) (hdir : (normalize t).direction v = .forward)
    (hstate : v.state = .synRecv) : CanComplete ct (normalize t).key := by
  let a := reply t tcphdrAck 0#32 v.sequence
  obtain ⟨label, table⟩ := track_ack a.pkt (normalize t) a.frame a.now ct htcp rfl rfl hv hdir
    hstate rfl
  refine .cons (a := a) rfl ⟨.established, (a.label_eq ct).trans label, by decide⟩
    ⟨[], trivial, ?_⟩
  rw [run_nil, Arrival.track, table, Function.update_self]
  rfl

/-- In `SYN_SENT` the server's SYN, ACK comes first. -/
theorem canComplete_of_synSent (htcp : t.l4proto = ipprotoTcp) (hne : t.srcIp ≠ t.dstIp)
    (hv : ct (normalize t).key = some v) (hip : v.ipRev = (normalize t).ipRev)
    (hport : v.portRev = (normalize t).portRev) (hstate : v.state = .synSent) :
    CanComplete ct (normalize t).key := by
  let a := reply t.reverse (tcphdrSyn ||| tcphdrAck) 0#32 v.sequence
  have key : a.session.key = (normalize t).key := normalize_reverse_key t
  obtain ⟨label, table⟩ := track_synAck a.pkt (normalize t.reverse) a.frame a.now ct htcp rfl rfl
    (key ▸ hv) ((direction_reverse_iff hip hport).2 hne) hstate rfl
  let v₁ : CtValue :=
    { v with state := .synRecv, ttl := a.now + tcpSynRecv, sequence := 0#32 + hexBeOne }
  have found : a.track ct (normalize t).key = some v₁ := by
    rw [Arrival.track, table, normalize_reverse_key, Function.update_self]
    rfl
  have forward : (normalize t).direction v₁ = .forward := direction_forward hip hport
  exact .cons (a := a) key ⟨.established, (a.label_eq ct).trans label, by decide⟩
    (canComplete_of_synRecv htcp found forward rfl)

end

/-! ### The segment again -/

theorem flags_of_forward {s : Session} {v : CtValue} (h : s.direction v = .forward) :
    v.ipRev = s.ipRev ∧ v.portRev = s.portRev := by
  unfold Session.direction at h
  split_ifs at h with hf hr
  exact hf

theorem flags_of_reverse {s : Session} {v : CtValue} (h : s.direction v = .reverse) :
    v.ipRev ≠ s.ipRev ∧ v.portRev ≠ s.portRev := by
  unfold Session.direction at h
  split_ifs at h with hf hr
  exact hr

section

variable (a : Arrival) {s : Session} {ct : Connections} {v : CtValue}
  (hproto : a.pkt.l4proto = ipprotoTcp) (hs : normalize a.pkt.tuple = s)
  (hct : ct s.key = some v)

include hproto hs hct

theorem syn_again (hflags : a.pkt.flags = tcphdrSyn) (hdir : s.direction v = .forward)
    (hstate : v.state = .synSent) :
    a.label ct = some .new ∧
    a.track ct = Function.update ct s.key (some { v with ttl := a.now + tcpSynSent }) := by
  have new : labelTcp s (ct s.key) a.pkt = .new := by
    simp [labelTcp, hct, hdir, labelTcpForward, hflags, hstate]
  rw [a.label_eq, track_tcp_label a.pkt s a.frame a.now ct hproto hs, Arrival.track,
    track_tcp_snd a.pkt s a.frame a.now ct hproto hs (by simp [new]), new]
  refine ⟨rfl, ?_⟩
  simp [updateTcp, hs, hflags, updateTcpStep, hct, hdir, updateTcpForward, hstate]

/-- A SYN, ACK sent again in `SYN_RECV`, acknowledging the number it left there. -/
theorem synAck_again (hflags : a.pkt.flags = tcphdrSyn ||| tcphdrAck)
    (hdir : s.direction v = .reverse) (hstate : v.state = .synRecv)
    (hack : a.pkt.ackN = v.sequence) :
    a.label ct = some .established ∧
    a.track ct = Function.update ct s.key (some { v with ttl := a.now + tcpSynRecv }) := by
  have established : labelTcp s (ct s.key) a.pkt = .established := by
    simp [labelTcp, hct, hdir, labelTcpReverse, hflags, hstate, hack]
  rw [a.label_eq, track_tcp_label a.pkt s a.frame a.now ct hproto hs, Arrival.track,
    track_tcp_snd a.pkt s a.frame a.now ct hproto hs (by simp [established]), established]
  refine ⟨rfl, ?_⟩
  simp [updateTcp, hs, hflags, updateTcpStep, hct, hdir, updateTcpReverse, hstate, hack]

theorem synAck_refused (hflags : a.pkt.flags = tcphdrSyn ||| tcphdrAck)
    (hdir : s.direction v = .reverse) (hstate : v.state = .synRecv)
    (hack : a.pkt.ackN ≠ v.sequence) : a.label ct = some .invalid := by
  rw [a.label_eq, track_tcp_label a.pkt s a.frame a.now ct hproto hs]
  simp [labelTcp, hct, hdir, labelTcpReverse, hflags, hstate, hack]

end

theorem SameButDates.date {ct : Connections} {k : CtKey} {v : CtValue} (hv : ct k = some v)
    (ttl : BitVec 64) :
    SameButDates ct (Function.update ct k (some { v with ttl := ttl })) := by
  have same := @SameButDates.update _ _ (SameButDates.refl ct) k (some v) (some { v with ttl := ttl }) rfl
  rwa [show Function.update ct k (some v) = ct by rw [← hv, Function.update_eq_self]] at same

namespace History

variable {h : History} {a : Arrival}

/-- The segment that made an entry, seen through the packet that repeats it. -/
theorem Retransmits.made (hr : Reached h) (again : h.Retransmits a) :
    ∃ v, h.ct a.session.key = some v ∧ a.pkt.l4proto = ipprotoTcp ∧
      (v.state = .synSent ∧ a.session.direction v = .forward ∧ a.pkt.flags = tcphdrSyn ∨
        v.state = .synRecv ∧ a.session.direction v = .reverse ∧
          a.pkt.flags = tcphdrSyn ||| tcphdrAck ∧ v.sequence = a.pkt.seqN + hexBeOne) := by
  obtain ⟨maker, v, hv, hstate⟩ := again
  have made := hr _ v hv
  refine ⟨v, hv, ?_⟩
  rcases hstate with hsent | hrecv
  · obtain ⟨g, hg, hproto, -, hdir, hflags⟩ := made.synSent hsent
    obtain rfl := Option.some.inj (maker.symm.trans hg)
    exact ⟨hproto, .inl ⟨hsent, hdir, onlySyn_eq hflags⟩⟩
  · obtain ⟨g, hg, hproto, -, hdir, hflags, hsequence⟩ := made.synRecv hrecv
    obtain rfl := Option.some.inj (maker.symm.trans hg)
    exact ⟨hproto, .inr ⟨hrecv, hdir, onlySynAck_eq hflags, hsequence⟩⟩

theorem retransmits_of_synSent {v : CtValue} (hv : h.ct a.session.key = some v)
    (hproto : a.pkt.l4proto = ipprotoTcp) (hstate : v.state = .synSent)
    (hdir : a.session.direction v = .forward) (hflags : a.pkt.flags = tcphdrSyn) :
    a.Accepted h.ct ∧
      (CanComplete h.ct a.session.key → CanComplete (h.step a).ct a.session.key) ∧
      (a.pkt.srcIp ≠ a.pkt.dstIp → CanComplete (h.step a).ct a.session.key) := by
  obtain ⟨label, table⟩ := syn_again a (s := a.session) hproto rfl hv hflags hdir hstate
  have after : (h.step a).ct = _ := table
  refine ⟨⟨.new, label, by decide⟩, fun able => ?_, fun hne => ?_⟩
  · rw [after]
    exact able.congr (SameButDates.date hv _)
  · have found : (h.step a).ct a.session.key = some { v with ttl := a.now + tcpSynSent } := by
      rw [after, Function.update_self]
    obtain ⟨hip, hport⟩ := flags_of_forward hdir
    exact canComplete_of_synSent (t := a.pkt.tuple) hproto hne found hip hport hstate

theorem retransmits_of_synRecv {v : CtValue} (hv : h.ct a.session.key = some v)
    (hproto : a.pkt.l4proto = ipprotoTcp) (hstate : v.state = .synRecv)
    (hdir : a.session.direction v = .reverse) (hflags : a.pkt.flags = tcphdrSyn ||| tcphdrAck)
    (hack : a.pkt.ackN = v.sequence) :
    a.Accepted h.ct ∧
      (CanComplete h.ct a.session.key → CanComplete (h.step a).ct a.session.key) ∧
      (a.pkt.srcIp ≠ a.pkt.dstIp → CanComplete (h.step a).ct a.session.key) := by
  obtain ⟨label, table⟩ := synAck_again a (s := a.session) hproto rfl hv hflags hdir hstate hack
  have after : (h.step a).ct = _ := table
  refine ⟨⟨.established, label, by decide⟩, fun able => ?_, fun hne => ?_⟩
  · rw [after]
    exact able.congr (SameButDates.date hv _)
  · -- the client's packets run the other way
    have turned : normalize a.pkt.tuple.reverse = _ := normalize_reverse hne
    have key : (normalize a.pkt.tuple.reverse).key = a.session.key :=
      normalize_reverse_key a.pkt.tuple
    have found : (h.step a).ct (normalize a.pkt.tuple.reverse).key =
        some { v with ttl := a.now + tcpSynRecv } := by
      rw [key, after, Function.update_self]
    obtain ⟨hip, hport⟩ := flags_of_reverse hdir
    have forward : (normalize a.pkt.tuple.reverse).direction
        { v with ttl := a.now + tcpSynRecv } = .forward := by
      rw [turned]
      exact direction_forward (Bool.eq_not_of_ne hip) (Bool.eq_not_of_ne hport)
    exact key ▸ canComplete_of_synRecv (t := a.pkt.tuple.reverse) hproto found forward hstate

theorem step_forward (hr : Reached h) {k : CtKey} {v : CtValue} (hk : k.l4proto = ipprotoTcp)
    (hv : h.ct k = some v) :
    1 ≤ v.state.rank ∧ ∃ v', (h.step a).ct k = some v' ∧
      (v.state.rank ≤ v'.state.rank ∨
        k = a.session.key ∧ onlySyn a.pkt.flags ∧ v' = synEntry a.session a.pkt a.now) := by
  refine ⟨(hr k v hv).tcp hk, ?_⟩
  by_cases own : k = a.session.key
  · subst own
    have moved := step_moved (h := h) (a := a)
    rw [hv] at moved
    generalize (h.step a).ct a.session.key = e' at moved ⊢
    cases moved with
    | kept => exact ⟨v, rfl, .inl le_rfl⟩
    | dated v ttl => exact ⟨_, rfl, .inl le_rfl⟩
    | untracked hproto => exact absurd (session_key_l4proto.symm.trans hk) hproto
    | syn hproto hsyn _ => exact ⟨_, rfl, .inr ⟨rfl, hsyn, rfl⟩⟩
    | synAck hproto hflags v hstate hdir ttl =>
      exact ⟨_, rfl, .inl (by rw [hstate]; exact Nat.le_succ 1)⟩
    | later v st ttl sequence hproto hrank hopen => exact ⟨_, rfl, .inl hrank.le⟩
  · exact ⟨v, by rw [step_ct_of_ne own, hv], .inl le_rfl⟩

/-- In the state a segment made, it is accepted again exactly when it is not a `SYN, ACK`, or
happens to acknowledge the number after its own. -/
theorem retransmission_iff (hr : Reached h) :
    (h.Retransmits a →
      a.Accepted h.ct ∧
        (CanComplete h.ct a.session.key → CanComplete (h.step a).ct a.session.key) ∧
        (a.pkt.srcIp ≠ a.pkt.dstIp → CanComplete (h.step a).ct a.session.key)) ↔
      h.Unrepeated a := by
  constructor
  · intro owed v maker hv hrecv
    have again : h.Retransmits a := ⟨maker, v, hv, .inr hrecv⟩
    obtain ⟨v', hv', hproto, ⟨hsent, -⟩ | ⟨-, hdir, hflags, hsequence⟩⟩ := again.made hr
    · simp_all
    · obtain rfl := Option.some.inj (hv.symm.trans hv')
      by_contra hack
      have refused := synAck_refused a (s := a.session) hproto rfl hv hflags hdir hrecv
        (fun e => hack (e.trans hsequence))
      obtain ⟨st, hst, hne⟩ := (owed again).1
      exact hne (Option.some.inj (hst.symm.trans refused))
  · intro unrepeated again
    obtain ⟨v, hv, hproto, ⟨hsent, hdir, hflags⟩ | ⟨hrecv, hdir, hflags, hsequence⟩⟩ :=
      again.made hr
    · exact retransmits_of_synSent hv hproto hsent hdir hflags
    · exact retransmits_of_synRecv hv hproto hrecv hdir hflags
        ((unrepeated v again.1 hv hrecv).trans hsequence.symm)

/-- After any packets, the two programs agree at the next one exactly when it is not a `SYN, ACK`
sent again in the `SYN_RECV` it made. -/
theorem consistent_iff (as : List Arrival) (a : Arrival) :
    (run History.step History.empty as).Consistent a ↔
      (run History.step History.empty as).Unrepeated a := by
  have hr := reached_run as
  generalize run History.step History.empty as = h at hr ⊢
  constructor
  · intro consistent
    exact (retransmission_iff hr).1 consistent.retransmission
  · intro unrepeated
    refine ⟨fun hlabel => ?_, fun hlabel => ?_, (retransmission_iff hr).2 unrepeated,
      fun k v hk hv => step_forward hr hk hv⟩
    · obtain ⟨⟨st, frame'⟩, hl, rfl⟩ := Option.map_eq_some_iff.1 hlabel
      exact found_of_established hl
    · obtain ⟨⟨st, frame'⟩, hl, rfl⟩ := Option.map_eq_some_iff.1 hlabel
      exact track_of_invalid hl a.now

def slowClient : Handshake := ⟨0x0100000a#32, 0x0200000a#32, 0x3412#16, 0x5000#16, 1#32, 7#32⟩

/-- The server does not hear the ACK in time and sends its SYN, ACK again. -/
theorem synAck_again_inconsistent :
    ¬ (run History.step History.empty
        [⟨slowClient.syn dnsQuery, [], 0#64⟩, ⟨slowClient.synAck dnsQuery, [], 0#64⟩]).Consistent
      ⟨slowClient.synAck dnsQuery, [], 60#64⟩ := by
  intro consistent
  have unrepeated := (retransmission_iff (reached_run _)).1 consistent.retransmission
  have hv : (run History.step History.empty
      [⟨slowClient.syn dnsQuery, [], 0#64⟩, ⟨slowClient.synAck dnsQuery, [], 0#64⟩]).ct
        (normalize slowClient.tuple).key =
      some ⟨0#64 + tcpSynRecv, .synRecv, false, false, bswap32 8#32⟩ := by decide +kernel
  exact absurd (unrepeated _ (by decide +kernel) hv rfl) (by decide +kernel)

end History

end Polycube.Firewall
