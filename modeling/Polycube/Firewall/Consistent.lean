import Polycube.Lib.Run
import Polycube.Firewall.Handshake

/-!
# The two programs agree on an entry

What one packet can make of the entry of its session is said once (`Moved`); what a label means
for the table follows.  A history remembers, beside the table, which segment brought each entry
into its present state, so that a segment sent again in the state it made can be told from a new
one.
-/

namespace Polycube.Firewall

open Function Lib

/-! ### What one packet makes of an entry -/

def CtValue.undated (v : CtValue) : CtValue := { v with ttl := 0#64 }

def ConnStatus.rank : ConnStatus → ℕ
  | .synSent => 1
  | .synRecv => 2
  | .established => 3
  | .finWait1 => 4
  | .finWait2 => 5
  | .lastAck => 6
  | .timeWait => 7
  | .new | .related | .invalid => 0

/-- What a packet of session `s` can make of the entry of the session. -/
inductive Moved (s : Session) (pkt : PacketHeaders) (now : BitVec 64) :
    Option CtValue → Option CtValue → Prop
  | kept (e : Option CtValue) : Moved s pkt now e e
  | dated (v : CtValue) (ttl : BitVec 64) : Moved s pkt now (some v) (some { v with ttl := ttl })
  /-- UDP and ICMP -/
  | untracked (hproto : pkt.l4proto ≠ ipprotoTcp) (e : Option CtValue) {e' : Option CtValue}
      (hstate : ∀ v ∈ e', v.state = .new ∨ v.state = .established) : Moved s pkt now e e'
  /-- a SYN makes the entry anew -/
  | syn (hproto : pkt.l4proto = ipprotoTcp) (hsyn : onlySyn pkt.flags) (e : Option CtValue) :
      Moved s pkt now e (some (synEntry s pkt now))
  | synAck (hproto : pkt.l4proto = ipprotoTcp) (hflags : onlySynAck pkt.flags) (v : CtValue)
      (hstate : v.state = .synSent) (hdir : s.direction v = .reverse) (ttl : BitVec 64) :
      Moved s pkt now (some v) (some { v with
        state := .synRecv, ttl := ttl, sequence := pkt.seqN + hexBeOne })
  | later (v : CtValue) (st : ConnStatus) (ttl : BitVec 64) (sequence : BitVec 32)
      (hproto : pkt.l4proto = ipprotoTcp) (hrank : v.state.rank < st.rank)
      (hopen : ConnStatus.rank .synRecv < st.rank) :
      Moved s pkt now (some v) (some { v with state := st, ttl := ttl, sequence := sequence })

section Step

variable {s : Session} {pkt : PacketHeaders} {now : BitVec 64} {v : CtValue}

def Storable (s : Session) (pkt : PacketHeaders) (now : BitVec 64) (v : CtValue)
    (step : TcpStep) : Prop :=
  ∀ v', step = .store v' → Moved s pkt now (some v) (some v')

theorem updateFinWait2_storable (hproto : pkt.l4proto = ipprotoTcp)
    (hstate : v.state = .finWait2) : Storable s pkt now v (updateFinWait2 v pkt now) := by
  intro v' h
  unfold updateFinWait2 at h
  split_ifs at h with hfin
  · rw [← TcpStep.store.inj h]
    exact .later v .lastAck _ _ hproto (by rw [hstate]; decide) (by decide)
  · rw [← TcpStep.store.inj h]
    exact .dated v _

theorem updateTcpOpen_storable (hproto : pkt.l4proto = ipprotoTcp) :
    Storable s pkt now v (updateTcpOpen v pkt now) := by
  intro v' h
  unfold updateTcpOpen at h
  cases hstate : v.state with
  | established =>
    simp only [hstate] at h
    split_ifs at h with hfin
    · rw [← TcpStep.store.inj h]
      exact .later v .finWait1 _ _ hproto (by rw [hstate]; decide) (by decide)
    · rw [← TcpStep.store.inj h]
      rw [← hstate]
      exact .dated v _
  | finWait1 =>
    simp only [hstate] at h
    split_ifs at h with hack
    -- the packet may go through two states at once
    unfold updateFinWait2 at h
    split_ifs at h with hfin
    · rw [← TcpStep.store.inj h]
      exact .later v .lastAck _ _ hproto (by rw [hstate]; decide) (by decide)
    · rw [← TcpStep.store.inj h]
      exact .later v .finWait2 _ v.sequence hproto (by rw [hstate]; decide) (by decide)
  | finWait2 =>
    simp only [hstate] at h
    exact updateFinWait2_storable hproto hstate v' h
  | lastAck =>
    simp only [hstate] at h
    split_ifs at h with hack
    · rw [← TcpStep.store.inj h]
      exact .later v .timeWait _ v.sequence hproto (by rw [hstate]; decide) (by decide)
    · rw [← TcpStep.store.inj h]
      rw [← hstate]
      exact .dated v _
  | timeWait =>
    simp only [hstate] at h
    split_ifs at h
  | new | related | invalid | synSent | synRecv => simp only [hstate, reduceCtorEq] at h

theorem updateTcpForward_storable (hproto : pkt.l4proto = ipprotoTcp) :
    Storable s pkt now v (updateTcpForward v pkt now) := by
  intro v' h
  by_cases hsent : v.state = .synSent
  · simp only [updateTcpForward, hsent] at h
    split_ifs at h with hsyn
    rw [← TcpStep.store.inj h]
    rw [← hsent]
    exact .dated v _
  · by_cases hrecv : v.state = .synRecv
    · simp only [updateTcpForward, hrecv] at h
      split_ifs at h with hack
      rw [← TcpStep.store.inj h]
      exact .later v .established _ v.sequence hproto (by rw [hrecv]; decide) (by decide)
    · have opened : updateTcpForward v pkt now = updateTcpOpen v pkt now := by
        unfold updateTcpForward
        split
        · exact absurd ‹_› hsent
        · exact absurd ‹_› hrecv
        · rfl
      exact updateTcpOpen_storable hproto v' (opened ▸ h)

theorem updateTcpReverse_storable (hproto : pkt.l4proto = ipprotoTcp)
    (hdir : s.direction v = .reverse) : Storable s pkt now v (updateTcpReverse v pkt now) := by
  intro v' h
  by_cases hsent : v.state = .synSent
  · simp only [updateTcpReverse, hsent] at h
    split_ifs at h with hack
    rw [← TcpStep.store.inj h]
    exact .synAck hproto hack.1 v hsent hdir _
  · by_cases hrecv : v.state = .synRecv
    · simp only [updateTcpReverse, hrecv] at h
      split_ifs at h with hack
      rw [← TcpStep.store.inj h]
      rw [← hrecv]
      exact .dated v _
    · have opened : updateTcpReverse v pkt now = updateTcpOpen v pkt now := by
        unfold updateTcpReverse
        split
        · exact absurd ‹_› hsent
        · exact absurd ‹_› hrecv
        · rfl
      exact updateTcpOpen_storable hproto v' (opened ▸ h)

end Step

section Packet

variable (pkt : PacketHeaders) (frame : Buffer) (now : BitVec 64) (ct : Connections)

theorem updateTcp_moved (hproto : pkt.l4proto = ipprotoTcp) :
    Moved (normalize pkt.tuple) pkt now (ct (normalize pkt.tuple).key)
      ((updateTcp pkt now ct).2 (normalize pkt.tuple).key) := by
  unfold updateTcp
  generalize normalize pkt.tuple = s
  by_cases hrst : hasFlag pkt.flags tcphdrRst
  · simp only [hrst, if_true]
    exact .kept _
  · rw [if_neg hrst]
    cases hstep : updateTcpStep s (ct s.key) pkt now with
    | keep => exact .kept _
    | reject => exact .kept _
    | miss =>
      by_cases hsyn : onlySyn pkt.flags
      · simp only [hsyn, if_true, update_self]
        exact .syn hproto hsyn _
      · simp only [hsyn]
        exact .kept _
    | store v' =>
      simp only [update_self]
      cases hv : ct s.key with
      | none => simp [updateTcpStep, hv] at hstep
      | some v =>
        cases hdir : s.direction v with
        | miss => simp [updateTcpStep, hv, hdir] at hstep
        | forward =>
          simp only [updateTcpStep, hv, hdir] at hstep
          exact updateTcpForward_storable hproto v' hstep
        | reverse =>
          simp only [updateTcpStep, hv, hdir] at hstep
          exact updateTcpReverse_storable hproto hdir v' hstep

theorem insertNew_moved {s : Session} (hproto : pkt.l4proto ≠ ipprotoTcp) (ttl : BitVec 64) :
    Moved s pkt now (ct s.key) (insertNew s.key (newEntry s ttl) ct s.key) := by
  cases hv : ct s.key with
  | none =>
    simp only [insertNew, hv, update_self]
    exact .untracked hproto none (by simp [newEntry])
  | some v =>
    simp only [insertNew, hv]
    exact .kept _

theorem updateUdp_moved (hproto : pkt.l4proto ≠ ipprotoTcp) :
    Moved (normalize pkt.tuple) pkt now (ct (normalize pkt.tuple).key)
      (updateUdp pkt now ct (normalize pkt.tuple).key) := by
  unfold updateUdp
  generalize normalize pkt.tuple = s
  cases hv : ct s.key with
  | none =>
    have inserted := insertNew_moved pkt now ct hproto (now + udpNewTimeout) (s := s)
    rw [hv] at inserted
    exact inserted
  | some v =>
    cases hdir : s.direction v with
    | miss =>
      have inserted := insertNew_moved pkt now ct hproto (now + udpNewTimeout) (s := s)
      rw [hv] at inserted
      simpa only [Option.bind_some, udpRefresh, hdir] using inserted
    | forward =>
      simp only [Option.bind_some, udpRefresh, hdir]
      split_ifs with hnew <;> simp only [update_self] <;> exact .dated v _
    | reverse =>
      simp only [Option.bind_some, udpRefresh, hdir]
      split_ifs with hnew
      · simp only [update_self]
        exact .untracked hproto (some v) (by simp)
      · simp only [update_self]
        exact .dated v _

theorem updateIcmp_moved (hproto : pkt.l4proto ≠ ipprotoTcp) :
    Moved (normalize pkt.tuple) pkt now (ct (normalize pkt.tuple).key)
      ((updateIcmp pkt frame now ct).2 (normalize pkt.tuple).key) := by
  unfold updateIcmp
  split_ifs with hlen hecho hreply
  · exact .kept _
  · exact insertNew_moved pkt now ct hproto _
  · simp only [update_self]
    exact .untracked hproto _ (by simp)
  · exact .kept _

theorem tableUpdate_moved :
    Moved (normalize pkt.tuple) pkt now (ct (normalize pkt.tuple).key)
      ((tableUpdate pkt frame now ct).2 (normalize pkt.tuple).key) := by
  unfold tableUpdate
  split_ifs with hinv htcp hudp hicmp
  · exact .kept _
  · exact updateTcp_moved pkt now ct htcp
  · exact updateUdp_moved pkt now ct htcp
  · exact updateIcmp_moved pkt frame now ct htcp
  · exact .kept _

theorem Moved.of_setConnStatus {s : Session} {st : ConnStatus} {e e' : Option CtValue}
    (h : Moved s (pkt.setConnStatus st) now e e') : Moved s pkt now e e' := by
  cases h with
  | kept => exact .kept _
  | dated v ttl => exact .dated v ttl
  | untracked hproto _ hstate =>
    exact .untracked (show pkt.l4proto ≠ ipprotoTcp from hproto) _ hstate
  | syn hproto hsyn e =>
    exact .syn (show pkt.l4proto = ipprotoTcp from hproto) hsyn e
  | synAck hproto hflags v hstate hdir ttl =>
    exact .synAck (show pkt.l4proto = ipprotoTcp from hproto) hflags v hstate hdir ttl
  | later v st ttl sequence hproto hrank hopen =>
    exact .later v st ttl sequence (show pkt.l4proto = ipprotoTcp from hproto) hrank hopen

/-- What a packet through both programs makes of the entry of its session. -/
theorem track_moved :
    Moved (normalize pkt.tuple) pkt now (ct (normalize pkt.tuple).key)
      ((track pkt frame now ct).2 (normalize pkt.tuple).key) := by
  unfold track
  cases label ct pkt frame with
  | none => exact .kept _
  | some r => exact (tableUpdate_moved (pkt.setConnStatus r.1) r.2 now ct).of_setConnStatus pkt now

end Packet

section Label

variable {s : Session} {pkt : PacketHeaders} {frame frame' : Buffer} {ct : Connections}

theorem labelTcp_found {e : Option CtValue} (h : labelTcp s e pkt = .established) :
    ∃ v, e = some v ∧ s.direction v ≠ .miss := by
  have missed : labelTcpMiss pkt ≠ .established := by
    unfold labelTcpMiss
    split_ifs <;> decide
  cases e with
  | none => exact absurd h missed
  | some v =>
    refine ⟨v, rfl, fun hmiss => ?_⟩
    simp only [labelTcp, hmiss] at h
    exact missed h

theorem labelUdp_found {e : Option CtValue} (h : labelUdp s e = .established) :
    ∃ v, e = some v ∧ s.direction v ≠ .miss := by
  cases e with
  | none => cases h
  | some v =>
    refine ⟨v, rfl, fun hmiss => ?_⟩
    simp only [labelUdp, hmiss, reduceCtorEq] at h

theorem labelIcmpMiss_ne_established : labelIcmpMiss ct frame ≠ some (.established, frame') := by
  unfold labelIcmpMiss
  split_ifs with hun hlen hports
  · simp
  · simp
  · simp
  · dsimp only
    split_ifs <;> simp

theorem labelIcmp_found (h : labelIcmp ct s frame = some (.established, frame')) :
    ∃ v, ct s.key = some v ∧ s.direction v ≠ .miss := by
  unfold labelIcmp at h
  split_ifs at h with hlen hecho hreply
  · simp at h
  · cases hv : ct s.key with
    | none => simp [hv] at h
    | some v =>
      simp only [hv] at h
      split_ifs at h with hrev
      · have turned : s.direction v = .reverse := by simp [Session.direction, hrev]
        exact ⟨v, rfl, by rw [turned]; decide⟩
      · exact absurd h labelIcmpMiss_ne_established
  · exact absurd h labelIcmpMiss_ne_established

/-- A packet labelled `ESTABLISHED` has an entry, in one of the two directions. -/
theorem found_of_established (h : label ct pkt frame = some (.established, frame')) :
    ∃ v, ct (normalize pkt.tuple).key = some v ∧ (normalize pkt.tuple).direction v ≠ .miss := by
  unfold label at h
  split_ifs at h with htcp hudp hicmp
  · exact labelTcp_found (Prod.mk.inj (Option.some.inj h)).1
  · exact labelUdp_found (Prod.mk.inj (Option.some.inj h)).1
  · exact labelIcmp_found h
  · simp at h

theorem track_of_invalid (h : label ct pkt frame = some (.invalid, frame')) (now : BitVec 64) :
    (track pkt frame now ct).2 = ct := by
  simp [track, h, tableUpdate]

end Label

/-! ### Deadlines are not read -/

def SameButDates (ct ct' : Connections) : Prop :=
  ∀ k, (ct k).map CtValue.undated = (ct' k).map CtValue.undated

theorem CtValue.eq_of_undated {v v' : CtValue} (h : v.undated = v'.undated) :
    v' = { v with ttl := v'.ttl } := by
  cases v
  cases v'
  simpa [undated] using h.symm

namespace SameButDates

variable {ct ct' : Connections}

theorem refl (ct : Connections) : SameButDates ct ct := fun _ => rfl

theorem apply (h : SameButDates ct ct') (k : CtKey) :
    (ct k = none ∧ ct' k = none) ∨ ∃ v ttl, ct k = some v ∧ ct' k = some { v with ttl := ttl } := by
  have here := h k
  cases hv : ct k with
  | none => exact .inl ⟨rfl, by simpa [hv] using here.symm⟩
  | some v =>
    cases hv' : ct' k with
    | none => simp [hv, hv'] at here
    | some v' =>
      simp only [hv, hv', Option.map_some, Option.some_inj] at here
      exact .inr ⟨v, v'.ttl, rfl, by rw [← CtValue.eq_of_undated here]⟩

theorem isSome (h : SameButDates ct ct') (k : CtKey) : (ct k).isSome = (ct' k).isSome := by
  rcases h.apply k with ⟨h₁, h₂⟩ | ⟨v, ttl, h₁, h₂⟩ <;> rw [h₁, h₂]
  rfl

theorem update (h : SameButDates ct ct') (k : CtKey) {e e' : Option CtValue}
    (he : e.map CtValue.undated = e'.map CtValue.undated) :
    SameButDates (update ct k e) (update ct' k e') := by
  intro k'
  by_cases hk : k' = k
  · subst hk
    simpa only [update_self] using he
  · simpa only [update_of_ne hk] using h k'

theorem label (h : SameButDates ct ct') (pkt : PacketHeaders) (frame : Buffer) :
    Firewall.label ct pkt frame = Firewall.label ct' pkt frame := by
  have miss : labelIcmpMiss ct frame = labelIcmpMiss ct' frame := by
    simp only [labelIcmpMiss, h.isSome]
  unfold Firewall.label
  generalize normalize pkt.tuple = s
  rcases h.apply s.key with ⟨h₁, h₂⟩ | ⟨v, ttl, h₁, h₂⟩
  · simp only [h₁, h₂, labelIcmp, miss]
  · simp only [h₁, h₂, labelIcmp, miss]
    rfl

theorem insertNew (h : SameButDates ct ct') (k : CtKey) (v : CtValue) :
    SameButDates (Firewall.insertNew k v ct) (Firewall.insertNew k v ct') := by
  rcases h.apply k with ⟨h₁, h₂⟩ | ⟨w, ttl, h₁, h₂⟩
  · simp only [Firewall.insertNew, h₁, h₂]
    exact h.update k rfl
  · simp only [Firewall.insertNew, h₁, h₂]
    exact h

theorem updateTcp (h : SameButDates ct ct') (pkt : PacketHeaders) (now : BitVec 64) :
    SameButDates (Firewall.updateTcp pkt now ct).2 (Firewall.updateTcp pkt now ct').2 := by
  unfold Firewall.updateTcp
  generalize normalize pkt.tuple = s
  have same : updateTcpStep s (ct s.key) pkt now = updateTcpStep s (ct' s.key) pkt now := by
    rcases h.apply s.key with ⟨h₁, h₂⟩ | ⟨v, ttl, h₁, h₂⟩ <;> rw [h₁, h₂]
    rfl
  by_cases hrst : hasFlag pkt.flags tcphdrRst
  · simpa only [hrst, if_true] using h
  · simp only [if_neg hrst, same]
    cases updateTcpStep s (ct' s.key) pkt now with
    | store v => exact h.update s.key rfl
    | keep => exact h
    | reject => exact h
    | miss =>
      by_cases hsyn : onlySyn pkt.flags
      · simpa only [hsyn, if_true] using h.update s.key rfl
      · simpa only [if_neg hsyn] using h

theorem updateUdp (h : SameButDates ct ct') (pkt : PacketHeaders) (now : BitVec 64) :
    SameButDates (Firewall.updateUdp pkt now ct) (Firewall.updateUdp pkt now ct') := by
  unfold Firewall.updateUdp
  generalize normalize pkt.tuple = s
  have same : (ct s.key).bind (udpRefresh s · now) = (ct' s.key).bind (udpRefresh s · now) := by
    rcases h.apply s.key with ⟨h₁, h₂⟩ | ⟨v, ttl, h₁, h₂⟩ <;> rw [h₁, h₂]
    rfl
  simp only [same]
  cases (ct' s.key).bind (udpRefresh s · now) with
  | some v => exact h.update s.key rfl
  | none => exact h.insertNew s.key _

theorem updateIcmp (h : SameButDates ct ct') (pkt : PacketHeaders) (frame : Buffer)
    (now : BitVec 64) :
    SameButDates (Firewall.updateIcmp pkt frame now ct).2
      (Firewall.updateIcmp pkt frame now ct').2 := by
  unfold Firewall.updateIcmp
  split_ifs with hlen hecho hreply
  · exact h
  · exact h.insertNew _ _
  · exact h.update _ rfl
  · exact h

theorem tableUpdate (h : SameButDates ct ct') (pkt : PacketHeaders) (frame : Buffer)
    (now : BitVec 64) :
    SameButDates (Firewall.tableUpdate pkt frame now ct).2
      (Firewall.tableUpdate pkt frame now ct').2 := by
  unfold Firewall.tableUpdate
  split_ifs with hinv htcp hudp hicmp
  · exact h
  · exact h.updateTcp pkt now
  · exact h.updateUdp pkt now
  · exact h.updateIcmp pkt frame now
  · exact h

/-- A packet finds the same in both tables, and makes the same of them. -/
theorem track (h : SameButDates ct ct') (pkt : PacketHeaders) (frame : Buffer) (now : BitVec 64) :
    SameButDates (Firewall.track pkt frame now ct).2 (Firewall.track pkt frame now ct').2 := by
  unfold Firewall.track
  rw [h.label]
  cases Firewall.label ct' pkt frame with
  | none => exact h
  | some r => exact h.tableUpdate _ _ now

end SameButDates

end Polycube.Firewall
