import Polycube.Lib.Run
import Polycube.Firewall.Horus
import Polycube.Firewall.Sessions

/-!
# A packet after others

A frame through all programs of a chain, with what it leaves: the verdict, the label, the table of
the connections and the per-CPU record.  `Parser` writes the ports of a record only for TCP and
UDP, and `Horus` and the two conntrack programs read them for every packet, so the outcome of any
other packet can depend on those before it.
-/

namespace Polycube.Firewall

open Lib

structure Config where
  rules : List ChainRule
  numbered : Numbered rules
  mode : ConntrackMode
  defaultAction : ActionEnum
  chain : Loaded
  load : loadChain rules = .ok chain

structure PacketOutcome where
  verdict : Verdict
  /-- none when `ConntrackLabel` does not run, or drops the packet -/
  label : Option ConnStatus
  ct : Connections

namespace Config

variable (c : Config)

def horusTable : List (HorusRule × HorusValue) :=
  horusFromRulesToMap (getRuleList c.rules c.defaultAction)

/-- A packet that the chain accepts goes to `ConntrackTableUpdate`. -/
def update (verdict : Verdict) (pkt : PacketHeaders) (frame : Buffer) (now : BitVec 64)
    (ct : Connections) : PacketOutcome × PacketHeaders :=
  match verdict with
  | .drop => (⟨.drop, some pkt.connStatus, ct⟩, pkt)
  | .accept =>
    let r := tableUpdate pkt frame now ct
    (⟨r.1.1.verdict, some pkt.connStatus, r.2⟩, r.1.2)

/-- From `ConntrackLabel` on; without conntrack the call finds no program. -/
def labelled (frame : Buffer) (now : BitVec 64) (ct : Connections) (pkt : PacketHeaders)
    (result : BitVector) : PacketOutcome × PacketHeaders :=
  if c.mode = .disabled then (⟨.drop, none, ct⟩, pkt)
  else
    match label ct pkt frame with
    | none => (⟨.drop, none, ct⟩, pkt)
    | some (st, frame) =>
      let pkt := pkt.setConnStatus st
      update (c.chain.label c.mode c.defaultAction pkt result) pkt frame now ct

/-- What follows `Parser`. -/
def parsed (frame : Buffer) (now : BitVec 64) (ct : Connections) (pkt : PacketHeaders)
    (result : BitVector) : PacketOutcome × PacketHeaders :=
  if c.horusTable = [] then
    if c.mode = .disabled then (⟨c.chain.classify c.defaultAction pkt result, none, ct⟩, pkt)
    else c.labelled frame now ct pkt result
  else
    match rxHorus c.horusTable pkt.horusFields with
    | .rxDrop => (⟨.drop, none, ct⟩, pkt)
    | .pass =>
      if c.mode = .disabled then (⟨.accept, none, ct⟩, pkt)
      else c.labelled frame now ct { pkt with forwardingDecision := .passLabeling } result
    | .pipeline => c.labelled frame now ct pkt result

/-- A frame through the chain: its outcome and the record it leaves.  `pkt` and `shared` are what
the last packet left. -/
def process (frame : Buffer) (now : BitVec 64) (ct : Connections) (pkt : PacketHeaders)
    (shared : BitVector) : PacketOutcome × PacketHeaders :=
  match parse frame pkt with
  | (pkt, some ret) => (⟨ret.verdict, none, ct⟩, pkt)
  | (pkt, none) => c.parsed frame now ct pkt (initShared c.chain.nrElements shared)

structure Earlier where
  frame : Buffer
  now : BitVec 64
  ct : Connections
  shared : BitVector

def record (earlier : List Earlier) : PacketHeaders :=
  run (fun pkt e => (c.process e.frame e.now e.ct pkt e.shared).2) noHeaders earlier

def Independent (frame : Buffer) : Prop :=
  ∀ now ct h₁ h₂ shared₁ shared₂,
    (c.process frame now ct (c.record h₁) shared₁).1 = (c.process frame now ct (c.record h₂) shared₂).1

end Config

/-- `ConntrackLabel` drops the frame: it is shorter than what the program reads of an ICMP
message. -/
def LabelDrops (frame : Buffer) : Prop :=
  frame.byte 23 = ipprotoIcmp ∧
    (frame.length < ethLen + ipLen + icmpLen ∨
      icmpType frame ≠ icmpEcho ∧ icmpType frame ≠ icmpEchoReply ∧
        icmpType frame ∉ icmpUnsupported ∧ frame.length < quotedOff + ipLen + 8)

/-- The frame ends in `Parser`, has ports, or is dropped by `ConntrackLabel` when it gets
there. -/
def Complete (mode : ConntrackMode) (frame : Buffer) : Prop :=
  (parse frame noHeaders).2.isSome ∨ frame.byte 23 = ipprotoTcp ∨ frame.byte 23 = ipprotoUdp ∨
    mode ≠ .disabled ∧ LabelDrops frame

instance (frame : Buffer) : Decidable (LabelDrops frame) :=
  inferInstanceAs (Decidable (_ ∧ _))

instance (mode : ConntrackMode) (frame : Buffer) : Decidable (Complete mode frame) :=
  inferInstanceAs (Decidable (_ ∨ _))

/-! ### Records that agree -/

structure Agree (p q : PacketHeaders) : Prop where
  tuple : p.tuple = q.tuple
  decision : p.forwardingDecision = q.forwardingDecision
  tcp : p.l4proto = ipprotoTcp → p.flags = q.flags ∧ p.seqN = q.seqN ∧ p.ackN = q.ackN

section Parse

variable (frame : Buffer) (p q : PacketHeaders)

/-- Where `Parser` ends does not depend on the record. -/
theorem parse_snd : (parse frame p).2 = (parse frame q).2 := by
  unfold parse
  dsimp only
  split_ifs <;> rfl

@[simp] theorem parse_connStatus : (parse frame p).1.connStatus = p.connStatus := by
  unfold parse
  dsimp only
  split_ifs <;> rfl

variable {frame p q}

theorem parse_l4proto (h : (parse frame p).2 = none) :
    (parse frame p).1.l4proto = frame.byte 23 := by
  unfold parse at h ⊢
  dsimp only at h ⊢
  split_ifs at h ⊢ <;> rfl

/-- A frame with ports gets the same record, but for the fields of TCP and the label. -/
theorem parse_agree (h : (parse frame p).2 = none)
    (ports : frame.byte 23 = ipprotoTcp ∨ frame.byte 23 = ipprotoUdp) :
    Agree (parse frame p).1 (parse frame q).1 := by
  unfold parse at h ⊢
  dsimp only at h ⊢
  split_ifs at h ⊢ with heth hip hlen htcp htcpLen hudp hudpLen
  · exact ⟨rfl, rfl, fun _ => ⟨rfl, rfl, rfl⟩⟩
  · exact ⟨rfl, rfl, fun e => absurd e htcp⟩
  · exact (ports.elim htcp hudp).elim

end Parse

namespace Agree

variable {p q : PacketHeaders}

theorem l4proto (h : Agree p q) : p.l4proto = q.l4proto := congrArg CtKey.l4proto h.tuple

theorem setConnStatus (h : Agree p q) (st : ConnStatus) :
    Agree (p.setConnStatus st) (q.setConnStatus st) := ⟨h.tuple, h.decision, h.tcp⟩

theorem passLabeling (h : Agree p q) :
    Agree { p with forwardingDecision := .passLabeling }
      { q with forwardingDecision := .passLabeling } := ⟨h.tuple, rfl, h.tcp⟩

theorem horusFields (h : Agree p q) : p.horusFields = q.horusFields := by
  have := h.tuple
  simp only [PacketHeaders.tuple, CtKey.mk.injEq] at this
  simp [PacketHeaders.horusFields, this]

theorem packet (h : Agree p q) (l : ConntrackstatusEnum) : p.packet l = q.packet l := by
  have fields := h.tuple
  simp only [PacketHeaders.tuple, CtKey.mk.injEq] at fields
  obtain ⟨hsrc, hdst, hproto, hsp, hdp⟩ := fields
  have ip : p.ip = q.ip := by
    funext type
    cases type <;> assumption
  have port : p.port = q.port := by
    funext type
    cases type <;> assumption
  by_cases tcp : p.l4proto = ipprotoTcp
  · simp only [PacketHeaders.packet, ip, port, ← hproto, (h.tcp tcp).1]
  · have other : ¬ q.l4proto = ipprotoTcp := hproto ▸ tcp
    simp only [PacketHeaders.packet, ip, port, hproto, if_neg other]

theorem labelTcp (flags : p.flags = q.flags) (ackN : p.ackN = q.ackN) (s : Session)
    (e : Option CtValue) : Firewall.labelTcp s e p = Firewall.labelTcp s e q := by
  simp only [Firewall.labelTcp, labelTcpMiss, labelTcpForward, labelTcpReverse, flags, ackN]

theorem label (h : Agree p q) (ct : Connections) (frame : Buffer) :
    Firewall.label ct p frame = Firewall.label ct q frame := by
  unfold Firewall.label
  rw [h.tuple, ← h.l4proto]
  by_cases tcp : p.l4proto = ipprotoTcp
  · simp only [if_pos tcp, labelTcp (h.tcp tcp).1 (h.tcp tcp).2.2]
  · simp only [if_neg tcp]

theorem updateTcp (h : Agree p q) (tcp : p.l4proto = ipprotoTcp)
    (status : p.connStatus = q.connStatus) (now : BitVec 64) (ct : Connections) :
    (Firewall.updateTcp p now ct).2 = (Firewall.updateTcp q now ct).2 := by
  obtain ⟨flags, seqN, ackN⟩ := h.tcp tcp
  have step : ∀ s e, updateTcpStep s e p now = updateTcpStep s e q now := by
    intro s e
    simp only [updateTcpStep, updateTcpForward, updateTcpReverse, updateTcpOpen, updateFinWait2,
      flags, seqN, ackN, status]
  have entry : ∀ s, synEntry s p now = synEntry s q now := by
    intro s
    simp only [synEntry, seqN]
  unfold Firewall.updateTcp
  rw [h.tuple, flags]
  dsimp only
  rw [step, entry]
  split_ifs
  · rfl
  · cases updateTcpStep (normalize q.tuple) (ct (normalize q.tuple).key) q now <;> rfl
  · cases updateTcpStep (normalize q.tuple) (ct (normalize q.tuple).key) q now <;> rfl

theorem tableUpdate (h : Agree p q) (status : p.connStatus = q.connStatus) (frame : Buffer)
    (now : BitVec 64) (ct : Connections) :
    (Firewall.tableUpdate p frame now ct).1.1 = (Firewall.tableUpdate q frame now ct).1.1 ∧
      (Firewall.tableUpdate p frame now ct).2 = (Firewall.tableUpdate q frame now ct).2 := by
  unfold Firewall.tableUpdate
  rw [← status, ← h.l4proto]
  split_ifs with hinv htcp hudp hicmp
  · exact ⟨rfl, rfl⟩
  · exact ⟨rfl, h.updateTcp htcp status now ct⟩
  · exact ⟨rfl, by rw [updateUdp, updateUdp, h.tuple]⟩
  · rw [updateIcmp, updateIcmp, h.tuple]
    exact ⟨rfl, rfl⟩
  · exact ⟨rfl, rfl⟩

end Agree

/-! ### Labels -/

def ConnStatus.isLabel (st : ConnStatus) : Prop := ∃ l : ConntrackstatusEnum, st = l.connStatus

theorem isLabel_new : ConnStatus.isLabel .new := ⟨.new, rfl⟩
theorem isLabel_established : ConnStatus.isLabel .established := ⟨.established, rfl⟩
theorem isLabel_related : ConnStatus.isLabel .related := ⟨.related, rfl⟩
theorem isLabel_invalid : ConnStatus.isLabel .invalid := ⟨.invalid, rfl⟩

section Labels

variable {pkt : PacketHeaders} {s : Session} {ct : Connections} {frame frame' : Buffer}
  {st : ConnStatus}

theorem isLabel_ite {c : Prop} [Decidable c] {a b : ConnStatus} (ha : a.isLabel)
    (hb : b.isLabel) : (if c then a else b).isLabel := by
  split_ifs
  · exact ha
  · exact hb

theorem isLabel_tcpMiss : (labelTcpMiss pkt).isLabel := isLabel_ite isLabel_new isLabel_invalid

theorem isLabel_tcp (e : Option CtValue) : (labelTcp s e pkt).isLabel := by
  cases e with
  | none => exact isLabel_tcpMiss
  | some v =>
    have tail := isLabel_ite (c := openState v.state) isLabel_established
      (isLabel_ite (c := v.state = .timeWait ∧ onlySyn pkt.flags) isLabel_new isLabel_invalid)
    cases hdir : s.direction v with
    | miss => simpa only [labelTcp, hdir] using isLabel_tcpMiss
    | forward =>
      simp only [labelTcp, hdir]
      exact isLabel_ite isLabel_established (isLabel_ite (isLabel_ite isLabel_new isLabel_invalid)
        (isLabel_ite (isLabel_ite isLabel_established isLabel_invalid) tail))
    | reverse =>
      simp only [labelTcp, hdir]
      exact isLabel_ite isLabel_established (isLabel_ite
        (isLabel_ite isLabel_established isLabel_invalid)
        (isLabel_ite (isLabel_ite isLabel_established isLabel_invalid) tail))

theorem isLabel_udp (e : Option CtValue) : (labelUdp s e).isLabel := by
  cases e with
  | none => exact isLabel_new
  | some v =>
    cases hdir : s.direction v with
    | miss => simpa only [labelUdp, hdir] using isLabel_new
    | forward => simpa only [labelUdp, hdir] using isLabel_ite isLabel_new isLabel_established
    | reverse => simpa only [labelUdp, hdir] using isLabel_established

theorem isLabel_icmpMiss (h : labelIcmpMiss ct frame = some (st, frame')) : st.isLabel := by
  unfold labelIcmpMiss at h
  split_ifs at h with hun hlen hports
  · rw [← (Prod.mk.inj (Option.some.inj h)).1]
    exact isLabel_invalid
  · rw [← (Prod.mk.inj (Option.some.inj h)).1]
    exact isLabel_ite isLabel_related isLabel_invalid

theorem isLabel_icmp (h : labelIcmp ct s frame = some (st, frame')) : st.isLabel := by
  unfold labelIcmp at h
  split_ifs at h with hlen hecho hreply
  · rw [← (Prod.mk.inj (Option.some.inj h)).1]
    exact isLabel_new
  · cases hv : ct s.key with
    | none =>
      simp only [hv] at h
      rw [← (Prod.mk.inj (Option.some.inj h)).1]
      exact isLabel_invalid
    | some v =>
      simp only [hv] at h
      split_ifs at h with hrev
      · rw [← (Prod.mk.inj (Option.some.inj h)).1]
        exact isLabel_established
      · exact isLabel_icmpMiss h
  · exact isLabel_icmpMiss h

theorem isLabel_label (h : label ct pkt frame = some (st, frame')) : st.isLabel := by
  unfold label at h
  split_ifs at h with htcp hudp hicmp
  · rw [← (Prod.mk.inj (Option.some.inj h)).1]
    exact isLabel_tcp _
  · rw [← (Prod.mk.inj (Option.some.inj h)).1]
    exact isLabel_udp _
  · exact isLabel_icmp h
  · rw [← (Prod.mk.inj (Option.some.inj h)).1]
    exact isLabel_invalid

/-- Whether an ICMP message is dropped depends on the frame alone, but for a reply. -/
theorem labelIcmp_of_drops (h : LabelDrops frame) : labelIcmp ct s frame = none := by
  unfold labelIcmp labelIcmpMiss
  rcases h.2 with short | ⟨echo, reply, supported, short⟩
  · rw [if_pos short]
  · by_cases hlen : frame.length < quotedOff + ipLen
    · simp [echo, reply, supported, hlen]
    · simp [echo, reply, supported, hlen, short]

theorem drops_of_labelIcmp (hproto : frame.byte 23 = ipprotoIcmp)
    (h : labelIcmp (fun _ => none) s frame = none) : LabelDrops frame := by
  refine ⟨hproto, ?_⟩
  unfold labelIcmp labelIcmpMiss at h
  split_ifs at h with hlen hecho hreply hun hip hports
  · exact .inl hlen
  · exact .inr ⟨hecho, hreply, hun, by omega⟩
  · exact .inr ⟨hecho, hreply, hun, hports⟩

end Labels

namespace Config

variable {c : Config} {p q : PacketHeaders} {frame : Buffer} {now : BitVec 64} {ct : Connections}
  {shared₁ shared₂ : BitVector}

theorem classify_agree (h : Agree p q) {l : ConntrackstatusEnum}
    (hp : p.connStatus = l.connStatus) (hq : q.connStatus = l.connStatus) :
    c.chain.classify c.defaultAction p (initShared c.chain.nrElements shared₁) =
      c.chain.classify c.defaultAction q (initShared c.chain.nrElements shared₂) := by
  rw [classify_eq_firstMatch c.numbered c.load hp, classify_eq_firstMatch c.numbered c.load hq,
    h.packet]

theorem chainLabel_agree (h : Agree p q) {l : ConntrackstatusEnum}
    (hp : p.connStatus = l.connStatus) (hq : q.connStatus = l.connStatus) :
    c.chain.label c.mode c.defaultAction p (initShared c.chain.nrElements shared₁) =
      c.chain.label c.mode c.defaultAction q (initShared c.chain.nrElements shared₂) := by
  have classify := @classify_agree c p q shared₁ shared₂ h l hp hq
  unfold Loaded.label
  rw [h.decision, hp, hq, classify]

theorem update_agree (h : Agree p q) (status : p.connStatus = q.connStatus) (verdict : Verdict) :
    (update verdict p frame now ct).1 = (update verdict q frame now ct).1 := by
  obtain ⟨ret, table⟩ := h.tableUpdate status frame now ct
  cases verdict with
  | drop => simp only [update, status]
  | accept => simp only [update, status, ret, table]

theorem labelled_agree (h : Agree p q) :
    (c.labelled frame now ct p (initShared c.chain.nrElements shared₁)).1 =
      (c.labelled frame now ct q (initShared c.chain.nrElements shared₂)).1 := by
  unfold labelled
  rw [h.label]
  split_ifs with off
  · rfl
  · cases hl : label ct q frame with
    | none => rfl
    | some r =>
      obtain ⟨l, hst⟩ := isLabel_label hl
      dsimp only
      rw [@chainLabel_agree c _ _ shared₁ shared₂ (h.setConnStatus r.1) l hst hst]
      exact update_agree (h.setConnStatus r.1) rfl _

theorem parsed_agree (h : Agree p q)
    (off : c.mode = .disabled → p.connStatus = .new ∧ q.connStatus = .new) :
    (c.parsed frame now ct p (initShared c.chain.nrElements shared₁)).1 =
      (c.parsed frame now ct q (initShared c.chain.nrElements shared₂)).1 := by
  unfold parsed
  rw [h.horusFields]
  by_cases empty : c.horusTable = []
  · rw [if_pos empty, if_pos empty]
    by_cases hoff : c.mode = .disabled
    · rw [if_pos hoff, if_pos hoff]
      have same := @classify_agree c p q shared₁ shared₂ h .new (off hoff).1 (off hoff).2
      rw [same]
    · rw [if_neg hoff, if_neg hoff]
      exact labelled_agree h
  · rw [if_neg empty, if_neg empty]
    cases rxHorus c.horusTable q.horusFields with
    | rxDrop => rfl
    | pass =>
      split_ifs
      · rfl
      · exact labelled_agree h.passLabeling
    | pipeline => exact labelled_agree h

theorem process_connStatus (off : c.mode = .disabled) (shared : BitVector) :
    (c.process frame now ct p shared).2.connStatus = p.connStatus := by
  have parse : (parse frame p).1.connStatus = p.connStatus := parse_connStatus frame p
  unfold process
  cases hparse : Firewall.parse frame p with
  | mk pkt ret =>
    rw [hparse] at parse
    cases ret with
    | some ret => exact parse
    | none =>
      rw [← parse]
      unfold parsed labelled
      simp only [off, if_true]
      split_ifs
      · rfl
      · cases rxHorus c.horusTable pkt.horusFields <;> rfl

theorem record_connStatus (off : c.mode = .disabled) (earlier : List Earlier) :
    (c.record earlier).connStatus = .new := by
  have keep : ∀ (pkt : PacketHeaders) (e : Earlier), pkt.connStatus = .new →
      (c.process e.frame e.now e.ct pkt e.shared).2.connStatus = .new :=
    fun _ e h => (process_connStatus off e.shared).trans h
  have start : noHeaders.connStatus = .new := rfl
  exact run_invariant (P := fun pkt : PacketHeaders => pkt.connStatus = .new) keep earlier start

/-- A message that `ConntrackLabel` drops comes to nothing, with or without Horus. -/
theorem parsed_of_drops (on : c.mode ≠ .disabled) (hproto : p.l4proto = ipprotoIcmp)
    (drops : LabelDrops frame) (result : BitVector) :
    (c.parsed frame now ct p result).1 = ⟨.drop, none, ct⟩ := by
  have labelled : ∀ pkt, pkt.l4proto = ipprotoIcmp →
      (c.labelled frame now ct pkt result).1 = ⟨.drop, none, ct⟩ := by
    intro pkt hpkt
    have none : label ct pkt frame = none := by
      have notTcp : ipprotoIcmp ≠ ipprotoTcp := by decide
      have notUdp : ipprotoIcmp ≠ ipprotoUdp := by decide
      simp only [label, hpkt, notTcp, notUdp, if_false, if_true]
      exact labelIcmp_of_drops drops
    rw [Config.labelled, if_neg on, none]
  unfold parsed
  split_ifs with empty
  · exact labelled p hproto
  · cases rxHorus c.horusTable p.horusFields with
    | rxDrop => rfl
    | pass => exact labelled _ hproto
    | pipeline => exact labelled p hproto

/-- A frame that leaves nothing open comes to the same after all histories. -/
theorem independent_of_complete (h : Complete c.mode frame) : c.Independent frame := by
  intro now ct h₁ h₂ shared₁ shared₂
  have ends := parse_snd frame (c.record h₁) (c.record h₂)
  have ends₀ := parse_snd frame noHeaders (c.record h₂)
  have status₁ := parse_connStatus frame (c.record h₁)
  have status₂ := parse_connStatus frame (c.record h₂)
  have agree := @parse_agree frame (c.record h₁) (c.record h₂)
  have proto₁ := @parse_l4proto frame (c.record h₁)
  have proto₂ := @parse_l4proto frame (c.record h₂)
  unfold process
  rw [Complete, ends₀] at h
  cases hp : parse frame (c.record h₁) with
  | mk p r₁ =>
    cases hq : parse frame (c.record h₂) with
    | mk q r₂ =>
      simp only [hp, hq] at ends status₁ status₂ agree proto₁ proto₂ h
      subst ends
      cases r₁ with
      | some ret => rfl
      | none =>
        rcases h with early | tcp | udp | ⟨on, drops⟩
        · simp at early
        · exact parsed_agree (agree rfl (.inl tcp)) fun off =>
            ⟨status₁.trans (record_connStatus off h₁), status₂.trans (record_connStatus off h₂)⟩
        · exact parsed_agree (agree rfl (.inr udp)) fun off =>
            ⟨status₁.trans (record_connStatus off h₁), status₂.trans (record_connStatus off h₂)⟩
        · rw [parsed_of_drops on ((proto₁ rfl).trans drops.1) drops,
            parsed_of_drops on ((proto₂ rfl).trans drops.1) drops]

end Config

/-! ### Frames without ports -/

def sourceRules : List ChainRule :=
  [{ id := 0, ipSrc := none, ipDst := none, srcPort := some 80, dstPort := none, l4Proto := none,
     tcpFlags := none, conntrack := none, action := .accept, description := none },
   { id := 1, ipSrc := none, ipDst := none, srcPort := some 81, dstPort := none, l4Proto := none,
     tcpFlags := none, conntrack := none, action := .drop, description := none }]

theorem numbered_sourceRules : Numbered sourceRules := ⟨rfl, by decide⟩

def udpFrom (port : BitVec 8) : Buffer := ipFrame ipprotoUdp [0, port, 0, 53, 0, 8, 0, 0]

def sourceTable (accepted dropped : BitVec 16) : List (HorusRule × HorusValue) :=
  [(⟨none, none, none, some accepted, none⟩, ⟨1, 0⟩),
   (⟨none, none, none, some dropped, none⟩, ⟨0, 1⟩)]

theorem rxHorus_source (accepted dropped : BitVec 16) (f : HorusFields) :
    rxHorus (sourceTable accepted dropped) f =
      if bswap16 accepted = f.srcPort then .pass
      else if bswap16 dropped = f.srcPort then .rxDrop else .pipeline := by
  by_cases ha : bswap16 accepted = f.srcPort
  · simp [rxHorus, sourceTable, HorusRule.hits, ha, maxRuleSizeForHorus]
  · by_cases hd : bswap16 dropped = f.srcPort
    · simp [rxHorus, sourceTable, HorusRule.hits, ha, hd, maxRuleSizeForHorus]
    · simp [rxHorus, sourceTable, HorusRule.hits, ha, hd]

theorem parse_srcPort {frame : Buffer} {p : PacketHeaders} (tcp : frame.byte 23 ≠ ipprotoTcp)
    (udp : frame.byte 23 ≠ ipprotoUdp) : (parse frame p).1.srcPort = p.srcPort := by
  unfold parse
  dsimp only
  split_ifs <;> rfl

theorem label_of_other {pkt : PacketHeaders} {frame : Buffer} (hproto : pkt.l4proto = frame.byte 23)
    (tcp : frame.byte 23 ≠ ipprotoTcp) (udp : frame.byte 23 ≠ ipprotoUdp)
    (kept : ¬ LabelDrops frame) : (label (fun _ => none) pkt frame).isSome := by
  unfold label
  rw [hproto, if_neg tcp, if_neg udp]
  split_ifs with icmp
  · rw [Option.isSome_iff_ne_none]
    exact fun h => kept (drops_of_labelIcmp icmp h)
  · rfl

namespace Config

variable {c : Config} {frame : Buffer} {now : BitVec 64} {ct : Connections}

theorem update_label (verdict : Verdict) (pkt : PacketHeaders) :
    (update verdict pkt frame now ct).1.label = some pkt.connStatus := by
  cases verdict <;> rfl

theorem update_srcPort (verdict : Verdict) (pkt : PacketHeaders) :
    (update verdict pkt frame now ct).2.srcPort = pkt.srcPort := by
  cases verdict with
  | drop => rfl
  | accept =>
    unfold update tableUpdate
    dsimp only
    split_ifs
    · rfl
    · unfold updateTcp
      dsimp only
      split_ifs
      · rfl
      · cases updateTcpStep (normalize pkt.tuple) (ct (normalize pkt.tuple).key) pkt now <;> rfl
      · cases updateTcpStep (normalize pkt.tuple) (ct (normalize pkt.tuple).key) pkt now <;> rfl
    · rfl
    · rfl
    · rfl

theorem labelled_srcPort (pkt : PacketHeaders) (result : BitVector) :
    (c.labelled frame now ct pkt result).2.srcPort = pkt.srcPort := by
  unfold labelled
  split_ifs
  · rfl
  · cases label ct pkt frame with
    | none => rfl
    | some r => exact update_srcPort _ _

/-- Only `Parser` writes ports. -/
theorem process_srcPort (p : PacketHeaders) (shared : BitVector) :
    (c.process frame now ct p shared).2.srcPort = (parse frame p).1.srcPort := by
  unfold process
  cases parse frame p with
  | mk pkt ret =>
    cases ret with
    | some ret => rfl
    | none =>
      unfold parsed
      dsimp only
      split_ifs
      · rfl
      · exact labelled_srcPort _ _
      · cases rxHorus c.horusTable pkt.horusFields <;> first | rfl | exact labelled_srcPort _ _
      · cases rxHorus c.horusTable pkt.horusFields <;> first | rfl | exact labelled_srcPort _ _

/-- What a frame without ports comes to depends on the source port of the packet before. -/
theorem process_of_other (now : BitVec 64) (ct : Connections) (hc : c.rules = sourceRules)
    (hd : c.defaultAction = .accept)
    (ends : (parse frame noHeaders).2 = none) (tcp : frame.byte 23 ≠ ipprotoTcp)
    (udp : frame.byte 23 ≠ ipprotoUdp) (p : PacketHeaders) (shared : BitVector) :
    ∃ pkt, pkt.l4proto = frame.byte 23 ∧ c.process frame now ct p shared =
      if bswap16 80 = p.srcPort then
        if c.mode = .disabled then (⟨.accept, none, ct⟩, pkt)
        else c.labelled frame now ct { pkt with forwardingDecision := .passLabeling }
          (initShared c.chain.nrElements shared)
      else if bswap16 81 = p.srcPort then (⟨.drop, none, ct⟩, pkt)
      else c.labelled frame now ct pkt (initShared c.chain.nrElements shared) := by
  have ends' := (parse_snd frame p noHeaders).trans ends
  have port := @parse_srcPort frame p tcp udp
  have proto := parse_l4proto ends'
  have table : c.horusTable = sourceTable 80 81 := by
    rw [horusTable, hc, hd]
    rfl
  have nonempty : sourceTable 80 81 ≠ [] := by simp [sourceTable]
  unfold process
  cases hp : parse frame p with
  | mk pkt ret =>
    rw [hp] at ends' port proto
    dsimp only at ends' port proto
    subst ends'
    refine ⟨pkt, proto, ?_⟩
    have fields : pkt.horusFields.srcPort = p.srcPort := port
    dsimp only
    rw [parsed, table, if_neg nonempty, rxHorus_source, fields]
    split_ifs <;> rfl

theorem not_independent {mode : ConntrackMode} (h : ¬ Complete mode frame) :
    ¬ ∀ c : Config, c.mode = mode → c.Independent frame := by
  intro independent
  simp only [Complete, not_or, not_and, Bool.not_eq_true, Option.isSome_eq_false_iff,
    Option.isNone_iff_eq_none] at h
  obtain ⟨ends, tcp, udp, kept⟩ := h
  obtain ⟨chain, load⟩ : ∃ chain, loadChain sourceRules = .ok chain := ⟨_, rfl⟩
  let c : Config := ⟨sourceRules, numbered_sourceRules, mode, .accept, chain, load⟩
  let earlier (port : BitVec 8) : Earlier := ⟨udpFrom port, 0, fun _ => none, Words.zero⟩
  have left : ∀ port, (c.record [earlier port]).srcPort = (parse (udpFrom port) noHeaders).1.srcPort :=
    fun port => process_srcPort (c := c) noHeaders Words.zero
  obtain ⟨p, proto, first⟩ := @process_of_other c _ 0 (fun _ => none) rfl rfl ends
    tcp udp noHeaders Words.zero
  rw [if_neg (by decide), if_neg (by decide)] at first
  by_cases off : mode = .disabled
  · -- the port that is accepted; a miss calls a program that is not there
    obtain ⟨q, -, later⟩ := @process_of_other c _ 0 (fun _ => none) rfl rfl ends
      tcp udp (c.record [earlier 80]) Words.zero
    rw [left 80, if_pos (by decide), if_pos off] at later
    have same := independent c rfl 0 (fun _ => none) [] [earlier 80] Words.zero Words.zero
    rw [later, show c.record [] = noHeaders from rfl, first, labelled, if_pos off] at same
    cases congrArg PacketOutcome.verdict same
  · -- the port that is dropped; a miss goes on to the label
    obtain ⟨q, -, later⟩ := @process_of_other c _ 0 (fun _ => none) rfl rfl ends
      tcp udp (c.record [earlier 81]) Words.zero
    rw [left 81, if_neg (by decide), if_pos (by decide)] at later
    have same := independent c rfl 0 (fun _ => none) [] [earlier 81] Words.zero Words.zero
    obtain ⟨r, hr⟩ := Option.isSome_iff_exists.1 (label_of_other proto tcp udp (kept off))
    rw [later, show c.record [] = noHeaders from rfl, first, labelled, if_neg off, hr] at same
    have labels := congrArg PacketOutcome.label same
    dsimp only at labels
    rw [update_label] at labels
    cases labels

end Config

/-- Whatever the rules and the table, a frame comes to the same after all histories exactly when
`Parser` ends with it, or it has ports, or it is an ICMP message that `ConntrackLabel` drops for
its length. -/
theorem independent_iff (mode : ConntrackMode) (frame : Buffer) :
    (∀ c : Config, c.mode = mode → c.Independent frame) ↔ Complete mode frame := by
  constructor
  · intro independent
    by_contra h
    exact Config.not_independent h independent
  · rintro h c rfl
    exact Config.independent_of_complete h

def echoFrame : Buffer := ipFrame ipprotoIcmp [8, 0, 0, 0, 0, 1, 0, 1]

theorem echo_not_independent : ¬ ∀ c : Config, c.mode = .automatic → c.Independent echoFrame :=
  Config.not_independent (by decide)

end Polycube.Firewall
