import Polycube.Firewall.Sessions

/-!
# The three-way handshake

A handshake through both programs, from an empty table.  The stored sequence number is the next
one to be acknowledged: `hexBeOne` is added to the raw word, and the carry out of the byte that
was last on the wire is lost.
-/

namespace Polycube.Firewall

open Function Lib

/-- A three-way handshake: raw addresses and ports, initial sequence numbers as numbers. -/
structure Handshake where
  client : BitVec 32
  server : BitVec 32
  clientPort : BitVec 16
  serverPort : BitVec 16
  clientIsn : BitVec 32
  serverIsn : BitVec 32
  deriving DecidableEq

/-- What one packet of a handshake brings besides its headers: the rest of the per-CPU record, the
frame and the time. -/
structure Passage where
  rest : PacketHeaders
  frame : Buffer
  now : BitVec 64
  deriving DecidableEq

namespace Handshake

def tuple (h : Handshake) : CtKey := ⟨h.client, h.server, ipprotoTcp, h.clientPort, h.serverPort⟩

def syn (h : Handshake) (rest : PacketHeaders) : PacketHeaders :=
  { rest with
    srcIp := h.client, dstIp := h.server, l4proto := ipprotoTcp
    srcPort := h.clientPort, dstPort := h.serverPort
    flags := tcphdrSyn, seqN := bswap32 h.clientIsn }

def synAck (h : Handshake) (rest : PacketHeaders) : PacketHeaders :=
  { rest with
    srcIp := h.server, dstIp := h.client, l4proto := ipprotoTcp
    srcPort := h.serverPort, dstPort := h.clientPort
    flags := tcphdrSyn ||| tcphdrAck
    seqN := bswap32 h.serverIsn, ackN := bswap32 (h.clientIsn + 1) }

def ack (h : Handshake) (rest : PacketHeaders) : PacketHeaders :=
  { rest with
    srcIp := h.client, dstIp := h.server, l4proto := ipprotoTcp
    srcPort := h.clientPort, dstPort := h.serverPort
    flags := tcphdrAck
    seqN := bswap32 (h.clientIsn + 1), ackN := bswap32 (h.serverIsn + 1) }

def run (h : Handshake) (p₁ p₂ p₃ : Passage) : List (Option ConnStatus × Connections) :=
  let r₁ := track (h.syn p₁.rest) p₁.frame p₁.now fun _ => none
  let r₂ := track (h.synAck p₂.rest) p₂.frame p₂.now r₁.2
  let r₃ := track (h.ack p₃.rest) p₃.frame p₃.now r₂.2
  [(r₁.1.map Tracked.label, r₁.2), (r₂.1.map Tracked.label, r₂.2),
    (r₃.1.map Tracked.label, r₃.2)]

def entry (h : Handshake) (ct : Connections) : Option (ConnStatus × BitVec 32) :=
  (ct (normalize h.tuple).key).map fun v => (v.state, v.sequence)

/-- The handshake is accepted: every packet has its label, and the entry goes through its states
with the numbers the answers will acknowledge. -/
def Accepted (h : Handshake) (p₁ p₂ p₃ : Passage) : Prop :=
  (h.run p₁ p₂ p₃).map (fun r => (r.1, h.entry r.2)) =
    [(some .new, some (.synSent, bswap32 (h.clientIsn + 1))),
     (some .established, some (.synRecv, bswap32 (h.serverIsn + 1))),
     (some .established, some (.established, bswap32 (h.serverIsn + 1)))]

instance (h : Handshake) (p₁ p₂ p₃ : Passage) : Decidable (h.Accepted p₁ p₂ p₃) :=
  inferInstanceAs (Decidable (_ = _))

end Handshake

/-! ### One TCP packet -/

@[simp] theorem onlySyn_syn : onlySyn tcphdrSyn = true := by decide
@[simp] theorem onlySyn_synAck : onlySyn (tcphdrSyn ||| tcphdrAck) = false := by decide
@[simp] theorem onlySynAck_synAck : onlySynAck (tcphdrSyn ||| tcphdrAck) = true := by decide
@[simp] theorem onlyAck_ack : onlyAck tcphdrAck = true := by decide
@[simp] theorem hasFlag_syn_rst : hasFlag tcphdrSyn tcphdrRst = false := by decide
@[simp] theorem hasFlag_ack_rst : hasFlag tcphdrAck tcphdrRst = false := by decide
@[simp] theorem hasFlag_synAck_rst : hasFlag (tcphdrSyn ||| tcphdrAck) tcphdrRst = false := by
  decide

section Packet

variable (pkt : PacketHeaders) (s : Session) (frame : Buffer) (now : BitVec 64)
  (ct : Connections) (hproto : pkt.l4proto = ipprotoTcp) (hs : normalize pkt.tuple = s)

include hproto hs

theorem track_tcp_label :
    (track pkt frame now ct).1.map Tracked.label = some (labelTcp s (ct s.key) pkt) := by
  simp [track, label, hproto, hs]

theorem track_tcp_snd (hlabel : labelTcp s (ct s.key) pkt ≠ .invalid) :
    (track pkt frame now ct).2 =
      (updateTcp (pkt.setConnStatus (labelTcp s (ct s.key) pkt)) now ct).2 := by
  simp [track, label, hproto, hs, tableUpdate, hlabel]

theorem track_syn (hflags : pkt.flags = tcphdrSyn) (hct : ct s.key = none) :
    (track pkt frame now ct).1.map Tracked.label = some .new ∧
    (track pkt frame now ct).2 = update ct s.key (some (synEntry s pkt now)) := by
  have new : labelTcp s (ct s.key) pkt = .new := by
    simp [labelTcp, labelTcpMiss, hct, hflags]
  rw [track_tcp_label pkt s frame now ct hproto hs,
    track_tcp_snd pkt s frame now ct hproto hs (by simp [new]), new]
  refine ⟨rfl, ?_⟩
  simp [updateTcp, hs, hflags, updateTcpStep, hct, synEntry]

/-- A SYN, ACK is accepted only as the answer to a SYN, acknowledging its number. -/
theorem track_synAck_label (hflags : pkt.flags = tcphdrSyn ||| tcphdrAck) {v : CtValue}
    (hct : ct s.key = some v) (hstate : v.state = .synSent)
    (hlabel : (track pkt frame now ct).1.map Tracked.label = some .established) :
    s.direction v = .reverse ∧ pkt.ackN = v.sequence := by
  rw [track_tcp_label pkt s frame now ct hproto hs, Option.some_inj] at hlabel
  cases hdir : s.direction v with
  | reverse =>
    refine ⟨rfl, ?_⟩
    by_contra hack
    simp [labelTcp, hct, hdir, labelTcpReverse, hflags, hstate, hack] at hlabel
  | forward => simp [labelTcp, hct, hdir, labelTcpForward, hflags, hstate] at hlabel
  | miss => simp [labelTcp, hct, hdir, labelTcpMiss, hflags] at hlabel

theorem track_synAck (hflags : pkt.flags = tcphdrSyn ||| tcphdrAck) {v : CtValue}
    (hct : ct s.key = some v) (hdir : s.direction v = .reverse) (hstate : v.state = .synSent)
    (hack : pkt.ackN = v.sequence) :
    (track pkt frame now ct).1.map Tracked.label = some .established ∧
    (track pkt frame now ct).2 = update ct s.key (some { v with
      state := .synRecv, ttl := now + tcpSynRecv, sequence := pkt.seqN + hexBeOne }) := by
  have established : labelTcp s (ct s.key) pkt = .established := by
    simp [labelTcp, hct, hdir, labelTcpReverse, hflags, hstate, hack]
  rw [track_tcp_label pkt s frame now ct hproto hs,
    track_tcp_snd pkt s frame now ct hproto hs (by simp [established]), established]
  refine ⟨rfl, ?_⟩
  simp [updateTcp, hs, hflags, updateTcpStep, hct, hdir, updateTcpReverse, hstate, hack]

theorem track_ack (hflags : pkt.flags = tcphdrAck) {v : CtValue}
    (hct : ct s.key = some v) (hdir : s.direction v = .forward) (hstate : v.state = .synRecv)
    (hack : pkt.ackN = v.sequence) :
    (track pkt frame now ct).1.map Tracked.label = some .established ∧
    (track pkt frame now ct).2 = update ct s.key (some { v with
      state := .established, ttl := now + tcpEstablished }) := by
  have established : labelTcp s (ct s.key) pkt = .established := by
    simp [labelTcp, hct, hdir, labelTcpForward, hflags, hstate, hack]
  rw [track_tcp_label pkt s frame now ct hproto hs,
    track_tcp_snd pkt s frame now ct hproto hs (by simp [established]), established]
  refine ⟨rfl, ?_⟩
  simp [updateTcp, hs, hflags, updateTcpStep, hct, hdir, updateTcpForward, hstate, hack]

end Packet

theorem direction_forward {s : Session} {v : CtValue} (hip : v.ipRev = s.ipRev)
    (hport : v.portRev = s.portRev) : s.direction v = .forward := by
  simp [Session.direction, hip, hport]

/-- The answer finds the entry in the reverse direction exactly when the two addresses differ. -/
theorem direction_reverse_iff {t : CtKey} {v : CtValue} (hip : v.ipRev = (normalize t).ipRev)
    (hport : v.portRev = (normalize t).portRev) :
    (normalize t.reverse).direction v = .reverse ↔ t.srcIp ≠ t.dstIp := by
  by_cases h : t.srcIp = t.dstIp
  · have same : v.ipRev = (normalize t.reverse).ipRev := hip.trans (normalize_reverse_ipRev h).symm
    refine iff_of_false ?_ (not_not_intro h)
    unfold Session.direction
    split_ifs with h₁ h₂
    · decide
    · exact absurd same h₂.1
    · decide
  · simp [normalize_reverse h, Session.direction, hip, hport, h]

theorem normalize_reverse_key (t : CtKey) : (normalize t.reverse).key = (normalize t).key :=
  (normalize_key_eq_iff _ _).2 (.inr (.inl rfl))

namespace Handshake

variable (h : Handshake) (p₁ p₂ p₃ : Passage)

@[simp] theorem entry_update (ct : Connections) (v : CtValue) :
    h.entry (update ct (normalize h.tuple).key (some v)) =
      some (v.state, v.sequence) := by
  simp [entry]

/-- The handshake is accepted exactly when the two hosts have different addresses and neither
initial number ends in the byte `0xff`. -/
theorem accepted_iff :
    h.Accepted p₁ p₂ p₃ ↔
      h.client ≠ h.server ∧ h.clientIsn.toNat % 256 ≠ 255 ∧ h.serverIsn.toNat % 256 ≠ 255 := by
  obtain ⟨label₁, table₁⟩ := track_syn (h.syn p₁.rest) (normalize h.tuple) p₁.frame p₁.now
    (fun _ => none) rfl rfl rfl rfl
  simp only [Accepted, run, List.map_cons, List.map_nil, List.cons.injEq, Prod.mk.injEq, and_true]
  rw [label₁, table₁]
  set v₁ := synEntry (normalize h.tuple) (h.syn p₁.rest) p₁.now
  set ct₁ : Connections := update (fun _ => none) (normalize h.tuple).key (some v₁)
  -- the answer finds the entry of the SYN
  have found₁ : ct₁ (normalize h.tuple.reverse).key = some v₁ := by
    rw [normalize_reverse_key]
    exact update_self _ _ _
  have turned : (normalize h.tuple.reverse).direction v₁ = .reverse ↔ h.client ≠ h.server :=
    direction_reverse_iff (t := h.tuple) rfl rfl
  have carry : (h.synAck p₂.rest).ackN = v₁.sequence ↔ h.clientIsn.toNat % 256 ≠ 255 :=
    eq_comm.trans (bswap32_add_one_iff h.clientIsn)
  constructor
  · rintro ⟨-, ⟨label₂, entry₂⟩, -⟩
    obtain ⟨hdir, hack⟩ := track_synAck_label (h.synAck p₂.rest)
      (normalize h.tuple.reverse) p₂.frame p₂.now ct₁ rfl rfl rfl found₁ rfl label₂
    obtain ⟨-, table₂⟩ := track_synAck (h.synAck p₂.rest) (normalize h.tuple.reverse)
      p₂.frame p₂.now ct₁ rfl rfl rfl found₁ hdir rfl hack
    rw [table₂, normalize_reverse_key, entry_update] at entry₂
    have stored : (h.synAck p₂.rest).seqN + hexBeOne = bswap32 (h.serverIsn + 1) :=
      (Prod.mk.inj (Option.some_inj.1 entry₂)).2
    exact ⟨turned.1 hdir, carry.1 hack, (bswap32_add_one_iff h.serverIsn).1 stored⟩
  · rintro ⟨hne, hclient, hserver⟩
    obtain ⟨label₂, table₂⟩ := track_synAck (h.synAck p₂.rest)
      (normalize h.tuple.reverse) p₂.frame p₂.now ct₁ rfl rfl rfl found₁ (turned.2 hne) rfl
      (carry.2 hclient)
    rw [label₂, table₂, normalize_reverse_key]
    set v₂ : CtValue := { v₁ with
      state := .synRecv, ttl := p₂.now + tcpSynRecv
      sequence := (h.synAck p₂.rest).seqN + hexBeOne }
    have stored : v₂.sequence = bswap32 (h.serverIsn + 1) :=
      (bswap32_add_one_iff h.serverIsn).2 hserver
    have found₂ : update ct₁ (normalize h.tuple).key (some v₂) (normalize h.tuple).key =
        some v₂ := update_self _ _ _
    obtain ⟨label₃, table₃⟩ := track_ack (h.ack p₃.rest) (normalize h.tuple) p₃.frame p₃.now _
      rfl rfl rfl found₂ (direction_forward rfl rfl) rfl stored.symm
    have sent : v₁.sequence = bswap32 (h.clientIsn + 1) := (carry.2 hclient).symm
    rw [label₃, table₃]
    simp only [ct₁, entry_update, sent, stored]
    exact ⟨⟨trivial, rfl⟩, ⟨trivial, rfl⟩, trivial, trivial⟩

def lostCarry : Handshake := ⟨0x0100000a#32, 0x0200000a#32, 0x3412#16, 0x5000#16, 255#32, 0#32⟩

def quiet : Passage := ⟨dnsQuery, [], 0#64⟩

theorem lostCarry_not_accepted : ¬ lostCarry.Accepted quiet quiet quiet := by
  decide

end Handshake

end Polycube.Firewall
