import Polycube.Firewall.Conntrack

/-!
# Sessions

What the normalised key of a session tells about its packets: the key is shared by a tuple, its
reverse and the two tuples with only their ports exchanged, and by no other.  `track` is the way
of a packet through both programs, and it touches no entry but its own; an ICMP error reads one
more, the one it quotes.
-/

namespace Polycube.Firewall

open Function Lib

namespace CtKey

def reverse (t : CtKey) : CtKey := ⟨t.dstIp, t.srcIp, t.l4proto, t.dstPort, t.srcPort⟩

def cross (t : CtKey) : CtKey := ⟨t.srcIp, t.dstIp, t.l4proto, t.dstPort, t.srcPort⟩

end CtKey

def ordered {w : ℕ} (a b : BitVec w) : BitVec w × BitVec w := if a ≤ b then (a, b) else (b, a)

theorem ordered_eq_iff {w : ℕ} (a b c d : BitVec w) :
    ordered a b = ordered c d ↔ (a = c ∧ b = d) ∨ (a = d ∧ b = c) := by
  unfold ordered
  split_ifs with h₁ h₂ h₂ <;> simp only [Prod.mk.injEq] <;> bv_omega

/-- The key of a session has its addresses in order and its ports in order. -/
theorem normalize_key (t : CtKey) :
    (normalize t).key =
      ⟨(ordered t.srcIp t.dstIp).1, (ordered t.srcIp t.dstIp).2, t.l4proto,
        (ordered t.srcPort t.dstPort).1, (ordered t.srcPort t.dstPort).2⟩ := by
  have ports : ∀ r : Bool,
      ((if t.srcPort < t.dstPort then (t.srcPort, t.dstPort, false)
        else if t.srcPort > t.dstPort then (t.dstPort, t.srcPort, true)
        else (t.srcPort, t.dstPort, r)) : BitVec 16 × BitVec 16 × Bool).1 =
          (ordered t.srcPort t.dstPort).1 ∧
      ((if t.srcPort < t.dstPort then (t.srcPort, t.dstPort, false)
        else if t.srcPort > t.dstPort then (t.dstPort, t.srcPort, true)
        else (t.srcPort, t.dstPort, r)) : BitVec 16 × BitVec 16 × Bool).2.1 =
          (ordered t.srcPort t.dstPort).2 := by
    intro r
    unfold ordered
    split_ifs <;> refine ⟨?_, ?_⟩ <;> bv_omega
  unfold normalize
  simp only [ports]
  unfold ordered
  split_ifs <;> rfl

/-- Two tuples have one key exactly when they are equal or reversed, up to their ports being
exchanged by themselves. -/
theorem normalize_key_eq_iff (p q : CtKey) :
    (normalize p).key = (normalize q).key ↔
      p = q ∨ p = q.reverse ∨ p = q.cross ∨ p = q.cross.reverse := by
  obtain ⟨s, d, proto, sp, dp⟩ := p
  obtain ⟨s', d', proto', sp', dp'⟩ := q
  have key : (normalize ⟨s, d, proto, sp, dp⟩).key = (normalize ⟨s', d', proto', sp', dp'⟩).key ↔
      ordered s d = ordered s' d' ∧ proto = proto' ∧ ordered sp dp = ordered sp' dp' := by
    simp only [normalize_key, CtKey.mk.injEq, Prod.ext_iff]
    exact ⟨fun ⟨a, b, c, d, e⟩ => ⟨⟨a, b⟩, c, d, e⟩, fun ⟨⟨a, b⟩, c, d, e⟩ => ⟨a, b, c, d, e⟩⟩
  rw [key, ordered_eq_iff, ordered_eq_iff]
  simp only [CtKey.reverse, CtKey.cross, CtKey.mk.injEq]
  constructor
  · rintro ⟨⟨rfl, rfl⟩ | ⟨rfl, rfl⟩, rfl, ⟨rfl, rfl⟩ | ⟨rfl, rfl⟩⟩ <;> simp
  · rintro (⟨rfl, rfl, rfl, rfl, rfl⟩ | ⟨rfl, rfl, rfl, rfl, rfl⟩ | ⟨rfl, rfl, rfl, rfl, rfl⟩ |
      ⟨rfl, rfl, rfl, rfl, rfl⟩) <;> simp

/-- The session of the answer, when the two addresses differ: the same key, both flags turned. -/
theorem normalize_reverse {t : CtKey} (h : t.srcIp ≠ t.dstIp) :
    normalize t.reverse = ⟨(normalize t).key, !(normalize t).ipRev, !(normalize t).portRev⟩ := by
  have key : (normalize t.reverse).key = (normalize t).key :=
    (normalize_key_eq_iff _ _).2 (.inr (.inl rfl))
  have ipRev : (normalize t.reverse).ipRev = !(normalize t).ipRev := by
    unfold normalize CtKey.reverse
    by_cases c : t.srcIp ≤ t.dstIp
    · have c' : ¬ t.dstIp ≤ t.srcIp := by bv_omega
      simp [c, c']
    · have c' : t.dstIp ≤ t.srcIp := by bv_omega
      simp [c, c']
  have portRev : (normalize t.reverse).portRev = !(normalize t).portRev := by
    rcases BitVec.lt_trichotomy t.srcPort t.dstPort with c | c | c
    · have c' : ¬ t.dstPort < t.srcPort := by bv_omega
      simp [normalize, CtKey.reverse, c, c']
    · -- equal ports: the port flag copies the address flag
      have copied : ∀ u : CtKey, u.srcPort = u.dstPort → (normalize u).portRev = (normalize u).ipRev :=
        fun u e => by simp [normalize, e]
      rw [copied t c, copied t.reverse c.symm, ipRev]
    · have c' : ¬ t.srcPort < t.dstPort := by bv_omega
      simp [normalize, CtKey.reverse, c, c']
  rw [← key, ← ipRev, ← portRev]

/-- The session of the answer, when the two addresses are equal: the address flag is the same. -/
theorem normalize_reverse_ipRev {t : CtKey} (h : t.srcIp = t.dstIp) :
    (normalize t.reverse).ipRev = (normalize t).ipRev := by
  unfold normalize CtKey.reverse
  rw [h]

/-! ### A packet through both programs -/

structure Tracked where
  label : ConnStatus
  ret : Ret
  pkt : PacketHeaders
  frame : Buffer
  deriving DecidableEq

/-- A packet through `ConntrackLabel` and `ConntrackTableUpdate`; `none` when the first drops
it. -/
def track (pkt : PacketHeaders) (frame : Buffer) (now : BitVec 64) (ct : Connections) :
    Option Tracked × Connections :=
  match label ct pkt frame with
  | none => (none, ct)
  | some (st, frame) =>
    let r := tableUpdate (pkt.setConnStatus st) frame now ct
    (some ⟨st, r.1.1, r.1.2, frame⟩, r.2)

def isIcmpError (pkt : PacketHeaders) (frame : Buffer) : Prop :=
  pkt.l4proto = ipprotoIcmp ∧ icmpType frame ≠ icmpEcho ∧ icmpType frame ∉ icmpUnsupported

theorem quotedKey_fst (frame : Buffer) :
    (quotedKey frame).1 = (normalize (quotedTuple frame)).key := by
  simp only [normalize_key, quotedKey, ordered]
  split_ifs <;> rfl

section

variable {k : CtKey} {pkt : PacketHeaders} {frame : Buffer}

/-- Labelling a packet reads no entry but its own, unless it is an ICMP error: that reads also
the entry of the session it quotes. -/
theorem label_update (hk : (normalize pkt.tuple).key ≠ k)
    (hq : isIcmpError pkt frame → (normalize (quotedTuple frame)).key ≠ k) (ct : Connections)
    (e : Option CtValue) :
    label (update ct k e) pkt frame = label ct pkt frame := by
  have miss : icmpType frame ≠ icmpEcho → pkt.l4proto = ipprotoIcmp →
      labelIcmpMiss (update ct k e) frame = labelIcmpMiss ct frame := by
    intro hecho hproto
    unfold labelIcmpMiss
    by_cases hun : icmpType frame ∈ icmpUnsupported
    · simp only [hun, if_true]
    · have quoted : (quotedKey frame).1 ≠ k := by
        rw [quotedKey_fst]
        exact hq ⟨hproto, hecho, hun⟩
      simp only [update_of_ne quoted]
  unfold label
  simp only [update_of_ne hk]
  split_ifs with htcp hudp hicmp
  · rfl
  · rfl
  · unfold labelIcmp
    simp only [update_of_ne hk]
    split_ifs with hlen hecho hreply
    · rfl
    · rfl
    · rw [miss hecho hicmp]
    · rw [miss hecho hicmp]
  · rfl

theorem insertNew_ignores {β : Type*} {k' : CtKey} (hk : k' ≠ k) (b : β) (v : CtValue) :
    Ignores k (fun ct => (b, insertNew k' v ct)) := by
  intro ct e
  simp only [insertNew, update_of_ne hk]
  cases ct k' with
  | none => exact Ignores.write hk b (some v) ct e
  | some _ => rfl

theorem updateTcp_ignores (hk : (normalize pkt.tuple).key ≠ k) (now : BitVec 64) :
    Ignores k (updateTcp pkt now) := by
  intro ct e
  simp only [updateTcp, update_of_ne hk]
  by_cases hrst : hasFlag pkt.flags tcphdrRst
  · simp only [hrst, if_true]
  · simp only [hrst]
    cases updateTcpStep (normalize pkt.tuple) (ct (normalize pkt.tuple).key) pkt now with
    | store v => exact Ignores.write hk pkt (some v) ct e
    | keep => rfl
    | reject => rfl
    | miss =>
      by_cases hsyn : onlySyn pkt.flags
      · simp only [hsyn, if_true]
        exact Ignores.write hk pkt _ ct e
      · simp only [hsyn]
        rfl

theorem updateUdp_ignores {β : Type*} (hk : (normalize pkt.tuple).key ≠ k) (b : β)
    (now : BitVec 64) : Ignores k (fun ct => (b, updateUdp pkt now ct)) := by
  intro ct e
  simp only [updateUdp, update_of_ne hk]
  cases (ct (normalize pkt.tuple).key).bind (udpRefresh (normalize pkt.tuple) · now) with
  | some v => exact Ignores.write hk b (some v) ct e
  | none => exact insertNew_ignores hk b _ ct e

theorem updateIcmp_ignores (hk : (normalize pkt.tuple).key ≠ k) (now : BitVec 64) :
    Ignores k (updateIcmp pkt frame now) := by
  intro ct e
  unfold updateIcmp
  split_ifs with hlen hecho hreply
  · rfl
  · exact insertNew_ignores hk Ret.rxOk _ ct e
  · exact Ignores.write hk Ret.rxOk none ct e
  · rfl

/-- Updating the table for a packet reads and writes no entry but its own. -/
theorem tableUpdate_ignores (hk : (normalize pkt.tuple).key ≠ k) (now : BitVec 64) :
    Ignores k (tableUpdate pkt frame now) := by
  intro ct e
  unfold tableUpdate
  split_ifs with hinv htcp hudp hicmp
  · rfl
  · simp only [updateTcp_ignores hk now ct e]
  · exact updateUdp_ignores hk (Ret.rxOk, pkt) now ct e
  · simp only [updateIcmp_ignores hk now ct e]
  · rfl

/-- A packet through both programs reads and writes no entry but its own, and reads the one it
quotes when it is an ICMP error. -/
theorem track_ignores (hk : (normalize pkt.tuple).key ≠ k)
    (hq : isIcmpError pkt frame → (normalize (quotedTuple frame)).key ≠ k) (now : BitVec 64) :
    Ignores k (track pkt frame now) := by
  intro ct e
  unfold track
  rw [label_update hk hq]
  cases label ct pkt frame with
  | none => rfl
  | some r =>
    have own : (normalize (pkt.setConnStatus r.1).tuple).key ≠ k := hk
    simp only [tableUpdate_ignores own now ct e]

/-- A packet through both programs writes no entry but its own, whatever it reads. -/
theorem track_snd_apply (hk : (normalize pkt.tuple).key ≠ k) (now : BitVec 64)
    (ct : Connections) : (track pkt frame now ct).2 k = ct k := by
  unfold track
  cases label ct pkt frame with
  | none => rfl
  | some r =>
    have own : (normalize (pkt.setConnStatus r.1).tuple).key ≠ k := hk
    exact (tableUpdate_ignores own now).snd_apply ct

end

/-- Packets of two sessions, not even related by exchanging the ports alone, have two keys; one
leaves the entry of the other as it is, and does not read it unless it is an ICMP error that
quotes it. -/
theorem sessions_separate {p q : PacketHeaders} (hne : p.tuple ≠ q.tuple)
    (hrev : p.tuple ≠ q.tuple.reverse) (hcross : p.tuple ≠ q.tuple.cross)
    (hcrossrev : p.tuple ≠ q.tuple.cross.reverse) (frame : Buffer) (now : BitVec 64) :
    (normalize p.tuple).key ≠ (normalize q.tuple).key ∧
    (∀ ct, (track p frame now ct).2 (normalize q.tuple).key = ct (normalize q.tuple).key) ∧
    ((isIcmpError p frame → (normalize (quotedTuple frame)).key ≠ (normalize q.tuple).key) →
      Ignores (normalize q.tuple).key (track p frame now)) := by
  have apart : (normalize p.tuple).key ≠ (normalize q.tuple).key := by
    rw [ne_eq, normalize_key_eq_iff]
    simp only [hne, hrev, hcross, hcrossrev, or_self, not_false_eq_true]
  exact ⟨apart, fun ct => track_snd_apply apart now ct,
    fun hq => track_ignores apart hq now⟩

def dnsQuery : PacketHeaders where
  srcIp := 0x0100000a#32
  dstIp := 0x0200000a#32
  l4proto := ipprotoUdp
  srcPort := 0x3412#16
  dstPort := 0x3500#16
  flags := 0#8
  seqN := 0#32
  ackN := 0#32
  connStatus := .new
  forwardingDecision := .notSet

/-- An ICMP error for `dnsQuery`, from a router at 10.0.0.254. -/
def unreachable : PacketHeaders :=
  { dnsQuery with srcIp := 0xfe00000a#32, dstIp := 0x0100000a#32, l4proto := ipprotoIcmp }

/-- The frame of `unreachable`; the Ethernet and IP headers are not looked at. -/
def unreachableFrame : Buffer :=
  List.replicate (ethLen + ipLen) 0#8 ++ [3, 1, 0, 0, 0, 0, 0, 0] ++
    [0x45, 0, 0, 0, 0, 0, 0, 0, 64, 17, 0, 0, 10, 0, 0, 1, 10, 0, 0, 2] ++
    [0x12, 0x34, 0, 53, 0, 0, 0, 0]

theorem sessions_separate_dns :
    (normalize unreachable.tuple).key ≠ (normalize dnsQuery.tuple).key ∧
    (∀ ct, (track unreachable unreachableFrame 0 ct).2 (normalize dnsQuery.tuple).key =
      ct (normalize dnsQuery.tuple).key) ∧
    ((isIcmpError unreachable unreachableFrame →
        (normalize (quotedTuple unreachableFrame)).key ≠ (normalize dnsQuery.tuple).key) →
      Ignores (normalize dnsQuery.tuple).key (track unreachable unreachableFrame 0)) :=
  sessions_separate (by decide) (by decide) (by decide) (by decide) unreachableFrame 0

/-- With only its ports exchanged, a packet is neither the same session nor its answer, and yet
the key is the same.  An ICMP error is of another session than the one it quotes, and yet it is
labelled by that one's entry. -/
theorem sessions_not_separate :
    (dnsQuery.tuple.cross ≠ dnsQuery.tuple ∧ dnsQuery.tuple.cross ≠ dnsQuery.tuple.reverse ∧
      (normalize dnsQuery.tuple.cross).key = (normalize dnsQuery.tuple).key) ∧
    (unreachable.tuple ≠ dnsQuery.tuple ∧ unreachable.tuple ≠ dnsQuery.tuple.reverse ∧
      (label (fun _ => none) unreachable unreachableFrame).map Prod.fst = some .invalid ∧
      (label (track dnsQuery [] 0 fun _ => none).2 unreachable unreachableFrame).map Prod.fst =
        some .related) := by
  decide

end Polycube.Firewall
