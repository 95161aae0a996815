import Polycube.Iptables.Conntrack

/-!
# What tracking leaves of a packet

The programs that track connections look at a packet and pass it on, and none of its bytes changes.
Two of the four programs write to it all the same.  `ConntrackTableUpdate` of this service makes
the change a router makes when it sends the packet out by itself.  `ConntrackLabel` of both
services searches the session of the packet that an ICMP error quotes, and puts the ports of the
quoted packet in order with the packet's own memory as the spare place: an error about a packet
whose source port is above its destination port goes on with a wrong destination port in it.
-/

namespace Polycube.Iptables

open Lib
open Polycube.Firewall (PacketHeaders Connections ConnStatus Session ethLen ipLen icmpLen
  icmpType icmpEcho icmpEchoReply icmpUnsupported quotedOff
  quotedTuple quotedKey normalize)

/-! ### One hop less -/

def headerWords (frame : Buffer) : List (BitVec 16) :=
  frame.words ethLen (2 * (frame.byte ethLen &&& 0x0f#8).toNat)

structure Forwarded (r : FibResult) (frame frame' : Buffer) : Prop where
  length : frame'.length = frame.length
  alive : 1#8 < frame.byte (ethLen + 8)
  ttl : frame'.byte (ethLen + 8) = frame.byte (ethLen + 8) - 1#8
  checksum : ChecksumOk (headerWords frame) → ChecksumOk (headerWords frame')
  dmac : ∀ i < 6, frame'.byte i = r.dmac.1.byte i
  smac : ∀ i < 6, frame'.byte (6 + i) = r.smac.1.byte i
  rest : ∀ i, 12 ≤ i → i ≠ ethLen + 8 → i ≠ ethLen + 10 → i ≠ ethLen + 11 →
    frame'.byte i = frame.byte i

section DecreaseTtl

variable {frame : Buffer}

/-- The checksum that `ipDecreaseTtl` stores. -/
def raisedCheck (frame : Buffer) : BitVec 16 :=
  let check : BitVec 32 := (frame.load16 (ethLen + 10)).setWidth 32 +
    (bswap16 0x0100#16).setWidth 32
  (check + if check ≥ 0xFFFF#32 then 1#32 else 0#32).setWidth 16

theorem ipDecreaseTtl_eq (frame : Buffer) :
    ipDecreaseTtl frame = (frame.store16 (ethLen + 10) (raisedCheck frame)).store8 (ethLen + 8)
      (frame.byte (ethLen + 8) - 1#8) := by
  have kept : (frame.store16 (ethLen + 10) (raisedCheck frame)).byte (ethLen + 8) =
      frame.byte (ethLen + 8) := Buffer.byte_store16_of_ne _ _ _ _ (by decide) (by decide)
  rw [← kept]
  rfl

@[simp] theorem length_ipDecreaseTtl (frame : Buffer) :
    (ipDecreaseTtl frame).length = frame.length := by
  rw [ipDecreaseTtl_eq, Buffer.length_store8, Buffer.length_store16]

theorem byte_ipDecreaseTtl_of_ne {i : ℕ} (h : i ≠ ethLen + 8) (h' : i ≠ ethLen + 10)
    (h'' : i ≠ ethLen + 11) : (ipDecreaseTtl frame).byte i = frame.byte i := by
  rw [ipDecreaseTtl_eq, Buffer.byte_store8_of_ne _ _ _ _ h,
    Buffer.byte_store16_of_ne _ _ _ _ h' h'']

theorem ttl_ipDecreaseTtl (h : ethLen + ipLen ≤ frame.length) :
    (ipDecreaseTtl frame).byte (ethLen + 8) = frame.byte (ethLen + 8) - 1#8 := by
  have inside : ethLen + 8 < frame.length := by
    have sizes : ethLen + 8 < ethLen + ipLen := by decide
    omega
  rw [ipDecreaseTtl_eq, Buffer.byte_store8, Buffer.length_store16, if_pos ⟨rfl, inside⟩]

theorem toNat_raisedCheck (frame : Buffer) :
    (raisedCheck frame).toNat % 65535 = ((frame.load16 (ethLen + 10)).toNat + 1) % 65535 := by
  have bound := (frame.load16 (ethLen + 10)).isLt
  have one : (bswap16 0x0100#16).setWidth 32 = 1#32 := by decide
  unfold raisedCheck
  rw [one]
  generalize frame.load16 (ethLen + 10) = check at bound ⊢
  dsimp only
  split_ifs with high <;>
    simp only [BitVec.toNat_setWidth, BitVec.toNat_add, BitVec.toNat_ofNat, BitVec.le_def, ge_iff_le]
      at high ⊢ <;> omega

theorem ttlWord_ipDecreaseTtl (h : ethLen + ipLen ≤ frame.length)
    (alive : 1#8 < frame.byte (ethLen + 8)) :
    ((ipDecreaseTtl frame).load16 (ethLen + 8)).toNat + 1 = (frame.load16 (ethLen + 8)).toNat := by
  have low := ttl_ipDecreaseTtl h
  have high : (ipDecreaseTtl frame).byte (ethLen + 8 + 1) = frame.byte (ethLen + 8 + 1) :=
    byte_ipDecreaseTtl_of_ne (by decide) (by decide) (by decide)
  unfold Buffer.load16
  rw [low, high, toNat_append_eq, toNat_append_eq]
  generalize frame.byte (ethLen + 8) = ttl at alive ⊢
  bv_omega

theorem check_ipDecreaseTtl (h : ethLen + ipLen ≤ frame.length) :
    (ipDecreaseTtl frame).load16 (ethLen + 10) = raisedCheck frame := by
  have inside : ethLen + 10 + 1 < frame.length := by
    have sizes : ethLen + 10 + 1 < ethLen + ipLen := by decide
    omega
  have apart : (ipDecreaseTtl frame).load16 (ethLen + 10) =
      (frame.store16 (ethLen + 10) (raisedCheck frame)).load16 (ethLen + 10) := by
    rw [ipDecreaseTtl_eq]
    unfold Buffer.load16
    rw [Buffer.byte_store8_of_ne _ _ _ _ (by decide), Buffer.byte_store8_of_ne _ _ _ _ (by decide)]
  rw [apart, Buffer.load16_store16 _ _ _ inside]

/-- The header counts the same: what the time to live loses the checksum gains. -/
theorem total_ipDecreaseTtl (h : ethLen + ipLen ≤ frame.length)
    (alive : 1#8 < frame.byte (ethLen + 8)) (n : ℕ) :
    total ((ipDecreaseTtl frame).words ethLen (2 * n)) % 65535 =
      total (frame.words ethLen (2 * n)) % 65535 := by
  by_cases short : n < 3
  · -- a header that ends before the time to live
    rw [Buffer.words_congr]
    intro i low high
    have sizes : ethLen = 14 := rfl
    exact byte_ipDecreaseTtl_of_ne (by omega) (by omega) (by omega)
  · have parts : 2 * n = 4 + (1 + (1 + (2 * n - 6))) := by omega
    have front : (ipDecreaseTtl frame).words ethLen 4 = frame.words ethLen 4 := by
      apply Buffer.words_congr
      intro i low high
      exact byte_ipDecreaseTtl_of_ne (by omega) (by omega) (by omega)
    have back (k : ℕ) : (ipDecreaseTtl frame).words (ethLen + 8 + 2 + 2) k =
        frame.words (ethLen + 8 + 2 + 2) k := by
      apply Buffer.words_congr
      intro i low high
      exact byte_ipDecreaseTtl_of_ne (by omega) (by omega) (by omega)
    have ttl := ttlWord_ipDecreaseTtl h alive
    have check := toNat_raisedCheck frame
    rw [← check_ipDecreaseTtl h] at check
    rw [parts]
    simp only [Buffer.words_add, Buffer.words_one, total_append, total_cons, total_nil, Nat.mul_one,
      front, back]
    generalize total (frame.words ethLen 4) = a
    generalize total (frame.words (ethLen + 8 + 2 + 2) (2 * n - 6)) = b
    show (a + (((ipDecreaseTtl frame).load16 (ethLen + 8)).toNat + 0 +
        (((ipDecreaseTtl frame).load16 (ethLen + 10)).toNat + 0 + b))) % 65535 =
      (a + ((frame.load16 (ethLen + 8)).toNat + 0 +
        ((frame.load16 (ethLen + 10)).toNat + 0 + b))) % 65535
    omega

end DecreaseTtl

/-- A header whose length field is not zero does not count zero. -/
theorem total_ne_zero {frame : Buffer} {n : ℕ} (h : (frame.byte ethLen &&& 0x0f#8).toNat = n)
    (pos : 0 < n) : total (frame.words ethLen (2 * n)) ≠ 0 := by
  have first : frame.byte ethLen ≠ 0#8 := by
    intro e
    rw [e] at h
    have zero : (0#8 &&& 0x0f#8).toNat = 0 := by decide
    omega
  have parts : 2 * n = 1 + (2 * n - 1) := by omega
  rw [parts, Buffer.words_add, total_append, Buffer.words_one, total_cons]
  have word : (frame.load16 ethLen).toNat ≠ 0 := by
    unfold Buffer.load16
    rw [toNat_append_eq]
    have nonzero : (frame.byte ethLen).toNat ≠ 0 := fun e => first (BitVec.eq_of_toNat_eq e)
    omega
  omega

theorem checksum_ipDecreaseTtl {frame : Buffer} (h : ethLen + ipLen ≤ frame.length)
    (alive : 1#8 < frame.byte (ethLen + 8)) (ok : ChecksumOk (headerWords frame)) :
    ChecksumOk (headerWords (ipDecreaseTtl frame)) := by
  have first : (ipDecreaseTtl frame).byte ethLen = frame.byte ethLen :=
    byte_ipDecreaseTtl_of_ne (by decide) (by decide) (by decide)
  have nonempty : 0 < (frame.byte ethLen &&& 0x0f#8).toNat := by
    apply Nat.pos_of_ne_zero
    intro zero
    have none : total (headerWords frame) = 0 := by
      unfold headerWords
      rw [zero]
      rfl
    exact ((checksumOk_iff _).1 ok).2 none
  apply ok.of_mod
  · unfold headerWords
    rw [first]
    exact total_ipDecreaseTtl h alive _
  · exact total_ne_zero rfl (by rwa [first])

theorem forwarded_redirected (r : FibResult) {frame : Buffer} (h : ethLen + ipLen ≤ frame.length)
    (alive : 1#8 < frame.byte (ethLen + 8)) : Forwarded r frame (redirected r frame) := by
  have sizes : 34 ≤ frame.length := h
  have header : ∀ i, 12 ≤ i → (redirected r frame).byte i = (ipDecreaseTtl frame).byte i := by
    intro i hi
    have d := r.dmac.2
    have s := r.smac.2
    unfold redirected
    rw [Buffer.byte_storeBytes_of_outside _ _ _ _ (by omega),
      Buffer.byte_storeBytes_of_outside _ _ _ _ (by omega)]
  have words : headerWords (redirected r frame) = headerWords (ipDecreaseTtl frame) := by
    unfold headerWords
    rw [header ethLen (by decide)]
    apply Buffer.words_congr
    intro i low _
    have after : 12 ≤ ethLen := by decide
    exact header i (by omega)
  constructor
  case length => simp only [redirected, Buffer.length_storeBytes, length_ipDecreaseTtl]
  case alive => exact alive
  case ttl => rw [header _ (by decide), ttl_ipDecreaseTtl h]
  case checksum =>
    rw [words]
    exact checksum_ipDecreaseTtl h alive
  case dmac =>
    intro i hi
    have d := r.dmac.2
    have len := length_ipDecreaseTtl frame
    unfold redirected
    rw [Buffer.byte_storeBytes_of_outside _ _ _ _ (by omega), Buffer.byte_storeBytes,
      if_pos ⟨by omega, by omega, by omega⟩, Nat.sub_zero]
  case smac =>
    intro i hi
    have s := r.smac.2
    have len := length_ipDecreaseTtl frame
    unfold redirected
    rw [Buffer.byte_storeBytes,
      if_pos ⟨by omega, by omega, by rw [Buffer.length_storeBytes]; omega⟩, Nat.add_sub_cancel_left]
  case rest =>
    intro i hi h₁ h₂ h₃
    rw [header i hi, byte_ipDecreaseTtl_of_ne h₁ h₂ h₃]

section Label

variable (ct : Connections) (s : Session) (frame : Buffer)

/-- `ConntrackLabel` comes to the packet that an ICMP error quotes.  An echo reply can be taken
for an error too. -/
def ReadsQuoted : Prop :=
  quotedOff + ipLen + 8 ≤ frame.length ∧ icmpType frame ≠ icmpEcho ∧
    icmpType frame ∉ icmpUnsupported ∧
    (icmpType frame = icmpEchoReply →
      ∃ v, ct s.key = some v ∧ ¬ (v.ipRev ≠ s.ipRev ∧ v.portRev ≠ s.portRev))

def QuotedPortsFall : Prop := (quotedTuple frame).dstPort < (quotedTuple frame).srcPort

/-- The search for the session writes to the packet exactly when the ports are out of order. -/
theorem quotedKey_snd_iff (h : quotedOff + ipLen + 8 ≤ frame.length) :
    (quotedKey frame).2 = frame ↔ ¬ QuotedPortsFall frame := by
  unfold quotedKey QuotedPortsFall
  by_cases order : (quotedTuple frame).srcPort ≤ (quotedTuple frame).dstPort
  · rw [if_pos order]
    exact iff_of_true rfl (by bv_omega)
  · rw [if_neg order, Buffer.store16_eq_iff _ _ _ (by omega)]
    have dst : frame.load16 (quotedOff + ipLen + 2) = (quotedTuple frame).dstPort := rfl
    rw [dst]
    constructor <;> intro _ <;> bv_omega

def leaves (frame : Buffer) : Option (ConnStatus × Buffer) → Buffer
  | none => frame
  | some r => r.2

theorem labelIcmpMiss_leaves :
    leaves frame (Firewall.labelIcmpMiss ct frame) = frame ↔
      ¬ ((quotedOff + ipLen + 8 ≤ frame.length ∧ icmpType frame ∉ icmpUnsupported) ∧
        QuotedPortsFall frame) := by
  unfold Firewall.labelIcmpMiss
  by_cases unsupported : icmpType frame ∈ icmpUnsupported
  · rw [if_pos unsupported]
    exact iff_of_true rfl (fun c => c.1.2 unsupported)
  · rw [if_neg unsupported]
    by_cases short : frame.length < quotedOff + ipLen
    · rw [if_pos short]
      exact iff_of_true rfl (fun c => by omega)
    · rw [if_neg short]
      by_cases short : frame.length < quotedOff + ipLen + 8
      · rw [if_pos short]
        exact iff_of_true rfl (fun c => by omega)
      · rw [if_neg short]
        have long : quotedOff + ipLen + 8 ≤ frame.length := by omega
        have quoted := quotedKey_snd_iff frame long
        constructor
        · intro same c
          exact quoted.1 same c.2
        · intro c
          exact quoted.2 (fun fall => c ⟨⟨long, unsupported⟩, fall⟩)

theorem labelIcmp_leaves :
    leaves frame (Firewall.labelIcmp ct s frame) = frame ↔
      ¬ (ReadsQuoted ct s frame ∧ QuotedPortsFall frame) := by
  have sizes : ethLen + ipLen + icmpLen ≤ quotedOff + ipLen + 8 := by decide
  have miss := labelIcmpMiss_leaves ct frame
  unfold Firewall.labelIcmp ReadsQuoted
  by_cases short : frame.length < ethLen + ipLen + icmpLen
  · rw [if_pos short]
    exact iff_of_true rfl (fun c => by omega)
  · rw [if_neg short]
    by_cases echo : icmpType frame = icmpEcho
    · rw [if_pos echo]
      exact iff_of_true rfl (fun c => c.1.2.1 echo)
    · rw [if_neg echo]
      by_cases reply : icmpType frame = icmpEchoReply
      · rw [if_pos reply]
        cases found : ct s.key with
        | none =>
          refine iff_of_true rfl (fun c => ?_)
          obtain ⟨v, hv, -⟩ := c.1.2.2.2 reply
          cases hv
        | some v =>
          dsimp only
          by_cases turned : v.ipRev ≠ s.ipRev ∧ v.portRev ≠ s.portRev
          · rw [if_pos turned]
            refine iff_of_true rfl (fun c => ?_)
            obtain ⟨w, hw, other⟩ := c.1.2.2.2 reply
            cases hw
            exact other turned
          · rw [if_neg turned, miss]
            apply not_congr
            apply and_congr_left'
            exact ⟨fun ⟨long, sup⟩ => ⟨long, echo, sup, fun _ => ⟨v, rfl, turned⟩⟩,
              fun ⟨long, _, sup, _⟩ => ⟨long, sup⟩⟩
      · rw [if_neg reply, miss]
        apply not_congr
        apply and_congr_left'
        exact ⟨fun ⟨long, sup⟩ => ⟨long, echo, sup, fun e => absurd e reply⟩,
          fun ⟨long, _, sup, _⟩ => ⟨long, sup⟩⟩

end Label

/-- `ConntrackLabel` puts the quoted ports in order inside the packet. -/
def ExchangesQuotedPorts (m : Memory) : Prop :=
  m.pkt.l4proto = Firewall.ipprotoIcmp ∧ ReadsQuoted m.connections (normalize m.pkt.tuple) m.frame ∧
    QuotedPortsFall m.frame

theorem label_leaves (m : Memory) :
    leaves m.frame (Firewall.label m.connections m.pkt m.frame) = m.frame ↔
      ¬ ExchangesQuotedPorts m := by
  have other (h : m.pkt.l4proto ≠ Firewall.ipprotoIcmp) : ¬ ExchangesQuotedPorts m := fun c => h c.1
  unfold Firewall.label
  by_cases tcp : m.pkt.l4proto = Firewall.ipprotoTcp
  · rw [if_pos tcp]
    exact iff_of_true rfl (other (by rw [tcp]; decide))
  · rw [if_neg tcp]
    by_cases udp : m.pkt.l4proto = Firewall.ipprotoUdp
    · rw [if_pos udp]
      exact iff_of_true rfl (other (by rw [udp]; decide))
    · rw [if_neg udp]
      by_cases icmp : m.pkt.l4proto = Firewall.ipprotoIcmp
      · rw [if_pos icmp, labelIcmp_leaves]
        exact not_congr ⟨fun c => ⟨icmp, c.1, c.2⟩, fun c => ⟨c.2.1, c.2.2⟩⟩
      · rw [if_neg icmp]
        exact iff_of_true rfl (other icmp)

theorem frame_labelingCase (c : Compiled) (e : Surroundings) (name : ChainNameEnum) (m : Memory) :
    (labelingCase c e name m).2.frame = m.frame := by
  unfold labelingCase
  split
  · rfl
  · split_ifs <;> rfl
  · rfl

theorem frame_iptablesAction (c : Compiled) (e : Surroundings) (m : Memory) :
    (iptablesAction c e m).2.frame = m.frame := by
  unfold iptablesAction
  split <;> first | exact frame_labelingCase c e _ m | rfl

theorem frame_firewallLabel (c : Compiled) (m : Memory) :
    (firewallLabel c m).2.frame =
      leaves m.frame (Firewall.label m.connections m.pkt m.frame) := by
  unfold firewallLabel
  cases Firewall.label m.connections m.pkt m.frame with
  | none => rfl
  | some r => rfl

theorem frame_iptablesLabel (c : Compiled) (e : Surroundings) (m : Memory) :
    (iptablesLabel c e m).2.frame =
      leaves m.frame (Firewall.label m.connections m.pkt m.frame) := by
  unfold iptablesLabel
  cases Firewall.label m.connections m.pkt m.frame with
  | none => rfl
  | some r => exact frame_iptablesAction c e _

theorem frame_firewallTableUpdate (c : Compiled) (e : Surroundings) (m : Memory) :
    (firewallTableUpdate c e m).2.frame = m.frame := by
  unfold firewallTableUpdate
  split
  · rfl
  · split <;> rfl

/-- The part after `forward_action` leaves the frame or sends it out. -/
theorem frame_forwardAction (c : Compiled) (e : Surroundings) (m : Memory) :
    (forwardAction c e m).2.frame = m.frame ∨
      c.fibLookupEnabled = true ∧ ∃ r, e.fibLookup (fibParams e m.frame) = some r ∧
        Forwarded r m.frame (forwardAction c e m).2.frame := by
  unfold forwardAction
  by_cases enabled : c.fibLookupEnabled = true ∧ c.type = .ingress
  · rw [if_pos enabled]
    by_cases short : m.frame.length < ethLen
    · rw [if_pos short]
      exact .inl rfl
    · rw [if_neg short]
      by_cases ip : m.frame.load16 12 = bswap16 Firewall.ethPIp
      · rw [if_pos ip]
        by_cases cut : m.frame.length < ethLen + ipLen
        · rw [if_pos cut]
          exact .inl rfl
        · rw [if_neg cut]
          by_cases dead : m.frame.byte (ethLen + 8) ≤ 1#8
          · rw [if_pos dead]
            exact .inl rfl
          · rw [if_neg dead]
            cases found : e.fibLookup (fibParams e m.frame) with
            | none => exact .inl rfl
            | some r =>
              have alive : 1#8 < m.frame.byte (ethLen + 8) := by bv_omega
              exact .inr ⟨enabled.1, r, rfl,
                forwarded_redirected r (Nat.le_of_not_lt cut) alive⟩
      · rw [if_neg ip]
        exact .inl rfl
  · rw [if_neg enabled]
    exact .inl rfl

theorem frame_iptablesTableUpdate (c : Compiled) (e : Surroundings) (m : Memory) :
    (iptablesTableUpdate c e m).2.frame = m.frame ∨
      c.fibLookupEnabled = true ∧ ∃ r, e.fibLookup (fibParams e m.frame) = some r ∧
        Forwarded r m.frame (iptablesTableUpdate c e m).2.frame := by
  unfold iptablesTableUpdate
  split
  · exact .inl rfl
  · split
    · exact .inl rfl
    · exact frame_forwardAction c e (m.tracked _ _)

def KeepsTraffic (c : Compiled) (e : Surroundings) (m : Memory) (p : TrackingProgram) : Prop :=
  (p.handleRx c e m).2.frame = m.frame ∨
    p = .iptablesTableUpdate ∧ c.fibLookupEnabled = true ∧
      ∃ r, e.fibLookup (fibParams e m.frame) = some r ∧
        Forwarded r m.frame (p.handleRx c e m).2.frame

/-- The two programs `ConntrackLabel`. -/
def TrackingProgram.labels : TrackingProgram → Bool
  | firewallLabel => true
  | iptablesLabel => true
  | firewallTableUpdate => false
  | iptablesTableUpdate => false

/-- Tracking alters a packet exactly when a program `ConntrackLabel` puts the quoted ports of an
ICMP error in order. -/
theorem keepsTraffic_iff (c : Compiled) (e : Surroundings) (m : Memory) (p : TrackingProgram) :
    KeepsTraffic c e m p ↔ ¬ (p.labels = true ∧ ExchangesQuotedPorts m) := by
  have label := label_leaves m
  cases p with
  | firewallLabel =>
    rw [← frame_firewallLabel c m] at label
    constructor
    · rintro (same | ⟨other, -⟩) exchanged
      · exact label.1 same exchanged.2
      · cases other
    · exact fun kept => .inl (label.2 fun exchanged => kept ⟨rfl, exchanged⟩)
  | iptablesLabel =>
    rw [← frame_iptablesLabel c e m] at label
    constructor
    · rintro (same | ⟨other, -⟩) exchanged
      · exact label.1 same exchanged.2
      · cases other
    · exact fun kept => .inl (label.2 fun exchanged => kept ⟨rfl, exchanged⟩)
  | firewallTableUpdate =>
    exact iff_of_true (.inl (frame_firewallTableUpdate c e m)) (fun h => by cases h.1)
  | iptablesTableUpdate =>
    refine iff_of_true ?_ (fun h => by cases h.1)
    exact (frame_iptablesTableUpdate c e m).imp_right fun sent => ⟨rfl, sent⟩

/-! A port unreachable error about a datagram from port 40000 to port 53. -/

def someError : Buffer :=
  -- Ethernet
  [2, 0, 0, 0, 0, 1, 2, 0, 0, 0, 0, 2, 8, 0,
  -- IP, protocol 1, from 10.0.0.2 to 10.0.0.1
   0x45, 0, 0, 56, 0, 0, 0, 0, 64, 1, 0x66, 0xc3, 10, 0, 0, 2, 10, 0, 0, 1,
  -- ICMP, type 3, code 3
   3, 3, 0x60, 0x7f, 0, 0, 0, 0,
  -- the quoted header, protocol 17, from 10.0.0.1 to 10.0.0.2
   0x45, 0, 0, 28, 0, 0, 0, 0, 64, 17, 0x66, 0xcf, 10, 0, 0, 1, 10, 0, 0, 2,
  -- the quoted ports, length and checksum
   0x9c, 0x40, 0, 53, 0, 8, 0, 0]

def someErrorMemory : Memory where
  frame := someError
  pkt := ⟨0x0200000a#32, 0x0100000a#32, 1#8, 0#16, 0#16, 0#8, 0#32, 0#32, .new, .notSet⟩
  connections := fun _ => none
  forwardingDecision := .forward
  pktsAccepted := fun _ => 0
  bytesAccepted := fun _ => 0

/-- Both services send the error on with the quoted destination port 40000. -/
theorem not_keepsTraffic_someError :
    ¬ ∀ (c : Compiled) (e : Surroundings) (m : Memory) (p : TrackingProgram),
      KeepsTraffic c e m p := by
  intro keeps
  have kept := keeps ⟨.automatic, .off, fun _ => .off, .ingress, false⟩
    ⟨0, 70, 2, fun _ => none⟩ someErrorMemory .iptablesLabel
  rcases kept with same | ⟨other, -⟩
  · have changed : (TrackingProgram.handleRx ⟨.automatic, .off, fun _ => .off, .ingress, false⟩
        ⟨0, 70, 2, fun _ => none⟩ someErrorMemory .iptablesLabel).2.frame ≠ someError := by
      decide +kernel
    exact changed same
  · cases other

end Polycube.Iptables
