import Polycube.Natting.Frames

/-!
# Checksums of translated frames

A translated frame has right checksums again if its header has no options, with two exceptions: a
UDP message without a checksum gets one, and an ICMP message may be left with nothing but zeros.
After options the checksum is not where it is looked for, and what is there instead is mended.
-/

namespace Polycube.Natting

open Lib Lib.Ipv4

/-- A packet with right checksums that is translated has its new address and port, right checksums
again and no other byte changed. -/
def KeepsChecksums (type : Nattype) (s : Datapath) (frame : Buffer) (r : Option Buffer) : Prop :=
  ∀ h key m, Carries frame h → tupleOf frame = some key → (s.lookups type key).1 = some m →
    ∃ frame', r = some frame' ∧ Rewritten frame h m frame' ∧ Carries frame' h

/-- The new address and port count as much as the old ones; ICMP does not count addresses. -/
def Balanced (h : L4Header) (key : StK) (m : Match) : Prop :=
  ((if h.pseudo then m.newIp.toNat else 0) + m.newPort.toNat) % 65535 =
    ((if h.pseudo then (m.oldIp key).toNat else 0) + (m.oldPort key).toNat) % 65535

/-- Nothing but zeros is left of an ICMP message that counts its identifier and `kept`. -/
def Silent (frame : Buffer) (h : L4Header) (key : StK) (m : Match) (kept : ℕ) : Prop :=
  h.pseudo = false ∧ m.newPort = 0 ∧ total (messageWords frame) = (m.oldPort key).toNat + kept

def heldWord (frame : Buffer) (h : L4Header) (m : Match) : BitVec 16 :=
  if csumOffset h = m.portOff frame h then m.newPort else frame.load16 (csumOffset h)

def Mends (frame : Buffer) (h : L4Header) (key : StK) (m : Match) : Prop :=
  if ihl frame = 5 then
    (Unchecked frame h → Balanced h key m ∨ ChecksumOk (checkedWords frame h)) ∧
      ¬ Silent frame h key m (frame.load16 (checkOff frame h)).toNat
  else Balanced h key m ∧ heldWord frame h m ≠ 0xFFFF ∧ ¬ Silent frame h key m 0

section Mended

variable (helpers : CsumHelpers) (h : L4Header) (key : StK) (m : Match)

theorem mendedBy_mod (w : BitVec 16) :
    ((mendedBy helpers h key m w).toNat + (if h.pseudo then m.newIp.toNat else 0) +
        m.newPort.toNat) % 65535 =
      (w.toNat + (if h.pseudo then (m.oldIp key).toNat else 0) + (m.oldPort key).toNat) % 65535 := by
  have ips : ((l3sum helpers key m).toNat + (m.oldIp key).toNat) % 65535 =
      m.newIp.toNat % 65535 := helpers.csumDiff_mod _ _
  have ports := helpers.csumDiff_mod ((m.oldPort key).setWidth 32) (m.newPort.setWidth 32)
  rw [show helpers.csumDiff ((m.oldPort key).setWidth 32) (m.newPort.setWidth 32) =
      l4sum helpers key m from rfl, BitVec.toNat_setWidth_of_le (by decide),
    BitVec.toNat_setWidth_of_le (by decide)] at ports
  have first := helpers.replaceByDiff_mod w (l3sum helpers key m)
  have second := helpers.replaceByDiff_mod
    (if h.pseudo then helpers.replaceByDiff w (l3sum helpers key m) else w) (l4sum helpers key m)
  unfold mendedBy
  split_ifs at second ⊢
  · omega
  · omega

theorem toNat_lt_of_ne {w : BitVec 16} (hw : w ≠ 0xFFFF) : w.toNat < 65535 := by bv_omega

/-- A word is mended to itself when the tuple counts the same and the word is not all ones. -/
theorem mendedBy_eq_self_iff (w : BitVec 16) :
    mendedBy helpers h key m w = w ↔ Balanced h key m ∧ w ≠ 0xFFFF := by
  have counted := mendedBy_mod helpers h key m w
  have ne : mendedBy helpers h key m w ≠ 0xFFFF := helpers.replaceByDiff_ne _ _
  unfold Balanced
  constructor
  · intro same
    rw [same] at counted ne
    exact ⟨by omega, ne⟩
  · rintro ⟨balanced, hw⟩
    have small := toNat_lt_of_ne hw
    have small' := toNat_lt_of_ne ne
    apply BitVec.eq_of_toNat_eq
    omega

end Mended

/-! ### Sums -/

section Sums

variable {frame : Buffer} {key : StK} {h : L4Header}

def stores (frame : Buffer) (h : L4Header) (m : Match) (check sum : BitVec 16) : Buffer :=
  ((storeTuple frame h m).store16 (checkOff frame h) check).store16 ipCsumOffset sum

variable (read : ReadAs frame key h) (long : 5 ≤ ihl frame) (m : Match) (check sum : BitVec 16)
include read long

theorem total_header : (total ((stores frame h m check sum).words ethLen (2 * ihl frame)) +
      (m.oldIp key).toNat + (frame.load16 ipCsumOffset).toNat) % 65535 =
    (total (headerWords frame) + m.newIp.toNat + sum.toNat) % 65535 := by
  have fits := read.fits
  have l4 := l4Off_le ⟨long, fits⟩
  have start : l4Off frame = 14 + 2 * (2 * ihl frame) := by
    unfold l4Off
    rw [← Nat.mul_assoc]
    rfl
  obtain ⟨k, port, -, -⟩ := m.portOff_eq frame h
  have check_eq : checkOff frame h = l4Off frame + 2 * h.check := rfl
  have eth : ethLen = 14 := rfl
  have sum_eq : ipCsumOffset = 24 := rfl
  obtain ⟨a, address, ha⟩ : ∃ a, m.addressOff = ethLen + 2 * a ∧ (a = 6 ∨ a = 8) := by
    rcases m.addressOff_cases with e | e
    · exact ⟨6, e, .inl rfl⟩
    · exact ⟨8, e, .inr rfl⟩
  let first := frame.store32 m.addressOff m.newIp
  let third := (storeTuple frame h m).store16 (checkOff frame h) check
  have addressed : (total (first.words ethLen (2 * ihl frame)) + (m.oldIp key).toNat) % 65535 =
      (total (headerWords frame) + m.newIp.toNat) % 65535 := by
    rw [read.oldIp]
    unfold first headerWords
    rw [address]
    exact total_words_store32 frame ethLen m.newIp (by omega) (by omega)
  have same : third.words ethLen (2 * ihl frame) = first.words ethLen (2 * ihl frame) := by
    unfold third storeTuple
    rw [words_store16_of_outside _ _ _ (.inr (by omega)),
      words_store16_of_outside _ _ _ (.inr (by omega))]
  have size : third.length = frame.length := by
    unfold third storeTuple
    simp only [Buffer.length_store16, Buffer.length_store32]
  have old : third.load16 ipCsumOffset = frame.load16 ipCsumOffset := by
    unfold third
    rw [Buffer.load16_store16_of_disjoint _ _ (by omega)]
    exact load16_storeTuple m (by omega) (by omega)
  have summed : total ((third.store16 ipCsumOffset sum).words ethLen (2 * ihl frame)) +
      (third.load16 ipCsumOffset).toNat =
        total (third.words ethLen (2 * ihl frame)) + sum.toNat :=
    total_words_store16 third ethLen (k := 5) sum (by omega) (by omega)
  rw [same, old] at summed
  have stored : stores frame h m check sum = third.store16 ipCsumOffset sum := rfl
  rw [stored]
  omega

theorem total_addresses : (total ((stores frame h m check sum).words (ethLen + 12) 4) +
      (m.oldIp key).toNat) % 65535 =
    (total (frame.words (ethLen + 12) 4) + m.newIp.toNat) % 65535 := by
  have fits := read.fits
  have l4 := l4Off_le ⟨long, fits⟩
  obtain ⟨k, port, -, -⟩ := m.portOff_eq frame h
  have check_eq : checkOff frame h = l4Off frame + 2 * h.check := rfl
  have eth : ethLen = 14 := rfl
  have sum_eq : ipCsumOffset = 24 := rfl
  obtain ⟨a, address, ha⟩ : ∃ a, m.addressOff = ethLen + 12 + 2 * a ∧ (a = 0 ∨ a = 2) := by
    rcases m.addressOff_cases with e | e
    · exact ⟨0, e, .inl rfl⟩
    · exact ⟨2, e, .inr rfl⟩
  unfold stores storeTuple
  rw [words_store16_of_outside _ _ _ (.inl (by omega)),
    words_store16_of_outside _ _ _ (.inr (by omega)),
    words_store16_of_outside _ _ _ (.inr (by omega)), read.oldIp, address]
  exact total_words_store32 frame (ethLen + 12) m.newIp (by omega) (by omega)

theorem total_words_message {n : ℕ} (whole : h.size ≤ 2 * n + 1) :
    total ((stores frame h m check sum).words (l4Off frame) n) + (m.oldPort key).toNat +
        (frame.load16 (checkOff frame h)).toNat =
      total (frame.words (l4Off frame) n) + m.newPort.toNat + check.toNat := by
  have fits := read.fits
  have l4 := l4Off_le ⟨long, fits⟩
  have checkFits := h.check_fits
  obtain ⟨k, port, portFits, apart⟩ := m.portOff_eq frame h
  have address := m.addressOff_cases
  have check_eq : checkOff frame h = l4Off frame + 2 * h.check := rfl
  have sum_eq : ipCsumOffset = 24 := rfl
  have size : (frame.store32 m.addressOff m.newIp).length = frame.length :=
    Buffer.length_store32 ..
  have before : (frame.store32 m.addressOff m.newIp).words (l4Off frame) n =
      frame.words (l4Off frame) n := words_store32_of_outside _ _ _ (.inl (by omega))
  have ported := total_words_store16 (frame.store32 m.addressOff m.newIp) (l4Off frame) (k := k)
    (n := n) m.newPort (by omega) (by omega)
  have checked := total_words_store16 (storeTuple frame h m) (l4Off frame) (k := h.check) (n := n)
    check (by omega) (by
      unfold storeTuple
      rw [Buffer.length_store16]
      omega)
  have oldCheck : (storeTuple frame h m).load16 (l4Off frame + 2 * h.check) =
      frame.load16 (checkOff frame h) := load16_storeTuple m (by omega) (by omega)
  have oldPort : (frame.store32 m.addressOff m.newIp).load16 (l4Off frame + 2 * k) =
      m.oldPort key := by
    rw [read.oldPort, port]
    apply Buffer.load16_congr
    intro i low high
    exact Buffer.byte_store32_of_outside _ _ _ _ (by omega)
  rw [oldCheck, ← check_eq] at checked
  rw [oldPort, before, ← port] at ported
  have stored : (stores frame h m check sum).words (l4Off frame) n =
      ((storeTuple frame h m).store16 (checkOff frame h) check).words (l4Off frame) n :=
    words_store16_of_outside _ _ _ (.inl (by omega))
  have tuple : storeTuple frame h m =
      (frame.store32 m.addressOff m.newIp).store16 (m.portOff frame h) m.newPort := rfl
  rw [stored]
  rw [tuple] at checked ⊢
  omega

theorem rewritten : Rewritten frame h m (stores frame h m check sum) :=
  rewritten_stores m ⟨long, read.fits⟩ check sum

theorem total_message (whole : h.size ≤ messageLen frame) :
    total (messageWords (stores frame h m check sum)) + (m.oldPort key).toNat +
        (frame.load16 (checkOff frame h)).toNat =
      total (messageWords frame) + m.newPort.toNat + check.toNat := by
  have reads : Reads frame h := ⟨long, read.fits⟩
  have r := rewritten read long m check sum
  have l4 := l4Off_le reads
  have checkFits := h.check_fits
  obtain ⟨k, port, portFits, -⟩ := m.portOff_eq frame h
  have address := m.addressOff_cases
  have check_eq : checkOff frame h = l4Off frame + 2 * h.check := rfl
  have sum_eq : ipCsumOffset = 24 := rfl
  have words := total_words_message read long m check sum (n := messageLen frame / 2) (by omega)
  unfold messageWords
  rw [r.l4Off reads, r.messageLen reads read.protocol]
  split_ifs with odd
  · rw [r.rest (l4Off frame + (messageLen frame - 1)) (by omega) (by omega) (by omega)
      (by omega), total_append, total_append]
    omega
  · rw [List.append_nil, List.append_nil]
    exact words

/-- The old port and checksum are part of the message: zeros can be stored instead. -/
theorem oldWords_le (whole : h.size ≤ messageLen frame) :
    (m.oldPort key).toNat + (frame.load16 (checkOff frame h)).toNat ≤
      total (messageWords frame) := by
  have zeros := total_message read long { m with newPort := 0 } 0 0 whole
  have old : ({ m with newPort := 0 } : Match).oldPort key = m.oldPort key := rfl
  have zero : BitVec.toNat (0 : BitVec 16) = 0 := rfl
  rw [old] at zeros
  dsimp only at zeros
  omega

theorem total_checked (whole : h.size ≤ messageLen frame) :
    (total (checkedWords (stores frame h m check sum) h) +
        (if h.pseudo then (m.oldIp key).toNat else 0) + (m.oldPort key).toNat +
        (frame.load16 (checkOff frame h)).toNat) % 65535 =
      (total (checkedWords frame h) + (if h.pseudo then m.newIp.toNat else 0) +
        m.newPort.toNat + check.toNat) % 65535 := by
  have reads : Reads frame h := ⟨long, read.fits⟩
  have r := rewritten read long m check sum
  have message := total_message read long m check sum whole
  have addresses := total_addresses read long m check sum
  unfold checkedWords
  split_ifs
  · unfold pseudoWords protocolWord
    rw [r.protocol reads, r.messageLen reads read.protocol]
    simp only [total_append]
    omega
  · rw [List.nil_append, List.nil_append]
    omega

theorem load16_check : (stores frame h m check sum).load16 (checkOff frame h) = check := by
  have l4 := l4Off_le ⟨long, read.fits⟩
  have fits := read.fits
  have checkFits := h.check_fits
  have check_eq : checkOff frame h = l4Off frame + 2 * h.check := rfl
  have sum_eq : ipCsumOffset = 24 := rfl
  unfold stores storeTuple
  rw [Buffer.load16_store16_of_disjoint _ _ (by omega), Buffer.load16_store16 _ _ _ (by
    rw [Buffer.length_store16, Buffer.length_store32]
    omega)]

theorem unchecked_stores_iff : Unchecked (stores frame h m check sum) h ↔
    protocol frame = ipprotoUdp ∧ check = 0 := by
  have reads : Reads frame h := ⟨long, read.fits⟩
  have r := rewritten read long m check sum
  have off : checkOff (stores frame h m check sum) h = checkOff frame h := by
    unfold checkOff
    rw [r.l4Off reads]
  unfold Unchecked
  rw [r.protocol reads, off, load16_check read long]

/-- All that is left to show of a frame whose header checksum is mended is its message. -/
theorem carries_stores_iff (carries : Carries frame h)
    (header : (sum.toNat + m.newIp.toNat) % 65535 =
      ((frame.load16 ipCsumOffset).toNat + (m.oldIp key).toNat) % 65535) :
    Carries (stores frame h m check sum) h ↔ MessageOk (stores frame h m check sum) h := by
  refine ⟨Carries.message, fun message => ?_⟩
  have reads : Reads frame h := ⟨long, read.fits⟩
  have r := rewritten read long m check sum
  have eth : ethLen = 14 := rfl
  have totalLen : totalLength (stores frame h m check sum) = totalLength frame := by
    unfold totalLength
    rw [Buffer.load16_congr fun i low high => r.ahead reads (by omega)]
  have version : (stores frame h m check sum).byte ethLen >>> 4 = 4#8 := by
    rw [r.ahead reads (by decide)]
    exact carries.header.version
  have len := r.messageLen reads read.protocol
  have hlen := r.ihl reads
  refine ⟨⟨version, ?_, ?_, ?_⟩, ?_, ?_, ?_, ?_, ?_, message⟩
  · rw [hlen]
    exact long
  · rw [hlen, r.length]
    exact carries.header.whole
  · obtain ⟨right, -⟩ := (checksumOk_iff _).1 carries.header.checksum
    have counted := total_header read long m check sum
    obtain ⟨n, hn⟩ : ∃ n, 2 * ihl frame = n + 1 := ⟨2 * ihl frame - 1, by omega⟩
    unfold headerWords
    rw [checksumOk_iff, hlen]
    refine ⟨by omega, ?_⟩
    rw [hn]
    exact total_ne_zero version
  · rw [← carries.isIp]
    exact Buffer.load16_congr fun i low high => r.ahead reads (by omega)
  · rw [r.protocol reads]
    exact read.protocol
  · rw [len]
    exact carries.size
  · rw [hlen, len, totalLen]
    exact carries.length
  · rw [totalLen, r.length]
    exact carries.whole

/-- A message that counts what it did is right, unless nothing but zeros is left of it. -/
theorem messageOk_stores_iff (carries : Carries frame h)
    (same : (check.toNat + (if h.pseudo then m.newIp.toNat else 0) + m.newPort.toNat) % 65535 =
      ((frame.load16 (checkOff frame h)).toNat + (if h.pseudo then (m.oldIp key).toNat else 0) +
        (m.oldPort key).toNat) % 65535) :
    MessageOk (stores frame h m check sum) h ↔ (protocol frame = ipprotoUdp ∧ check = 0) ∨
      (ChecksumOk (checkedWords frame h) ∧ ¬ (h.pseudo = false ∧ m.newPort = 0 ∧ check = 0 ∧
        total (messageWords frame) =
          (m.oldPort key).toNat + (frame.load16 (checkOff frame h)).toNat)) := by
  have counted := total_checked read long m check sum carries.size
  have message := total_message read long m check sum carries.size
  have least := oldWords_le read long m carries.size
  have r := rewritten read long m check sum
  have pseudo := total_pseudoWords_ne_zero read.protocol
  have pseudo' : total (pseudoWords (stores frame h m check sum)) ≠ 0 := by
    apply total_pseudoWords_ne_zero (h := h)
    rw [r.protocol ⟨long, read.fits⟩]
    exact read.protocol
  have zero : ∀ w : BitVec 16, w = 0 ↔ w.toNat = 0 := fun w => by bv_omega
  have some : h.pseudo = false → total (messageWords frame) ≠ 0 := by
    intro icmp
    rcases carries.message with unchecked | right
    · have udp := read.protocol
      rw [unchecked.1] at udp
      cases udp
      cases icmp
    · have counts := ((checksumOk_iff _).1 right).2
      unfold checkedWords at counts
      rwa [if_neg (by rw [icmp]; decide), List.nil_append] at counts
  unfold MessageOk
  rw [unchecked_stores_iff read long, checksumOk_iff, checksumOk_iff, zero m.newPort, zero check]
  refine or_congr Iff.rfl ?_
  unfold checkedWords at counted ⊢
  cases hp : h.pseudo with
  | true =>
    simp only [hp, if_true, total_append] at counted same ⊢
    simp only [reduceCtorEq, false_and, not_false_eq_true, and_true]
    omega
  | false =>
    have counts := some hp
    simp only [hp, if_false, List.nil_append, Bool.false_eq_true] at counted same ⊢
    simp only [true_and]
    omega

end Sums

/-! ### Both kinds of headers -/

section Modify

variable {frame : Buffer} {key : StK} {h : L4Header} (helpers : CsumHelpers)
  (read : ReadAs frame key h) (m : Match) (carries : Carries frame h)

def headerSum (helpers : CsumHelpers) (frame : Buffer) (key : StK) (m : Match) : BitVec 16 :=
  helpers.replaceByDiff (frame.load16 ipCsumOffset) (l3sum helpers key m)

theorem headerSum_mod (frame : Buffer) (key : StK) :
    ((headerSum helpers frame key m).toNat + m.newIp.toNat) % 65535 =
    ((frame.load16 ipCsumOffset).toNat + (m.oldIp key).toNat) % 65535 := by
  have ips : ((l3sum helpers key m).toNat + (m.oldIp key).toNat) % 65535 =
      m.newIp.toNat % 65535 := helpers.csumDiff_mod _ _
  have mended := helpers.replaceByDiff_mod (frame.load16 ipCsumOffset) (l3sum helpers key m)
  unfold headerSum
  omega

include read

theorem inside_check (long : 5 ≤ ihl frame) :
    34 ≤ l4Off frame ∧ checkOff frame h + 2 ≤ frame.length ∧
      csumOffset h + 2 ≤ frame.length := by
  have l4 := l4Off_le ⟨long, read.fits⟩
  have fits := read.fits
  have checkFits := h.check_fits
  have check : checkOff frame h = l4Off frame + 2 * h.check := rfl
  have offset : csumOffset h = 34 + 2 * h.check := rfl
  omega

theorem load16_checkOff (long : 5 ≤ ihl frame) :
    (storeTuple frame h m).load16 (checkOff frame h) = frame.load16 (checkOff frame h) := by
  obtain ⟨l4, -, -⟩ := inside_check read long
  have address := m.addressOff_cases
  have check : checkOff frame h = l4Off frame + 2 * h.check := rfl
  obtain ⟨k, port, -, apart⟩ := m.portOff_eq frame h
  exact load16_storeTuple m (by omega) (by omega)

theorem load16_csumOffset (long : 5 ≤ ihl frame) :
    (storeTuple frame h m).load16 (csumOffset h) = heldWord frame h m := by
  obtain ⟨l4, -, inside⟩ := inside_check read long
  have address := m.addressOff_cases
  have offset : csumOffset h = 34 + 2 * h.check := rfl
  have start : l4Off frame = 14 + 4 * ihl frame := rfl
  obtain ⟨k, port, -, -⟩ := m.portOff_eq frame h
  unfold heldWord
  split_ifs with same
  · unfold storeTuple
    rw [same, Buffer.load16_store16 _ _ _ (by
      rw [Buffer.length_store32]
      omega)]
  · exact load16_storeTuple m (by omega) (by omega)

theorem modify_plain (plain : ihl frame = 5) : Natting.modify helpers frame key m =
    stores frame h m (mendedBy helpers h key m (frame.load16 (checkOff frame h)))
      (headerSum helpers frame key m) := by
  have offset : csumOffset h = checkOff frame h := by
    unfold checkOff l4Off
    rw [plain]
    rfl
  rw [modify_eq helpers read plain.ge, offset, load16_checkOff read m plain.ge]
  rfl

theorem modify_held (long : 5 ≤ ihl frame)
    (held : mendedBy helpers h key m (heldWord frame h m) = heldWord frame h m) :
    Natting.modify helpers frame key m =
      stores frame h m (frame.load16 (checkOff frame h)) (headerSum helpers frame key m) := by
  obtain ⟨-, insideCheck, inside⟩ := inside_check read long
  have size : (storeTuple frame h m).length = frame.length := by
    unfold storeTuple
    rw [Buffer.length_store16, Buffer.length_store32]
  have word := load16_csumOffset read m long
  have there : (storeTuple frame h m).store16 (csumOffset h) (heldWord frame h m) =
      storeTuple frame h m := (Buffer.store16_eq_iff _ _ _ (by omega)).2 word
  have check : (storeTuple frame h m).store16 (checkOff frame h)
      (frame.load16 (checkOff frame h)) = storeTuple frame h m :=
    (Buffer.store16_eq_iff _ _ _ (by omega)).2 (load16_checkOff read m long)
  rw [modify_eq helpers read long, word, held, there]
  unfold stores
  rw [check]
  rfl

/-- After options the word at the offset of the checksum is none that may change. -/
theorem held_of_rewritten (options : 5 < ihl frame)
    (r : Rewritten frame h m (Natting.modify helpers frame key m)) :
    mendedBy helpers h key m (heldWord frame h m) = heldWord frame h m := by
  have long := options.le
  obtain ⟨l4, -, inside⟩ := inside_check read long
  have address := m.addressOff_cases
  have offset : csumOffset h = 34 + 2 * h.check := rfl
  have sum_eq : ipCsumOffset = 24 := rfl
  have start : l4Off frame = 14 + 4 * ihl frame := rfl
  have check : checkOff frame h = l4Off frame + 2 * h.check := rfl
  obtain ⟨k, port, -, -⟩ := m.portOff_eq frame h
  have stored : (Natting.modify helpers frame key m).load16 (csumOffset h) =
      mendedBy helpers h key m (heldWord frame h m) := by
    rw [modify_eq helpers read long, load16_csumOffset read m long,
      Buffer.load16_store16_of_disjoint _ _ (by omega), Buffer.load16_store16 _ _ _ (by
        unfold storeTuple
        rw [Buffer.length_store16, Buffer.length_store32]
        omega)]
  rw [← stored]
  by_cases same : csumOffset h = m.portOff frame h
  · unfold heldWord
    rw [if_pos same, same]
    exact r.port
  · unfold heldWord
    rw [if_neg same]
    apply Buffer.load16_congr
    intro i low high
    exact r.rest i (by omega) (by omega) (by omega) (by omega)

include carries

theorem checksumOk_of_icmp (icmp : h.pseudo = false) :
    protocol frame ≠ ipprotoUdp ∧ ChecksumOk (checkedWords frame h) ∧
      total (messageWords frame) % 65535 = 0 := by
  have checked : protocol frame ≠ ipprotoUdp := by
    intro udp
    have header := read.protocol
    rw [udp] at header
    cases header
    cases icmp
  have right := carries.message.resolve_left fun unchecked => checked unchecked.1
  have counts := ((checksumOk_iff _).1 right).1
  unfold checkedWords at counts
  rw [if_neg (by rw [icmp]; decide), List.nil_append] at counts
  exact ⟨checked, right, counts⟩

theorem mends_plain_iff (plain : ihl frame = 5) :
    (Rewritten frame h m (Natting.modify helpers frame key m) ∧
      Carries (Natting.modify helpers frame key m) h) ↔ Mends frame h key m := by
  have long := plain.ge
  have counted := mendedBy_mod helpers h key m (frame.load16 (checkOff frame h))
  have header := headerSum_mod helpers m frame key
  have self := mendedBy_eq_self_iff helpers h key m
  have ne : mendedBy helpers h key m (frame.load16 (checkOff frame h)) ≠ 0xFFFF :=
    helpers.replaceByDiff_ne _ _
  rw [modify_plain helpers read m plain, carries_stores_iff read long m _ _ carries header,
    messageOk_stores_iff read long m _ _ carries counted,
    and_iff_right (rewritten read long m _ _)]
  unfold Mends Silent
  rw [if_pos plain]
  cases hp : h.pseudo with
  | true =>
    simp only [reduceCtorEq, false_and, not_false_eq_true, and_true]
    by_cases unchecked : Unchecked frame h
    · rw [unchecked.2, self, and_iff_left (by decide : (0 : BitVec 16) ≠ 0xFFFF),
        and_iff_right unchecked.1, forall_prop_of_true unchecked]
    · have right := carries.message.resolve_left unchecked
      exact iff_of_true (.inr right) fun u => absurd u unchecked
  | false =>
    obtain ⟨noUdp, right, mod⟩ := checksumOk_of_icmp read carries hp
    have small := toNat_lt_of_ne ne
    have zero : BitVec.toNat (0 : BitVec 16) = 0 := rfl
    have zeros : m.newPort = 0 → total (messageWords frame) =
        (m.oldPort key).toNat + (frame.load16 (checkOff frame h)).toNat →
          mendedBy helpers h key m (frame.load16 (checkOff frame h)) = 0 := by
      intro port all
      rw [port, hp, zero] at counted
      simp only [Bool.false_eq_true, if_false] at counted
      apply BitVec.eq_of_toNat_eq
      rw [zero]
      omega
    rw [and_iff_right fun u => absurd u.1 noUdp]
    constructor
    · rintro (⟨udp, -⟩ | ⟨-, loud⟩) ⟨-, port, all⟩
      · exact noUdp udp
      · exact loud ⟨rfl, port, zeros port all, all⟩
    · intro loud
      exact .inr ⟨right, fun ⟨_, port, _, all⟩ => loud ⟨rfl, port, all⟩⟩

theorem mends_options_iff (options : 5 < ihl frame) :
    (Rewritten frame h m (Natting.modify helpers frame key m) ∧
      Carries (Natting.modify helpers frame key m) h) ↔ Mends frame h key m := by
  have long := options.le
  have least := oldWords_le read long m carries.size
  have header := headerSum_mod helpers m frame key
  have self := mendedBy_eq_self_iff helpers h key m (heldWord frame h m)
  have carried : mendedBy helpers h key m (heldWord frame h m) = heldWord frame h m →
      (Carries (Natting.modify helpers frame key m) h ↔ ¬ Silent frame h key m 0) := by
    intro held
    have balanced := (self.1 held).1
    unfold Balanced at balanced
    rw [modify_held helpers read m long held, carries_stores_iff read long m _ _ carries header,
      messageOk_stores_iff read long m _ _ carries (by omega)]
    constructor
    · rintro (⟨udp, -⟩ | ⟨-, loud⟩) ⟨icmp, port, all⟩
      · exact (checksumOk_of_icmp read carries icmp).1 udp
      · have nothing : frame.load16 (checkOff frame h) = 0 := by
          apply BitVec.eq_of_toNat_eq
          show _ = 0
          omega
        refine loud ⟨icmp, port, nothing, ?_⟩
        rw [nothing]
        exact all
    · intro loud
      rcases carries.message with unchecked | right
      · exact .inl unchecked
      · refine .inr ⟨right, ?_⟩
        rintro ⟨icmp, port, nothing, all⟩
        rw [nothing] at all
        exact loud ⟨icmp, port, all⟩
  unfold Mends
  rw [if_neg options.ne']
  constructor
  · rintro ⟨r, carries'⟩
    have held := held_of_rewritten helpers read m options r
    obtain ⟨balanced, ne⟩ := self.1 held
    exact ⟨balanced, ne, (carried held).1 carries'⟩
  · rintro ⟨balanced, ne, loud⟩
    have held := self.2 ⟨balanced, ne⟩
    refine ⟨?_, (carried held).2 loud⟩
    rw [modify_held helpers read m long held]
    exact rewritten read long m _ _

end Modify

/-- A translated frame has right checksums again if and only if, when it has no options, it is no
UDP message without a checksum whose tuple counts otherwise and something is left of an ICMP
message, and when it has some, its tuple counts what it did and the word that is taken for the
checksum is not all ones. -/
theorem keepsChecksums_iff (helpers : CsumHelpers) (type : Nattype) (s : Datapath)
    (frame : Buffer) :
    KeepsChecksums type s frame (handleFrame helpers type s frame).1 ↔
      ∀ h key m, Carries frame h → tupleOf frame = some key → (s.lookups type key).1 = some m →
        Mends frame h key m := by
  unfold KeepsChecksums
  refine forall₃_congr fun h key m => forall₃_congr fun carries tuple found => ?_
  obtain ⟨p, hp, htuple⟩ := parse_of_tupleOf tuple
  obtain ⟨h', read⟩ := readAs_of_tuple hp htuple
  obtain rfl : h' = h := Option.some.inj (read.protocol.symm.trans carries.protocol)
  have sent := handleFrame_found helpers tuple found
  have mends : (Rewritten frame h' m (Natting.modify helpers frame key m) ∧
      Carries (Natting.modify helpers frame key m) h') ↔ Mends frame h' key m := by
    rcases carries.header.length.eq_or_lt with plain | options
    · exact mends_plain_iff helpers read m carries plain.symm
    · exact mends_options_iff helpers read m carries options
  rw [← mends]
  constructor
  · rintro ⟨frame', e, r, carries'⟩
    obtain rfl := Option.some.inj (sent.symm.trans e)
    exact ⟨r, carries'⟩
  · rintro ⟨r, carries'⟩
    exact ⟨_, sent, r, carries'⟩

def optionsFrame : Buffer :=
  [0x02, 0x00, 0x00, 0x00, 0x00, 0x01, 0x02, 0x00, 0x00, 0x00, 0x00, 0x02, 0x08, 0x00,
    0x46, 0x00, 0x00, 0x20, 0x00, 0x00, 0x00, 0x00, 0x40, 0x11, 0x62, 0xC9,
    0x0A, 0x00, 0x00, 0x02, 0x0A, 0x00, 0x01, 0x02, 0x01, 0x01, 0x01, 0x00,
    0x13, 0x88, 0x00, 0x35, 0x00, 0x08, 0xD7, 0x1D]

def optionsKey : StK := ⟨0x0200000A, 0x0201000A, 0x8813, 0x3500, ipprotoUdp⟩

def optionsMatch : Match := ⟨0x0100A8C0, 0x0004, .snat, false⟩

def oneSession : Datapath where
  egressSessionTable := fun key =>
    if key = optionsKey then some ⟨0x0100A8C0, 0x0004, .snat⟩ else none
  ingressSessionTable := fun _ => none
  smRules := fun _ => none
  dpRules := fun _ => none
  firstFreePort := 1025

/-- The destination port stands where the checksum is looked for. -/
theorem not_keepsChecksums_options : ¬ KeepsChecksums .egress oneSession optionsFrame
    (handleFrame pcnHelpers .egress oneSession optionsFrame).1 := by
  intro keeps
  have carries : Carries optionsFrame udphdr :=
    ⟨⟨by decide, by decide, by decide, by decide⟩, by decide, rfl, by decide, by decide,
      by decide, by decide⟩
  have tuple : tupleOf optionsFrame = some optionsKey := by decide
  have found : (oneSession.lookups .egress optionsKey).1 = some optionsMatch := rfl
  obtain ⟨p, hp, htuple⟩ := parse_of_tupleOf tuple
  obtain ⟨h, read⟩ := readAs_of_tuple hp htuple
  obtain rfl : h = udphdr := Option.some.inj (read.protocol.symm.trans carries.protocol)
  obtain ⟨frame', sent, rewritten, -⟩ := keeps _ _ _ carries tuple found
  obtain rfl := Option.some.inj ((handleFrame_found pcnHelpers tuple found).symm.trans sent)
  have held := held_of_rewritten pcnHelpers read optionsMatch (by decide) rewritten
  exact absurd ((mendedBy_eq_self_iff _ _ _ _ _).1 held).1 (by unfold Balanced; decide)

end Polycube.Natting
