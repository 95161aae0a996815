import Polycube.Lib.Checksum

/-!
# VLAN tags of frames in XDP

The helpers that the framework gives to XDP programs move the Ethernet header over the start of a
frame, which is four bytes further to the front or back.  `pcn_get_vlan_id` tests the protocol in
another way than its siblings.
-/

namespace Polycube.Polycubed.Vlan

open Lib

/-- `htons` -/
def htons (x : BitVec 16) : BitVec 16 := bswap16 x

def ethP8021Q : BitVec 16 := 0x8100

def ethP8021AD : BitVec 16 := 0x88A8

/-- `memmove` of bytes that are in the buffer. -/
def memmove (b : Buffer) (off : ℕ) (src : Buffer) : Buffer :=
  b.take off ++ src ++ b.drop (off + src.length)

def hProto (frame : Buffer) : BitVec 16 := frame.load16 12

/-- `pcn_is_vlan_present` -/
def isVlanPresent (frame : Buffer) : Bool :=
  if frame.length < 14 then false
  else hProto frame = htons ethP8021Q || hProto frame = htons ethP8021AD

/-- `pcn_get_vlan_id` -/
def getVlanId (frame : Buffer) : ℤ :=
  if frame.length < 14 then -1
  else if hProto frame ≠ htons ethP8021Q ∧ hProto frame = htons ethP8021AD then -1
  else if frame.length < 18 then -1
  else (bswap16 (frame.load16 14) &&& 0x0FFF).toNat

/-- `pcn_vlan_pop_tag`: the frame and what is returned.  The kernel takes four bytes from the front of
a frame that keeps 14. -/
def popTag (frame : Buffer) : Buffer × ℤ :=
  if frame.length < 14 then (frame, -1)
  else if hProto frame = htons ethP8021Q ∨ hProto frame = htons ethP8021AD then
    if frame.length < 18 then (frame, 1)
    else
      let vlanProto := frame.load16 16
      let moved : Buffer := memmove frame 4 (frame.take 14)
      (Buffer.store16 (moved.drop 4) 12 vlanProto, 0)
  else (frame, 0)

abbrev Headroom := Option (BitVec 8 × BitVec 8 × BitVec 8 × BitVec 8)

def vlanProto (ethProto : BitVec 16) : BitVec 16 :=
  if htons ethProto ≠ htons ethP8021Q ∧ htons ethProto ≠ htons ethP8021AD then htons ethP8021Q
  else htons ethProto

/-- `pcn_vlan_push_tag` -/
def pushTag (headroom : Headroom) (frame : Buffer) (ethProto : BitVec 16) (vlanId : BitVec 32) :
    Buffer × ℤ :=
  let oldEthProto := hProto frame
  if frame.length < 14 then (frame, -1)
  else
    match headroom with
    | none => (frame, -1)
    | some (x, y, z, w) =>
      let frame : Buffer := x :: y :: z :: w :: frame
      -- the two headers and the tag are looked for behind one another
      if frame.length < 14 ∨ frame.length < 18 ∨ frame.length < 32 then (frame, -1)
      else
        let frame := memmove frame 0 ((frame.drop 4).take 14)
        let frame := frame.store16 12 (vlanProto ethProto)
        let frame := frame.store16 14 (htons (vlanId.setWidth 16))
        (frame.store16 16 oldEthProto, 0)

def Tagged (frame : Buffer) : Prop := hProto frame = 0x0081 ∨ hProto frame = 0xA888

instance : DecidablePred Tagged := fun _ => inferInstanceAs (Decidable (_ ∨ _))

structure Frame where
  bytes : Buffer
  header : 14 ≤ bytes.length
  tag : Tagged bytes → 18 ≤ bytes.length

def tagId (frame : Buffer) : ℕ := (frame.byte 14).toNat % 16 * 256 + (frame.byte 15).toNat

def ReturnsTo (headroom : BitVec 8 × BitVec 8 × BitVec 8 × BitVec 8) (frame : Frame)
    (ethProto : BitVec 16) (vlanId : BitVec 12) : Prop :=
  ∃ pushed, pushTag (some headroom) frame.bytes ethProto (vlanId.setWidth 32) = (pushed, 0) ∧
    Tagged pushed ∧ tagId pushed = vlanId.toNat ∧ popTag pushed = (frame.bytes, 0)

def ReadsId (frame : Frame) : Prop :=
  (Tagged frame.bytes → getVlanId frame.bytes = tagId frame.bytes) ∧
    (¬Tagged frame.bytes → getVlanId frame.bytes < 0)

/-! ### When it holds -/

theorem bytes_append (q p : BitVec 8) :
    (q ++ p).extractLsb' 0 8 = p ∧ (q ++ p).extractLsb' 8 8 = q := by
  have hp := p.isLt
  have hq := q.isLt
  constructor <;> apply BitVec.eq_of_toNat_eq <;>
    simp only [BitVec.extractLsb'_toNat, toNat_append_eq, Nat.shiftRight_eq_div_pow] <;> omega

theorem toNat_tagId (frame : Buffer) :
    (bswap16 (frame.load16 14) &&& 0x0FFF).toNat = tagId frame := by
  have first := (frame.byte 14).isLt
  have second := (frame.byte 15).isLt
  obtain ⟨low, high⟩ := bytes_append (frame.byte 15) (frame.byte 14)
  unfold bswap16 Buffer.load16 tagId
  rw [low, high, BitVec.toNat_and, toNat_append_eq]
  refine (Nat.and_two_pow_sub_one_eq_mod _ 12).trans ?_
  omega

theorem vlanProto_cases (ethProto : BitVec 16) :
    vlanProto ethProto = 0x0081 ∨ vlanProto ethProto = 0xA888 := by
  unfold vlanProto
  split_ifs with other
  · exact .inl (by decide)
  · rcases not_and_or.1 other with h | h
    · exact .inl (not_not.1 h)
    · exact .inr (not_not.1 h)

theorem exists_header {b : Buffer} (h : 14 ≤ b.length) :
    ∃ d e f p q rest, d.length = 10 ∧ b = d ++ e :: f :: p :: q :: rest := by
  refine ⟨b.take 10, b[10], b[11], b[12], b[13], b.drop 14, by simp; omega, ?_⟩
  rw [← List.drop_eq_getElem_cons, ← List.drop_eq_getElem_cons, ← List.drop_eq_getElem_cons,
    ← List.drop_eq_getElem_cons, List.take_append_drop]

section

variable {d l rest : Buffer} {e f p q v₀ v₁ t₀ t₁ : BitVec 8} {k : ℕ} (length : d.length = 10)
include length

theorem byte_append : Buffer.byte (d ++ l) (10 + k) = l.byte k := by
  simp [Buffer.byte, ← length, List.getElem?_append_right]

theorem load16_append : Buffer.load16 (d ++ l) (10 + k) = l.load16 k := by
  unfold Buffer.load16
  rw [byte_append length, add_assoc, byte_append length]

theorem store16_append (v : BitVec 16) :
    Buffer.store16 (d ++ l) (10 + k) v = d ++ l.store16 k v := by
  simp [Buffer.store16, ← length, add_assoc]

theorem hProto_eq : hProto (d ++ e :: f :: p :: q :: rest) = q ++ p :=
  load16_append (k := 2) length

theorem take_header : (d ++ e :: f :: p :: q :: rest).take 14 = d ++ [e, f, p, q] := by
  simp [List.take_append, length]

theorem pushTag_eq (x y z w : BitVec 8) (ethProto : BitVec 16) (vlanId : BitVec 32) :
    pushTag (some (x, y, z, w)) (d ++ e :: f :: p :: q :: rest) ethProto vlanId =
      if rest.length < 14 then (x :: y :: z :: w :: (d ++ e :: f :: p :: q :: rest), -1)
      else
        let proto := vlanProto ethProto
        let tci := htons (vlanId.setWidth 16)
        (d ++ e :: f :: proto.extractLsb' 0 8 :: proto.extractLsb' 8 8 :: tci.extractLsb' 0 8 ::
          tci.extractLsb' 8 8 :: p :: q :: rest, 0) := by
  have size : (d ++ e :: f :: p :: q :: rest).length = 14 + rest.length := by
    simp [length]
    omega
  have moved : memmove (x :: y :: z :: w :: (d ++ e :: f :: p :: q :: rest)) 0
      (d ++ [e, f, p, q]) = d ++ e :: f :: p :: q :: e :: f :: p :: q :: rest := by
    simp [memmove, length]
  obtain ⟨low, high⟩ := bytes_append q p
  unfold pushTag
  simp only [List.length_cons, size, List.drop_succ_cons, List.drop_zero, take_header length, moved,
    hProto_eq length]
  rw [if_neg (by omega)]
  refine if_congr (by omega) rfl ?_
  rw [store16_append (k := 2) length, store16_append (k := 4) length,
    store16_append (k := 6) length]
  simp only [Buffer.store16, List.set_cons_zero, List.set_cons_succ, low, high]

theorem popTag_eq (tagged : Tagged (d ++ e :: f :: v₀ :: v₁ :: t₀ :: t₁ :: p :: q :: rest)) :
    popTag (d ++ e :: f :: v₀ :: v₁ :: t₀ :: t₁ :: p :: q :: rest) =
      (d ++ e :: f :: p :: q :: rest, 0) := by
  have moved : (memmove (d ++ e :: f :: v₀ :: v₁ :: t₀ :: t₁ :: p :: q :: rest) 4
      (d ++ [e, f, v₀, v₁])).drop 4 = d ++ e :: f :: v₀ :: v₁ :: rest := by
    simp [memmove, length, List.drop_append, List.take_append]
  unfold popTag
  rw [if_neg (by simp [length]; omega), if_pos, if_neg (by simp [length]; omega)]
  · dsimp only
    rw [take_header length, moved, load16_append (k := 6) length, store16_append (k := 2) length]
    obtain ⟨low, high⟩ := bytes_append q p
    simp [Buffer.store16, Buffer.load16, Buffer.byte, low, high]
  · exact tagged

theorem tagged_vlanProto (ethProto : BitVec 16) :
    Tagged (d ++ e :: f :: (vlanProto ethProto).extractLsb' 0 8 ::
      (vlanProto ethProto).extractLsb' 8 8 :: rest) := by
  unfold Tagged
  rw [hProto_eq length, Buffer.append_extractLsb']
  exact vlanProto_cases ethProto

theorem tagId_htons (vlanId : BitVec 12) :
    tagId (d ++ e :: f :: p :: q ::
      (htons ((vlanId.setWidth 32).setWidth 16)).extractLsb' 0 8 ::
      (htons ((vlanId.setWidth 32).setWidth 16)).extractLsb' 8 8 :: rest) = vlanId.toNat := by
  have bound := vlanId.isLt
  have number : ((vlanId.setWidth 32).setWidth 16).toNat = vlanId.toNat := by
    rw [BitVec.toNat_setWidth, BitVec.toNat_setWidth]
    omega
  generalize (vlanId.setWidth 32).setWidth 16 = tci at number ⊢
  unfold tagId htons bswap16
  obtain ⟨low, high⟩ := bytes_append (tci.extractLsb' 0 8) (tci.extractLsb' 8 8)
  rw [byte_append (k := 4) length, byte_append (k := 5) length, low, high]
  show (tci.extractLsb' 8 8).toNat % 16 * 256 + (tci.extractLsb' 0 8).toNat = _
  rw [BitVec.extractLsb'_toNat, BitVec.extractLsb'_toNat, Nat.shiftRight_eq_div_pow,
    Nat.shiftRight_eq_div_pow]
  omega

end

/-- The second header that is looked for behind the tag is not there in frames shorter than 28. -/
theorem returnsTo_iff {headroom : BitVec 8 × BitVec 8 × BitVec 8 × BitVec 8} {frame : Frame}
    {ethProto : BitVec 16} {vlanId : BitVec 12} :
    ReturnsTo headroom frame ethProto vlanId ↔ 28 ≤ frame.bytes.length := by
  obtain ⟨x, y, z, w⟩ := headroom
  obtain ⟨bytes, header, tag⟩ := frame
  obtain ⟨d, e, f, p, q, rest, length, rfl⟩ := exists_header header
  have size : (d ++ e :: f :: p :: q :: rest).length = 14 + rest.length := by
    simp [length]
    omega
  unfold ReturnsTo
  rw [pushTag_eq length, size]
  split_ifs with short
  · refine iff_of_false ?_ (by omega)
    rintro ⟨pushed, failed, -⟩
    cases failed
  · refine iff_of_true ⟨_, rfl, ?_, ?_, popTag_eq length ?_⟩ (by omega)
    · exact tagged_vlanProto length ethProto
    · exact tagId_htons length vlanId
    · exact tagged_vlanProto length ethProto

theorem isVlanPresent_iff {frame : Frame} : isVlanPresent frame.bytes = true ↔ Tagged frame.bytes := by
  unfold isVlanPresent
  rw [if_neg (not_lt.2 frame.header), Bool.or_eq_true, decide_eq_true_iff, decide_eq_true_iff]
  rfl

theorem readsId_iff {frame : Frame} : ReadsId frame ↔
    hProto frame.bytes = 0x0081 ∨ (¬Tagged frame.bytes ∧ frame.bytes.length < 18) := by
  have header := frame.header
  have tag := frame.tag
  unfold ReadsId getVlanId
  rw [if_neg (not_lt.2 header), toNat_tagId]
  unfold Tagged at *
  by_cases q : hProto frame.bytes = 0x0081
  · have long := tag (.inl q)
    rw [q, if_neg (by decide), if_neg (by omega)]
    simp
  by_cases ad : hProto frame.bytes = 0xA888
  · have long := tag (.inr ad)
    rw [ad, if_pos (by decide)]
    simp
  · have untagged := not_or.2 ⟨q, ad⟩
    rw [if_neg fun h => ad h.2]
    split_ifs with short
    · exact iff_of_true ⟨fun tagged => absurd tagged untagged, fun _ => by decide⟩
        (.inr ⟨untagged, short⟩)
    · refine iff_of_false (fun reads => ?_) ?_
      · have negative := reads.2 untagged
        omega
      · rintro (h | h)
        · exact q h
        · exact short h.2

/-- A tag comes off again exactly in frames that are not shorter than 28; that there is one is seen; its
number is read with 802.1Q, and there is none where frames without tag end. -/
theorem tags_iff (frame : Frame) :
    (∀ headroom ethProto vlanId,
      ReturnsTo headroom frame ethProto vlanId ↔ 28 ≤ frame.bytes.length) ∧
    (isVlanPresent frame.bytes = true ↔ Tagged frame.bytes) ∧
    (ReadsId frame ↔ hProto frame.bytes = 0x0081 ∨
      (¬Tagged frame.bytes ∧ frame.bytes.length < 18)) :=
  ⟨fun _ _ _ => returnsTo_iff, isVlanPresent_iff, readsId_iff⟩

/-- A frame of 60 bytes, with a tag of 802.1ad. -/
theorem not_readsId_ad : ¬ ∀ frame : Frame,
    (∀ headroom ethProto vlanId, ReturnsTo headroom frame ethProto vlanId) ∧
    (isVlanPresent frame.bytes = true ↔ Tagged frame.bytes) ∧ ReadsId frame := by
  intro all
  let frame : Frame := ⟨List.replicate 12 0 ++ 0x88 :: 0xA8 :: List.replicate 46 0, by decide,
    by decide⟩
  have reads := readsId_iff.1 (all frame).2.2
  revert reads
  decide

end Polycube.Polycubed.Vlan
