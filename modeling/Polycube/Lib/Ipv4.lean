import Polycube.Lib.ChecksumUpdate
import Polycube.Lib.Flow

/-!
# IPv4 frames

Where the fields of an IPv4 header stand in a frame and which words its checksum counts, and the
same for the TCP, UDP or ICMP message after it.  TCP and UDP count a pseudo header too, and a UDP
message may have no checksum.
-/

namespace Polycube.Lib.Ipv4

def ethLen : ℕ := 14
def ipLen : ℕ := 20

def ethPIp : BitVec 16 := bswap16 0x0800
def ethPArp : BitVec 16 := bswap16 0x0806

def ihl (frame : Buffer) : ℕ := (frame.byte ethLen &&& 0x0F#8).toNat

def totalLength (frame : Buffer) : ℕ := (bswap16 (frame.load16 (ethLen + 2))).toNat

def protocol (frame : Buffer) : BitVec 8 := frame.byte (ethLen + 9)

def headerWords (frame : Buffer) : List (BitVec 16) := frame.words ethLen (2 * ihl frame)

structure Header (frame : Buffer) : Prop where
  version : frame.byte ethLen >>> 4 = 4#8
  length : 5 ≤ ihl frame
  whole : ethLen + 4 * ihl frame ≤ frame.length
  checksum : ChecksumOk (headerWords frame)

theorem total_ne_zero {frame : Buffer} {n : ℕ} (h : frame.byte ethLen >>> 4 = 4#8) :
    total (frame.words ethLen (n + 1)) ≠ 0 := by
  have first : (frame.byte ethLen).toNat ≠ 0 := by
    intro zero
    rw [show frame.byte ethLen = 0#8 from BitVec.eq_of_toNat_eq zero] at h
    exact absurd h (by decide)
  have word : (frame.load16 ethLen).toNat ≠ 0 := by
    unfold Buffer.load16
    rw [toNat_append_eq]
    omega
  rw [Nat.add_comm, Buffer.words_add, Buffer.words_one, total_append, total_cons]
  omega

/-! ### The message -/

/-- The header of a protocol: its length in bytes, the words of its ports and of its checksum, and
whether it counts a pseudo header.  The identifier of an ICMP message is both of its ports. -/
structure L4Header where
  size : ℕ
  source : ℕ
  dest : ℕ
  check : ℕ
  pseudo : Bool
  source_fits : 2 * source + 2 ≤ size
  dest_fits : 2 * dest + 2 ≤ size
  check_fits : 2 * check + 2 ≤ size
  check_ne_source : check ≠ source
  check_ne_dest : check ≠ dest

def tcphdr : L4Header :=
  ⟨20, 0, 1, 8, true, by decide, by decide, by decide, by decide, by decide⟩

def udphdr : L4Header :=
  ⟨8, 0, 1, 3, true, by decide, by decide, by decide, by decide, by decide⟩

def icmphdr : L4Header :=
  ⟨8, 2, 2, 1, false, by decide, by decide, by decide, by decide, by decide⟩

def l4Header (protocol : BitVec 8) : Option L4Header :=
  if protocol = ipprotoTcp then some tcphdr
  else if protocol = ipprotoUdp then some udphdr
  else if protocol = ipprotoIcmp then some icmphdr
  else none

theorem l4Header_cases {protocol : BitVec 8} {h : L4Header} (hh : l4Header protocol = some h) :
    (protocol = ipprotoTcp ∧ h = tcphdr) ∨ (protocol = ipprotoUdp ∧ h = udphdr) ∨
      (protocol = ipprotoIcmp ∧ h = icmphdr) := by
  unfold l4Header at hh
  split_ifs at hh with tcp udp icmp
  · exact .inl ⟨tcp, (Option.some.inj hh).symm⟩
  · exact .inr (.inl ⟨udp, (Option.some.inj hh).symm⟩)
  · exact .inr (.inr ⟨icmp, (Option.some.inj hh).symm⟩)

def l4Off (frame : Buffer) : ℕ := ethLen + 4 * ihl frame

def messageLen (frame : Buffer) : ℕ :=
  if protocol frame = ipprotoUdp then (bswap16 (frame.load16 (l4Off frame + 4))).toNat
  else totalLength frame - 4 * ihl frame

def messageWords (frame : Buffer) : List (BitVec 16) :=
  frame.words (l4Off frame) (messageLen frame / 2) ++
    if messageLen frame % 2 = 1 then
      [(frame.byte (l4Off frame + (messageLen frame - 1))).setWidth 16]
    else []

def protocolWord (frame : Buffer) : BitVec 16 := protocol frame ++ 0#8

def pseudoWords (frame : Buffer) : List (BitVec 16) :=
  frame.words (ethLen + 12) 4 ++
    [protocolWord frame, bswap16 (BitVec.ofNat 16 (messageLen frame))]

def checkedWords (frame : Buffer) (h : L4Header) : List (BitVec 16) :=
  (if h.pseudo then pseudoWords frame else []) ++ messageWords frame

def checkOff (frame : Buffer) (h : L4Header) : ℕ := l4Off frame + 2 * h.check

def Unchecked (frame : Buffer) (h : L4Header) : Prop :=
  protocol frame = ipprotoUdp ∧ frame.load16 (checkOff frame h) = 0

def MessageOk (frame : Buffer) (h : L4Header) : Prop :=
  Unchecked frame h ∨ ChecksumOk (checkedWords frame h)

structure Carries (frame : Buffer) (h : L4Header) : Prop where
  header : Header frame
  isIp : frame.load16 12 = ethPIp
  protocol : l4Header (protocol frame) = some h
  size : h.size ≤ messageLen frame
  length : 4 * ihl frame + messageLen frame ≤ totalLength frame
  whole : ethLen + totalLength frame ≤ frame.length
  message : MessageOk frame h

instance (frame : Buffer) (h : L4Header) : Decidable (Unchecked frame h) :=
  inferInstanceAs (Decidable (_ ∧ _))

instance (frame : Buffer) (h : L4Header) : Decidable (MessageOk frame h) :=
  inferInstanceAs (Decidable (_ ∨ _))

theorem total_pseudoWords_ne_zero {frame : Buffer} {h : L4Header}
    (hh : l4Header (protocol frame) = some h) : total (pseudoWords frame) ≠ 0 := by
  have nonzero : (protocol frame).toNat ≠ 0 := by
    intro zero
    rw [show protocol frame = 0#8 from BitVec.eq_of_toNat_eq zero] at hh
    cases hh
  have word : (protocolWord frame).toNat = (protocol frame).toNat * 2 ^ 8 + (0#8).toNat :=
    toNat_append_eq _ _
  unfold pseudoWords
  rw [total_append, total_cons]
  omega

end Polycube.Lib.Ipv4
