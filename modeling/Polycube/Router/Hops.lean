import Polycube.Lib.Run
import Polycube.Router.Datapath

/-!
# One hop less

A packet that the router sends on has lost one hop and has a right header checksum, when it comes
with a time to live of at least 2.  A packet that comes with 0 is sent on with 255: only 1 is looked
for.  Where the checksum is computed again it covers the header without options, and the carry of
the sum's only fold is lost.
-/

namespace Polycube.Router

open Lib Lib.Ipv4

def ttl (frame : Buffer) : BitVec 8 := frame.byte (ethLen + 8)

def Forwards (r : Result) : Prop := ∃ port, r.verdict = .redirect port

/-- An IP packet at the end of its life is not sent on, and any other with a right header is sent on
with one hop less and a right header. -/
structure Rewrites (frame : Buffer) (r : Result) : Prop where
  expired : frame.load16 12 = ethPIp → ttl frame ≤ 1#8 → ¬ Forwards r
  decremented : frame.load16 12 = ethPIp → Header frame → 2#8 ≤ ttl frame → Forwards r →
    ttl r.frame = ttl frame - 1#8 ∧ ChecksumOk (headerWords r.frame)

/-- The route of a packet, its port and the next hop's address are known, and the packet is for the
router's address on the link. -/
def Reaches (m : Maps) (frame : Buffer) (inPort : BitVec 16) : Prop :=
  ethLen + ipLen ≤ frame.length ∧ frame.load16 12 = ethPIp ∧
    (∃ port, m.routerPort inPort = some port ∧
      (load48 frame 0 = port.mac ∨ isEtherMcast (load48 frame 0) = true)) ∧
    ∃ entry out, m.routingTable.lookup (ipAt frame (ethLen + 16)) = some entry ∧
      entry.type = .noLocalInterface ∧ m.routerPort (entry.port.setWidth 16) = some out ∧
      m.arpTable (if entry.nexthop = 0 then ipAt frame (ethLen + 16) else entry.nexthop) ≠ none

/-- The sum of the words of the header without options and checksum, one hop less. -/
def shortTotal (frame : Buffer) : ℕ :=
  total (frame.words ethLen 10) - (frame.load16 (ethLen + 10)).toNat - 1

def optionsTotal (frame : Buffer) : ℕ := total (frame.words (ethLen + ipLen) (2 * ihl frame - 10))

def SumsUp (frame : Buffer) : Prop :=
  (optionsTotal frame + if 65536 ≤ shortTotal frame % 65536 + shortTotal frame / 65536
    then 1 else 0) % 65535 = 0

instance : DecidablePred SumsUp := fun _ => inferInstanceAs (Decidable (_ = _))

theorem load16_store8_of_ne {frame : Buffer} {off j : ℕ} {v : BitVec 8} (h : j ≠ off)
    (h' : j + 1 ≠ off) : (frame.store8 off v).load16 j = frame.load16 j := by
  unfold Buffer.load16
  rw [Buffer.byte_store8_of_ne _ _ _ _ h, Buffer.byte_store8_of_ne _ _ _ _ h']

theorem length_store48 (frame : Buffer) (off : ℕ) (v : BitVec 48) :
    (store48 frame off v).length = frame.length := Buffer.length_storeBytes ..

theorem byte_store48 {frame : Buffer} {off i : ℕ} {v : BitVec 48} (h : off + 6 ≤ i) :
    (store48 frame off v).byte i = frame.byte i := by
  unfold store48
  exact Buffer.byte_storeBytes_of_outside _ _ _ _ (.inr h)

structure SameIp (frame frame' : Buffer) : Prop where
  length : frame'.length = frame.length
  bytes : ∀ i, ethLen ≤ i → frame'.byte i = frame.byte i

theorem sameIp_eth (frame : Buffer) (dst src : BitVec 48) :
    SameIp frame (store48 (store48 frame 0 dst) 6 src) where
  length := by rw [length_store48, length_store48]
  bytes i hi := by
    have after : 12 ≤ i := le_trans (by decide) hi
    rw [byte_store48 (by omega), byte_store48 (by omega)]

theorem checksumSum_words (buf : Buffer) (n off : ℕ) (sum : BitVec 64)
    (fits : sum.toNat + 65536 * n < 2 ^ 64) :
    (checksumSum buf off (2 * n) sum).toNat = sum.toNat + total (buf.words off n) := by
  induction n generalizing off sum with
  | zero => rfl
  | succ n ih =>
    have word := (buf.load16 off).isLt
    have next : (sum + (buf.load16 off).setWidth 64).toNat =
        sum.toNat + (buf.load16 off).toNat := by
      rw [BitVec.toNat_add, BitVec.toNat_setWidth]
      omega
    have parts : buf.words off (n + 1) = buf.load16 off :: buf.words (off + 2) n := by
      rw [Nat.add_comm, Buffer.words_add, Buffer.words_one]
      rfl
    rw [Nat.mul_add, checksumSum, ih _ _ (by omega), next, parts, total_cons]
    omega

theorem toNat_checksum (buf : Buffer) (off : ℕ) : (checksum buf off ipLen).toNat =
    65535 - (total (buf.words off 10) % 65536 + total (buf.words off 10) / 65536) % 65536 := by
  have small := total_words_le buf off 10
  have sum := checksumSum_words buf 10 off 0 (by decide)
  have start : BitVec.toNat (0 : BitVec 64) = 0 := rfl
  rw [start, Nat.zero_add] at sum
  let loop := checksumSum buf off ipLen 0
  have loop_eq : loop.toNat = total (buf.words off 10) := sum
  have low : (loop &&& 0xFFFF#64).toNat = loop.toNat % 65536 := by
    rw [BitVec.toNat_and]
    exact Nat.and_two_pow_sub_one_eq_mod loop.toNat 16
  have fold : ((loop &&& 0xFFFF#64) + (loop >>> 16)).toNat =
      loop.toNat % 65536 + loop.toNat / 65536 := by
    rw [BitVec.toNat_add, low, BitVec.toNat_ushiftRight, Nat.shiftRight_eq_div_pow]
    omega
  have cut : (checksum buf off ipLen).toNat =
      (~~~((loop &&& 0xFFFF#64) + (loop >>> 16))).toNat % 65536 := BitVec.toNat_setWidth 16 _
  rw [cut, BitVec.toNat_not, fold, loop_eq]
  omega

/-- What is the same however the checksum is found: only it and the time to live change. -/
structure Lowered (frame frame' : Buffer) (check : BitVec 16) : Prop where
  length : frame'.length = frame.length
  hop : ttl frame' = ttl frame - 1#8
  mended : frame'.load16 (ethLen + 10) = check
  rest : ∀ i, i ≠ ethLen + 8 → i ≠ ethLen + 10 → i ≠ ethLen + 11 → frame'.byte i = frame.byte i

theorem newTtl_setWidth (ttl : BitVec 8) :
    ((ttl.setWidth 32 - 1#32 : BitVec 32)).setWidth 8 = ttl - 1#8 := by
  apply BitVec.eq_of_toNat_eq
  have bound := ttl.isLt
  simp only [BitVec.toNat_setWidth, BitVec.toNat_sub, BitVec.toNat_ofNat]
  omega

/-- Two stores of the checksum around the one of the time to live. -/
theorem lowered_of_stores {frame : Buffer} (long : ethLen + ipLen ≤ frame.length)
    (check : BitVec 16) :
    Lowered frame ((frame.store8 (ethLen + 8) (ttl frame - 1#8)).store16 (ethLen + 10) check)
      check := by
  have sizes : 34 ≤ frame.length := long
  have inside : ethLen + 8 < frame.length := lt_of_lt_of_le (by decide) sizes
  have inside' : ethLen + 10 + 1 < frame.length := lt_of_lt_of_le (by decide) sizes
  refine ⟨?_, ?_, ?_, fun i h8 h10 h11 => ?_⟩
  · rw [Buffer.length_store16, Buffer.length_store8]
  · unfold ttl
    rw [Buffer.byte_store16_of_ne _ _ _ _ (by decide) (by decide), Buffer.byte_store8,
      if_pos ⟨rfl, inside⟩]
  · exact Buffer.load16_store16 _ _ _ (by rwa [Buffer.length_store8])
  · rw [Buffer.byte_store16_of_ne _ _ _ _ h10 h11, Buffer.byte_store8_of_ne _ _ _ _ h8]

variable {frame' : Buffer} {check : BitVec 16}

theorem Lowered.ttlWord {frame : Buffer}
    (h : Lowered frame frame' check) (alive : 1#8 ≤ ttl frame) :
    (frame'.load16 (ethLen + 8)).toNat + 1 = (frame.load16 (ethLen + 8)).toNat := by
  have low : frame'.byte (ethLen + 8) = frame.byte (ethLen + 8) - 1#8 := h.hop
  have high := h.rest (ethLen + 8 + 1) (by decide) (by decide) (by decide)
  have alive : 1#8 ≤ frame.byte (ethLen + 8) := alive
  unfold Buffer.load16
  rw [low, high, toNat_append_eq, toNat_append_eq]
  generalize frame.byte (ethLen + 8) = t at alive ⊢
  bv_omega

theorem Lowered.counts {frame : Buffer} (h : Lowered frame frame' check)
    (alive : 1#8 ≤ ttl frame) {n : ℕ} (hn : 6 ≤ n) :
    total (frame'.words ethLen n) + 1 + (frame.load16 (ethLen + 10)).toNat =
      total (frame.words ethLen n) + check.toNat := by
  obtain ⟨rest, rfl⟩ : ∃ rest, n = 4 + (1 + (1 + rest)) := ⟨n - 6, by omega⟩
  have sizes : ethLen = 14 := rfl
  have front : frame'.words ethLen 4 = frame.words ethLen 4 := by
    apply Buffer.words_congr
    intro i low high
    exact h.rest i (by omega) (by omega) (by omega)
  have back : frame'.words (ethLen + 2 * 4 + 2 * 1 + 2 * 1) rest =
      frame.words (ethLen + 2 * 4 + 2 * 1 + 2 * 1) rest := by
    apply Buffer.words_congr
    intro i low high
    exact h.rest i (by omega) (by omega) (by omega)
  have word : (frame'.load16 (ethLen + 2 * 4)).toNat + 1 =
      (frame.load16 (ethLen + 2 * 4)).toNat := h.ttlWord alive
  have check : frame'.load16 (ethLen + 2 * 4 + 2 * 1) = check := h.mended
  have old : frame.load16 (ethLen + 2 * 4 + 2 * 1) = frame.load16 (ethLen + 10) := rfl
  simp only [Buffer.words_add, Buffer.words_one, total_append, total_cons, total_nil, front, back,
    check, old]
  omega

theorem load16_check_store8 (frame : Buffer) (v : BitVec 8) :
    (frame.store8 (ethLen + 8) v).load16 (ethLen + 10) = frame.load16 (ethLen + 10) :=
  load16_store8_of_ne (by decide) (by decide)

theorem decrementTtl_tc (helpers : CsumHelpers) {frame : Buffer}
    (long : ethLen + ipLen ≤ frame.length) (alive : 1#8 ≤ ttl frame) :
    ∃ check, Lowered frame (decrementTtl (.tc helpers) frame) check ∧
      check.toNat % 65535 = ((frame.load16 (ethLen + 10)).toNat + 1) % 65535 := by
  let diff := helpers.csumDiff ((ttl frame).setWidth 32) ((ttl frame).setWidth 32 - 1#32)
  refine ⟨helpers.replaceByDiff (frame.load16 (ethLen + 10)) diff, ?_, ?_⟩
  · have lowered := lowered_of_stores long (helpers.replaceByDiff (frame.load16 (ethLen + 10)) diff)
    rw [← newTtl_setWidth] at lowered
    unfold decrementTtl
    dsimp only
    rw [load16_check_store8]
    exact lowered
  · have mended := helpers.replaceByDiff_mod (frame.load16 (ethLen + 10)) diff
    have counted : (diff.toNat + ((ttl frame).setWidth 32 : BitVec 32).toNat) % 65535 =
        ((ttl frame).setWidth 32 - 1#32 : BitVec 32).toNat % 65535 := helpers.csumDiff_mod _ _
    have next : ((ttl frame).setWidth 32 - 1#32 : BitVec 32).toNat + 1 =
        ((ttl frame).setWidth 32 : BitVec 32).toNat := by
      generalize ttl frame = t at alive ⊢
      bv_omega
    omega

theorem lowered_summed {frame : Buffer} (long : ethLen + ipLen ≤ frame.length) :
    Lowered frame ((frame.store16 (ethLen + 10) 0).store8 (ethLen + 8) (ttl frame - 1#8)) 0 := by
  have sizes : 34 ≤ frame.length := long
  have inside : ethLen + 8 < frame.length := lt_of_lt_of_le (by decide) sizes
  have inside' : ethLen + 10 + 1 < frame.length := lt_of_lt_of_le (by decide) sizes
  refine ⟨?_, ?_, ?_, fun i h8 h10 h11 => ?_⟩
  · rw [Buffer.length_store8, Buffer.length_store16]
  · unfold ttl
    rw [Buffer.byte_store8, Buffer.length_store16, if_pos ⟨rfl, inside⟩]
  · rw [load16_check_store8]
    exact Buffer.load16_store16 _ _ _ inside'
  · rw [Buffer.byte_store8_of_ne _ _ _ _ h8, Buffer.byte_store16_of_ne _ _ _ _ h10 h11]

theorem decrementTtl_xdp {frame : Buffer} (long : ethLen + ipLen ≤ frame.length)
    (alive : 1#8 ≤ ttl frame) : ∃ check, Lowered frame (decrementTtl .xdp frame) check ∧
      check.toNat = 65535 - (shortTotal frame % 65536 + shortTotal frame / 65536) % 65536 := by
  let summed := (frame.store16 (ethLen + 10) 0).store8 (ethLen + 8) (ttl frame - 1#8)
  have lowered : Lowered frame summed 0 := lowered_summed long
  have inside : ethLen + 10 + 1 < frame.length := lt_of_lt_of_le (by decide) long
  have same : decrementTtl .xdp frame =
      summed.store16 (ethLen + 10) (checksum summed ethLen ipLen) := by
    unfold decrementTtl
    dsimp only
    rw [show (frame.byte (ethLen + 8)).setWidth 32 = (ttl frame).setWidth 32 from rfl,
      newTtl_setWidth]
  refine ⟨checksum summed ethLen ipLen, ⟨?_, ?_, ?_, fun i h8 h10 h11 => ?_⟩, ?_⟩
  · rw [same, Buffer.length_store16, lowered.length]
  · rw [same, ← lowered.hop]
    exact Buffer.byte_store16_of_ne _ _ _ _ (by decide) (by decide)
  · rw [same]
    exact Buffer.load16_store16 _ _ _ (by rwa [lowered.length])
  · rw [same, Buffer.byte_store16_of_ne _ _ _ _ h10 h11, lowered.rest i h8 h10 h11]
  · have counted := lowered.counts alive (n := 10) (by decide)
    have zero : BitVec.toNat (0 : BitVec 16) = 0 := rfl
    have short : total (summed.words ethLen 10) = shortTotal frame := by
      unfold shortTotal
      omega
    rw [toNat_checksum, short]

theorem Lowered.headerWords {frame : Buffer} (h : Lowered frame frame' check) :
    headerWords frame' = frame'.words ethLen (2 * ihl frame) := by
  unfold Ipv4.headerWords ihl
  rw [h.rest ethLen (by decide) (by decide) (by decide)]

theorem Lowered.checksumOk_iff {frame : Buffer}
    (h : Lowered frame frame' check) (ip : Header frame) (alive : 1#8 ≤ ttl frame) :
    ChecksumOk (Ipv4.headerWords frame') ↔
      check.toNat % 65535 = ((frame.load16 (ethLen + 10)).toNat + 1) % 65535 := by
  have long := ip.length
  have counted := h.counts alive (n := 2 * ihl frame) (by omega)
  have right := ((Lib.checksumOk_iff _).1 ip.checksum).1
  unfold Ipv4.headerWords at right
  have version : frame'.byte ethLen >>> 4 = 4#8 := by
    rw [h.rest ethLen (by decide) (by decide) (by decide)]
    exact ip.version
  obtain ⟨n, hn⟩ : ∃ n, 2 * ihl frame = n + 1 := ⟨2 * ihl frame - 1, by omega⟩
  have nonzero : total (frame'.words ethLen (2 * ihl frame)) ≠ 0 := by
    rw [hn]
    exact total_ne_zero version
  rw [Lib.checksumOk_iff, h.headerWords]
  omega

theorem checksumOk_tc (helpers : CsumHelpers) {frame : Buffer} (ip : Header frame)
    (long : ethLen + ipLen ≤ frame.length) (alive : 1#8 ≤ ttl frame) :
    ChecksumOk (headerWords (decrementTtl (.tc helpers) frame)) := by
  obtain ⟨check, lowered, mended⟩ := decrementTtl_tc helpers long alive
  exact (lowered.checksumOk_iff ip alive).2 mended

theorem checksumOk_xdp_iff {frame : Buffer} (ip : Header frame)
    (long : ethLen + ipLen ≤ frame.length) (alive : 1#8 ≤ ttl frame) :
    ChecksumOk (headerWords (decrementTtl .xdp frame)) ↔ SumsUp frame := by
  obtain ⟨check, lowered, summed⟩ := decrementTtl_xdp long alive
  rw [lowered.checksumOk_iff ip alive]
  have options := ip.length
  have right := ((checksumOk_iff _).1 ip.checksum).1
  have parts : headerWords frame = frame.words ethLen 10 ++
      frame.words (ethLen + ipLen) (2 * ihl frame - 10) := by
    obtain ⟨n, split⟩ : ∃ n, 2 * ihl frame = 10 + n := ⟨2 * ihl frame - 10, by omega⟩
    unfold headerWords
    rw [split, Buffer.words_add, Nat.add_sub_cancel_left]
    rfl
  have alone := (lowered_summed long).counts alive (n := 10) (by decide)
  have zero : BitVec.toNat (0 : BitVec 16) = 0 := rfl
  have bound := total_words_le frame ethLen 10
  rw [parts, total_append] at right
  unfold SumsUp optionsTotal
  have short : shortTotal frame + 1 + (frame.load16 (ethLen + 10)).toNat =
      total (frame.words ethLen 10) := by
    unfold shortTotal
    omega
  generalize total (frame.words (ethLen + ipLen) (2 * ihl frame - 10)) = rest at right ⊢
  have small : shortTotal frame ≤ 655349 := by omega
  generalize shortTotal frame = s at summed short small ⊢
  have fold_mod : (s % 65536 + s / 65536) % 65535 = s % 65535 := by omega
  have fold_le : s % 65536 + s / 65536 < 65536 + 10 := by omega
  generalize s % 65536 + s / 65536 = folded at summed fold_mod fold_le ⊢
  split_ifs with carry
  · have cut : folded % 65536 = folded - 65536 := by omega
    omega
  · have whole : folded % 65536 = folded := by omega
    omega

/-! ### The program -/

section Program

variable {hook : Hook} {shadow : Bool} {m : Maps} {frame : Buffer} {inPort : BitVec 16}

/-- A packet whose way is known and that is not about to expire is sent on. -/
theorem handleRx_reaches (hook : Hook) (shadow : Bool) (reaches : Reaches m frame inPort)
    (alive : ttl frame ≠ 1) :
    ∃ port dst src, handleRx hook shadow m frame inPort =
      ⟨.redirect port, decrementTtl hook (store48 (store48 frame 0 dst) 6 src), m.arpTable⟩ := by
  obtain ⟨long, isIp, ⟨port, hport, mac⟩, entry, out, found, type, hout, known⟩ := reaches
  obtain ⟨arp, harp⟩ := Option.ne_none_iff_exists'.1 known
  have ethernet : ¬ frame.length < ethLen := by omega
  have header : ¬ frame.length < ethLen + ipLen := by omega
  have forUs : ¬ (load48 frame 0 ≠ port.mac ∧ isEtherMcast (load48 frame 0) = false) := by
    rintro ⟨other, unicast⟩
    rcases mac with ours | multicast
    · exact other ours
    · rw [unicast] at multicast
      cases multicast
  have remote : ¬ entry.type = .localInterface := by
    rw [type]
    decide
  have alive : ¬ frame.byte (ethLen + 8) = 1 := alive
  refine ⟨entry.port.setWidth 16, arp.mac.setWidth 48, out.mac, ?_⟩
  unfold handleRx
  rw [if_neg ethernet, hport]
  dsimp only
  rw [if_neg forUs, if_pos isIp]
  unfold handleIp
  rw [if_neg header, found]
  dsimp only
  rw [if_neg remote, if_neg alive, hout]
  dsimp only
  unfold sendPacketToOutputInterface
  dsimp only
  rw [harp]

theorem reaches_of_handleIp {port : RPort} (isIp : frame.load16 12 = ethPIp)
    (hport : m.routerPort inPort = some port)
    (mac : load48 frame 0 = port.mac ∨ isEtherMcast (load48 frame 0) = true)
    (h : Forwards (handleIp hook shadow m frame inPort port)) :
    Reaches m frame inPort ∧ ttl frame ≠ 1 := by
  obtain ⟨p, hp⟩ := h
  unfold handleIp at hp
  by_cases short : frame.length < ethLen + ipLen
  · rw [if_pos short] at hp
    cases hp
  rw [if_neg short] at hp
  cases found : m.routingTable.lookup (ipAt frame (ethLen + 16)) with
  | none =>
    rw [found] at hp
    cases hp
  | some entry =>
    rw [found] at hp
    dsimp only at hp
    by_cases loc : entry.type = .localInterface
    · rw [if_pos loc] at hp
      unfold sendPacketForRouterToSlowpath at hp
      split_ifs at hp
    rw [if_neg loc] at hp
    by_cases expires : frame.byte (ethLen + 8) = 1
    · rw [if_pos expires] at hp
      cases hp
    rw [if_neg expires] at hp
    have type : entry.type = .noLocalInterface := by
      cases e : entry.type with
      | noLocalInterface => rfl
      | localInterface => exact absurd e loc
    cases hout : m.routerPort (entry.port.setWidth 16) with
    | none =>
      rw [hout] at hp
      cases hp
    | some out =>
      rw [hout] at hp
      dsimp only at hp
      unfold sendPacketToOutputInterface at hp
      dsimp only at hp
      refine ⟨⟨by omega, isIp, ⟨port, hport, mac⟩, entry, out, found, type, hout, ?_⟩, expires⟩
      intro unknown
      rw [unknown] at hp
      cases hp

theorem reaches_of_forwards (isIp : frame.load16 12 = ethPIp)
    (h : Forwards (handleRx hook shadow m frame inPort)) :
    Reaches m frame inPort ∧ ttl frame ≠ 1 := by
  unfold handleRx at h
  by_cases short : frame.length < ethLen
  · rw [if_pos short] at h
    obtain ⟨p, ⟨⟩⟩ := h
  rw [if_neg short] at h
  cases hport : m.routerPort inPort with
  | none =>
    rw [hport] at h
    obtain ⟨p, ⟨⟩⟩ := h
  | some port =>
    rw [hport] at h
    dsimp only at h
    by_cases other : load48 frame 0 ≠ port.mac ∧ isEtherMcast (load48 frame 0) = false
    · rw [if_pos other] at h
      obtain ⟨p, ⟨⟩⟩ := h
    rw [if_neg other, if_pos isIp] at h
    refine reaches_of_handleIp isIp hport ?_ h
    by_contra neither
    rw [not_or] at neither
    exact other ⟨neither.1, Bool.eq_false_iff.2 neither.2⟩

theorem alive_of_two {t : BitVec 8} (h : 2#8 ≤ t) : 1#8 ≤ t := by bv_omega

variable {frame' : Buffer}

theorem SameIp.ttl (h : SameIp frame frame') : ttl frame' = ttl frame :=
  h.bytes _ (by decide)

theorem SameIp.words (h : SameIp frame frame') (off n : ℕ) (hoff : ethLen ≤ off) :
    frame'.words off n = frame.words off n :=
  Buffer.words_congr fun i low _ => h.bytes i (hoff.trans low)

theorem SameIp.load16 (h : SameIp frame frame') (off : ℕ) (hoff : ethLen ≤ off) :
    frame'.load16 off = frame.load16 off := by
  unfold Buffer.load16
  rw [h.bytes _ hoff, h.bytes _ (by omega)]

theorem SameIp.ihl (h : SameIp frame frame') : ihl frame' = ihl frame := by
  unfold Ipv4.ihl
  rw [h.bytes _ le_rfl]

theorem SameIp.header (h : SameIp frame frame') (ip : Header frame) :
    Header frame' where
  version := by
    rw [h.bytes _ le_rfl]
    exact ip.version
  length := by
    rw [h.ihl]
    exact ip.length
  whole := by
    rw [h.ihl, h.length]
    exact ip.whole
  checksum := by
    unfold headerWords
    rw [h.ihl, h.words _ _ le_rfl]
    exact ip.checksum

theorem SameIp.sumsUp_iff (h : SameIp frame frame') : SumsUp frame' ↔ SumsUp frame := by
  unfold SumsUp optionsTotal shortTotal
  rw [h.ihl, h.words _ _ le_rfl, h.words _ _ (by decide), h.load16 _ (by decide)]

theorem ttl_decrementTtl (long : ethLen + ipLen ≤ frame.length) (alive : 1#8 ≤ ttl frame) :
    ttl (decrementTtl hook frame) = ttl frame - 1#8 := by
  cases hook with
  | xdp =>
    obtain ⟨check, lowered, -⟩ := decrementTtl_xdp long alive
    exact lowered.hop
  | tc helpers =>
    obtain ⟨check, lowered, -⟩ := decrementTtl_tc helpers long alive
    exact lowered.hop

/-- A packet is rewritten as it should be if and only if, when its way is known, it does not come
with a time to live of 0 and, for XDP, its options count nothing and no carry is lost. -/
theorem rewrites_iff (hook : Hook) (shadow : Bool) (m : Maps) (frame : Buffer)
    (inPort : BitVec 16) :
    Rewrites frame (handleRx hook shadow m frame inPort) ↔
      (Reaches m frame inPort → ttl frame ≠ 0 ∧
        (hook = .xdp → Header frame → 2#8 ≤ ttl frame → SumsUp frame)) := by
  constructor
  · rintro ⟨expired, decremented⟩ reaches
    have isIp := reaches.2.1
    have alive : ttl frame ≠ 0 := by
      intro zero
      have one : ttl frame ≠ 1 := by
        rw [zero]
        decide
      obtain ⟨port, dst, src, sent⟩ := handleRx_reaches hook shadow reaches one
      exact expired isIp (by rw [zero]; decide) ⟨port, by rw [sent]⟩
    refine ⟨alive, ?_⟩
    rintro rfl ip two
    have one : ttl frame ≠ 1 := by
      intro one
      rw [one] at two
      exact absurd two (by decide)
    obtain ⟨port, dst, src, sent⟩ := handleRx_reaches .xdp shadow reaches one
    have same := sameIp_eth frame dst src
    obtain ⟨-, right⟩ := decremented isIp ip two ⟨port, by rw [sent]⟩
    rw [sent, checksumOk_xdp_iff (same.header ip) (by rw [same.length]; exact reaches.1)
      (by rw [same.ttl]; exact alive_of_two two), same.sumsUp_iff] at right
    exact right
  · intro condition
    constructor
    · intro isIp old sent
      obtain ⟨reaches, one⟩ := reaches_of_forwards isIp sent
      have zero := (condition reaches).1
      generalize ttl frame = t at old zero one
      revert old zero one
      bv_omega
    · intro isIp ip two sent
      obtain ⟨reaches, one⟩ := reaches_of_forwards isIp sent
      obtain ⟨port, dst, src, result⟩ :=
        handleRx_reaches hook shadow reaches one
      have same := sameIp_eth frame dst src
      have long : ethLen + ipLen ≤ (store48 (store48 frame 0 dst) 6 src).length := by
        rw [same.length]
        exact reaches.1
      have alive : 1#8 ≤ ttl (store48 (store48 frame 0 dst) 6 src) := by
        rw [same.ttl]
        exact alive_of_two two
      rw [result]
      refine ⟨by rw [ttl_decrementTtl long alive, same.ttl], ?_⟩
      cases hook with
      | xdp =>
        rw [checksumOk_xdp_iff (same.header ip) long alive, same.sumsUp_iff]
        exact (condition reaches).2 rfl ip two
      | tc helpers => exact checksumOk_tc helpers (same.header ip) long alive

end Program

def expiredFrame : Buffer :=
  [0x02, 0x00, 0x00, 0x00, 0x00, 0x01, 0x02, 0x00, 0x00, 0x00, 0x00, 0x02, 0x08, 0x00,
    0x45, 0x00, 0x00, 0x14, 0x00, 0x00, 0x00, 0x00, 0x00, 0x11, 0xA5, 0xD6,
    0x0A, 0x00, 0x00, 0x02, 0x0A, 0x00, 0x01, 0x02]

def throughSecondPort : RtV := ⟨2, 0, .noLocalInterface⟩

def twoPorts : Maps where
  routerPort := fun index =>
    if index = 1 then some ⟨0x0A000001, [], 0x010000000002⟩
    else if index = 2 then some ⟨0x0A000101, [], 0x020000000002⟩ else none
  routingTable := Lpm.set (fun _ => none) 0 0 throughSecondPort
  arpTable := fun ip => if ip = 0x0A000102 then some ⟨0x030000000002, 2⟩ else none

theorem not_rewrites_expired :
    ¬ Rewrites expiredFrame (handleRx (.tc pcnHelpers) false twoPorts expiredFrame 1) := by
  intro right
  have one : ttl expiredFrame ≠ 1 := by decide
  have reaches : Reaches twoPorts expiredFrame 1 :=
    ⟨by decide, by decide, ⟨_, rfl, .inl (by decide)⟩, throughSecondPort, _, rfl, rfl, rfl,
      by decide⟩
  obtain ⟨port, dst, src, sent⟩ := handleRx_reaches (.tc pcnHelpers) false reaches one
  exact right.expired reaches.2.1 (by decide) ⟨port, by rw [sent]⟩

/-! ### From router to router -/

section Journey

/-- A router on the way of a packet, as it is when the packet gets there. -/
structure Stop where
  hook : Hook
  shadow : Bool
  maps : Maps
  inPort : BitVec 16

def Stop.handle (stop : Stop) (frame : Buffer) : Result :=
  handleRx stop.hook stop.shadow stop.maps frame stop.inPort

def Stop.pass (frame : Buffer) (stop : Stop) : Buffer := (stop.handle frame).frame

variable {hook : Hook} {stop : Stop} {frame frame' : Buffer}

theorem byte_decrementTtl (long : ethLen + ipLen ≤ frame.length) {i : ℕ} (h10 : i ≠ ethLen + 10)
    (h11 : i ≠ ethLen + 11) : (decrementTtl hook frame).byte i =
      if i = ethLen + 8 then ttl frame - 1#8 else frame.byte i := by
  have inside : ethLen + 8 < frame.length := lt_of_lt_of_le (by decide) long
  have hop : (((frame.byte (ethLen + 8)).setWidth 32 - 1#32 : BitVec 32)).setWidth 8 =
      ttl frame - 1#8 := newTtl_setWidth _
  unfold decrementTtl
  cases hook <;> dsimp only <;> rw [Buffer.byte_store16_of_ne _ _ _ _ h10 h11, hop,
    Buffer.byte_store8]
  · rw [Buffer.length_store16, Buffer.byte_store16_of_ne _ _ _ _ h10 h11]
    grind
  · grind

/-- A router that sends an IP packet on takes one hop of it, and leaves it an IP packet. -/
theorem pass_of_forwards (isIp : frame.load16 12 = ethPIp) (on : Forwards (stop.handle frame)) :
    ttl frame ≠ 1 ∧ ttl (stop.pass frame) = ttl frame - 1#8 ∧
      (stop.pass frame).load16 12 = ethPIp := by
  obtain ⟨reaches, one⟩ := reaches_of_forwards isIp on
  obtain ⟨port, dst, src, sent⟩ := handleRx_reaches stop.hook stop.shadow reaches one
  have same := sameIp_eth frame dst src
  have byte : ∀ i, i ≠ ethLen + 10 → i ≠ ethLen + 11 → 12 ≤ i → (stop.pass frame).byte i =
      if i = ethLen + 8 then ttl frame - 1#8 else frame.byte i := by
    intro i h10 h11 low
    unfold Stop.pass Stop.handle
    rw [sent, byte_decrementTtl (same.length ▸ reaches.1) h10 h11, same.ttl,
      byte_store48 (by omega), byte_store48 (by omega)]
  refine ⟨one, byte _ (by decide) (by decide) (by decide), ?_⟩
  rw [← isIp]
  unfold Buffer.load16
  rw [byte _ (by decide) (by decide) (by decide), byte _ (by decide) (by decide) (by decide)]
  rfl

/-- However routers are linked and whatever their tables hold, round and round or not, each one
that sends a packet on uses up one hop, and none is left over at the last. -/
theorem hops_of_run (stops : List Stop) (isIp : frame.load16 12 = ethPIp)
    (on : Meets Stop.pass (fun frame stop => Forwards (stop.handle frame)) frame stops) :
    stops.length + (ttl (run Stop.pass frame stops) - 1#8).toNat = (ttl frame - 1#8).toNat := by
  induction stops generalizing frame with
  | nil => exact Nat.zero_add _
  | cons stop stops ih =>
    obtain ⟨alive, hop, still⟩ := pass_of_forwards isIp on.1
    have rest := ih still on.2
    rw [hop] at rest
    rw [run_cons, List.length_cons]
    generalize ttl (run Stop.pass (stop.pass frame) stops) = last at rest ⊢
    generalize ttl frame = t at alive rest ⊢
    have next : (t - 1#8 - 1#8).toNat + 1 = (t - 1#8).toNat := by bv_omega
    omega

theorem hops_of_run_expired :
    [Stop.mk (.tc pcnHelpers) false twoPorts 1].length +
      (ttl (run Stop.pass expiredFrame [⟨.tc pcnHelpers, false, twoPorts, 1⟩]) - 1#8).toNat = 255 := by
  have reaches : Reaches twoPorts expiredFrame 1 :=
    ⟨by decide, by decide, ⟨_, rfl, .inl (by decide)⟩, throughSecondPort, _, rfl, rfl, rfl,
      by decide⟩
  obtain ⟨port, dst, src, sent⟩ := handleRx_reaches (.tc pcnHelpers) false reaches (by decide)
  exact hops_of_run _ (by decide) ⟨⟨port, congrArg Result.verdict sent⟩, trivial⟩

end Journey

end Polycube.Router
