import Mathlib.Tactic.Common
import Polycube.Lib.Checksum

/-!
# Mending a checksum

A program that changes words of a checked message adds the difference to the checksum instead of
summing up the message again.  `CsumHelpers` is what such a program relies on; differences and
checksums count modulo 65535.
-/

namespace Polycube.Lib

/-- The functions that mend a checksum: the difference of two words, and the checksum after a
difference, which is never all ones. -/
structure CsumHelpers where
  csumDiff : BitVec 32 → BitVec 32 → BitVec 32
  replaceByDiff : BitVec 16 → BitVec 32 → BitVec 16
  csumDiff_mod : ∀ old new : BitVec 32,
    ((csumDiff old new).toNat + old.toNat) % 65535 = new.toNat % 65535
  replaceByDiff_mod : ∀ (sum : BitVec 16) (diff : BitVec 32),
    ((replaceByDiff sum diff).toNat + diff.toNat) % 65535 = sum.toNat % 65535
  replaceByDiff_ne : ∀ (sum : BitVec 16) (diff : BitVec 32), replaceByDiff sum diff ≠ 0xFFFF

/-- `pcn_csum_fold` -/
def pcnCsumFold (csum : BitVec 32) : BitVec 16 :=
  let sum := csum
  let sum := (sum &&& 0xFFFF#32) + (sum >>> 16)
  let sum := (sum &&& 0xFFFF#32) + (sum >>> 16)
  (~~~sum).setWidth 16

/-- `pcn_csum_add` -/
def pcnCsumAdd (csum addend : BitVec 32) : BitVec 32 :=
  let res := csum + addend
  res + if res < addend then 1#32 else 0#32

/-- `pcn_csum_replace_by_diff` -/
def pcnCsumReplaceByDiff (sum : BitVec 16) (diff : BitVec 32) : BitVec 16 :=
  pcnCsumFold (pcnCsumAdd diff (~~~(sum.setWidth 32)))

/-- `pcn_csum_diff` for one word and no seed. -/
def pcnCsumDiff (old new : BitVec 32) : BitVec 32 := pcnCsumAdd new (~~~old)

theorem toNat_half (x : BitVec 32) :
    ((x &&& 0xFFFF#32) + (x >>> 16)).toNat = x.toNat % 65536 + x.toNat / 65536 := by
  have bound := x.isLt
  have low : (x &&& 0xFFFF#32).toNat = x.toNat % 65536 := by
    rw [BitVec.toNat_and]
    exact Nat.and_two_pow_sub_one_eq_mod x.toNat 16
  rw [BitVec.toNat_add, low, BitVec.toNat_ushiftRight, Nat.shiftRight_eq_div_pow]
  omega

/-- A fold is the complement of the sum of the halves, the carry added once more. -/
theorem toNat_pcnCsumFold (csum : BitVec 32) : ∃ sum : ℕ, sum < 65536 ∧
    sum % 65535 = csum.toNat % 65535 ∧ (sum = 0 ↔ csum.toNat = 0) ∧
    (pcnCsumFold csum).toNat = 65535 - sum := by
  have bound := csum.isLt
  let once := (csum &&& 0xFFFF#32) + (csum >>> 16)
  let twice := (once &&& 0xFFFF#32) + (once >>> 16)
  have first : once.toNat = csum.toNat % 65536 + csum.toNat / 65536 := toNat_half csum
  have second : twice.toNat = once.toNat % 65536 + once.toNat / 65536 := toNat_half once
  refine ⟨twice.toNat, by omega, by omega, by omega, ?_⟩
  have fold : (pcnCsumFold csum).toNat = (~~~twice).toNat % 65536 := BitVec.toNat_setWidth 16 _
  rw [fold, BitVec.toNat_not]
  omega

/-- An addition counts both numbers, and is zero for zeros only. -/
theorem toNat_pcnCsumAdd (csum addend : BitVec 32) :
    (pcnCsumAdd csum addend).toNat % 65535 = (csum.toNat + addend.toNat) % 65535 ∧
      ((pcnCsumAdd csum addend).toNat = 0 → addend.toNat = 0) := by
  have left := csum.isLt
  have right := addend.isLt
  unfold pcnCsumAdd
  simp only [BitVec.lt_def, BitVec.toNat_add]
  split
  · rename_i carry
    simp only [BitVec.toNat_ofNat]
    omega
  · rename_i fits
    simp only [BitVec.toNat_ofNat]
    omega

def pcnHelpers : CsumHelpers where
  csumDiff := pcnCsumDiff
  replaceByDiff := pcnCsumReplaceByDiff
  csumDiff_mod old new := by
    have bound := old.isLt
    have sum := (toNat_pcnCsumAdd new (~~~old)).1
    rw [BitVec.toNat_not] at sum
    unfold pcnCsumDiff
    omega
  replaceByDiff_mod sum diff := by
    have bound := sum.isLt
    obtain ⟨folded, small, mod, -, fold⟩ :=
      toNat_pcnCsumFold (pcnCsumAdd diff (~~~(sum.setWidth 32)))
    have add := (toNat_pcnCsumAdd diff (~~~(sum.setWidth 32))).1
    rw [BitVec.toNat_not, BitVec.toNat_setWidth] at add
    unfold pcnCsumReplaceByDiff
    omega
  replaceByDiff_ne sum diff := by
    have bound := sum.isLt
    obtain ⟨folded, small, -, zero, fold⟩ :=
      toNat_pcnCsumFold (pcnCsumAdd diff (~~~(sum.setWidth 32)))
    have add := (toNat_pcnCsumAdd diff (~~~(sum.setWidth 32))).2
    rw [BitVec.toNat_not, BitVec.toNat_setWidth] at add
    intro ones
    have full : (pcnCsumReplaceByDiff sum diff).toNat = 65535 := congrArg BitVec.toNat ones
    unfold pcnCsumReplaceByDiff at full
    omega

theorem total_words_le (b : Buffer) (off n : ℕ) : total (b.words off n) ≤ 65535 * n := by
  induction n with
  | zero => exact Nat.zero_le _
  | succ n ih =>
    have word := (b.load16 (off + 2 * n)).isLt
    rw [Buffer.words_add, Buffer.words_one, total_append, total_cons, total_nil]
    omega

theorem total_words_change {b b' : Buffer} {off n k : ℕ} (hk : k < n)
    (same : ∀ i, i ≠ off + 2 * k → i ≠ off + 2 * k + 1 → b'.byte i = b.byte i) :
    total (b'.words off n) + (b.load16 (off + 2 * k)).toNat =
      total (b.words off n) + (b'.load16 (off + 2 * k)).toNat := by
  obtain ⟨rest, rfl⟩ : ∃ rest, n = k + (1 + rest) := ⟨n - k - 1, by omega⟩
  have front : b'.words off k = b.words off k := by
    apply Buffer.words_congr
    intro i low high
    exact same i (by omega) (by omega)
  have back : b'.words (off + 2 * k + 2 * 1) rest = b.words (off + 2 * k + 2 * 1) rest := by
    apply Buffer.words_congr
    intro i low high
    exact same i (by omega) (by omega)
  simp only [Buffer.words_add, Buffer.words_one, total_append, total_cons, total_nil, front, back]
  omega

section Stores

variable (b : Buffer) (off : ℕ) {n k p : ℕ}

theorem total_words_store16 (v : BitVec 16) (hk : k < n) (inside : off + 2 * k + 1 < b.length) :
    total ((b.store16 (off + 2 * k) v).words off n) + (b.load16 (off + 2 * k)).toNat =
      total (b.words off n) + v.toNat := by
  have change : total ((b.store16 (off + 2 * k) v).words off n) + (b.load16 (off + 2 * k)).toNat =
      total (b.words off n) + ((b.store16 (off + 2 * k) v).load16 (off + 2 * k)).toNat :=
    total_words_change hk fun i low high => Buffer.byte_store16_of_ne b _ i v low high
  rwa [Buffer.load16_store16 b _ v inside] at change

theorem words_store16_of_outside (v : BitVec 16) (h : p + 2 ≤ off ∨ off + 2 * n ≤ p) :
    (b.store16 p v).words off n = b.words off n := by
  apply Buffer.words_congr
  intro i low high
  exact Buffer.byte_store16_of_ne b p i v (by omega) (by omega)

/-- Two words of a message are stored as one; a number counts as much as its halves. -/
theorem total_words_store32 (v : BitVec 32) (hk : k + 1 < n)
    (inside : off + 2 * k + 3 < b.length) :
    (total ((b.store32 (off + 2 * k) v).words off n) + (b.load32 (off + 2 * k)).toNat) % 65535 =
      (total (b.words off n) + v.toNat) % 65535 := by
  have bound := v.isLt
  have next : off + 2 * k + 2 = off + 2 * (k + 1) := by omega
  have first := total_words_store16 b off (v.extractLsb' 0 16) (Nat.lt_of_succ_lt hk) (by omega)
  have second := total_words_store16 (b.store16 (off + 2 * k) (v.extractLsb' 0 16)) off
    (v.extractLsb' 16 16) hk (by
      rw [Buffer.length_store16]
      omega)
  rw [Buffer.load16_store16_of_disjoint _ _ (by omega)] at second
  rw [BitVec.extractLsb'_toNat, Nat.shiftRight_zero] at first
  rw [BitVec.extractLsb'_toNat, Nat.shiftRight_eq_div_pow, Nat.mod_eq_of_lt (by omega)] at second
  unfold Buffer.store32
  rw [Buffer.load32_eq_append, toNat_append_eq, next]
  have halves : v.toNat = v.toNat % 2 ^ 16 + 65536 * (v.toNat / 2 ^ 16) := by omega
  generalize v.toNat % 2 ^ 16 = low at first halves
  generalize v.toNat / 2 ^ 16 = high at second halves
  omega

theorem words_store32_of_outside (v : BitVec 32) (h : p + 4 ≤ off ∨ off + 2 * n ≤ p) :
    (b.store32 p v).words off n = b.words off n := by
  apply Buffer.words_congr
  intro i low high
  exact Buffer.byte_store32_of_outside b p i v (by omega)

end Stores

end Polycube.Lib
