import Mathlib.Data.BitVec

/-!
# Bytes and byte order

Words as a little-endian host reads them from a byte buffer, and the byte swaps between that
reading and the number a network protocol means.  `bswap32` and `bswap16` are the swaps
(`htonl`, `ntohl`, `htons`, `ntohs` on such a host), `bytes32` gives a swapped word its numeric
value byte by byte, and `Buffer` is a byte buffer with bounds-checked loads.
-/

namespace Polycube.Lib

instance lawful32 : LawfulBEq (BitVec 32) := inferInstance

def bswap32 (x : BitVec 32) : BitVec 32 :=
  x.extractLsb' 0 8 ++ x.extractLsb' 8 8 ++ x.extractLsb' 16 8 ++ x.extractLsb' 24 8

def bswap16 (x : BitVec 16) : BitVec 16 :=
  x.extractLsb' 0 8 ++ x.extractLsb' 8 8

theorem toNat_append_eq {n m : Nat} (x : BitVec n) (y : BitVec m) :
    (x ++ y).toNat = x.toNat * 2 ^ m + y.toNat := by
  rw [BitVec.toNat_append, ← Nat.shiftLeft_add_eq_or_of_lt y.isLt, Nat.shiftLeft_eq]

theorem exists_bytes32 {n : Nat} (h : n < 4294967296) :
    ∃ b₀ b₁ b₂ b₃, b₀ < 256 ∧ b₁ < 256 ∧ b₂ < 256 ∧ b₃ < 256 ∧
      n = b₀ + 256 * b₁ + 65536 * b₂ + 16777216 * b₃ :=
  ⟨n % 256, n / 256 % 256, n / 65536 % 256, n / 16777216, by omega⟩

/-- A swapped 32-bit word has the bytes of the word in the opposite order. -/
theorem toNat_bswap32 (x : BitVec 32) {b₀ b₁ b₂ b₃ : Nat} (h₀ : b₀ < 256) (h₁ : b₁ < 256)
    (h₂ : b₂ < 256) (hx : x.toNat = b₀ + 256 * b₁ + 65536 * b₂ + 16777216 * b₃) :
    (bswap32 x).toNat = b₃ + 256 * b₂ + 65536 * b₁ + 16777216 * b₀ := by
  have e₀ : x.toNat % 256 = b₀ := by omega
  have e₁ : x.toNat / 256 % 256 = b₁ := by omega
  have e₂ : x.toNat / 65536 % 256 = b₂ := by omega
  have e₃ : x.toNat / 16777216 % 256 = b₃ := by omega
  simp only [bswap32, toNat_append_eq, BitVec.extractLsb'_toNat, Nat.shiftRight_eq_div_pow,
    Nat.reducePow, Nat.div_one, e₀, e₁, e₂, e₃]
  omega

@[simp] theorem bswap32_bswap32 (x : BitVec 32) : bswap32 (bswap32 x) = x := by
  obtain ⟨b₀, b₁, b₂, b₃, h₀, h₁, h₂, h₃, hx⟩ := exists_bytes32 x.isLt
  apply BitVec.eq_of_toNat_eq
  rw [toNat_bswap32 _ h₃ h₂ h₁ (toNat_bswap32 x h₀ h₁ h₂ hx), hx]

@[simp] theorem bswap16_bswap16 (x : BitVec 16) : bswap16 (bswap16 x) = x := by
  have hx : x.toNat < 65536 := x.isLt
  have low : (bswap16 x).toNat % 256 = x.toNat / 256 := by
    simp only [bswap16, toNat_append_eq, BitVec.extractLsb'_toNat, Nat.shiftRight_eq_div_pow,
      Nat.reducePow, Nat.div_one]
    omega
  have high : (bswap16 x).toNat / 256 = x.toNat % 256 := by
    simp only [bswap16, toNat_append_eq, BitVec.extractLsb'_toNat, Nat.shiftRight_eq_div_pow,
      Nat.reducePow, Nat.div_one]
    omega
  apply BitVec.eq_of_toNat_eq
  rw [bswap16, toNat_append_eq]
  simp only [BitVec.extractLsb'_toNat, Nat.shiftRight_eq_div_pow, Nat.reducePow, Nat.div_one,
    low, high]
  omega

/-- A bit keeps its place in its byte and the byte goes to the other end. -/
theorem getLsbD_bswap32 (x : BitVec 32) {j : Nat} (h : j < 32) :
    (bswap32 x).getLsbD j = x.getLsbD (24 - 8 * (j / 8) + j % 8) := by
  have byte : ∀ k < 4, j / 8 = k → j - 8 * k < 8 ∧ 8 * k ≤ j ∧ j % 8 = j - 8 * k := by omega
  unfold bswap32
  simp only [BitVec.getLsbD_append, BitVec.getLsbD_extractLsb']
  have cases : j / 8 = 0 ∨ j / 8 = 1 ∨ j / 8 = 2 ∨ j / 8 = 3 := by omega
  rcases cases with e | e | e | e <;> obtain ⟨h₁, h₂, h₃⟩ := byte _ (by decide) e
  · rw [if_pos (by omega)]
    simp [e, h₃, show j < 8 by omega]
  · rw [if_neg (by omega), if_pos (by omega)]
    simp [e, h₃, show j - 8 < 8 by omega]
  · rw [if_neg (by omega), if_neg (by omega), if_pos (by omega)]
    simp [e, h₃, show j - 8 - 8 = j - 16 by omega, show j - 16 < 8 by omega]
  · rw [if_neg (by omega), if_neg (by omega), if_neg (by omega)]
    simp [e, h₃, show j - 8 - 8 - 8 = j - 24 by omega, show j - 24 < 8 by omega]

theorem bswap32_injective : Function.Injective bswap32 :=
  Function.LeftInverse.injective bswap32_bswap32

theorem bswap16_injective : Function.Injective bswap16 :=
  Function.LeftInverse.injective bswap16_bswap16

/-- Adding one to the last byte of a swapped word is adding one to the number it stands for
exactly when that byte does not overflow. -/
theorem bswap32_add_one_iff (x : BitVec 32) :
    bswap32 x + 0x1000000#32 = bswap32 (x + 1#32) ↔ x.toNat % 256 ≠ 255 := by
  obtain ⟨b₀, b₁, b₂, b₃, h₀, h₁, h₂, h₃, hx⟩ := exists_bytes32 x.isLt
  have hswap := toNat_bswap32 x h₀ h₁ h₂ hx
  by_cases c₀ : b₀ = 255
  · -- the carry is lost: the sum is the swap of `x - 255`, not of `x + 1`
    have hsub : (x - 255#32).toNat = 0 + 256 * b₁ + 65536 * b₂ + 16777216 * b₃ := by
      simp only [BitVec.toNat_sub, BitVec.toNat_ofNat, Nat.reducePow, Nat.reduceMod]
      omega
    have lost : bswap32 x + 0x1000000#32 = bswap32 (x - 255#32) := by
      apply BitVec.eq_of_toNat_eq
      rw [BitVec.toNat_add, hswap, toNat_bswap32 _ (by decide) h₁ h₂ hsub]
      simp only [BitVec.toNat_ofNat, Nat.reducePow, Nat.reduceMod]
      omega
    have apart : x - 255#32 ≠ x + 1#32 := by bv_omega
    rw [lost]
    exact iff_of_false (fun e => apart (bswap32_injective e)) (by omega)
  · have hadd : (x + 1#32).toNat = (b₀ + 1) + 256 * b₁ + 65536 * b₂ + 16777216 * b₃ := by
      simp only [BitVec.toNat_add, BitVec.toNat_ofNat, Nat.reducePow, Nat.reduceMod]
      omega
    refine iff_of_true (BitVec.eq_of_toNat_eq ?_) (by omega)
    rw [BitVec.toNat_add, hswap, toNat_bswap32 _ (by omega) h₁ h₂ hadd]
    simp only [BitVec.toNat_ofNat, Nat.reducePow, Nat.reduceMod]
    omega

def dotted (ip : BitVec 32) : List Char :=
  let byte (i : Nat) := Nat.toDigits 10 (ip.toNat / 256 ^ i % 256)
  byte 0 ++ ['.'] ++ byte 1 ++ ['.'] ++ byte 2 ++ ['.'] ++ byte 3

abbrev Buffer := List (BitVec 8)

namespace Buffer

/-- The byte at an offset, zero past the end; every load of a program is preceded by its check. -/
def byte (b : Buffer) (off : Nat) : BitVec 8 := b.getD off 0

def load16 (b : Buffer) (off : Nat) : BitVec 16 := b.byte (off + 1) ++ b.byte off

def load32 (b : Buffer) (off : Nat) : BitVec 32 :=
  b.byte (off + 3) ++ b.byte (off + 2) ++ b.byte (off + 1) ++ b.byte off

def store16 (b : Buffer) (off : Nat) (v : BitVec 16) : Buffer :=
  (b.set off (v.extractLsb' 0 8)).set (off + 1) (v.extractLsb' 8 8)

end Buffer

end Polycube.Lib
