import Mathlib.Data.List.Basic
import Mathlib.Algebra.BigOperators.Group.List.Basic
import Mathlib.Algebra.Order.BigOperators.Group.List
import Polycube.Lib.Bytes

/-!
# Stores and the Internet checksum

What a store leaves of a buffer, byte by byte, and the checksum of a header: a receiver adds the
words of the header with the carry going round, the checksum among them, and takes the header if
the sum is all ones.  The sum counts modulo 65535, which is how a program that changes one word
mends the checksum without adding the others again.
-/

namespace Polycube.Lib

/-! ## Stores -/

namespace Buffer

def store8 (b : Buffer) (off : ℕ) (v : BitVec 8) : Buffer := b.set off v

def store32 (b : Buffer) (off : ℕ) (v : BitVec 32) : Buffer :=
  (b.store16 off (v.extractLsb' 0 16)).store16 (off + 2) (v.extractLsb' 16 16)

def storeBytes (b : Buffer) (off : ℕ) (src : Buffer) : Buffer :=
  b.mapIdx fun i x => if off ≤ i ∧ i < off + src.length then src.byte (i - off) else x

variable (b : Buffer) (off i : ℕ)

theorem byte_eq : b.byte i = b[i]?.getD 0 := List.getD_eq_getElem?_getD

theorem ext_byte {a b : Buffer} (length : a.length = b.length) (bytes : ∀ i, a.byte i = b.byte i) :
    a = b := by
  apply List.ext_getElem length
  intro i h h'
  have e := bytes i
  rwa [byte_eq, byte_eq, List.getElem?_eq_getElem h, List.getElem?_eq_getElem h'] at e

theorem byte_set (v : BitVec 8) :
    byte (b.set off v) i = if off = i ∧ i < b.length then v else b.byte i := by
  rw [byte_eq, byte_eq, List.getElem?_set]
  by_cases e : off = i
  · subst e
    by_cases h : off < b.length
    · rw [if_pos rfl, if_pos h, if_pos ⟨rfl, h⟩]
      rfl
    · rw [if_pos rfl, if_neg h, if_neg (fun c => h c.2)]
      rw [List.getElem?_eq_none (Nat.le_of_not_lt h)]
  · rw [if_neg e, if_neg (fun c => e c.1)]

@[simp] theorem length_store8 (v : BitVec 8) : (b.store8 off v).length = b.length :=
  List.length_set

@[simp] theorem length_store16 (v : BitVec 16) : (b.store16 off v).length = b.length := by
  unfold store16
  rw [List.length_set, List.length_set]

@[simp] theorem length_storeBytes (src : Buffer) : (b.storeBytes off src).length = b.length :=
  List.length_mapIdx

theorem byte_store8 (v : BitVec 8) :
    (b.store8 off v).byte i = if off = i ∧ i < b.length then v else b.byte i :=
  byte_set b off i v

theorem byte_store8_of_ne (v : BitVec 8) (h : i ≠ off) : (b.store8 off v).byte i = b.byte i := by
  rw [byte_store8, if_neg (fun c => h c.1.symm)]

theorem byte_store16_of_ne (v : BitVec 16) (h : i ≠ off) (h' : i ≠ off + 1) :
    (b.store16 off v).byte i = b.byte i := by
  unfold store16
  rw [byte_set, if_neg (fun c => h' c.1.symm), byte_set, if_neg (fun c => h c.1.symm)]

theorem byte_store16_low (v : BitVec 16) (h : off < b.length) :
    (b.store16 off v).byte off = v.extractLsb' 0 8 := by
  unfold store16
  rw [byte_set, if_neg (by omega), byte_set, if_pos ⟨rfl, h⟩]

theorem byte_store16_high (v : BitVec 16) (h : off + 1 < b.length) :
    (b.store16 off v).byte (off + 1) = v.extractLsb' 8 8 := by
  unfold store16
  rw [byte_set, if_pos ⟨rfl, by rwa [List.length_set]⟩]

theorem append_extractLsb' (v : BitVec 16) : v.extractLsb' 8 8 ++ v.extractLsb' 0 8 = v := by
  apply BitVec.eq_of_toNat_eq
  have hv := v.isLt
  rw [toNat_append_eq, BitVec.extractLsb'_toNat, BitVec.extractLsb'_toNat,
    Nat.shiftRight_eq_div_pow, Nat.shiftRight_eq_div_pow]
  omega

theorem load16_congr {b b' : Buffer} {off : ℕ}
    (h : ∀ i, off ≤ i → i < off + 2 → b'.byte i = b.byte i) : b'.load16 off = b.load16 off := by
  unfold load16
  rw [h off le_rfl (by omega), h (off + 1) (by omega) (by omega)]

theorem load16_store16 (v : BitVec 16) (h : off + 1 < b.length) :
    (b.store16 off v).load16 off = v := by
  unfold load16
  rw [byte_store16_low b off v (by omega), byte_store16_high b off v h]
  exact append_extractLsb' v

theorem load16_store16_of_disjoint {off j : ℕ} (v : BitVec 16) (h : j + 1 < off ∨ off + 1 < j) :
    (b.store16 off v).load16 j = b.load16 j := by
  unfold load16
  rw [byte_store16_of_ne b off _ v (by omega) (by omega),
    byte_store16_of_ne b off _ v (by omega) (by omega)]

theorem store16_store16 (v w : BitVec 16) : (b.store16 off v).store16 off w = b.store16 off w := by
  apply ext_byte (by simp only [length_store16])
  intro i
  unfold store16
  simp only [byte_set, List.length_set]
  grind

theorem load16_eq_iff (v : BitVec 16) :
    b.load16 off = v ↔ b.byte off = v.extractLsb' 0 8 ∧ b.byte (off + 1) = v.extractLsb' 8 8 := by
  unfold load16
  constructor
  · rintro rfl
    have low := (b.byte off).isLt
    constructor <;> apply BitVec.eq_of_toNat_eq <;>
      rw [BitVec.extractLsb'_toNat, toNat_append_eq, Nat.shiftRight_eq_div_pow] <;> omega
  · rintro ⟨low, high⟩
    rw [low, high]
    exact append_extractLsb' v

/-- Storing a word leaves the buffer as it was exactly when the word was there. -/
theorem store16_eq_iff (v : BitVec 16) (h : off + 1 < b.length) :
    b.store16 off v = b ↔ b.load16 off = v := by
  constructor
  · intro same
    rw [← load16_store16 b off v h, same]
  · intro there
    obtain ⟨low, high⟩ := (load16_eq_iff b off v).1 there
    apply ext_byte (length_store16 b off v)
    intro i
    by_cases first : i = off
    · rw [first, byte_store16_low b off v (by omega), low]
    · by_cases second : i = off + 1
      · rw [second, byte_store16_high b off v h, high]
      · exact byte_store16_of_ne b off i v first second

@[simp] theorem length_store32 (v : BitVec 32) : (b.store32 off v).length = b.length := by
  unfold store32
  rw [length_store16, length_store16]

theorem byte_store32_of_outside (v : BitVec 32) (h : i < off ∨ off + 4 ≤ i) :
    (b.store32 off v).byte i = b.byte i := by
  unfold store32
  rw [byte_store16_of_ne _ _ _ _ (by omega) (by omega),
    byte_store16_of_ne _ _ _ _ (by omega) (by omega)]

theorem load32_eq_append : b.load32 off = b.load16 (off + 2) ++ b.load16 off := by
  unfold load32 load16
  apply BitVec.eq_of_toNat_eq
  simp only [toNat_append_eq, show off + 2 + 1 = off + 3 from rfl]
  omega

theorem load32_congr {b b' : Buffer} {off : ℕ}
    (h : ∀ i, off ≤ i → i < off + 4 → b'.byte i = b.byte i) : b'.load32 off = b.load32 off := by
  rw [load32_eq_append, load32_eq_append, load16_congr fun i low high => h i low (by omega),
    load16_congr fun i low high => h i (by omega) (by omega)]

theorem load32_store16_of_disjoint {off j : ℕ} (v : BitVec 16) (h : j + 3 < off ∨ off + 1 < j) :
    (b.store16 off v).load32 j = b.load32 j := by
  rw [load32_eq_append, load32_eq_append, load16_store16_of_disjoint b v (by omega),
    load16_store16_of_disjoint b v (by omega)]

theorem load32_store32 (v : BitVec 32) (h : off + 3 < b.length) :
    (b.store32 off v).load32 off = v := by
  unfold store32
  rw [load32_eq_append, load16_store16 _ _ _ (by rw [length_store16]; exact h),
    load16_store16_of_disjoint _ _ (by omega), load16_store16 _ _ _ (by omega)]
  apply BitVec.eq_of_toNat_eq
  have bound := v.isLt
  rw [toNat_append_eq, BitVec.extractLsb'_toNat, BitVec.extractLsb'_toNat,
    Nat.shiftRight_eq_div_pow, Nat.shiftRight_eq_div_pow]
  omega

theorem byte_storeBytes (src : Buffer) :
    (b.storeBytes off src).byte i =
      if off ≤ i ∧ i < off + src.length ∧ i < b.length then src.byte (i - off) else b.byte i := by
  unfold storeBytes
  rw [byte_eq, List.getElem?_mapIdx, byte_eq b i]
  by_cases h : i < b.length
  · rw [List.getElem?_eq_getElem h, Option.map_some, Option.getD_some, Option.getD_some]
    by_cases inside : off ≤ i ∧ i < off + src.length
    · rw [if_pos inside, if_pos ⟨inside.1, inside.2, h⟩]
    · rw [if_neg inside, if_neg (fun c => inside ⟨c.1, c.2.1⟩)]
  · rw [List.getElem?_eq_none (Nat.le_of_not_lt h), if_neg (fun c => h c.2.2)]
    rfl

theorem byte_storeBytes_of_outside (src : Buffer) (h : i < off ∨ off + src.length ≤ i) :
    (b.storeBytes off src).byte i = b.byte i := by
  rw [byte_storeBytes, if_neg (by omega)]

end Buffer

/-! ## The checksum -/

def onesAdd (a b : BitVec 16) : BitVec 16 :=
  BitVec.ofNat 16 ((a.toNat + b.toNat) % 65536 + (a.toNat + b.toNat) / 65536)

def onesSum (words : List (BitVec 16)) : BitVec 16 := words.foldr onesAdd 0

theorem toNat_onesAdd (a b : BitVec 16) :
    (onesAdd a b).toNat = (a.toNat + b.toNat) % 65536 + (a.toNat + b.toNat) / 65536 := by
  have ha := a.isLt
  have hb := b.isLt
  unfold onesAdd
  rw [BitVec.toNat_ofNat]
  omega

theorem toNat_onesAdd_mod (a b : BitVec 16) :
    (onesAdd a b).toNat % 65535 = (a.toNat + b.toNat) % 65535 := by
  rw [toNat_onesAdd]
  omega

theorem toNat_onesAdd_eq_zero (a b : BitVec 16) :
    (onesAdd a b).toNat = 0 ↔ a.toNat = 0 ∧ b.toNat = 0 := by
  rw [toNat_onesAdd]
  omega

def total (words : List (BitVec 16)) : ℕ := (words.map BitVec.toNat).sum

@[simp] theorem total_nil : total [] = 0 := rfl

@[simp] theorem total_cons (w : BitVec 16) (words : List (BitVec 16)) :
    total (w :: words) = w.toNat + total words := by
  unfold total
  rw [List.map_cons, List.sum_cons]

@[simp] theorem total_append (ws vs : List (BitVec 16)) : total (ws ++ vs) = total ws + total vs := by
  unfold total
  rw [List.map_append, List.sum_append]

theorem onesSum_mod (words : List (BitVec 16)) :
    (onesSum words).toNat % 65535 = total words % 65535 := by
  induction words with
  | nil => rfl
  | cons w words ih =>
    have step : (onesSum (w :: words)).toNat % 65535 = (w.toNat + (onesSum words).toNat) % 65535 :=
      toNat_onesAdd_mod w (onesSum words)
    rw [step, total_cons]
    omega

theorem onesSum_eq_zero (words : List (BitVec 16)) :
    (onesSum words).toNat = 0 ↔ total words = 0 := by
  induction words with
  | nil => exact iff_of_true rfl rfl
  | cons w words ih =>
    have step : (onesSum (w :: words)).toNat = 0 ↔ w.toNat = 0 ∧ (onesSum words).toNat = 0 :=
      toNat_onesAdd_eq_zero w (onesSum words)
    rw [step, ih, total_cons]
    omega

def ChecksumOk (words : List (BitVec 16)) : Prop := onesSum words = 0xFFFF#16

instance (words : List (BitVec 16)) : Decidable (ChecksumOk words) :=
  inferInstanceAs (Decidable (_ = _))

/-- Words are taken when they are not all zero and add up to zero modulo 65535. -/
theorem checksumOk_iff (words : List (BitVec 16)) :
    ChecksumOk words ↔ total words % 65535 = 0 ∧ total words ≠ 0 := by
  have mod := onesSum_mod words
  have zero := onesSum_eq_zero words
  have bound := (onesSum words).isLt
  have ones : ChecksumOk words ↔ (onesSum words).toNat = 65535 :=
    ⟨fun h => congrArg BitVec.toNat h, fun h => BitVec.eq_of_toNat_eq h⟩
  rw [ones]
  omega

/-- Words that count the same modulo 65535 and are not all zero are taken together. -/
theorem ChecksumOk.of_mod {ws vs : List (BitVec 16)} (h : ChecksumOk ws)
    (same : total vs % 65535 = total ws % 65535) (some : total vs ≠ 0) : ChecksumOk vs := by
  rw [checksumOk_iff] at h ⊢
  exact ⟨same.trans h.1, some⟩

namespace Buffer

/-- The words of a header of `n` words. -/
def words (b : Buffer) (off n : ℕ) : List (BitVec 16) :=
  (List.range n).map fun i => b.load16 (off + 2 * i)

theorem words_add (b : Buffer) (off n m : ℕ) :
    b.words off (n + m) = b.words off n ++ b.words (off + 2 * n) m := by
  unfold words
  rw [List.range_add, List.map_append, List.map_map]
  congr 1
  apply List.map_congr_left
  intro i _
  apply congrArg b.load16
  show off + 2 * (n + i) = off + 2 * n + 2 * i
  omega

theorem words_one (b : Buffer) (off : ℕ) : b.words off 1 = [b.load16 off] := rfl

theorem words_congr {b b' : Buffer} {off n : ℕ}
    (h : ∀ i, off ≤ i → i < off + 2 * n → b'.byte i = b.byte i) : b'.words off n = b.words off n := by
  unfold words
  apply List.map_congr_left
  intro i hi
  have inside := List.mem_range.1 hi
  unfold load16
  rw [h (off + 2 * i) (by omega) (by omega), h (off + 2 * i + 1) (by omega) (by omega)]

end Buffer

end Polycube.Lib
