import Mathlib.Data.BitVec
import Mathlib.Data.Nat.Bitwise

/-!
# Bits in words

A set of numbers as an array of 64-bit words, `b` numbers a word: number `k` is bit `k % b` of
word `k / b`.  Loops over the array run over its first `m` words.
-/

namespace Polycube.Lib

section Lowest

variable {w : ℕ} {x : BitVec w} {k : ℕ}

/-- Bit `k` is the lowest set bit. -/
def LowestBit (x : BitVec w) (k : ℕ) : Prop :=
  x.getLsbD k = true ∧ ∀ j < k, x.getLsbD j = false

theorem LowestBit.lt (h : LowestBit x k) : k < w := BitVec.lt_of_getLsbD h.1

theorem LowestBit.toNat_mod (h : LowestBit x k) : x.toNat % 2 ^ (k + 1) = 2 ^ k := by
  apply Nat.eq_of_testBit_eq
  intro i
  rw [Nat.testBit_mod_two_pow, Nat.testBit_two_pow]
  rcases lt_trichotomy i k with hi | rfl | hi
  · have low : x.toNat.testBit i = false := h.2 i hi
    simp [low, hi.ne']
  · have here : x.toNat.testBit i = true := h.1
    simp [here]
  · simp [show ¬ i < k + 1 by omega, hi.ne]

/-- Subtracting one turns the bits up to the lowest set one, and no others. -/
theorem LowestBit.xor_sub_one (h : LowestBit x k) :
    x ^^^ (x - 1#w) = BitVec.ofNat w (2 ^ (k + 1) - 1) := by
  have split : x.toNat = 2 ^ (k + 1) * (x.toNat / 2 ^ (k + 1)) + 2 ^ k := by
    conv_lhs => rw [← Nat.div_add_mod x.toNat (2 ^ (k + 1)), h.toNat_mod]
  have hpos : 0 < 2 ^ k := Nat.two_pow_pos k
  have hpow : 2 ^ (k + 1) = 2 * 2 ^ k := by rw [Nat.pow_succ, Nat.mul_comm]
  set m := x.toNat / 2 ^ (k + 1) with hm
  have one : 1 ≤ x.toNat := by omega
  have pred : (x - 1#w).toNat = 2 ^ (k + 1) * m + (2 ^ k - 1) := by
    have hw : 1 < 2 ^ w := by
      have := x.isLt
      have : k < w := h.lt
      exact Nat.one_lt_two_pow (by omega)
    rw [BitVec.toNat_sub_of_le (by simp [BitVec.le_def, Nat.mod_eq_of_lt hw, one])]
    simp only [BitVec.toNat_ofNat, Nat.mod_eq_of_lt hw]
    omega
  apply BitVec.eq_of_toNat_eq
  apply Nat.eq_of_testBit_eq
  intro i
  have low : 2 ^ k < 2 ^ (k + 1) := by omega
  have low' : 2 ^ k - 1 < 2 ^ (k + 1) := by omega
  rw [BitVec.toNat_xor, Nat.testBit_xor, pred]
  conv_lhs => rw [split]
  rw [Nat.testBit_two_pow_mul_add m low, Nat.testBit_two_pow_mul_add m low',
    BitVec.toNat_ofNat, Nat.testBit_mod_two_pow, Nat.testBit_two_pow_sub_one]
  by_cases hi : i < k + 1
  · have hiw : i < w := by have := h.lt; omega
    simp only [hi, if_true, Nat.testBit_two_pow, Nat.testBit_two_pow_sub_one, hiw, decide_true,
      Bool.and_true]
    rcases Nat.lt_or_ge i k with hik | hik
    · simp [hik, hik.ne']
    · simp [show i = k by omega]
  · simp [hi]

end Lowest

/-! ### Arrays of words -/

abbrev Words (n : ℕ) := Fin n → BitVec 64

namespace Words

variable {n : ℕ}

def zero : Words n := fun _ => 0

def word (ws : Words n) (i : ℕ) : BitVec 64 := if h : i < n then ws ⟨i, h⟩ else 0

def setWord (ws : Words n) (i : ℕ) (x : BitVec 64) : Words n := fun j =>
  if j.val = i then x else ws j

variable (b : ℕ)

def setBit (ws : Words n) (k : ℕ) : Words n := fun i =>
  if i.val = k / b then ws i ||| 1#64 <<< (k % b) else ws i

def has (ws : Words n) (k : ℕ) : Bool := (ws.word (k / b)).getLsbD (k % b)

/-- In the first `m` words no bit past the numbers of a word is set. -/
def Tight (m : ℕ) (ws : Words n) : Prop := ∀ i < m, ∀ j, b ≤ j → (ws.word i).getLsbD j = false

/-- Intersect the first `m` words. -/
def inter (m : ℕ) (ws vs : Words n) : Words n := fun i =>
  if i.val < m then ws i &&& vs i else ws i

/-- The first `m` words are all zero. -/
def isAllZero (m : ℕ) (ws : Words n) : Bool := (List.range m).all fun i => ws.word i == 0

/-- The first of `m` words that is not zero has the least number, its bit is found by `low`. -/
def scan (low : BitVec 64 → ℕ) (m : ℕ) (ws : Words n) : Option ℕ :=
  ((List.range m).find? fun i => ws.word i != 0).map fun i => low (ws.word i) + i * b

variable {b} {ws vs : Words n} {j k m : ℕ}

theorem word_setWord {i : ℕ} {x : BitVec 64} (hi : i < n) : (ws.setWord i x).word i = x := by
  simp [word, setWord, hi]

@[simp] theorem has_zero (k : ℕ) : (zero : Words n).has b k = false := by
  unfold has word zero
  split <;> simp

theorem has_setBit (hb : 0 < b) (hb64 : b ≤ 64) (hk : k / b < n) :
    (ws.setBit b k).has b j = (decide (j = k) || ws.has b j) := by
  unfold has word setBit
  have hmod : k % b < 64 := by have := Nat.mod_lt k hb; omega
  by_cases hj : j / b < n
  · simp only [hj, dif_pos]
    by_cases hsame : j / b = k / b
    · have same : j = k ↔ j % b = k % b := by
        constructor
        · rintro rfl; rfl
        · intro e
          rw [← Nat.div_add_mod j b, ← Nat.div_add_mod k b, hsame, e]
      have hjmod : j % b < 64 := by have := Nat.mod_lt j hb; omega
      simp only [hsame, if_true, BitVec.getLsbD_or, BitVec.getLsbD_shiftLeft, BitVec.getLsbD_one,
        hjmod, decide_true, Bool.true_and, same]
      by_cases e : j % b = k % b
      · simp [e]
      · have : ¬ (¬ j % b < k % b ∧ j % b - k % b = 0) := by omega
        by_cases hlt : j % b < k % b
        · simp [e, hlt]
        · simp [e, hlt, show j % b - k % b ≠ 0 by omega]
    · have : j ≠ k := by rintro rfl; exact hsame rfl
      simp [hsame, this]
  · have : j ≠ k := by rintro rfl; exact hj hk
    simp [hj, this]

theorem has_inter (hj : j / b < m) :
    (inter m ws vs).has b j = (ws.has b j && vs.has b j) := by
  unfold has word inter
  by_cases hn : j / b < n
  · simp [hn, hj]
  · simp [hn]

theorem Tight.inter (h : ws.Tight b m) : (inter m ws vs).Tight b m := by
  intro i hm j hj
  have hi := h i hm j hj
  unfold word at hi ⊢
  unfold Words.inter
  by_cases hn : i < n
  · simp only [hn, dif_pos] at hi ⊢
    by_cases hm : i < m
    · simp [hm, hi]
    · simpa [hm] using hi
  · simp [hn]

theorem has_mul_add (hj : j < b) (i : ℕ) : ws.has b (i * b + j) = (ws.word i).getLsbD j := by
  unfold has
  rw [Nat.mul_comm i b, Nat.mul_add_div (by omega), Nat.div_eq_of_lt hj, Nat.mul_add_mod,
    Nat.mod_eq_of_lt hj, Nat.add_zero]

theorem Tight.word_eq_zero_iff (h : ws.Tight b m) {i : ℕ} (hi : i < m) :
    ws.word i = 0 ↔ ∀ j < b, ws.has b (i * b + j) = false := by
  constructor
  · intro e j hj
    rw [has_mul_add hj, e]
    simp
  · intro none
    apply BitVec.eq_of_getLsbD_eq
    intro j _
    rcases Nat.lt_or_ge j b with hj | hj
    · rw [← has_mul_add hj, none j hj]
      simp
    · rw [h i hi j hj]
      simp

/-- The loop finds only zero words when the array holds no number. -/
theorem Tight.isAllZero_iff (h : ws.Tight b m) (hb : 0 < b) :
    ws.isAllZero m = true ↔ ∀ k < m * b, ws.has b k = false := by
  simp only [isAllZero, List.all_eq_true, List.mem_range, beq_iff_eq]
  constructor
  · intro none k hk
    have hi : k / b < m := (Nat.div_lt_iff_lt_mul hb).2 hk
    have := (h.word_eq_zero_iff hi).1 (none _ hi) (k % b) (Nat.mod_lt k hb)
    rwa [Nat.mul_comm, Nat.div_add_mod] at this
  · intro none i hi
    rw [h.word_eq_zero_iff hi]
    intro j hj
    apply none
    calc i * b + j < i * b + b := by omega
      _ = (i + 1) * b := by rw [Nat.add_mul, Nat.one_mul]
      _ ≤ m * b := Nat.mul_le_mul_right b hi

theorem Tight.scan_eq_some (h : ws.Tight b m) (hb : 0 < b) {low : BitVec 64 → ℕ}
    (hlow : ∀ x k, LowestBit x k → low x = k) (hk : k < m * b) (has_k : ws.has b k = true)
    (least : ∀ j < k, ws.has b j = false) : ws.scan b low m = some k := by
  have hmod : k % b < b := Nat.mod_lt k hb
  have hword : k / b < m := (Nat.div_lt_iff_lt_mul hb).2 hk
  have here : ws.word (k / b) ≠ 0 := by
    intro e
    have := (h.word_eq_zero_iff hword).1 e (k % b) hmod
    rw [Nat.mul_comm, Nat.div_add_mod, has_k] at this
    cases this
  have before : ∀ i < k / b, ws.word i = 0 := by
    intro i hi
    rw [h.word_eq_zero_iff (hi.trans hword)]
    intro j hj
    apply least
    calc i * b + j < i * b + b := by omega
      _ = (i + 1) * b := by rw [Nat.add_mul, Nat.one_mul]
      _ ≤ k / b * b := Nat.mul_le_mul_right b hi
      _ ≤ k := Nat.div_mul_le_self k b
  have lowest : LowestBit (ws.word (k / b)) (k % b) := by
    refine ⟨has_k, fun j hj => ?_⟩
    rw [← has_mul_add (hj.trans hmod)]
    apply least
    calc k / b * b + j < k / b * b + k % b := by omega
      _ = k := Nat.div_add_mod' k b
  have first : (List.range m).find? (fun i => ws.word i != 0) = some (k / b) := by
    rw [List.find?_range_eq_some]
    refine ⟨by simpa using here, ?_, fun i hi => by simp [before i hi]⟩
    exact List.mem_range.2 hword
  rw [scan, first, Option.map_some, hlow _ _ lowest, Nat.add_comm, Nat.div_add_mod']

end Words

end Polycube.Lib
