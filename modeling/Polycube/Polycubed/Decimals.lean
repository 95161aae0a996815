import Mathlib

/-!
# Decimals

A `Decimal64` is a number without its point, and the digits behind it.  `lexical_cast` reads what
is before and what is behind the point as two numbers with signs of their own, and puts them
together with a scale of 32 bits; the comparisons look at the number without its point.
-/

namespace Polycube.Polycubed.Decimals

/-- `isspace` -/
def isSpace (c : Char) : Bool := c ∈ [' ', '\t', '\n', '\x0b', '\x0c', '\r']

def sign : List Char → Bool × List Char
  | '-' :: s => (true, s)
  | '+' :: s => (false, s)
  | s => (false, s)

def number (digits : List Char) : ℕ := Nat.ofDigitChars 10 digits 0

def signed (negative : Bool) (n : ℕ) : ℤ := if negative then -n else n

def Int64 (i : ℤ) : Prop := -2 ^ 63 ≤ i ∧ i < 2 ^ 63

instance : DecidablePred Int64 := fun _ => inferInstanceAs (Decidable (_ ∧ _))

/-- `std::stoll`: the number, and what is behind it; or an exception. -/
def stoll (s : List Char) : Option (ℤ × List Char) :=
  let (negative, s) := sign (s.dropWhile isSpace)
  let digits := s.takeWhile Char.isDigit
  let i := signed negative (number digits)
  if digits = [] ∨ ¬Int64 i then none else some (i, s.dropWhile Char.isDigit)

/-! ### `Decimal64` -/

structure Decimal64 where
  value : ℤ
  fractionDigits : BitVec 8
  deriving DecidableEq

namespace Decimal64

def mk' (value : ℤ) (base10Exponent : ℕ) : Decimal64 := ⟨value, -BitVec.ofNat 8 base10Exponent⟩

/-- `FractionDigits` -/
def digits (d : Decimal64) : ℕ := (-d.fractionDigits).toNat

variable (d other : Decimal64)

def eq : Bool := d.value = other.value && d.fractionDigits = other.fractionDigits

def lt : Bool := d.value < other.value

def gt : Bool := other.lt d

def le : Bool := !d.gt other

def ge : Bool := !d.lt other

def toRat : ℚ := d.value / 10 ^ d.digits

end Decimal64

inductive Cast
  | returns (d : Decimal64)
  | throws
  | undefined
  deriving DecidableEq

def shift : ℕ → BitVec 32
  | 0 => 1
  | i + 1 => shift i * 10

/-- `lexical_cast<Decimal64>`.  An overflow is not defined. -/
def lexicalCast (s : List Char) : Cast :=
  match stoll s with
  | none => .throws
  | some (numerator, []) => .returns (.mk' numerator 0)
  | some (numerator, c :: denominatorStr) =>
    if c ≠ '.' then .throws
    else if denominatorStr = [] then .returns (.mk' numerator 0)
    else
      let fractionDigits := denominatorStr.length % 2 ^ 8
      if 18 < fractionDigits then .throws
      else
        match stoll denominatorStr with
        | none => .throws
        | some (denominator, rest) =>
          if denominatorStr.length - rest.length ≠ fractionDigits then .throws
          else
            let scaled := numerator * (shift fractionDigits).toNat
            if Int64 scaled ∧ Int64 (scaled + denominator) then
              .returns (.mk' (scaled + denominator) fractionDigits)
            else .undefined

structure Literal where
  negative : Bool
  whole : List Char
  fraction : List Char

def literal (s : List Char) : Option Literal :=
  let (negative, s) := sign s
  let whole := s.takeWhile Char.isDigit
  match s.dropWhile Char.isDigit with
  | [] => if whole = [] then none else some ⟨negative, whole, []⟩
  | c :: fraction =>
    if whole = [] ∨ c ≠ '.' ∨ fraction = [] ∨ fraction.any (!·.isDigit) then none
    else some ⟨negative, whole, fraction⟩

namespace Literal

variable (l : Literal)

def scaled : ℤ := signed l.negative (number (l.whole ++ l.fraction))

def Fits : Prop := l.fraction.length ≤ 18 ∧ Int64 l.scaled

instance : DecidablePred Fits := fun _ => inferInstanceAs (Decidable (_ ∧ _))

end Literal

def ReadsExactly (s : List Char) : Prop :=
  match (literal s).filter (·.Fits) with
  | some l => ∃ d, lexicalCast s = .returns d ∧ d.toRat = l.scaled / 10 ^ l.fraction.length
  | none => lexicalCast s = .throws

/-- The operators order two values as the numbers they denote. -/
def Ordered (a b : Decimal64) : Prop :=
  (a.eq b = true ↔ a.toRat = b.toRat) ∧ (a.lt b = true ↔ a.toRat < b.toRat) ∧
    (a.gt b = true ↔ a.toRat > b.toRat) ∧ (a.le b = true ↔ a.toRat ≤ b.toRat) ∧
    (a.ge b = true ↔ a.toRat ≥ b.toRat)

/-! ### When it holds -/

/-- Nothing is behind the point; or the digits there are not those of a negative number, and at most
nine of them, or there are only zeros before it. -/
def Literal.Simple (l : Literal) : Prop :=
  l.fraction = [] ∨ ((l.negative = true → number l.fraction = 0) ∧
    (l.fraction.length ≤ 9 ∨ number l.whole = 0))

/-- A number, and behind it nothing, or a point, with nothing behind it or another number, which has
as many characters as the rest of the text, up to a multiple of 256. -/
def Passable (s : List Char) : Prop :=
  ∃ i rest, stoll s = some (i, rest) ∧ (rest = [] ∨ ∃ t, rest = '.' :: t ∧ (t = [] ∨
    (t.length % 2 ^ 8 ≤ 18 ∧ ∃ j rest, stoll t = some (j, rest) ∧
      t.length - rest.length = t.length % 2 ^ 8)))

/-- A literal that fits is simple; one that does not has more than 18 digits behind the point, or too
large a number before it; another text is not passable. -/
def Fine (s : List Char) : Prop :=
  match literal s with
  | some l => if l.Fits then l.Simple
      else 18 < l.fraction.length ∨ ¬Int64 (signed l.negative (number l.whole))
  | none => ¬Passable s

/-- They have the same number of digits behind the point, or are in one order as they are and when
they have. -/
def Comparable (a b : Decimal64) : Prop :=
  a.digits = b.digits ∨
    (a.value < b.value ∧ a.value * 10 ^ (b.digits - a.digits) < b.value * 10 ^ (a.digits - b.digits)) ∨
    (b.value < a.value ∧ b.value * 10 ^ (a.digits - b.digits) < a.value * 10 ^ (b.digits - a.digits))

variable {s digits : List Char} {l : Literal} {c : Char}

theorem sign_of_ne (minus : c ≠ '-') (plus : c ≠ '+') : sign (c :: s) = (false, c :: s) := by
  unfold sign
  split <;> simp_all

theorem sign_of_digit (digit : c.isDigit = true) : sign (c :: s) = (false, c :: s) := by
  apply sign_of_ne
  · rintro rfl
    exact absurd digit (by decide)
  · rintro rfl
    exact absurd digit (by decide)

theorem of_isSpace (space : isSpace c = true) : c.isDigit = false ∧ c ≠ '-' ∧ c ≠ '+' := by
  simp only [isSpace, List.mem_cons, List.not_mem_nil, or_false, decide_eq_true_eq] at space
  rcases space with rfl | rfl | rfl | rfl | rfl | rfl <;> decide

theorem dropWhile_of_literal (h : literal s = some l) : s.dropWhile isSpace = s := by
  cases s with
  | nil => rfl
  | cons c s =>
    cases space : isSpace c with
    | false => rw [List.dropWhile_cons_of_neg (by simp [space])]
    | true =>
      obtain ⟨digit, minus, plus⟩ := of_isSpace space
      unfold literal at h
      rw [sign_of_ne minus plus] at h
      simp [digit] at h

theorem stoll_of_literal (h : literal s = some l) :
    stoll s = if Int64 (signed l.negative (number l.whole)) then
      some (signed l.negative (number l.whole), if l.fraction = [] then [] else '.' :: l.fraction)
      else none := by
  unfold stoll
  rw [dropWhile_of_literal h]
  unfold literal at h
  generalize sign s = signed' at h ⊢
  obtain ⟨negative, rest⟩ := signed'
  dsimp only at h ⊢
  split at h
  · rename_i behind
    split_ifs at h with none
    cases h
    simp [none, behind]
  · rename_i c fraction behind
    split_ifs at h with none
    cases h
    push Not at none
    obtain ⟨digits, rfl, some, -⟩ := none
    simp [digits, behind, some]

theorem literal_of_digits (digits : ∀ c ∈ s, c.isDigit = true) (any : s ≠ []) :
    literal s = some ⟨false, s, []⟩ := by
  have plain : sign s = (false, s) := by
    cases s with
    | nil => rfl
    | cons c s => exact sign_of_digit (digits c List.mem_cons_self)
  unfold literal
  rw [plain]
  simp [List.takeWhile_eq_self_iff.2 digits, List.dropWhile_eq_nil_iff.2 digits, any]

theorem number_lt (h : ∀ c ∈ digits, c.isDigit = true) : number digits < 10 ^ digits.length := by
  induction digits with
  | nil => decide
  | cons c digits ih =>
    have rest := ih fun c' hc => h c' (List.mem_cons_of_mem c hc)
    have small : c.toNat - '0'.toNat ≤ 9 := by
      have digit := h c List.mem_cons_self
      rw [Char.isDigit, Bool.and_eq_true, decide_eq_true_iff, decide_eq_true_iff] at digit
      have high : c.val.toNat ≤ 57 := digit.2
      show c.val.toNat - 48 ≤ 9
      omega
    unfold number at rest ⊢
    rw [Nat.ofDigitChars_cons, Nat.ofDigitChars_eq_ofDigitChars_zero, List.length_cons, pow_succ]
    nlinarith

theorem number_append (w f : List Char) :
    number (w ++ f) = 10 ^ f.length * number w + number f := by
  unfold number
  rw [Nat.ofDigitChars_append, Nat.ofDigitChars_eq_ofDigitChars_zero]

theorem digits_of_literal (h : literal s = some l) : ∀ c ∈ l.fraction, c.isDigit = true := by
  unfold literal at h
  dsimp only at h
  split at h
  · split_ifs at h
    cases h
    exact List.forall_mem_nil _
  · split_ifs at h with none
    cases h
    push Not at none
    simpa using none.2.2.2

theorem shift_toNat (k : ℕ) : (shift k).toNat = 10 ^ k % 2 ^ 32 := by
  induction k with
  | zero => rfl
  | succ k ih =>
    rw [shift, BitVec.toNat_mul, ih, pow_succ]
    show 10 ^ k % 2 ^ 32 * 10 % 2 ^ 32 = _
    omega

theorem stoll_fraction (h : literal s = some l) (any : l.fraction ≠ [])
    (few : l.fraction.length ≤ 18) : stoll l.fraction = some ((number l.fraction : ℤ), []) := by
  have digits := digits_of_literal h
  have small := number_lt digits
  have bound : 10 ^ l.fraction.length ≤ 10 ^ 18 := Nat.pow_le_pow_right (by decide) few
  rw [stoll_of_literal (literal_of_digits digits any), if_pos]
  · rfl
  · show Int64 (number l.fraction : ℤ)
    unfold Int64
    omega

theorem lexicalCast_of_literal (h : literal s = some l) :
    lexicalCast s = if ¬Int64 (signed l.negative (number l.whole)) then .throws
      else if l.fraction = [] then .returns (.mk' (signed l.negative (number l.whole)) 0)
      else if 18 < l.fraction.length then .throws
      else
        let scaled := signed l.negative (number l.whole) * (10 ^ l.fraction.length % 2 ^ 32 : ℕ)
        if Int64 scaled ∧ Int64 (scaled + number l.fraction) then
          .returns (.mk' (scaled + number l.fraction) l.fraction.length)
        else .undefined := by
  unfold lexicalCast
  rw [stoll_of_literal h]
  by_cases fits : Int64 (signed l.negative (number l.whole))
  · rw [if_pos fits, if_neg (not_not.2 fits)]
    by_cases any : l.fraction = []
    · simp [any]
    · simp only [if_neg any]
      rw [if_neg (by simp)]
      by_cases few : l.fraction.length ≤ 18
      · rw [Nat.mod_eq_of_lt (by omega), if_neg (by omega), if_neg (by omega),
          stoll_fraction h any few]
        simp [shift_toNat]
      · rw [if_pos (by omega : 18 < l.fraction.length)]
        split_ifs with more
        · rfl
        rw [stoll_of_literal (literal_of_digits (digits_of_literal h) any)]
        split_ifs with _ same
        · exact if_pos (show l.fraction.length - 0 ≠ _ by omega)
        · exact absurd rfl same
        · rfl
  · rw [if_neg fits, if_pos fits]

theorem digits_mk' {v : ℤ} {k : ℕ} (small : k ≤ 18) : (Decimal64.mk' v k).digits = k := by
  unfold Decimal64.mk' Decimal64.digits
  rw [neg_neg, BitVec.toNat_ofNat]
  omega

theorem toRat_mk' {v : ℤ} {k : ℕ} (small : k ≤ 18) {i : ℤ} :
    (Decimal64.mk' v k).toRat = i / 10 ^ k ↔ v = i := by
  unfold Decimal64.toRat
  rw [digits_mk' small, div_left_inj' (by positivity)]
  exact Int.cast_inj

/-- What is before the point and what is behind it are put together as one number. -/
theorem scaled_eq (l : Literal) : l.scaled =
    signed l.negative (10 ^ l.fraction.length * number l.whole + number l.fraction) := by
  rw [Literal.scaled, number_append]

section

variable {negative : Bool} {n f p q : ℕ}

/-- With a scale `q` for `p` that is not larger, nothing overflows that fits with `p`. -/
theorem int64_of_fits (le : q ≤ p) (small : f < 10 ^ 18)
    (fits : Int64 (signed negative (p * n + f))) :
    Int64 (signed negative n * q) ∧ Int64 (signed negative n * q + f) := by
  have less : n * q ≤ p * n := by
    rw [Nat.mul_comm p]
    exact Nat.mul_le_mul_left n le
  zify at less small
  unfold Int64 signed at *
  cases negative
  · simp only [Bool.false_eq_true, if_false, Nat.cast_add, Nat.cast_mul] at fits ⊢
    constructor <;> constructor <;> nlinarith
  · simp only [if_true, Nat.cast_add, Nat.cast_mul, neg_mul] at fits ⊢
    constructor <;> constructor <;> nlinarith

theorem joined_iff (le : q ≤ p) : signed negative n * q + f = signed negative (p * n + f) ↔
    (negative = true → f = 0) ∧ (q = p ∨ n = 0) := by
  have less : n * q ≤ p * n := by
    rw [Nat.mul_comm p]
    exact Nat.mul_le_mul_left n le
  have same : n * q = p * n ↔ q = p ∨ n = 0 := by
    rw [Nat.mul_comm p]
    exact mul_eq_mul_left_iff
  rw [← same]
  unfold signed
  cases negative
  · simp only [Bool.false_eq_true, if_false, false_implies, true_and]
    norm_cast
    omega
  · simp only [if_true, neg_mul, true_implies]
    zify at less ⊢
    generalize (n * q : ℤ) = a at *
    generalize (p * n : ℤ) = b at *
    omega

end

theorem exact_of_fits (h : literal s = some l) (fits : l.Fits) :
    (∃ d, lexicalCast s = .returns d ∧ d.toRat = l.scaled / 10 ^ l.fraction.length) ↔ l.Simple := by
  obtain ⟨few, fits⟩ := fits
  have small := number_lt (digits_of_literal h)
  rw [lexicalCast_of_literal h]
  unfold Literal.Simple
  by_cases any : l.fraction = []
  · have whole : l.scaled = signed l.negative (number l.whole) := by
      rw [Literal.scaled, any, List.append_nil]
    rw [if_neg (not_not.2 (whole ▸ fits)), if_pos any]
    refine iff_of_true ⟨_, rfl, ?_⟩ (.inl any)
    rw [whole, any]
    exact (toRat_mk' (Nat.zero_le _)).2 rfl
  rw [or_iff_right any]
  rw [scaled_eq] at fits ⊢
  have scale : 10 ^ l.fraction.length % 2 ^ 32 = 10 ^ l.fraction.length ↔
      l.fraction.length ≤ 9 := by
    rw [Nat.mod_eq_iff_lt (by decide)]
    constructor
    · intro lt
      by_contra many
      have ten : 10 ^ 10 ≤ 10 ^ l.fraction.length := Nat.pow_le_pow_right (by decide) (by omega)
      omega
    · intro nine
      exact (Nat.pow_le_pow_right (by decide) nine).trans_lt (by decide)
  have le : 10 ^ l.fraction.length % 2 ^ 32 ≤ 10 ^ l.fraction.length := Nat.mod_le _ _
  have bound : number l.fraction < 10 ^ 18 :=
    small.trans_le (Nat.pow_le_pow_right (by decide) few)
  have whole : Int64 (signed l.negative (number l.whole)) := by
    simpa using (int64_of_fits (q := 1) (Nat.one_le_pow _ _ (by decide)) bound fits).1
  rw [← scale, ← joined_iff le, if_neg (not_not.2 whole), if_neg any, if_neg (by omega)]
  rw [if_pos (int64_of_fits le bound fits), ← toRat_mk' few]
  simp

theorem throws_of_not_fits (h : literal s = some l) (fits : ¬l.Fits) :
    lexicalCast s = .throws ↔
      18 < l.fraction.length ∨ ¬Int64 (signed l.negative (number l.whole)) := by
  rw [lexicalCast_of_literal h]
  by_cases whole : Int64 (signed l.negative (number l.whole))
  · rw [if_neg (not_not.2 whole), or_iff_left (not_not.2 whole)]
    by_cases any : l.fraction = []
    · refine absurd ⟨?_, ?_⟩ fits
      · rw [any]
        exact Nat.zero_le _
      · rwa [Literal.scaled, any, List.append_nil]
    · rw [if_neg any]
      by_cases many : 18 < l.fraction.length
      · rw [if_pos many]
        exact iff_of_true rfl many
      · rw [if_neg many]
        refine iff_of_false ?_ many
        dsimp only
        split_ifs <;> simp
  · rw [if_pos whole]
    exact iff_of_true rfl (.inr whole)

theorem throws_iff : lexicalCast s = .throws ↔ ¬Passable s := by
  unfold lexicalCast Passable
  cases stoll s with
  | none => simp
  | some read =>
    obtain ⟨i, rest⟩ := read
    cases rest with
    | nil => simp
    | cons c t =>
      by_cases point : c = '.'
      · subst point
        by_cases none : t = []
        · simp [none]
        · cases behind : stoll t with
          | none => simp [none, behind]
          | some read =>
            obtain ⟨j, rest⟩ := read
            have defined : ∀ (p : Prop) [Decidable p] (d : Decimal64),
                (if p then Cast.returns d else .undefined) ≠ .throws := by
              intro p _ d
              split_ifs <;> simp
            simp [none, behind, defined]
      · simp [point]

theorem readsExactly_iff (s : List Char) : ReadsExactly s ↔ Fine s := by
  unfold ReadsExactly Fine
  cases h : literal s with
  | none => exact throws_iff
  | some l =>
    by_cases fits : l.Fits
    · simp only [Option.filter_some, fits, decide_true, if_true]
      exact exact_of_fits h fits
    · simp only [Option.filter_some, fits, decide_false, Bool.false_eq_true, if_false]
      exact throws_of_not_fits h fits

theorem digits_eq_iff {a b : Decimal64} : a.digits = b.digits ↔
    a.fractionDigits = b.fractionDigits := by
  rw [Decimal64.digits, Decimal64.digits, BitVec.toNat_inj, neg_inj]

/-- The number with as many digits behind the point as the other one has, if it has more. -/
theorem toRat_eq (a b : Decimal64) : a.toRat =
    (a.value * 10 ^ (b.digits - a.digits) : ℤ) / 10 ^ max a.digits b.digits := by
  have digits : max a.digits b.digits = a.digits + (b.digits - a.digits) := by omega
  unfold Decimal64.toRat
  rw [digits, pow_add, Int.cast_mul, Int.cast_pow]
  exact (mul_div_mul_right _ _ (by positivity)).symm

theorem ordered_iff (a b : Decimal64) : Ordered a b ↔ Comparable a b := by
  have left := toRat_eq a b
  have right := toRat_eq b a
  have positive : (0 : ℚ) < 10 ^ max a.digits b.digits := by positivity
  rw [max_comm] at right
  unfold Ordered Comparable Decimal64.eq Decimal64.ge Decimal64.le Decimal64.gt Decimal64.lt
  rw [left, right, div_left_inj' positive.ne', gt_iff_lt, ge_iff_le,
    div_lt_div_iff_of_pos_right positive, div_lt_div_iff_of_pos_right positive,
    div_le_div_iff_of_pos_right positive, div_le_div_iff_of_pos_right positive]
  simp only [Int.cast_inj, Int.cast_lt, Int.cast_le, Bool.and_eq_true, decide_eq_true_eq,
    Bool.not_eq_true', decide_eq_false_iff_not, not_lt, ← digits_eq_iff]
  by_cases same : a.digits = b.digits
  · simp [same]
  · generalize a.value * 10 ^ (b.digits - a.digits) = v
    generalize b.value * 10 ^ (a.digits - b.digits) = w
    omega

/-- Exactly the fine texts are read as the number they are, and exactly the comparable values are in
the order of their numbers. -/
theorem decimals_iff (s : List Char) (a b : Decimal64) :
    (ReadsExactly s ↔ Fine s) ∧ (Ordered a b ↔ Comparable a b) :=
  ⟨readsExactly_iff s, ordered_iff a b⟩

/-- The text `-0.5` is read as 0.5. -/
theorem not_decimals_half : ¬((∀ s, ReadsExactly s) ∧ ∀ a b, Ordered a b) := by
  rintro ⟨reads, -⟩
  have fine : Fine ['-', '0', '.', '5'] := (readsExactly_iff _).1 (reads _)
  have half : literal ['-', '0', '.', '5'] = some ⟨true, ['0'], ['5']⟩ := rfl
  unfold Fine Literal.Simple at fine
  rw [half] at fine
  revert fine
  decide

end Polycube.Polycubed.Decimals
