import Polycube.Lib.ByteStrings

/-!
# The number parsers

`strconv.Atoi`, `ParseFloat` and `ParseBool` on byte strings, with the numbers as rationals:
`number` is the exact value of a numeric literal, `nearest64` the 64-bit float `ParseFloat` rounds
it to, and `shortest` the decimal that such a float is printed as, the one with the fewest digits
that reads back as the float.
-/

namespace Polycube.Polycubectl

open Lib

def isDigit (c : UInt8) : Bool := '0'.toUInt8 ≤ c ∧ c ≤ '9'.toUInt8

/-- `c | 0x20`, the small letter of a letter. -/
def lower (c : UInt8) : UInt8 := c ||| 0x20

def isHexLetter (c : UInt8) : Bool := 'a'.toUInt8 ≤ lower c ∧ lower c ≤ 'f'.toUInt8

def unsigned (s : Str) : Str :=
  if s.head? = some '+'.toUInt8 ∨ s.head? = some '-'.toUInt8 then s.tail else s

def negative (s : Str) : Bool := s.head? = some '-'.toUInt8

def digitValue (c : UInt8) : ℕ :=
  if isDigit c then c.toNat - '0'.toNat else (lower c).toNat - 'a'.toNat + 10

def digitsValue (base : ℕ) (s : Str) : ℕ := s.foldl (fun n c => base * n + digitValue c) 0

def signed {α : Type} [Neg α] (minus : Bool) (a : α) : α := if minus then -a else a

/-- `strconv.Atoi` for the 64-bit `int`. -/
def atoi (s : Str) : Option ℤ :=
  let digits := unsigned s
  if digits ≠ [] ∧ digits.all isDigit then
    let n : ℤ := signed (negative s) (digitsValue 10 digits : ℤ)
    if -2 ^ 63 ≤ n ∧ n < 2 ^ 63 then some n else none
  else
    none

/-! ## Floats -/

/-- A float literal starts with `0x` and goes on. -/
def isHexLiteral (s : Str) : Bool :=
  s.length > 2 ∧ s.head? = some '0'.toUInt8 ∧ (s.tail.head?).map lower = some 'x'.toUInt8

def underscore : UInt8 := '_'.toUInt8

def point : UInt8 := '.'.toUInt8

/-- The loop of `underscoreOK` behind the prefix: a digit may stand anywhere, an underscore only
between two digits.  `last` is the digit `0`, an underscore or another byte. -/
def underscoreFrom (hex : Bool) : UInt8 → Str → Bool
  | last, [] => last ≠ underscore
  | last, c :: rest =>
    if isDigit c || hex && isHexLetter c then
      underscoreFrom hex '0'.toUInt8 rest
    else if c = underscore then
      last = '0'.toUInt8 && underscoreFrom hex underscore rest
    else
      last ≠ underscore && underscoreFrom hex '!'.toUInt8 rest

def underscoreOK (s : Str) : Bool :=
  let s := unsigned s
  if s.length ≥ 2 ∧ s.head? = some '0'.toUInt8 ∧
      (s.tail.head?).map lower ∈ [some 'b'.toUInt8, some 'o'.toUInt8, some 'x'.toUInt8] then
    -- the prefix counts as a digit
    underscoreFrom ((s.tail.head?).map lower = some 'x'.toUInt8) '0'.toUInt8 (s.drop 2)
  else
    underscoreFrom false '^'.toUInt8 s

/-- The exponent a literal ends with, behind the letter `e` or `p`. -/
def exponent (hex : Bool) (s : Str) : Option ℤ :=
  match s with
  -- a hexadecimal literal must have one
  | [] => if hex then none else some 0
  | c :: rest =>
    let digits := unsigned rest
    if lower c = (if hex then 'p'.toUInt8 else 'e'.toUInt8) ∧ digits.head?.any isDigit ∧
        digits.all (fun c => isDigit c || c = underscore) then
      some (signed (negative rest) (digitsValue 10 (digits.filter (· ≠ underscore)) : ℤ))
    else
      none

def isMantissa (hex : Bool) (c : UInt8) : Bool :=
  c = underscore || c = point || isDigit c || hex && isHexLetter c

/-- The exact value of a float literal, as `readFloat` takes it apart. -/
def number (s : Str) : Option ℚ :=
  let hex := isHexLiteral (unsigned s)
  let body := if hex then (unsigned s).drop 2 else unsigned s
  let mantissa := body.takeWhile (isMantissa hex)
  let whole := (mantissa.takeWhile (· ≠ point)).filter (· ≠ underscore)
  let fraction := ((mantissa.dropWhile (· ≠ point)).drop 1).filter (· ≠ underscore)
  if mantissa.count point ≤ 1 ∧ whole ++ fraction ≠ [] ∧ (underscore ∈ s → underscoreOK s) then
    (exponent hex (body.dropWhile (isMantissa hex))).map fun e : ℤ =>
      signed (negative s) <|
        if hex then digitsValue 16 (whole ++ fraction) * (2 : ℚ) ^ (e - 4 * fraction.length : ℤ)
        else digitsValue 10 (whole ++ fraction) * (10 : ℚ) ^ (e - fraction.length : ℤ)
  else
    none

def special (s : Str) : Bool :=
  (unsigned s).map lower ∈ [ascii "inf", ascii "infinity"] || s.map lower = ascii "nan"

/-- The integer next to `a`, the even one of two. -/
def roundEven (a : ℚ) : ℤ :=
  let down := ⌊a⌋
  if a - down < 1 / 2 then down
  else if 1 / 2 < a - down then down + 1
  else if down % 2 = 0 then down
  else down + 1

/-- The 64-bit float next to `q`, none when it is out of range. -/
def nearest64 (q : ℚ) : Option ℚ :=
  if q = 0 then some 0
  else
    let ulp : ℚ := 2 ^ (max (Int.log 2 |q|) (-1022) - 52)
    let a := roundEven (|q| / ulp) * ulp
    if a < 2 ^ 1024 then some (signed (q < 0) a) else none

/-- The decimal of `digits` digits next to `a` that reads back as `a`. -/
def decimalOf (a : ℚ) (digits : ℕ) : Option ℚ :=
  let unit : ℚ := 10 ^ (Int.log 10 a + 1 - digits)
  let down := ⌊a / unit⌋ * unit
  let up := down + unit
  let back (d : ℚ) : Bool := nearest64 d = some a
  if back down ∧ (a - down ≤ up - a ∨ ¬ back up) then some down
  else if back up then some up
  else none

def shortest (x : ℚ) : ℚ :=
  if x = 0 then 0
  else signed (x < 0) (((List.range 17).findSome? fun n => decimalOf |x| (n + 1)).getD |x|)

/-- What `strconv.ParseFloat` returns without an error. -/
inductive Float64
  | special
  | finite (x : ℚ)
  deriving DecidableEq

def parseFloat (s : Str) : Option Float64 :=
  if special s then some .special else ((number s).bind nearest64).map .finite

def parseBool (s : Str) : Option Bool :=
  if s ∈ [ascii "1", ascii "t", ascii "T", ascii "TRUE", ascii "true", ascii "True"] then
    some true
  else if s ∈ [ascii "0", ascii "f", ascii "F", ascii "FALSE", ascii "false", ascii "False"] then
    some false
  else
    none

theorem digit_facts : ∀ c, isDigit c = true → c ≠ point ∧ c ≠ underscore ∧
    lower c ≠ 'x'.toUInt8 ∧ lower c = c ∧ isMantissa false c = true := by
  refine forall_byte ?_
  decide +kernel

theorem mem_unsigned {s : Str} {c : UInt8} (mem : c ∈ s) :
    c = '+'.toUInt8 ∨ c = '-'.toUInt8 ∨ c ∈ unsigned s := by
  unfold unsigned
  split
  · rename_i sign
    cases s with
    | nil => exact absurd mem List.not_mem_nil
    | cons d rest =>
      simp only [List.head?_cons, Option.some.injEq] at sign
      rcases List.mem_cons.1 mem with rfl | inside
      · exact sign.imp_right .inl
      · exact .inr (.inr inside)
  · exact .inr (.inr mem)

theorem atoi_eq_some {s : Str} {n : ℤ} (read : atoi s = some n) :
    unsigned s ≠ [] ∧ (∀ c ∈ unsigned s, isDigit c = true) ∧
      n = signed (negative s) (digitsValue 10 (unsigned s) : ℤ) := by
  unfold atoi at read
  dsimp only at read
  split at read
  · rename_i digits
    split at read
    · cases read
      exact ⟨digits.1, List.all_eq_true.1 digits.2, rfl⟩
    · cases read
  · cases read

theorem cast_signed (minus : Bool) (n : ℤ) :
    ((signed minus n : ℤ) : ℚ) = signed minus (n : ℚ) := by
  unfold signed
  split <;> simp

theorem number_of_atoi {s : Str} {n : ℤ} (read : atoi s = some n) : number s = some (n : ℚ) := by
  obtain ⟨some, digits, rfl⟩ := atoi_eq_some read
  have decimal : isHexLiteral (unsigned s) = false := by
    rw [← Bool.not_eq_true]
    intro hex
    simp only [isHexLiteral, decide_eq_true_eq] at hex
    obtain ⟨-, -, x⟩ := hex
    cases second : (unsigned s).tail.head? with
    | none => simp [second] at x
    | some c =>
      rw [second, Option.map_some, Option.some.injEq] at x
      have mem := List.mem_of_mem_tail (List.mem_of_head? second)
      exact (digit_facts c (digits c mem)).2.2.1 x
  have mantissa : ∀ c ∈ unsigned s, isMantissa false c = true :=
    fun c mem => (digit_facts c (digits c mem)).2.2.2.2
  have noPoint : ∀ c ∈ unsigned s, decide (c ≠ point) = true :=
    fun c mem => decide_eq_true (digit_facts c (digits c mem)).1
  have noUnderscore : ∀ c ∈ unsigned s, decide (c ≠ underscore) = true :=
    fun c mem => decide_eq_true (digit_facts c (digits c mem)).2.1
  have plain : underscore ∉ s := by
    intro mem
    rcases mem_unsigned mem with same | same | inside
    · exact absurd same (by decide)
    · exact absurd same (by decide)
    · exact (digit_facts _ (digits _ inside)).2.1 rfl
  have none : (unsigned s).count point = 0 :=
    List.count_eq_zero.2 fun mem => (digit_facts _ (digits _ mem)).1 rfl
  unfold number
  simp only [decimal, Bool.false_eq_true, if_false, List.takeWhile_eq_self_iff.2 mantissa,
    List.dropWhile_eq_nil_iff.2 mantissa, List.takeWhile_eq_self_iff.2 noPoint,
    List.dropWhile_eq_nil_iff.2 noPoint, List.filter_eq_self.2 noUnderscore, none]
  simp [plain, some, exponent, cast_signed]

theorem lower_of_digit : ∀ c, isDigit c = true → lower c ≠ 'i'.toUInt8 ∧ lower c ≠ 'n'.toUInt8 := by
  refine forall_byte ?_
  decide +kernel

/-- An integer literal has no letter, so it is none of the special texts. -/
theorem special_of_atoi {s : Str} {n : ℤ} (read : atoi s = some n) : special s = false := by
  obtain ⟨-, digits, -⟩ := atoi_eq_some read
  have noInf (t : Str) (mem : 'i'.toUInt8 ∈ t) : (unsigned s).map lower ≠ t := by
    rintro rfl
    obtain ⟨c, inside, same⟩ := List.mem_map.1 mem
    exact (lower_of_digit c (digits c inside)).1 same
  have noNan : s.map lower ≠ ascii "nan" := by
    intro same
    have mem : 'n'.toUInt8 ∈ s.map lower := by
      rw [same]
      decide
    obtain ⟨c, inside, letter⟩ := List.mem_map.1 mem
    rcases mem_unsigned inside with rfl | rfl | inside
    · exact absurd letter (by decide)
    · exact absurd letter (by decide)
    · exact (lower_of_digit c (digits c inside)).2 letter
  simp [special, noInf (ascii "inf") (by decide), noInf (ascii "infinity") (by decide), noNan]

def isLiteralByte (c : UInt8) : Bool :=
  isMantissa true c || lower c = 'p'.toUInt8 || lower c = 'e'.toUInt8 || lower c = 'x'.toUInt8 ||
    c = '+'.toUInt8 || c = '-'.toUInt8

theorem isMantissa_true {hex : Bool} {c : UInt8} (holds : isMantissa hex c = true) :
    isMantissa true c = true := by
  cases hex
  · rw [isMantissa, Bool.false_and, Bool.or_false] at holds
    rw [isMantissa, holds, Bool.true_or]
  · exact holds

theorem bytes_of_exponent {hex : Bool} {s : Str} {e : ℤ} (read : exponent hex s = some e) :
    ∀ c ∈ s, isLiteralByte c = true := by
  cases s with
  | nil => simp
  | cons letter rest =>
    obtain ⟨⟨letters, -, digits⟩, -⟩ := Option.ite_none_right_eq_some.1 read
    intro c mem
    rcases List.mem_cons.1 mem with rfl | inside
    · cases hex
      · rw [if_neg Bool.false_ne_true] at letters
        simp [isLiteralByte, letters]
      · rw [if_pos rfl] at letters
        simp [isLiteralByte, letters]
    rcases mem_unsigned inside with same | same | inside
    · simp [isLiteralByte, same]
    · simp [isLiteralByte, same]
    have byte := List.all_eq_true.1 digits c inside
    simp only [Bool.or_eq_true, decide_eq_true_eq] at byte
    rcases byte with digit | same
    · simp [isLiteralByte, isMantissa, digit]
    · simp [isLiteralByte, isMantissa, same]

theorem isHexLiteral_eq {s : Str} (hex : isHexLiteral s = true) :
    ∃ x, s = '0'.toUInt8 :: x :: s.drop 2 ∧ lower x = 'x'.toUInt8 := by
  simp only [isHexLiteral, decide_eq_true_eq] at hex
  obtain ⟨-, zero, letter⟩ := hex
  match s, zero, letter with
  | _ :: x :: _, zero, letter =>
    simp only [List.head?_cons, Option.some.injEq] at zero
    simp only [List.tail_cons, List.head?_cons, Option.map_some, Option.some.injEq] at letter
    exact ⟨x, by simp [zero], letter⟩

/-- A literal is made of its own bytes, so it has no white space and no quote in it. -/
theorem bytes_of_number {s : Str} {q : ℚ} (read : number s = some q) :
    ∀ c ∈ s, isLiteralByte c = true := by
  obtain ⟨-, value⟩ := Option.ite_none_right_eq_some.1 read
  obtain ⟨e, tail, -⟩ := Option.map_eq_some_iff.1 value
  intro c mem
  rcases mem_unsigned mem with same | same | inside
  · simp [isLiteralByte, same]
  · simp [isLiteralByte, same]
  have body (t : Str) (hex : Bool) (tail : exponent hex (t.dropWhile (isMantissa hex)) = some e)
      (mem : c ∈ t) : isLiteralByte c = true := by
    rw [← List.takeWhile_append_dropWhile (p := isMantissa hex) (l := t), List.mem_append] at mem
    rcases mem with front | back
    · simp [isLiteralByte, isMantissa_true (List.mem_takeWhile_imp front)]
    · exact bytes_of_exponent tail c back
  by_cases hex : isHexLiteral (unsigned s) = true
  · obtain ⟨x, shape, letter⟩ := isHexLiteral_eq hex
    rw [if_pos hex] at tail
    rw [shape] at inside
    rcases List.mem_cons.1 inside with rfl | inside
    · decide
    rcases List.mem_cons.1 inside with rfl | inside
    · simp [isLiteralByte, letter]
    · exact body _ _ tail inside
  · rw [if_neg hex] at tail
    exact body _ _ tail inside

end Polycube.Polycubectl
