import Polycube.Lib.OrdMap
import Polycube.Polycubed.Decimals

/-!
# Ranges and lengths as they are written

A range or a length of a data model is a text: parts between bars, each of them a bound or two with
dots between them, and blanks around the bounds.  `parseRange` cuts it up and reads the numbers.
`parseRange_text` and `parseRange_throws` say which texts it reads, and that it then gives the ends
of the parts.
-/

namespace Polycube.Polycubed.Resources

open Decimals (isSpace sign number signed stoll)

/-! ### Expressions -/

inductive Bound
  | min | max | number (l : Decimals.Literal)

/-- A bound between blanks. -/
structure Written where
  before : List Char
  bound : Bound
  after : List Char

/-- What stands between two `|` of a range or a length. -/
inductive Part
  | exact (bound : Written)
  | range (min max : Written)

def numberText (l : Decimals.Literal) : List Char :=
  (if l.negative then ['-'] else []) ++ l.whole ++ if l.fraction = [] then [] else '.' :: l.fraction

def Bound.text : Bound → List Char
  | .min => ['m', 'i', 'n']
  | .max => ['m', 'a', 'x']
  | .number l => numberText l

def Written.text (b : Written) : List Char := b.before ++ b.bound.text ++ b.after

def Part.text : Part → List Char
  | .exact b => b.text
  | .range lo hi => lo.text ++ '.' :: '.' :: hi.text

def Part.bounds : Part → List Written
  | .exact b => [b]
  | .range lo hi => [lo, hi]

/-- The value of a bound, in units of the last of `dig` digits behind the point. -/
def Bound.value (dig : ℕ) (min max : ℤ) : Bound → ℤ
  | .min => min
  | .max => max
  | .number l => l.scaled * 10 ^ (dig - l.fraction.length)

def Part.ends (dig : ℕ) (min max : ℤ) : Part → ℤ × ℤ
  | .exact b => (b.bound.value dig min max, b.bound.value dig min max)
  | .range lo hi => (lo.bound.value dig min max, hi.bound.value dig min max)

structure Written.Ok (dig : ℕ) (b : Written) : Prop where
  blank : ∀ c ∈ b.before ++ b.after, isSpace c = true
  digits : ∀ l, b.bound = .number l → l.whole ≠ [] ∧
    (∀ c ∈ l.whole ++ l.fraction, c.isDigit = true) ∧ l.fraction.length ≤ dig

/-- The library that reads the models has checked the numbers. -/
structure Expression (dig : ℕ) (min max : ℤ) where
  parts : List Part
  nonempty : parts ≠ []
  written : ∀ part ∈ parts, ∀ b ∈ part.bounds, b.Ok dig
  numbers : ∀ part ∈ parts, min ≤ (part.ends dig min max).1 ∧
    (part.ends dig min max).1 ≤ (part.ends dig min max).2 ∧ (part.ends dig min max).2 ≤ max

def Expression.text {dig : ℕ} {min max : ℤ} (e : Expression dig min max) : List Char :=
  ['|'].intercalate (e.parts.map Part.text)

inductive IntType
  | int8 | uint8 | int16 | uint16 | int32 | uint32 | int64 | uint64
  deriving DecidableEq

namespace IntType

def min : IntType → ℤ
  | int8 => -2 ^ 7
  | int16 => -2 ^ 15
  | int32 => -2 ^ 31
  | int64 => -2 ^ 63
  | _ => 0

def max : IntType → ℤ
  | int8 => 2 ^ 7 - 1
  | int16 => 2 ^ 15 - 1
  | int32 => 2 ^ 31 - 1
  | int64 => 2 ^ 63 - 1
  | uint8 => 2 ^ 8 - 1
  | uint16 => 2 ^ 16 - 1
  | uint32 => 2 ^ 32 - 1
  | uint64 => 2 ^ 64 - 1

def wide : IntType → Bool
  | int64 | uint64 => true
  | _ => false

def signed : IntType → Bool
  | int8 | int16 | int32 | int64 => true
  | _ => false

end IntType

/-! ### The parser -/

/-- `std::stoull`: a number with a minus is taken from 2^64. -/
def stoull (s : List Char) : Option (ℕ × List Char) :=
  let (negative, s) := sign (s.dropWhile isSpace)
  let digits := s.takeWhile Char.isDigit
  if digits = [] ∨ 2 ^ 64 ≤ number digits then none
  else some (if negative then (2 ^ 64 - number digits) % 2 ^ 64 else number digits,
    s.dropWhile Char.isDigit)

/-- `lexical_cast` of integers: what is behind the number does not matter. -/
def IntType.lexicalCast (type : IntType) (value : List Char) : Except String ℤ :=
  match if type.signed then (stoll value).map Prod.fst else (stoull value).map fun r => (r.1 : ℤ) with
  | none => throw "bad_lexical_cast"
  | some val =>
    if type.max < val ∨ val < type.min then throw "bad_lexical_cast" else return val

/-- `lexical_cast<Decimal64>`, where an overflow does not happen. -/
def castDecimal (value : List Char) : Except String Decimals.Decimal64 :=
  match Decimals.lexicalCast value with
  | .returns d => return d
  | .throws | .undefined => throw "bad_lexical_cast"

/-- `find("..")`, with what is before and behind it. -/
def cutDots : List Char → Option (List Char × List Char)
  | [] => none
  | c :: s =>
    if c = '.' ∧ s.head? = some '.' then some ([], s.tail)
    else (cutDots s).map fun r => (c :: r.1, r.2)

/-- What `min` and `max` are, alone and as ends. -/
structure Limits (T : Type) where
  exactMin : T
  exactMax : T
  min : T
  max : T

def IntType.limits (type : IntType) : Limits ℤ := ⟨type.min, type.max, type.min, type.max⟩

/-- `Decimal64::Min(18)` and `Max(0)`, and `numeric_limits`, which is not specialised. -/
def decimalLimits : Limits Decimals.Decimal64 :=
  ⟨.mk' (-9223372036854775807) 18, .mk' (-9223372036854775807 - 1) 0, ⟨0, 1⟩, ⟨0, 1⟩⟩

section

variable {T : Type} (lim : Limits T) (cast : List Char → Except String T)

/-- A turn of the loop of `ParseRange`. -/
def parseToken (current : List Char) : Except String (T × T) :=
  match cutDots current with
  | none =>
    if current = ['m', 'i', 'n'] then return (lim.exactMin, lim.exactMin)
    else if current = ['m', 'a', 'x'] then return (lim.exactMax, lim.exactMax)
    else (cast current).map fun exact => (exact, exact)
  | some (minCh, maxCh) =>
    if minCh = ['m', 'i', 'n'] then (cast maxCh).map fun max => (lim.min, max)
    -- a literal at the lower end keeps the upper one from being read as one
    else if maxCh = ['m', 'a', 'x'] then (cast minCh).map fun min => (min, lim.max)
    else do
      let min ← cast minCh
      let max ← cast maxCh
      return (min, max)

/-- `ParseRange`: the pairs in the order in which they are put into the map. -/
def parseRange (range : List Char) : Except String (List (T × T)) :=
  (range.splitOn '|').mapM (parseToken lim cast)

end

/-! ### Where the texts are cut -/

section Texts

variable {dig : ℕ} {min max : ℤ} {b lo hi : Written} {s t : List Char} {c : Char}
  {l : Decimals.Literal}

/-- A dot has something else than a dot behind it. -/
def Lone : List Char → Prop
  | [] => True
  | c :: s => (c = '.' → ∃ d ∈ s.head?, d ≠ '.') ∧ Lone s

theorem lone_of_not_mem (h : '.' ∉ s) : Lone s := by
  induction s with
  | nil => trivial
  | cons c s ih =>
    rw [List.mem_cons, not_or] at h
    exact ⟨fun dot => absurd dot.symm h.1, ih h.2⟩

theorem Lone.append (h : '.' ∉ s) (lone : Lone t) : Lone (s ++ t) := by
  induction s with
  | nil => exact lone
  | cons c s ih =>
    rw [List.mem_cons, not_or] at h
    exact ⟨fun dot => absurd dot.symm h.1, ih h.2⟩

theorem cutDots_of_lone (lone : Lone s) : cutDots s = none := by
  induction s with
  | nil => rfl
  | cons c s ih =>
    rw [cutDots, if_neg, ih lone.2]
    · rfl
    · rintro ⟨dot, next⟩
      obtain ⟨d, head, other⟩ := lone.1 dot
      rw [next, Option.mem_some_iff] at head
      exact other head.symm

theorem cutDots_append (lone : Lone s) : cutDots (s ++ '.' :: '.' :: t) = some (s, t) := by
  induction s with
  | nil => rfl
  | cons c s ih =>
    rw [List.cons_append, cutDots, if_neg, ih lone.2]
    · rfl
    · rintro ⟨dot, next⟩
      obtain ⟨d, head, other⟩ := lone.1 dot
      rw [List.head?_append, Option.mem_def.1 head] at next
      exact other (Option.some.inj next)

/-- The characters of a text: blanks, digits and those of signs, points and literals. -/
theorem mem_text (ok : b.Ok dig) (h : c ∈ b.text) :
    isSpace c = true ∨ c.isDigit = true ∨ c ∈ ['-', '.', 'm', 'i', 'n', 'a', 'x'] := by
  unfold Written.text at h
  rw [List.append_assoc, List.mem_append, List.mem_append] at h
  rcases h with blank | inside | blank
  · exact .inl (ok.blank c (List.mem_append_left _ blank))
  · cases bound : b.bound with
    | min =>
      simp only [bound, Bound.text, List.mem_cons, List.not_mem_nil, or_false] at inside ⊢
      tauto
    | max =>
      simp only [bound, Bound.text, List.mem_cons, List.not_mem_nil, or_false] at inside ⊢
      tauto
    | number l =>
      obtain ⟨-, digits, -⟩ := ok.digits l bound
      rw [bound, Bound.text, numberText, List.mem_append, List.mem_append] at inside
      rcases inside with (minus | whole) | fraction
      · split_ifs at minus
        · rw [List.mem_singleton.1 minus]
          exact .inr (.inr (by decide))
        · cases minus
      · exact .inr (.inl (digits c (List.mem_append_left _ whole)))
      · split_ifs at fraction
        · cases fraction
        · rcases List.mem_cons.1 fraction with rfl | fraction
          · exact .inr (.inr (by decide))
          · exact .inr (.inl (digits c (List.mem_append_right _ fraction)))
  · exact .inl (ok.blank c (List.mem_append_right _ blank))

theorem bar_not_mem (ok : b.Ok dig) : '|' ∉ b.text := by
  intro bar
  rcases mem_text ok bar with h | h | h <;> exact absurd h (by decide)

theorem dot_not_mem_of (ok : b.Ok dig) :
    '.' ∉ b.before ∧ '.' ∉ b.after := by
  constructor <;> intro dot
  · exact absurd (ok.blank _ (List.mem_append_left _ dot)) (by decide)
  · exact absurd (ok.blank _ (List.mem_append_right _ dot)) (by decide)

theorem dot_not_mem_digits (digits : ∀ c ∈ s, c.isDigit = true) : '.' ∉ s :=
  fun dot => absurd (digits _ dot) (by decide)

theorem lone_text (ok : b.Ok dig) : Lone b.text := by
  obtain ⟨before, after⟩ := dot_not_mem_of ok
  rw [Written.text, List.append_assoc]
  refine Lone.append before ?_
  cases bound : b.bound with
  | min => exact Lone.append (by decide) (lone_of_not_mem after)
  | max => exact Lone.append (by decide) (lone_of_not_mem after)
  | number l =>
    obtain ⟨-, digits, -⟩ := ok.digits l bound
    have whole := dot_not_mem_digits fun c hc => digits c (List.mem_append_left _ hc)
    have fraction := dot_not_mem_digits fun c hc => digits c (List.mem_append_right _ hc)
    have minus : '.' ∉ (if l.negative = true then ['-'] else []) := by
      split_ifs <;> decide
    rw [Bound.text, numberText, List.append_assoc, List.append_assoc]
    refine Lone.append minus (Lone.append whole ?_)
    cases digits : l.fraction with
    | nil => exact lone_of_not_mem after
    | cons d ds =>
      rw [digits] at fraction
      rw [if_neg (List.cons_ne_nil d ds)]
      refine ⟨fun _ => ⟨d, rfl, ?_⟩, Lone.append fraction (lone_of_not_mem after)⟩
      rintro rfl
      exact fraction List.mem_cons_self

/-- The bound is a literal without blanks. -/
def Written.is (b : Written) (w : Bound) : Bool :=
  b.before = [] && b.after = [] && b.bound.text = w.text

theorem text_eq_iff (ok : b.Ok dig) {w : Bound} (literal : w.text.length = 3)
    (word : w.text.all (!·.isDigit) = true) : b.text = w.text ↔ b.is w = true := by
  have iff : b.is w = true ↔ b.before = [] ∧ b.after = [] ∧ b.bound.text = w.text := by
    simp [Written.is, and_assoc]
  rw [iff]
  constructor
  swap
  · rintro ⟨before, after, same⟩
    rw [Written.text, before, after, same, List.nil_append, List.append_nil]
  intro same
  have length := congrArg List.length same
  rw [Written.text, List.length_append, List.length_append, literal] at length
  have bare (three : b.bound.text.length = 3) : b.before = [] ∧ b.after = [] ∧
      b.bound.text = w.text := by
    have before : b.before = [] := List.length_eq_zero_iff.1 (by omega)
    have after : b.after = [] := List.length_eq_zero_iff.1 (by omega)
    rw [Written.text, before, after, List.nil_append, List.append_nil] at same
    exact ⟨before, after, same⟩
  cases bound : b.bound with
  | min => exact bound ▸ bare (by rw [bound]; rfl)
  | max => exact bound ▸ bare (by rw [bound]; rfl)
  | number l =>
    -- a number has a digit
    obtain ⟨some, digits, -⟩ := ok.digits l bound
    obtain ⟨d, hd⟩ := List.exists_mem_of_ne_nil _ some
    have inside : d ∈ b.text := by
      simp [Written.text, bound, Bound.text, numberText, hd]
    rw [same] at inside
    have none := List.all_eq_true.1 word d inside
    rw [digits d (List.mem_append_left _ hd)] at none
    cases none

theorem text_eq_min_iff (ok : b.Ok dig) : b.text = ['m', 'i', 'n'] ↔ b.is .min = true :=
  text_eq_iff (w := .min) ok rfl rfl

theorem text_eq_max_iff (ok : b.Ok dig) : b.text = ['m', 'a', 'x'] ↔ b.is .max = true :=
  text_eq_iff (w := .max) ok rfl rfl

theorem value_of_is (ok : b.Ok dig) {w : Bound} (h : b.is w = true)
    (literal : w = .min ∨ w = .max) : b.bound.value dig min max = w.value dig min max := by
  have same : b.bound.text = w.text := by
    simp only [Written.is, Bool.and_eq_true, decide_eq_true_eq] at h
    exact h.2
  cases bound : b.bound with
  | min =>
    rcases literal with rfl | rfl
    · rfl
    · rw [bound] at same
      exact absurd same (by decide)
  | max =>
    rcases literal with rfl | rfl
    · rw [bound] at same
      exact absurd same (by decide)
    · rfl
  | number l =>
    obtain ⟨some, digits, -⟩ := ok.digits l bound
    obtain ⟨d, hd⟩ := List.exists_mem_of_ne_nil _ some
    have inside : d ∈ w.text := by
      rw [← same]
      simp [bound, Bound.text, numberText, hd]
    have word : w.text.all (!·.isDigit) = true := by rcases literal with rfl | rfl <;> rfl
    have none := List.all_eq_true.1 word d inside
    rw [digits d (List.mem_append_left _ hd)] at none
    cases none

end Texts

/-! ### The numbers -/

section Numbers

variable {b : Written} {type : IntType} {before rest : List Char} {l : Decimals.Literal}

theorem isSpace_of_isDigit {c : Char} (digit : c.isDigit = true) : isSpace c = false := by
  cases space : isSpace c with
  | false => rfl
  | true =>
    rw [(Decimals.of_isSpace space).1] at digit
    cases digit

theorem sign_dropWhile (blank : ∀ c ∈ before, isSpace c = true) (some : l.whole ≠ [])
    (digits : ∀ c ∈ l.whole, c.isDigit = true) :
    sign ((before ++ ((if l.negative then ['-'] else []) ++ l.whole ++ rest)).dropWhile isSpace) =
      (l.negative, l.whole ++ rest) := by
  rw [List.dropWhile_append_of_pos blank]
  cases l.negative with
  | true => rfl
  | false =>
    obtain ⟨d, ds, whole⟩ := List.exists_cons_of_ne_nil some
    have digit : d.isDigit = true := digits d (by simp [whole])
    rw [whole, if_neg Bool.false_ne_true, List.nil_append, List.cons_append,
      List.dropWhile_cons_of_neg (by simp [isSpace_of_isDigit digit]), Decimals.sign_of_digit digit]

theorem takeWhile_digits {whole : List Char} (digits : ∀ c ∈ whole, c.isDigit = true)
    (blank : ∀ c ∈ rest, isSpace c = true) :
    (whole ++ rest).takeWhile Char.isDigit = whole := by
  rw [List.takeWhile_append_of_pos digits]
  cases rest with
  | nil => simp
  | cons c rest =>
    have space := (Decimals.of_isSpace (blank c List.mem_cons_self)).1
    rw [List.takeWhile_cons_of_neg (by simp [space]), List.append_nil]

/-- The number of a bound is read between its blanks. -/
theorem lexicalCast_number (ok : b.Ok 0) (bound : b.bound = .number l)
    (low : type.min ≤ b.bound.value 0 type.min type.max)
    (high : b.bound.value 0 type.min type.max ≤ type.max) :
    type.lexicalCast b.text = .ok (b.bound.value 0 type.min type.max) := by
  obtain ⟨some, digits, short⟩ := ok.digits l bound
  have fraction : l.fraction = [] := List.length_eq_zero_iff.1 (Nat.le_zero.1 short)
  have whole := fun c hc => digits c (List.mem_append_left _ hc)
  have read : sign (b.text.dropWhile isSpace) = (l.negative, l.whole ++ b.after) := by
    rw [Written.text, bound, Bound.text, numberText, fraction, if_pos rfl, List.append_nil,
      List.append_assoc]
    exact sign_dropWhile (fun c hc => ok.blank c (List.mem_append_left _ hc)) some whole
  have taken := takeWhile_digits whole fun c hc => ok.blank c (List.mem_append_right _ hc)
  have value : b.bound.value 0 type.min type.max = signed l.negative (number l.whole) := by
    simp [bound, Bound.value, Decimals.Literal.scaled, fraction]
  rw [value] at low high ⊢
  unfold IntType.lexicalCast stoll stoull
  rw [read]
  dsimp only
  rw [taken]
  cases kind : type.signed with
  | true =>
    have inside : Decimals.Int64 (signed l.negative (number l.whole)) := by
      unfold Decimals.Int64
      cases type <;> simp_all [IntType.signed, IntType.min, IntType.max] <;> omega
    rw [if_pos rfl, if_neg (by simp [some, inside])]
    exact if_neg (by simp [low, high])
  | false =>
    have unsigned : 0 ≤ signed l.negative (number l.whole) ∧
        signed l.negative (number l.whole) < 2 ^ 64 := by
      cases type <;> simp_all [IntType.signed, IntType.min, IntType.max] <;> omega
    have same : ((if l.negative then (2 ^ 64 - number l.whole) % 2 ^ 64 else number l.whole : ℕ) : ℤ) =
        signed l.negative (number l.whole) := by
      unfold signed at unsigned ⊢
      split_ifs at unsigned ⊢ <;> omega
    have small : ¬(l.whole = [] ∨ 2 ^ 64 ≤ number l.whole) := by
      unfold signed at unsigned
      split_ifs at unsigned <;> simp [some] <;> omega
    rw [if_neg Bool.false_ne_true, if_neg small, Option.map_some]
    dsimp only
    rw [same]
    exact if_neg (by simp [low, high])

/-- A literal is not read as a number. -/
theorem lexicalCast_literal (ok : b.Ok 0) (literal : b.bound = .min ∨ b.bound = .max) :
    ∃ e, type.lexicalCast b.text = .error e := by
  obtain ⟨c, cs, text, letter⟩ : ∃ c cs, b.bound.text = c :: cs ∧ c = 'm' := by
    rcases literal with bound | bound <;> exact ⟨_, _, by rw [bound]; rfl, rfl⟩
  subst letter
  have read : sign (b.text.dropWhile isSpace) = (false, 'm' :: (cs ++ b.after)) := by
    rw [Written.text, text, List.append_assoc, List.dropWhile_append_of_pos
      fun c hc => ok.blank c (List.mem_append_left _ hc)]
    rfl
  have none : ('m' :: (cs ++ b.after)).takeWhile Char.isDigit = [] :=
    List.takeWhile_cons_of_neg (by decide)
  refine ⟨"bad_lexical_cast", ?_⟩
  unfold IntType.lexicalCast stoll stoull
  rw [read]
  dsimp only
  rw [none]
  cases type.signed <;> rfl

end Numbers

/-! ### Which texts are read -/

/-- A literal stands for itself where no blank is beside it, as the upper end only behind a number;
the other bounds are read. -/
def Part.castable (casts : Written → Bool) : Part → Bool
  | .exact b => b.is .min || b.is .max || casts b
  | .range lo hi =>
    if lo.is .min then casts hi else if hi.is .max then casts lo else casts lo && casts hi

def Part.given {T : Type} (lim : Limits T) (value : Written → T) : Part → T × T
  | .exact b =>
    if b.is .min then (lim.exactMin, lim.exactMin)
    else if b.is .max then (lim.exactMax, lim.exactMax)
    else (value b, value b)
  | .range lo hi =>
    if lo.is .min then (lim.min, value hi)
    else if hi.is .max then (value lo, lim.max)
    else (value lo, value hi)

section Read

variable {T : Type} {lim : Limits T} {cast : List Char → Except String T} {casts : Written → Bool}
  {value : Written → T} {dig : ℕ} {part : Part} {parts : List Part}

/-- What `lexical_cast` makes of the bounds: those that it reads, and their values. -/
structure Casts (cast : List Char → Except String T) (casts : Written → Bool) (value : Written → T)
    (b : Written) : Prop where
  reads : casts b = true → cast b.text = .ok (value b)
  throws : casts b = false → ∃ e, cast b.text = .error e

theorem parseToken_text (ok : ∀ b ∈ part.bounds, b.Ok dig)
    (each : ∀ b ∈ part.bounds, Casts cast casts value b) :
    (part.castable casts = true → parseToken lim cast part.text = .ok (part.given lim value)) ∧
      (part.castable casts = false → ∃ e, parseToken lim cast part.text = .error e) := by
  cases part with
  | exact b =>
    have okB := ok b List.mem_cons_self
    have castB := each b List.mem_cons_self
    simp only [parseToken, Part.text, cutDots_of_lone (lone_text okB), text_eq_min_iff okB,
      text_eq_max_iff okB, Part.castable, Part.given]
    by_cases isMin : b.is .min = true
    · simp [isMin, pure, Except.pure]
    by_cases isMax : b.is .max = true
    · simp [isMin, isMax, pure, Except.pure]
    cases read : casts b with
    | true => simp [isMin, isMax, castB.reads read, Except.map]
    | false =>
      obtain ⟨e, thrown⟩ := castB.throws read
      simp [isMin, isMax, thrown, Except.map]
  | range lo hi =>
    have okLo := ok lo List.mem_cons_self
    have okHi := ok hi (List.mem_cons_of_mem _ List.mem_cons_self)
    have castLo := each lo List.mem_cons_self
    have castHi := each hi (List.mem_cons_of_mem _ List.mem_cons_self)
    simp only [parseToken, Part.text, cutDots_append (lone_text okLo), text_eq_min_iff okLo,
      text_eq_max_iff okHi, Part.castable, Part.given]
    by_cases isMin : lo.is .min = true
    · cases read : casts hi with
      | true => simp [isMin, castHi.reads read, Except.map]
      | false =>
        obtain ⟨e, thrown⟩ := castHi.throws read
        simp [isMin, thrown, Except.map]
    cases readLo : casts lo with
    | false =>
      obtain ⟨e, thrown⟩ := castLo.throws readLo
      by_cases isMax : hi.is .max = true <;>
        simp [isMin, isMax, thrown, Except.map, bind, Except.bind]
    | true =>
      by_cases isMax : hi.is .max = true
      · simp [isMin, isMax, castLo.reads readLo, Except.map]
      cases readHi : casts hi with
      | true =>
        simp [isMin, isMax, castLo.reads readLo, castHi.reads readHi, bind, Except.bind, pure,
          Except.pure]
      | false =>
        obtain ⟨e, thrown⟩ := castHi.throws readHi
        simp [isMin, isMax, castLo.reads readLo, thrown, bind, Except.bind]

theorem mapM_tokens (ok : ∀ part ∈ parts, ∀ b ∈ part.bounds, b.Ok dig)
    (each : ∀ part ∈ parts, ∀ b ∈ part.bounds, Casts cast casts value b) :
    (parts.all (·.castable casts) = true → (parts.map Part.text).mapM (parseToken lim cast) =
        .ok (parts.map (·.given lim value))) ∧
      (parts.all (·.castable casts) = false →
        ∃ e, (parts.map Part.text).mapM (parseToken lim cast) = .error e) := by
  induction parts with
  | nil => exact ⟨fun _ => rfl, fun h => by cases h⟩
  | cons part parts ih =>
    obtain ⟨read, thrown⟩ := @parseToken_text _ lim _ _ _ _ _ (ok part List.mem_cons_self)
      (each part List.mem_cons_self)
    obtain ⟨ihRead, ihThrown⟩ := ih (fun p hp => ok p (List.mem_cons_of_mem _ hp))
      fun p hp => each p (List.mem_cons_of_mem _ hp)
    rw [List.map_cons, List.mapM_cons, List.all_cons]
    cases here : part.castable casts with
    | true =>
      rw [read here, Bool.true_and]
      refine ⟨fun all => ?_, fun all => ?_⟩
      · rw [ihRead all]
        rfl
      · obtain ⟨e, he⟩ := ihThrown all
        rw [he]
        exact ⟨e, rfl⟩
    | false =>
      obtain ⟨e, he⟩ := thrown here
      rw [he]
      exact ⟨fun all => absurd all Bool.false_ne_true, fun _ => ⟨e, rfl⟩⟩

variable {min max : ℤ} (range : Expression dig min max)

theorem splitOn_text : range.text.splitOn '|' = range.parts.map Part.text := by
  refine List.splitOn_intercalate '|' (fun text mem => ?_) (by simp [range.nonempty])
  obtain ⟨part, hp, rfl⟩ := List.mem_map.1 mem
  have ok := range.written part hp
  cases part with
  | exact b => exact bar_not_mem (ok b List.mem_cons_self)
  | range lo hi =>
    have low := bar_not_mem (ok lo List.mem_cons_self)
    have high := bar_not_mem (ok hi (List.mem_cons_of_mem _ List.mem_cons_self))
    simp [Part.text, low, high]

def castableParts (casts : Written → Bool) (range : Option (Expression dig min max)) : Bool :=
  range.all fun range => range.parts.all (·.castable casts)

end Read

def Written.isNumber (b : Written) : Bool :=
  match b.bound with
  | .number _ => true
  | _ => false

/-- `lexical_cast` of a bound of a decimal returns. -/
def Written.isDecimal (b : Written) : Bool := (castDecimal b.text).isOk

section Ranges

variable {type : IntType} {dig : ℕ} {min max : ℤ}

theorem casts_of_mem (range : Expression 0 type.min type.max) {part : Part} (hp : part ∈ range.parts)
    {b : Written} (hb : b ∈ part.bounds) :
    Casts type.lexicalCast Written.isNumber (fun b => b.bound.value 0 type.min type.max) b := by
  have ok := range.written part hp b hb
  obtain ⟨low, ordered, high⟩ := range.numbers part hp
  have inside : type.min ≤ b.bound.value 0 type.min type.max ∧
      b.bound.value 0 type.min type.max ≤ type.max := by
    cases part with
    | exact b' =>
      obtain rfl := List.mem_singleton.1 hb
      exact ⟨low, high⟩
    | range lo hi =>
      rcases List.mem_pair.1 hb with rfl | rfl
      · exact ⟨low, ordered.trans high⟩
      · exact ⟨low.trans ordered, high⟩
  refine ⟨fun number => ?_, fun literal => lexicalCast_literal ok ?_⟩
  · unfold Written.isNumber at number
    split at number
    · rename_i l bound
      exact lexicalCast_number ok bound inside.1 inside.2
    · cases number
  · unfold Written.isNumber at literal
    cases bound : b.bound with
    | min => exact .inl rfl
    | max => exact .inr rfl
    | number l => simp [bound] at literal

theorem given_eq_ends {part : Part} (ok : ∀ b ∈ part.bounds, b.Ok 0) :
    part.given type.limits (fun b => b.bound.value 0 type.min type.max) =
      part.ends 0 type.min type.max := by
  have min {b : Written} (ok : b.Ok 0) (h : b.is .min = true) :
      b.bound.value 0 type.min type.max = type.min := value_of_is ok h (.inl rfl)
  have max {b : Written} (ok : b.Ok 0) (h : b.is .max = true) :
      b.bound.value 0 type.min type.max = type.max := value_of_is ok h (.inr rfl)
  cases part with
  | exact b =>
    have okB := ok b List.mem_cons_self
    simp only [Part.given, Part.ends, IntType.limits]
    split_ifs with isMin isMax
    · rw [min okB isMin]
    · rw [max okB isMax]
    · rfl
  | range lo hi =>
    simp only [Part.given, Part.ends, IntType.limits]
    split_ifs with isMin isMax
    · rw [min (ok lo List.mem_cons_self) isMin]
    · rw [max (ok hi (List.mem_cons_of_mem _ List.mem_cons_self)) isMax]
    · rfl

theorem parseRange_text (range : Expression 0 type.min type.max)
    (castable : castableParts Written.isNumber (some range) = true) :
    parseRange type.limits type.lexicalCast range.text =
      .ok (range.parts.map (Part.ends 0 type.min type.max)) := by
  unfold parseRange
  rw [splitOn_text, (mapM_tokens range.written fun _ hp _ hb => casts_of_mem range hp hb).1 castable]
  exact congrArg Except.ok (List.map_congr_left fun part hp => given_eq_ends (range.written part hp))

theorem parseRange_throws (range : Expression 0 type.min type.max)
    (castable : castableParts Written.isNumber (some range) = false) :
    ∃ e, parseRange type.limits type.lexicalCast range.text = .error e := by
  unfold parseRange
  rw [splitOn_text]
  exact (mapM_tokens range.written fun _ hp _ hb => casts_of_mem range hp hb).2 castable

theorem castDecimal_casts (b : Written) : Casts castDecimal Written.isDecimal
    (fun b => ((castDecimal b.text).toOption).getD ⟨0, 1⟩) b := by
  unfold Written.isDecimal
  cases read : castDecimal b.text with
  | ok d =>
    refine ⟨fun _ => by rw [read]; rfl, fun no => ?_⟩
    rw [read] at no
    cases no
  | error e =>
    refine ⟨fun yes => ?_, fun _ => ⟨e, read⟩⟩
    rw [read] at yes
    cases yes

theorem parseDecimals_text (range : Expression dig min max) :
    (∃ ranges, parseRange decimalLimits castDecimal range.text = .ok ranges) ↔
      castableParts Written.isDecimal (some range) = true := by
  have tokens := @mapM_tokens _ decimalLimits _ _ _ _ _ range.written fun _ _ b _ =>
    castDecimal_casts b
  unfold parseRange
  rw [splitOn_text]
  cases castable : castableParts Written.isDecimal (some range) with
  | true => exact iff_of_true ⟨_, tokens.1 castable⟩ rfl
  | false =>
    obtain ⟨e, thrown⟩ := tokens.2 castable
    rw [thrown]
    simp

end Ranges

end Polycube.Polycubed.Resources
