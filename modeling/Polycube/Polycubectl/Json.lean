import Polycube.Lib.Utf8
import Polycube.Polycubectl.Strconv

/-!
# JSON values and the text of a scalar

`Json` are the values a request body of the CLI can hold and `readScalar` reads a document that is
a string, a number or a literal, with white space about it.  `readScalar_quoted` and
`readScalar_number` say what the two ways of writing a value down mean: a text between quotes reads
as itself only when nothing in it needs an escape, and a literal of Go reads as its number only
when JSON writes numbers that way.
-/

namespace Polycube.Polycubectl

open Lib

inductive Json
  | null
  | bool (b : Bool)
  | number (q : ℚ)
  | string (cs : List Char)
  | object (members : List (List Char × Json))

def quote : UInt8 := '"'.toUInt8

def backslash : UInt8 := '\\'.toUInt8

def hex4 (s : Str) : Option (ℕ × Str) :=
  if s.length ≥ 4 ∧ (s.take 4).all (fun c => isDigit c || isHexLetter c) then
    some (digitsValue 16 (s.take 4), s.drop 4)
  else
    none

def escapes : List (UInt8 × Char) :=
  [(quote, '"'), (backslash, '\\'), ('/'.toUInt8, '/'), ('b'.toUInt8, Char.ofNat 8),
    ('f'.toUInt8, Char.ofNat 12), ('n'.toUInt8, Char.ofNat 10), ('r'.toUInt8, Char.ofNat 13),
    ('t'.toUInt8, Char.ofNat 9)]

def simpleEscape (c : UInt8) : Option Char := (escapes.find? (·.1 = c)).map Prod.snd

def lowSurrogate (high : ℕ) (s : Str) : Option (Char × Str) :=
  if s.take 2 = [backslash, 'u'.toUInt8] then do
    let (low, rest) ← hex4 (s.drop 2)
    if 0xDC00 ≤ low ∧ low < 0xE000 then
      some (Char.ofNat (0x10000 + (high - 0xD800) * 0x400 + (low - 0xDC00)), rest)
    else
      none
  else
    none

def escape (s : Str) : Option (Char × Str) :=
  match s with
  | [] => none
  | c :: rest =>
    if c = 'u'.toUInt8 then do
      let (code, rest) ← hex4 rest
      if 0xD800 ≤ code ∧ code < 0xDC00 then lowSurrogate code rest
      else if 0xDC00 ≤ code ∧ code < 0xE000 then none
      else some (Char.ofNat code, rest)
    else
      (simpleEscape c).map fun char => (char, rest)

def readChars : ℕ → Str → Option (List Char × Str)
  | 0, _ => none
  | n + 1, s =>
    match s with
    | [] => none
    | b :: rest =>
      if b = quote then
        some ([], rest)
      else if b = backslash then
        (escape rest).bind fun read =>
          (readChars n read.2).map fun next => (read.1 :: next.1, next.2)
      else if b < 0x20 then
        none
      else
        (decodeRune (b :: rest)).bind fun c =>
          (readChars n ((b :: rest).drop c.utf8Size)).map fun next => (c :: next.1, next.2)

def isExponent (s : Str) : Bool :=
  match s with
  | [] => true
  | c :: rest => lower c = 'e'.toUInt8 && unsigned rest ≠ [] && (unsigned rest).all isDigit

def isFraction (s : Str) : Bool :=
  if s.head? = some point then
    s.tail.takeWhile isDigit ≠ [] && isExponent (s.tail.dropWhile isDigit)
  else
    isExponent s

/-- The number literals of JSON: no plus sign, no leading zeros, a digit on both sides of the
point. -/
def isJsonNumber (s : Str) : Bool :=
  let body := if negative s then s.tail else s
  let whole := body.takeWhile isDigit
  (whole = ['0'.toUInt8] || whole ≠ [] && whole.head? ≠ some '0'.toUInt8) &&
    isFraction (body.dropWhile isDigit)

def isSpace (c : UInt8) : Bool := c = ' '.toUInt8 || c = 9 || c = 10 || c = 13

def trim (s : Str) : Str := (s.dropWhile isSpace).rdropWhile isSpace

def readScalar (s : Str) : Option Json :=
  let core := trim s
  if core = ascii "true" then some (.bool true)
  else if core = ascii "false" then some (.bool false)
  else if core = ascii "null" then some .null
  else if core.head? = some quote then
    (readChars core.length core.tail).bind fun read =>
      if read.2 = [] then some (.string read.1) else none
  -- a number of JSON is a literal of Go with the same value
  else if isJsonNumber core then (number core).map .number
  else none

/-! ## What a string takes up -/

def IsPlain (c : Char) : Prop := c ≠ '"' ∧ c ≠ '\\' ∧ 0x20 ≤ c.toNat

def IsPlainText (s : Str) : Prop := ∃ cs, s = encode cs ∧ ∀ c ∈ cs, IsPlain c

variable {s rest : Str}

theorem hex4_eq_some {n : ℕ} (read : hex4 s = some (n, rest)) :
    ∃ used, s = used ++ rest ∧ used.length = 4 := by
  obtain ⟨⟨long, -⟩, same⟩ := Option.ite_none_right_eq_some.1 read
  cases same
  exact ⟨s.take 4, (List.take_append_drop 4 s).symm, by rw [List.length_take]; omega⟩

variable {b : UInt8} {c : Char}

theorem simpleEscape_size (read : simpleEscape b = some c) : c.utf8Size = 1 := by
  obtain ⟨entry, found, rfl⟩ := Option.map_eq_some_iff.1 read
  have all : ∀ entry ∈ escapes, entry.2.utf8Size = 1 := by decide
  exact all entry (List.mem_of_find?_eq_some found)

theorem lowSurrogate_eq_some {high : ℕ}
    (read : lowSurrogate high s = some (c, rest)) : ∃ used, s = used ++ rest := by
  obtain ⟨-, value⟩ := Option.ite_none_right_eq_some.1 read
  obtain ⟨⟨low, tail⟩, digits, kept⟩ := Option.bind_eq_some_iff.1 value
  obtain ⟨-, same⟩ := Option.ite_none_right_eq_some.1 kept
  obtain ⟨-, rfl⟩ := Prod.mk.inj (Option.some.inj same)
  obtain ⟨used, split, -⟩ := hex4_eq_some digits
  exact ⟨s.take 2 ++ used, by rw [List.append_assoc, ← split, List.take_append_drop]⟩

/-- The character of an escape takes up no more bytes than the escape behind the backslash. -/
theorem escape_eq_some (read : escape s = some (c, rest)) :
    ∃ used, s = used ++ rest ∧ c.utf8Size ≤ used.length := by
  cases s with
  | nil => cases read
  | cons b tail =>
    unfold escape at read
    dsimp only at read
    split at read
    · obtain ⟨⟨code, after⟩, digits, kept⟩ := Option.bind_eq_some_iff.1 read
      obtain ⟨used, rfl, four⟩ := hex4_eq_some digits
      have small := c.utf8Size_le_four
      dsimp only at kept
      split_ifs at kept
      · obtain ⟨more, rfl⟩ := lowSurrogate_eq_some kept
        refine ⟨b :: (used ++ more), by simp, ?_⟩
        simp only [List.length_cons, List.length_append]
        omega
      · cases kept
        exact ⟨b :: used, by simp, by rw [List.length_cons]; omega⟩
    · obtain ⟨char, simple, same⟩ := Option.map_eq_some_iff.1 read
      cases same
      exact ⟨[b], rfl, (simpleEscape_size simple).le⟩

theorem toNat_eq_of_decodeRune
    (read : decodeRune (b :: rest) = some c) (small : c.toNat < 128 ∨ b < 128) :
    c.toNat = b.toNat := by
  have split := eq_of_decodeRune read
  have head : b ∈ String.utf8EncodeChar c := by
    cases bytes : String.utf8EncodeChar c with
    | nil =>
      have size := String.length_utf8EncodeChar c
      have positive := c.utf8Size_pos
      rw [bytes, List.length_nil] at size
      omega
    | cons d tail =>
      rw [bytes, List.cons_append] at split
      rw [(List.cons.inj split).1]
      exact List.mem_cons_self
  rcases small with small | small
  · have one : String.utf8EncodeChar c = [UInt8.ofNat c.toNat] :=
      if_pos (show c.val.toNat ≤ 127 from Nat.le_of_lt_succ small)
    rw [one, List.mem_singleton] at head
    rw [head, UInt8.toNat_ofNat_of_lt' (Nat.lt_trans small (by decide))]
  · exact (eq_of_mem_utf8EncodeChar small head).1

theorem isPlain_of_decodeRune
    (read : decodeRune (b :: rest) = some c) (notQuote : b ≠ quote) (notBackslash : b ≠ backslash)
    (notControl : ¬ b < 0x20) : IsPlain c := by
  refine ⟨?_, ?_, ?_⟩
  · rintro rfl
    exact notQuote (UInt8.toNat_inj.1 (toNat_eq_of_decodeRune read (.inl (by decide))).symm)
  · rintro rfl
    exact notBackslash (UInt8.toNat_inj.1 (toNat_eq_of_decodeRune read (.inl (by decide))).symm)
  · by_contra control
    have same := toNat_eq_of_decodeRune read (.inl (by omega))
    refine notControl ?_
    change b.toNat < 32
    omega

variable {cs : List Char}

/-- A string that is read takes up at least the bytes of its characters, and exactly those only
when it holds no escape. -/
theorem readChars_eq_some {n : ℕ} {tail : Str} (read : readChars n s = some (cs, tail)) :
    ∃ used, s = used ++ quote :: tail ∧ (encode cs).length ≤ used.length ∧
      (used.length ≤ (encode cs).length → used = encode cs ∧ ∀ c ∈ cs, IsPlain c) := by
  induction n generalizing s cs with
  | zero => cases read
  | succ n ih =>
    cases s with
    | nil => cases read
    | cons b rest =>
      simp only [readChars] at read
      split_ifs at read with isQuote isBackslash isControl
      · cases read
        exact ⟨[], by rw [isQuote]; rfl, le_rfl, fun _ => ⟨rfl, by simp⟩⟩
      · obtain ⟨⟨c, after⟩, escaped, next⟩ := Option.bind_eq_some_iff.1 read
        obtain ⟨⟨ds, end'⟩, more, same⟩ := Option.map_eq_some_iff.1 next
        cases same
        obtain ⟨used, rfl, size⟩ := escape_eq_some escaped
        obtain ⟨inner, rfl, bound, -⟩ := ih more
        refine ⟨b :: used ++ inner, by simp, ?_, fun short => ?_⟩
        · simp only [encode_cons, List.length_append, String.length_utf8EncodeChar,
            List.length_cons]
          omega
        · simp only [encode_cons, List.length_append, String.length_utf8EncodeChar,
            List.length_cons] at short
          omega
      · obtain ⟨c, found, next⟩ := Option.bind_eq_some_iff.1 read
        obtain ⟨⟨ds, end'⟩, more, same⟩ := Option.map_eq_some_iff.1 next
        cases same
        obtain ⟨inner, split, bound, tight⟩ := ih more
        have front := eq_of_decodeRune found
        rw [split] at front
        refine ⟨String.utf8EncodeChar c ++ inner, by rw [front, List.append_assoc], ?_,
          fun short => ?_⟩
        · simp only [encode_cons, List.length_append]
          omega
        · simp only [encode_cons, List.length_append] at short
          obtain ⟨rfl, plain⟩ := tight (by omega)
          refine ⟨encode_cons c ds, fun d mem => ?_⟩
          rcases List.mem_cons.1 mem with rfl | inside
          · exact isPlain_of_decodeRune found isQuote isBackslash isControl
          · exact plain d inside

theorem readChars_encode {n : ℕ} (tail : Str) (plain : ∀ c ∈ cs, IsPlain c)
    (enough : (encode cs).length < n) :
    readChars n (encode cs ++ quote :: tail) = some (cs, tail) := by
  induction cs generalizing n with
  | nil =>
    obtain ⟨n, rfl⟩ := Nat.exists_eq_succ_of_ne_zero (Nat.ne_of_gt (Nat.zero_lt_of_lt enough))
    simp [readChars, encode]
  | cons c cs ih =>
    obtain ⟨n, rfl⟩ := Nat.exists_eq_succ_of_ne_zero (Nat.ne_of_gt (Nat.zero_lt_of_lt enough))
    rw [encode_cons, List.length_append, String.length_utf8EncodeChar] at enough
    have positive := c.utf8Size_pos
    have read := decodeRune_append c (encode cs ++ quote :: tail)
    have rest : (String.utf8EncodeChar c ++ (encode cs ++ quote :: tail)).drop c.utf8Size =
        encode cs ++ quote :: tail := List.drop_left' (String.length_utf8EncodeChar c)
    rw [encode_cons, List.append_assoc]
    cases whole : String.utf8EncodeChar c ++ (encode cs ++ quote :: tail) with
    | nil => simp at whole
    | cons b after =>
      rw [whole] at read rest
      obtain ⟨notQuote, notBackslash, notControl⟩ := plain c List.mem_cons_self
      have same (small : b < 128) := toNat_eq_of_decodeRune read (.inr small)
      have hq : b ≠ quote := by
        rintro rfl
        exact notQuote (Char.toNat_inj.1 (same (by decide)))
      have hb : b ≠ backslash := by
        rintro rfl
        exact notBackslash (Char.toNat_inj.1 (same (by decide)))
      have hc : ¬ b < 0x20 := by
        intro control
        have low : b.toNat < 32 := control
        have equal := same (show b.toNat < 128 by omega)
        omega
      simp only [readChars]
      rw [if_neg hq, if_neg hb, if_neg hc, read, Option.bind_some, rest,
        ih (fun d mem => plain d (List.mem_cons_of_mem _ mem)) (by omega)]
      rfl

theorem trim_eq_self (clear : ∀ c ∈ s.head?, isSpace c = false)
    (clear' : ∀ c ∈ s.getLast?, isSpace c = false) : trim s = s := by
  have front : s.dropWhile isSpace = s := by
    refine List.dropWhile_eq_self_iff.2 fun long => ?_
    rw [clear s[0] (by rw [List.head?_eq_getElem?, List.getElem?_eq_getElem long]; rfl)]
    exact Bool.false_ne_true
  rw [trim, front]
  refine List.rdropWhile_eq_self_iff.2 fun some => ?_
  rw [clear' _ (List.getLast?_eq_getLast_of_ne_nil some)]
  exact Bool.false_ne_true

theorem length_trim_le (s : Str) : (trim s).length ≤ s.length :=
  (List.rdropWhile_prefix isSpace _).length_le.trans (List.dropWhile_sublist _).length_le

theorem not_space_of_literal : ∀ c, isLiteralByte c = true → isSpace c = false ∧ c ≠ quote := by
  refine forall_byte ?_
  decide +kernel

/-- A literal of Go pasted as a document is the number when JSON writes numbers that way, and no
document otherwise. -/
theorem readScalar_number {q : ℚ} (value : number s = some q) :
    readScalar s = if isJsonNumber s then some (.number q) else none := by
  have bytes := bytes_of_number value
  have core : trim s = s := trim_eq_self
    (fun c mem => (not_space_of_literal c (bytes c (List.mem_of_head? mem))).1)
    (fun c mem => (not_space_of_literal c (bytes c (List.mem_of_getLast? mem))).1)
  have notQuote : s.head? ≠ some quote := fun head =>
    (not_space_of_literal quote (bytes quote (List.mem_of_head? head))).2 rfl
  have word (t : Str) (none : number t = none) : s ≠ t := by
    rintro rfl
    rw [none] at value
    cases value
  unfold readScalar
  rw [core, if_neg (word _ (by decide +kernel)), if_neg (word _ (by decide +kernel)),
    if_neg (word _ (by decide +kernel)), if_neg notQuote, value]
  rfl

/-- A document that is a string holds two quotes about what it is read from. -/
theorem readScalar_eq_string (read : readScalar s = some (.string cs)) :
    ∃ used, trim s = quote :: (used ++ [quote]) ∧ (encode cs).length ≤ used.length ∧
      (used.length ≤ (encode cs).length → used = encode cs ∧ ∀ c ∈ cs, IsPlain c) := by
  unfold readScalar at read
  dsimp only at read
  split_ifs at read with _ _ _ head
  · cases read
  · cases read
  · cases read
  · obtain ⟨⟨ds, tail⟩, chars, kept⟩ := Option.bind_eq_some_iff.1 read
    obtain ⟨done, same⟩ := Option.ite_none_right_eq_some.1 kept
    cases same
    dsimp only at done
    subst done
    obtain ⟨used, split, bound, tight⟩ := readChars_eq_some chars
    refine ⟨used, ?_, bound, tight⟩
    rw [← split]
    exact List.eq_cons_of_mem_head? head
  · obtain ⟨q, -, same⟩ := Option.map_eq_some_iff.1 read
    cases same

/-- A text between quotes reads as the text exactly when nothing in it needs an escape. -/
theorem readScalar_quoted (s : Str) :
    readScalar (quote :: (s ++ [quote])) = some (.string (runes s)) ↔ IsPlainText s := by
  have core : trim (quote :: (s ++ [quote])) = quote :: (s ++ [quote]) := by
    refine trim_eq_self ?_ ?_
    · rintro c ⟨⟩
      decide
    · intro c mem
      rw [← List.cons_append, List.getLast?_append] at mem
      cases mem
      decide
  constructor
  · intro read
    obtain ⟨used, split, bound, tight⟩ := readScalar_eq_string read
    rw [core] at split
    obtain rfl : s = used := List.append_inj_left' (List.cons.inj split).2 rfl
    obtain ⟨same, plain⟩ := tight (length_le_runesFrom le_rfl)
    exact ⟨runes s, same, plain⟩
  · rintro ⟨cs, rfl, plain⟩
    have enough : (encode cs).length < (quote :: (encode cs ++ [quote])).length := by
      simp only [List.length_cons, List.length_append]
      omega
    have chars := readChars_encode [] plain enough
    have word (t : Str) (head : t.head? ≠ some quote) : quote :: (encode cs ++ [quote]) ≠ t := by
      rintro rfl
      exact head rfl
    unfold readScalar
    rw [core, if_neg (word _ (by decide)), if_neg (word _ (by decide)), if_neg (word _ (by decide)),
      if_pos List.head?_cons, List.tail_cons, chars, runes_encode]
    rfl

theorem readScalar_raw (s : Str) : readScalar s ≠ some (.string (runes s)) := by
  intro read
  obtain ⟨used, split, bound, -⟩ := readScalar_eq_string read
  have long := length_trim_le s
  have chars : s.length ≤ (encode (runes s)).length := length_le_runesFrom le_rfl
  rw [split, List.length_cons, List.length_append, List.length_singleton] at long
  omega

end Polycube.Polycubectl
