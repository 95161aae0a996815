import Polycube.Iptables.LocalIps

/-!
# Texts of addresses

Addresses are read by `sscanf`, whose `%hhu` and `%hhx` take white space and a sign before a number
and cut the number to 8 bits, and the length of a mask is the number of its bits that are set,
wherever they are.
-/

namespace Polycube.Polycubed.Addresses

open Lib
open Polycube.Dispatcher (isSpace number)
open Polycube.Iptables

/-! ### MAC addresses -/

def isHex (c : Char) : Bool :=
  c.isDigit || 'a'.toNat ≤ c.toNat && c.toNat ≤ 'f'.toNat || 'A'.toNat ≤ c.toNat && c.toNat ≤ 'F'.toNat

def hexDigit (c : Char) : ℕ :=
  if c.isDigit then c.toNat - '0'.toNat else c.toNat % 32 + 9

def hexNumber (digits : Text) : ℕ := digits.foldl (fun n c => 16 * n + hexDigit c) 0

/-- What follows the first digit when that is the beginning of `0x`. -/
def unprefixed : Text → Text
  | '0' :: 'x' :: text => '0' :: text
  | '0' :: 'X' :: text => '0' :: text
  | text => text

/-- `%hhx` of `sscanf`. -/
def scanHhx (text : Text) : Option (BitVec 8 × Text) :=
  let (minus, text) := scanSign (text.dropWhile isSpace)
  let text := unprefixed text
  let digits := text.takeWhile isHex
  if digits.isEmpty then none
  else
    let n := hexNumber digits
    let value := if n < 2 ^ 64 then
        if minus then -BitVec.ofNat 8 n else BitVec.ofNat 8 n
      else BitVec.allOnes 8
    some (value, text.dropWhile isHex)

/-- `sscanf` of numbers with a character between them, when it reads the whole text. -/
def scanFields (scan : Text → Option (BitVec 8 × Text)) (sep : Char) :
    ℕ → Text → Option (List (BitVec 8))
  | 0, _ => none
  | n + 1, text =>
    match scan text with
    | some (a, []) => if n = 0 then some [a] else none
    | some (a, c :: text) => if c = sep then (a :: ·) <$> scanFields scan sep n text else none
    | none => none

def macStringToNboUint (mac : Text) : Except String (BitVec 48) :=
  match scanFields scanHhx ':' 6 mac with
  | some [a₀, a₁, a₂, a₃, a₄, a₅] => .ok (a₅ ++ a₄ ++ a₃ ++ a₂ ++ a₁ ++ a₀)
  | _ => .error ("invalid mac address format " ++ String.ofList mac)

/-- `%02x` -/
def hexByte (b : ℕ) : Text := [Nat.digitChar (b / 16), Nat.digitChar (b % 16)]

def nboUintToMacString (mac : BitVec 48) : Text :=
  let byte (i : ℕ) := hexByte (mac.toNat / 256 ^ i % 256)
  byte 0 ++ ':' :: (byte 1 ++ ':' :: (byte 2 ++ ':' :: (byte 3 ++ ':' :: (byte 4 ++ ':' :: byte 5))))

/-- `inet_pton` takes the texts that `inet_ntoa` makes, and no others. -/
def inetPton (text : Text) : Option (BitVec 32) := (scanAddress text).filter (dotted · = text)

/-- The loop that clears the lowest bit; none if that takes more rounds. -/
def countBits : ℕ → BitVec 32 → ℕ → Option ℕ
  | 0, n, counter => if n = 0 then some counter else none
  | rounds + 1, n, counter =>
    if n = 0 then some counter else countBits rounds (n &&& (n - 1)) (counter + 1)

def getNetmaskLength (netmaskString : Text) : Except String ℕ :=
  match inetPton netmaskString with
  | some n =>
    match countBits n.toNat n 0 with
    | some counter => .ok counter
    | none => .error "the loop goes on"
  | none => .error "IP Address is not in a valid format"

def netmask (prefixlength : ℕ) : BitVec 32 := bswap32 (BitVec.allOnes 32 <<< (32 - prefixlength))

def getNetmaskFromPrefixlength (prefixlength : ℕ) : Text :=
  if prefixlength = 0 then "0.0.0.0".toList else dotted (netmask prefixlength)

/-- Numbers of a kind with a character between them. -/
def Fields (Number : Text → Prop) (sep : Char) : ℕ → Text → Prop
  | 0, _ => False
  | n + 1, text => n = 0 ∧ Number text ∨
    ∃ item rest, text = item ++ sep :: rest ∧ Number item ∧ Fields Number sep n rest

/-- A number of at most 255. -/
def Byte (digit : Char → Bool) (value : Text → ℕ) (text : Text) : Prop :=
  text ≠ [] ∧ (∀ c ∈ text, digit c = true) ∧ value text ≤ 255

/-- A number of any size, after white space and a sign. -/
def Loose (digit : Char → Bool) (start : Text → Text) (text : Text) : Prop :=
  ∃ blanks sign digits, text = blanks ++ (sign ++ digits) ∧ (∀ c ∈ blanks, isSpace c = true) ∧
    sign ∈ [[], ['+'], ['-']] ∧ start digits ≠ [] ∧ ∀ c ∈ start digits, digit c = true

def Ipv4 : Text → Prop := Fields (Byte Char.isDigit number) '.' 4

def Mac : Text → Prop := Fields (Byte isHex hexNumber) ':' 6

/-- What `sscanf` takes for an address, besides addresses. -/
def LooseIpv4 (text : Text) : Prop := Fields (Loose Char.isDigit id) '.' 4 (removeNetFromIp text)

def LooseMac : Text → Prop := Fields (Loose isHex unprefixed) ':' 6

def Contiguous (mask : BitVec 32) : Prop := ∃ p ≤ 32, mask = netmask p

/-- The length of a mask is that of the prefix it comes from, and there is none if there is no such
prefix. -/
def Measured (mask : BitVec 32) : Prop :=
  (∀ p ≤ 32, mask = netmask p → getNetmaskLength (dotted mask) = .ok p ∧
    getNetmaskFromPrefixlength p = dotted mask) ∧
  (¬ Contiguous mask → ∃ e, getNetmaskLength (dotted mask) = .error e)

/-! ### What is read -/

/-- What follows the number that a conversion reads. -/
def after (digit : Char → Bool) (start : Text → Text) (text : Text) : Option Text :=
  let text := start (scanSign (text.dropWhile isSpace)).2
  if (text.takeWhile digit).isEmpty then none else some (text.dropWhile digit)

def Follows (digit : Char → Bool) (rest : Text) : Prop :=
  ∀ c ∈ rest.head?, digit c = false ∧ c ≠ 'x' ∧ c ≠ 'X'

/-- A conversion, by its digits and its first characters. -/
structure Conversion (digit : Char → Bool) (start : Text → Text) : Prop where
  plain : ∀ c, digit c = true → isSpace c = false ∧ c ≠ '-' ∧ c ≠ '+'
  split : ∀ text, ∃ digits, text = digits ++ (start text).dropWhile digit ∧
    start digits = (start text).takeWhile digit
  append : ∀ digits rest, start digits ≠ [] → (∀ c ∈ start digits, digit c = true) →
    Follows digit rest → start (digits ++ rest) = start digits ++ rest
  head : ∀ digits, (start digits).head? = digits.head?

variable {digit : Char → Bool} {start : Text → Text} {text rest item : Text}

theorem scanSign_append (text : Text) :
    ∃ sign ∈ [[], ['+'], ['-']], text = sign ++ (scanSign text).2 := by
  unfold scanSign
  split
  · exact ⟨['-'], by simp, rfl⟩
  · exact ⟨['+'], by simp, rfl⟩
  · exact ⟨[], by simp, rfl⟩

theorem loose_of_after (conv : Conversion digit start) (h : after digit start text = some rest) :
    ∃ item, text = item ++ rest ∧ Loose digit start item := by
  unfold after at h
  dsimp only at h
  split_ifs at h with empty
  obtain rfl := Option.some.inj h
  obtain ⟨sign, hsign, signed⟩ := scanSign_append (text.dropWhile isSpace)
  obtain ⟨digits, split, taken⟩ := conv.split (scanSign (text.dropWhile isSpace)).2
  refine ⟨text.takeWhile isSpace ++ (sign ++ digits), ?_, _, sign, digits, rfl, fun c hc => ?_,
    hsign, ?_, ?_⟩
  · rw [List.append_assoc, List.append_assoc, ← split, ← signed, List.takeWhile_append_dropWhile]
  · exact List.mem_takeWhile_imp hc
  · rw [taken]
    exact fun none => empty (List.isEmpty_iff.2 none)
  · rw [taken]
    exact fun c hc => List.mem_takeWhile_imp hc

theorem after_of_loose (conv : Conversion digit start) (loose : Loose digit start item)
    (follows : Follows digit rest) : after digit start (item ++ rest) = some rest := by
  obtain ⟨blanks, sign, digits, rfl, spaces, hsign, some, all⟩ := loose
  obtain ⟨c, cs, first⟩ := List.exists_cons_of_ne_nil some
  obtain ⟨noSpace, minus, plus⟩ := conv.plain c (all c (first ▸ List.mem_cons_self))
  obtain ⟨ds, rfl⟩ : ∃ ds, digits = c :: ds := by
    have := conv.head digits
    rw [first] at this
    cases digits with
    | nil => cases this
    | cons d ds => exact ⟨ds, by rw [Option.some.inj this]⟩
  have noDigit : rest.takeWhile digit = [] ∧ rest.dropWhile digit = rest := by
    cases rest with
    | nil => exact ⟨rfl, rfl⟩
    | cons c rest => simp [(follows c rfl).1]
  have signed : scanSign ((blanks ++ (sign ++ c :: ds) ++ rest).dropWhile isSpace) =
      ((scanSign sign).1, c :: ds ++ rest) := by
    rw [List.append_assoc, List.dropWhile_append_of_pos spaces]
    simp only [List.mem_cons, List.not_mem_nil, or_false] at hsign
    rcases hsign with rfl | rfl | rfl
    · rw [List.nil_append, List.cons_append, List.dropWhile_cons_of_neg (by simp [noSpace])]
      unfold scanSign
      split <;> simp_all
    · rfl
    · rfl
  unfold after
  simp only [signed]
  rw [conv.append _ _ some all follows, List.takeWhile_append_of_pos all,
    List.dropWhile_append_of_pos all, noDigit.1, noDigit.2, first]
  rfl

variable {scan : Text → Option (BitVec 8 × Text)} {sep : Char}

theorem scanFields_isSome_iff (conv : Conversion digit start)
    (scanned : ∀ text, (scan text).map Prod.snd = after digit start text)
    (hsep : digit sep = false ∧ sep ≠ 'x' ∧ sep ≠ 'X') (n : ℕ) (text : Text) :
    (scanFields scan sep n text).isSome ↔ Fields (Loose digit start) sep n text := by
  have reads (text rest : Text) :
      (∃ a, scan text = some (a, rest)) ↔ after digit start text = some rest := by
    rw [← scanned]
    simp [Option.map_eq_some_iff]
  induction n generalizing text with
  | zero => simp [scanFields, Fields]
  | succ n ih =>
    constructor
    · intro h
      rw [scanFields] at h
      split at h
      · rename_i a here
        split_ifs at h with last
        · obtain ⟨item, whole, loose⟩ := loose_of_after conv ((reads _ _).1 ⟨a, here⟩)
          rw [List.append_nil] at whole
          exact .inl ⟨last, whole ▸ loose⟩
        · cases h
      · rename_i a c rest here
        split_ifs at h with same
        · obtain ⟨item, whole, loose⟩ := loose_of_after conv ((reads _ _).1 ⟨a, here⟩)
          exact .inr ⟨item, rest, same ▸ whole, loose, (ih rest).1 (by simpa using h)⟩
        · cases h
      · cases h
    · rintro (⟨rfl, loose⟩ | ⟨item, rest, rfl, loose, fields⟩)
      · have whole := after_of_loose conv loose (show Follows digit [] from fun c hc => by cases hc)
        rw [List.append_nil] at whole
        obtain ⟨a, here⟩ := (reads _ _).2 whole
        rw [scanFields, here]
        rfl
      · have follows : Follows digit (sep :: rest) := fun c hc => by
          obtain rfl := Option.some.inj hc
          exact hsep
        have first := after_of_loose conv loose follows
        obtain ⟨a, here⟩ := (reads _ _).2 first
        rw [scanFields, here]
        simpa using (ih rest).2 fields

theorem hhu : Conversion Char.isDigit id where
  plain _ := isSpace_of_isDigit
  split _ := ⟨_, List.takeWhile_append_dropWhile.symm, rfl⟩
  append _ _ _ _ _ := rfl
  head _ := rfl

theorem unprefixed_of_all {digits : Text} (all : ∀ c ∈ digits, isHex c = true) :
    unprefixed digits = digits := by
  unfold unprefixed
  split
  · exact absurd (all 'x' (by simp)) (by decide)
  · exact absurd (all 'X' (by simp)) (by decide)
  · rfl

theorem hhx : Conversion isHex unprefixed where
  plain c hc := by
    have low : 48 ≤ c.toNat := by
      simp only [isHex, Bool.or_eq_true, Bool.and_eq_true, decide_eq_true_eq] at hc
      rcases hc with (digit | ⟨low, -⟩) | ⟨low, -⟩
      · exact (Char.isDigit_iff_toNat.1 digit).1
      · exact le_trans (by decide) low
      · exact le_trans (by decide) low
    refine ⟨?_, ?_, ?_⟩
    · have : c ≠ ' ' := by
        rintro rfl
        exact absurd low (by decide)
      simp only [isSpace, beq_eq_false_iff_ne.2 this, Bool.false_or, Bool.and_eq_false_iff,
        decide_eq_false_iff_not]
      omega
    · rintro rfl
      exact absurd low (by decide)
    · rintro rfl
      exact absurd low (by decide)
  split text := by
    have all : ∀ c ∈ text.takeWhile isHex, isHex c = true := fun c hc => List.mem_takeWhile_imp hc
    unfold unprefixed
    split
    · rename_i t
      exact ⟨'0' :: 'x' :: t.takeWhile isHex, by simp [isHex], by simp [isHex]⟩
    · rename_i t
      exact ⟨'0' :: 'X' :: t.takeWhile isHex, by simp [isHex], by simp [isHex]⟩
    · exact ⟨_, List.takeWhile_append_dropWhile.symm, unprefixed_of_all all⟩
  append digits rest some all follows := by
    match digits with
    | [] => exact absurd rfl some
    | [c] =>
      cases rest with
      | nil => simp
      | cons d rest =>
        obtain ⟨-, x, X⟩ := follows d rfl
        unfold unprefixed
        split <;> simp_all
    | c :: d :: digits =>
      unfold unprefixed
      split <;> simp_all
  head digits := by
    unfold unprefixed
    split <;> rfl

theorem scanFields_dot (n : ℕ) (text : Text) : scanFields scanHhu '.' (n + 2) text =
    (scanHhuDot text).bind fun p => (p.1 :: ·) <$> scanFields scanHhu '.' (n + 1) p.2 := by
  rw [scanFields, scanHhuDot]
  split
  · rename_i a here
    simp [here]
  · rename_i a c rest here
    by_cases dot : c = '.'
    · simp [here, dot]
    · rw [here, if_neg dot]
      split <;> simp_all
  · rename_i here
    simp [here]

theorem scanAddress_isSome_iff (text : Text) :
    (scanAddress text).isSome ↔ (scanFields scanHhu '.' 4 text).isSome := by
  have last (text : Text) : (scanFields scanHhu '.' 1 text).isSome ↔
      ∃ a, scanHhu text = some (a, []) := by
    rw [scanFields]
    split <;> simp_all [scanFields]
  have dots (n : ℕ) (text : Text) : (scanFields scanHhu '.' (n + 2) text).isSome ↔
      ∃ a rest, scanHhuDot text = some (a, rest) ∧ (scanFields scanHhu '.' (n + 1) rest).isSome := by
    rw [scanFields_dot]
    cases scanHhuDot text with
    | none => simp
    | some p => simp [Prod.ext_iff]
  have more {β : Type} (text : Text) (f : BitVec 8 × Text → Option β) :
      ((scanHhuDot text).bind f).isSome ↔
        ∃ a rest, scanHhuDot text = some (a, rest) ∧ (f (a, rest)).isSome := by
    cases scanHhuDot text with
    | none => simp
    | some p => simp [Prod.ext_iff]
  simp only [dots, last, scanAddress, Option.bind_eq_bind, more]
  refine exists₂_congr fun a₀ r₀ => and_congr_right fun _ => exists₂_congr fun a₁ r₁ =>
    and_congr_right fun _ => exists₂_congr fun a₂ r₂ => and_congr_right fun _ => ?_
  cases scanHhu r₂ with
  | none => simp
  | some p => cases p.2 <;> simp [Prod.ext_iff] 

theorem scanHhx_hexByte {b : ℕ} (hb : b < 256) (follows : Follows isHex rest) :
    scanHhx (hexByte b ++ rest) = some (BitVec.ofNat 8 b, rest) := by
  have digit : ∀ d < 16, isHex (Nat.digitChar d) = true ∧ hexDigit (Nat.digitChar d) = d := by
    decide
  obtain ⟨high, highValue⟩ := digit (b / 16) (by omega)
  obtain ⟨low, lowValue⟩ := digit (b % 16) (by omega)
  have all : ∀ c ∈ hexByte b, isHex c = true := by simp [hexByte, high, low]
  have value : hexNumber (hexByte b) = b := by
    simp only [hexNumber, hexByte, List.foldl_cons, List.foldl_nil, highValue, lowValue]
    omega
  obtain ⟨noSpace, minus, plus⟩ := hhx.plain _ high
  have noDigit : rest.takeWhile isHex = [] ∧ rest.dropWhile isHex = rest := by
    cases rest with
    | nil => exact ⟨rfl, rfl⟩
    | cons c rest => simp [(follows c rfl).1]
  have signed : scanSign ((hexByte b ++ rest).dropWhile isSpace) = (false, hexByte b ++ rest) := by
    unfold hexByte
    rw [List.cons_append, List.dropWhile_cons_of_neg (by simp [noSpace])]
    unfold scanSign
    split <;> simp_all
  unfold scanHhx
  simp only [signed]
  have some : unprefixed (hexByte b) ≠ [] := by
    rw [unprefixed_of_all all]
    exact List.cons_ne_nil _ _
  have small : b < 2 ^ 64 := by omega
  rw [hhx.append _ _ some (by rwa [unprefixed_of_all all]) follows, unprefixed_of_all all,
    List.takeWhile_append_of_pos all, List.dropWhile_append_of_pos all, noDigit.1, noDigit.2, List.append_nil, value]
  rw [if_neg (by simp [hexByte]), if_pos small]
  rfl

theorem scanFields_cons {n : ℕ} {a : BitVec 8} (h : scan (item ++ sep :: rest) = some (a, sep :: rest)) :
    scanFields scan sep (n + 1) (item ++ sep :: rest) = (a :: ·) <$> scanFields scan sep n rest := by
  rw [scanFields, h]
  simp

theorem macStringToNboUint_print (mac : BitVec 48) :
    macStringToNboUint (nboUintToMacString mac) = .ok mac := by
  have byte (i : ℕ) : mac.toNat / 256 ^ i % 256 < 256 := Nat.mod_lt _ (by decide)
  have colon (rest : Text) : Follows isHex (':' :: rest) := by
    rintro c ⟨⟩
    decide
  have last := scanHhx_hexByte (byte 5) (show Follows isHex [] from fun c hc => by cases hc)
  rw [List.append_nil] at last
  unfold macStringToNboUint nboUintToMacString
  simp only [scanFields_cons (scanHhx_hexByte (byte _) (colon _))]
  rw [scanFields, last]
  have := mac.isLt
  refine congrArg Except.ok (BitVec.eq_of_toNat_eq ?_)
  simp only [toNat_append_eq, BitVec.toNat_ofNat, Nat.reducePow, Nat.mod_mod]
  omega

theorem countBits_isSome {rounds : ℕ} {n : BitVec 32} (enough : n.toNat ≤ rounds) (counter : ℕ) :
    (countBits rounds n counter).isSome := by
  induction rounds generalizing n counter with
  | zero =>
    have : n = 0 := BitVec.eq_of_toNat_eq (Nat.le_zero.1 enough)
    rw [countBits, if_pos this]
    rfl
  | succ rounds ih =>
    rw [countBits]
    split_ifs with zero
    · rfl
    · apply ih
      have fewer : (n &&& (n - 1)).toNat ≤ (n - 1).toNat := by
        rw [BitVec.toNat_and]
        exact Nat.and_le_right
      have : 1 ≤ n.toNat := Nat.pos_of_ne_zero fun h => zero (BitVec.eq_of_toNat_eq h)
      bv_omega

theorem getNetmaskLength_dotted (mask : BitVec 32) :
    ∃ counter, countBits mask.toNat mask 0 = some counter ∧
      getNetmaskLength (dotted mask) = .ok counter := by
  obtain ⟨counter, h⟩ := Option.isSome_iff_exists.1 (countBits_isSome (le_refl mask.toNat) 0)
  refine ⟨counter, h, ?_⟩
  unfold getNetmaskLength inetPton
  simp only [scanAddress_dotted, Option.filter_some, decide_true, if_true, h]

theorem measured_iff (mask : BitVec 32) : Measured mask ↔ Contiguous mask := by
  obtain ⟨counter, bits, length⟩ := getNetmaskLength_dotted mask
  constructor
  · intro measured
    by_contra none
    obtain ⟨e, error⟩ := measured.2 none
    rw [length] at error
    cases error
  · intro contiguous
    refine ⟨?_, fun none => absurd contiguous none⟩
    rintro p hp rfl
    have all : ∀ p < 33, countBits (netmask p).toNat (netmask p) 0 = some p := by decide +kernel
    have zero : "0.0.0.0".toList = dotted (netmask 0) := by decide +kernel
    refine ⟨?_, ?_⟩
    · rw [length, Option.some.inj (bits.symm.trans (all p (by omega)))]
    · unfold getNetmaskFromPrefixlength
      split_ifs with h
      · rw [h, zero]
      · rfl

theorem looseIpv4_iff (ip : Text) : (∃ a, ipStringToNboUint ip = .ok a) ↔ LooseIpv4 ip := by
  unfold LooseIpv4
  have scanned (text : Text) : (scanHhu text).map Prod.snd = after Char.isDigit id text := by
    unfold scanHhu after
    dsimp only
    split <;> simp_all
  rw [← scanFields_isSome_iff hhu scanned (by decide), ← scanAddress_isSome_iff]
  unfold ipStringToNboUint
  cases scanAddress (removeNetFromIp ip) <;> simp

theorem length_scanFields {n : ℕ} {l : List (BitVec 8)} (h : scanFields scan sep n text = some l) :
    l.length = n := by
  induction n generalizing text l with
  | zero => cases h
  | succ n ih =>
    rw [scanFields] at h
    split at h
    · split_ifs at h with last
      obtain rfl := Option.some.inj h
      rw [last]
      rfl
    · split_ifs at h
      obtain ⟨l, rest, rfl⟩ := Option.map_eq_some_iff.1 h
      rw [List.length_cons, ih rest]
    · cases h

theorem looseMac_iff (mac : Text) : (∃ a, macStringToNboUint mac = .ok a) ↔ LooseMac mac := by
  unfold LooseMac
  have scanned (text : Text) : (scanHhx text).map Prod.snd = after isHex unprefixed text := by
    unfold scanHhx after
    dsimp only
    split <;> simp_all
  rw [← scanFields_isSome_iff hhx scanned (by decide)]
  unfold macStringToNboUint
  cases fields : scanFields scanHhx ':' 6 mac with
  | none => simp
  | some l =>
    match l, length_scanFields fields with
    | [_, _, _, _, _, _], _ => simp

theorem Fields.imp {Number Number' : Text → Prop} (imp : ∀ text, Number text → Number' text) {n : ℕ}
    (h : Fields Number sep n text) : Fields Number' sep n text := by
  induction n generalizing text with
  | zero => cases h
  | succ n ih =>
    rcases h with ⟨last, number⟩ | ⟨item, rest, split, number, more⟩
    · exact .inl ⟨last, imp _ number⟩
    · exact .inr ⟨item, rest, split, imp _ number, ih more⟩

theorem loose_of_byte (same : ∀ digits, (∀ c ∈ digits, digit c = true) → start digits = digits)
    {value : Text → ℕ} (h : Byte digit value text) : Loose digit start text := by
  obtain ⟨some, all, -⟩ := h
  refine ⟨[], [], text, rfl, by simp, by simp, ?_⟩
  rw [same text all]
  exact ⟨some, all⟩

theorem mem_of_fields {value : Text → ℕ} {n : ℕ} (h : Fields (Byte digit value) sep n text) :
    ∀ c ∈ text, digit c = true ∨ c = sep := by
  induction n generalizing text with
  | zero => cases h
  | succ n ih =>
    rcases h with ⟨-, number⟩ | ⟨item, rest, rfl, number, more⟩
    · exact fun c hc => .inl (number.2.1 c hc)
    · intro c hc
      rcases List.mem_append.1 hc with hc | hc
      · exact .inl (number.2.1 c hc)
      · rcases List.mem_cons.1 hc with rfl | hc
        · exact .inr rfl
        · exact ih more c hc

theorem LooseIpv4.of_ipv4 {ip : Text} (h : Ipv4 ip) : LooseIpv4 ip := by
  have whole : removeNetFromIp ip = ip := by
    unfold removeNetFromIp
    rw [List.takeWhile_eq_self_iff]
    intro c hc
    rcases mem_of_fields h c hc with digit | rfl
    · simpa using fun (slash : c = '/') => by simp [slash] at digit
    · rfl
  unfold LooseIpv4
  rw [whole]
  exact h.imp fun _ => loose_of_byte fun _ _ => rfl

theorem LooseMac.of_mac {mac : Text} (h : Mac mac) : LooseMac mac :=
  h.imp fun _ => loose_of_byte fun _ => unprefixed_of_all

/-- What is printed is read back; the texts that are read and are no addresses are those that have
only the looser form; and the masks that are measured are right exactly when they are contiguous. -/
theorem addresses_iff (ip mask : BitVec 32) (mac : BitVec 48) (text : Text) :
    ipStringToNboUint (dotted ip) = .ok ip ∧
      macStringToNboUint (nboUintToMacString mac) = .ok mac ∧
      (((∃ a, ipStringToNboUint text = .ok a) ↔ Ipv4 text) ↔ (LooseIpv4 text → Ipv4 text)) ∧
      (((∃ a, macStringToNboUint text = .ok a) ↔ Mac text) ↔ (LooseMac text → Mac text)) ∧
      (Measured mask ↔ Contiguous mask) := by
  refine ⟨?_, macStringToNboUint_print mac, ?_, ?_, measured_iff mask⟩
  · rw [ipStringToNboUint, show removeNetFromIp (dotted ip) = dotted ip from
      removeNetFromIp_dotted ip none, scanAddress_dotted]
  · rw [looseIpv4_iff]
    exact ⟨Iff.mp, fun h => ⟨h, LooseIpv4.of_ipv4⟩⟩
  · rw [looseMac_iff]
    exact ⟨Iff.mp, fun h => ⟨h, LooseMac.of_mac⟩⟩

theorem not_addresses : ¬ ∀ ip, (∃ a, ipStringToNboUint ip = .ok a) ↔ Ipv4 ip := by
  intro addresses
  have minus := (addresses "1.2.3.-4".toList).1 ⟨0xfc030201, by decide⟩
  have := mem_of_fields minus '-' (by decide)
  revert this
  decide

end Polycube.Polycubed.Addresses
