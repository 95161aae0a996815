import Mathlib
import Polycube.Polycubed.Conformance
import Polycube.Polycubed.Ranges

/-!
# Validators of unions and bits

What the parser of data models makes of a type: the validators that are registered for it and the
C++ types that tell its values apart.  A union keeps the validators of its members by these types;
a value of a union is right if it is one of a member.
-/

namespace Polycube.Polycubed.Resources

open Lib

/-! ### Declared types -/

abbrev Length := Expression 0 0 (2 ^ 64 - 1)

structure Pattern where
  inverse : Bool
  expr : String
  deriving DecidableEq

/-- `lys_type`: a type that the parser supports, with the restrictions in its `info`.  Those of the
typedefs that it is derived from are not in there. -/
inductive Declared
  | binary (length : Option Length) (typedefs : List (Option Length))
  | bits (bit : List (UInt32 × String)) (typedefs : List (List (UInt32 × String)))
  | bool
  | dec64 (dig : ℕ) (range : Option (Expression dig (-2 ^ 63) (2 ^ 63 - 1)))
    (typedefs : List (Option (Expression dig (-2 ^ 63) (2 ^ 63 - 1))))
  | empty
  | enum (enm : List String) (typedefs : List (List String))
  | integer (type : IntType) (range : Option (Expression 0 type.min type.max))
    (typedefs : List (Option (Expression 0 type.min type.max)))
  | leafref (target : Declared)
  | string (patterns : List Pattern) (length : Option Length)
    (typedefs : List (List Pattern × Option Length))
  | union (types typedef : List Declared)

/-- `std::type_index` -/
inductive TypeIndex
  | binary | bits | bool | decimal64 | empty | enum | list | string | xpath
  | integer (type : IntType)
  deriving DecidableEq

/-- `AcceptableTypes` -/
def acceptableTypes : ValueType → List TypeIndex
  | .null => []
  | .object => []
  | .array => [.empty, .list]
  | .string => [.string, .integer .int64, .integer .uint64, .bits, .enum, .decimal64, .xpath]
  | .boolean => [.bool]
  | .integer => [.integer .int8, .integer .int16, .integer .int32, .integer .int64]
  | .unsigned => [.integer .uint8, .integer .uint16, .integer .uint8, .integer .uint64]
  | .float => [.decimal64]

/-- nlohmann's library and the regular expressions.  A `dump` of what the scalars here are is read
back as it was. -/
structure Library where
  dump : Json → String
  parse : String → Option Json
  regexMatch : String → String → Bool
  dump_boolean : ∀ b, dump (.boolean b) = if b then "true" else "false"
  parse_boolean : ∀ b, parse (dump (.boolean b)) = some (.boolean b)
  dump_null : dump (.array [.null]) = "[null]"
  parse_null : parse (dump (.array [.null])) = some (.array [.null])

/-! ### Validators -/

abbrev ValueValidator := String → Bool

/-- `LengthValidator::Validate`, of a text -/
def lengthValidate (ranges : OrdMap ℤ ℤ) : ValueValidator := fun value =>
  (ranges.filter fun r => r.1 ≤ (value.utf8ByteSize : ℤ) ∧ (value.utf8ByteSize : ℤ) ≤ r.2).length ≠
    ranges.length

/-- `PatternValidator::Validate` -/
def patternValidate (regexMatch : String → String → Bool) (p : Pattern) : ValueValidator :=
  fun value => (!p.inverse) == regexMatch value p.expr

/-- `EnumValidator::Validate`: both sides are in lower case. -/
def enumValidate (enm : List String) : ValueValidator := fun value =>
  value.toLower ∈ enm.map String.toLower

/-- `BoolValidator::Validate` -/
def boolValidate : ValueValidator := fun value => value == "true" || value == "false"

/-- `EmptyValidator::Validate`, outside of a path -/
def emptyValidate : ValueValidator := fun value => value == "[null]"

/-- `std::string::find` -/
def find (c : UInt8) (value : List UInt8) (pos : ℕ) : Option ℕ :=
  ((value.drop pos).findIdx? (· == c)).map (· + pos)

/-- `std::string::substr`.  Without a count (`npos`) it goes to the end. -/
def substr (value : List UInt8) (pos : ℕ) : Option ℕ → List UInt8
  | none => value.drop pos
  | some count => (value.drop pos).take count

/-- `npos + 1` is 0. -/
def after : Option ℕ → ℕ
  | none => 0
  | some pos => pos + 1

/-- `lpos`, `rpos` and `current`. -/
structure Cursor where
  lpos : ℕ
  rpos : Option ℕ
  current : List UInt8

def bytes (s : String) : List UInt8 := s.toUTF8.toList

def space : UInt8 := 32

def bitTurn (value : List UInt8) (c : Cursor) (bit : UInt32 × String) : Cursor :=
  if bytes bit.2 = c.current then
    ⟨after c.rpos, find space value (after c.rpos),
      substr value (after c.rpos) (find space value (after c.rpos))⟩
  else c

def bitsValidateBytes (bits : OrdMap UInt32 String) (value : List UInt8) : Bool :=
  let last := bits.foldl (bitTurn value)
    ⟨0, find space value 0, substr value 0 (find space value 0)⟩
  (find space last.current last.lpos).isSome

/-- `BitsValidator::Validate` -/
def bitsValidate (bits : OrdMap UInt32 String) : ValueValidator := fun value =>
  bitsValidateBytes bits (bytes value)

abbrev UnionMap := List (TypeIndex × List ValueValidator)

/-- `UnionValidator::AddType`: `emplace` keeps what is there. -/
def UnionMap.addType (m : UnionMap) (type : TypeIndex) (validators : List ValueValidator) :
    UnionMap :=
  if m.any fun e => e.1 = type then m else m ++ [(type, validators)]

/-- `UnionValidator::Validate` -/
def UnionMap.validate (parse : String → Option Json) (m : UnionMap) (value : String) :
    Except String Bool :=
  match parse value with
  | none => throw "parse_error"
  | some data =>
    return m.any fun e => e.1 ∈ acceptableTypes data.type && e.2.any (· value)

/-! ### The parser -/

def emplaced (ranges : List (ℤ × ℤ)) : OrdMap ℤ ℤ :=
  ranges.foldl (fun m r => m.insert r.1 r.2) []

def parseLength : Option Length → Except String (List ValueValidator)
  | none => return []
  | some length =>
    (parseRange IntType.uint64.limits IntType.uint64.lexicalCast length.text).map fun ranges =>
      [lengthValidate (emplaced ranges)]

/-- The validator of the numbers is dropped, here and for decimals. -/
def parseInteger (type : IntType) : Option (Expression 0 type.min type.max) →
    Except String (List ValueValidator × List TypeIndex)
  | none => return ([], [.integer type])
  | some range =>
    (parseRange type.limits type.lexicalCast range.text).map fun _ => ([], [.integer type])

def parseDecimal64 {dig : ℕ} : Option (Expression dig (-2 ^ 63) (2 ^ 63 - 1)) →
    Except String (List ValueValidator × List TypeIndex)
  | none => return ([], [.decimal64])
  | some range => (parseRange decimalLimits castDecimal range.text).map fun _ => ([], [.decimal64])

def parseString (regexMatch : String → String → Bool) (patterns : List Pattern)
    (length : Option Length) : Except String (List ValueValidator × List TypeIndex) :=
  (parseLength length).map fun validators =>
    (patterns.map (patternValidate regexMatch) ++ validators, [.string])

def bitsValidator (bit : List (UInt32 × String)) : ValueValidator :=
  bitsValidate (bit.foldl (fun m b => m.insert b.1 b.2) [])

/-- `ParseBits`: the list that is returned is the empty one, `bitsValidator` is not in it. -/
def parseBits (_ : List (UInt32 × String)) : List ValueValidator × List TypeIndex := ([], [.bits])

def addTypes (parsed : List ValueValidator × List TypeIndex) (m : UnionMap) : UnionMap :=
  parsed.2.foldl (fun m type => m.addType type parsed.1) m

section Parse

variable (regexMatch : String → String → Bool)

mutual

/-- `ParseType` -/
def parseType : Declared → Except String (List ValueValidator × List TypeIndex)
  | .binary length _ => (parseLength length).map fun validators => (validators, [.binary])
  | .bits bit _ => return parseBits bit
  | .bool => return ([boolValidate], [.bool])
  | .dec64 _ range _ => parseDecimal64 range
  | .empty => return ([emptyValidate], [.empty])
  | .enum enm _ => return ([enumValidate enm], [.enum])
  | .integer type range _ => parseInteger type range
  | .leafref target => parseType target
  | .string patterns length _ => parseString regexMatch patterns length
  -- the validator is dropped
  | .union types _ => (parseMembers types [] []).map fun r => ([], r.2)

/-- The loop of `ParseUnion`: the validator and the types. -/
def parseMembers : List Declared → UnionMap → List TypeIndex →
    Except String (UnionMap × List TypeIndex)
  | [], m, types => return (m, types)
  | member :: members, m, types => do
    let parsed ← parseType member
    parseMembers members (addTypes parsed m) (types ∪ parsed.2)

end

/-- The validator that `ParseUnion` builds. -/
def unionValidator (types : List Declared) : Except String UnionMap :=
  (parseMembers regexMatch types [] []).map Prod.fst

end Parse

/-! ### The values of a type -/

def readNat (digits : List Char) : Option ℕ :=
  if digits ≠ [] ∧ digits.all Char.isDigit then
    some (digits.foldl (fun n c => 10 * n + (c.toNat - '0'.toNat)) 0)
  else none

def readUnsigned (cs : List Char) : Option (ℤ × ℕ) :=
  match cs.span (· ≠ '.') with
  | (whole, []) => (readNat whole).map fun n => (n, 0)
  | (whole, _ :: places) =>
    if whole = [] ∨ places = [] then none
    else (readNat (whole ++ places)).map fun n => (n, places.length)

def readDecimal (text : String) : Option (ℤ × ℕ) :=
  match text.toList with
  | '-' :: cs => (readUnsigned cs).map fun r => (-r.1, r.2)
  | cs => readUnsigned cs

def base64Octets (text : String) : Option ℕ :=
  let cs := text.toList.takeWhile (· ≠ '=')
  let pad := text.toList.length - cs.length
  if cs.all (fun c => c.isAlphanum || c = '+' || c = '/') ∧
      (text.toList.dropWhile (· ≠ '=')).all (· = '=') ∧ (cs.length + pad) % 4 = 0 ∧ pad ≤ 2 then
    some ((cs.length + pad) / 4 * 3 - pad)
  else none

def InRange {dig : ℕ} {min max : ℤ} (range : Option (Expression dig min max)) (n : ℤ) : Prop :=
  min ≤ n ∧ n ≤ max ∧ ∀ e ∈ range, ∃ part ∈ e.parts,
    (part.ends dig min max).1 ≤ n ∧ n ≤ (part.ends dig min max).2

def IsBitSet (bit : List (UInt32 × String)) (s : String) : Prop :=
  ∃ set, set.Sublist ((bit.mergeSort fun a b => a.1 ≤ b.1).map Prod.snd) ∧ set.Nodup ∧
    s = " ".intercalate set

/-- A number with at most `dig` digits after the point, as many as they are, in all ranges. -/
def DecimalIn {dig : ℕ} (ranges : List (Option (Expression dig (-2 ^ 63) (2 ^ 63 - 1)))) :
    Option (ℤ × ℕ) → Prop
  | none => False
  | some (i, places) => places ≤ dig ∧ ∀ range ∈ ranges, InRange range (i * 10 ^ (dig - places))

/-- Names are in the type itself, or in the first typedef that has some. -/
def narrowest {α : Type} (lists : List (List α)) : List α :=
  (lists.find? fun names => !names.isEmpty).getD []

section Accepts

variable (regexMatch : String → String → Bool)

mutual

/-- The type has the value, which keeps all restrictions of the type and of its typedefs.  Names of
enumerations are not told apart by their case. -/
def Declared.Accepts : Declared → Json → Prop
  | .binary length typedefs, .string s =>
    ∃ n : ℕ, base64Octets s = some n ∧ ∀ l ∈ length :: typedefs, InRange l n
  | .bits bit typedefs, .string s => IsBitSet (narrowest (bit :: typedefs)) s
  | .bool, .boolean _ => True
  | .dec64 _ range typedefs, .string s => DecimalIn (range :: typedefs) (readDecimal s)
  | .dec64 _ range typedefs, .float s => DecimalIn (range :: typedefs) (readDecimal s)
  | .dec64 _ range typedefs, .integer i => DecimalIn (range :: typedefs) (some (i, 0))
  | .dec64 _ range typedefs, .unsigned n => DecimalIn (range :: typedefs) (some (n, 0))
  | .empty, .array [.null] => True
  | .enum enm typedefs, .string s =>
    s.toLower ∈ (narrowest (enm :: typedefs)).map String.toLower
  | .integer _ range typedefs, .integer i => ∀ r ∈ range :: typedefs, InRange r i
  | .integer _ range typedefs, .unsigned n => ∀ r ∈ range :: typedefs, InRange r n
  | .integer type range typedefs, .string s => type.wide = true ∧
      ∃ i, readDecimal s = some (i, 0) ∧ ∀ r ∈ range :: typedefs, InRange r i
  | .leafref target, value => target.Accepts value
  | .string patterns length typedefs, .string s => ∀ own ∈ (patterns, length) :: typedefs,
      (∀ p ∈ own.1, (regexMatch s p.expr = true ↔ p.inverse = false)) ∧ InRange own.2 s.length
  | .union types typedef, value => AnyAccepts types value ∨ AnyAccepts typedef value
  | _, _ => False

def AnyAccepts : List Declared → Json → Prop
  | [], _ => False
  | member :: members, value => member.Accepts value ∨ AnyAccepts members value

end

end Accepts

structure Library.Value (lib : Library) where
  json : Json
  scalar : json.type ≠ .null ∧ json.type ≠ .object
  document : lib.parse (lib.dump json) = some json

def UnionRight (lib : Library) (types : List Declared) (value : lib.Value) : Prop :=
  ∃ m, unionValidator lib.regexMatch types = .ok m ∧
    (m.validate lib.parse (value.json.text lib.dump) = .ok true ↔
      ∃ member ∈ types, member.Accepts lib.regexMatch value.json)

def BitsRight (bit : List (UInt32 × String)) : Prop :=
  bitsValidator bit ∈ (parseBits bit).1 ∧ ∀ s, bitsValidator bit s = true ↔ IsBitSet bit s

/-! ### When it happens -/

mutual

def Declared.castable : Declared → Bool
  | .binary length _ => castableParts Written.isNumber length
  | .dec64 _ range _ => castableParts Written.isDecimal range
  | .integer _ range _ => castableParts Written.isNumber range
  | .string _ length _ => castableParts Written.isNumber length
  | .leafref target => target.castable
  | .union types _ => allCastable types
  | _ => true

def allCastable : List Declared → Bool
  | [] => true
  | member :: members => member.castable && allCastable members

end

mutual

def Declared.types : Declared → List TypeIndex
  | .binary _ _ => [.binary]
  | .bits _ _ => [.bits]
  | .bool => [.bool]
  | .dec64 _ _ _ => [.decimal64]
  | .empty => [.empty]
  | .enum _ _ => [.enum]
  | .integer type _ _ => [.integer type]
  | .leafref target => target.types
  | .string _ _ _ => [.string]
  | .union types _ => allTypes types

def allTypes : List Declared → List TypeIndex
  | [] => []
  | member :: members => member.types ++ allTypes members

end

mutual

/-- The type has values of that kind, also through a typedef of a union. -/
def Declared.Has (t : TypeIndex) : Declared → Prop
  | .leafref target => target.Has t
  | .union types typedef => AnyHas t types ∨ AnyHas t typedef
  | .bool => t = .bool
  | .empty => t = .empty
  | _ => False

def AnyHas (t : TypeIndex) : List Declared → Prop
  | [] => False
  | member :: members => member.Has t ∨ AnyHas t members

end

def lengthRanges (parts : List Part) : OrdMap ℤ ℤ :=
  emplaced (parts.map (Part.ends 0 0 (2 ^ 64 - 1)))

def lengthValidators : Option Length → List ValueValidator
  | none => []
  | some length => [lengthValidate (lengthRanges length.parts)]

/-- The restrictions of a type that are registered: none of numbers, bits and unions. -/
def Declared.validators (regexMatch : String → String → Bool) : Declared → List ValueValidator
  | .binary length _ => lengthValidators length
  | .bool => [boolValidate]
  | .empty => [emptyValidate]
  | .enum enm _ => [enumValidate enm]
  | .leafref target => target.validators regexMatch
  | .string patterns length _ =>
    patterns.map (patternValidate regexMatch) ++ lengthValidators length
  | _ => []

/-- The part is the first with its lower bound, and the text is not as long as it says, in bytes. -/
def Outside (parts : List Part) (s : String) (part : Part) : Prop :=
  parts.find? (fun p => (p.ends 0 0 (2 ^ 64 - 1)).1 = (part.ends 0 0 (2 ^ 64 - 1)).1) = some part ∧
    ¬((part.ends 0 0 (2 ^ 64 - 1)).1 ≤ s.utf8ByteSize ∧
      (s.utf8ByteSize : ℤ) ≤ (part.ends 0 0 (2 ^ 64 - 1)).2)

/-- The text is a name of the enumeration, or is as one of the patterns says, or is outside of a
part of the length. -/
def Declared.Passes (regexMatch : String → String → Bool) : Declared → String → Prop
  | .enum enm _, s => s.toLower ∈ enm.map String.toLower
  | .leafref target, s => target.Passes regexMatch s
  | .string patterns length _, s =>
    (∃ p ∈ patterns, (regexMatch s p.expr = true ↔ p.inverse = false)) ∨
      ∃ l ∈ length, ∃ part, Outside l.parts s part
  | _, _ => False

def Declared.isUnion : Declared → Bool
  | .leafref target => target.isUnion
  | .union _ _ => true
  | _ => false

def firstOf (type : TypeIndex) (types : List Declared) : Option Declared :=
  types.find? fun member => type ∈ member.types

/-- The first member with values of that kind is no union. -/
def FirstScalar (types : List Declared) (t : TypeIndex) : Prop :=
  ∃ member, firstOf t types = some member ∧ member.isUnion = false

/-- The first string or the first enumeration lets the text through. -/
def FirstPasses (regexMatch : String → String → Bool) (types : List Declared) (s : String) : Prop :=
  ∃ t, (t = .string ∨ t = .enum) ∧
    ∃ member, firstOf t types = some member ∧ member.Passes regexMatch s

/-- A string that is read as a document of its own: `true` or `false` is right if some member has it
and the first booleans are no union, or none has it and they are; `[null]` likewise; a quoted string,
if some member has it and the first string or enumeration lets it through, or neither; and any other
one, if no member has it. -/
def StringFine (lib : Library) (types : List Declared) (s : String) : Prop :=
  let had := ∃ member ∈ types, member.Accepts lib.regexMatch (.string s)
  match (lib.parse s).map Json.type with
  | some .boolean =>
    if s = "true" ∨ s = "false" then had ∧ FirstScalar types .bool ∨ ¬had ∧ ¬FirstScalar types .bool
    else ¬had
  | some .array =>
    if s = "[null]" then had ∧ FirstScalar types .empty ∨ ¬had ∧ ¬FirstScalar types .empty
    else ¬had
  | some .string =>
    had ∧ FirstPasses lib.regexMatch types s ∨ ¬had ∧ ¬FirstPasses lib.regexMatch types s
  | _ => ¬had

/-- The ranges can be read; the first member with booleans, or with empty leaves, is no union, if
the value is one and a member has it; no member has the value if it is a number; and a string is
fine. -/
def UnionFine (lib : Library) (types : List Declared) (value : Json) : Prop :=
  allCastable types = true ∧
    match value with
    | .boolean _ => FirstScalar types .bool ∨ ∀ member ∈ types, ¬member.Has .bool
    | .string s => StringFine lib types s
    | value =>
      if value.isEmptyLeaf then FirstScalar types .empty ∨ ∀ member ∈ types, ¬member.Has .empty
      else ¬∃ member ∈ types, member.Accepts lib.regexMatch value

/-! ### What the parser gives -/

section Parsed

variable {m : UnionMap} {type t : TypeIndex}

theorem parseLength_of_castable {length : Option Length}
    (h : castableParts Written.isNumber length = true) :
    parseLength length = .ok (lengthValidators length) := by
  cases length with
  | none => rfl
  | some length =>
    have read := @parseRange_text .uint64 length h
    exact congrArg (Except.map fun ranges => [lengthValidate (emplaced ranges)]) read

theorem parseLength_of_not_castable {length : Option Length}
    (h : castableParts Written.isNumber length = false) : ∃ e, parseLength length = .error e := by
  cases length with
  | none => cases h
  | some length =>
    obtain ⟨e, thrown⟩ := @parseRange_throws .uint64 length h
    exact ⟨e, congrArg (Except.map fun ranges => [lengthValidate (emplaced ranges)]) thrown⟩

theorem parseInteger_of_castable {type : IntType} {range : Option (Expression 0 type.min type.max)}
    (h : castableParts Written.isNumber range = true) :
    parseInteger type range = .ok ([], [.integer type]) := by
  cases range with
  | none => rfl
  | some range =>
    exact congrArg (Except.map fun _ => ([], [TypeIndex.integer type])) (parseRange_text range h)

theorem parseInteger_of_not_castable {type : IntType}
    {range : Option (Expression 0 type.min type.max)}
    (h : castableParts Written.isNumber range = false) : ∃ e, parseInteger type range = .error e := by
  cases range with
  | none => cases h
  | some range =>
    obtain ⟨e, thrown⟩ := parseRange_throws range h
    exact ⟨e, congrArg (Except.map fun _ => ([], [TypeIndex.integer type])) thrown⟩

section

variable {dig : ℕ} {range : Option (Expression dig (-2 ^ 63) (2 ^ 63 - 1))}

theorem parseDecimal64_of_castable (h : castableParts Written.isDecimal range = true) :
    parseDecimal64 range = .ok ([], [.decimal64]) := by
  cases range with
  | none => rfl
  | some range =>
    obtain ⟨ranges, read⟩ := (parseDecimals_text range).2 h
    exact congrArg (Except.map fun _ => ([], [TypeIndex.decimal64])) read

theorem parseDecimal64_of_not_castable (h : castableParts Written.isDecimal range = false) :
    ∃ e, parseDecimal64 range = .error e := by
  cases range with
  | none => cases h
  | some range =>
    cases read : parseRange decimalLimits castDecimal range.text with
    | error e => exact ⟨e, congrArg (Except.map fun _ => ([], [TypeIndex.decimal64])) read⟩
    | ok ranges =>
      rw [(parseDecimals_text range).1 ⟨ranges, read⟩] at h
      cases h

end

def UnionMap.Has (m : UnionMap) (t : TypeIndex) : Prop := ∃ vs, (t, vs) ∈ m

theorem mem_addType {vs vs' : List ValueValidator} :
    (t, vs) ∈ m.addType type vs' ↔ (t, vs) ∈ m ∨ ¬m.Has t ∧ t = type ∧ vs = vs' := by
  unfold UnionMap.addType
  split_ifs with h
  · -- the type is a key already
    obtain ⟨⟨t', vs''⟩, he, heq⟩ := List.any_eq_true.1 h
    obtain rfl : t' = type := of_decide_eq_true heq
    constructor
    · exact .inl
    · rintro (hm | ⟨none, rfl, -⟩)
      · exact hm
      · exact absurd ⟨vs'', he⟩ none
  · rw [List.mem_append, List.mem_singleton, Prod.mk.injEq]
    refine or_congr_right ⟨fun hm => ⟨?_, hm⟩, And.right⟩
    rintro ⟨vs'', he⟩
    exact h (List.any_eq_true.2 ⟨_, he, decide_eq_true hm.1⟩)

theorem mem_addTypes {ts : List TypeIndex} {vs vs' : List ValueValidator} :
    (t, vs) ∈ addTypes (vs', ts) m ↔ (t, vs) ∈ m ∨ ¬m.Has t ∧ t ∈ ts ∧ vs = vs' := by
  induction ts generalizing m with
  | nil => simp [addTypes]
  | cons type ts ih =>
    have step : (t, vs) ∈ addTypes (vs', type :: ts) m ↔
        (t, vs) ∈ addTypes (vs', ts) (m.addType type vs') := Iff.rfl
    have has : (m.addType type vs').Has t ↔ m.Has t ∨ t = type := by
      constructor
      · rintro ⟨vs'', h⟩
        rcases mem_addType.1 h with h | ⟨-, rfl, -⟩
        · exact .inl ⟨vs'', h⟩
        · exact .inr rfl
      · intro h
        by_cases old : m.Has t
        · obtain ⟨vs'', h⟩ := old
          exact ⟨vs'', mem_addType.2 (.inl h)⟩
        · exact ⟨vs', mem_addType.2 (.inr ⟨old, h.resolve_left old, rfl⟩)⟩
    rw [step, ih, mem_addType, has, List.mem_cons, or_assoc]
    refine or_congr_right ⟨?_, ?_⟩
    · rintro (⟨none, rfl, rfl⟩ | ⟨none, ht, rfl⟩)
      · exact ⟨none, .inl rfl, rfl⟩
      · exact ⟨fun h => none (.inl h), .inr ht, rfl⟩
    · rintro ⟨none, ht, rfl⟩
      by_cases here : t = type
      · exact .inl ⟨none, here, rfl⟩
      · exact .inr ⟨fun h => h.elim none here, ht.resolve_left here, rfl⟩

theorem firstOf_cons (member : Declared) (members : List Declared) :
    firstOf t (member :: members) =
      if t ∈ member.types then some member else firstOf t members := by
  unfold firstOf
  by_cases h : t ∈ member.types
  · rw [List.find?_cons_of_pos (by simpa using h), if_pos h]
  · rw [List.find?_cons_of_neg (by simpa using h), if_neg h]

variable (regexMatch : String → String → Bool)

mutual

theorem parseType_of_castable : ∀ {d : Declared}, d.castable = true →
    ∃ ts, parseType regexMatch d = .ok (d.validators regexMatch, ts) ∧ ∀ t, t ∈ ts ↔ t ∈ d.types
  | .binary length _, h => ⟨_, by
      unfold parseType
      rw [parseLength_of_castable h]
      rfl, fun _ => Iff.rfl⟩
  | .bits bit _, _ => ⟨_, rfl, fun _ => Iff.rfl⟩
  | .bool, _ => ⟨_, rfl, fun _ => Iff.rfl⟩
  | .dec64 _ range _, h => ⟨_, by
      unfold parseType
      exact parseDecimal64_of_castable h, fun _ => Iff.rfl⟩
  | .empty, _ => ⟨_, rfl, fun _ => Iff.rfl⟩
  | .enum enm _, _ => ⟨_, rfl, fun _ => Iff.rfl⟩
  | .integer type range _, h => ⟨_, by
      unfold parseType
      exact parseInteger_of_castable h, fun _ => Iff.rfl⟩
  | .leafref target, h => by
      obtain ⟨ts, parsed, same⟩ := parseType_of_castable (d := target) h
      exact ⟨ts, by unfold parseType; exact parsed, same⟩
  | .string patterns length _, h => ⟨_, by
      unfold parseType parseString
      rw [parseLength_of_castable h]
      rfl, fun _ => Iff.rfl⟩
  | .union types _, h => by
      obtain ⟨m', ts, parsed, same, -⟩ := parseMembers_of_castable
        (show allCastable types = true from h) [] []
      refine ⟨ts, ?_, fun t => ?_⟩
      · unfold parseType
        rw [parsed]
        rfl
      · rw [same]
        exact or_iff_right List.not_mem_nil

theorem parseMembers_of_castable : ∀ {members : List Declared}, allCastable members = true →
    ∀ (m : UnionMap) (types : List TypeIndex), ∃ m' ts,
      parseMembers regexMatch members m types = .ok (m', ts) ∧
      (∀ t, t ∈ ts ↔ t ∈ types ∨ t ∈ allTypes members) ∧
      ∀ t vs, (t, vs) ∈ m' ↔ (t, vs) ∈ m ∨ ¬m.Has t ∧
        ∃ member, firstOf t members = some member ∧ vs = member.validators regexMatch
  | [], _, m, types => ⟨m, types, rfl, fun t => (or_iff_left List.not_mem_nil).symm,
      fun t vs => (or_iff_left (by simp [firstOf])).symm⟩
  | member :: members, h, m, types => by
      unfold allCastable at h
      rw [Bool.and_eq_true] at h
      obtain ⟨ts, parsed, same⟩ := parseType_of_castable h.1
      obtain ⟨m', ts', rest, same', kept⟩ := parseMembers_of_castable h.2
        (addTypes (member.validators regexMatch, ts) m) (types ∪ ts)
      refine ⟨m', ts', ?_, fun t => ?_, fun t vs => ?_⟩
      · unfold parseMembers
        rw [parsed]
        exact rest
      · rw [same', List.mem_union_iff, same, or_assoc]
        exact or_congr_right List.mem_append.symm
      · have has : (addTypes (member.validators regexMatch, ts) m).Has t ↔
            m.Has t ∨ t ∈ member.types := by
          constructor
          · rintro ⟨vs', hv⟩
            rcases mem_addTypes.1 hv with hv | ⟨-, ht, -⟩
            · exact .inl ⟨vs', hv⟩
            · exact .inr ((same t).1 ht)
          · intro hv
            by_cases old : m.Has t
            · obtain ⟨vs', hv⟩ := old
              exact ⟨vs', mem_addTypes.2 (.inl hv)⟩
            · exact ⟨_, mem_addTypes.2 (.inr ⟨old, (same t).2 (hv.resolve_left old), rfl⟩)⟩
        rw [kept, mem_addTypes, has, same, firstOf_cons, or_assoc]
        refine or_congr_right ?_
        by_cases ht : t ∈ member.types
        · rw [if_pos ht]
          simp [ht]
        · rw [if_neg ht]
          simp [ht]

end

mutual

theorem parseType_of_not_castable : ∀ {d : Declared}, d.castable = false →
    ∃ e, parseType regexMatch d = .error e
  | .binary length _, h => by
      obtain ⟨e, he⟩ := parseLength_of_not_castable h
      exact ⟨e, by unfold parseType; rw [he]; rfl⟩
  | .bits _ _, h | .bool, h | .empty, h | .enum _ _, h => nomatch h
  | .dec64 _ range _, h => by
      unfold parseType
      exact parseDecimal64_of_not_castable h
  | .integer type range _, h => by
      unfold parseType
      exact parseInteger_of_not_castable h
  | .leafref target, h => by
      obtain ⟨e, he⟩ := parseType_of_not_castable (d := target) h
      exact ⟨e, by unfold parseType; exact he⟩
  | .string patterns length _, h => by
      obtain ⟨e, he⟩ := parseLength_of_not_castable h
      exact ⟨e, by unfold parseType parseString; rw [he]; rfl⟩
  | .union types _, h => by
      obtain ⟨e, he⟩ := parseMembers_of_not_castable
        (show allCastable types = false from h) [] []
      exact ⟨e, by unfold parseType; rw [he]; rfl⟩

theorem parseMembers_of_not_castable : ∀ {members : List Declared}, allCastable members = false →
    ∀ (m : UnionMap) (types : List TypeIndex),
      ∃ e, parseMembers regexMatch members m types = .error e
  | [], h, _, _ => nomatch h
  | member :: members, h, m, types => by
      unfold parseMembers
      cases hd : member.castable with
      | true =>
        unfold allCastable at h
        rw [hd, Bool.true_and] at h
        obtain ⟨ts, parsed, -⟩ := parseType_of_castable regexMatch hd
        rw [parsed]
        exact parseMembers_of_not_castable h _ _
      | false =>
        obtain ⟨e, he⟩ := parseType_of_not_castable hd
        rw [he]
        exact ⟨e, rfl⟩

end

end Parsed

/-! ### What the validator of a union takes -/

section Taken

variable {lib : Library} {types : List Declared} {d : Declared} {t : TypeIndex}
  {v : ValueValidator} {value : Json} {s : String}

def Lets (lib : Library) (types : List Declared) (s : String) (t : TypeIndex) : Prop :=
  ∃ member, firstOf t types = some member ∧ ∃ v ∈ member.validators lib.regexMatch, v s = true

def Takes (lib : Library) (types : List Declared) (s : String) (type : ValueType) : Prop :=
  ∃ t ∈ acceptableTypes type, Lets lib types s t

variable (lib) in
theorem unionValidate_iff (h : allCastable types = true) :
    ∃ m, unionValidator lib.regexMatch types = .ok m ∧ ∀ s,
      m.validate lib.parse s = .ok true ↔
        ∃ data, lib.parse s = some data ∧ Takes lib types s data.type := by
  obtain ⟨m, ts, parsed, -, kept⟩ := parseMembers_of_castable lib.regexMatch h [] []
  have entries : ∀ t vs, (t, vs) ∈ m ↔
      ∃ member, firstOf t types = some member ∧ vs = member.validators lib.regexMatch := by
    intro t vs
    rw [kept]
    simp [UnionMap.Has]
  refine ⟨m, by unfold unionValidator; rw [parsed]; rfl, fun s => ?_⟩
  unfold UnionMap.validate
  cases lib.parse s with
  | none => simp [throw, throwThe, MonadExceptOf.throw]
  | some data =>
    have ok : ∀ b : Bool, (pure b : Except String Bool) = .ok true ↔ b = true :=
      fun b => ⟨fun h => by cases h; rfl, fun h => by rw [h]; rfl⟩
    rw [ok, List.any_eq_true]
    constructor
    · rintro ⟨⟨t, vs⟩, he, taken⟩
      rw [Bool.and_eq_true, List.any_eq_true] at taken
      obtain ⟨member, first, rfl⟩ := (entries t vs).1 he
      exact ⟨data, rfl, t, of_decide_eq_true taken.1, member, first, taken.2⟩
    · rintro ⟨_, heq, t, ht, member, first, some⟩
      obtain rfl := Option.some.inj heq
      refine ⟨(t, _), (entries t _).2 ⟨member, first, rfl⟩, ?_⟩
      rw [Bool.and_eq_true, List.any_eq_true]
      exact ⟨decide_eq_true ht, some⟩

theorem exists_eq_some_and {α : Type*} {a : α} {P : α → Prop} :
    (∃ b, some a = some b ∧ P b) ↔ P a := by
  simp

theorem mem_validators : ∀ {d : Declared}, t ∈ d.types → v ∈ d.validators lib.regexMatch →
    d.isUnion = false ∧ (t = .binary ∨ t = .enum ∨ t = .string ∨
      t = .bool ∧ v = boolValidate ∨ t = .empty ∧ v = emptyValidate)
  | .binary _ _, ht, _ => ⟨rfl, .inl (List.mem_singleton.1 ht)⟩
  | .bits _ _, _, hv | .dec64 _ _ _, _, hv | .integer _ _ _, _, hv | .union _ _, _, hv => nomatch hv
  | .bool, ht, hv =>
    ⟨rfl, .inr (.inr (.inr (.inl ⟨List.mem_singleton.1 ht, List.mem_singleton.1 hv⟩)))⟩
  | .empty, ht, hv =>
    ⟨rfl, .inr (.inr (.inr (.inr ⟨List.mem_singleton.1 ht, List.mem_singleton.1 hv⟩)))⟩
  | .enum _ _, ht, _ => ⟨rfl, .inr (.inl (List.mem_singleton.1 ht))⟩
  | .leafref target, ht, hv => mem_validators (d := target) ht hv
  | .string _ _ _, ht, _ => ⟨rfl, .inr (.inr (.inl (List.mem_singleton.1 ht)))⟩

theorem validators_of_bool : ∀ {d : Declared}, .bool ∈ d.types → d.isUnion = false →
    d.validators lib.regexMatch = [boolValidate]
  | .bool, _, _ => rfl
  | .leafref target, ht, hu => validators_of_bool (d := target) ht hu
  | .union _ _, _, hu => nomatch hu
  | .binary _ _, ht, _ | .bits _ _, ht, _ | .dec64 _ _ _, ht, _ | .empty, ht, _ | .enum _ _, ht, _
  | .integer _ _ _, ht, _ | .string _ _ _, ht, _ => by cases List.mem_singleton.1 ht

theorem validators_of_empty : ∀ {d : Declared}, .empty ∈ d.types → d.isUnion = false →
    d.validators lib.regexMatch = [emptyValidate]
  | .empty, _, _ => rfl
  | .leafref target, ht, hu => validators_of_empty (d := target) ht hu
  | .union _ _, _, hu => nomatch hu
  | .binary _ _, ht, _ | .bits _ _, ht, _ | .dec64 _ _ _, ht, _ | .bool, ht, _ | .enum _ _, ht, _
  | .integer _ _ _, ht, _ | .string _ _ _, ht, _ => by cases List.mem_singleton.1 ht

theorem types_of_firstOf (h : firstOf t types = some d) : t ∈ d.types := by
  have := List.find?_some h
  exact of_decide_eq_true this

theorem lets_bool : Lets lib types s .bool ↔ (s = "true" ∨ s = "false") ∧
    ∃ d, firstOf .bool types = some d ∧ d.isUnion = false := by
  constructor
  · rintro ⟨d, first, v, hv, taken⟩
    obtain ⟨scalar, h | h | h | ⟨-, rfl⟩ | ⟨h, -⟩⟩ := mem_validators (types_of_firstOf first) hv
    · cases h
    · cases h
    · cases h
    · refine ⟨?_, d, first, scalar⟩
      unfold boolValidate at taken
      rwa [Bool.or_eq_true, beq_iff_eq, beq_iff_eq] at taken
    · cases h
  · rintro ⟨reads, d, first, scalar⟩
    refine ⟨d, first, boolValidate, ?_, ?_⟩
    · rw [validators_of_bool (types_of_firstOf first) scalar]
      exact List.mem_singleton_self _
    · unfold boolValidate
      rwa [Bool.or_eq_true, beq_iff_eq, beq_iff_eq]

theorem lets_empty : Lets lib types s .empty ↔ s = "[null]" ∧
    ∃ d, firstOf .empty types = some d ∧ d.isUnion = false := by
  constructor
  · rintro ⟨d, first, v, hv, taken⟩
    obtain ⟨scalar, h | h | h | ⟨h, -⟩ | ⟨-, rfl⟩⟩ := mem_validators (types_of_firstOf first) hv
    · cases h
    · cases h
    · cases h
    · cases h
    · exact ⟨beq_iff_eq.1 taken, d, first, scalar⟩
  · rintro ⟨reads, d, first, scalar⟩
    refine ⟨d, first, emptyValidate, ?_, beq_iff_eq.2 reads⟩
    rw [validators_of_empty (types_of_firstOf first) scalar]
    exact List.mem_singleton_self _

theorem not_lets (h : t ≠ .binary ∧ t ≠ .enum ∧ t ≠ .string ∧ t ≠ .bool ∧ t ≠ .empty) :
    ¬Lets lib types s t := by
  rintro ⟨d, first, v, hv, -⟩
  obtain ⟨-, h' | h' | h' | ⟨h', -⟩ | ⟨h', -⟩⟩ := mem_validators (types_of_firstOf first) hv
  · exact h.1 h'
  · exact h.2.1 h'
  · exact h.2.2.1 h'
  · exact h.2.2.2.1 h'
  · exact h.2.2.2.2 h'

theorem takes_boolean : Takes lib types s .boolean ↔ (s = "true" ∨ s = "false") ∧
    ∃ d, firstOf .bool types = some d ∧ d.isUnion = false := by
  rw [← lets_bool]
  constructor
  · rintro ⟨t, ht, h⟩
    rwa [List.mem_singleton.1 ht] at h
  · exact fun h => ⟨.bool, List.mem_cons_self, h⟩

theorem takes_array : Takes lib types s .array ↔ s = "[null]" ∧
    ∃ d, firstOf .empty types = some d ∧ d.isUnion = false := by
  rw [← lets_empty]
  constructor
  · rintro ⟨t, ht, h⟩
    rcases List.mem_pair.1 ht with rfl | rfl
    · exact h
    · exact absurd h (not_lets (by decide))
  · exact fun h => ⟨.empty, List.mem_cons_self, h⟩

theorem takes_string : Takes lib types s .string ↔
    ∃ t, (t = .string ∨ t = .enum) ∧ Lets lib types s t := by
  constructor
  · rintro ⟨t, ht, h⟩
    simp only [acceptableTypes, List.mem_cons, List.not_mem_nil, or_false] at ht
    rcases ht with rfl | rfl | rfl | rfl | rfl | rfl | rfl
    · exact ⟨.string, .inl rfl, h⟩
    · exact absurd h (not_lets (by decide))
    · exact absurd h (not_lets (by decide))
    · exact absurd h (not_lets (by decide))
    · exact ⟨.enum, .inr rfl, h⟩
    · exact absurd h (not_lets (by decide))
    · exact absurd h (not_lets (by decide))
  · rintro ⟨t, rfl | rfl, h⟩
    · exact ⟨.string, by decide, h⟩
    · exact ⟨.enum, by decide, h⟩

theorem not_takes {type : ValueType} (h : ∀ t ∈ acceptableTypes type,
    t ≠ .binary ∧ t ≠ .enum ∧ t ≠ .string ∧ t ≠ .bool ∧ t ≠ .empty) :
    ¬Takes lib types s type := by
  rintro ⟨t, ht, taken⟩
  exact not_lets (h t ht) taken

theorem mem_lengthRanges {parts : List Part} {lo hi : ℤ} : (lo, hi) ∈ lengthRanges parts ↔
    ∃ part, parts.find? (fun p => (p.ends 0 0 (2 ^ 64 - 1)).1 = lo) = some part ∧
      (part.ends 0 0 (2 ^ 64 - 1)).2 = hi := by
  unfold lengthRanges emplaced
  rw [List.foldl_map, OrdMap.mem_foldl_insert, or_iff_right List.not_mem_nil]
  exact and_iff_right rfl

theorem lengthValidate_iff {parts : List Part} :
    lengthValidate (lengthRanges parts) s = true ↔ ∃ part, Outside parts s part := by
  unfold lengthValidate
  rw [decide_eq_true_iff, ne_eq, List.length_filter_eq_length_iff]
  push Not
  constructor
  · rintro ⟨⟨lo, hi⟩, mem, outside⟩
    obtain ⟨part, first, rfl⟩ := mem_lengthRanges.1 mem
    obtain rfl : (part.ends 0 0 (2 ^ 64 - 1)).1 = lo := by simpa using List.find?_some first
    exact ⟨part, first, by simpa using outside⟩
  · rintro ⟨part, first, outside⟩
    exact ⟨_, mem_lengthRanges.2 ⟨part, first, rfl⟩, by simpa using outside⟩

theorem passes_iff (text : t = .string ∨ t = .enum) : ∀ {d : Declared}, t ∈ d.types →
    ((∃ v ∈ d.validators lib.regexMatch, v s = true) ↔ d.Passes lib.regexMatch s)
  | .enum enm _, _ => by simp [Declared.validators, Declared.Passes, enumValidate]
  | .leafref target, ht => passes_iff text (d := target) ht
  | .string patterns length _, _ => by
      have pattern : (∃ p ∈ patterns, patternValidate lib.regexMatch p s = true) ↔
          ∃ p ∈ patterns, (lib.regexMatch s p.expr = true ↔ p.inverse = false) := by
        refine exists_congr fun p => and_congr_right fun _ => ?_
        unfold patternValidate
        cases p.inverse <;> cases lib.regexMatch s p.expr <;> simp
      have outside : (∃ v ∈ lengthValidators length, v s = true) ↔
          ∃ l ∈ length, ∃ part, Outside l.parts s part := by
        cases length with
        | none => simp [lengthValidators]
        | some length => simp [lengthValidators, lengthValidate_iff]
      unfold Declared.validators Declared.Passes
      rw [← pattern, ← outside]
      simp [or_and_right, exists_or]
  | .union _ _, _ => by simp [Declared.validators, Declared.Passes]
  | .binary _ _, ht | .bits _ _, ht | .bool, ht | .dec64 _ _ _, ht | .empty, ht
  | .integer _ _ _, ht => by
      rcases text with rfl | rfl <;> cases List.mem_singleton.1 ht

theorem firstPasses_iff : Takes lib types s .string ↔ FirstPasses lib.regexMatch types s := by
  rw [takes_string]
  refine exists_congr fun t => and_congr_right fun text => exists_congr fun d =>
    and_congr_right fun first => passes_iff text (types_of_firstOf first)

/-- A string is fine if and only if it is taken when a member has it. -/
theorem stringFine_iff : StringFine lib types s ↔
    ((∃ data, lib.parse s = some data ∧ Takes lib types s data.type) ↔
      ∃ member ∈ types, member.Accepts lib.regexMatch (.string s)) := by
  have both {P Q : Prop} : Q ∧ P ∨ ¬Q ∧ ¬P ↔ (P ↔ Q) := by tauto
  have never {P Q : Prop} (no : ¬P) : ¬Q ↔ (P ↔ Q) := by tauto
  unfold StringFine
  cases lib.parse s with
  | none => exact never (by simp)
  | some data =>
    rw [Option.map_some, exists_eq_some_and]
    cases data.type with
    | boolean =>
      dsimp only
      split_ifs with reads
      · rw [both, takes_boolean, and_iff_right reads]
        exact Iff.rfl
      · exact never fun taken => reads (takes_boolean.1 taken).1
    | array =>
      dsimp only
      split_ifs with reads
      · rw [both, takes_array, and_iff_right reads]
        exact Iff.rfl
      · exact never fun taken => reads (takes_array.1 taken).1
    | string => exact both.trans (iff_congr firstPasses_iff.symm Iff.rfl)
    | null => exact never (not_takes (by decide))
    | object => exact never (not_takes (by decide))
    | integer => exact never (not_takes (by decide))
    | unsigned => exact never (not_takes (by decide))
    | float => exact never (not_takes (by decide))

end Taken

section Values

variable {regexMatch : String → String → Bool} {types : List Declared} {t : TypeIndex}

mutual

theorem accepts_boolean (b : Bool) : ∀ {d : Declared},
    d.Accepts regexMatch (.boolean b) ↔ d.Has .bool
  | .leafref target => by
      unfold Declared.Accepts Declared.Has
      exact accepts_boolean b
  | .union types typedef => by
      unfold Declared.Accepts Declared.Has
      rw [anyAccepts_boolean b, anyAccepts_boolean b]
  | .binary _ _ | .bits _ _ | .bool | .dec64 _ _ _ | .empty | .enum _ _ | .integer _ _ _
  | .string _ _ _ => by
      simp [Declared.Accepts, Declared.Has]

theorem anyAccepts_boolean (b : Bool) : ∀ {types : List Declared},
    AnyAccepts regexMatch types (.boolean b) ↔ AnyHas .bool types
  | [] => by simp [AnyAccepts, AnyHas]
  | member :: members => by
      unfold AnyAccepts AnyHas
      rw [accepts_boolean b, anyAccepts_boolean b]

end

mutual

theorem accepts_empty : ∀ {d : Declared},
    d.Accepts regexMatch (.array [.null]) ↔ d.Has .empty
  | .leafref target => by
      unfold Declared.Accepts Declared.Has
      exact accepts_empty
  | .union types typedef => by
      unfold Declared.Accepts Declared.Has
      rw [anyAccepts_empty, anyAccepts_empty]
  | .binary _ _ | .bits _ _ | .bool | .dec64 _ _ _ | .empty | .enum _ _ | .integer _ _ _
  | .string _ _ _ => by
      simp [Declared.Accepts, Declared.Has]

theorem anyAccepts_empty : ∀ {types : List Declared},
    AnyAccepts regexMatch types (.array [.null]) ↔ AnyHas .empty types
  | [] => by simp [AnyAccepts, AnyHas]
  | member :: members => by
      unfold AnyAccepts AnyHas
      rw [accepts_empty, anyAccepts_empty]

end

theorem has_of_types (kind : t = .bool ∨ t = .empty) : ∀ {d : Declared}, t ∈ d.types →
    d.isUnion = false → d.Has t
  | .bool, ht, _ => List.mem_singleton.1 ht
  | .empty, ht, _ => List.mem_singleton.1 ht
  | .leafref target, ht, scalar => has_of_types kind (d := target) ht scalar
  | .union _ _, _, scalar => nomatch scalar
  | .binary _ _, ht, _ | .bits _ _, ht, _ | .dec64 _ _ _, ht, _ | .enum _ _, ht, _
  | .integer _ _ _, ht, _ | .string _ _ _, ht, _ => by
      rcases kind with rfl | rfl <;> cases List.mem_singleton.1 ht

theorem first_scalar_iff (kind : t = .bool ∨ t = .empty) :
    (FirstScalar types t ↔ ∃ d ∈ types, d.Has t) ↔
      FirstScalar types t ∨ ∀ d ∈ types, ¬d.Has t := by
  have had : FirstScalar types t → ∃ d ∈ types, d.Has t := by
    rintro ⟨d, first, scalar⟩
    exact ⟨d, List.mem_of_find?_eq_some first, has_of_types kind (types_of_firstOf first) scalar⟩
  constructor
  · intro same
    by_cases scalar : FirstScalar types t
    · exact .inl scalar
    · exact .inr fun d hd has => scalar (same.2 ⟨d, hd, has⟩)
  · rintro (scalar | none)
    · exact iff_of_true scalar (had scalar)
    · exact ⟨had, fun ⟨d, hd, has⟩ => absurd has (none d hd)⟩

theorem Json.isEmptyLeaf_iff {value : Json} :
    value.isEmptyLeaf = true ↔ value = .array [.null] := by
  unfold Json.isEmptyLeaf
  split
  · exact iff_of_true rfl rfl
  · rename_i h
    exact iff_of_false Bool.false_ne_true h

end Values

section Right

variable {lib : Library} {types : List Declared}

theorem unionRight_iff (value : lib.Value) :
    UnionRight lib types value ↔ UnionFine lib types value.json := by
  unfold UnionRight UnionFine
  cases castable : allCastable types with
  | false =>
    obtain ⟨e, he⟩ := parseMembers_of_not_castable lib.regexMatch castable [] []
    have failed : unionValidator lib.regexMatch types = .error e := by
      unfold unionValidator
      rw [he]
      rfl
    rw [failed]
    simp
  | true =>
    obtain ⟨m, built, taken⟩ := unionValidate_iff lib castable
    have same : ∀ {P : Prop}, (∃ m', unionValidator lib.regexMatch types = .ok m' ∧
        (m'.validate lib.parse (value.json.text lib.dump) = .ok true ↔ P)) ↔
        (m.validate lib.parse (value.json.text lib.dump) = .ok true ↔ P) := by
      intro P
      rw [built]
      constructor
      · rintro ⟨m', heq, h⟩
        rwa [Except.ok.inj heq]
      · exact fun h => ⟨m, rfl, h⟩
    rw [same, taken, and_iff_right rfl]
    obtain ⟨json, scalar, document⟩ := value
    -- what is not a string is read as itself
    have itself : (∃ data, lib.parse (lib.dump json) = some data ∧
        Takes lib types (lib.dump json) data.type) ↔ Takes lib types (lib.dump json) json.type := by
      rw [document, exists_eq_some_and]
    cases json with
    | null => exact absurd rfl scalar.1
    | object ms => exact absurd rfl scalar.2
    | integer i =>
      have none : ¬Takes lib types (lib.dump (.integer i)) .integer := not_takes (by decide)
      exact (iff_congr itself Iff.rfl).trans (iff_false_left none)
    | unsigned n =>
      have none : ¬Takes lib types (lib.dump (.unsigned n)) .unsigned := not_takes (by decide)
      exact (iff_congr itself Iff.rfl).trans (iff_false_left none)
    | float text =>
      have none : ¬Takes lib types (lib.dump (.float text)) .float := not_takes (by decide)
      exact (iff_congr itself Iff.rfl).trans (iff_false_left none)
    | string s =>
      exact stringFine_iff.symm
    | boolean b =>
      dsimp only
      have reads : lib.dump (.boolean b) = "true" ∨ lib.dump (.boolean b) = "false" := by
        rw [lib.dump_boolean]
        cases b
        · exact .inr rfl
        · exact .inl rfl
      rw [← first_scalar_iff (.inl rfl)]
      refine iff_congr (itself.trans (takes_boolean.trans (and_iff_right reads))) ?_
      exact exists_congr fun d => and_congr_right fun _ => accepts_boolean b
    | array es =>
      dsimp only
      split_ifs with leaf
      · rw [Json.isEmptyLeaf_iff] at leaf
        rw [leaf] at itself ⊢
        rw [← first_scalar_iff (.inr rfl)]
        refine iff_congr (itself.trans (takes_array.trans (and_iff_right lib.dump_null))) ?_
        exact exists_congr fun d => and_congr_right fun _ => accepts_empty
      · refine (iff_congr itself Iff.rfl).trans (iff_false_left fun taken => leaf ?_)
        -- another text than that of the empty leaf
        rw [Json.isEmptyLeaf_iff]
        have text : lib.dump (.array es) = "[null]" := (takes_array.1 taken).1
        rw [text, ← lib.dump_null, lib.parse_null] at document
        exact (Option.some.inj document).symm

theorem not_bitsRight (bit : List (UInt32 × String)) : ¬BitsRight bit :=
  fun h => List.not_mem_nil h.1

/-- Unions are validated as they should where the types and the value are fine, and bits never. -/
theorem validated_iff (lib : Library) :
    (∀ (types : List Declared) (value : lib.Value),
      UnionRight lib types value ↔ UnionFine lib types value.json) ∧
    ∀ bit, ¬BitsRight bit :=
  ⟨fun _ value => unionRight_iff value, not_bitsRight⟩

def someLibrary : Library where
  dump
    | .boolean b => if b then "true" else "false"
    | .array [.null] => "[null]"
    | .string s => "\"" ++ s ++ "\""
    | _ => ""
  parse s :=
    if s = "true" then some (.boolean true)
    else if s = "false" then some (.boolean false)
    else if s = "[null]" then some (.array [.null])
    else if s = "\"up\"" then some (.string "up")
    else none
  regexMatch _ _ := true
  dump_boolean _ := rfl
  parse_boolean b := by cases b <;> rfl
  dump_null := rfl
  parse_null := rfl

/-- The name of an enumeration is no document of its own. -/
theorem not_validated_enum :
    ¬((∀ (lib : Library) (types : List Declared) (value : lib.Value), UnionRight lib types value) ∧
      ∀ bit, BitsRight bit) := by
  intro h
  have fine := (unionRight_iff _).1 (h.1 someLibrary [.enum ["up", "down"] []]
    ⟨.string "up", by decide, rfl⟩)
  have none : ¬∃ member ∈ [Declared.enum ["up", "down"] []],
      member.Accepts someLibrary.regexMatch (.string "up") := fine.2
  exact none ⟨_, List.mem_singleton_self _, by simp [Declared.Accepts, narrowest]⟩

end Right

end Polycube.Polycubed.Resources
