import Polycube.Polycubed.Unions

/-!
# Ranges and lengths

What a leaf makes of the range of its integers or of the length of its strings.  The validator of
the numbers is not among those that are returned, and the one of the lengths counts the parts that
have the length but refuses a value that all of them have.
-/

namespace Polycube.Polycubed.Resources

open Lib

inductive Restricted
  | integer (type : IntType) (range : Expression 0 type.min type.max)
  | string (length : Length)

namespace Restricted

def declared : Restricted → Declared
  | .integer type range => .integer type (some range) []
  | .string length => .string [] (some length) []

def Lies : Restricted → String → Prop
  | .integer _ range, s => ∃ n, readDecimal s = some (n, 0) ∧ InRange (some range) n
  | .string length, s => InRange (some length) s.length

def Enforced (regexMatch : String → String → Bool) (r : Restricted) (s : String) : Prop :=
  ∃ parsed, parseType regexMatch r.declared = .ok parsed ∧
    ((∀ validator ∈ parsed.1, validator s = true) ↔ r.Lies s)

/-- The literals `min` and `max` have no blank beside them, and there is at most one in a part, at its
own end; and the text of an integer is a value.  That of a string is one and outside of another part,
or it is none and in all by its bytes. -/
def Fine (r : Restricted) (s : String) : Prop :=
  r.declared.castable = true ∧
    match r with
    | .integer _ _ => r.Lies s
    | .string length => (r.Lies s ∧ ∃ part, Outside length.parts s part) ∨
        (¬r.Lies s ∧ ∀ part, ¬Outside length.parts s part)

/-- The restrictions of a leaf are enforced if and only if the expression can be read, and the value
is right for integers, or the value of a string is in one part and not in another. -/
theorem enforced_iff (regexMatch : String → String → Bool) (r : Restricted) (s : String) :
    r.Enforced regexMatch s ↔ r.Fine s := by
  cases r with
  | integer type range =>
    unfold Enforced Fine
    cases castable : (declared (.integer type range)).castable with
    | true =>
      have read : parseType regexMatch (.integer type (some range) []) =
          .ok ([], [.integer type]) := by
        unfold parseType
        exact parseInteger_of_castable castable
      simp [declared, read]
    | false =>
      obtain ⟨e, thrown⟩ := parseInteger_of_not_castable castable
      have read : parseType regexMatch (.integer type (some range) []) = .error e := by
        unfold parseType
        exact thrown
      simp [declared, read]
  | string length =>
    unfold Enforced Fine
    cases castable : (declared (.string length)).castable with
    | true =>
      have read : parseType regexMatch (.string [] (some length) []) =
          .ok ([lengthValidate (lengthRanges length.parts)], [.string]) := by
        unfold parseType parseString
        rw [parseLength_of_castable castable]
        rfl
      have all : (∀ validator ∈ [lengthValidate (lengthRanges length.parts)], validator s = true) ↔
          ∃ part, Outside length.parts s part := by
        rw [List.forall_mem_singleton, lengthValidate_iff]
      simp only [declared, read, Except.ok.injEq, exists_eq_left', all, true_and, ← not_exists]
      tauto
    | false =>
      obtain ⟨e, thrown⟩ := parseLength_of_not_castable castable
      have read : parseType regexMatch (.string [] (some length) []) = .error e := by
        unfold parseType parseString
        rw [thrown]
        rfl
      simp [declared, read]

/-- `1..10` -/
def oneToTen : Expression 0 IntType.uint8.min IntType.uint8.max where
  parts := [.range ⟨[], .number ⟨false, ['1'], []⟩, []⟩ ⟨[], .number ⟨false, ['1', '0'], []⟩, []⟩]
  nonempty := by decide
  written part hp b hb := by
    obtain rfl := List.mem_singleton.1 hp
    rcases List.mem_pair.1 hb with rfl | rfl
    · exact ⟨by simp, fun l h => by cases h; simp⟩
    · exact ⟨by simp, fun l h => by cases h; simp⟩
  numbers part hp := by
    obtain rfl := List.mem_singleton.1 hp
    decide

/-- Integers of 8 bits up to 10, and the number 200. -/
theorem not_enforced_integer : ¬ ∀ regexMatch r s, Enforced regexMatch r s := by
  intro all
  obtain ⟨parsed, read, lies⟩ := all (fun _ _ => true)
    (.integer .uint8 oneToTen) "200"
  have none : parsed.1 = [] := by
    have built : parseType (fun _ _ => true) (declared (.integer .uint8 oneToTen)) =
        .ok ([], [.integer .uint8]) := parseInteger_of_castable rfl
    rw [built, Except.ok.injEq] at read
    rw [← read]
  rw [none] at lies
  obtain ⟨n, number, -, -, inside⟩ := lies.1 (List.forall_mem_nil _)
  have is : n = 200 := by
    rw [show readDecimal "200" = some (200, 0) by decide] at number
    cases number
    rfl
  obtain ⟨part, mem, -, small⟩ := inside _ rfl
  obtain rfl := List.mem_singleton.1 mem
  rw [is] at small
  exact absurd small (by decide)

end Restricted

end Polycube.Polycubed.Resources
