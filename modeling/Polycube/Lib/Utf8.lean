import Polycube.Lib.ByteStrings

/-!
# UTF-8 text in byte strings

`encode` writes characters as bytes, `decodeRune` reads the first one back and `runes` reads a
whole string the way Go ranges over it, with U+FFFD for each byte that starts no character.
`IsUtf8` are the strings that are text, on which `runes` is the inverse of `encode`.
-/

namespace Polycube.Lib

def encode (cs : List Char) : Str := cs.flatMap String.utf8EncodeChar

def decodeRune (s : Str) : Option Char := s.toByteArray.utf8DecodeChar? 0

def runesFrom : ℕ → Str → List Char
  | 0, _ => []
  | n + 1, s =>
    match s with
    | [] => []
    | b :: rest =>
      (decodeRune (b :: rest)).elim (Char.ofNat 0xFFFD :: runesFrom n rest) fun c =>
        c :: runesFrom n ((b :: rest).drop c.utf8Size)

def runes (s : Str) : List Char := runesFrom s.length s

def IsUtf8 (s : Str) : Prop := ∃ cs, s = encode cs

theorem decodeRune_append (c : Char) (s : Str) :
    decodeRune (String.utf8EncodeChar c ++ s) = some c := by
  rw [decodeRune, List.toByteArray_append]
  exact ByteArray.utf8DecodeChar?_utf8EncodeChar_append

theorem eq_of_decodeRune {s : Str} {c : Char} (read : decodeRune s = some c) :
    s = String.utf8EncodeChar c ++ s.drop c.utf8Size := by
  obtain ⟨l, eq⟩ := ByteArray.exists_of_utf8DecodeChar?_eq_some read
  have bytes := congrArg (fun b : ByteArray => b.data.toList) eq
  simp only [ByteArray.data_append, Array.toList_append, List.toList_data_toByteArray] at bytes
  have drop : s.drop c.utf8Size = l.data.toList := by
    rw [bytes, List.drop_left' (String.length_utf8EncodeChar c)]
  rw [drop]
  exact bytes

theorem encode_cons (c : Char) (cs : List Char) :
    encode (c :: cs) = String.utf8EncodeChar c ++ encode cs := List.flatMap_cons

theorem runesFrom_encode {cs : List Char} {n : ℕ} (enough : (encode cs).length ≤ n) :
    runesFrom n (encode cs) = cs := by
  induction cs generalizing n with
  | nil => cases n <;> rfl
  | cons c cs ih =>
    rw [encode_cons, List.length_append, String.length_utf8EncodeChar] at enough
    have positive := c.utf8Size_pos
    obtain ⟨n, rfl⟩ := Nat.exists_eq_succ_of_ne_zero (Nat.ne_of_gt (by omega : 0 < n))
    have read := decodeRune_append c (encode cs)
    have rest : (String.utf8EncodeChar c ++ encode cs).drop c.utf8Size = encode cs :=
      List.drop_left' (String.length_utf8EncodeChar c)
    rw [encode_cons]
    cases whole : String.utf8EncodeChar c ++ encode cs with
    | nil =>
      have size := congrArg List.length whole
      rw [List.length_append, String.length_utf8EncodeChar, List.length_nil] at size
      omega
    | cons b tail =>
      rw [whole] at read rest
      simp only [runesFrom, read, Option.elim_some, rest]
      rw [ih (by omega)]

theorem runes_encode (cs : List Char) : runes (encode cs) = cs := runesFrom_encode le_rfl

theorem isUtf8_iff (s : Str) : IsUtf8 s ↔ encode (runes s) = s := by
  constructor
  · rintro ⟨cs, rfl⟩
    rw [runes_encode]
  · exact fun same => ⟨_, same.symm⟩

/-- The characters of a string take up at least its bytes: the replacement has three. -/
theorem length_le_runesFrom {n : ℕ} {s : Str} (enough : s.length ≤ n) :
    s.length ≤ (encode (runesFrom n s)).length := by
  induction n generalizing s with
  | zero => simp_all
  | succ n ih =>
    cases s with
    | nil => exact Nat.zero_le _
    | cons b rest =>
      rw [List.length_cons] at enough
      cases read : decodeRune (b :: rest) with
      | none =>
        have tail := ih (s := rest) (by omega)
        simp only [runesFrom, read, Option.elim_none, encode_cons, List.length_append,
          String.length_utf8EncodeChar, List.length_cons]
        have three : (Char.ofNat 0xFFFD).utf8Size = 3 := by decide
        omega
      | some c =>
        have positive := c.utf8Size_pos
        have cut := congrArg List.length (eq_of_decodeRune read)
        rw [List.length_append, String.length_utf8EncodeChar] at cut
        have short : ((b :: rest).drop c.utf8Size).length ≤ n := by
          rw [List.length_drop, List.length_cons]
          omega
        have tail := ih short
        simp only [runesFrom, read, Option.elim_some, encode_cons, List.length_append,
          String.length_utf8EncodeChar]
        omega

theorem eq_of_mem_utf8EncodeChar {b : UInt8} {c : Char} (small : b < 128)
    (mem : b ∈ String.utf8EncodeChar c) : c.toNat = b.toNat ∧ String.utf8EncodeChar c = [b] := by
  have bound : b.toNat < 128 := small
  unfold String.utf8EncodeChar at mem ⊢
  dsimp only at mem ⊢
  split_ifs at mem ⊢ with one
  · rw [List.mem_singleton] at mem
    subst mem
    refine ⟨?_, rfl⟩
    rw [UInt8.toNat_ofNat_of_lt' (by omega : c.val.toNat < 2 ^ 8)]
    rfl
  all_goals
    simp only [List.mem_cons, List.not_mem_nil, or_false] at mem
    rcases mem with rfl | rfl | rfl | rfl <;>
      simp only [UInt8.toNat_ofNat', Nat.reducePow] at bound <;> omega

theorem mem_of_mem_runesFrom {b : UInt8} (small : b < 128) {n : ℕ} {s : Str}
    (mem : b ∈ encode (runesFrom n s)) : b ∈ s := by
  induction n generalizing s with
  | zero => exact absurd mem List.not_mem_nil
  | succ n ih =>
    cases s with
    | nil => exact absurd mem List.not_mem_nil
    | cons first rest =>
      cases read : decodeRune (first :: rest) with
      | none =>
        simp only [runesFrom, read, Option.elim_none, encode_cons, List.mem_append] at mem
        rcases mem with mem | mem
        · have alone := congrArg List.length (eq_of_mem_utf8EncodeChar small mem).2
          have three : (Char.ofNat 0xFFFD).utf8Size = 3 := by decide
          rw [String.length_utf8EncodeChar, three, List.length_singleton] at alone
          omega
        · exact List.mem_cons_of_mem _ (ih mem)
      | some c =>
        simp only [runesFrom, read, Option.elim_some, encode_cons, List.mem_append] at mem
        rcases mem with mem | mem
        · rw [eq_of_decodeRune read]
          exact List.mem_append_left _ mem
        · exact List.mem_of_mem_drop (ih mem)

theorem mem_of_mem_runes {b : UInt8} {s : Str} (small : b < 128)
    (mem : b ∈ encode (runes s)) : b ∈ s := mem_of_mem_runesFrom small mem

end Polycube.Lib
