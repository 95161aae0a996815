import Polycube.Lib.ByteStrings

/-!
# `decode_url`

The decoder `polycubed` applies to the keys in a request's path.  The position `i` is an `int` and
every look at the string goes through `at?`, which is `none` past the NUL that ends the string's
buffer and where the position overflows.  `decodeUrl_isSome_iff` says when no look fails, and
`decodeFrom_isSome`, `decodeFrom_eq_none` follow the loop to the first NUL, where it stops.
-/

namespace Polycube.Polycubed

open Lib

/-- The largest `int`. -/
def intMax : ℕ := 2147483647

/-- `s[i]`: the byte behind the last one is the NUL of the buffer. -/
def at? (s : Str) (i : ℕ) : Option UInt8 :=
  if i ≤ s.length ∧ i ≤ intMax then some ((s ++ [0]).getD i 0) else none

def toUtf8 (code : ℕ) : Str :=
  if code < 0x0080 then
    [UInt8.ofNat (code &&& 0x7F)]
  else if code < 0x0800 then
    [UInt8.ofNat (0xC0 ||| (code >>> 6 &&& 0x1F)), UInt8.ofNat (0x80 ||| (code &&& 0x3F))]
  else if code < 0xD800 then
    [UInt8.ofNat (0xE0 ||| (code >>> 12 &&& 0xF)), UInt8.ofNat (0x80 ||| (code >>> 6 &&& 0x3F)),
      UInt8.ofNat (0x80 ||| (code &&& 0x3F))]
  -- D800 - DFFF is invalid
  else if code < 0xE000 then
    []
  else if code < 0x10000 then
    [UInt8.ofNat (0xE0 ||| (code >>> 12 &&& 0xF)), UInt8.ofNat (0x80 ||| (code >>> 6 &&& 0x3F)),
      UInt8.ofNat (0x80 ||| (code &&& 0x3F))]
  else if code < 0x110000 then
    [UInt8.ofNat (0xF0 ||| (code >>> 18 &&& 0x7)), UInt8.ofNat (0x80 ||| (code >>> 12 &&& 0x3F)),
      UInt8.ofNat (0x80 ||| (code >>> 6 &&& 0x3F)), UInt8.ofNat (0x80 ||| (code &&& 0x3F))]
  else
    []

def isHex (c : UInt8) : Option ℕ :=
  -- a `char` from 128 on is negative, so the bound by 0x20 keeps no digit out
  if '0'.toUInt8 ≤ c ∧ c ≤ '9'.toUInt8 then some (c.toNat - '0'.toNat)
  else if 'A'.toUInt8 ≤ c ∧ c ≤ 'F'.toUInt8 then some (c.toNat - 'A'.toNat + 10)
  else if 'a'.toUInt8 ≤ c ∧ c ≤ 'f'.toUInt8 then some (c.toNat - 'a'.toNat + 10)
  else none

/-- The number of `cnt` digits at `i` behind the value `val`, or `none` where one is not a
digit. -/
def fromHexToI (s : Str) : ℕ → ℕ → ℕ → Option (Option ℕ)
  | _, 0, val => some (some val)
  | i, cnt + 1, val => do
    let c ← at? s i
    if c = 0 then
      some none
    else
      (isHex c).elim (some none) fun v => fromHexToI s (i + 1) cnt (val * 16 + v)

/-- One turn of the loop on the byte `c` at `i`, which is not NUL: what is appended to the result
and how far the position goes. -/
def decodeAt (s : Str) (i : ℕ) (c : UInt8) : Option (Str × ℕ) := do
  if c = '%'.toUInt8 then
    let next ← at? s (i + 1)
    if next = 'u'.toUInt8 then
      let val ← fromHexToI s (i + 2) 4 0
      -- 4 digits Unicode codes
      some (val.elim ([c], i + 1) fun val => (toUtf8 val, i + 6))
    else
      let val ← fromHexToI s (i + 1) 2 0
      -- 2 digits hex codes
      some (val.elim ([c], i + 1) fun val => ([UInt8.ofNat val], i + 3))
  else if c = '+'.toUInt8 then
    some ([' '.toUInt8], i + 1)
  else
    some ([c], i + 1)

/-- The loop at position `i`. -/
def decodeFrom (s : Str) : ℕ → ℕ → Str → Option Str
  | 0, _, _ => none
  | fuel + 1, i, result => do
    let c ← at? s i
    if c = 0 then
      some result
    else
      let (bytes, next) ← decodeAt s i c
      decodeFrom s fuel next (result ++ bytes)

def decodeUrl (s : Str) : Option Str := decodeFrom s (s.length + 1) 0 []

/-- The length of `s` as a C string. -/
def strlen (s : Str) : ℕ := s.findIdx (· = 0)

theorem strlen_le (s : Str) : strlen s ≤ s.length := List.findIdx_le_length

theorem at?_of_le {s : Str} {i : ℕ} (inside : i ≤ strlen s) (small : i ≤ intMax) :
    ∃ c, at? s i = some c ∧ (c = 0 ↔ i = strlen s) := by
  have bound := strlen_le s
  refine ⟨_, if_pos ⟨by omega, small⟩, ?_⟩
  rcases Nat.lt_or_eq_of_le inside with before | rfl
  · have long : i < s.length := by omega
    have other : ¬ s[i] = 0 := by simpa using List.not_of_lt_findIdx before
    rw [List.getD_append _ _ _ _ long, List.getD_eq_getElem _ _ long]
    exact iff_of_false other (by omega)
  · refine iff_of_true ?_ rfl
    rcases Nat.lt_or_eq_of_le bound with before | last
    · have stop : s[strlen s] = 0 := of_decide_eq_true (List.findIdx_getElem (w := before))
      rw [List.getD_append _ _ _ _ before, List.getD_eq_getElem _ _ before, stop]
    · rw [last]
      simp

theorem at?_isSome {s : Str} {i : ℕ} (inside : i ≤ strlen s) (small : strlen s ≤ intMax) :
    ∃ c, at? s i = some c := by
  obtain ⟨c, look, -⟩ := at?_of_le inside (inside.trans small)
  exact ⟨c, look⟩

/-- A byte that is not NUL lies before the NUL. -/
theorem lt_of_at? {s : Str} {i : ℕ} {c : UInt8} (inside : i ≤ strlen s) (look : at? s i = some c)
    (other : c ≠ 0) : i + 1 ≤ strlen s := by
  have small : i ≤ intMax := by
    by_contra large
    simp [at?, large] at look
  obtain ⟨d, found, zero⟩ := at?_of_le inside small
  cases look.symm.trans found
  have apart := mt zero.2 other
  omega

theorem fromHexToI_isSome {s : Str} {i : ℕ} (cnt val : ℕ) (inside : i ≤ strlen s)
    (small : strlen s ≤ intMax) : ∃ r, fromHexToI s i cnt val = some r := by
  induction cnt generalizing i val with
  | zero => exact ⟨_, rfl⟩
  | succ cnt ih =>
    obtain ⟨c, look⟩ := at?_isSome inside small
    simp only [fromHexToI, look, bind, Option.bind]
    split
    · exact ⟨_, rfl⟩
    · rename_i other
      cases isHex c with
      | none => exact ⟨_, rfl⟩
      | some v => exact ih _ (lt_of_at? inside look other)

theorem fromHexToI_le {s : Str} {i cnt val n : ℕ} (inside : i ≤ strlen s)
    (read : fromHexToI s i cnt val = some (some n)) : i + cnt ≤ strlen s := by
  induction cnt generalizing i val with
  | zero => exact inside
  | succ cnt ih =>
    obtain ⟨c, look, rest⟩ := Option.bind_eq_some_iff.1 read
    split at rest
    · cases rest
    rename_i other
    cases hex : isHex c with
    | none =>
      rw [hex] at rest
      cases rest
    | some v =>
      rw [hex] at rest
      have next := ih (lt_of_at? inside look other) rest
      omega

theorem decodeAt_isSome {s : Str} {i : ℕ} {c : UInt8} (inside : i + 1 ≤ strlen s)
    (small : strlen s ≤ intMax) : ∃ r, decodeAt s i c = some r := by
  unfold decodeAt
  split_ifs
  · obtain ⟨d, look⟩ := at?_isSome inside small
    rw [look, Option.bind_eq_bind, Option.bind_some]
    split_ifs with unicode
    · have further := lt_of_at? inside look (by rw [unicode]; decide)
      obtain ⟨r, read⟩ := fromHexToI_isSome 4 0 further small
      rw [read]
      exact ⟨_, rfl⟩
    · obtain ⟨r, read⟩ := fromHexToI_isSome 2 0 inside small
      rw [read]
      exact ⟨_, rfl⟩
  · exact ⟨_, rfl⟩
  · exact ⟨_, rfl⟩

/-- A turn moves forward and not past the NUL. -/
theorem decodeAt_le {s bytes : Str} {i next : ℕ} {c : UInt8} (inside : i + 1 ≤ strlen s)
    (turn : decodeAt s i c = some (bytes, next)) : i < next ∧ next ≤ strlen s := by
  unfold decodeAt at turn
  split_ifs at turn
  · obtain ⟨d, look, rest⟩ := Option.bind_eq_some_iff.1 turn
    split_ifs at rest with unicode
    · have further := lt_of_at? inside look (by rw [unicode]; decide)
      obtain ⟨r, read, same⟩ := Option.bind_eq_some_iff.1 rest
      cases r with
      | none =>
        cases same
        omega
      | some n =>
        have digits := fromHexToI_le further read
        cases same
        omega
    · obtain ⟨r, read, same⟩ := Option.bind_eq_some_iff.1 rest
      cases r with
      | none =>
        cases same
        omega
      | some n =>
        have digits := fromHexToI_le inside read
        cases same
        omega
  · cases turn
    omega
  · cases turn
    omega

theorem decodeFrom_isSome {s result : Str} {fuel i : ℕ} (small : strlen s ≤ intMax)
    (inside : i ≤ strlen s) (enough : strlen s < fuel + i) :
    ∃ r, decodeFrom s fuel i result = some r := by
  induction fuel generalizing i result with
  | zero => omega
  | succ fuel ih =>
    obtain ⟨c, look⟩ := at?_isSome inside small
    rw [decodeFrom, look, Option.bind_eq_bind, Option.bind_some]
    split
    · exact ⟨_, rfl⟩
    rename_i other
    have here := lt_of_at? inside look other
    obtain ⟨⟨bytes, next⟩, turn⟩ := decodeAt_isSome (c := c) here small
    obtain ⟨further, kept⟩ := decodeAt_le here turn
    rw [turn]
    exact ih kept (by omega)

/-- A string too long for the position is read on until the position overflows. -/
theorem decodeFrom_eq_none {s result : Str} {fuel i : ℕ} (long : intMax < strlen s)
    (inside : i ≤ strlen s) : decodeFrom s fuel i result = none := by
  induction fuel generalizing i result with
  | zero => rfl
  | succ fuel ih =>
    rw [decodeFrom, Option.bind_eq_bind]
    refine Option.bind_eq_none_iff.2 fun c look => ?_
    have small : i ≤ intMax := by
      by_contra large
      simp [at?, large] at look
    obtain ⟨d, found, zero⟩ := at?_of_le inside small
    cases look.symm.trans found
    have other : c ≠ 0 := fun stop => by
      have last := zero.1 stop
      omega
    rw [if_neg other]
    refine Option.bind_eq_none_iff.2 fun turn took => ?_
    exact ih (decodeAt_le (lt_of_at? inside look other) took).2

/-- `decode_url` looks at nothing outside the string, escapes cut short included, as long as an
`int` can number the bytes before the NUL. -/
theorem decodeUrl_isSome_iff (s : Str) : (∃ r, decodeUrl s = some r) ↔ strlen s ≤ intMax := by
  constructor
  · rintro ⟨r, decoded⟩
    by_contra long
    rw [decodeUrl, decodeFrom_eq_none (by omega) (Nat.zero_le _)] at decoded
    cases decoded
  · intro small
    have bound := strlen_le s
    exact decodeFrom_isSome small (Nat.zero_le _) (by omega)

end Polycube.Polycubed
