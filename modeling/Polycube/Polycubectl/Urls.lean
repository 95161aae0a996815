import Polycube.Polycubectl.CliArgs
import Polycube.Polycubed.DecodeUrl

/-!
# Path arguments in the URL

`buildURL` writes the path arguments as the segments of a URL, each through Go's `url.PathEscape`,
and `polycubed` cuts the path at `/` and decodes each segment with `decode_url`.
`survives_buildURL` says which arguments come back: `decode_url` reads `+` as a blank, the way
forms are encoded, and `PathEscape` leaves it alone, since a path segment may hold it.
-/

namespace Polycube.Polycubectl

open Lib Polycube.Polycubed

/-- The bytes `url.PathEscape` escapes: all but letters, digits and what a segment may hold. -/
def shouldEscape (c : UInt8) : Bool :=
  ¬ ('a'.toUInt8 ≤ c ∧ c ≤ 'z'.toUInt8 ∨ 'A'.toUInt8 ≤ c ∧ c ≤ 'Z'.toUInt8 ∨
    '0'.toUInt8 ≤ c ∧ c ≤ '9'.toUInt8) ∧ c ∉ ascii "-_.~" ∧ c ∉ ascii "$&+:=@"

def escapeByte (c : UInt8) : Str :=
  if shouldEscape c then ['%'.toUInt8, upperHex (c.toNat / 16), upperHex (c.toNat % 16)] else [c]

def pathEscape (s : Str) : Str := s.flatMap escapeByte

/-- `strings.ToUpper` on the words of the commands, which are ASCII. -/
def toUpper (s : Str) : Str :=
  s.map fun c => if 'a'.toUInt8 ≤ c ∧ c ≤ 'z'.toUInt8 then c - 32 else c

def getHelpQueryParam (cli : CLIArgs) : Str :=
  ascii "?help=" ++ if cli.command = [] then ascii "NONE" else toUpper cli.command

def buildURL (cli : CLIArgs) : Str :=
  let url_str := cli.pathArgs.foldl (fun url str => url ++ (pathEscape str ++ ascii "/")) []
  if cli.isHelp then
    if url_str.length > 0 then
      url_str.take (url_str.length - 1) ++ getHelpQueryParam cli
    else
      getHelpQueryParam cli
  else
    url_str

def segments (url : Str) : List Str :=
  ((url.takeWhile (· ≠ '?'.toUInt8)).splitOn '/'.toUInt8).filter (· ≠ [])

theorem isHex_upperHex : ∀ n < 16, isHex (upperHex n) = some n := by
  decide

/-- A digit is none of the bytes that the decoder and the split stop at. -/
theorem upperHex_ne : ∀ n < 16, upperHex n ≠ 0 ∧ upperHex n ≠ 'u'.toUInt8 ∧
    upperHex n ≠ '/'.toUInt8 ∧ upperHex n ≠ '?'.toUInt8 := by
  decide

theorem shouldEscape_eq_true {c : UInt8} (stop : c = 0 ∨ c = '%'.toUInt8 ∨ c = '/'.toUInt8 ∨
    c = '?'.toUInt8) : shouldEscape c = true := by
  rcases stop with rfl | rfl | rfl | rfl <;> decide

theorem nibbles (c : UInt8) : c.toNat / 16 < 16 ∧ c.toNat % 16 < 16 := by
  have bound := c.toNat_lt
  omega

/-- The bytes that end a string, a segment or a path are never written. -/
theorem clear_escapeByte {c b : UInt8} (stop : b = 0 ∨ b = '/'.toUInt8 ∨ b = '?'.toUInt8) :
    b ∉ escapeByte c := by
  unfold escapeByte
  obtain ⟨hi, lo⟩ := nibbles c
  obtain ⟨hi0, -, hi1, hi2⟩ := upperHex_ne _ hi
  obtain ⟨lo0, -, lo1, lo2⟩ := upperHex_ne _ lo
  split
  · simp only [List.mem_cons, List.not_mem_nil, or_false, not_or]
    rcases stop with rfl | rfl | rfl
    · exact ⟨by decide, hi0.symm, lo0.symm⟩
    · exact ⟨by decide, hi1.symm, lo1.symm⟩
    · exact ⟨by decide, hi2.symm, lo2.symm⟩
  · rename_i plain
    rw [List.mem_singleton]
    rintro rfl
    refine plain (shouldEscape_eq_true ?_)
    rcases stop with stop | stop | stop <;> simp [stop]

theorem clear_pathEscape {s : Str} {b : UInt8}
    (stop : b = 0 ∨ b = '/'.toUInt8 ∨ b = '?'.toUInt8) : b ∉ pathEscape s := by
  rw [pathEscape, List.mem_flatMap]
  rintro ⟨c, -, mem⟩
  exact clear_escapeByte stop mem

theorem length_pathEscape (s : Str) :
    (pathEscape s).length = s.length + 2 * s.countP shouldEscape := by
  induction s with
  | nil => rfl
  | cons c s ih =>
    rw [pathEscape, List.flatMap_cons, List.length_append, ← pathEscape, ih, List.countP_cons,
      List.length_cons]
    unfold escapeByte
    split_ifs
    · simp only [List.length_cons, List.length_nil]
      omega
    · simp only [List.length_cons, List.length_nil]
      omega

theorem strlen_pathEscape (s : Str) : strlen (pathEscape s) = (pathEscape s).length := by
  refine List.findIdx_eq_length.2 fun b mem => ?_
  rw [decide_eq_false_iff_not]
  rintro rfl
  exact clear_pathEscape (.inl rfl) mem

def unplus (c : UInt8) : UInt8 := if c = '+'.toUInt8 then ' '.toUInt8 else c

theorem at?_append (pre post : Str) (c : UInt8) (small : pre.length ≤ intMax) :
    at? (pre ++ c :: post) pre.length = some c := by
  simp [at?, small]

theorem fromHexToI_upperHex (pre post : Str) {hi lo : ℕ} (hhi : hi < 16) (hlo : lo < 16)
    (small : pre.length + 1 ≤ intMax) :
    fromHexToI (pre ++ upperHex hi :: upperHex lo :: post) pre.length 2 0 =
      some (some (hi * 16 + lo)) := by
  have first := at?_append pre (upperHex lo :: post) (upperHex hi) (by omega)
  have second := at?_append (pre ++ [upperHex hi]) post (upperHex lo) (by simpa using small)
  rw [List.append_assoc, List.singleton_append, List.length_append] at second
  simp only [List.length_cons, List.length_nil, zero_add] at second
  simp [fromHexToI, first, second, (upperHex_ne hi hhi).1, (upperHex_ne lo hlo).1,
    isHex_upperHex hi hhi, isHex_upperHex lo hlo]

theorem decodeAt_escapeByte (pre post : Str) {c : UInt8}
    (small : (pre ++ escapeByte c).length ≤ intMax) :
    ∃ b, at? (pre ++ (escapeByte c ++ post)) pre.length = some b ∧ b ≠ 0 ∧
      decodeAt (pre ++ (escapeByte c ++ post)) pre.length b =
        some ([unplus c], (pre ++ escapeByte c).length) := by
  unfold escapeByte at small ⊢
  split
  · rename_i escaped
    rw [if_pos escaped, List.length_append] at small
    simp only [List.length_cons, List.length_nil] at small
    obtain ⟨hi, lo⟩ := nibbles c
    have begun : (pre ++ ['%'.toUInt8]).length + 1 ≤ intMax := by
      rw [List.length_append, List.length_singleton]
      omega
    have second := at?_append (pre ++ ['%'.toUInt8]) (upperHex (c.toNat % 16) :: post)
      (upperHex (c.toNat / 16)) (Nat.le_of_succ_le begun)
    have digits := fromHexToI_upperHex (pre ++ ['%'.toUInt8]) post hi lo begun
    rw [List.append_assoc, List.singleton_append, List.length_append] at second digits
    simp only [List.length_cons, List.length_nil, zero_add] at second digits
    have back : UInt8.ofNat (c.toNat / 16 * 16 + c.toNat % 16) = c := by
      rw [Nat.mul_comm, Nat.div_add_mod, UInt8.ofNat_toNat]
    have plain : unplus c = c := by
      refine if_neg ?_
      rintro rfl
      exact absurd escaped (by decide)
    refine ⟨'%'.toUInt8, at?_append _ _ _ (by omega), by decide, ?_⟩
    simp [decodeAt, second, digits, (upperHex_ne _ hi).2.1, back, plain]
  · rename_i kept
    rw [if_neg kept, List.length_append] at small
    have small' : pre.length ≤ intMax := by omega
    have other : c ≠ 0 := fun zero => kept (shouldEscape_eq_true (.inl zero))
    have notPercent : c ≠ '%'.toUInt8 := fun same => kept (shouldEscape_eq_true (.inr (.inl same)))
    refine ⟨c, at?_append _ _ _ small', other, ?_⟩
    unfold decodeAt unplus
    rw [if_neg notPercent]
    split_ifs <;> simp

theorem decodeFrom_pathEscape {arg : Str} {fuel : ℕ} (pre result : Str)
    (small : (pre ++ pathEscape arg).length ≤ intMax) (enough : arg.length < fuel) :
    decodeFrom (pre ++ pathEscape arg) fuel pre.length result =
      some (result ++ arg.map unplus) := by
  induction arg generalizing pre result fuel with
  | nil =>
    obtain ⟨fuel, rfl⟩ := Nat.exists_eq_succ_of_ne_zero (Nat.ne_of_gt enough)
    have fits : pre.length ≤ intMax := by simpa [pathEscape] using small
    have stop : at? pre pre.length = some 0 := by simp [at?, fits]
    simp [decodeFrom, pathEscape, stop]
  | cons c arg ih =>
    obtain ⟨fuel, rfl⟩ := Nat.exists_eq_succ_of_ne_zero (Nat.ne_of_gt (Nat.zero_lt_of_lt enough))
    have cut : pathEscape (c :: arg) = escapeByte c ++ pathEscape arg := List.flatMap_cons
    rw [cut] at small ⊢
    rw [← List.append_assoc] at small
    obtain ⟨b, look, other, turn⟩ := decodeAt_escapeByte pre (pathEscape arg) (c := c)
      (by rw [List.length_append] at small; omega)
    rw [decodeFrom, look, Option.bind_eq_bind, Option.bind_some, if_neg other, turn]
    have next := ih (pre ++ escapeByte c) (result ++ [unplus c]) small
      (Nat.lt_of_succ_lt_succ enough)
    rw [List.append_assoc] at next
    simpa using next

theorem map_unplus_eq_iff {arg : Str} : arg.map unplus = arg ↔ '+'.toUInt8 ∉ arg := by
  have fixed : arg.map unplus = arg.map id ↔ ∀ c ∈ arg, unplus c = id c := List.map_inj_left
  rw [List.map_id] at fixed
  rw [fixed]
  constructor
  · intro same mem
    exact absurd (same _ mem) (by decide)
  · intro clear c mem
    refine if_neg ?_
    rintro rfl
    exact clear mem

/-- An escaped argument comes back exactly when it holds no `+` and is not too long. -/
theorem decodeUrl_pathEscape_iff (arg : Str) : decodeUrl (pathEscape arg) = some arg ↔
    '+'.toUInt8 ∉ arg ∧ arg.length + 2 * arg.countP shouldEscape ≤ intMax := by
  rw [← length_pathEscape]
  have decoded (small : (pathEscape arg).length ≤ intMax) :
      decodeUrl (pathEscape arg) = some (arg.map unplus) := by
    have enough : arg.length < (pathEscape arg).length + 1 := by
      rw [length_pathEscape]
      omega
    exact decodeFrom_pathEscape [] [] small enough
  constructor
  · intro back
    have small := (decodeUrl_isSome_iff _).1 ⟨arg, back⟩
    rw [strlen_pathEscape] at small
    rw [decoded small, Option.some.injEq, map_unplus_eq_iff] at back
    exact ⟨back, small⟩
  · rintro ⟨clear, small⟩
    rw [decoded small, map_unplus_eq_iff.2 clear]

/-! ## The segments of the URL -/

def slashed (args : List Str) : Str := args.flatMap fun str => pathEscape str ++ ['/'.toUInt8]

theorem splitOn_slashed (args : List Str) :
    (slashed args).splitOn '/'.toUInt8 = args.map pathEscape ++ [[]] := by
  induction args with
  | nil => rfl
  | cons arg args ih =>
    have cut : slashed (arg :: args) = pathEscape arg ++ '/'.toUInt8 :: slashed args := by
      simp [slashed]
    rw [cut, List.splitOn_append_cons_self_of_not_mem (clear_pathEscape (.inr (.inl rfl))), ih]
    rfl

theorem splitOn_take {args : List Str} (some : args ≠ []) :
    ((slashed args).take ((slashed args).length - 1)).splitOn '/'.toUInt8 =
      args.map pathEscape := by
  obtain ⟨front, last, rfl⟩ := (List.eq_nil_or_concat args).resolve_left some
  have ending : slashed (front.concat last) =
      slashed front ++ pathEscape last ++ ['/'.toUInt8] := by
    simp [slashed]
  have whole := splitOn_slashed (front.concat last)
  rw [ending, List.splitOn_append_cons_self, List.splitOn_nil] at whole
  rw [ending, List.length_append, List.length_singleton, Nat.add_sub_cancel,
    List.take_left' rfl]
  exact List.append_inj_left' whole rfl

theorem clear_slashed (args : List Str) : '?'.toUInt8 ∉ slashed args := by
  rw [slashed, List.mem_flatMap]
  rintro ⟨arg, -, mem⟩
  rw [List.mem_append, List.mem_singleton] at mem
  exact mem.elim (clear_pathEscape (.inr (.inr rfl))) (by decide)

theorem takeWhile_path {path query : Str} (clear : '?'.toUInt8 ∉ path)
    (head : query = [] ∨ query.head? = some '?'.toUInt8) :
    (path ++ query).takeWhile (· ≠ '?'.toUInt8) = path := by
  have all : ∀ b ∈ path, decide (b ≠ '?'.toUInt8) = true := by
    intro b mem
    rw [decide_eq_true_eq]
    rintro rfl
    exact clear mem
  rw [List.takeWhile_append_of_pos all]
  cases query with
  | nil => simp
  | cons c query =>
    have mark : c = '?'.toUInt8 := by simpa using head
    rw [mark]
    simp

theorem filter_pathEscape {args : List Str} (full : ∀ arg ∈ args, arg ≠ []) :
    (args.map pathEscape).filter (· ≠ []) = args.map pathEscape := by
  refine List.filter_eq_self.2 fun segment mem => ?_
  obtain ⟨arg, inside, rfl⟩ := List.mem_map.1 mem
  have long := length_pathEscape arg
  have positive := List.length_pos_of_ne_nil (full arg inside)
  rw [decide_eq_true_eq]
  intro empty
  rw [empty, List.length_nil] at long
  omega

theorem segments_buildURL {cli : CLIArgs} (full : ∀ arg ∈ cli.pathArgs, arg ≠ []) :
    segments (buildURL cli) = cli.pathArgs.map pathEscape := by
  have url : cli.pathArgs.foldl (fun url str => url ++ (pathEscape str ++ ascii "/")) [] =
      slashed cli.pathArgs := (List.flatMap_eq_foldl ..).symm
  have query : (getHelpQueryParam cli).head? = some '?'.toUInt8 := rfl
  unfold buildURL segments
  dsimp only
  rw [url]
  split_ifs with help some
  · have clear : '?'.toUInt8 ∉ (slashed cli.pathArgs).take ((slashed cli.pathArgs).length - 1) :=
      fun mem => clear_slashed _ (List.mem_of_mem_take mem)
    have args : cli.pathArgs ≠ [] := by
      intro none
      rw [none] at some
      exact absurd some (Nat.lt_irrefl 0)
    rw [takeWhile_path clear (.inr query), splitOn_take args, filter_pathEscape full]
  · have none : cli.pathArgs = [] := by
      cases same : cli.pathArgs with
      | nil => rfl
      | cons arg args => simp [same, slashed] at some
    rw [none, ← List.nil_append (getHelpQueryParam cli),
      takeWhile_path List.not_mem_nil (.inr query)]
    rfl
  · rw [← List.append_nil (slashed cli.pathArgs), takeWhile_path (clear_slashed _) (.inl rfl),
      splitOn_slashed, List.filter_append, filter_pathEscape full]
    simp

theorem mapM_map_eq_some_iff {f : Str → Str} {g : Str → Option Str} {l : List Str} :
    (l.map f).mapM g = some l ↔ ∀ a ∈ l, g (f a) = some a := by
  induction l with
  | nil => simp
  | cons a l ih =>
    rw [List.map_cons, List.mapM_cons, List.forall_mem_cons, ← ih]
    cases g (f a) <;> cases (l.map f).mapM g <;> simp

/-- Path arguments that are not empty come back from the URL exactly when none holds a `+` and
each fits an `int` once escaped; and the decoder looks at nothing outside its input exactly on
strings whose length an `int` can hold. -/
theorem survives_buildURL (cli : CLIArgs) (s : Str) :
    ((∀ arg ∈ cli.pathArgs, arg ≠ []) →
      ((segments (buildURL cli)).mapM decodeUrl = some cli.pathArgs ↔
        ∀ arg ∈ cli.pathArgs, '+'.toUInt8 ∉ arg ∧
          arg.length + 2 * arg.countP shouldEscape ≤ intMax)) ∧
      ((∃ r, decodeUrl s = some r) ↔ strlen s ≤ intMax) := by
  refine ⟨fun full => ?_, decodeUrl_isSome_iff s⟩
  rw [segments_buildURL full, mapM_map_eq_some_iff]
  simp only [decodeUrl_pathEscape_iff]

/-- `polycubectl show` with these path arguments. -/
def showing (pathArgs : List Str) : CLIArgs where
  command := showCommand
  pathArgs := pathArgs
  bodyArgs := []
  showType := .unspec
  isHelp := false
  hideList := none

/-- A prefix, a text with a blank and a `%u` sequence that is none. -/
theorem survives_prefixes :
    (segments (buildURL (showing [ascii "10.0.0.0/8", ascii "a b", ascii "%u0041?"]))).mapM
        decodeUrl = some [ascii "10.0.0.0/8", ascii "a b", ascii "%u0041?"] ∧
      ∃ r, decodeUrl (ascii "%u00") = some r :=
  ⟨((survives_buildURL (showing _) []).1 (by decide)).2 (by decide +kernel),
    (survives_buildURL (showing []) _).2.2 (by decide +kernel)⟩

/-- The name `vm+1` arrives as `vm 1`. -/
theorem not_survives_plus :
    (∀ arg ∈ (showing [ascii "vm+1"]).pathArgs, arg ≠ [] ∧ 0 ∉ arg) ∧
      (segments (buildURL (showing [ascii "vm+1"]))).mapM decodeUrl = some [ascii "vm 1"] ∧
      some [ascii "vm 1"] ≠ some (showing [ascii "vm+1"]).pathArgs := by
  decide +kernel

end Polycube.Polycubectl
