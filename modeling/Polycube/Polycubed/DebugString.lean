import Mathlib.Data.List.TakeWhile
import Polycube.Lib.Digits

/-!
# Debug messages

`format_debug_string` replaces the specifiers of its own, `%I`, `%M` and `%P`, by the texts of their
arguments, and gives the format and the arguments that are left to `snprintf`.  The index of the
argument grows with every specifier; nothing keeps it within the array.
-/

namespace Polycube.Polycubed.DebugString

abbrev Text := List Char
abbrev Arg := BitVec 64

def modifiers : Text := "-+ #0123456789.hlqjzt".toList
def conversions : Text := "diouxXpc".toList

/-- What is printed at the end of a directive. -/
def converted (directive : Text → Arg → Text) (custom : Char → Option (Arg → Text)) (m : Text)
    (c : Char) (arg : Arg) : Option Text :=
  match if m = [] then custom c else none with
  | some f => some (f arg)
  | none => if c ∈ conversions then some (directive (m ++ [c]) arg) else none

/-- `printf` with directives for integers, each printed by `directive`, and with specifiers of one
more kind.  In a directive, whose characters so far are `some m`, a conversion ends it.  None where
the format has no meaning, or has not the argument that it needs. -/
def printf (directive : Text → Arg → Text) (custom : Char → Option (Arg → Text)) :
    Option Text → Text → List Arg → Option Text
  | none, [], _ => some []
  | none, c :: str, args =>
    if c = '%' then printf directive custom (some []) str args
    else (c :: ·) <$> printf directive custom none str args
  | some _, [], _ => none
  | some m, c :: str, args =>
    if c = '%' then
      if m = [] then ('%' :: ·) <$> printf directive custom none str args else none
    else if c ∈ modifiers then printf directive custom (some (m ++ [c])) str args
    else
      args.head?.bind fun arg => (converted directive custom m c arg).bind fun text =>
        (text ++ ·) <$> printf directive custom none str args.tail

/-! ### The function -/

/-- A byte in two hexadecimal digits. -/
def hexByte (b : ℕ) : Text := [Nat.digitChar (b / 16), Nat.digitChar (b % 16)]

def macToString (mac : Arg) : Text :=
  [':'].intercalate ((List.range 6).map fun i => hexByte (mac.toNat / 256 ^ i % 256))

/-- `%I`, `%M` and `%P`; the last one swaps the two lowest bytes. -/
def specifier : Char → Option (Arg → Text)
  | 'I' => some fun arg => Lib.dotted (arg.setWidth 32)
  | 'M' => some macToString
  | 'P' => some fun arg => Nat.toDigits 10 (arg.toNat % 256 * 256 + arg.toNat / 256 % 256)
  | _ => none

/-- A specifier that is replaced: where it stands, its text, and the index of its argument, which
`to_rellocate` marks. -/
structure Replacement where
  pos : ℕ
  text : Text
  argIndex : ℕ

/-- The loop over the format from position `i`; none if an argument beyond the array is read. -/
def scan (args : List Arg) : ℕ → ℕ → Text → Option (List Replacement)
  | _, _, [] => some []
  | i, argIndex, '%' :: '%' :: str => scan args (i + 2) argIndex str
  | i, argIndex, '%' :: c :: str =>
    match specifier c with
    | some f =>
      match args[argIndex]? with
      | some arg => (⟨i, f arg, argIndex⟩ :: ·) <$> scan args (i + 1) (argIndex + 1) (c :: str)
      | none => none
    | none => scan args (i + 1) (argIndex + 1) (c :: str)
  | i, argIndex, _ :: str => scan args (i + 1) argIndex str

/-- `str.replace(it->pos, 2, it->to)` -/
def Replacement.replace (r : Replacement) (str : Text) : Text :=
  str.take r.pos ++ (r.text ++ str.drop (r.pos + 2))

def newArgs (args : List Arg) (rs : List Replacement) : List Arg :=
  (args.zipIdx.filter (·.2 ∉ rs.map Replacement.argIndex)).map Prod.fst

inductive Result
  | outOfRange
  | undefined
  | text (t : Text)
  deriving DecidableEq

/-- `snprintf` prints into a buffer that has 50 characters more than the format, one of them for the
end of the text, which is where the first null character stands. -/
def formatDebugString (directive : Text → Arg → Text) (str : Text) (args : List Arg) : Result :=
  match scan args 0 0 str with
  | none => .outOfRange
  | some rs =>
    let str := rs.foldr Replacement.replace str
    match printf directive (fun _ => none) none str (newArgs args rs) with
    | some t => .text ((t.take (str.length + 49)).takeWhile (· ≠ '\x00'))
    | none => .undefined

/-- The number of specifiers before each one that is replaced. -/
def indices : ℕ → Text → List ℕ
  | _, [] => []
  | k, '%' :: '%' :: str => indices k str
  | k, '%' :: c :: str => (if (specifier c).isSome then [k] else []) ++ indices (k + 1) str
  | k, _ :: str => indices k str

/-- What stands in place of a specifier. -/
def inPlace (c : Char) (args : List Arg) : Text :=
  match specifier c, args with
  | some f, arg :: _ => f arg
  | _, _ => ['%', c]

/-- The format with the texts of the arguments in place of the specifiers that are replaced. -/
def expand : List Arg → Text → Text
  | _, [] => []
  | args, '%' :: '%' :: str => '%' :: '%' :: expand args str
  | args, '%' :: c :: str => inPlace c args ++ expand args.tail str
  | args, c :: str => c :: expand args str

/-- Every index is within the array, and where the format has a meaning the text is that of `printf`
with all the specifiers. -/
def Sound (directive : Text → Arg → Text) (str : Text) (args : List Arg) : Prop :=
  formatDebugString directive str args ≠ .outOfRange ∧
    ∀ t, printf directive specifier none str args = some t →
      formatDebugString directive str args = .text t

theorem format_induction {P : Text → Prop} (nil : P []) (last : P ['%'])
    (escaped : ∀ str, P str → P ('%' :: '%' :: str))
    (specified : ∀ c str, c ≠ '%' → P str → P ('%' :: c :: str))
    (other : ∀ c str, c ≠ '%' → P str → P (c :: str)) : ∀ str, P str
  | [] => nil
  | [c] => if h : c = '%' then h ▸ last else other c [] h nil
  | c :: d :: str => by
    have ih := format_induction nil last escaped specified other str
    by_cases hc : c = '%'
    · subst hc
      by_cases hd : d = '%'
      · exact hd ▸ escaped str ih
      · exact specified d str hd ih
    · exact other c _ hc (format_induction nil last escaped specified other (d :: str))

variable {directive : Text → Arg → Text} {args : List Arg} {rs : List Replacement} {str t : Text}
  {i k : ℕ} {c : Char}

theorem scan_other (h : c ≠ '%') : scan args i k (c :: str) = scan args (i + 1) k str := by
  rw [scan]
  · rintro str rfl
    exact absurd rfl h
  · rintro d str rfl
    exact absurd rfl h

theorem scan_specified (h : c ≠ '%') : scan args i k ('%' :: c :: str) =
    match specifier c with
    | some f =>
      match args[k]? with
      | some arg => (⟨i, f arg, k⟩ :: ·) <$> scan args (i + 2) (k + 1) str
      | none => none
    | none => scan args (i + 2) (k + 1) str := by
  rw [scan]
  · rw [scan_other h]
  · exact h

theorem scan_isSome_iff (str : Text) :
    (scan args i k str).isSome ↔ ∀ j ∈ indices k str, j < args.length := by
  induction str using format_induction generalizing i k with
  | nil => simp [scan, indices]
  | last => simp [scan, indices]
  | escaped str ih => exact ih
  | other c str hc ih =>
    rw [scan_other hc, indices]
    · exact ih
    all_goals grind
  | specified c str hc ih =>
    rw [scan_specified hc, indices]
    · cases own : specifier c with
      | none => simpa [own] using ih
      | some f =>
        cases arg : args[k]? with
        | none =>
          have := List.getElem?_eq_none_iff.1 arg
          simpa [own] using fun short => absurd short (by omega)
        | some a =>
          obtain ⟨short, -⟩ := List.getElem?_eq_some_iff.1 arg
          simpa [own, short] using ih
    · exact hc

theorem le_argIndex (run : scan args i k str = some rs) : ∀ r ∈ rs, k ≤ r.argIndex := by
  induction str using format_induction generalizing i k rs with
  | nil =>
    obtain rfl := Option.some.inj run
    simp
  | last =>
    obtain rfl := Option.some.inj run
    simp
  | escaped str ih => exact ih run
  | other c str hc ih => exact ih (scan_other hc ▸ run)
  | specified c str hc ih =>
    rw [scan_specified hc] at run
    split at run
    · split at run
      · obtain ⟨rs', rest, rfl⟩ := Option.map_eq_some_iff.1 run
        intro r hr
        rcases List.mem_cons.1 hr with rfl | hr
        · exact Nat.le_refl k
        · exact Nat.le_of_succ_le (ih rest r hr)
      · cases run
    · exact fun r hr => Nat.le_of_succ_le (ih run r hr)

/-- What is replaced from the back stays where the positions before it are right. -/
theorem foldr_replace (pre : Text) (run : scan args pre.length k str = some rs) :
    rs.foldr Replacement.replace (pre ++ str) = pre ++ expand (args.drop k) str := by
  induction str using format_induction generalizing pre k rs with
  | nil =>
    obtain rfl := Option.some.inj run
    simp [expand]
  | last =>
    obtain rfl := Option.some.inj run
    simp [expand]
  | escaped str ih =>
    have := ih (pre ++ ['%', '%']) (by rw [List.length_append]; exact run)
    simpa [expand] using this
  | other c str hc ih =>
    have := ih (pre ++ [c]) (by simpa using scan_other hc ▸ run)
    rw [expand]
    · simpa using this
    all_goals grind
  | specified c str hc ih =>
    have ih {rs' : List Replacement} (rest : scan args (pre.length + 2) (k + 1) str = some rs') :
        rs'.foldr Replacement.replace (pre ++ '%' :: c :: str) =
          pre ++ '%' :: c :: expand (args.drop (k + 1)) str := by
      simpa using ih (pre ++ ['%', c]) (by rw [List.length_append]; exact rest)
    rw [scan_specified hc] at run
    rw [expand]
    · split at run
      · rename_i f own
        split at run
        · rename_i arg here
          obtain ⟨rs', rest, rfl⟩ := Option.map_eq_some_iff.1 run
          obtain ⟨short, rfl⟩ := List.getElem?_eq_some_iff.1 here
          have placed : inPlace c (args.drop k) = f args[k] := by
            rw [List.drop_eq_getElem_cons short]
            simp only [inPlace, own]
          rw [List.foldr_cons, ih rest, placed, List.tail_drop]
          simp [Replacement.replace]
        · cases run
      · rename_i own
        rw [ih run, List.tail_drop]
        simp [inPlace, own]
    · exact hc

/-- Those from an index on. -/
def left (args : List Arg) (k : ℕ) (rs : List Replacement) : List Arg :=
  ((args.zipIdx.drop k).filter (·.2 ∉ rs.map Replacement.argIndex)).map Prod.fst

theorem drop_zipIdx (short : k < args.length) :
    args.zipIdx.drop k = (args[k], k) :: args.zipIdx.drop (k + 1) := by
  rw [List.drop_eq_getElem_cons (by simpa using short), List.getElem_zipIdx, Nat.zero_add]

theorem left_kept (short : k < args.length) (after : ∀ r ∈ rs, k + 1 ≤ r.argIndex) :
    left args k rs = args[k] :: left args (k + 1) rs := by
  unfold left
  rw [drop_zipIdx short, List.filter_cons_of_pos, List.map_cons]
  simp only [List.mem_map, not_exists, not_and, decide_eq_true_eq]
  intro r hr same
  have := after r hr
  omega

theorem left_moved (short : k < args.length) {r : Replacement} (here : r.argIndex = k) :
    left args k (r :: rs) = left args (k + 1) rs := by
  unfold left
  rw [drop_zipIdx short, List.filter_cons_of_neg (by simp [here])]
  congr 1
  apply List.filter_congr
  intro p hp
  obtain ⟨j, hj, rfl⟩ := List.getElem_of_mem hp
  have : k ≠ k + 1 + j := by omega
  simp [here, this.symm]

theorem printf_append {custom : Char → Option (Arg → Text)} {l : Text} (plain : '%' ∉ l) :
    printf directive custom none (l ++ str) args =
      (l ++ ·) <$> printf directive custom none str args := by
  induction l with
  | nil => simp
  | cons c l ih =>
    obtain ⟨hc, hl⟩ := not_or.1 (List.mem_cons.not.1 plain)
    rw [List.cons_append, printf, if_neg (Ne.symm hc), ih hl]
    simp [Function.comp_def]

theorem not_mem_hexByte (n : ℕ) : '%' ∉ hexByte (n % 256) := by
  have digit : ∀ d < 16, '%' ≠ Nat.digitChar d := by decide
  have high := digit (n % 256 / 16) (by omega)
  have low := digit (n % 256 % 16) (by omega)
  simp only [hexByte, List.mem_cons, List.not_mem_nil, or_false, not_or]
  exact ⟨high, low⟩

theorem not_mem_toDigits (n : ℕ) : '%' ∉ Nat.toDigits 10 n :=
  fun h => absurd (Lib.isDigit_of_mem_digits _ h) (by decide)

theorem not_mem_specifier {f : Arg → Text} (own : specifier c = some f) (arg : Arg) :
    '%' ∉ f arg := by
  unfold specifier at own
  split at own <;> cases own
  · simp [Lib.dotted, not_mem_toDigits]
  · simp [macToString, List.range_succ, List.intercalate, not_mem_hexByte]
  · exact not_mem_toDigits _

theorem not_modifier {f : Arg → Text} (own : specifier c = some f) : c ∉ modifiers := by
  unfold specifier at own
  split at own <;> first | decide | cases own

/-- From within a directive or without one, what is printed of the format with its replacements and
of the arguments that are left is what is printed of the format and of the arguments. -/
def Follows (directive : Text → Arg → Text) (args : List Arg) (str : Text) : Prop :=
  ∀ {st i k rs t}, st ≠ some [] → scan args i (k + st.isSome.toNat) str = some rs →
    printf directive specifier st str (args.drop k) = some t →
    printf directive (fun _ => none) st (expand (args.drop (k + st.isSome.toNat)) str)
      (left args k rs) = some t

theorem Follows.specified {m : Text} (ih : Follows directive args str) (hc : c ≠ '%')
    (own : m = [] → specifier c = none) (run : scan args i (k + 1) str = some rs)
    (spec : printf directive specifier (some m) (c :: str) (args.drop k) = some t) :
    printf directive (fun _ => none) (some m) (c :: expand (args.drop (k + 1)) str)
      (left args k rs) = some t := by
  have same : converted directive specifier m c = converted directive (fun _ => none) m c := by
    funext arg
    unfold converted
    rw [ite_eq_right_iff.2 own, ite_self]
  rw [printf, if_neg hc] at spec ⊢
  split_ifs at spec ⊢ with modifier
  · exact @ih (some (m ++ [c])) _ _ _ _ (by simp) run spec
  · obtain ⟨arg, here, spec⟩ := Option.bind_eq_some_iff.1 spec
    obtain ⟨text, conversion, spec⟩ := Option.bind_eq_some_iff.1 spec
    obtain ⟨t', rest, rfl⟩ := Option.map_eq_some_iff.1 spec
    rw [List.head?_drop] at here
    obtain ⟨short, rfl⟩ := List.getElem?_eq_some_iff.1 here
    rw [List.tail_drop] at rest
    have := ih (by simp) run rest
    rw [left_kept short (le_argIndex run), List.head?_cons, Option.bind_some, ← same, conversion]
    simpa using this

theorem follows (str : Text) : Follows directive args str := by
  induction str using format_induction with
  | nil =>
    intro st i k rs t started run spec
    cases st with
    | none => simpa [printf, expand] using spec
    | some m => simp [printf] at spec
  | last =>
    intro st i k rs t started run spec
    cases st with
    | none => simp [printf] at spec
    | some m =>
      have : m ≠ [] := fun h => started (h ▸ rfl)
      simp [printf, this] at spec
  | escaped str ih =>
    intro st i k rs t started run spec
    cases st with
    | none =>
      obtain ⟨t', rest, rfl⟩ := Option.map_eq_some_iff.1 (by simpa [printf] using spec)
      have := ih (by simp) run rest
      simpa [printf, expand] using this
    | some m =>
      have : m ≠ [] := fun h => started (h ▸ rfl)
      simp [printf, this] at spec
  | other c str hc ih =>
    intro st i k rs t started run spec
    rw [scan_other hc] at run
    have same : ∀ as, expand as (c :: str) = c :: expand as str := by
      intro as
      rw [expand]
      all_goals grind
    rw [same]
    cases st with
    | none =>
      rw [printf, if_neg hc] at spec
      obtain ⟨t', rest, rfl⟩ := Option.map_eq_some_iff.1 spec
      have := ih (by simp) run rest
      rw [printf, if_neg hc]
      simpa using this
    | some m => exact ih.specified hc (fun h => absurd (h ▸ rfl) started) run spec
  | specified c str hc ih =>
    intro st i k rs t started run spec
    cases st with
    | some m =>
      have : m ≠ [] := fun h => started (h ▸ rfl)
      simp [printf, this] at spec
    | none =>
      rw [printf, if_pos rfl] at spec
      rw [scan_specified hc] at run
      have same : ∀ as, expand as ('%' :: c :: str) = inPlace c as ++ expand as.tail str := by
        intro as
        rw [expand]
        exact hc
      simp only [same, Option.isSome_none, Bool.toNat_false, Nat.add_zero, List.tail_drop] at run ⊢
      cases own : specifier c with
      | none =>
        simp only [own] at run
        have placed : inPlace c (args.drop k) = ['%', c] := by simp only [inPlace, own]
        rw [placed]
        exact ih.specified hc (fun _ => own) run spec
      | some f =>
        simp only [own] at run
        split at run
        · rename_i arg here
          obtain ⟨rs, after, rfl⟩ := Option.map_eq_some_iff.1 run
          obtain ⟨short, rfl⟩ := List.getElem?_eq_some_iff.1 here
          have placed : inPlace c (args.drop k) = f args[k] := by
            rw [List.drop_eq_getElem_cons short]
            simp only [inPlace, own]
          rw [printf, if_neg hc, if_neg (not_modifier own), List.head?_drop, here, Option.bind_some] at spec
          have made : converted directive specifier [] c args[k] = some (f args[k]) := by
            simp only [converted, if_true, own]
          rw [made, Option.bind_some, List.tail_drop] at spec
          obtain ⟨t', rest, rfl⟩ := Option.map_eq_some_iff.1 spec
          have := ih (by simp) after rest
          rw [placed, printf_append (not_mem_specifier own _), left_moved short rfl]
          simpa using this
        · cases run

/-- A message is sound exactly when every specifier that is replaced has its argument within the array
and the text has no null character and is at most 49 characters longer than the format with the
replacements made. -/
theorem sound_iff (directive : Text → Arg → Text) (str : Text) (args : List Arg) :
    Sound directive str args ↔ (∀ k ∈ indices 0 str, k < args.length) ∧
      ∀ t, printf directive specifier none str args = some t →
        t.length ≤ (expand args str).length + 49 ∧ '\x00' ∉ t := by
  unfold Sound
  rw [← scan_isSome_iff (i := 0)]
  cases run : scan args 0 0 str with
  | none => simp [formatDebugString, run]
  | some rs =>
    have result (t : Text) (spec : printf directive specifier none str args = some t) :
        formatDebugString directive str args =
          .text ((t.take ((expand args str).length + 49)).takeWhile (· ≠ '\x00')) := by
      have printed : printf directive (fun _ => none) none (expand args str) (left args 0 rs) =
          some t := follows str (Option.some_ne_none []).symm run spec
      have replaced := foldr_replace [] run
      have same : newArgs args rs = left args 0 rs := rfl
      simp only [formatDebugString, run, List.nil_append, List.drop_zero] at replaced ⊢
      rw [replaced, same, printed]
    simp only [Option.isSome_some, true_and]
    constructor
    · rintro ⟨-, right⟩ t spec
      have := right t spec
      rw [result t spec, Result.text.injEq] at this
      have short := congrArg List.length this
      have prefixed := (List.takeWhile_prefix (l := t.take ((expand args str).length + 49))
        (· ≠ '\x00')).length_le
      rw [List.length_take] at prefixed
      refine ⟨by omega, fun null => ?_⟩
      rw [← this] at null
      simpa using List.mem_takeWhile_imp null
    · intro short
      refine ⟨?_, fun t spec => ?_⟩
      · simp only [formatDebugString, run]
        split <;> exact Result.noConfusion
      · obtain ⟨length, null⟩ := short t spec
        rw [result t spec, List.take_of_length_le length, List.takeWhile_eq_self_iff.2]
        intro c hc
        simpa using fun (h : c = '\x00') => null (h ▸ hc)

/-- `%d` with the decimals of the argument. -/
def decimal (_ : Text) (arg : Arg) : Text := Nat.toDigits 10 arg.toNat

theorem not_sound : ¬ ∀ directive str args, args.length = 4 → Sound directive str args := by
  intro sound
  have := (sound decimal "%d %d %d %d %I".toList [1, 2, 3, 4] rfl).1
  exact this (by decide)

end Polycube.Polycubed.DebugString
