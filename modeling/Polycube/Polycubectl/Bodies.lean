import Polycube.Polycubectl.CliArgs
import Polycube.Polycubectl.Json

/-!
# The bodies of the requests

`buildBody` sets each body argument in a container of gabs, at the path its key spells with dots, and
sends the bytes of the container; `buildSingleParamBody` pastes the text of a value that a parser of Go accepts
and puts quotes about the others.  `Right` and `SingleRight` say when such a body means what was
typed; `right_iff` and `singleRight_iff` are the exact conditions.
-/

namespace Polycube.Polycubectl

open Lib

/-! ## The tree of a body -/

/-- The values of a container: what the parsers make of a text, and the maps about them. -/
inductive Tree
  | int (n : ℤ)
  | float (x : Float64)
  | bool (b : Bool)
  | str (s : Str)
  | map (entries : List (Str × Tree))

def insert (key : Str) (value : Tree) (entries : List (Str × Tree)) : List (Str × Tree) :=
  if key ∈ entries.map Prod.fst then
    entries.map fun entry => if entry.1 = key then (key, value) else entry
  else
    entries ++ [(key, value)]

/-- A value is set at a path: the maps on the way are made, and where one is no map nothing is. -/
def setPath (value : Tree) : List Str → Tree → Tree
  | [], _ => value
  | [key], .map entries => .map (insert key value entries)
  | key :: next :: path, .map entries =>
    .map (insert key (setPath value (next :: path) ((entries.lookup key).getD (.map []))) entries)
  -- a path collision
  | _ :: _, other => other

/-- The same for a path with dots between its parts. -/
def setDotted (value : Tree) (key : Str) (tree : Tree) : Tree :=
  setPath value (key.splitOn point) tree

/-- What `buildBody` sets for the text of a value. -/
def parsed (v : Str) : Tree :=
  match atoi v with
  | some n => .int n
  | none =>
    match parseFloat v with
    | some x => .float x
    | none =>
      match parseBool v with
      | some b => .bool b
      | none => .str v

mutual

/-- `json.Marshal`: it refuses the infinities and what is no number, and replaces in strings the
bytes that are no text. -/
def marshal : Tree → Option Json
  | .int n => some (.number n)
  | .float (.finite x) => some (.number (shortest x))
  | .float .special => none
  | .bool b => some (.bool b)
  | .str s => some (.string (runes s))
  | .map entries => (marshalEntries entries).map .object

def marshalEntries : List (Str × Tree) → Option (List (List Char × Json))
  | [] => some []
  | (key, value) :: rest =>
    (marshal value).bind fun j => (marshalEntries rest).map fun members => (runes key, j) :: members

end

/-- The containers of gabs, with what the CLI calls of them and the data they hold. -/
structure Gabs where
  Container : Type
  data : Container → Tree
  new : Container
  setP : Tree → Str → Container → Container
  bytes : Container → Json

/-- What gabs is documented to do: `New` makes an empty object, `SetP` sets a value at a path with
dots, `Bytes` converts the object to JSON, and to `{}` where that fails. -/
structure Gabs.Documented (g : Gabs) : Prop where
  new : g.data g.new = .map []
  setP : ∀ value key c, g.data (g.setP value key c) = setDotted value key (g.data c)
  bytes : ∀ c, g.bytes c = (marshal (g.data c)).getD (.object [])

/-- The body for the entries of the map in the order the loop comes to them. -/
def buildBody (g : Gabs) (bodyArgs : List (Str × Str)) : Json :=
  g.bytes (bodyArgs.foldl (fun c arg => g.setP (parsed arg.2) arg.1 c) g.new)

def buildSingleParamBody (key v : Str) : Str × Str :=
  let path := key ++ ascii "/"
  if v = [] then (path, ascii "\"\"")
  -- a number, a float or a boolean is put in the body without quotes
  else if (atoi v).isSome then (path, v)
  else if (parseFloat v).isSome then (path, v)
  else if (parseBool v).isSome then (path, v)
  -- is it not quoted yet?
  else if v.head? ≠ some quote ∧ v.getLast? ≠ some quote then (path, quote :: (v ++ [quote]))
  else (path, v)

def denotes (v : Str) : Option Json :=
  if special v then some (.string (runes v))
  else
    match number v with
    | some q => some (.number q)
    | none =>
      match parseBool v with
      | some b => some (.bool b)
      | none => if encode (runes v) = v then some (.string (runes v)) else none

def Right (args : List (Str × Str)) (body : Json) : Prop :=
  ∃ members, body = .object members ∧ ∃ order, order.Perm args ∧
    List.Forall₂ (fun arg member => encode member.1 = arg.1 ∧ denotes arg.2 = some member.2)
      order members

/-- The body for a single argument is a document with the value that `buildBody` binds. -/
def SingleRight (key v : Str) : Prop :=
  ∃ value, marshal (parsed v) = some value ∧
    readScalar (buildSingleParamBody key v).2 = some value

/-- The text of a number that is bound exactly: a 64-bit integer, or a number that is printed as
itself once rounded to a float. -/
def NumberExactly (v : Str) : Prop :=
  (atoi v).isSome ∨
    special v = false ∧ ∃ q x, number v = some q ∧ nearest64 q = some x ∧ shortest x = q

/-- The text of a value that is bound exactly: such a number, a boolean or UTF-8 text, but not an
infinity. -/
def BoundExactly (v : Str) : Prop :=
  NumberExactly v ∨
    special v = false ∧ number v = none ∧ ((parseBool v).isSome ∨ IsUtf8 v)

/-- The text of a value that is pasted as the document of the value: JSON writes it as Go does, or
it is text without a quote, a backslash or a control character that no parser of Go accepts. -/
def PastedRight (v : Str) : Prop :=
  v = [] ∨ (isJsonNumber v = true ∧ NumberExactly v) ∨ v = ascii "true" ∨ v = ascii "false" ∨
    (atoi v = none ∧ parseFloat v = none ∧ parseBool v = none ∧ IsPlainText v)

section Values

variable {v : Str}

theorem parsed_int {n : ℤ} (int : atoi v = some n) : parsed v = .int n := by
  rw [parsed, int]

theorem parsed_float {x : Float64} (int : atoi v = none) (float : parseFloat v = some x) :
    parsed v = .float x := by
  rw [parsed, int, float]

theorem parsed_bool {b : Bool} (int : atoi v = none) (float : parseFloat v = none)
    (bool : parseBool v = some b) : parsed v = .bool b := by
  rw [parsed, int, float, bool]

theorem parsed_str (int : atoi v = none) (float : parseFloat v = none)
    (bool : parseBool v = none) : parsed v = .str v := by
  rw [parsed, int, float, bool]

theorem denotes_number {q : ℚ} (plain : special v = false) (value : number v = some q) :
    denotes v = some (.number q) := by
  rw [denotes, if_neg (by simp [plain]), value]

theorem parseFloat_special (infinite : special v = true) : parseFloat v = some .special :=
  if_pos infinite

theorem parseFloat_number (plain : special v = false) :
    parseFloat v = ((number v).bind nearest64).map .finite :=
  if_neg (by simp [plain])

theorem boundExactly_iff :
    (∃ j, marshal (parsed v) = some j ∧ denotes v = some j) ↔ BoundExactly v := by
  have shape : BoundExactly v ↔ (atoi v).isSome ∨ special v = false ∧
      ((∃ q x, number v = some q ∧ nearest64 q = some x ∧ shortest x = q) ∨
        number v = none ∧ ((parseBool v).isSome ∨ IsUtf8 v)) := by
    unfold BoundExactly NumberExactly
    rw [or_assoc, ← and_or_left]
  rw [shape]
  cases int : atoi v with
  | some n =>
    refine iff_of_true ⟨.number n, ?_, ?_⟩ (.inl rfl)
    · rw [parsed_int int, marshal]
    · exact denotes_number (special_of_atoi int) (number_of_atoi int)
  | none =>
    rw [Option.isSome_none, Bool.false_eq_true, false_or]
    cases plain : special v with
    | true =>
      rw [parsed_float int (parseFloat_special plain), marshal]
      simp
    | false =>
      rw [eq_self_iff_true, true_and]
      cases value : number v with
      | some q =>
        rw [denotes_number plain value]
        have float := parseFloat_number plain
        rw [value, Option.bind_some] at float
        cases near : nearest64 q with
        | some x =>
          rw [near, Option.map_some] at float
          rw [parsed_float int float, marshal]
          constructor
          · rintro ⟨j, bound, same⟩
            have equal := Json.number.inj (Option.some.inj (bound.trans same.symm))
            exact .inl ⟨q, x, rfl, near, equal⟩
          · rintro (⟨q', x', same, near', equal⟩ | ⟨none, -⟩)
            · obtain rfl := Option.some.inj same
              obtain rfl := Option.some.inj (near.symm.trans near')
              exact ⟨.number q, by rw [equal], rfl⟩
            · cases none
        | none =>
          rw [near, Option.map_none] at float
          refine iff_of_false ?_ ?_
          swap
          · rintro (⟨q', x', same, near', -⟩ | ⟨none, -⟩)
            · obtain rfl := Option.some.inj same
              cases near.symm.trans near'
            · cases none
          rintro ⟨j, bound, same⟩
          cases same
          cases bool : parseBool v with
          | some b =>
            rw [parsed_bool int float bool, marshal] at bound
            cases bound
          | none =>
            rw [parsed_str int float bool, marshal] at bound
            cases bound
      | none =>
        have float := parseFloat_number plain
        rw [value, Option.bind_none, Option.map_none] at float
        cases bool : parseBool v with
        | some b =>
          refine iff_of_true ⟨.bool b, ?_, ?_⟩ (.inr ⟨rfl, .inl rfl⟩)
          · rw [parsed_bool int float bool, marshal]
          · rw [denotes, if_neg (by simp [plain]), value, bool]
        | none =>
          have text : denotes v =
              if encode (runes v) = v then some (.string (runes v)) else none := by
            rw [denotes, if_neg (by simp [plain]), value, bool]
          rw [parsed_str int float bool, marshal, text, isUtf8_iff]
          simp

theorem not_numberExactly (int : atoi v = none) (float : parseFloat v = none) :
    ¬ NumberExactly v := by
  rintro (some | ⟨plain, q, x, value, near, -⟩)
  · rw [int] at some
    cases some
  · rw [parseFloat_number plain, value, Option.bind_some, near] at float
    cases float

theorem quote_not_mem (plain : IsPlainText v) : quote ∉ v := by
  obtain ⟨cs, rfl, all⟩ := plain
  rw [encode, List.mem_flatMap]
  rintro ⟨c, mem, inside⟩
  obtain ⟨same, -⟩ := eq_of_mem_utf8EncodeChar (by decide) inside
  exact (all c mem).1 (Char.toNat_inj.1 same)

theorem atoi_words :
    atoi [] = none ∧ atoi (ascii "true") = none ∧ atoi (ascii "false") = none := by
  decide

variable {key : Str}

theorem pasted_int {n : ℤ} (int : atoi v = some n) : SingleRight key v ↔ PastedRight v := by
  have other (t : Str) (none : atoi t = none) : v ≠ t := by
    rintro rfl
    rw [none] at int
    cases int
  obtain ⟨empty, yes, no⟩ := atoi_words
  have body : (buildSingleParamBody key v).2 = v := by
    rw [buildSingleParamBody, if_neg (other _ empty), if_pos (by rw [int]; rfl)]
  have paste : PastedRight v ↔ isJsonNumber v = true := by
    constructor
    · rintro (same | ⟨json, -⟩ | same | same | ⟨none, -⟩)
      · exact absurd same (other _ empty)
      · exact json
      · exact absurd same (other _ yes)
      · exact absurd same (other _ no)
      · rw [int] at none
        cases none
    · exact fun json => .inr (.inl ⟨json, .inl (by rw [int]; rfl)⟩)
  rw [paste, SingleRight, body, parsed_int int, readScalar_number (number_of_atoi int), marshal]
  split_ifs with json
  · simp [json]
  · simp [json]

theorem pasted_float {q x : ℚ} (int : atoi v = none) (plain : special v = false)
    (value : number v = some q) (near : nearest64 q = some x) :
    SingleRight key v ↔ PastedRight v := by
  have float : parseFloat v = some (.finite x) := by
    rw [parseFloat_number plain, value, Option.bind_some, near]
    rfl
  have other (t : Str) (none : number t = none) : v ≠ t := by
    rintro rfl
    rw [none] at value
    cases value
  have body : (buildSingleParamBody key v).2 = v := by
    rw [buildSingleParamBody, if_neg (other _ (by decide +kernel)), if_neg (by simp [int]),
      if_pos (by rw [float]; rfl)]
  have exact : NumberExactly v ↔ shortest x = q := by
    constructor
    · rintro (some | ⟨-, q', x', value', near', same⟩)
      · rw [int] at some
        cases some
      · obtain rfl := Option.some.inj (value.symm.trans value')
        obtain rfl := Option.some.inj (near.symm.trans near')
        exact same
    · exact fun same => .inr ⟨plain, q, x, value, near, same⟩
  have paste : PastedRight v ↔ isJsonNumber v = true ∧ shortest x = q := by
    rw [← exact]
    constructor
    · rintro (none | right | none | none | ⟨-, none, -⟩)
      · exact absurd none (other _ (by decide +kernel))
      · exact right
      · exact absurd none (other _ (by decide +kernel))
      · exact absurd none (other _ (by decide +kernel))
      · rw [float] at none
        cases none
    · exact fun right => .inr (.inl right)
  rw [paste, SingleRight, body, parsed_float int float, readScalar_number value, marshal]
  constructor
  · rintro ⟨j, bound, read⟩
    obtain ⟨json, same⟩ := Option.ite_none_right_eq_some.1 read
    exact ⟨json, Json.number.inj (Option.some.inj (bound.trans same.symm))⟩
  · rintro ⟨json, same⟩
    exact ⟨.number q, by rw [same], if_pos json⟩

theorem pasted_special (int : atoi v = none) (infinite : special v = true) :
    SingleRight key v ↔ PastedRight v := by
  have float := parseFloat_special infinite
  refine iff_of_false ?_ ?_
  · rintro ⟨j, bound, -⟩
    rw [parsed_float int float, marshal] at bound
    cases bound
  · rintro (rfl | ⟨-, some | ⟨plain, -⟩⟩ | rfl | rfl | ⟨-, none, -⟩)
    · exact absurd infinite (by decide)
    · rw [int] at some
      cases some
    · rw [infinite] at plain
      cases plain
    · exact absurd infinite (by decide)
    · exact absurd infinite (by decide)
    · rw [float] at none
      cases none

theorem pasted_bool {b : Bool} (int : atoi v = none) (float : parseFloat v = none)
    (bool : parseBool v = some b) : SingleRight key v ↔ PastedRight v := by
  have full : v ≠ [] := by
    rintro rfl
    rw [show parseBool [] = none by decide] at bool
    cases bool
  have body : (buildSingleParamBody key v).2 = v := by
    rw [buildSingleParamBody, if_neg full, if_neg (by simp [int]), if_neg (by simp [float]),
      if_pos (by rw [bool]; rfl)]
  have right : SingleRight key v ↔ readScalar v = some (.bool b) := by
    unfold SingleRight
    rw [body, parsed_bool int float bool, marshal]
    simp
  have paste : PastedRight v ↔ v = ascii "true" ∨ v = ascii "false" := by
    constructor
    · rintro (rfl | ⟨-, exact⟩ | same | same | ⟨-, -, none, -⟩)
      · exact absurd rfl full
      · exact absurd exact (not_numberExactly int float)
      · exact .inl same
      · exact .inr same
      · rw [bool] at none
        cases none
    · rintro (same | same)
      · exact .inr (.inr (.inl same))
      · exact .inr (.inr (.inr (.inl same)))
  rw [right, paste]
  unfold parseBool at bool
  split_ifs at bool with yes no
  · cases bool
    simp only [List.mem_cons, List.not_mem_nil, or_false] at yes
    rcases yes with rfl | rfl | rfl | rfl | rfl | rfl
    · exact absurd int (by decide)
    · exact iff_of_false (by rintro ⟨⟩) (by decide)
    · exact iff_of_false (by rintro ⟨⟩) (by decide)
    · exact iff_of_false (by rintro ⟨⟩) (by decide)
    · exact iff_of_true rfl (.inl rfl)
    · exact iff_of_false (by rintro ⟨⟩) (by decide)
  · cases bool
    simp only [List.mem_cons, List.not_mem_nil, or_false] at no
    rcases no with rfl | rfl | rfl | rfl | rfl | rfl
    · exact absurd int (by decide)
    · exact iff_of_false (by rintro ⟨⟩) (by decide)
    · exact iff_of_false (by rintro ⟨⟩) (by decide)
    · exact iff_of_false (by rintro ⟨⟩) (by decide)
    · exact iff_of_true rfl (.inr rfl)
    · exact iff_of_false (by rintro ⟨⟩) (by decide)

theorem pasted_str (int : atoi v = none) (float : parseFloat v = none)
    (bool : parseBool v = none) : SingleRight key v ↔ PastedRight v := by
  have bound : marshal (parsed v) = some (.string (runes v)) := by
    rw [parsed_str int float bool, marshal]
  have right : SingleRight key v ↔
      readScalar (buildSingleParamBody key v).2 = some (.string (runes v)) := by
    unfold SingleRight
    rw [bound]
    simp
  have paste : PastedRight v ↔ v = [] ∨ IsPlainText v := by
    constructor
    · rintro (rfl | ⟨-, exact⟩ | rfl | rfl | ⟨-, -, -, plain⟩)
      · exact .inl rfl
      · exact absurd exact (not_numberExactly int float)
      · exact absurd bool (by decide)
      · exact absurd bool (by decide)
      · exact .inr plain
    · rintro (empty | plain)
      · exact .inl empty
      · exact .inr (.inr (.inr (.inr ⟨int, float, bool, plain⟩)))
  rw [right, paste]
  by_cases empty : v = []
  · subst empty
    exact iff_of_true ((readScalar_quoted []).2 ⟨[], rfl, by simp⟩) (.inl rfl)
  rw [or_iff_right empty]
  unfold buildSingleParamBody
  rw [if_neg empty, if_neg (by simp [int]), if_neg (by simp [float]), if_neg (by simp [bool])]
  split_ifs with unquoted
  · exact readScalar_quoted v
  · refine iff_of_false (readScalar_raw v) fun plain => unquoted ?_
    exact ⟨fun head => quote_not_mem plain (List.mem_of_head? head),
      fun last => quote_not_mem plain (List.mem_of_getLast? last)⟩

/-- The body for a single argument is right exactly on the texts that JSON writes as Go does. -/
theorem singleRight_iff (key v : Str) : SingleRight key v ↔ PastedRight v := by
  cases int : atoi v with
  | some n => exact pasted_int int
  | none =>
    cases plain : special v with
    | true => exact pasted_special int plain
    | false =>
      cases float : parseFloat v with
      | none =>
        cases bool : parseBool v with
        | some b => exact pasted_bool int float bool
        | none => exact pasted_str int float bool
      | some x =>
        rw [parseFloat_number plain] at float
        obtain ⟨x, rounded, -⟩ := Option.map_eq_some_iff.1 float
        obtain ⟨q, value, near⟩ := Option.bind_eq_some_iff.1 rounded
        exact pasted_float int plain value near

end Values

/-! ## A whole body -/

theorem not_mem_of_mem_splitOn {l piece : Str} {sep : UInt8} (mem : piece ∈ l.splitOn sep) :
    sep ∉ piece := by
  induction l generalizing piece with
  | nil =>
    rw [List.splitOn_nil, List.mem_singleton] at mem
    simp [mem]
  | cons x l ih =>
    rw [List.splitOn_cons_eq_if_modifyHead] at mem
    split at mem
    · rcases List.mem_cons.1 mem with rfl | inside
      · exact List.not_mem_nil
      · exact ih inside
    · rename_i other
      cases pieces : l.splitOn sep with
      | nil => exact absurd pieces (List.splitOn_ne_nil sep l)
      | cons first rest =>
        rw [pieces, List.modifyHead_cons] at mem
        rcases List.mem_cons.1 mem with rfl | inside
        · have clear : sep ∉ first := ih (by simp [pieces])
          rw [List.mem_cons, not_or]
          refine ⟨?_, clear⟩
          rintro rfl
          exact other (beq_self_eq_true _)
        · exact ih (by rw [pieces]; exact List.mem_cons_of_mem _ inside)

def DotFree (entries : List (Str × Tree)) : Prop := ∀ key ∈ entries.map Prod.fst, point ∉ key

variable {entries : List (Str × Tree)}

theorem keys_insert {key : Str} {value : Tree} {k : Str}
    (mem : k ∈ (insert key value entries).map Prod.fst) :
    k = key ∨ k ∈ entries.map Prod.fst := by
  unfold insert at mem
  split at mem
  · rw [List.map_map, List.mem_map] at mem
    obtain ⟨entry, inside, rfl⟩ := mem
    dsimp only [Function.comp]
    split
    · exact .inl rfl
    · exact .inr (List.mem_map_of_mem inside)
  · rw [List.map_append, List.mem_append] at mem
    rcases mem with inside | last
    · exact .inr inside
    · exact .inl (List.mem_singleton.1 last)

theorem setPath_map (value : Tree) (entries : List (Str × Tree)) (key : Str) (path : List Str) :
    ∃ inner, setPath value (key :: path) (.map entries) = .map (insert key inner entries) := by
  cases path with
  | nil => exact ⟨value, rfl⟩
  | cons next path => exact ⟨_, rfl⟩

/-- A step of `buildBody`. -/
theorem setDotted_dotFree (value : Tree) (key : Str) (free : DotFree entries) :
    ∃ entries', setDotted value key (.map entries) = .map entries' ∧ DotFree entries' := by
  obtain ⟨first, path, pieces⟩ := List.exists_cons_of_ne_nil (List.splitOn_ne_nil point key)
  obtain ⟨inner, same⟩ := setPath_map value entries first path
  refine ⟨_, by rw [setDotted, pieces, same], fun k mem => ?_⟩
  rcases keys_insert mem with rfl | inside
  · exact not_mem_of_mem_splitOn (l := key) (by simp [pieces])
  · exact free k inside

def tree (args : List (Str × Str)) (start : Tree) : Tree :=
  args.foldl (fun tree arg => setDotted (parsed arg.2) arg.1 tree) start

variable {g : Gabs}

theorem data_foldl (documented : g.Documented) (args : List (Str × Str)) (c : g.Container) :
    g.data (args.foldl (fun c arg => g.setP (parsed arg.2) arg.1 c) c) = tree args (g.data c) := by
  induction args generalizing c with
  | nil => rfl
  | cons arg args ih =>
    rw [List.foldl_cons, ih, documented.setP, tree, tree, List.foldl_cons]

theorem buildBody_eq (documented : g.Documented) (args : List (Str × Str)) :
    buildBody g args = (marshal (tree args (.map []))).getD (.object []) := by
  rw [buildBody, documented.bytes, data_foldl documented, documented.new]

theorem tree_dotFree (args : List (Str × Str)) (entries : List (Str × Tree))
    (free : DotFree entries) :
    ∃ entries', tree args (.map entries) = .map entries' ∧ DotFree entries' := by
  induction args generalizing entries with
  | nil => exact ⟨entries, rfl, free⟩
  | cons arg args ih =>
    obtain ⟨next, same, free'⟩ := setDotted_dotFree (parsed arg.2) arg.1 free
    obtain ⟨last, rest, done⟩ := ih next free'
    exact ⟨last, by rw [tree, List.foldl_cons, same, ← tree, rest], done⟩

/-- Keys without a dot are set at the first level, one after the other. -/
theorem tree_plain {args : List (Str × Str)} (entries : List (Str × Tree))
    (plain : ∀ arg ∈ args, point ∉ arg.1)
    (fresh : (entries.map Prod.fst ++ args.map Prod.fst).Nodup) :
    tree args (.map entries) = .map (entries ++ args.map fun arg => (arg.1, parsed arg.2)) := by
  induction args generalizing entries with
  | nil => simp [tree]
  | cons arg args ih =>
    have new : arg.1 ∉ entries.map Prod.fst := fun mem =>
      (List.nodup_append.1 fresh).2.2 _ mem _ (by simp) rfl
    have step : setDotted (parsed arg.2) arg.1 (.map entries) =
        .map (entries ++ [(arg.1, parsed arg.2)]) := by
      rw [setDotted, List.splitOn_eq_singleton (plain arg List.mem_cons_self), setPath, insert,
        if_neg new]
    have rest : ∀ a ∈ args, point ∉ a.1 := fun a mem => plain a (List.mem_cons_of_mem _ mem)
    rw [tree, List.foldl_cons, step, ← tree, ih _ rest (by simpa using fresh)]
    simp

theorem marshalEntries_eq_some {members : List (List Char × Json)} :
    marshalEntries entries = some members ↔
      List.Forall₂ (fun entry member => member.1 = runes entry.1 ∧
        marshal entry.2 = some member.2) entries members := by
  induction entries generalizing members with
  | nil =>
    rw [marshalEntries, List.forall₂_nil_left_iff, Option.some.injEq, eq_comm]
  | cons entry entries ih =>
    rw [marshalEntries, Option.bind_eq_some_iff, List.forall₂_cons_left_iff]
    constructor
    · rintro ⟨j, value, rest⟩
      obtain ⟨tail, more, rfl⟩ := Option.map_eq_some_iff.1 rest
      exact ⟨_, _, ⟨rfl, value⟩, ih.1 more, rfl⟩
    · rintro ⟨⟨cs, j⟩, tail, ⟨rfl, value⟩, more, rfl⟩
      exact ⟨j, value, by rw [ih.2 more]; rfl⟩

theorem exists_of_forall₂ {α β : Type} {r : α → β → Prop} {l : List α} {l' : List β}
    (all : List.Forall₂ r l l') : (∀ a ∈ l, ∃ b ∈ l', r a b) ∧ ∀ b ∈ l', ∃ a ∈ l, r a b := by
  induction all with
  | nil => simp
  | cons holds _ ih =>
    refine ⟨fun a mem => ?_, fun b mem => ?_⟩
    · rcases List.mem_cons.1 mem with rfl | inside
      · exact ⟨_, List.mem_cons_self, holds⟩
      · obtain ⟨b, found, related⟩ := ih.1 a inside
        exact ⟨b, List.mem_cons_of_mem _ found, related⟩
    · rcases List.mem_cons.1 mem with rfl | inside
      · exact ⟨_, List.mem_cons_self, holds⟩
      · obtain ⟨a, found, related⟩ := ih.2 b inside
        exact ⟨a, List.mem_cons_of_mem _ found, related⟩

/-- The keys `buildBody` writes as they are: UTF-8 text without a dot. -/
def PlainKey (key : Str) : Prop := point ∉ key ∧ IsUtf8 key

/-- What a right body says about an argument: an entry of the tree stands for it. -/
theorem entry_of_right {args : List (Str × Str)} (documented : g.Documented)
    (same : tree args (.map []) = .map entries) (right : Right args (buildBody g args)) :
    ∀ arg ∈ args, ∃ entry ∈ entries, encode (runes entry.1) = arg.1 ∧
      ∃ j, marshal entry.2 = some j ∧ denotes arg.2 = some j := by
  have body : buildBody g args = ((marshalEntries entries).map .object).getD (.object []) := by
    rw [buildBody_eq documented, same, marshal]
  obtain ⟨members, object, order, perm, typed⟩ := right
  rw [body] at object
  intro arg mem
  obtain ⟨member, inside, key, value⟩ := (exists_of_forall₂ typed).1 arg (perm.mem_iff.2 mem)
  cases written : marshalEntries entries with
  | none =>
    rw [written, Option.map_none, Option.getD_none] at object
    obtain rfl := Json.object.inj object
    exact absurd inside List.not_mem_nil
  | some members' =>
    rw [written, Option.map_some, Option.getD_some] at object
    obtain rfl := Json.object.inj object
    obtain ⟨entry, found, name, bound⟩ :=
      (exists_of_forall₂ (marshalEntries_eq_some.1 written)).2 member inside
    exact ⟨entry, found, by rw [← name, key], member.2, bound, value⟩

/-- A body is right exactly when its keys are text without dots and its values are bound
exactly, in whatever order the arguments are set. -/
theorem right_iff (documented : g.Documented) (args : List (Str × Str))
    (distinct : (args.map Prod.fst).Nodup) :
    Right args (buildBody g args) ↔ ∀ arg ∈ args, PlainKey arg.1 ∧ BoundExactly arg.2 := by
  constructor
  · intro right
    obtain ⟨entries, same, free⟩ := tree_dotFree args [] (by simp [DotFree])
    have entry := entry_of_right documented same right
    have plain : ∀ arg ∈ args, PlainKey arg.1 := by
      intro arg mem
      obtain ⟨e, found, key, -⟩ := entry arg mem
      refine ⟨fun dot => ?_, runes e.1, key.symm⟩
      rw [← key] at dot
      exact free e.1 (List.mem_map_of_mem found) (mem_of_mem_runes (by decide) dot)
    have level := tree_plain [] (fun arg mem => (plain arg mem).1) distinct
    rw [same, List.nil_append] at level
    obtain rfl := Tree.map.inj level
    intro arg mem
    obtain ⟨e, found, key, bound⟩ := entry arg mem
    obtain ⟨arg', mem', rfl⟩ := List.mem_map.1 found
    rw [(isUtf8_iff _).1 (plain arg' mem').2] at key
    obtain rfl := List.inj_on_of_nodup_map distinct mem' mem key
    exact ⟨plain _ mem, boundExactly_iff.1 bound⟩
  · intro all
    have level := tree_plain [] (fun arg mem => (all arg mem).1.1) distinct
    let value (arg : Str × Str) : Json := (marshal (parsed arg.2)).getD .null
    have values : ∀ arg ∈ args, marshal (parsed arg.2) = some (value arg) ∧
        denotes arg.2 = some (value arg) := by
      intro arg mem
      obtain ⟨j, bound, typed⟩ := boundExactly_iff.2 (all arg mem).2
      have eq : value arg = j := by simp [value, bound]
      rw [eq]
      exact ⟨bound, typed⟩
    have written : marshalEntries (args.map fun arg => (arg.1, parsed arg.2)) =
        some (args.map fun arg => (runes arg.1, value arg)) := by
      refine marshalEntries_eq_some.2 ?_
      rw [List.forall₂_map_left_iff, List.forall₂_map_right_iff, List.forall₂_same]
      exact fun arg mem => ⟨rfl, (values arg mem).1⟩
    refine ⟨args.map fun arg => (runes arg.1, value arg), ?_, args, .refl _, ?_⟩
    · rw [buildBody_eq documented, level, List.nil_append, marshal, written]
      rfl
    · rw [List.forall₂_map_right_iff, List.forall₂_same]
      exact fun arg mem => ⟨(isUtf8_iff _).1 (all arg mem).1.2, (values arg mem).2⟩

/-- The bodies of the CLI mean what was typed under these conditions on keys and values, and
otherwise do not. -/
theorem bodies_mean_iff (g : Gabs) (documented : g.Documented) (args : List (Str × Str))
    (key v : Str) :
    ((args.map Prod.fst).Nodup →
      (Right args (buildBody g args) ↔ ∀ arg ∈ args, PlainKey arg.1 ∧ BoundExactly arg.2)) ∧
      (SingleRight key v ↔ PastedRight v) :=
  ⟨right_iff documented args, singleRight_iff key v⟩

/-- The containers that are the trees themselves. -/
def treeGabs : Gabs where
  Container := Tree
  data := id
  new := .map []
  setP := setDotted
  bytes c := (marshal c).getD (.object [])

theorem documented_treeGabs : treeGabs.Documented := ⟨rfl, fun _ _ _ => rfl, fun _ => rfl⟩

/-- `set up=true mtu=1500 rate=0.5 peer=veth1`. -/
def typed : List (Str × Str) :=
  [(ascii "up", ascii "true"), (ascii "mtu", ascii "1500"), (ascii "rate", ascii "0.5"),
    (ascii "peer", ascii "veth1")]

theorem bodies_mean_typed :
    Right typed (buildBody treeGabs typed) ∧ SingleRight (ascii "rate") (ascii "0.5") := by
  have half : NumberExactly (ascii "0.5") :=
    .inr ⟨by decide, 1 / 2, 1 / 2, by decide +kernel, by decide +kernel, by decide +kernel⟩
  have key (cs : List Char) (dot : point ∉ encode cs) : PlainKey (encode cs) := ⟨dot, cs, rfl⟩
  refine ⟨((bodies_mean_iff treeGabs documented_treeGabs typed [] []).1 (by decide)).2 ?_,
    (bodies_mean_iff treeGabs documented_treeGabs [] _ _).2.2 (.inr (.inl ⟨by decide, half⟩))⟩
  simp only [typed, List.forall_mem_cons, List.not_mem_nil, false_imp_iff, implies_true, and_true]
  refine ⟨⟨key ['u', 'p'] (by decide), .inr ⟨by decide, by decide +kernel, .inl (by decide)⟩⟩,
    ⟨key ['m', 't', 'u'] (by decide), .inl (.inl (by decide))⟩,
    ⟨key ['r', 'a', 't', 'e'] (by decide), .inl half⟩,
    ⟨key ['p', 'e', 'e', 'r'] (by decide), .inr ⟨by decide, by decide +kernel, .inr ?_⟩⟩⟩
  exact ⟨['v', 'e', 't', 'h', '1'], by decide⟩

/-- `mtu=nan` sends an empty object, `ip.mask=24` nests its key, and `set mtu=007` sends a text
that is no document. -/
theorem not_bodies_mean :
    treeGabs.Documented ∧
      ¬ Right [(ascii "mtu", ascii "nan")] (buildBody treeGabs [(ascii "mtu", ascii "nan")]) ∧
      ¬ Right [(ascii "ip.mask", ascii "24")] (buildBody treeGabs [(ascii "ip.mask", ascii "24")]) ∧
      ¬ SingleRight (ascii "mtu") (ascii "007") := by
  refine ⟨documented_treeGabs, ?_, ?_, ?_⟩
  · rw [right_iff documented_treeGabs _ (by decide)]
    intro all
    rcases (all _ List.mem_cons_self).2 with (int | ⟨plain, -⟩) | ⟨plain, -⟩
    · exact absurd int (by decide)
    · exact absurd plain (by decide)
    · exact absurd plain (by decide)
  · rw [right_iff documented_treeGabs _ (by decide)]
    intro all
    exact absurd (all _ List.mem_cons_self).1.1 (by decide)
  · rw [singleRight_iff]
    rintro (empty | ⟨json, -⟩ | yes | no | ⟨int, -⟩)
    · exact absurd empty (by decide)
    · exact absurd json (by decide)
    · exact absurd yes (by decide)
    · exact absurd no (by decide)
    · exact absurd int (by decide)

end Polycube.Polycubectl
