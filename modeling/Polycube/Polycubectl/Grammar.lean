import Polycube.Polycubectl.CliArgs

/-!
# The grammar of the command line

`kindOf` sorts an argument by its text alone, `Fits` says how the kinds may follow each other on a
command line and `denoted` reads the parsed arguments off the list.  `parseCLIArgs_ok_iff` is the
result: on arguments that are not empty the parser raises no panic, and it succeeds exactly on the
lists that fit, with what they denote.  `fits_concat` says what one more argument needs, and the
loop is followed argument by argument through `processArg_decides`.
-/

namespace Polycube.Polycubectl

open Lib

inductive Kind
  | command
  | showType
  | help
  | hide
  | body
  | question
  | path
  | unknown
  deriving DecidableEq

/-- The two sides of a text with exactly one `=`. -/
def assignment (arg : Str) : Option (Str × Str) :=
  match arg.splitOn equals with
  | [key, value] => some (key, value)
  | _ => none

/-- The keys of `-hide=key0,key1,key`. -/
def hideOf (arg : Str) : Option (Finset Str) :=
  match assignment arg with
  | some (name, keys) =>
    if name = ascii "-hide" ∧ keys ≠ [] then some (keys.splitOn ','.toUInt8).toFinset else none
  | none => none

def kindOf (arg : Str) : Kind :=
  if arg ∈ [addCommand, setCommand, showCommand, delCommand] then .command
  else if arg.head? = some dash then
    if arg ∈ [showNormal, showBrief, showVerbose, showJson, showYaml] then .showType
    else if arg ∈ [ascii "-h", ascii "--help"] then .help
    else if (hideOf arg).isSome then .hide
    else .unknown
  else if equals ∈ arg then
    if (assignment arg).isSome then .body else .unknown
  else if arg = ascii "?" then .question
  else .path

def bodyOf (arg : Str) : Option (Str × Str) := if kindOf arg = .body then assignment arg else none

theorem assignment_eq_some {arg : Str} {entry : Str × Str} :
    assignment arg = some entry ↔ arg.splitOn equals = [entry.1, entry.2] := by
  unfold assignment
  split
  · rename_i key value pieces
    simp [pieces, Prod.ext_iff]
  · rename_i other
    simpa using other entry.1 entry.2

/-- The arguments follow each other in the order of path arguments, command and body arguments,
with flags after a `show`. -/
structure Ordered (args : List Str) : Prop where
  known : ∀ a ∈ args, kindOf a ≠ .unknown
  commandOnce : args.countP (kindOf · = .command) ≤ 1
  bodyLast : args.Pairwise fun a b => kindOf a = .body → kindOf b ≠ .command ∧ kindOf b ≠ .path
  distinctKeys : ((args.filterMap bodyOf).map Prod.fst).Nodup
  afterShow : ∀ before a after, args = before ++ a :: after →
    kindOf a = .showType ∨ kindOf a = .hide → showCommand ∈ before
  showTypeOnce : args.countP (kindOf · = .showType) ≤ 1

/-- The arguments seen so far out of `total` go together on a command line. -/
structure Fits (total : ℕ) (args : List Str) : Prop extends Ordered args where
  plainHide : showJson ∈ args ∨ showYaml ∈ args → ∀ a ∈ args, kindOf a ≠ .hide
  helpAlone : ∀ a ∈ args, kindOf a = .help → total = 1
  questionLast : ∀ before a after, args = before ++ a :: after →
    kindOf a = .question → before.length + 1 = total

def denoted (args : List Str) : CLIArgs where
  command := (args.find? (kindOf · = .command)).getD []
  pathArgs := args.filter (kindOf · = .path)
  bodyArgs := args.filterMap bodyOf
  showType := showTypeStrToShowType ((args.find? (kindOf · = .showType)).getD [])
  isHelp := args.length = 0 ∨ ∃ a ∈ args, kindOf a = .help ∨ kindOf a = .question
  hideList := ((args.filter (kindOf · = .hide)).getLast?).bind hideOf

/-! ## One more argument -/

structure Allowed (total : ℕ) (before : List Str) (a : Str) : Prop where
  known : kindOf a ≠ .unknown
  commandOnce : kindOf a = .command → before.countP (kindOf · = .command) = 0
  bodyLast : kindOf a = .command ∨ kindOf a = .path → ∀ b ∈ before, kindOf b ≠ .body
  distinctKeys : ∀ entry, bodyOf a = some entry →
    entry.1 ∉ (before.filterMap bodyOf).map Prod.fst
  afterShow : kindOf a = .showType ∨ kindOf a = .hide → showCommand ∈ before
  showTypeOnce : kindOf a = .showType → before.countP (kindOf · = .showType) = 0
  plainType : a = showJson ∨ a = showYaml → ∀ b ∈ before, kindOf b ≠ .hide
  plainHide : kindOf a = .hide → showJson ∉ before ∧ showYaml ∉ before
  helpAlone : kindOf a = .help → total = 1
  questionLast : kindOf a = .question → before.length + 1 = total

variable {l : List Str} {x : Str}

theorem forall_split_concat {P : List Str → Str → Prop} :
    (∀ before a after, l ++ [x] = before ++ a :: after → P before a) ↔
      (∀ before a after, l = before ++ a :: after → P before a) ∧ P l x := by
  constructor
  · intro all
    refine ⟨?_, all l x [] rfl⟩
    rintro before a after rfl
    exact all before a (after ++ [x]) (by simp)
  · rintro ⟨inside, last⟩ before a after split
    rcases List.eq_nil_or_concat after with rfl | ⟨after, y, rfl⟩
    · obtain ⟨rfl, single⟩ := List.append_inj' split rfl
      cases single
      exact last
    · rw [List.concat_eq_append, ← List.cons_append, ← List.append_assoc] at split
      exact inside before a after (List.append_inj_left' split rfl)

variable {p : Str → Bool}

theorem countP_concat_le_one :
    (l ++ [x]).countP p ≤ 1 ↔ l.countP p ≤ 1 ∧ (p x = true → l.countP p = 0) := by
  rw [List.countP_append, List.countP_singleton]
  split
  · rename_i holds
    simp only [holds, true_imp_iff]
    omega
  · rename_i fails
    simp [fails]

theorem nodup_keys_concat :
    (((l ++ [x]).filterMap bodyOf).map Prod.fst).Nodup ↔ ((l.filterMap bodyOf).map Prod.fst).Nodup ∧
        ∀ entry, bodyOf x = some entry → entry.1 ∉ (l.filterMap bodyOf).map Prod.fst := by
  rw [List.filterMap_append, List.map_append, List.nodup_append]
  cases body : bodyOf x with
  | none => simp [body]
  | some entry =>
    simp only [List.filterMap_cons, body, List.filterMap_nil, List.map_cons, List.map_nil,
      List.nodup_cons, List.not_mem_nil, not_false_eq_true, List.nodup_nil, and_self, true_and,
      List.mem_singleton, Option.some.injEq, forall_eq']
    refine and_congr_right fun _ => ⟨fun apart mem => apart _ mem _ rfl rfl, ?_⟩
    rintro fresh key mem _ rfl rfl
    exact fresh mem

theorem kindOf_showJson : kindOf showJson = .showType := by decide +kernel

theorem kindOf_showYaml : kindOf showYaml = .showType := by decide +kernel

theorem plain_concat :
    (showJson ∈ l ++ [x] ∨ showYaml ∈ l ++ [x] → ∀ a ∈ l ++ [x], kindOf a ≠ .hide) ↔
      (showJson ∈ l ∨ showYaml ∈ l → ∀ a ∈ l, kindOf a ≠ .hide) ∧
        (x = showJson ∨ x = showYaml → ∀ b ∈ l, kindOf b ≠ .hide) ∧
        (kindOf x = .hide → showJson ∉ l ∧ showYaml ∉ l) := by
  have json : x = showJson → kindOf x ≠ .hide := by
    rintro rfl
    simp [kindOf_showJson]
  have yaml : x = showYaml → kindOf x ≠ .hide := by
    rintro rfl
    simp [kindOf_showYaml]
  simp only [List.mem_append, List.mem_singleton]
  grind

theorem pairwise_concat {P : Str → Str → Prop} :
    (l ++ [x]).Pairwise P ↔ l.Pairwise P ∧ ∀ a ∈ l, P a x := by
  simp [List.pairwise_append]

theorem fits_concat {total : ℕ} : Fits total (l ++ [x]) ↔ Fits total l ∧ Allowed total l x := by
  constructor
  · intro fits
    obtain ⟨plain, plainType, plainHide⟩ := plain_concat.1 fits.plainHide
    obtain ⟨commands, command⟩ := countP_concat_le_one.1 fits.commandOnce
    obtain ⟨types, type⟩ := countP_concat_le_one.1 fits.showTypeOnce
    obtain ⟨keys, key⟩ := nodup_keys_concat.1 fits.distinctKeys
    obtain ⟨shows, afterShow⟩ := forall_split_concat.1 fits.afterShow
    obtain ⟨questions, question⟩ := forall_split_concat.1 fits.questionLast
    obtain ⟨bodies, body⟩ := pairwise_concat.1 fits.bodyLast
    have known := List.forall_mem_append.1 fits.known
    have alone := List.forall_mem_append.1 fits.helpAlone
    have ordered : Ordered l := ⟨known.1, commands, bodies, keys, shows, types⟩
    refine ⟨⟨ordered, plain, alone.1, questions⟩, ?_⟩
    refine ⟨known.2 x (by simp), by simpa using command, ?_, key, afterShow, by simpa using type,
      plainType, plainHide, alone.2 x (by simp), question⟩
    rintro (kind | kind) b mem isBody
    · exact (body b mem isBody).1 kind
    · exact (body b mem isBody).2 kind
  · rintro ⟨fits, allowed⟩
    refine ⟨⟨?_, ?_, ?_, ?_, ?_, ?_⟩, ?_, ?_, ?_⟩
    · exact List.forall_mem_append.2 ⟨fits.known, by simpa using allowed.known⟩
    · exact countP_concat_le_one.2 ⟨fits.commandOnce, by simpa using allowed.commandOnce⟩
    · refine pairwise_concat.2 ⟨fits.bodyLast, fun b mem isBody => ⟨fun kind => ?_, fun kind => ?_⟩⟩
      · exact allowed.bodyLast (.inl kind) b mem isBody
      · exact allowed.bodyLast (.inr kind) b mem isBody
    · exact nodup_keys_concat.2 ⟨fits.distinctKeys, allowed.distinctKeys⟩
    · exact forall_split_concat.2 ⟨fits.afterShow, allowed.afterShow⟩
    · exact countP_concat_le_one.2 ⟨fits.showTypeOnce, by simpa using allowed.showTypeOnce⟩
    · exact plain_concat.2 ⟨fits.plainHide, allowed.plainType, allowed.plainHide⟩
    · exact List.forall_mem_append.2 ⟨fits.helpAlone, by simpa using allowed.helpAlone⟩
    · exact forall_split_concat.2 ⟨fits.questionLast, allowed.questionLast⟩

theorem Fits.left {total : ℕ} {r : List Str} (fits : Fits total (l ++ r)) : Fits total l := by
  induction r using List.reverseRecOn with
  | nil => simpa using fits
  | append_singleton r x ih =>
    rw [← List.append_assoc, fits_concat] at fits
    exact ih fits.1

theorem fits_nil (total : ℕ) : Fits total [] := by
  refine ⟨?_, ?_, ?_, ?_⟩
  · constructor <;> simp
  all_goals simp

/-- The variables of the loop once the arguments `before` are processed. -/
def stateAfter (args before : List Str) : Parsing where
  command := (before.find? (kindOf · = .command)).getD []
  pathArgs := before.filter (kindOf · = .path)
  bodyArgs := before.filterMap bodyOf
  isHelp := args.length = 0 ∨ ∃ a ∈ before, kindOf a = .help ∨ kindOf a = .question
  showTypeStr := (before.find? (kindOf · = .showType)).getD []
  hideList := ((before.filter (kindOf · = .hide)).getLast?).bind hideOf
  processingBody := before.any (kindOf · = .body)

/-- The result is `x` when `p` holds, and an error otherwise; it is never a panic. -/
def Decides {α : Type} (r : Except Failure α) (p : Prop) (x : α) : Prop :=
  (p → r = .ok x) ∧ (¬ p → ∃ text, r = .error (.error text))

theorem Decides.error {α : Type} {p : Prop} {x : α} {text : Str} (fails : ¬ p) :
    Decides (.error (.error text)) p x :=
  ⟨fun holds => absurd holds fails, fun _ => ⟨text, rfl⟩⟩

theorem Decides.ok {α : Type} {p : Prop} {x y : α} (holds : p) (same : y = x) :
    Decides (.ok y) p x :=
  ⟨fun _ => congrArg Except.ok same, fun fails => absurd holds fails⟩

/-! ### What the variables tell -/

theorem find_getD_eq_nil_iff (nil : p [] = false) : (l.find? p).getD [] = [] ↔ l.countP p = 0 := by
  rw [List.countP_eq_zero]
  constructor
  · intro empty a mem holds
    obtain ⟨b, found⟩ := Option.isSome_iff_exists.1 (List.find?_isSome.2 ⟨a, mem, holds⟩)
    rw [found, Option.getD_some] at empty
    subst empty
    simp [List.find?_some found] at nil
  · intro none
    rw [List.find?_eq_none.2 none, Option.getD_none]

theorem eq_of_countP_le_one (once : l.countP p ≤ 1) {a b : Str}
    (ha : a ∈ l) (pa : p a = true) (hb : b ∈ l) (pb : p b = true) : a = b := by
  rw [List.countP_eq_length_filter] at once
  have fa := List.mem_filter.2 ⟨ha, pa⟩
  have fb := List.mem_filter.2 ⟨hb, pb⟩
  cases rest : l.filter p with
  | nil => simp [rest] at fa
  | cons c cs =>
    rw [rest, List.length_cons] at once
    obtain rfl : cs = [] := List.length_eq_zero_iff.1 (by omega)
    simp only [rest, List.mem_singleton] at fa fb
    rw [fa, fb]

theorem find_getD_eq_iff (once : l.countP p ≤ 1)
    (px : p x = true) (full : x ≠ []) : (l.find? p).getD [] = x ↔ x ∈ l := by
  constructor
  · intro found
    cases first : l.find? p with
    | none => exact absurd (by rw [first] at found; exact found.symm) full
    | some y =>
      rw [first, Option.getD_some] at found
      exact found ▸ List.mem_of_find?_eq_some first
  · intro mem
    obtain ⟨y, found⟩ := Option.isSome_iff_exists.1 (List.find?_isSome.2 ⟨x, mem, px⟩)
    rw [found, Option.getD_some]
    exact eq_of_countP_le_one once (List.mem_of_find?_eq_some found) (List.find?_some found) mem px

theorem kindOf_nil : kindOf [] = .path := by decide

section Variables

variable {args before : List Str} {a : Str}

theorem command_eq_nil_iff :
    (stateAfter args before).command = [] ↔ before.countP (kindOf · = .command) = 0 :=
  find_getD_eq_nil_iff (by decide)

theorem showTypeStr_eq_nil_iff :
    (stateAfter args before).showTypeStr = [] ↔ before.countP (kindOf · = .showType) = 0 :=
  find_getD_eq_nil_iff (by decide)

theorem command_eq_show_iff {total : ℕ} (fits : Fits total before) :
    (stateAfter args before).command = showCommand ↔ showCommand ∈ before :=
  find_getD_eq_iff fits.commandOnce (by decide +kernel) (by decide)

theorem showTypeStr_eq_iff {total : ℕ} (fits : Fits total before) {x : Str}
    (kind : kindOf x = .showType) : (stateAfter args before).showTypeStr = x ↔ x ∈ before := by
  refine find_getD_eq_iff fits.showTypeOnce (by simpa using kind) ?_
  rintro rfl
  simp [kindOf_nil] at kind

theorem processingBody_iff :
    (stateAfter args before).processingBody = true ↔ ∃ b ∈ before, kindOf b = .body := by
  simp [stateAfter]

theorem hideOf_isSome (kind : kindOf a = .hide) : (hideOf a).isSome = true := by
  unfold kindOf at kind
  split at kind
  · cases kind
  split at kind
  · split at kind
    · cases kind
    split at kind
    · cases kind
    split at kind
    · assumption
    · cases kind
  split at kind
  · split at kind <;> cases kind
  split at kind <;> cases kind

theorem hideList_isSome_iff :
    (stateAfter args before).hideList.isSome = true ↔ ∃ b ∈ before, kindOf b = .hide := by
  constructor
  · intro isSome
    obtain ⟨keys, found⟩ := Option.isSome_iff_exists.1 isSome
    obtain ⟨b, last, -⟩ := Option.bind_eq_some_iff.1 found
    have mem := List.mem_of_getLast? last
    simp only [List.mem_filter, decide_eq_true_eq] at mem
    exact ⟨b, mem⟩
  · rintro ⟨b, mem, kind⟩
    have inside : b ∈ before.filter (kindOf · = .hide) := by simp [mem, kind]
    obtain ⟨c, last⟩ := Option.isSome_iff_exists.1
      (List.getLast?_isSome.2 (List.ne_nil_of_mem inside))
    have hides := List.mem_of_getLast? last
    simp only [List.mem_filter, decide_eq_true_eq] at hides
    simpa [stateAfter, last] using hideOf_isSome hides.2

theorem lookup_isSome_iff {l : List (Str × Str)} {key : Str} :
    (l.lookup key).isSome = true ↔ key ∈ l.map Prod.fst := by
  induction l with
  | nil => simp
  | cons entry rest ih =>
    rw [List.lookup_cons]
    by_cases same : key = entry.1
    · simp [same]
    · simp [same, ih, beq_eq_false_iff_ne.2 same]

variable {rest : List Str}

theorem misplaced_error (split : args = before ++ rest) (some : before ≠ []) :
    ∃ text, misplaced args before.length a = .error (.error text) := by
  obtain ⟨front, b, rfl⟩ := (List.eq_nil_or_concat before).resolve_left some
  rw [List.concat_eq_append] at split
  have found : args[front.length]? = Option.some b := by simp [split]
  refine ⟨a ++ ascii " is not valid after " ++ b, ?_⟩
  simp only [misplaced, previous, List.concat_eq_append, List.length_append,
    List.length_cons, List.length_nil, zero_add, found, Option.elim_some]
  rfl

/-! ### The branches -/

/-- Neither a command nor another path argument may follow a body argument. -/
theorem decides_misplaced (split : args = before ++ rest) {p : Prop}
    {x : Parsing} (fails : ¬ p) (body : (stateAfter args before).processingBody = true) :
    Decides (misplaced args before.length a) p x := by
  have some : before ≠ [] := by
    rintro rfl
    simp [stateAfter] at body
  obtain ⟨text, eq⟩ := misplaced_error (a := a) split some
  rw [eq]
  exact .error fails

theorem bodyOf_eq_none (kind : kindOf a ≠ .body) : bodyOf a = none := if_neg kind

theorem concat_command (kind : kindOf a = .command)
    (first : before.countP (kindOf · = .command) = 0) :
    { stateAfter args before with command := a } = stateAfter args (before ++ [a]) := by
  have none : before.find? (kindOf · = .command) = none :=
    List.find?_eq_none.2 (List.countP_eq_zero.1 first)
  ext1 <;> simp [stateAfter, kind, none, bodyOf_eq_none, List.find?_append]

theorem concat_showType (kind : kindOf a = .showType)
    (first : before.countP (kindOf · = .showType) = 0) :
    { stateAfter args before with showTypeStr := a } = stateAfter args (before ++ [a]) := by
  have none : before.find? (kindOf · = .showType) = none :=
    List.find?_eq_none.2 (List.countP_eq_zero.1 first)
  ext1 <;> simp [stateAfter, kind, none, bodyOf_eq_none, List.find?_append]

theorem concat_help (kind : kindOf a = .help ∨ kindOf a = .question) :
    { stateAfter args before with isHelp := true } = stateAfter args (before ++ [a]) := by
  rcases kind with kind | kind <;>
    ext1 <;> simp [stateAfter, kind, bodyOf_eq_none, List.find?_append]

theorem concat_hide {keys : Finset Str} (kind : kindOf a = .hide) (hides : hideOf a = some keys) :
    { stateAfter args before with hideList := some keys } = stateAfter args (before ++ [a]) := by
  ext1 <;> simp [stateAfter, kind, hides, bodyOf_eq_none, List.find?_append]

theorem concat_body {entry : Str × Str} (kind : kindOf a = .body) (body : bodyOf a = some entry) :
    { stateAfter args before with
      processingBody := true, bodyArgs := (stateAfter args before).bodyArgs ++ [entry] } =
        stateAfter args (before ++ [a]) := by
  ext1 <;> simp [stateAfter, kind, body, List.find?_append]

theorem concat_path (kind : kindOf a = .path) :
    { stateAfter args before with pathArgs := (stateAfter args before).pathArgs ++ [a] } =
      stateAfter args (before ++ [a]) := by
  ext1 <;> simp [stateAfter, kind, bodyOf_eq_none, List.find?_append]

theorem isShowType_iff : isShowType a = true ↔
    a ∈ [showNormal, showBrief, showVerbose, showJson, showYaml] := by
  simp [isShowType, or_assoc]

theorem decides_showType {total : ℕ} (fits : Fits total before) (kind : kindOf a = .showType)
    (type : isShowType a = true) :
    Decides (processFlag args a (stateAfter args before)) (Allowed total before a)
      (stateAfter args (before ++ [a])) := by
  unfold processFlag
  rw [if_pos type]
  split
  · rename_i second
    exact .error fun allowed => second (showTypeStr_eq_nil_iff.2 (allowed.showTypeOnce kind))
  rename_i first
  split
  · rename_i other
    exact .error fun allowed =>
      other ((command_eq_show_iff fits).2 (allowed.afterShow (.inl kind)))
  rename_i shown
  split
  · rename_i both
    obtain ⟨b, mem, hides⟩ := hideList_isSome_iff.1 both.1
    exact .error fun allowed => allowed.plainType both.2 b mem hides
  rename_i plain
  have once := showTypeStr_eq_nil_iff.1 (not_not.1 first)
  refine .ok ?_ (concat_showType kind once)
  constructor <;> try (simp [kind, bodyOf_eq_none]; done)
  · exact fun _ => (command_eq_show_iff fits).1 (not_not.1 shown)
  · exact fun _ => once
  · intro heavy b mem hides
    exact plain ⟨hideList_isSome_iff.2 ⟨b, mem, hides⟩, heavy⟩

theorem plainType_of_kind (kind : kindOf a ≠ .showType) :
    a = showJson ∨ a = showYaml → ∀ b ∈ before, kindOf b ≠ .hide := by
  rintro (rfl | rfl)
  · exact absurd kindOf_showJson kind
  · exact absurd kindOf_showYaml kind

theorem decides_help {total : ℕ} (size : args.length = total) (kind : kindOf a = .help)
    (type : ¬ isShowType a = true) (help : a = ascii "-h" ∨ a = ascii "--help") :
    Decides (processFlag args a (stateAfter args before)) (Allowed total before a)
      (stateAfter args (before ++ [a])) := by
  unfold processFlag
  rw [if_neg type, if_pos help]
  split
  · rename_i several
    exact .error fun allowed => several (size.trans (allowed.helpAlone kind))
  · rename_i alone
    refine .ok ?_ (concat_help (.inl kind))
    constructor <;> try (simp [kind, bodyOf_eq_none]; done)
    · exact plainType_of_kind (by simp [kind])
    · exact fun _ => size ▸ not_not.1 alone

theorem hideOf_eq_some {keys : Finset Str} (hides : hideOf a = some keys) :
    argIsHide a = true ∧ parseHideArg a = .ok keys := by
  unfold hideOf at hides
  split at hides
  · rename_i name list parts
    rw [assignment_eq_some] at parts
    split at hides
    · rename_i named
      cases hides
      simp [argIsHide, parseHideArg, parts, named.1, named.2]
    · cases hides
  · cases hides

/-- A `-hide` that lists no keys is refused for its text. -/
theorem parseHideArg_eq_error (hide : argIsHide a = true) (none : hideOf a = none) :
    parseHideArg a = .error hideUsage := by
  unfold parseHideArg
  dsimp only
  split
  · rfl
  rename_i two
  obtain ⟨name, keys, parts⟩ := List.length_eq_two.1 (not_not.1 two)
  have named : name = ascii "-hide" := by simpa [argIsHide, parts] using hide
  rw [parts]
  split
  · rfl
  · rename_i full
    have found : assignment a = some (name, keys) := assignment_eq_some.2 parts
    have some : keys ≠ [] := by simpa using full
    simp [hideOf, found, named, some] at none

theorem decides_hide {total : ℕ} (fits : Fits total before)
    (kind : kindOf a = if (hideOf a).isSome then .hide else .unknown)
    (type : ¬ isShowType a = true) (help : ¬ (a = ascii "-h" ∨ a = ascii "--help")) :
    Decides (processFlag args a (stateAfter args before)) (Allowed total before a)
      (stateAfter args (before ++ [a])) := by
  unfold processFlag
  rw [if_neg type, if_neg help]
  cases hides : hideOf a with
  | none =>
    rw [hides] at kind
    have refused : ¬ Allowed total before a := fun allowed => allowed.known kind
    split
    · rename_i hide
      split
      · exact .error refused
      split
      · exact .error refused
      · rw [parseHideArg_eq_error hide hides]
        exact .error refused
    · exact .error refused
  | some keys =>
    rw [hides] at kind
    replace kind : kindOf a = .hide := kind
    obtain ⟨hide, parsed⟩ := hideOf_eq_some hides
    rw [if_pos hide]
    split
    · rename_i other
      exact .error fun allowed =>
        other ((command_eq_show_iff fits).2 (allowed.afterShow (.inr kind)))
    rename_i shown
    simp only [showTypeStr_eq_iff fits kindOf_showJson, showTypeStr_eq_iff fits kindOf_showYaml]
    split
    · rename_i heavy
      refine .error fun allowed => ?_
      obtain ⟨json, yaml⟩ := allowed.plainHide kind
      exact heavy.elim json yaml
    rename_i plain
    rw [parsed]
    refine .ok ?_ (concat_hide kind hides)
    constructor <;> try (simp [kind, bodyOf_eq_none]; done)
    · exact fun _ => (command_eq_show_iff fits).1 (not_not.1 shown)
    · exact plainType_of_kind (by simp [kind])
    · exact fun _ => not_or.1 plain

theorem decides_flag {total : ℕ} (fits : Fits total before) (size : args.length = total)
    (word : a ∉ [addCommand, setCommand, showCommand, delCommand]) (flag : a.head? = some dash) :
    Decides (processFlag args a (stateAfter args before)) (Allowed total before a)
      (stateAfter args (before ++ [a])) := by
  have kind : kindOf a = if a ∈ [showNormal, showBrief, showVerbose, showJson, showYaml] then
      .showType else if a ∈ [ascii "-h", ascii "--help"] then .help
      else if (hideOf a).isSome then .hide else .unknown := by
    rw [kindOf, if_neg word, if_pos flag]
  by_cases type : isShowType a = true
  · rw [if_pos (isShowType_iff.1 type)] at kind
    exact decides_showType fits kind type
  rw [if_neg (mt isShowType_iff.2 type)] at kind
  by_cases help : a = ascii "-h" ∨ a = ascii "--help"
  · rw [if_pos (by simpa using help)] at kind
    exact decides_help size kind type help
  · rw [if_neg (by simpa using help)] at kind
    exact decides_hide fits kind type help

theorem decides_command {total : ℕ} (split : args = before ++ rest)
    (kind : kindOf a = .command) (p : argIsCommand a = true) :
    Decides (processArg args before.length a (stateAfter args before)) (Allowed total before a)
      (stateAfter args (before ++ [a])) := by
  unfold processArg
  rw [if_pos p]
  split_ifs with second body
  · exact .error fun allowed => second (command_eq_nil_iff.2 (allowed.commandOnce kind))
  · refine decides_misplaced split (fun allowed => ?_) body
    obtain ⟨b, mem, isBody⟩ := processingBody_iff.1 body
    exact allowed.bodyLast (.inl kind) b mem isBody
  · have once := command_eq_nil_iff.1 (not_not.1 second)
    refine .ok ?_ (concat_command kind once)
    constructor <;> try (simp [kind, bodyOf_eq_none]; done)
    · exact fun _ => once
    · exact fun _ b mem isBody => body (processingBody_iff.2 ⟨b, mem, isBody⟩)
    · exact plainType_of_kind (by simp [kind])

theorem decides_body {total : ℕ}
    (kind : kindOf a = if (assignment a).isSome then .body else .unknown) :
    Decides (processBodyArg a (stateAfter args before)) (Allowed total before a)
      (stateAfter args (before ++ [a])) := by
  cases parts : assignment a with
  | none =>
    rw [parts] at kind
    unfold processBodyArg
    split
    · rename_i key value pieces
      simp [assignment, pieces] at parts
    · exact .error fun allowed => allowed.known kind
  | some entry =>
    rw [parts] at kind
    replace kind : kindOf a = .body := kind
    have body : bodyOf a = some entry := by rw [bodyOf, if_pos kind, parts]
    unfold processBodyArg
    rw [assignment_eq_some.1 parts]
    dsimp only
    split
    · rename_i again
      exact .error fun allowed => allowed.distinctKeys entry body (lookup_isSome_iff.1 again)
    · rename_i fresh
      rw [lookup_isSome_iff] at fresh
      refine .ok ?_ (concat_body kind body)
      constructor <;> try (simp [kind]; done)
      · intro other found
        cases body.symm.trans found
        exact fresh
      · exact plainType_of_kind (by simp [kind])

theorem decides_question {total : ℕ} (split : args = before ++ a :: rest)
    (size : args.length = total) (kind : kindOf a = .question) :
    Decides (if args.length - 1 ≠ before.length then
        .error (.error (ascii "'?' must be the last argument"))
      else .ok { stateAfter args before with isHelp := true })
      (Allowed total before a) (stateAfter args (before ++ [a])) := by
  have long : before.length + 1 ≤ args.length := by
    rw [split]
    simp
  split_ifs with early
  · refine .error fun allowed => early ?_
    have last := allowed.questionLast kind
    omega
  · refine .ok ?_ (concat_help (.inr kind))
    constructor <;> try (simp [kind, bodyOf_eq_none]; done)
    · exact plainType_of_kind (by simp [kind])
    · intro _
      omega

theorem decides_path {total : ℕ} (split : args = before ++ rest) (kind : kindOf a = .path) :
    Decides (if (stateAfter args before).processingBody then misplaced args before.length a
      else .ok { stateAfter args before with
        pathArgs := (stateAfter args before).pathArgs ++ [a] })
      (Allowed total before a) (stateAfter args (before ++ [a])) := by
  split_ifs with body
  · refine decides_misplaced split (fun allowed => ?_) body
    obtain ⟨b, mem, isBody⟩ := processingBody_iff.1 body
    exact allowed.bodyLast (.inr kind) b mem isBody
  · refine .ok ?_ (concat_path kind)
    constructor <;> try (simp [kind, bodyOf_eq_none]; done)
    · exact fun _ b mem isBody => body (processingBody_iff.2 ⟨b, mem, isBody⟩)
    · exact plainType_of_kind (by simp [kind])

theorem argIsCommand_iff :
    argIsCommand a = true ↔ a ∈ [addCommand, setCommand, showCommand, delCommand] := by
  simp [argIsCommand, or_assoc]

/-- One turn of the loop on an argument that is not empty: it goes on exactly when the arguments
before it allow it. -/
theorem processArg_decides {total : ℕ} (fits : Fits total before)
    (split : args = before ++ a :: rest) (size : args.length = total) (full : a ≠ []) :
    Decides (processArg args before.length a (stateAfter args before)) (Allowed total before a)
      (stateAfter args (before ++ [a])) := by
  by_cases word : argIsCommand a = true
  · refine decides_command split ?_ word
    rw [kindOf, if_pos (argIsCommand_iff.1 word)]
  have plain := mt argIsCommand_iff.2 word
  obtain ⟨c, tail, rfl⟩ := List.exists_cons_of_ne_nil full
  unfold processArg
  rw [if_neg word]
  simp only [argIsFlag, bind, Except.bind]
  by_cases flag : c = dash
  · rw [if_pos (by simpa using flag)]
    exact decides_flag fits size plain (by simp [flag])
  rw [if_neg (by simpa using flag)]
  have head : ¬ (c :: tail).head? = some dash := by simpa using flag
  by_cases body : equals ∈ c :: tail
  · rw [if_pos (by simpa [argIsBodyArg] using body)]
    refine decides_body ?_
    rw [kindOf, if_neg plain, if_neg head, if_pos body]
  rw [if_neg (by simpa [argIsBodyArg] using body)]
  by_cases question : c :: tail = ascii "?"
  · rw [if_pos (by simpa [argIsHelp] using question)]
    refine decides_question split size ?_
    rw [kindOf, if_neg plain, if_neg head, if_neg body, if_pos question]
  · rw [if_neg (by simpa [argIsHelp] using question)]
    refine decides_path split ?_
    rw [kindOf, if_neg plain, if_neg head, if_neg body, if_neg question]

/-- The loop over the arguments `mid` after `before`. -/
theorem processArgs_decides {total : ℕ} {mid after : List Str} (size : args.length = total)
    (full : ([] : Str) ∉ mid) (split : args = before ++ mid ++ after) (fits : Fits total before) :
    Decides (processArgs args mid before.length (stateAfter args before))
      (Fits total (before ++ mid)) (stateAfter args (before ++ mid)) := by
  induction mid generalizing before with
  | nil =>
    rw [List.append_nil]
    exact .ok fits rfl
  | cons a mid ih =>
    have here : args = before ++ a :: (mid ++ after) := by simpa using split
    have longer : args = before ++ [a] ++ mid ++ after := by simpa using split
    have step := processArg_decides fits here size fun empty => full (by simp [empty])
    have same : before ++ a :: mid = before ++ [a] ++ mid := by simp
    simp only [processArgs, bind, Except.bind]
    rw [same]
    by_cases allowed : Allowed total before a
    · rw [step.1 allowed]
      have next := ih (fun mem => full (List.mem_cons_of_mem _ mem)) longer
        (fits_concat.2 ⟨fits, allowed⟩)
      rwa [List.length_append] at next
    · obtain ⟨text, refused⟩ := step.2 allowed
      rw [refused]
      exact .error fun all => allowed (fits_concat.1 all.left).2

end Variables

theorem stateAfter_nil (args : List Str) :
    stateAfter args [] = { isHelp := args.length = 0 } := by
  ext1 <;> simp [stateAfter]

theorem run_decides {args before after : List Str} (full : [] ∉ before)
    (split : args = before ++ after) :
    Decides (processArgs args before 0 { isHelp := args.length = 0 })
      (Fits args.length before) (stateAfter args before) := by
  rw [← stateAfter_nil]
  exact processArgs_decides rfl full split (fits_nil _)

/-- On arguments that are not empty the parser raises no panic; it accepts exactly the command
lines that fit and returns what they denote. -/
theorem parseCLIArgs_ok_iff (args : List Str) (full : [] ∉ args) :
    parseCLIArgs args ≠ .error .panic ∧
      ∀ cli, parseCLIArgs args = .ok cli ↔ Fits args.length args ∧ cli = denoted args := by
  have decides := run_decides full (List.append_nil args).symm
  unfold parseCLIArgs
  by_cases fits : Fits args.length args
  · rw [decides.1 fits]
    refine ⟨nofun, fun cli => ?_⟩
    have same : (Except.ok (denoted args) : Except Failure CLIArgs) = .ok cli ↔
        cli = denoted args := by rw [Except.ok.injEq, eq_comm]
    exact same.trans (and_iff_right fits).symm
  · obtain ⟨text, refused⟩ := decides.2 fits
    rw [refused]
    exact ⟨nofun, fun cli => ⟨nofun, fun both => absurd both.1 fits⟩⟩

/-- The grammar without `-h` and `--help` and without a word on `-hide` next to `-json` or
`-yaml`. -/
def Stated (args : List Str) : Prop :=
  Ordered args ∧ (∀ a ∈ args, kindOf a ≠ .help) ∧ args.countP (kindOf · = .hide) ≤ 1 ∧
    ∀ before a after, args = before ++ a :: after → kindOf a = .question → after = []

theorem afterShow_of_head {rest before after : List Str} {a : Str}
    (split : showCommand :: rest = before ++ a :: after)
    (flag : kindOf a = .showType ∨ kindOf a = .hide) : showCommand ∈ before := by
  cases before with
  | nil =>
    cases split
    simp [kindOf] at flag
  | cons b before =>
    cases split
    exact List.mem_cons_self

theorem stated_shown : Stated [ascii "show", ascii "-hide=mac", ascii "-json"] := by
  refine ⟨⟨by decide +kernel, by decide +kernel, by decide +kernel, by decide +kernel, ?_,
    by decide +kernel⟩, by decide +kernel, by decide +kernel, ?_⟩
  · exact fun _ _ _ => afterShow_of_head
  · intro before a after split question
    have none : ∀ b ∈ [ascii "show", ascii "-hide=mac", ascii "-json"], kindOf b ≠ .question := by
      decide +kernel
    exact absurd question (none a (split ▸ by simp))

/-- A command line of that grammar is refused, and an empty argument ends the parser. -/
theorem not_parseCLIArgs_stated :
    (Stated [ascii "show", ascii "-hide=mac", ascii "-json"] ∧
      parseCLIArgs [ascii "show", ascii "-hide=mac", ascii "-json"] =
        .error (.error (ascii "-hide is not compatible with -json"))) ∧
      parseCLIArgs [[]] = .error .panic :=
  ⟨⟨stated_shown, by decide +kernel⟩, by decide +kernel⟩

/-- `cube1 show ports -brief -hide=mac,peer`. -/
def shown : List Str :=
  [ascii "cube1", ascii "show", ascii "ports", ascii "-brief", ascii "-hide=mac,peer"]

theorem parseCLIArgs_shown :
    [] ∉ shown ∧ parseCLIArgs shown ≠ .error .panic ∧ parseCLIArgs shown = .ok (denoted shown) ∧
      Fits 5 shown := by
  have full : [] ∉ shown := by decide
  obtain ⟨calm, accepted⟩ := parseCLIArgs_ok_iff shown full
  have ok : parseCLIArgs shown = .ok (denoted shown) := by decide +kernel
  exact ⟨full, calm, ok, ((accepted _).1 ok).1⟩

end Polycube.Polycubectl
