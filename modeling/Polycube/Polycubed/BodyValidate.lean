import Mathlib
import Polycube.Lib.Throwing
import Polycube.Polycubed.Conformance

/-!
# When a body is accepted

`bodyValidate` makes the checks of a schema, some of them in another way.  What it lets through
(`overlooked`) and what it refuses (`refused`) beside the checks that it makes (`madeChecks`) is
stated for each check; both read off the schema and the body alone.
-/

namespace Polycube.Polycubed.Resources

open Lib

variable (dump : Json → String)

/-! ### The checks that are made -/

mutual

/-- Nothing is asked of a body without members.  A case like that counts as parsed by its choice,
and two of them are an error. -/
def Resource.vacuous (init : Bool) : Resource → Bool
  | .leaf name l => !(init && (Resource.leaf name l).isMandatory false)
  | .parent name cls children =>
    match cls with
    | .case => allVacuous init children
    | .choice _ => decide (vacuousCases init children ≤ 1)
    | .generic _ _ _ | .list _ => !(init && (Resource.parent name cls children).isMandatory false)

def allVacuous (init : Bool) : List Resource → Bool
  | [] => true
  | child :: children => child.vacuous init && allVacuous init children

def vacuousCases (init : Bool) : List Resource → ℕ
  | [] => 0
  | child :: children => (child.vacuous init).toNat + vacuousCases init children

end

def madeChecks : Checks where
  leaf f value := f.validators.all (· (value.text dump)) = true ∧
    value.type ∈ f.type.encodings ∧ (value.type = .array → value.isSingleton = true)
  absent init r := ¬(init = true ∧ r.isMandatory false = true)
  choice _ _ cs ms := OneUsed ms cs

/-- What is let through: an array with an element other than null, a container whose only mandatory
child is a choice, and a mandatory choice. -/
def overlooked : Checks where
  leaf _ value := value.isSingleton = true ∧ value.isEmptyLeaf = false
  absent init r := init = true ∧ r.Mandatory = true ∧ r.isMandatory false = false
  choice init mandatory cs ms := init = true ∧ mandatory = true ∧ ∀ c ∈ cs, ¬Used ms c

/-- What is refused: `[null]`, a number from zero on for an `int64` and one without a fraction for a
`decimal64`, every member of a case, and every body where two cases ask nothing. -/
def refused : Checks where
  leaf f value := value.isEmptyLeaf = true ∨ f.type = .int64 ∧ value.type = .unsigned ∨
    f.type = .dec64 ∧ (value.type = .unsigned ∨ value.type = .integer)
  absent _ _ := False
  choice init _ cs ms := (∃ c ∈ cs, Used ms c) ∨ 2 ≤ vacuousCases init cs

variable {dump}

theorem anyMandatory_of_isMandatory {inCase : Bool} {cs : List Resource}
    (h : ∀ c ∈ cs, ∀ inCase, c.isMandatory inCase = true → c.Mandatory = true)
    (any : Resource.anyMandatory inCase cs = true) : Resource.AnyMandatory cs = true := by
  induction cs with
  | nil => simp [Resource.anyMandatory] at any
  | cons c cs ih =>
    simp only [Resource.anyMandatory, Resource.AnyMandatory, Bool.or_eq_true] at any ⊢
    rcases any with here | there
    · exact .inl (h c (by simp) inCase here)
    · exact .inr (ih (fun c hc => h c (by simp [hc])) there)

theorem mandatory_of_isMandatory (r : Resource) (inCase : Bool)
    (h : r.isMandatory inCase = true) : r.Mandatory = true := by
  induction r using Resource.induction generalizing inCase with
  | leaf => exact h
  | parent name cls children ih =>
    cases cls with
    | generic marks presence rpc =>
      simp only [Resource.isMandatory, Resource.Mandatory, Bool.and_eq_true] at h ⊢
      exact ⟨h.1, anyMandatory_of_isMandatory ih h.2⟩
    | list => simp [Resource.isMandatory] at h
    | case => exact anyMandatory_of_isMandatory ih h
    | choice mandatory =>
      simp only [Resource.isMandatory, Bool.and_eq_true] at h
      exact h.1

variable {value : Json}

theorem isSingleton_of_isEmptyLeaf (h : value.isEmptyLeaf = true) : value.isSingleton = true := by
  unfold Json.isEmptyLeaf at h
  split at h
  · rfl
  · simp at h

theorem type_of_isSingleton (h : value.isSingleton = true) : value.type = .array := by
  unfold Json.isSingleton at h
  split at h
  · rfl
  · simp at h

/-- The schema asks what the code checks, and that nothing is overlooked. -/
theorem schemaChecks_eq : schemaChecks dump = (madeChecks dump).without overlooked := by
  refine Checks.ext ?_ ?_ ?_
  · funext f value
    refine propext ?_
    simp only [schemaChecks, madeChecks, overlooked, Checks.without, and_assoc]
    refine and_congr_right fun _ => and_congr_right fun _ => ?_
    cases empty : value.isEmptyLeaf with
    | true => simp [isSingleton_of_isEmptyLeaf empty]
    | false =>
      constructor
      · intro notArray
        have notSingleton : value.isSingleton ≠ true :=
          fun single => by simpa using notArray (type_of_isSingleton single)
        exact ⟨fun array => by simpa using notArray array, fun both => notSingleton both.1⟩
      · rintro ⟨single, not⟩ array
        exact absurd ⟨single array, rfl⟩ not
  · funext init r
    refine propext ?_
    simp only [schemaChecks, madeChecks, overlooked, Checks.without]
    have := mandatory_of_isMandatory r false
    cases h : r.isMandatory false <;> simp_all
  · funext init mandatory cs ms
    refine propext ?_
    simp only [schemaChecks, madeChecks, overlooked, Checks.without]
    refine and_congr_right fun _ => ?_
    constructor
    · rintro some ⟨hi, hm, none⟩
      obtain ⟨c, hc, used⟩ := some hi hm
      exact none c hc used
    · intro not hi hm
      by_contra none
      exact not ⟨hi, hm, fun c hc used => none ⟨c, hc, used⟩⟩

theorem mem_allowedTypes_iff (type : YangType) (v : ValueType) :
    v ∈ type.allowedTypes ↔ v ∈ type.encodings ∧
      ¬(type = .int64 ∧ v = .unsigned ∨ type = .dec64 ∧ (v = .unsigned ∨ v = .integer)) := by
  cases type <;> cases v <;> decide

theorem null_notMem_allowedTypes (type : YangType) : ValueType.null ∉ type.allowedTypes := by
  cases type <;> decide

theorem object_notMem_allowedTypes (type : YangType) : ValueType.object ∉ type.allowedTypes := by
  cases type <;> decide

theorem validate_iff_allowed {f : JsonValueField} :
    f.validate dump value = .ok .ok ↔
      f.validators.all (· (value.text dump)) = true ∧ value.type ∈ f.type.allowedTypes ∧
        (value.type = .array → value.isSingleton = true) ∧ value.isEmptyLeaf = false := by
  unfold JsonValueField.validate
  by_cases allowed : value.type ∈ f.type.allowedTypes
  · rw [if_neg (not_not.2 allowed)]
    generalize f.validators.all (· (value.text dump)) = valid
    cases value with
    | null => exact absurd allowed (null_notMem_allowedTypes _)
    | object ms => exact absurd allowed (object_notMem_allowedTypes _)
    | array es =>
      rcases es with - | ⟨e, - | ⟨e', es⟩⟩
      · simp [Json.isSingleton, Json.type]
      · cases e <;> cases valid <;> simp [Json.isSingleton, Json.isEmptyLeaf, allowed]
      · simp [Json.isSingleton, Json.type]
    | _ => cases valid <;> simp_all [Json.isEmptyLeaf, Json.type]
  · rw [if_pos allowed]
    simp [allowed]

theorem validate_iff {f : JsonValueField} :
    f.validate dump value = .ok .ok ↔ ((madeChecks dump).without refused).leaf f value := by
  rw [validate_iff_allowed, mem_allowedTypes_iff]
  simp only [madeChecks, refused, Checks.without]
  cases value.isEmptyLeaf <;> grind

theorem validateAll_iff {validate : Json → Validation} {es : List Json} :
    validateAll validate es = .ok [] ↔ ∀ e ∈ es, validate e = .ok [] := by
  induction es with
  | nil => simp [validateAll, pure, Except.pure]
  | cons e es ih =>
    rw [List.forall_mem_cons, ← ih, validateAll, bind_eq_ok_iff]
    constructor
    · rintro ⟨errors, here, rest⟩
      obtain ⟨more, there, both⟩ := bind_eq_ok_iff.1 rest
      obtain ⟨rfl, rfl⟩ := List.append_eq_nil_iff.1 (Except.ok.inj both)
      exact ⟨here, there⟩
    · rintro ⟨here, there⟩
      exact ⟨[], here, bind_eq_ok_iff.2 ⟨[], there, rfl⟩⟩

theorem scalarValidate_iff {l : Leaf} {name : String} {body : Json} :
    l.scalarValidate dump name body = .ok [] ↔
      l.marks.nodeFields = true ∧ ((madeChecks dump).without refused).leaf l.field body := by
  rw [← validate_iff]
  unfold Leaf.scalarValidate
  by_cases empty : body.empty = true
  · -- what is empty is not a scalar
    rw [if_pos empty]
    have notScalar : l.field.validate dump body ≠ .ok .ok := by
      rw [Ne, validate_iff_allowed]
      rintro ⟨-, allowed, single, -⟩
      unfold Json.empty at empty
      split at empty
      · exact null_notMem_allowedTypes _ allowed
      · have := single rfl
        simp_all [Json.isSingleton]
      · exact object_notMem_allowedTypes _ allowed
      · simp at empty
    simp [pure, Except.pure, notScalar]
  · rw [if_neg empty]
    cases l.marks.nodeFields with
    | false => simp [pure, Except.pure]
    | true =>
      cases l.field.validate dump body with
      | error => simp [bind, Except.bind]
      | ok tag => cases tag <;> simp [bind, Except.bind, pure, Except.pure]

theorem leaf_bodyValidate_iff {l : Leaf} (name : String) {body : Json} :
    l.bodyValidate dump name body = .ok [] ↔
      ((madeChecks dump).without refused).LeafFits l body := by
  unfold Leaf.bodyValidate Checks.LeafFits
  cases l.isList with
  | false => simpa using scalarValidate_iff
  | true =>
    cases body with
    | array es =>
      cases nodeFields : l.marks.nodeFields with
      | false => simp [pure, Except.pure]
      | true =>
        simp only [↓reduceIte, Bool.not_true, Bool.false_eq_true, validateAll_iff,
          scalarValidate_iff, nodeFields, true_and, Json.array.injEq, exists_eq_left']
    | _ => simp [pure, Except.pure]

section Children

variable {init : Bool} {c : Resource} {cs : List Resource} {errors : List Response} {rest : Json}

def valueValidate (dump : Json → String) (init : Bool) (child : Resource) (value : Json) :
    Validation :=
  match child with
  | .parent _ (.list _) _ => validateMultiple (bodyValidate dump init child) value
  | _ => bodyValidate dump init child value

theorem validateChildren_choice (choice : c.isChoice = true) :
    validateChildren dump init (c :: cs) errors rest =
      validateChildren dump init cs errors rest := by
  unfold Resource.isChoice at choice
  split at choice
  · rw [validateChildren]
  · simp at choice

theorem validateChildren_direct (direct : c.isChoice = false) :
    validateChildren dump init (c :: cs) errors rest =
      match rest.find? c.name with
      | none =>
        validateChildren dump init cs
          (if init && c.isMandatory false then errors ++ [⟨.missingAttribute, some c.name⟩]
            else errors) rest
      | some value =>
        if !c.isConfiguration || (!init && c.isInitOnlyConfig) then
          validateChildren dump init cs (errors ++ [⟨.invalidValue, some c.name⟩]) rest
        else valueValidate dump init c value >>= fun childErrors =>
          validateChildren dump init cs (errors ++ childErrors) (rest.erase c.name) := by
  cases c with
  | leaf name l =>
    rw [validateChildren]
    · rfl
    · simp
  | parent name cls children =>
    cases cls with
    | choice => simp [Resource.isChoice] at direct
    | _ =>
      rw [validateChildren]
      · rfl
      · simp

theorem validateChildren_nil {out : List Response} {left : Json}
    (h : validateChildren dump init cs errors rest = .ok (out, left)) (clean : out = []) :
    errors = [] := by
  induction cs generalizing errors rest with
  | nil =>
    rw [validateChildren] at h
    obtain ⟨rfl, rfl⟩ := Prod.mk.inj (Except.ok.inj h)
    exact clean
  | cons c cs ih =>
    cases choice : c.isChoice with
    | true =>
      rw [validateChildren_choice choice] at h
      exact ih h
    | false =>
      rw [validateChildren_direct choice] at h
      split at h
      · have := ih h
        split at this
        · simp at this
        · exact this
      · split at h
        · simpa using ih h
        · obtain ⟨childErrors, -, h⟩ := bind_eq_ok_iff.1 h
          exact (List.append_eq_nil_iff.1 (ih h)).1

end Children

/-! ### Bodies without members -/

section Blank

variable {init : Bool} {b : Json}

theorem find?_of_blank (blank : b.items = []) (name : String) : b.find? name = none := by
  cases b with
  | object ms =>
    obtain rfl : ms = [] := blank
    rfl
  | _ => rfl

theorem validateChildren_blank (blank : b.items = []) (cs : List Resource)
    (errors : List Response) :
    ∃ errors', validateChildren dump init cs errors b = .ok (errors', b) ∧
      (errors' = [] ↔ errors = [] ∧
        ∀ c ∈ cs, c.isChoice = false → (init && c.isMandatory false) = false) := by
  induction cs generalizing errors with
  | nil => exact ⟨errors, by rw [validateChildren]; rfl, by simp⟩
  | cons c cs ih =>
    cases choice : c.isChoice with
    | true =>
      obtain ⟨errors', run, clean⟩ := ih errors
      refine ⟨errors', by rw [validateChildren_choice choice, run], ?_⟩
      rw [clean, List.forall_mem_cons]
      simp [choice]
    | false =>
      rw [validateChildren_direct choice, find?_of_blank blank]
      cases missing : init && c.isMandatory false with
      | true =>
        obtain ⟨errors', run, clean⟩ := ih (errors ++ [⟨.missingAttribute, some c.name⟩])
        refine ⟨errors', by simpa using run, ?_⟩
        rw [clean, List.forall_mem_cons]
        simp [choice, missing]
      | false =>
        obtain ⟨errors', run, clean⟩ := ih errors
        refine ⟨errors', by simpa using run, ?_⟩
        rw [clean, List.forall_mem_cons]
        simp [choice, missing]

theorem allVacuous_iff {cs : List Resource} :
    allVacuous init cs = true ↔ ∀ c ∈ cs, c.vacuous init = true := by
  induction cs with
  | nil => simp [allVacuous]
  | cons c cs ih => simp [allVacuous, ih]

theorem vacuous_data {c : Resource} (choice : c.isChoice = false) (case : c.isCase = false) :
    c.vacuous init = !(init && c.isMandatory false) := by
  cases c with
  | leaf => rfl
  | parent name cls children =>
    cases cls with
    | case => simp [Resource.isCase] at case
    | choice => simp [Resource.isChoice] at choice
    | _ => rfl

variable {name : String} {p : Progress}

theorem validateAlternatives_case {isMandatory : Bool} {c : Resource}
    {cs : List Resource} (case : c.isCase = true) :
    validateAlternatives dump init isMandatory name (c :: cs) p =
      bodyValidate dump init c p.body >>= fun childErrors =>
        validateAlternatives dump init isMandatory name cs (p.after name childErrors) := by
  unfold Resource.isCase at case
  split at case
  · rw [validateAlternatives]
    rfl
  · simp at case

def BlankCase (dump : Json → String) (init : Bool) (b : Json) (c : Resource) : Prop :=
  ∃ errors, bodyValidate dump init c b = .ok errors ∧ (errors = [] ↔ c.vacuous init = true)

/-- An iteration counts the case that asks nothing, and the second is an error. -/
theorem after_spec {childErrors : List Response} {v : Bool}
    (errors : p.errors = [] ∨ p.errors = [⟨.badAttribute, some name⟩])
    (accepts : childErrors = [] ↔ v = true) :
    (p.after name childErrors).body = p.body ∧ ((p.after name childErrors).errors = [] ∨
        (p.after name childErrors).errors = [⟨.badAttribute, some name⟩]) ∧
      ∀ n, ((p.after name childErrors).errors = [] ∧
          (p.after name childErrors).parsedChild.toNat + n ≤ 1 ↔
        p.errors = [] ∧ p.parsedChild.toNat + (v.toNat + n) ≤ 1) := by
  unfold Progress.after
  cases v with
  | false =>
    have some : childErrors.isEmpty = false := by
      rw [List.isEmpty_eq_false_iff]
      exact fun none => absurd (accepts.1 none) (by simp)
    simp [some, errors]
  | true =>
    obtain rfl := accepts.2 rfl
    cases parsed : p.parsedChild with
    | false => simp [errors]
    | true =>
      rcases errors with none | one
      · simp only [none, Progress.fail]
        exact ⟨rfl, .inr rfl, fun n => by simp⟩
      · simp [one]

theorem validateAlternatives_blank (isMandatory : Bool) (name : String) {cs : List Resource}
    (cases : ∀ c ∈ cs, c.isCase = true) (each : ∀ c ∈ cs, BlankCase dump init b c)
    (body : p.body = b) (errors : p.errors = [] ∨ p.errors = [⟨.badAttribute, some name⟩]) :
    ∃ p', validateAlternatives dump init isMandatory name cs p = .ok p' ∧ p'.body = b ∧
      (p'.errors = [] ∨ p'.errors = [⟨.badAttribute, some name⟩]) ∧
      (p'.errors = [] ↔ p.errors = [] ∧ p.parsedChild.toNat + vacuousCases init cs ≤ 1) := by
  induction cs generalizing p with
  | nil =>
    refine ⟨p, by rw [validateAlternatives]; rfl, body, errors, ?_⟩
    have := Bool.toNat_le p.parsedChild
    simp [vacuousCases, this]
  | cons c cs ih =>
    rw [List.forall_mem_cons] at cases each
    obtain ⟨childErrors, run, accepts⟩ := each.1
    rw [validateAlternatives_case cases.1, body, run]
    obtain ⟨body', errors', count⟩ := after_spec errors accepts
    obtain ⟨p', run', pbody, perrors, clean⟩ := ih cases.2 each.2 (body'.trans body) errors'
    refine ⟨p', run', pbody, perrors, ?_⟩
    rw [clean, count, vacuousCases]

theorem keepErrors_result (errors : p.errors = [] ∨ p.errors = [⟨.badAttribute, some name⟩]) :
    keepErrors p.result = [] ↔ p.errors = [] := by
  unfold keepErrors Progress.result
  rcases errors with none | one
  · simp [none]
  · cases p.parsedChild <;> simp [one]

theorem validateChoices_other {inCase : Bool} {c : Resource} {cs : List Resource}
    {errors : List Response} {rest : Json} (data : c.isChoice = false) :
    validateChoices dump init inCase (c :: cs) errors rest =
      validateChoices dump init inCase cs errors rest := by
  cases c with
  | leaf => rw [validateChoices]; simp
  | parent name cls children =>
    cases cls with
    | choice => simp [Resource.isChoice] at data
    | _ => rw [validateChoices]; simp

/-- The choices complain exactly when one of them has two cases that ask nothing. -/
theorem validateChoices_blank (inCase : Bool) {cs : List Resource} (wf : ∀ c ∈ cs, c.WellFormed)
    (each : ∀ c ∈ cs, ∀ name mandatory alternatives,
      c = .parent name (.choice mandatory) alternatives →
        ∀ a ∈ alternatives, BlankCase dump init b a) (errors : List Response) :
    ∃ errors', validateChoices dump init inCase cs errors b = .ok (errors', b) ∧
      (errors' = [] ↔ errors = [] ∧ ∀ c ∈ cs, c.isChoice = true → c.vacuous init = true) := by
  induction cs generalizing errors with
  | nil => exact ⟨errors, by rw [validateChoices]; rfl, by simp⟩
  | cons c cs ih =>
    rw [List.forall_mem_cons] at wf each
    have ih := ih wf.2 each.2
    cases choice : c.isChoice with
    | false =>
      obtain ⟨errors', run, clean⟩ := ih errors
      refine ⟨errors', by rw [validateChoices_other choice, run], ?_⟩
      rw [clean, List.forall_mem_cons]
      simp [choice]
    | true =>
      unfold Resource.isChoice at choice
      split at choice
      · rename_i name mandatory alternatives
        obtain ⟨p, run, body, one, clean⟩ := validateAlternatives_blank (mandatory && inCase) name
          wf.1.2.2 (each.1 _ _ _ rfl)
          (p := ⟨false, [], b⟩) rfl (.inl rfl)
        obtain ⟨errors', run', clean'⟩ := ih (errors ++ keepErrors p.result)
        refine ⟨errors', ?_, ?_⟩
        · rw [validateChoices, run]
          change validateChoices dump init inCase cs (errors ++ keepErrors p.result) p.body = _
          rw [body, run']
        · rw [clean', List.append_eq_nil_iff, keepErrors_result one, clean, List.forall_mem_cons]
          simp [Resource.isChoice, Resource.vacuous, and_assoc]
      · simp at choice

theorem blankCase (blank : b.items = []) (r : Resource) (wf : r.WellFormed) :
    (r.isCase = true → BlankCase dump init b r) ∧
      ∀ name mandatory alternatives, r = .parent name (.choice mandatory) alternatives →
        ∀ a ∈ alternatives, BlankCase dump init b a := by
  induction r using Resource.induction with
  | leaf => exact ⟨by simp [Resource.isCase], by simp⟩
  | parent name cls children ih =>
    have below := Resource.allWellFormed_iff.1 wf.2.1
    have ih := fun c hc => ih c hc (below c hc)
    refine ⟨fun case => ?_, ?_⟩
    · cases cls with
      | case =>
        obtain ⟨missing, run, clean⟩ :=
          @validateChildren_blank dump init b blank children []
        obtain ⟨errors, run', clean'⟩ := validateChoices_blank true below
          (fun c hc => (ih c hc).2) missing
        refine ⟨errors, ?_, ?_⟩
        · rw [bodyValidate, if_neg (by decide), run]
          change (validateChoices dump init true children missing b >>= fun out =>
            pure (out.1 ++ out.2.items.map fun unparsed =>
              ⟨.invalidValue, some unparsed.1⟩)) = _
          rw [run']
          simp [bind, Except.bind, blank, pure, Except.pure]
        · rw [clean', clean, and_assoc, and_iff_right rfl, Resource.vacuous, allVacuous_iff,
            ← forall₂_and]
          refine forall₂_congr fun c hc => ?_
          cases choice : c.isChoice with
          | false =>
            rw [vacuous_data choice (wf.2.2 c hc)]
            cases init && c.isMandatory false <;> simp
          | true => simp
      | _ => simp [Resource.isCase] at case
    · rintro name' mandatory alternatives h
      obtain ⟨rfl, rfl, rfl⟩ := Resource.parent.inj h
      exact fun a ha => (ih a ha).1 (wf.2.2 a ha)

end Blank

section Rest

variable {b : Json} {ms : List (String × Json)} {n : String}

theorem find?_of_members (h : b.members = some ms) (n : String) : b.find? n = ms.lookup n := by
  unfold Json.members at h
  split at h
  · rw [Json.find?, Option.some.inj h]
  · obtain rfl := Option.some.inj h
    rfl
  · obtain rfl := Option.some.inj h
    rfl
  · simp at h

theorem items_eq_nil_iff : b.items = [] ↔ b.members = some [] := by
  cases b with
  | array es => cases es <;> simp [Json.items, Json.members, List.mapIdx_cons]
  | _ => simp [Json.items, Json.members]

theorem members_erase : (b.erase n).members = b.members.map (List.filter (·.1 != n)) := by
  cases b with
  | array es => cases es <;> rfl
  | _ => rfl

theorem lookup_filter_of_ne {n' : String} (h : n' ≠ n) :
    (ms.filter (·.1 != n)).lookup n' = ms.lookup n' := by
  induction ms with
  | nil => rfl
  | cons m ms ih =>
    obtain ⟨k, v⟩ := m
    by_cases hk : k = n
    · subst hk
      simpa [List.lookup_cons, beq_false_of_ne h] using ih
    · simp [List.lookup_cons, hk, ih]

theorem find?_erase_of_ne {n' : String} (h : n' ≠ n) : (b.erase n).find? n' = b.find? n' := by
  cases b with
  | object ms => exact lookup_filter_of_ne h
  | _ => rfl

def directNames (cs : List Resource) : List String :=
  (cs.filter fun c => !c.isChoice).map Resource.name

theorem members_foldl_erase {ns : List String} :
    (ns.foldl Json.erase b).members = b.members.map (List.filter (·.1 ∉ ns)) := by
  induction ns generalizing b with
  | nil => cases h : b.members <;> simp [h]
  | cons n ns ih =>
    rw [List.foldl_cons, ih, members_erase, Option.map_map]
    congr 1
    funext ms
    simp only [Function.comp_apply, List.filter_filter]
    refine List.filter_congr fun m _ => ?_
    by_cases h : m.1 = n <;> simp [h]

theorem foldl_erase_blank_iff {ns : List String} :
    (ns.foldl Json.erase b).items = [] ↔ ∃ ms, b.members = some ms ∧ ∀ m ∈ ms, m.1 ∈ ns := by
  rw [items_eq_nil_iff, members_foldl_erase, Option.map_eq_some_iff]
  simp [List.filter_eq_nil_iff]

end Rest

/-! ### Bodies that are accepted -/

section Accepted

variable {init : Bool} {cs : List Resource} {body rest : Json} {ms : List (String × Json)}

def ChildOk (dump : Json → String) (init : Bool) (body : Json) (c : Resource) : Prop :=
  match body.find? c.name with
  | none => (init && c.isMandatory false) = false
  | some value => c.Writable init ∧ valueValidate dump init c value = .ok []

theorem childOk_erase {c : Resource} {n : String} (h : c.name ≠ n) :
    ChildOk dump init (body.erase n) c ↔ ChildOk dump init body c := by
  unfold ChildOk
  rw [find?_erase_of_ne h]

theorem erase_of_find?_eq_none {b : Json} {n : String} (h : b.find? n = none) : b.erase n = b := by
  cases b with
  | object ms =>
    rw [Json.erase, List.filter_eq_self.2]
    intro m hm
    rw [bne_iff_ne]
    rintro rfl
    simpa using List.lookup_eq_none_iff.1 h m hm
  | _ => rfl

theorem notWritable_iff {c : Resource} :
    ¬(!c.isConfiguration || (!init && c.isInitOnlyConfig)) = true ↔ c.Writable init := by
  unfold Resource.Writable
  cases c.isConfiguration <;> cases init <;> simp

/-- The children take their own members out of the body, in turn. -/
theorem validateChildren_iff (distinct : (directNames cs).Nodup) :
    validateChildren dump init cs [] body = .ok ([], rest) ↔
      (∀ c ∈ cs, c.isChoice = false → ChildOk dump init body c) ∧
        rest = (directNames cs).foldl Json.erase body := by
  induction cs generalizing body with
  | nil =>
    rw [validateChildren]
    constructor
    · intro h
      obtain ⟨-, rfl⟩ := Prod.mk.inj (Except.ok.inj h)
      exact ⟨by simp, rfl⟩
    · rintro ⟨-, rfl⟩
      rfl
  | cons c cs ih =>
    cases choice : c.isChoice with
    | true =>
      have names : directNames (c :: cs) = directNames cs := by simp [directNames, choice]
      rw [names] at distinct ⊢
      rw [validateChildren_choice choice, ih distinct, List.forall_mem_cons]
      simp [choice]
    | false =>
      have names : directNames (c :: cs) = c.name :: directNames cs := by
        simp [directNames, choice]
      rw [names, List.nodup_cons] at distinct
      have others : (∀ c' ∈ cs, c'.isChoice = false → ChildOk dump init (body.erase c.name) c') ↔
          ∀ c' ∈ cs, c'.isChoice = false → ChildOk dump init body c' := by
        refine forall₂_congr fun c' hc' => forall_congr' fun direct => childOk_erase fun same => ?_
        exact distinct.1 (same ▸ List.mem_map_of_mem (List.mem_filter.2 ⟨hc', by simp [direct]⟩))
      rw [names, List.foldl_cons, List.forall_mem_cons, validateChildren_direct choice, ← others,
        and_assoc, ← ih distinct.2, forall_prop_of_true choice]
      unfold ChildOk
      cases found : body.find? c.name with
      | none =>
        rw [erase_of_find?_eq_none found]
        dsimp only
        cases missing : init && c.isMandatory false with
        | false => simp
        | true =>
          simp only [↓reduceIte, Bool.true_eq_false, false_and, iff_false]
          exact fun run => by simpa using validateChildren_nil run rfl
      | some value =>
        dsimp only
        rw [← notWritable_iff, and_assoc]
        split
        · rename_i not
          simp only [not, not_true, false_and, iff_false]
          exact fun run => by simpa using validateChildren_nil run rfl
        · rename_i writable
          rw [and_iff_right writable, bind_eq_ok_iff]
          constructor
          · rintro ⟨childErrors, here, run⟩
            obtain rfl := (List.append_eq_nil_iff.1 (validateChildren_nil run rfl)).2
            exact ⟨here, run⟩
          · rintro ⟨here, run⟩
            exact ⟨[], here, run⟩

variable {name : String}

theorem validateAlternatives_body {isMandatory : Bool} {p p' : Progress}
    (cases : ∀ c ∈ cs, c.isCase = true)
    (run : validateAlternatives dump init isMandatory name cs p = .ok p') : p'.body = p.body := by
  induction cs generalizing p with
  | nil =>
    rw [validateAlternatives] at run
    rw [← Except.ok.inj run]
  | cons c cs ih =>
    rw [List.forall_mem_cons] at cases
    rw [validateAlternatives_case cases.1] at run
    obtain ⟨childErrors, -, run⟩ := bind_eq_ok_iff.1 run
    rw [ih cases.2 run]
    unfold Progress.after
    split
    · split <;> rfl
    · rfl

theorem validateChoices_rest {inCase : Bool} {errors out : List Response} {left : Json}
    (wf : ∀ c ∈ cs, c.WellFormed)
    (run : validateChoices dump init inCase cs errors rest = .ok (out, left)) :
    left = rest ∧ (out = [] → errors = []) := by
  induction cs generalizing errors rest with
  | nil =>
    rw [validateChoices] at run
    obtain ⟨rfl, rfl⟩ := Prod.mk.inj (Except.ok.inj run)
    exact ⟨rfl, id⟩
  | cons c cs ih =>
    rw [List.forall_mem_cons] at wf
    cases choice : c.isChoice with
    | false =>
      rw [validateChoices_other choice] at run
      exact ih wf.2 run
    | true =>
      unfold Resource.isChoice at choice
      split at choice
      · rw [validateChoices] at run
        obtain ⟨p, here, run⟩ := bind_eq_ok_iff.1 run
        obtain ⟨rfl, clean⟩ := ih wf.2 run
        exact ⟨validateAlternatives_body wf.1.2.2 here,
          fun none => (List.append_eq_nil_iff.1 (clean none)).1⟩
      · simp at choice

/-- A body is accepted when its members belong to children that are no choices and are as they
ought to be, and no choice has two cases that ask nothing. -/
theorem parent_accepts_iff {cls : ParentClass}
    (wf : (Resource.parent name cls cs).WellFormed) (distinct : (directNames cs).Nodup) :
    bodyValidate dump init (.parent name cls cs) body = .ok [] ↔
      cls.marks.nodeFields = true ∧ (∀ c ∈ cs, c.isChoice = false → ChildOk dump init body c) ∧
        (∃ ms, body.members = some ms ∧ ∀ m ∈ ms, m.1 ∈ directNames cs) ∧
        ∀ c ∈ cs, c.isChoice = true → c.vacuous init = true := by
  have below := Resource.allWellFormed_iff.1 wf.2.1
  have choices : ∀ b : Json, b.items = [] → ∃ errors',
      validateChoices dump init (cls = .case) cs [] b = .ok (errors', b) ∧
        (errors' = [] ↔ ∀ c ∈ cs, c.isChoice = true → c.vacuous init = true) := by
    intro b blank
    simpa using validateChoices_blank _ below (fun c hc => (blankCase blank c (below c hc)).2) []
  rw [bodyValidate, ← foldl_erase_blank_iff]
  cases cls.marks.nodeFields with
  | false => simp [pure, Except.pure]
  | true =>
    rw [if_neg (by decide), bind_eq_ok_iff, and_iff_right rfl]
    constructor
    · rintro ⟨⟨errors, left⟩, run, tail⟩
      obtain ⟨⟨out, left'⟩, run', last⟩ := bind_eq_ok_iff.1 tail
      obtain ⟨rfl, unparsed⟩ := List.append_eq_nil_iff.1 (Except.ok.inj last)
      obtain ⟨rfl, clean⟩ := validateChoices_rest below run'
      obtain rfl := clean rfl
      obtain ⟨ok, rfl⟩ := (validateChildren_iff distinct).1 run
      have blank := List.map_eq_nil_iff.1 unparsed
      obtain ⟨errors', again, vacuous⟩ := choices _ blank
      have := (Prod.mk.inj (Except.ok.inj (again.symm.trans run'))).1
      exact ⟨ok, blank, vacuous.1 this⟩
    · rintro ⟨ok, blank, vacuous⟩
      obtain ⟨errors', run', clean⟩ := choices _ blank
      obtain rfl := clean.2 vacuous
      refine ⟨_, (validateChildren_iff distinct).2 ⟨ok, rfl⟩, bind_eq_ok_iff.2 ⟨_, run', ?_⟩⟩
      simp [blank, pure, Except.pure]

theorem dataNames_direct {c : Resource} (choice : c.isChoice = false) (case : c.isCase = false) :
    c.dataNames = [c.name] := by
  cases c with
  | leaf => rfl
  | parent name cls children =>
    cases cls with
    | case => simp [Resource.isCase] at case
    | choice => simp [Resource.isChoice] at choice
    | _ => rfl

theorem directNames_sublist (cases : ∀ c ∈ cs, c.isCase = false) :
    (directNames cs).Sublist (Resource.allNames cs) := by
  induction cs with
  | nil => exact .refl _
  | cons c cs ih =>
    rw [List.forall_mem_cons] at cases
    rw [Resource.allNames]
    cases choice : c.isChoice with
    | true =>
      have names : directNames (c :: cs) = directNames cs := by simp [directNames, choice]
      rw [names]
      exact (ih cases.2).trans (List.sublist_append_right _ _)
    | false =>
      have names : directNames (c :: cs) = c.name :: directNames cs := by
        simp [directNames, choice]
      rw [names, dataNames_direct choice cases.1]
      exact (ih cases.2).cons_cons _

theorem allNames_eq_flatMap : Resource.allNames cs = cs.flatMap Resource.dataNames := by
  induction cs with
  | nil => rfl
  | cons c cs ih => rw [Resource.allNames, ih, List.flatMap_cons]

theorem disjoint_dataNames (distinct : (Resource.allNames cs).Nodup) {c c' : Resource}
    (hc : c ∈ cs) (hc' : c' ∈ cs) (ne : c ≠ c') : c.dataNames.Disjoint c'.dataNames := by
  rw [allNames_eq_flatMap, List.nodup_flatMap] at distinct
  have : Std.Symm (Function.onFun List.Disjoint Resource.dataNames) :=
    ⟨fun _ _ h _ hb ha => h ha hb⟩
  exact distinct.2.forall hc hc' ne

theorem fits_choice_iff {c : Resource} (choice : c.isChoice = true) :
    c.Fits ((madeChecks dump).without refused) init ms ↔
      (∀ n ∈ c.dataNames, ms.lookup n = none) ∧ c.vacuous init = true := by
  unfold Resource.isChoice at choice
  split at choice
  · rename_i name mandatory alternatives
    have unused : (∀ n ∈ Resource.allNames alternatives, ms.lookup n = none) ↔
        ∀ a ∈ alternatives, ¬Used ms a := by
      simp only [Resource.mem_allNames, Used, not_exists, not_and, not_not]
      exact ⟨fun h a ha n hn => h n ⟨a, ha, hn⟩, fun h n hn => by
        obtain ⟨a, ha, hn⟩ := hn
        exact h a ha n hn⟩
    simp only [Resource.Fits, Resource.dataNames, unused, Resource.vacuous, Checks.without,
      madeChecks, refused, Resource.usedFit_iff, decide_eq_true_eq]
    constructor
    · rintro ⟨⟨-, not⟩, -⟩
      exact ⟨fun a ha used => not (.inl ⟨a, ha, used⟩), by omega⟩
    · rintro ⟨none, few⟩
      refine ⟨⟨?_, ?_⟩, fun a ha used => absurd used (none a ha)⟩
      · exact List.Pairwise.imp_of_mem (fun ha _ _ both => none _ ha both.1)
          (List.pairwise_of_forall fun _ _ => trivial)
      · rintro (⟨a, ha, used⟩ | two)
        · exact none a ha used
        · omega
  · simp at choice

/-- The members belong to children that are no choices when all are known and no choice has one. -/
theorem known_iff (distinct : (Resource.allNames cs).Nodup) (cases : ∀ c ∈ cs, c.isCase = false) :
    (∀ m ∈ ms, m.1 ∈ directNames cs) ↔ (∀ m ∈ ms, m.1 ∈ Resource.allNames cs) ∧
      ∀ c ∈ cs, c.isChoice = true → ∀ n ∈ c.dataNames, ms.lookup n = none := by
  constructor
  · intro direct
    refine ⟨fun m hm => (directNames_sublist cases).subset (direct m hm), ?_⟩
    intro c hc choice n hn
    rw [List.lookup_eq_none_iff]
    intro m hm
    rw [bne_iff_ne]
    rintro rfl
    obtain ⟨c', hc', name⟩ := List.mem_map.1 (direct m hm)
    obtain ⟨hc', direct'⟩ := List.mem_filter.1 hc'
    simp only [Bool.not_eq_eq_eq_not, Bool.not_true] at direct'
    have ne : c ≠ c' := by
      rintro rfl
      simp [choice] at direct'
    refine disjoint_dataNames distinct hc hc' ne hn ?_
    rw [dataNames_direct direct' (cases c' hc'), name]
    simp
  · rintro ⟨known, unused⟩ m hm
    obtain ⟨c, hc, hn⟩ := Resource.mem_allNames.1 (known m hm)
    cases choice : c.isChoice with
    | true => simpa using List.lookup_eq_none_iff.1 (unused c hc choice _ hn) m hm
    | false =>
      rw [dataNames_direct choice (cases c hc), List.mem_singleton] at hn
      rw [hn]
      exact List.mem_map_of_mem (List.mem_filter.2 ⟨hc, by simp [choice]⟩)

theorem valueValidate_list {marks : Marks} {value : Json} :
    valueValidate dump init (.parent name (.list marks) cs) value = .ok [] ↔
      ∃ es, value = .array es ∧
        ∀ e ∈ es, bodyValidate dump init (.parent name (.list marks) cs) e = .ok [] := by
  unfold valueValidate validateMultiple
  cases value with
  | array es => simp [validateAll_iff]
  | _ => simp [pure, Except.pure]

theorem parent_accepts {cls : ParentClass} (data : ∀ mandatory, cls ≠ .choice mandatory)
    (wf : (Resource.parent name cls cs).WellFormed)
    (each : ∀ c ∈ cs, c.isChoice = false → ∀ ms body, body.members = some ms →
      (ChildOk dump init body c ↔ c.Fits ((madeChecks dump).without refused) init ms)) :
    bodyValidate dump init (.parent name cls cs) body = .ok [] ↔
      BodyFits cls.marks (Resource.allNames cs)
        (Resource.AllFit ((madeChecks dump).without refused) init cs) body := by
  have cases : ∀ c ∈ cs, c.isCase = false := by
    have := wf.2.2
    cases cls with
    | choice mandatory => exact absurd rfl (data mandatory)
    | _ => exact this
  rw [parent_accepts_iff wf ((directNames_sublist cases).nodup wf.1)]
  unfold BodyFits
  refine and_congr_right fun _ => ?_
  constructor
  · rintro ⟨ok, ⟨ms, members, direct⟩, vacuous⟩
    obtain ⟨known, unused⟩ := (known_iff wf.1 cases).1 direct
    refine ⟨ms, members, known, Resource.allFit_iff.2 fun c hc => ?_⟩
    cases choice : c.isChoice with
    | true => exact (fits_choice_iff choice).2 ⟨unused c hc choice, vacuous c hc choice⟩
    | false => exact (each c hc choice ms body members).1 (ok c hc choice)
  · rintro ⟨ms, members, known, fits⟩
    rw [Resource.allFit_iff] at fits
    have choices := fun c hc choice => (fits_choice_iff choice).1 (fits c hc)
    refine ⟨fun c hc choice => (each c hc choice ms body members).2 (fits c hc),
      ⟨ms, members, ?_⟩, fun c hc choice => (choices c hc choice).2⟩
    exact (known_iff wf.1 cases).2 ⟨known, fun c hc choice => (choices c hc choice).1⟩

theorem absent_iff {r : Resource} : ((madeChecks dump).without refused).absent init r ↔
    (init && r.isMandatory false) = false := by
  simp [Checks.without, madeChecks, refused]

theorem childOk_iff (r : Resource) (wf : r.WellFormed) (choice : r.isChoice = false)
    (case : r.isCase = false) (members : body.members = some ms) :
    ChildOk dump init body r ↔ r.Fits ((madeChecks dump).without refused) init ms := by
  induction r using Resource.induction generalizing body ms with
  | leaf name l =>
    simp only [ChildOk, Resource.Fits, find?_of_members members, Resource.name]
    cases ms.lookup name with
    | none => exact absent_iff.symm
    | some value =>
      refine and_congr_right fun _ => ?_
      rw [← leaf_bodyValidate_iff name, valueValidate, bodyValidate]
      simp
  | parent name cls children ih =>
    have below := Resource.allWellFormed_iff.1 wf.2.1
    simp only [ChildOk, find?_of_members members, Resource.name]
    cases cls with
    | case => simp [Resource.isCase] at case
    | choice => simp [Resource.isChoice] at choice
    | generic marks presence rpc =>
      have accepts := fun value => @parent_accepts dump init _ value _ _ (by simp) wf
        fun c hc choice ms body members => ih c hc (below c hc) choice (wf.2.2 c hc) members
      simp only [Resource.Fits]
      cases ms.lookup name with
      | none => exact absent_iff.symm
      | some value =>
        refine and_congr_right fun _ => ?_
        rw [valueValidate]
        · exact accepts value
        · simp
    | list marks =>
      have accepts := fun value => @parent_accepts dump init _ value _ _ (by simp) wf
        fun c hc choice ms body members => ih c hc (below c hc) choice (wf.2.2 c hc) members
      simp only [Resource.Fits]
      cases ms.lookup name with
      | none => exact absent_iff.symm
      | some value =>
        refine and_congr_right fun _ => ?_
        rw [valueValidate_list]
        exact exists_congr fun es => and_congr_right fun _ => forall₂_congr fun e _ => accepts e

end Accepted

namespace Schema

variable (dump : Json → String) (s : Schema) (init : Bool) (body : Json)

def Checked : Prop :=
  BodyFits s.cls.marks (Resource.allNames s.children)
    (Resource.AllFit (madeChecks dump) init s.children) body

def Overlooks : Prop := BodyOccurs (Resource.AnyOccurs overlooked init s.children) body

def Refuses : Prop := BodyOccurs (Resource.AnyOccurs refused init s.children) body

variable {dump s init body}

theorem conforms_iff :
    s.Conforms dump init body ↔ s.Checked dump init body ∧ ¬s.Overlooks init body := by
  unfold Conforms Checked Overlooks
  rw [schemaChecks_eq]
  exact bodyFits_without (allFit_without fun c _ ms => fits_without c ms)

theorem accepts_iff :
    bodyValidate dump init s.root body = .ok [] ↔
      s.Checked dump init body ∧ ¬s.Refuses init body := by
  have below := Resource.allWellFormed_iff.1 s.wellFormed.2.1
  have cases : ∀ c ∈ s.children, c.isCase = false := by
    have := s.wellFormed.2.2
    cases h : s.cls with
    | choice mandatory => exact absurd h (s.data.2 mandatory)
    | _ => simpa [h] using this
  unfold Checked Refuses root
  rw [parent_accepts s.data.2 s.wellFormed fun c hc choice ms body members =>
    childOk_iff c (below c hc) choice (cases c hc) members]
  exact bodyFits_without (allFit_without fun c _ ms => fits_without c ms)

end Schema

/-- A body is accepted exactly when it conforms, if it fails a check that is made, or else if both
or neither of the slips touches it. -/
theorem bodyValidate_conforms_iff (dump : Json → String) (s : Schema) (init : Bool) (body : Json) :
    (bodyValidate dump init s.root body = .ok [] ↔ s.Conforms dump init body) ↔
      (s.Checked dump init body → (s.Refuses init body ↔ s.Overlooks init body)) := by
  rw [Schema.accepts_iff, Schema.conforms_iff]
  by_cases checked : s.Checked dump init body
  · simp [checked, not_iff_not]
  · simp [checked]

def eitherSchema : Schema where
  name := "service"
  cls := .generic ⟨true, false, true⟩ false false
  children :=
    [.parent "either" (.choice false)
      [.parent "one" .case [.leaf "a" ⟨⟨true, false, true⟩, ⟨.bool, []⟩, false, false⟩],
       .parent "other" .case [.leaf "b" ⟨⟨true, false, true⟩, ⟨.bool, []⟩, false, false⟩]]]
  data := by simp
  wellFormed := by
    simp [Resource.WellFormed, Resource.AllWellFormed, Resource.allNames, Resource.dataNames,
      Resource.isCase]

/-- The member of a case is taken for unparsed. -/
theorem bodyValidate_case :
    ¬∀ dump s init body,
      bodyValidate dump init s.root body = .ok [] ↔ Schema.Conforms dump s init body := by
  intro h
  have accepted := (h (fun _ => "true") eitherSchema true (.object [("a", .boolean true)])).2
  have errors : bodyValidate (fun _ => "true") true eitherSchema.root
      (.object [("a", .boolean true)]) = .ok [⟨.invalidValue, some "a"⟩] := rfl
  rw [errors] at accepted
  have conforms : eitherSchema.Conforms (fun _ => "true") true
      (.object [("a", .boolean true)]) := by
    refine ⟨rfl, _, rfl, by simp [eitherSchema, Resource.allNames, Resource.dataNames], ?_⟩
    simp [eitherSchema, Resource.AllFit, Resource.Fits, Resource.UsedFit, Used, OneUsed,
      Resource.dataNames, Resource.allNames, schemaChecks, Resource.Writable,
      Resource.isConfiguration, Checks.LeafFits, YangType.encodings, Json.type, List.lookup]
  simpa using accepted conforms

end Polycube.Polycubed.Resources
