import Polycube.Polycubed.Resources

/-!
# Bodies that conform to a schema

What a data model asks of a body, stated once for a choice of checks (`Checks`): of the value of a
leaf, of a child that is absent, and of the members that belong to a choice.  `Resource.Fits` says
that they hold wherever the body has, or lacks, what they are about, and `Resource.Occurs` that they
hold somewhere.
-/

namespace Polycube.Polycubed.Resources

/-! ### Schemas -/

theorem Resource.induction {motive : Resource → Prop}
    (leaf : ∀ name l, motive (.leaf name l))
    (parent : ∀ name cls children, (∀ c ∈ children, motive c) → motive (.parent name cls children))
    (r : Resource) : motive r := by
  refine Resource.rec (motive_2 := fun cs => ∀ c ∈ cs, motive c) leaf parent ?_ ?_ r
  · simp
  · intro c cs hc hcs
    simpa using ⟨hc, hcs⟩

namespace Resource

def isChoice : Resource → Bool
  | parent _ (.choice _) _ => true
  | _ => false

def isCase : Resource → Bool
  | parent _ .case _ => true
  | _ => false

mutual

def dataNames : Resource → List String
  | leaf name _ => [name]
  | parent name cls children =>
    match cls with
    | .generic _ _ _ | .list _ => [name]
    | .case | .choice _ => allNames children

def allNames : List Resource → List String
  | [] => []
  | child :: children => child.dataNames ++ allNames children

end

mutual

/-- A data model has a case for each alternative of a choice, has cases nowhere else, and gives the
data nodes of a parent different names. -/
def WellFormed : Resource → Prop
  | leaf _ _ => True
  | parent _ cls children =>
    (allNames children).Nodup ∧ AllWellFormed children ∧
      match cls with
      | .choice _ => ∀ c ∈ children, c.isCase = true
      | _ => ∀ c ∈ children, c.isCase = false

def AllWellFormed : List Resource → Prop
  | [] => True
  | child :: children => child.WellFormed ∧ AllWellFormed children

end

theorem allWellFormed_iff {cs : List Resource} : AllWellFormed cs ↔ ∀ c ∈ cs, c.WellFormed := by
  induction cs with
  | nil => simp [AllWellFormed]
  | cons c cs ih => simp [AllWellFormed, ih]

theorem mem_allNames {cs : List Resource} {n : String} :
    n ∈ allNames cs ↔ ∃ c ∈ cs, n ∈ c.dataNames := by
  induction cs with
  | nil => simp [allNames]
  | cons c cs ih => simp [allNames, ih]

mutual

def Mandatory : Resource → Bool
  | leaf _ l => l.mandatory
  | parent _ cls children =>
    match cls with
    | .generic _ presence rpc => !presence && !rpc && AnyMandatory children
    | .choice mandatory => mandatory
    | .case => AnyMandatory children
    | .list _ => false

def AnyMandatory : List Resource → Bool
  | [] => false
  | child :: children => child.Mandatory || AnyMandatory children

end

end Resource

structure Schema where
  name : String
  cls : ParentClass
  children : List Resource
  data : cls ≠ .case ∧ ∀ mandatory, cls ≠ .choice mandatory
  wellFormed : (Resource.parent name cls children).WellFormed

def Schema.root (s : Schema) : Resource := .parent s.name s.cls s.children

/-! ### Bodies -/

def Json.members : Json → Option (List (String × Json))
  | .object ms => some ms
  | .null | .array [] => some []
  | _ => none

def Used (ms : List (String × Json)) (alternative : Resource) : Prop :=
  ∃ n ∈ alternative.dataNames, ms.lookup n ≠ none

def OneUsed (ms : List (String × Json)) (alternatives : List Resource) : Prop :=
  alternatives.Pairwise fun a b => ¬(Used ms a ∧ Used ms b)

def Resource.Writable (init : Bool) (r : Resource) : Prop :=
  r.isConfiguration = true ∧ (init = true ∨ r.isInitOnlyConfig = false)

@[ext] structure Checks where
  leaf : JsonValueField → Json → Prop
  absent : Bool → Resource → Prop
  /-- of a choice by its cases -/
  choice : Bool → Bool → List Resource → List (String × Json) → Prop

namespace Checks

variable (P : Checks)

def LeafFits (l : Leaf) (value : Json) : Prop :=
  l.marks.nodeFields = true ∧
    if l.isList then ∃ es, value = .array es ∧ ∀ e ∈ es, P.leaf l.field e
    else P.leaf l.field value

def LeafOccurs (l : Leaf) (value : Json) : Prop :=
  if l.isList then ∃ es, value = .array es ∧ ∃ e ∈ es, P.leaf l.field e else P.leaf l.field value

end Checks

/-- Every member is known, and the members are as `fit` says. -/
def BodyFits (marks : Marks) (names : List String) (fit : List (String × Json) → Prop)
    (body : Json) : Prop :=
  marks.nodeFields = true ∧
    ∃ ms, body.members = some ms ∧ (∀ m ∈ ms, m.1 ∈ names) ∧ fit ms

def BodyOccurs (occur : List (String × Json) → Prop) (body : Json) : Prop :=
  ∃ ms, body.members = some ms ∧ occur ms

namespace Resource

variable (P : Checks) (init : Bool)

mutual

def Fits : Resource → List (String × Json) → Prop
  | leaf name l, ms =>
    match ms.lookup name with
    | none => P.absent init (leaf name l)
    | some value => Writable init (leaf name l) ∧ P.LeafFits l value
  | parent name cls children, ms =>
    match cls with
    | .generic marks _ _ =>
      match ms.lookup name with
      | none => P.absent init (parent name cls children)
      | some value => Writable init (parent name cls children) ∧
          BodyFits marks (allNames children) (AllFit children) value
    | .list marks =>
      match ms.lookup name with
      | none => P.absent init (parent name cls children)
      | some value => Writable init (parent name cls children) ∧
          ∃ es, value = .array es ∧
            ∀ e ∈ es, BodyFits marks (allNames children) (AllFit children) e
    | .case => AllFit children ms
    | .choice mandatory => P.choice init mandatory children ms ∧ UsedFit children ms

def AllFit : List Resource → List (String × Json) → Prop
  | [], _ => True
  | child :: children, ms => child.Fits ms ∧ AllFit children ms

def UsedFit : List Resource → List (String × Json) → Prop
  | [], _ => True
  | child :: children, ms => (Used ms child → child.Fits ms) ∧ UsedFit children ms

end

mutual

def Occurs : Resource → List (String × Json) → Prop
  | leaf name l, ms =>
    match ms.lookup name with
    | none => P.absent init (leaf name l)
    | some value => P.LeafOccurs l value
  | parent name cls children, ms =>
    match cls with
    | .generic _ _ _ =>
      match ms.lookup name with
      | none => P.absent init (parent name cls children)
      | some value => BodyOccurs (AnyOccurs children) value
    | .list _ =>
      match ms.lookup name with
      | none => P.absent init (parent name cls children)
      | some value => ∃ es, value = .array es ∧ ∃ e ∈ es, BodyOccurs (AnyOccurs children) e
    | .case => AnyOccurs children ms
    | .choice mandatory => P.choice init mandatory children ms ∨ UsedOccurs children ms

def AnyOccurs : List Resource → List (String × Json) → Prop
  | [], _ => False
  | child :: children, ms => child.Occurs ms ∨ AnyOccurs children ms

def UsedOccurs : List Resource → List (String × Json) → Prop
  | [], _ => False
  | child :: children, ms => Used ms child ∧ child.Occurs ms ∨ UsedOccurs children ms

end

variable {P init} {cs : List Resource} {ms : List (String × Json)}

theorem allFit_iff : AllFit P init cs ms ↔ ∀ c ∈ cs, c.Fits P init ms := by
  induction cs with
  | nil => simp [AllFit]
  | cons c cs ih => simp [AllFit, ih]

theorem usedFit_iff : UsedFit P init cs ms ↔ ∀ c ∈ cs, Used ms c → c.Fits P init ms := by
  induction cs with
  | nil => simp [UsedFit]
  | cons c cs ih => simp [UsedFit, ih]

theorem anyOccurs_iff : AnyOccurs P init cs ms ↔ ∃ c ∈ cs, c.Occurs P init ms := by
  induction cs with
  | nil => simp [AnyOccurs]
  | cons c cs ih => simp [AnyOccurs, ih]

theorem usedOccurs_iff :
    UsedOccurs P init cs ms ↔ ∃ c ∈ cs, Used ms c ∧ c.Occurs P init ms := by
  induction cs with
  | nil => simp [UsedOccurs]
  | cons c cs ih => simp [UsedOccurs, ih]

end Resource

def YangType.encodings : YangType → List ValueType
  | bool => [.boolean]
  | empty => [.array]
  | binary | bits | enum | inst | leafref | string => [.string]
  | int8 | int16 | int32 => [.integer, .unsigned]
  | uint8 | uint16 | uint32 => [.unsigned]
  | int64 => [.string, .integer, .unsigned]
  | uint64 => [.string, .unsigned]
  | dec64 => [.string, .float, .integer, .unsigned]
  | union => [.array, .string, .boolean, .integer, .unsigned, .float]

/-- `[null]`, the value of a leaf with empty type. -/
def Json.isEmptyLeaf : Json → Bool
  | .array [.null] => true
  | _ => false

def Json.isSingleton : Json → Bool
  | .array [_] => true
  | _ => false

/-- The only array among the scalars is `[null]`. -/
def schemaChecks (dump : Json → String) : Checks where
  leaf f value := f.validators.all (· (value.text dump)) = true ∧
    value.type ∈ f.type.encodings ∧ (value.type = .array → value.isEmptyLeaf = true)
  absent init r := ¬(init = true ∧ r.Mandatory = true)
  choice init mandatory cs ms :=
    OneUsed ms cs ∧ (init = true → mandatory = true → ∃ c ∈ cs, Used ms c)

def Schema.Conforms (dump : Json → String) (s : Schema) (init : Bool) (body : Json) : Prop :=
  BodyFits s.cls.marks (Resource.allNames s.children)
    (Resource.AllFit (schemaChecks dump) init s.children) body

/-- The checks of `P` where none of `R` holds. -/
def Checks.without (P R : Checks) : Checks where
  leaf f value := P.leaf f value ∧ ¬R.leaf f value
  absent init r := P.absent init r ∧ ¬R.absent init r
  choice init mandatory cs ms := P.choice init mandatory cs ms ∧ ¬R.choice init mandatory cs ms

section Without

variable {P R : Checks} {init : Bool}

theorem leafFits_without {l : Leaf} {value : Json} :
    (P.without R).LeafFits l value ↔ P.LeafFits l value ∧ ¬R.LeafOccurs l value := by
  unfold Checks.LeafFits Checks.LeafOccurs Checks.without
  split
  · constructor
    · rintro ⟨marks, es, rfl, each⟩
      refine ⟨⟨marks, es, rfl, fun e he => (each e he).1⟩, ?_⟩
      rintro ⟨es', h, e, he, occurs⟩
      obtain rfl := Json.array.inj h
      exact (each e he).2 occurs
    · rintro ⟨⟨marks, es, rfl, each⟩, none⟩
      exact ⟨marks, es, rfl, fun e he => ⟨each e he, fun occurs => none ⟨es, rfl, e, he, occurs⟩⟩⟩
  · rw [and_assoc]

theorem bodyFits_without {marks : Marks} {names : List String}
    {fit fit' occur : List (String × Json) → Prop} {body : Json}
    (h : ∀ ms, fit' ms ↔ fit ms ∧ ¬occur ms) :
    BodyFits marks names fit' body ↔ BodyFits marks names fit body ∧ ¬BodyOccurs occur body := by
  unfold BodyFits BodyOccurs
  constructor
  · rintro ⟨marked, ms, members, known, fits⟩
    obtain ⟨fits, not⟩ := (h ms).1 fits
    refine ⟨⟨marked, ms, members, known, fits⟩, ?_⟩
    rintro ⟨ms', members', occurs⟩
    obtain rfl := Option.some.inj (members.symm.trans members')
    exact not occurs
  · rintro ⟨⟨marked, ms, members, known, fits⟩, not⟩
    exact ⟨marked, ms, members, known, (h ms).2 ⟨fits, fun occurs => not ⟨ms, members, occurs⟩⟩⟩

theorem allFit_without {cs : List Resource}
    (h : ∀ c ∈ cs, ∀ ms, c.Fits (P.without R) init ms ↔ c.Fits P init ms ∧ ¬c.Occurs R init ms)
    (ms : List (String × Json)) :
    Resource.AllFit (P.without R) init cs ms ↔
      Resource.AllFit P init cs ms ∧ ¬Resource.AnyOccurs R init cs ms := by
  rw [Resource.allFit_iff, Resource.allFit_iff, Resource.anyOccurs_iff]
  constructor
  · intro all
    refine ⟨fun c hc => ((h c hc ms).1 (all c hc)).1, ?_⟩
    rintro ⟨c, hc, occurs⟩
    exact ((h c hc ms).1 (all c hc)).2 occurs
  · rintro ⟨all, none⟩ c hc
    exact (h c hc ms).2 ⟨all c hc, fun occurs => none ⟨c, hc, occurs⟩⟩

/-- A resource fits without `R` when it fits and `R` occurs nowhere. -/
theorem fits_without (r : Resource) (ms : List (String × Json)) :
    r.Fits (P.without R) init ms ↔ r.Fits P init ms ∧ ¬r.Occurs R init ms := by
  induction r using Resource.induction generalizing ms with
  | leaf name l =>
    unfold Resource.Fits Resource.Occurs
    split
    · exact Iff.rfl
    · rw [leafFits_without, and_assoc]
  | parent name cls children ih =>
    have all := allFit_without ih
    cases cls with
    | generic marks presence rpc =>
      simp only [Resource.Fits, Resource.Occurs]
      split
      · exact Iff.rfl
      · rw [bodyFits_without all, and_assoc]
    | list marks =>
      simp only [Resource.Fits, Resource.Occurs]
      split
      · exact Iff.rfl
      · rw [and_assoc]
        refine and_congr_right fun _ => ?_
        constructor
        · rintro ⟨es, rfl, each⟩
          have each := fun e he => (bodyFits_without all).1 (each e he)
          refine ⟨⟨es, rfl, fun e he => (each e he).1⟩, ?_⟩
          rintro ⟨es', h, e, he, occurs⟩
          obtain rfl := Json.array.inj h
          exact (each e he).2 occurs
        · rintro ⟨⟨es, rfl, each⟩, none⟩
          exact ⟨es, rfl, fun e he => (bodyFits_without all).2
            ⟨each e he, fun occurs => none ⟨es, rfl, e, he, occurs⟩⟩⟩
    | case =>
      simp only [Resource.Fits, Resource.Occurs]
      exact all ms
    | choice mandatory =>
      simp only [Resource.Fits, Resource.Occurs, Resource.usedFit_iff, Resource.usedOccurs_iff]
      constructor
      · rintro ⟨⟨choice, not⟩, used⟩
        refine ⟨⟨choice, fun c hc u => ((ih c hc ms).1 (used c hc u)).1⟩, ?_⟩
        rintro (occurs | ⟨c, hc, u, occurs⟩)
        · exact not occurs
        · exact ((ih c hc ms).1 (used c hc u)).2 occurs
      · rintro ⟨⟨choice, used⟩, not⟩
        exact ⟨⟨choice, fun occurs => not (.inl occurs)⟩, fun c hc u =>
          (ih c hc ms).2 ⟨used c hc u, fun occurs => not (.inr ⟨c, hc, u, occurs⟩)⟩⟩

end Without

end Polycube.Polycubed.Resources
