import Mathlib.Data.Int.Notation
import Mathlib.Data.List.Basic

/-!
# Request bodies

The tree of resources that a data model is read into, and what each class does in `BodyValidate`
with the body of a request.  A request that initialises the resource has `init`.  Values are
nlohmann's; their text, `dump`, is a parameter.
-/

namespace Polycube.Polycubed.Resources

inductive Json
  | null
  | boolean (b : Bool)
  | integer (i : ℤ)
  | unsigned (n : ℕ)
  | float (text : String)
  | string (s : String)
  | array (elements : List Json)
  | object (members : List (String × Json))

/-- `value_t` -/
inductive ValueType
  | null | boolean | integer | unsigned | float | string | array | object
  deriving DecidableEq

namespace Json

def type : Json → ValueType
  | null => .null
  | boolean _ => .boolean
  | integer _ => .integer
  | unsigned _ => .unsigned
  | float _ => .float
  | string _ => .string
  | array _ => .array
  | object _ => .object

def empty : Json → Bool
  | null => true
  | array es => es.isEmpty
  | object ms => ms.isEmpty
  | _ => false

/-- `count` and `operator[]`.  Only objects have members. -/
def find? : Json → String → Option Json
  | object ms, name => ms.lookup name
  | _, _ => none

def erase : Json → String → Json
  | object ms, name => object (ms.filter (·.1 != name))
  | value, _ => value

/-- What `items` goes through: an array has its indices for keys, a scalar is one item. -/
def items : Json → List (String × Json)
  | null => []
  | array es => es.mapIdx fun i e => (toString i, e)
  | object ms => ms
  | value => [("", value)]

end Json

/-! ### Scalars -/

/-- `LY_DATA_TYPE`, less the types that `FromYangType` refuses. -/
inductive YangType
  | binary | bits | bool | dec64 | empty | enum | inst | leafref | string
  | int8 | uint8 | int16 | uint16 | int32 | uint32 | int64 | uint64 | union
  deriving DecidableEq

/-- `FromYangType` -/
def YangType.allowedTypes : YangType → List ValueType
  | bool => [.boolean]
  | empty => [.array]
  | binary | bits | enum | inst | leafref | string => [.string]
  | int64 => [.string, .integer]
  | uint64 => [.string, .unsigned]
  | dec64 => [.string, .float]
  | int8 | int16 | int32 => [.unsigned, .integer]
  | uint8 | uint16 | uint32 => [.unsigned]
  | union => [.array, .string, .boolean, .integer, .unsigned, .float]

inductive ErrorTag
  | ok | invalidValue | missingAttribute | badAttribute | unparsableChoice
  deriving DecidableEq

structure Response where
  errorTag : ErrorTag
  message : Option String
  deriving DecidableEq

/-- What `BodyValidate` returns or throws. -/
abbrev Validation := Except String (List Response)

structure JsonValueField where
  type : YangType
  validators : List (String → Bool)

variable (dump : Json → String)

def Json.text : Json → String
  | .string s => s
  | .null => ""
  | value => dump value

def JsonValueField.validate (f : JsonValueField) (value : Json) : Except String ErrorTag :=
  let check := if f.validators.all (· (value.text dump)) then .ok .ok else .ok .badAttribute
  if value.type ∉ f.type.allowedTypes then .ok .badAttribute
  else match value with
    | .array es =>
      match es with
      | [.null] | [] | _ :: _ :: _ =>
        throw "Only array considered scalar type is a leaf with empty type, represented as [null]"
      | [_] => check
    | .object _ => throw "Only scalar type can reach this point"
    | _ => check

/-- What every resource but a choice or a case is made with.  `nodeFields` is whether the conditions
of its `when` hold, for the cube and keys of the request. -/
structure Marks where
  configuration : Bool
  initOnlyConfig : Bool
  nodeFields : Bool
  deriving DecidableEq

/-- A `LeafResource`, or a `LeafListResource`. -/
structure Leaf where
  marks : Marks
  field : JsonValueField
  mandatory : Bool
  isList : Bool

/-- `LeafResource::BodyValidate` -/
def Leaf.scalarValidate (l : Leaf) (name : String) (body : Json) : Validation :=
  if body.empty then return [⟨.missingAttribute, some name⟩]
  else if !l.marks.nodeFields then return [⟨.badAttribute, some name⟩]
  else do
    let tag ← l.field.validate dump body
    return if tag ≠ .ok then [⟨tag, some name⟩] else []

def validateAll (validate : Json → Validation) : List Json → Validation
  | [] => return []
  | e :: es => do
    let errors ← validate e
    let more ← validateAll validate es
    return errors ++ more

def Leaf.bodyValidate (l : Leaf) (name : String) (body : Json) : Validation :=
  if l.isList then
    match body with
    | .array es =>
      if !l.marks.nodeFields then return [⟨.badAttribute, some name⟩]
      else validateAll (l.scalarValidate dump name) es
    | _ => return [⟨.badAttribute, some name⟩]
  else l.scalarValidate dump name body

/-- The classes derived from `ParentResource`, and itself. -/
inductive ParentClass
  | generic (marks : Marks) (containerPresence rpcAction : Bool)
  | list (marks : Marks)
  | case
  | choice (mandatory : Bool)
  deriving DecidableEq

def ParentClass.marks : ParentClass → Marks
  | generic marks _ _ | list marks => marks
  | case | choice _ => ⟨false, false, true⟩

inductive Resource
  | leaf (name : String) (l : Leaf)
  | parent (name : String) (cls : ParentClass) (children : List Resource)

namespace Resource

def name : Resource → String
  | leaf name _ | parent name _ _ => name

def isInitOnlyConfig : Resource → Bool
  | leaf _ l => l.marks.initOnlyConfig
  | parent _ cls _ => cls.marks.initOnlyConfig

mutual

def isConfiguration : Resource → Bool
  | leaf _ l => l.marks.configuration
  | parent _ cls children => cls.marks.configuration || anyConfiguration children

def anyConfiguration : List Resource → Bool
  | [] => false
  | child :: children => child.isConfiguration || anyConfiguration children

end

mutual

/-- `IsMandatory`, which for a choice is asked with whether its parent is a case. -/
def isMandatory (inCase : Bool) : Resource → Bool
  | leaf _ l => l.mandatory
  | parent _ cls children =>
    match cls with
    | .generic _ presence rpc => !presence && !rpc && anyMandatory false children
    | .list _ => false
    | .case => anyMandatory true children
    | .choice mandatory => mandatory && inCase

def anyMandatory (inCase : Bool) : List Resource → Bool
  | [] => false
  | child :: children => child.isMandatory inCase || anyMandatory inCase children

end

end Resource

/-- `ListResource::BodyValidateMultiple` -/
def validateMultiple (validate : Json → Validation) : Json → Validation
  | .array es => validateAll validate es
  | _ => return [⟨.invalidValue, none⟩]

/-- The variables of `ChoiceResource::BodyValidate`. -/
structure Progress where
  parsedChild : Bool
  errors : List Response
  body : Json

def Progress.fail (p : Progress) (error : Response) : Progress :=
  { p with errors := p.errors ++ [error] }

def Progress.after (p : Progress) (name : String) (childErrors : List Response) : Progress :=
  if childErrors.isEmpty then
    if p.parsedChild && p.errors.isEmpty then p.fail ⟨.badAttribute, some name⟩
    else { p with parsedChild := true }
  else p

def Progress.result (p : Progress) : List Response :=
  if p.errors.isEmpty || !p.parsedChild then p.errors ++ [⟨.unparsableChoice, none⟩] else p.errors

def keepErrors (choiceErrors : List Response) : List Response :=
  if choiceErrors.head?.map Response.errorTag = some .unparsableChoice then [] else choiceErrors

mutual

/-- `ParentResource::BodyValidate`, and that of leaves. -/
def bodyValidate (init : Bool) : Resource → Json → Validation
  | .leaf name l, body => l.bodyValidate dump name body
  | .parent name cls children, body =>
    if !cls.marks.nodeFields then return [⟨.badAttribute, some name⟩]
    else do
      let (errors, rest) ← validateChildren init children [] body
      let (errors, rest) ← validateChoices init (cls = .case) children errors rest
      return errors ++ rest.items.map fun unparsed => ⟨.invalidValue, some unparsed.1⟩

/-- The loop over `children_`, which leaves the choices for later. -/
def validateChildren (init : Bool) :
    List Resource → List Response → Json → Except String (List Response × Json)
  | [], errors, rest => return (errors, rest)
  | .parent _ (.choice _) _ :: children, errors, rest => validateChildren init children errors rest
  | child :: children, errors, rest =>
    match rest.find? child.name with
    | none =>
      let missing := init && child.isMandatory false
      validateChildren init children
        (if missing then errors ++ [⟨.missingAttribute, some child.name⟩] else errors) rest
    | some value =>
      if !child.isConfiguration || (!init && child.isInitOnlyConfig) then
        validateChildren init children (errors ++ [⟨.invalidValue, some child.name⟩]) rest
      else do
        let childErrors ←
          match child with
          | .parent _ (.list _) _ => validateMultiple (bodyValidate init child) value
          | _ => bodyValidate init child value
        validateChildren init children (errors ++ childErrors) (rest.erase child.name)

def validateChoices (init inCase : Bool) :
    List Resource → List Response → Json → Except String (List Response × Json)
  | [], errors, rest => return (errors, rest)
  | .parent name (.choice mandatory) alternatives :: children, errors, rest => do
    let p ← validateAlternatives init (mandatory && inCase) name alternatives ⟨false, [], rest⟩
    validateChoices init inCase children (errors ++ keepErrors p.result) p.body
  | _ :: children, errors, rest => validateChoices init inCase children errors rest

/-- The loop of `ChoiceResource::BodyValidate`.  A case is given the whole body; errors of a case or
a choice are not kept. -/
def validateAlternatives (init isMandatory : Bool) (name : String) :
    List Resource → Progress → Except String Progress
  | [], p => return p
  | .parent inner (.choice _) alternatives :: children, p => do
    let q ← validateAlternatives init false inner alternatives ⟨false, [], p.body⟩
    validateAlternatives init isMandatory name children
      ({ p with body := q.body }.after name q.result)
  | child :: children, p =>
    if child matches .parent _ .case _ then do
      let childErrors ← bodyValidate init child p.body
      validateAlternatives init isMandatory name children (p.after name childErrors)
    else match p.body.find? child.name with
      | none =>
        let missing := init && isMandatory && child.isMandatory false
        let p := if missing then p.fail ⟨.missingAttribute, some child.name⟩ else p
        validateAlternatives init isMandatory name children (p.after name [])
      | some value =>
        if !child.isConfiguration || (!init && child.isInitOnlyConfig) then
          validateAlternatives init isMandatory name children
            ((p.fail ⟨.invalidValue, none⟩).after name [])
        else do
          let childErrors ← bodyValidate (init && isMandatory) child value
          validateAlternatives init isMandatory name children
            ({ p with errors := p.errors ++ childErrors, body := p.body.erase child.name }.after name
              childErrors)

end

end Polycube.Polycubed.Resources
