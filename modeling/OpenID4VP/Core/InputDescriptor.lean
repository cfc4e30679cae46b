import OpenID4VP.Crates
import OpenID4VP.Core.CredentialFormat

/-! # Input descriptors -/

namespace OpenID4VP

abbrev GroupId := String

variable [SerdeJsonPath] [JsonSchema]

inductive Predicate
  | required
  | preferred
  deriving DecidableEq

instance : Deserialize Predicate :=
  ⟨unitVariant [("required", .required), ("preferred", .preferred)]⟩
instance : Serialize Predicate := ⟨fun
  | .required => .string "required"
  | .preferred => .string "preferred"⟩
instance : LawfulSerde Predicate := ⟨fun p => by cases p <;> rfl⟩

inductive ConstraintsLimitDisclosure
  | required
  | preferred
  deriving DecidableEq

instance : Deserialize ConstraintsLimitDisclosure :=
  ⟨unitVariant [("required", .required), ("preferred", .preferred)]⟩
instance : Serialize ConstraintsLimitDisclosure := ⟨fun
  | .required => .string "required"
  | .preferred => .string "preferred"⟩
instance : LawfulSerde ConstraintsLimitDisclosure := ⟨fun p => by cases p <;> rfl⟩

/-- A JSON Schema that has been compiled. -/
structure CompiledJsonSchema where
  raw : Value
  compiled : JsonSchema.compiles raw.tree = true

namespace CompiledJsonSchema

def ofValue? (raw : Value) : Option CompiledJsonSchema :=
  if h : JsonSchema.compiles raw.tree = true then some ⟨raw, h⟩ else none

def validate (schema : CompiledJsonSchema) (value : Json) : Bool :=
  JsonSchema.isValid schema.raw.tree value

instance : Deserialize CompiledJsonSchema := ⟨fun x => do ofValue? (← fromTree x)⟩
instance : Serialize CompiledJsonSchema := ⟨fun s => toTree s.raw⟩
instance : LawfulSerde CompiledJsonSchema := ⟨fun s => by
  change (do ofValue? (← fromTree (toTree s.raw))) = _
  simp [ofValue?, s.compiled]⟩

end CompiledJsonSchema

structure ConstraintsField where
  id : Option String
  name : Option String
  purpose : Option String
  path : NonEmptyVec JsonPath
  «optional» : Option Bool
  filter : Option CompiledJsonSchema
  predicate : Option Predicate
  intentToRetain : Bool

inductive FieldQueryResult
  | predicate (b : Bool)
  | value (x : Json)

namespace ConstraintsField

instance : Deserialize ConstraintsField := ⟨fun x => do
  let f ← structFields ["id", "name", "purpose", "path", "optional", "filter", "predicate",
    "intent_to_retain"] x
  return {
    id := ← (f "id").optional
    name := ← (f "name").optional
    purpose := ← (f "purpose").optional
    path := ← (f "path").required
    «optional» := ← (f "optional").optional
    filter := ← (f "filter").optional
    predicate := ← (f "predicate").optional
    intentToRetain := ← (f "intent_to_retain").orDefault false }⟩

instance : Serialize ConstraintsField := ⟨fun field => .object <|
  optionalMember "id" field.id ++ optionalMember "name" field.name ++
  optionalMember "purpose" field.purpose ++ member "path" field.path ++
  optionalMember "optional" field.optional ++ optionalMember "filter" field.filter ++
  nullableMember "predicate" field.predicate ++
  member "intent_to_retain" field.intentToRetain⟩

def isOptional (field : ConstraintsField) : Bool := field.optional.getD false

def isRequired (field : ConstraintsField) : Bool := !field.isOptional

/-- The candidate passes the filter, if there is one. -/
def passes (field : ConstraintsField) (candidate : Json) : Bool :=
  match field.filter with
  | some filter => filter.validate candidate
  | none => true

/-- The first candidate of a path that passes the filter. -/
def queryPath (field : ConstraintsField) : List Json → Option FieldQueryResult
  | [] => none
  | candidate :: candidates =>
    if field.passes candidate then
      match field.predicate with
      | some _ => some (.predicate true)
      | none => some (.value candidate)
    else field.queryPath candidates

/-- Field query: the paths are tried in their order. -/
def queryPaths (field : ConstraintsField) (value : Json) : List JsonPath → Option FieldQueryResult
  | [] => none
  | path :: paths =>
    match field.queryPath (SerdeJsonPath.query path value) with
    | some r => some r
    | none => field.queryPaths value paths

def query (field : ConstraintsField) (value : Json) : Option FieldQueryResult :=
  field.queryPaths value field.path.toList

end ConstraintsField

structure Constraints where
  fields : List ConstraintsField
  limitDisclosure : Option ConstraintsLimitDisclosure

namespace Constraints

def new : Constraints := ⟨[], none⟩

instance : Deserialize Constraints := ⟨fun x => do
  let f ← structFields ["fields", "limit_disclosure"] x
  return {
    fields := ← (f "fields").required
    limitDisclosure := ← (f "limit_disclosure").optional }⟩

instance : Serialize Constraints := ⟨fun c => .object <|
  (if c.fields.isEmpty then [] else member "fields" c.fields) ++
  optionalMember "limit_disclosure" c.limitDisclosure⟩

def isEmpty (c : Constraints) : Bool := c.fields.isEmpty

def «matches» (c : Constraints) (value : Json) : Bool :=
  c.fields.all fun field => !((field.query value).isNone && field.isRequired)

/-- A value matches exactly when every required field has a result in it. -/
theorem matches_iff {c : Constraints} {value : Json} :
    c.matches value = true ↔
      ∀ field ∈ c.fields, field.isRequired = true → (field.query value).isSome = true := by
  simp only [Constraints.matches, List.all_eq_true]
  refine forall₂_congr fun field _ => ?_
  cases field.query value <;> cases field.isRequired <;> simp

end Constraints

structure InputDescriptor where
  id : String
  constraints : Constraints
  name : Option String
  purpose : Option String
  format : ClaimFormatMap
  groups : List GroupId

namespace InputDescriptor

def new (id : String) (constraints : Constraints) : InputDescriptor :=
  ⟨id, constraints, none, none, .empty, []⟩

instance : Deserialize InputDescriptor := ⟨fun x => do
  let f ← structFields ["id", "constraints", "name", "purpose", "format", "group"] x
  return {
    id := ← (f "id").required
    constraints := ← (f "constraints").orDefault .new
    name := ← (f "name").optional
    purpose := ← (f "purpose").optional
    format := ← (f "format").orDefault .empty
    groups := ← (f "group").orDefault [] }⟩

instance : Serialize InputDescriptor := ⟨fun d => .object <|
  member "id" d.id ++ member "constraints" d.constraints ++ optionalMember "name" d.name ++
  optionalMember "purpose" d.purpose ++
  (if d.format.isEmpty then [] else member "format" d.format) ++
  (if d.groups.isEmpty then [] else member "group" d.groups)⟩

end InputDescriptor
end OpenID4VP
