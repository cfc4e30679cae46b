import Mathlib.Data.List.Dedup
import OpenID4VP.Core.InputDescriptor
import OpenID4VP.Core.Object

/-! # Presentation definitions -/

namespace OpenID4VP

variable [SerdeJsonPath] [JsonSchema]

/-! ## Submission requirements -/

structure SubmissionRequirementObject where
  name : Option String
  purpose : Option String
  propertySet : Option JsonMap

mutual
inductive SubmissionRequirementBase
  | «from» («from» : GroupId) (submissionRequirementBase : SubmissionRequirementObject)
  | fromNested (fromNested : List SubmissionRequirement)
    (submissionRequirementBase : SubmissionRequirementObject)

inductive SubmissionRequirement
  | all (base : SubmissionRequirementBase)
  | pick (pick : SubmissionRequirementPick)

inductive SubmissionRequirementPick
  | mk (submissionRequirement : SubmissionRequirementBase) (count min max : Option UInt64)
end

namespace SubmissionRequirementPick

def submissionRequirement : SubmissionRequirementPick → SubmissionRequirementBase
  | mk base _ _ _ => base

def count : SubmissionRequirementPick → Option UInt64
  | mk _ count _ _ => count

def min : SubmissionRequirementPick → Option UInt64
  | mk _ _ min _ => min

def max : SubmissionRequirementPick → Option UInt64
  | mk _ _ _ max => max

end SubmissionRequirementPick

/-! ### Reading requirements

A requirement is an object tagged with its rule. The members that no field takes stay as the
property set. The requirements inside `from_nested` are read from buffered contents, where the
variant may also be given by its number. -/

namespace SubmissionRequirement

inductive Rule
  | all
  | pick

def Rule.read (buffered : Bool) : Json → Option Rule
  | .string s => [("all", Rule.all), ("pick", Rule.pick)].lookup s
  | .number (.posInt n) =>
    if buffered then (if n = 0 then some .all else if n = 1 then some .pick else none) else none
  | _ => none

def readObject (ms : List (String × Json)) : Option SubmissionRequirementObject := do
  let rest ← takeNames ["name", "purpose"] ms
  return {
    name := ← (memberSlot ms "name").optional
    purpose := ← (memberSlot ms "purpose").optional
    propertySet := some (.ofMembers rest) }

def readFrom (ms : List (String × Json)) : Option SubmissionRequirementBase := do
  let rest ← takeNames ["from"] ms
  return .from (← (memberSlot ms "from").required) (← readObject rest)

/-- `nested` are the members, each read as a list of requirements. -/
def readFromNested (ms : List (String × Json))
    (nested : List (String × Option (List SubmissionRequirement))) :
    Option SubmissionRequirementBase := do
  let rest ← takeNames ["from_nested"] ms
  return .fromNested (← (nested.lookup "from_nested").join) (← readObject rest)

def readBase (ms : List (String × Json))
    (nested : List (String × Option (List SubmissionRequirement))) :
    Option SubmissionRequirementBase :=
  readFrom ms <|> readFromNested ms nested

def readTagged (buffered : Bool) (ms : List (String × Json))
    (nested : List (String × Option (List SubmissionRequirement))) :
    Option SubmissionRequirement := do
  let rest ← takeNames ["rule"] ms
  match ← (← ms.lookup "rule") |> Rule.read buffered with
  | .all => return .all (← readBase rest nested)
  | .pick =>
    let rest' ← takeNames ["count", "min", "max"] rest
    return .pick (.mk (← readBase rest' nested) (← (memberSlot rest "count").optional)
      (← (memberSlot rest "min").optional) (← (memberSlot rest "max").optional))

mutual
def read (buffered : Bool) : Json → Option SubmissionRequirement
  | .object ms => readTagged buffered ms (readMembers ms)
  | _ => none

def readElements : List Json → Option (List SubmissionRequirement)
  | [] => some []
  | x :: xs => do return (← read true x) :: (← readElements xs)

def readMembers : List (String × Json) → List (String × Option (List SubmissionRequirement))
  | [] => []
  | (k, .array xs) :: ms => (k, readElements xs) :: readMembers ms
  | (k, _) :: ms => (k, none) :: readMembers ms
end

instance : Deserialize SubmissionRequirement := ⟨read false⟩

def writeObject (o : SubmissionRequirementObject) : List (String × Json) :=
  nullableMember "name" o.name ++ nullableMember "purpose" o.purpose ++
  match o.propertySet with
  | some m => m.entries
  | none => []

mutual
def write : SubmissionRequirement → Json
  | .all base => .object (("rule", .string "all") :: writeBase base)
  | .pick (.mk base count min max) => .object (("rule", .string "pick") :: (writeBase base ++
    nullableMember "count" count ++ nullableMember "min" min ++ nullableMember "max" max))

def writeBase : SubmissionRequirementBase → List (String × Json)
  | .from group o => ("from", .string group) :: writeObject o
  | .fromNested rs o => ("from_nested", .array (writeList rs)) :: writeObject o

def writeList : List SubmissionRequirement → List Json
  | [] => []
  | r :: rs => write r :: writeList rs
end

instance : Serialize SubmissionRequirement := ⟨write⟩

end SubmissionRequirement

/-! ## Definitions -/

structure PresentationDefinition where
  id : String
  inputDescriptors : List InputDescriptor
  submissionRequirements : Option (List SubmissionRequirement)
  name : Option String
  purpose : Option String
  format : ClaimFormatMap

namespace PresentationDefinition

def new (id : String) (inputDescriptor : InputDescriptor) : PresentationDefinition :=
  ⟨id, [inputDescriptor], none, none, none, .empty⟩

instance : Deserialize PresentationDefinition := ⟨fun x => do
  let f ← structFields ["id", "input_descriptors", "submission_requirements", "name", "purpose",
    "format"] x
  return {
    id := ← (f "id").required
    inputDescriptors := ← (f "input_descriptors").required
    submissionRequirements := ← (f "submission_requirements").optional
    name := ← (f "name").optional
    purpose := ← (f "purpose").optional
    format := ← (f "format").orDefault .empty }⟩

instance : Serialize PresentationDefinition := ⟨fun d => .object <|
  member "id" d.id ++ member "input_descriptors" d.inputDescriptors ++
  optionalMember "submission_requirements" d.submissionRequirements ++
  optionalMember "name" d.name ++ optionalMember "purpose" d.purpose ++
  (if d.format.isEmpty then [] else member "format" d.format)⟩

instance [SerdeJson] : TypedParameter PresentationDefinition where
  key := "presentation_definition"
  tryFrom := fromStringOrValue
  intoJson := toTree

/-- The input descriptors by their ids. -/
def inputDescriptorsMap (d : PresentationDefinition) : List (String × InputDescriptor) :=
  Members.collect (d.inputDescriptors.map fun desc => (desc.id, desc))

/-- Of the input descriptors with one id the map has the last one. -/
theorem lookup_inputDescriptorsMap (d : PresentationDefinition) (id : String) :
    d.inputDescriptorsMap.lookup id =
      d.inputDescriptors.reverse.find? fun desc => id = desc.id := by
  rw [inputDescriptorsMap, Members.lookup_collect, ← List.map_reverse]
  induction d.inputDescriptors.reverse with
  | nil => rfl
  | cons desc ds ih =>
    rw [List.map_cons, Members.lookup_cons, List.find?_cons, ih]
    split <;> simp_all

/-- The input descriptors of a group. -/
def groupedInputDescriptors (d : PresentationDefinition) (group : GroupId) : List String :=
  (d.inputDescriptors.filterMap fun desc =>
    if desc.groups.contains group then some desc.id else none).dedup

/-- The credential has a value that is admitted for every required field with a filter. -/
def isCredentialMatch (d : PresentationDefinition) (credential : Json) : Bool :=
  let fields := d.inputDescriptors.flatMap fun descriptor => descriptor.constraints.fields
  (fields.filter ConstraintsField.isRequired).all fun field =>
    match field.filter with
    | some filter => (field.path.toList.flatMap fun path =>
        SerdeJsonPath.query path credential).any filter.validate
    -- fields without a filter pass through
    | none => true

end PresentationDefinition
end OpenID4VP
