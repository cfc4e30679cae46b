import OpenID4VP.Core.PresentationDefinition
import OpenID4VP.Lib.Prog

/-! # Presentation submissions

A submission maps each of its entries to items of the submitted value. `findInputs` decodes the
items and collects the accepted ones in one list, where the items nested in another one come
before it. -/

namespace OpenID4VP

section
variable [SerdeJsonPath]

structure DescriptorMap where
  id : String
  format : ClaimFormatDesignation
  path : JsonPath
  pathNested : Option DescriptorMap

namespace DescriptorMap

/-! ## Reading and writing -/

def fieldNames : List String := ["id", "format", "path", "path_nested"]

/-- `nested` is the tree of `path_nested`, read as a descriptor map. -/
def readFields (f : String → Slot) (nested : Option DescriptorMap) : Option DescriptorMap := do
  return {
    id := ← (f "id").required
    format := ← (f "format").required
    path := ← (f "path").required
    pathNested := ← (f "path_nested").optionalWith fun _ => nested }

mutual
def read : Json → Option DescriptorMap
  | .object ms => do
    readFields (← structFields fieldNames (.object ms)) (readMember ms)
  | .array xs => do
    readFields (← structFields fieldNames (.array xs)) (readElement 3 xs)
  | _ => none

/-- The member `path_nested`, read as a descriptor map. -/
def readMember : List (String × Json) → Option DescriptorMap
  | [] => none
  | (k, x) :: ms => if "path_nested" = k then read x else readMember ms

def readElement : Nat → List Json → Option DescriptorMap
  | _, [] => none
  | 0, x :: _ => read x
  | n + 1, _ :: xs => readElement n xs
end

instance : Deserialize DescriptorMap := ⟨read⟩

mutual
def write : DescriptorMap → Json
  | ⟨id, format, path, nested⟩ => .object
    [("id", toTree id), ("format", toTree format), ("path", toTree path),
      ("path_nested", writeNested nested)]

def writeNested : Option DescriptorMap → Json
  | none => .null
  | some d => write d
end

instance : Serialize DescriptorMap := ⟨write⟩

theorem wellFormed_write : ∀ d : DescriptorMap, (write d).wellFormed = true
  | ⟨_, _, _, none⟩ => rfl
  | ⟨_, _, _, some d⟩ => Json.wellFormed_object.mpr ⟨by simp [Members.keys], by
    simp only [List.forall_mem_cons, writeNested]
    exact ⟨rfl, rfl, rfl, wellFormed_write d, List.forall_mem_nil _⟩⟩

instance : WritesValues DescriptorMap := ⟨wellFormed_write⟩

/-- The entry with designations that their names stand for, in the nested entries as well. -/
def normalize : DescriptorMap → DescriptorMap
  | ⟨id, format, path, none⟩ => ⟨id, .fromName format.name, path, none⟩
  | ⟨id, format, path, some d⟩ => ⟨id, .fromName format.name, path, some d.normalize⟩

/-- The designations of the entry and of the nested entries are canonical. -/
def Canonical : DescriptorMap → Prop
  | ⟨_, format, _, none⟩ => format.Canonical
  | ⟨_, format, _, some d⟩ => format.Canonical ∧ d.Canonical

theorem readFields_members {id : String} {format : ClaimFormatDesignation} {path : JsonPath}
    {x : Json} {nested : Option DescriptorMap} :
    readFields (memberSlot [("id", toTree id), ("format", toTree format), ("path", toTree path),
      ("path_nested", x)]) nested =
      (Slot.given x).optionalWith (fun _ => nested) >>= fun pathNested =>
        some ⟨id, .fromName format.name, path, pathNested⟩ := by
  have hp : (Slot.given (toTree path)).required = some path := LawfulSerde.fromTree_toTree path
  change ((Slot.given (toTree path)).required >>= fun path => _) = _
  rw [hp]
  rfl

theorem read_write : ∀ d : DescriptorMap, read (write d) = some d.normalize
  | ⟨id, format, path, none⟩ => readFields_members
  | ⟨id, format, path, some d⟩ => by
    have hn : (Slot.given (write d)).optionalWith (fun _ => some d.normalize) =
        some (some d.normalize) := by
      cases d
      rfl
    change readFields (memberSlot [("id", toTree id), ("format", toTree format),
      ("path", toTree path), ("path_nested", write d)]) (read (write d)) = _
    rw [read_write d, readFields_members, hn]
    rfl

theorem normalize_eq_iff : ∀ {d : DescriptorMap}, d.normalize = d ↔ d.Canonical
  | ⟨id, format, path, none⟩ => by simp [normalize, Canonical, ClaimFormatDesignation.Canonical]
  | ⟨id, format, path, some d⟩ => by
    simp [normalize, Canonical, ClaimFormatDesignation.Canonical, normalize_eq_iff]

def new (id : String) (format : ClaimFormatDesignation) (path : JsonPath) : DescriptorMap :=
  ⟨id, format, path, none⟩

/-- Nests an entry, which takes the id of the entry it is nested in. -/
def setPathNested (d nested : DescriptorMap) : DescriptorMap :=
  { d with pathNested := some { nested with id := d.id } }

end DescriptorMap

structure PresentationSubmission [UuidCrate] where
  id : Uuid
  definitionId : String
  descriptorMap : List DescriptorMap

namespace PresentationSubmission
variable [UuidCrate]

instance : Deserialize PresentationSubmission := ⟨fun x => do
  let f ← structFields ["id", "definition_id", "descriptor_map"] x
  return {
    id := ← (f "id").required
    definitionId := ← (f "definition_id").required
    descriptorMap := ← (f "descriptor_map").required }⟩

instance : Serialize PresentationSubmission := ⟨fun s => .object <|
  member "id" s.id ++ member "definition_id" s.definitionId ++
  member "descriptor_map" s.descriptorMap⟩

instance : TypedParameter PresentationSubmission := ⟨"presentation_submission", fromValue, toTree⟩

instance : WritesValues PresentationSubmission :=
  ⟨fun s => Json.wellFormed_object.mpr ⟨by simp [Members.keys, member], by
    simp only [member, List.cons_append, List.nil_append, List.forall_mem_cons]
    exact ⟨rfl, rfl, WritesValues.wellFormed s.descriptorMap, nofun⟩⟩⟩

def normalize (s : PresentationSubmission) : PresentationSubmission :=
  { s with descriptorMap := s.descriptorMap.map DescriptorMap.normalize }

/-- The designations of all entries are canonical. -/
def Canonical (s : PresentationSubmission) : Prop := ∀ d ∈ s.descriptorMap, d.Canonical

theorem fromTree_toTree (s : PresentationSubmission) : fromTree (toTree s) = some s.normalize := by
  have hi : (Slot.given (toTree s.id)).required = some s.id := LawfulSerde.fromTree_toTree s.id
  have hd : (Slot.given (toTree s.descriptorMap)).required = some s.normalize.descriptorMap := by
    change (s.descriptorMap.map DescriptorMap.write).mapM DescriptorMap.read = _
    exact mapM_map_eq_map fun d _ => DescriptorMap.read_write d
  change ((Slot.given (toTree s.id)).required >>= fun id =>
    (Slot.given (toTree s.descriptorMap)).required >>= fun ds =>
      some (PresentationSubmission.mk id s.definitionId ds)) = _
  rw [hi, hd]
  rfl

theorem normalize_eq_iff {s : PresentationSubmission} : s.normalize = s ↔ s.Canonical := by
  obtain ⟨id, definitionId, ds⟩ := s
  have hm : ds.map DescriptorMap.normalize = ds ↔ ∀ d ∈ ds, d.normalize = d := by
    conv_lhs => rhs; rw [← List.map_id ds]
    exact List.map_inj_left
  simp only [normalize, PresentationSubmission.mk.injEq, true_and, hm, Canonical,
    DescriptorMap.normalize_eq_iff]

theorem map_normalize_eq_iff {s : Option PresentationSubmission} :
    s.map normalize = s ↔ ∀ s', s = some s' → s'.Canonical := by
  cases s with
  | none => simp
  | some s => simp [normalize_eq_iff]

end PresentationSubmission
end

/-! ## Inputs -/

inductive ClaimDecodingError
  | unknownFormat (format : ClaimFormatDesignation)
  | invalid (message : String)

inductive SubmissionValidationError
  | missingRequiredInput (id : String)
  | selectionTooSmall (group : GroupId) (min found : Nat)
  | selectionTooLarge (group : GroupId) (max found : Nat)
  | selectionSizeMismatch (group : GroupId) (expected found : Nat)

inductive SubmissionError
  | decoding (e : ClaimDecodingError)
  | nestingUnsupported (format : ClaimFormatDesignation)
  | undefinedInputDescriptor (id : String)
  | formatMismatch (format : ClaimFormatDesignation)
  | validation (e : SubmissionValidationError)

/-- A decoder of claims: the decoded claim, and its JSON form if it has one. -/
structure ClaimsDecoder (T : Type) where
  decode : Json → ClaimFormatDesignation → Option ClaimFormatPayload →
    Except ClaimDecodingError (T × Option Json)

def noClaimsDecoder : ClaimsDecoder Unit := ⟨fun value _ _ => .ok ((), some value)⟩

structure DecodedInput (T : Type) where
  descriptorId : String
  format : ClaimFormatDesignation
  value : T
  /-- The indices of the inputs nested in this one, by descriptor id. -/
  nested : List (String × List Nat)

structure MatchingInputs (T : Type) where
  inputs : List (DecodedInput T)
  byDescriptor : List (String × List Nat)

/-- Adds `i` to the list of a key. -/
def pushIndex (m : List (String × List Nat)) (k : String) (i : Nat) : List (String × List Nat) :=
  Members.insert k ((m.lookup k).getD [] ++ [i]) m

/-- Adds the index of an input under its descriptor id. -/
def groupIndex (claims : List (DecodedInput T)) (m : List (String × List Nat)) (i : Nat) :
    List (String × List Nat) :=
  match claims[i]? with
  | some c => pushIndex m c.descriptorId i
  | none => m

/-- Groups the indices of inputs by descriptor id. Every index has to be one of an input. -/
def groupByInputDescriptor (claims : List (DecodedInput T)) (indexes : List Nat) :
    List (String × List Nat) :=
  indexes.foldl (groupIndex claims) []

variable [SerdeJsonPath] [JsonSchema]

/-- The payload that constrains a format, or an error when the format is not listed by the
descriptor, or by the definition when the descriptor lists none. -/
def formatConstraint (definition : PresentationDefinition) (desc : InputDescriptor)
    (format : ClaimFormatDesignation) : Except SubmissionError (Option ClaimFormatPayload) :=
  match desc.format.get? format with
  | some payload => return some payload
  | none =>
    if desc.format.isEmpty then
      match definition.format.get? format with
      | some payload => return some payload
      | none => if definition.format.isEmpty then return none else throw (.formatMismatch format)
    else throw (.formatMismatch format)

/-- The JSON form of a decoded item, where it is needed. -/
def requireJson (format : ClaimFormatDesignation) (json : Option Json) :
    Except SubmissionError Json :=
  match json with
  | some json => return json
  | none => throw (.nestingUnsupported format)

/-- The decoded item satisfies the constraints of the descriptor, if it has any. -/
def checkConstraints (desc : InputDescriptor) (format : ClaimFormatDesignation)
    (json : Option Json) : Except SubmissionError Bool :=
  if desc.constraints.isEmpty then return true
  else do return desc.constraints.matches (← requireJson format json)

namespace DescriptorMap

section
variable (definition : PresentationDefinition) (descriptors : List (String × InputDescriptor))
  (decoder : ClaimsDecoder T)

/-- Adds an input, with its nested inputs grouped. Returns its index. -/
def pushInput (d : DescriptorMap) (value : T) (indexes : List Nat) :
    Prog (List (DecodedInput T)) SubmissionError Nat := fun inputs =>
  (.ok inputs.length, inputs ++ [{
    descriptorId := d.id
    format := d.format
    value := value
    nested := groupByInputDescriptor inputs indexes }])

/-- One item selected by the path of entry `d`. `nested` finds the inputs nested in its JSON form.
Returns the index of the input, unless the item is skipped. -/
def findItem (d : DescriptorMap) (desc : InputDescriptor) (constraint : Option ClaimFormatPayload)
    (nested : Option (Json → Prog (List (DecodedInput T)) SubmissionError (List Nat)))
    (item : Json) : Prog (List (DecodedInput T)) SubmissionError (Option Nat) := do
  let (decoded, json) ← .ofExcept <| (decoder.decode item d.format constraint).mapError .decoding
  if ← .ofExcept (checkConstraints desc d.format json) then
    match nested with
    | none => return some (← pushInput d decoded [])
    | some nested =>
      let indexes ← nested (← .ofExcept (requireJson d.format json))
      -- an item with nothing nested in it is skipped
      if indexes.isEmpty then return none else return some (← pushInput d decoded indexes)
  else return none

/-- The items one after the other, with the indices of the inputs they become. -/
def findItems (d : DescriptorMap) (desc : InputDescriptor) (constraint : Option ClaimFormatPayload)
    (nested : Option (Json → Prog (List (DecodedInput T)) SubmissionError (List Nat))) :
    List Json → Prog (List (DecodedInput T)) SubmissionError (List Nat)
  | [] => return []
  | item :: items => do
    let i ← findItem decoder d desc constraint nested item
    return i.toList ++ (← findItems d desc constraint nested items)

mutual
def findInputsWith : DescriptorMap → Json →
    Prog (List (DecodedInput T)) SubmissionError (List Nat)
  | ⟨id, format, path, pathNested⟩, value => do
    match descriptors.lookup id with
    | none => throw (.undefinedInputDescriptor id)
    | some desc =>
      let constraint ← .ofExcept (formatConstraint definition desc format)
      findItems decoder ⟨id, format, path, pathNested⟩ desc constraint
        (findNestedWith pathNested) (SerdeJsonPath.query path value)

/-- The search for the entry nested in another one, if there is one. -/
def findNestedWith : Option DescriptorMap →
    Option (Json → Prog (List (DecodedInput T)) SubmissionError (List Nat))
  | none => none
  | some d => some fun value => findInputsWith d value
end
end

def findInputs (definition : PresentationDefinition) (decoder : ClaimsDecoder T)
    (d : DescriptorMap) (value : Json) : Prog (List (DecodedInput T)) SubmissionError (List Nat) :=
  findInputsWith definition definition.inputDescriptorsMap decoder d value

end DescriptorMap

namespace PresentationSubmission
variable [UuidCrate]

/-- The inputs of the entries one after the other. -/
def findAllInputs (definition : PresentationDefinition) (value : Json) (decoder : ClaimsDecoder T) :
    List DescriptorMap → Prog (List (DecodedInput T)) SubmissionError Unit
  | [] => return ()
  | d :: ds => do
    let _ ← d.findInputs definition decoder value
    findAllInputs definition value decoder ds

/-- The indices of all inputs, by descriptor id. -/
def byDescriptor (inputs : List (DecodedInput T)) : List (String × List Nat) :=
  groupByInputDescriptor inputs (List.range inputs.length)

def findInputs (s : PresentationSubmission) (definition : PresentationDefinition) (value : Json)
    (decoder : ClaimsDecoder T) : Except SubmissionError (MatchingInputs T) :=
  match findAllInputs definition value decoder s.descriptorMap [] with
  | (.ok _, inputs) => return ⟨inputs, byDescriptor inputs⟩
  | (.error e, _) => throw e

end PresentationSubmission
end OpenID4VP
