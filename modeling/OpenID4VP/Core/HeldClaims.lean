import OpenID4VP.Core.SubmissionValidation

/-! # Submissions of a holder

A holder presents claims, each of them for an input descriptor. Its submission has an entry for each
claim, whose path selects the claim in the token. On such a submission the search for inputs comes
to a pass over the claims: `findAndValidateInputs_eq_ok_iff_of_presents` says which of them are
accepted, and what is found in them. -/

namespace OpenID4VP

section
variable [SerdeJsonPath] [JsonSchema]

/-- A claim that is presented for an input descriptor. -/
structure HeldClaim where
  descriptorId : String
  format : ClaimFormatDesignation
  item : Json

namespace HeldClaim
variable (definition : PresentationDefinition) (decoder : ClaimsDecoder T)

/-- The input that a claim becomes, unless it does not satisfy the constraints of its descriptor. -/
def input (c : HeldClaim) : Except SubmissionError (List (DecodedInput T)) :=
  match definition.inputDescriptorsMap.lookup c.descriptorId with
  | none => throw (.undefinedInputDescriptor c.descriptorId)
  | some desc => do
    let constraint ← formatConstraint definition desc c.format
    let (value, json) ← (decoder.decode c.item c.format constraint).mapError .decoding
    if ← checkConstraints desc c.format json then
      return [⟨c.descriptorId, c.format, value, []⟩]
    else return []

/-- The inputs of claims, one after the other. -/
def inputs : List HeldClaim → Except SubmissionError (List (DecodedInput T))
  | [] => return []
  | c :: cs => do return (← c.input definition decoder) ++ (← inputs cs)

end HeldClaim

/-! ## Entries for claims -/

namespace DescriptorMap
variable {definition : PresentationDefinition} {decoder : ClaimsDecoder T} {value : Json}
  {c : HeldClaim} {d : DescriptorMap}

/-- The entry is for this claim, which its path selects alone. -/
structure Presents (value : Json) (c : HeldClaim) (d : DescriptorMap) : Prop where
  id : d.id = c.descriptorId
  format : d.format = c.format
  pathNested : d.pathNested = none
  query : SerdeJsonPath.query d.path value = [c.item]

omit [JsonSchema] in
theorem appends_pushInput {d : DescriptorMap} {v : T} :
    Prog.Appends (.ok [⟨d.id, d.format, v, []⟩]) (pushInput d v []) where
  ok h s := by
    cases h
    exact ⟨s.length, rfl⟩
  error h := by cases h

/-- An item that is not searched further adds its input, if it satisfies the constraints. -/
theorem appends_findItem {desc : InputDescriptor} {constraint : Option ClaimFormatPayload}
    {item : Json} : Prog.Appends (do
      let (v, json) ← (decoder.decode item d.format constraint).mapError .decoding
      if ← checkConstraints desc d.format json then return [⟨d.id, d.format, v, []⟩]
      else return []) (findItem decoder d desc constraint none item) := by
  rw [findItem]
  refine .ofExcept_bind fun p _ => ?_
  obtain ⟨v, json⟩ := p
  refine .ofExcept_bind fun satisfied _ => ?_
  cases satisfied with
  | true => exact appends_pushInput.bind_pure
  | false => exact .pure

/-- The search for an entry adds the input of the claim that it presents. -/
theorem Presents.appends (h : d.Presents value c) :
    Prog.Appends (c.input definition decoder) (d.findInputs definition decoder value) := by
  obtain ⟨hid, hf, hn, hq⟩ := h
  obtain ⟨id, format, path, nested⟩ := d
  dsimp only at hid hf hn hq
  subst hid hf hn
  rw [findInputs, findInputsWith, HeldClaim.input]
  cases definition.inputDescriptorsMap.lookup c.descriptorId with
  | none => exact .throw
  | some desc =>
    refine .ofExcept_bind fun constraint _ => ?_
    rw [hq, findNestedWith]
    exact (appends_findItem (d := ⟨c.descriptorId, c.format, path, none⟩)).bind_pure
      (f := fun i => i.toList ++ [])

end DescriptorMap

namespace PresentationSubmission
variable {definition : PresentationDefinition} {decoder : ClaimsDecoder T} {value : Json}
  {claims : List HeldClaim}

theorem appends_findAllInputs {ds : List DescriptorMap}
    (h : List.Forall₂ (DescriptorMap.Presents value) claims ds) :
    Prog.Appends (HeldClaim.inputs definition decoder claims)
      (findAllInputs definition value decoder ds) := by
  induction h with
  | nil => exact .pure
  | cons hd _ ih => exact hd.appends.bind fun _ => ih

variable [UuidCrate] {sub : PresentationSubmission}

/-- The submission has an entry for each of the claims, in their order. -/
def Presents (sub : PresentationSubmission) (value : Json) (claims : List HeldClaim) : Prop :=
  List.Forall₂ (DescriptorMap.Presents value) claims sub.descriptorMap

/-- The search through a submission comes to a pass over the claims that it presents. -/
theorem findInputs_eq_of_presents (h : sub.Presents value claims) :
    sub.findInputs definition value decoder =
      (HeldClaim.inputs definition decoder claims).map fun inputs =>
        ⟨inputs, byDescriptor inputs⟩ := by
  have ha : Prog.Appends (HeldClaim.inputs definition decoder claims) _ := appends_findAllInputs h
  rw [findInputs]
  cases hc : HeldClaim.inputs definition decoder claims with
  | ok inputs =>
    obtain ⟨_, hs⟩ := ha.ok hc []
    rw [hs]
    rfl
  | error e =>
    obtain ⟨s', hs⟩ := ha.error hc []
    rw [hs]
    rfl

/-- A holder's submission is accepted exactly when no claim is refused and the claims that satisfy
their descriptors meet the requirements, and these are the inputs then. -/
theorem findAndValidateInputs_eq_ok_iff_of_presents (h : sub.Presents value claims)
    {m : MatchingInputs T} : sub.findAndValidateInputs definition value decoder = .ok m ↔
      ∃ inputs, HeldClaim.inputs definition decoder claims = .ok inputs ∧
        definition.Met (inputs.map DecodedInput.descriptorId) ∧
        m = ⟨inputs, byDescriptor inputs⟩ := by
  rw [findAndValidateInputs_eq_ok_iff, findInputs_eq_of_presents h]
  constructor
  · rintro ⟨hm, hmet⟩
    obtain ⟨inputs, hi, rfl⟩ := Except.map_eq_ok_iff.mp hm
    exact ⟨inputs, hi, hmet, rfl⟩
  · rintro ⟨inputs, hi, hmet, rfl⟩
    exact ⟨Except.map_eq_ok_iff.mpr ⟨inputs, hi, rfl⟩, hmet⟩

omit [JsonSchema] in
/-- Claims that stand in an array are presented by the entries for its indices. -/
theorem presents_zipIdx {id : Uuid} {definitionId : String} :
    Presents ⟨id, definitionId, claims.zipIdx.map fun c =>
      .new c.1.descriptorId c.1.format (SerdeJsonPath.index c.2)⟩
      (.array (claims.map HeldClaim.item)) claims := by
  refine List.forall₂_iff_get.mpr ⟨by simp, fun i hi hi' => ?_⟩
  simp only [List.get_eq_getElem, List.getElem_map, List.getElem_zipIdx, Nat.zero_add]
  refine ⟨rfl, rfl, rfl, ?_⟩
  rw [DescriptorMap.new, SerdeJsonPath.query_index, List.getElem?_map,
    List.getElem?_eq_getElem hi]
  rfl

/-- Claims in an array, with the entries for its indices, are accepted exactly when none of them is
refused and those that satisfy their descriptors meet the requirements. -/
theorem findAndValidateInputs_zipIdx_eq_ok_iff {id : Uuid} {definitionId : String}
    {m : MatchingInputs T} :
    findAndValidateInputs ⟨id, definitionId, claims.zipIdx.map fun c =>
        .new c.1.descriptorId c.1.format (SerdeJsonPath.index c.2)⟩
      definition (.array (claims.map HeldClaim.item)) decoder = .ok m ↔
      ∃ inputs, HeldClaim.inputs definition decoder claims = .ok inputs ∧
        definition.Met (inputs.map DecodedInput.descriptorId) ∧
        m = ⟨inputs, byDescriptor inputs⟩ :=
  findAndValidateInputs_eq_ok_iff_of_presents presents_zipIdx

end PresentationSubmission
end
end OpenID4VP
