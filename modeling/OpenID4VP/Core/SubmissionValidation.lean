import OpenID4VP.Core.NestedInputs

/-! # Validation of the inputs found

The inputs are checked against the submission requirements of the definition or, when it has none,
each input descriptor has to have an input. A requirement counts the inputs of a group, or asks for
requirements nested in it. Of the inputs only the descriptor ids matter:
`findAndValidateInputs_eq_ok_iff` says which submissions are accepted. -/

namespace OpenID4VP

section
variable [SerdeJsonPath] [JsonSchema]

/-- The number meets the bounds that are present. -/
def SubmissionRequirementPick.admits (pick : SubmissionRequirementPick) (n : Nat) : Bool :=
  pick.count.all (fun c => n = c.toNat) && pick.min.all (fun c => c.toNat ≤ n) &&
    pick.max.all (fun c => n ≤ c.toNat)

namespace SubmissionRequirement

/-- The number of inputs that belong to a descriptor of the group. -/
def groupCount (definition : PresentationDefinition) (group : GroupId) (ids : List String) : Nat :=
  ids.countP fun id => (definition.groupedInputDescriptors group).contains id

/-- One bound of a pick, if it is present. -/
def checkBound (bound : Option UInt64) (violated : Nat → Bool)
    (error : Nat → SubmissionValidationError) : Except SubmissionValidationError Unit :=
  match bound with
  | some b => if violated b.toNat then throw (error b.toNat) else return ()
  | none => return ()

def validatePick (group : GroupId) (pick : SubmissionRequirementPick) (found : Nat) :
    Except SubmissionValidationError Unit := do
  checkBound pick.min (fun min => found < min) fun min => .selectionTooSmall group min found
  checkBound pick.max (fun max => found > max) fun max => .selectionTooLarge group max found
  checkBound pick.count (fun count => found ≠ count) fun count =>
    .selectionSizeMismatch group count found

def validateGroup (group : GroupId) (definition : PresentationDefinition)
    (inputs : MatchingInputs T) (pick : Option SubmissionRequirementPick) :
    Except SubmissionValidationError Unit :=
  match pick with
  | some pick => validatePick group pick
    (groupCount definition group (inputs.inputs.map DecodedInput.descriptorId))
  | none => (definition.groupedInputDescriptors group).forM fun id =>
    if (inputs.byDescriptor.lookup id).isSome then return ()
    else throw (.missingRequiredInput id)

section
variable (definition : PresentationDefinition) (inputs : MatchingInputs T)

mutual
def validate : SubmissionRequirement → Except SubmissionValidationError Unit
  | .all (.from group _) => validateGroup group definition inputs none
  | .all (.fromNested requirements _) => validateEach requirements
  | .pick (.mk (.from group base) count min max) =>
    validateGroup group definition inputs (some (.mk (.from group base) count min max))
  -- the bounds of the pick are not looked at here
  | .pick (.mk (.fromNested requirements _) _ _ _) => validateEach requirements

def validateEach : List SubmissionRequirement → Except SubmissionValidationError Unit
  | [] => return ()
  | r :: rs => do
    validate r
    validateEach rs
end

/-- The requirement validates. -/
def validates (r : SubmissionRequirement) : Bool := (r.validate definition inputs).isOk

end
end SubmissionRequirement

namespace MatchingInputs

def validate (inputs : MatchingInputs T) (definition : PresentationDefinition) :
    Except SubmissionValidationError Unit :=
  match definition.submissionRequirements with
  | some requirements => requirements.forM fun r => r.validate definition inputs
  | none => definition.inputDescriptors.forM fun d =>
    if ((inputs.byDescriptor.lookup d.id).getD []).isEmpty then throw (.missingRequiredInput d.id)
    else return ()

end MatchingInputs

def PresentationSubmission.findAndValidateInputs [UuidCrate] (s : PresentationSubmission)
    (definition : PresentationDefinition) (value : Json) (decoder : ClaimsDecoder T) :
    Except SubmissionError (MatchingInputs T) := do
  let found ← s.findInputs definition value decoder
  (found.validate definition).mapError .validation
  return found

/-! ## When validation succeeds -/

namespace SubmissionRequirement

variable {definition : PresentationDefinition} {inputs : MatchingInputs T}

omit [SerdeJsonPath] [JsonSchema] in
theorem checkBound_eq_ok_iff {bound : Option UInt64} {violated : Nat → Bool}
    {error : Nat → SubmissionValidationError} :
    checkBound bound violated error = .ok () ↔
      bound.all (fun b => !violated b.toNat) = true := by
  cases bound with
  | none => simp [checkBound]
  | some b => cases h : violated b.toNat <;> simp [checkBound, h]

omit [SerdeJsonPath] [JsonSchema] in
theorem validatePick_eq_ok_iff {group : GroupId} {pick : SubmissionRequirementPick} {n : Nat} :
    validatePick group pick n = .ok () ↔ pick.admits n = true := by
  rw [validatePick, Except.seq_eq_ok_iff, Except.seq_eq_ok_iff, checkBound_eq_ok_iff,
    checkBound_eq_ok_iff, checkBound_eq_ok_iff, SubmissionRequirementPick.admits]
  simp only [Bool.and_eq_true, ← decide_not, not_lt, not_not]
  tauto

theorem validates_iff {r : SubmissionRequirement} :
    validates definition inputs r = true ↔ r.validate definition inputs = .ok () := by
  rw [validates]
  cases r.validate definition inputs <;> simp [Except.isOk, Except.toBool]

theorem validateEach_eq_ok_iff {rs : List SubmissionRequirement} :
    validateEach definition inputs rs = .ok () ↔
      ∀ r ∈ rs, validates definition inputs r = true := by
  induction rs with
  | nil => simp [validateEach]
  | cons r rs ih =>
    rw [validateEach, Except.seq_eq_ok_iff, List.forall_mem_cons, ← ih, validates_iff]

/-! ## Nested requirements -/

/-- What a requirement with nested ones asks for: all of them, or a number of them that meets the
bounds. -/
def MeetsNested (definition : PresentationDefinition) (inputs : MatchingInputs T) :
    SubmissionRequirement → Prop
  | r@(.all (.fromNested rs _)) =>
    r.validate definition inputs = .ok () ↔ ∀ r ∈ rs, validates definition inputs r = true
  | r@(.pick pick@(.mk (.fromNested rs _) _ _ _)) =>
    r.validate definition inputs = .ok () ↔
      pick.admits (rs.countP (validates definition inputs)) = true
  | _ => True

/-- The bounds of a pick with nested requirements never decide otherwise than "all of them" would:
if every member validates they admit the number of members, and if one fails they do not admit
the number of those that validate. -/
def BoundsAskForAll (definition : PresentationDefinition) (inputs : MatchingInputs T) :
    SubmissionRequirement → Prop
  | .pick pick@(.mk (.fromNested rs _) _ _ _) =>
    if rs.all (validates definition inputs) then pick.admits rs.length = true
    else pick.admits (rs.countP (validates definition inputs)) = false
  | _ => True

/-- A pick of nested requirements decides as its bounds say exactly when
these ask for all of them; an `all` requirement always does what it says. -/
theorem meetsNested_iff (r : SubmissionRequirement) :
    MeetsNested definition inputs r ↔ BoundsAskForAll definition inputs r := by
  match r with
  | .all (.from _ _) => exact Iff.rfl
  | .all (.fromNested rs _) =>
    simp only [MeetsNested, BoundsAskForAll, validate, iff_true]
    exact validateEach_eq_ok_iff
  | .pick (.mk (.from _ _) _ _ _) => exact Iff.rfl
  | .pick (.mk (.fromNested rs base) count min max) =>
    simp only [MeetsNested, BoundsAskForAll, validate]
    rw [validateEach_eq_ok_iff, ← List.all_eq_true]
    split
    · next h =>
      rw [List.countP_eq_length.mpr (List.all_eq_true.mp h)]
      simp [h]
    · next h => simp [h]

end SubmissionRequirement

/-! ## What validation asks of the descriptor ids -/

def MatchingInputs.ids (m : MatchingInputs T) : List String :=
  m.inputs.map DecodedInput.descriptorId

namespace SubmissionRequirement

section
variable (grouped : GroupId → List String) (ids : List String)

mutual
/-- The requirement is met by inputs with these descriptor ids. The descriptors of a group are
`grouped`. -/
def Met : SubmissionRequirement → Prop
  | .all (.from group _) => ∀ id ∈ grouped group, id ∈ ids
  | .all (.fromNested requirements _) => MetEach requirements
  | .pick (.mk (.from group base) count min max) =>
    (SubmissionRequirementPick.mk (.from group base) count min max).admits
      (ids.countP (grouped group).contains) = true
  | .pick (.mk (.fromNested requirements _) _ _ _) => MetEach requirements

def MetEach : List SubmissionRequirement → Prop
  | [] => True
  | r :: rs => Met r ∧ MetEach rs
end
end

end SubmissionRequirement

/-- The definition is met by inputs with these descriptor ids. -/
def PresentationDefinition.Met (definition : PresentationDefinition) (ids : List String) : Prop :=
  match definition.submissionRequirements with
  | some requirements =>
    SubmissionRequirement.MetEach definition.groupedInputDescriptors ids requirements
  | none => ∀ desc ∈ definition.inputDescriptors, desc.id ∈ ids

namespace Groups
variable {m : MatchingInputs T} {id : String}

omit [SerdeJsonPath] [JsonSchema] in
theorem lookup_isSome_iff (h : Groups m.inputs m.byDescriptor (List.range m.inputs.length)) :
    (m.byDescriptor.lookup id).isSome = true ↔ id ∈ m.ids := by
  constructor
  · intro hs
    obtain ⟨is, hl⟩ := Option.isSome_iff_exists.mp hs
    have hm := Members.mem_of_lookup_eq_some hl
    obtain ⟨i, hi⟩ := List.exists_mem_of_ne_nil is (h.nonempty _ hm)
    obtain ⟨c, hc, rfl⟩ := h.own _ hm i hi
    exact List.mem_map_of_mem (List.mem_of_getElem? hc)
  · intro hm
    obtain ⟨c, hc, rfl⟩ := List.mem_map.mp hm
    obtain ⟨i, hi, rfl⟩ := List.getElem_of_mem hc
    have hl := h.mem_lookup (List.mem_range.mpr hi) (List.getElem?_eq_getElem hi)
    cases hs : m.byDescriptor.lookup m.inputs[i].descriptorId with
    | none =>
      rw [hs] at hl
      cases hl
    | some is => rfl

omit [SerdeJsonPath] [JsonSchema] in
theorem lookup_isEmpty_iff (h : Groups m.inputs m.byDescriptor (List.range m.inputs.length)) :
    ((m.byDescriptor.lookup id).getD []).isEmpty = false ↔ id ∈ m.ids := by
  rw [← h.lookup_isSome_iff]
  cases hs : m.byDescriptor.lookup id with
  | none => simp
  | some is =>
    have hne := h.nonempty _ (Members.mem_of_lookup_eq_some hs)
    simpa using hne

end Groups

/-! ## Validation -/

namespace SubmissionRequirement
variable {definition : PresentationDefinition} {m : MatchingInputs T}

theorem validateGroup_none_eq_ok_iff {group : GroupId}
    (h : Groups m.inputs m.byDescriptor (List.range m.inputs.length)) :
    validateGroup group definition m none = .ok () ↔
      ∀ id ∈ definition.groupedInputDescriptors group, id ∈ m.ids := by
  rw [validateGroup, Except.forM_eq_ok_iff]
  refine forall₂_congr fun id _ => ?_
  rw [← h.lookup_isSome_iff]
  split
  · next hs => simp [hs]
  · next hs => simp [hs]

mutual
theorem validate_eq_ok_iff (h : Groups m.inputs m.byDescriptor (List.range m.inputs.length)) :
    ∀ r : SubmissionRequirement, r.validate definition m = .ok () ↔
      r.Met definition.groupedInputDescriptors m.ids
  | .all (.from group _) => by
    rw [validate, Met]
    exact validateGroup_none_eq_ok_iff h
  | .all (.fromNested requirements _) => by
    rw [validate, Met]
    exact validateEach_eq_ok_iff_metEach h requirements
  | .pick (.mk (.from group base) count min max) => by
    rw [validate, Met]
    exact validatePick_eq_ok_iff
  | .pick (.mk (.fromNested requirements _) _ _ _) => by
    rw [validate, Met]
    exact validateEach_eq_ok_iff_metEach h requirements

theorem validateEach_eq_ok_iff_metEach
    (h : Groups m.inputs m.byDescriptor (List.range m.inputs.length)) :
    ∀ rs : List SubmissionRequirement, validateEach definition m rs = .ok () ↔
      MetEach definition.groupedInputDescriptors m.ids rs
  | [] => by simp [validateEach, MetEach]
  | r :: rs => by
    rw [validateEach, MetEach, Except.seq_eq_ok_iff, validate_eq_ok_iff h r,
      validateEach_eq_ok_iff_metEach h rs]
end

end SubmissionRequirement

/-- Validation succeeds exactly when the definition is met. -/
theorem MatchingInputs.validate_eq_ok_iff_met {definition : PresentationDefinition}
    {m : MatchingInputs T} (h : Groups m.inputs m.byDescriptor (List.range m.inputs.length)) :
    m.validate definition = .ok () ↔ definition.Met m.ids := by
  rw [validate, PresentationDefinition.Met]
  cases definition.submissionRequirements with
  | some requirements =>
    dsimp only
    rw [← SubmissionRequirement.validateEach_eq_ok_iff_metEach h]
    induction requirements with
    | nil => rfl
    | cons r rs ih =>
      change (r.validate definition m >>= fun _ => rs.forM _) = _ ↔ _
      rw [SubmissionRequirement.validateEach, Except.seq_eq_ok_iff, Except.seq_eq_ok_iff, ih]
  | none =>
    dsimp only
    rw [Except.forM_eq_ok_iff]
    refine forall₂_congr fun desc _ => ?_
    rw [← h.lookup_isEmpty_iff]
    split
    · next he => simp [he]
    · next he => simp [he]

theorem PresentationDefinition.met_iff_of_none {definition : PresentationDefinition}
    (h : definition.submissionRequirements = none) {ids : List String} :
    definition.Met ids ↔ ∀ desc ∈ definition.inputDescriptors, desc.id ∈ ids := by
  rw [Met, h]

/-! ## Accepted submissions -/

namespace PresentationSubmission
variable [UuidCrate] {definition : PresentationDefinition} {decoder : ClaimsDecoder T}
  {value : Json} {sub : PresentationSubmission} {m : MatchingInputs T}

theorem ids_eq (h : sub.findInputs definition value decoder = .ok m) :
    m.ids = (sub.acceptedCandidates definition decoder value).map fun c => c.entry.id := by
  have he := congrArg (List.map Prod.fst) (inputs_eq h)
  rw [List.map_map, List.map_map] at he
  exact he

/-- What is accepted are inputs that are found, and meet the definition. -/
theorem findAndValidateInputs_eq_ok_iff :
    sub.findAndValidateInputs definition value decoder = .ok m ↔
      sub.findInputs definition value decoder = .ok m ∧ definition.Met m.ids := by
  rw [findAndValidateInputs, Except.bind_eq_ok_iff]
  constructor
  · rintro ⟨m', hf, h⟩
    obtain ⟨hv, h⟩ := Except.seq_eq_ok_iff.mp h
    obtain rfl := Except.pure_eq_ok_iff.mp h
    rw [Except.mapError_eq_ok_iff] at hv
    exact ⟨hf, (MatchingInputs.validate_eq_ok_iff_met (groups_of_findInputs hf)).mp hv⟩
  · rintro ⟨hf, hm⟩
    have hv := (MatchingInputs.validate_eq_ok_iff_met (groups_of_findInputs hf)).mpr hm
    refine ⟨m, hf, ?_⟩
    rw [hv]
    rfl

end PresentationSubmission
end

namespace Sample
open scoped Reference

/-- One of two descriptors is enough. -/
def pickOne : SubmissionRequirement :=
  .pick (.mk (.fromNested [.all (.from "A" ⟨none, none, none⟩), .all (.from "B" ⟨none, none, none⟩)]
    ⟨none, none, none⟩) (some 1) none none)

def twoGroups : PresentationDefinition where
  id := "definition"
  inputDescriptors := [{ InputDescriptor.new "a" .new with groups := ["A"] },
    { InputDescriptor.new "b" .new with groups := ["B"] }]
  submissionRequirements := some [pickOne]
  name := none
  purpose := none
  format := .empty

/-- The inputs of a submission that has a claim for the first descriptor only. -/
def oneInput : MatchingInputs Unit := ⟨[⟨"a", .ldpVc, (), []⟩], [("a", [0])]⟩

theorem not_meetsNested_pickOne :
    ¬SubmissionRequirement.MeetsNested twoGroups oneInput pickOne :=
  fun h => nomatch h.mpr rfl

end Sample

/-! ## Groups -/

section
variable [SerdeJsonPath] [JsonSchema] [UuidCrate]

namespace SubmissionRequirement

/-- The number of descriptors of the group that have an input. -/
def groupDescriptors (definition : PresentationDefinition) (group : GroupId) (ids : List String) :
    Nat :=
  (definition.groupedInputDescriptors group).countP fun id => ids.contains id

/-- A pick from a group decides by the number of descriptors that have an
input exactly when its bounds do not tell that number from the number of inputs. -/
theorem pick_counts_descriptors_iff {definition : PresentationDefinition}
    {sub : PresentationSubmission} {value : Json} {decoder : ClaimsDecoder T}
    {m : MatchingInputs T} {group : GroupId} {base : SubmissionRequirementObject}
    {count min max : Option UInt64} (h : sub.findInputs definition value decoder = .ok m) :
    let pick := SubmissionRequirementPick.mk (.from group base) count min max
    let ids := (sub.acceptedCandidates definition decoder value).map fun c => c.entry.id
    ((SubmissionRequirement.pick pick).validate definition m = .ok () ↔
        pick.admits (groupDescriptors definition group ids) = true) ↔
      (pick.admits (groupCount definition group ids) = true ↔
        pick.admits (groupDescriptors definition group ids) = true) := by
  intro pick ids
  have hids : m.inputs.map DecodedInput.descriptorId = ids := PresentationSubmission.ids_eq h
  rw [validate, validateGroup, validatePick_eq_ok_iff, hids]

end SubmissionRequirement
end

namespace Sample
open scoped Reference

/-- At most one claim of the group. -/
def pickAtMostOne : SubmissionRequirementPick :=
  .mk (.from "A" ⟨none, none, none⟩) none none (some 1)

def oneGroup : PresentationDefinition where
  id := "definition"
  inputDescriptors := [{ InputDescriptor.new "id" .new with groups := ["A"] }]
  submissionRequirements := some [.pick pickAtMostOne]
  name := none
  purpose := none
  format := .empty

/-- An envelope and the claim nested in it are two inputs of one descriptor. -/
theorem pickAtMostOne_rejects_envelope : ∃ m,
    submission.findInputs oneGroup value noClaimsDecoder = .ok m ∧
    ¬((SubmissionRequirement.pick pickAtMostOne).validate oneGroup m = .ok () ↔
      pickAtMostOne.admits (SubmissionRequirement.groupDescriptors oneGroup "A"
        (m.inputs.map DecodedInput.descriptorId)) = true) :=
  ⟨_, rfl, fun h => nomatch h.mpr rfl⟩

/-- With a claim at the top level only, the pick decides by the descriptors. -/
theorem pick_counts_descriptors_claim : ∃ sub : PresentationSubmission, ∃ m,
    sub.findInputs oneGroup value noClaimsDecoder = .ok m ∧
    let ids := (sub.acceptedCandidates oneGroup noClaimsDecoder value).map fun c => c.entry.id
    ((SubmissionRequirement.pick pickAtMostOne).validate oneGroup m = .ok () ↔
        pickAtMostOne.admits (SubmissionRequirement.groupDescriptors oneGroup "A" ids) = true) ↔
      (pickAtMostOne.admits (SubmissionRequirement.groupCount oneGroup "A" ids) = true ↔
        pickAtMostOne.admits (SubmissionRequirement.groupDescriptors oneGroup "A" ids) = true) :=
  ⟨{ submission with descriptorMap := [.new "id" .ldpVc (SerdeJsonPath.index 0)] }, _, rfl,
    SubmissionRequirement.pick_counts_descriptors_iff rfl⟩

end Sample
end OpenID4VP
