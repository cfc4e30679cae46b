import OpenID4VP.Core.SubmissionValidation

/-! # What acceptance says about the input descriptors

The constraints are checked for the descriptor that `inputDescriptorsMap` gives for an id, the
presence of inputs for every descriptor of the list. The two views differ where an id is given
twice: then the earlier descriptor is never looked at. `accepted_iff_entailed` says for which
definitions acceptance still means that every descriptor is satisfied. -/

namespace OpenID4VP

section
variable [SerdeJsonPath] [JsonSchema]

/-- The descriptor that stands for its id in the search. -/
def PresentationDefinition.Effective (definition : PresentationDefinition)
    (desc : InputDescriptor) : Prop :=
  definition.inputDescriptorsMap.lookup desc.id = some desc

/-- Whatever satisfies `desc`, in a format it admits, satisfies `desc'` too. -/
def InputDescriptor.Entails (desc desc' : InputDescriptor) (definition : PresentationDefinition) :
    Prop :=
  ∀ json format, desc.satisfiedBy json = true → desc.Admits definition format →
    desc'.satisfiedBy json = true ∧ desc'.Admits definition format

/-- If a submission is accepted, every descriptor is satisfied by the JSON and the format of some
accepted candidate. -/
def PresentationDefinition.AcceptanceMeansSatisfaction [UuidCrate]
    (definition : PresentationDefinition) : Prop :=
  ∀ (T : Type) (decoder : ClaimsDecoder T) (sub : PresentationSubmission) (value : Json)
    (m : MatchingInputs T), sub.findAndValidateInputs definition value decoder = .ok m →
    ∀ desc ∈ definition.inputDescriptors,
      ∃ c ∈ sub.acceptedCandidates definition decoder value,
        desc.satisfiedBy c.json = true ∧ desc.Admits definition c.entry.format

variable {definition : PresentationDefinition} {decoder : ClaimsDecoder T}

/-! ## Descriptors by id -/

theorem mem_inputDescriptorsMap {id : String} {desc : InputDescriptor}
    (h : (id, desc) ∈ definition.inputDescriptorsMap) :
    desc ∈ definition.inputDescriptors ∧ desc.id = id := by
  obtain ⟨d, hd, he⟩ := List.mem_map.mp (Members.mem_collect h)
  cases he
  exact ⟨hd, rfl⟩

theorem nodup_inputDescriptorsMap : (Members.keys definition.inputDescriptorsMap).Nodup :=
  Members.nodup_keys_collect _

theorem effective_of_lookup {id : String} {desc : InputDescriptor}
    (h : definition.inputDescriptorsMap.lookup id = some desc) :
    desc ∈ definition.inputDescriptors ∧ desc.id = id ∧ definition.Effective desc := by
  obtain ⟨hm, rfl⟩ := mem_inputDescriptorsMap (Members.mem_of_lookup_eq_some h)
  exact ⟨hm, rfl, h⟩

/-- Every id of the list has a descriptor in the map. -/
theorem exists_effective {desc : InputDescriptor} (h : desc ∈ definition.inputDescriptors) :
    ∃ e, e.id = desc.id ∧ definition.Effective e := by
  cases hl : definition.inputDescriptorsMap.lookup desc.id with
  | some e =>
    obtain ⟨-, hid, he⟩ := effective_of_lookup hl
    exact ⟨e, hid, he⟩
  | none =>
    rw [PresentationDefinition.lookup_inputDescriptorsMap, List.find?_eq_none] at hl
    exact absurd (by simp) (hl desc (List.mem_reverse.mpr h))

theorem formatConstraint_of_admits {desc : InputDescriptor} {format : ClaimFormatDesignation}
    (h : desc.Admits definition format) :
    ∃ constraint, formatConstraint definition desc format = .ok constraint := by
  obtain ⟨h1, h2⟩ := h
  rw [formatConstraint]
  cases hf : desc.format.get? format with
  | some payload => exact ⟨_, rfl⟩
  | none =>
    cases he : desc.format.isEmpty with
    | false => simp [ClaimFormatMap.containsKey, hf, he] at h1
    | true =>
      cases hdf : definition.format.get? format with
      | some payload => exact ⟨some payload, rfl⟩
      | none =>
        cases hde : definition.format.isEmpty with
        | false => simp [ClaimFormatMap.containsKey, hdf, hde, he] at h2
        | true => exact ⟨none, rfl⟩

theorem checkConstraints_of_satisfiedBy {desc : InputDescriptor} {json : Option Json}
    {format : ClaimFormatDesignation} (h : desc.satisfiedBy json = true) :
    checkConstraints desc format json = .ok true := by
  rw [checkConstraints]
  split
  · rfl
  · next he =>
    cases json with
    | none => simp [InputDescriptor.satisfiedBy, he] at h
    | some json =>
      simp only [InputDescriptor.satisfiedBy, he, Option.any_some, Bool.or_eq_true, false_or,
        Bool.false_eq_true] at h
      simp [requireJson, h]

/-! ## A decoder that reads what it is told

Items that carry their own decoded form, and a submission with one entry for each of a list of
descriptors. -/

/-- An item that is decoded to `json`. -/
def encodeItem : Option Json → Json
  | none => .null
  | some json => .array [json]

def itemDecoder : ClaimsDecoder Unit := ⟨fun item _ _ => .ok ((), match item with
  | .array [json] => some json
  | _ => none)⟩

omit [SerdeJsonPath] [JsonSchema] in
theorem itemDecoder_encodeItem (json : Option Json) (format : ClaimFormatDesignation)
    (constraint : Option ClaimFormatPayload) :
    itemDecoder.decode (encodeItem json) format constraint = .ok ((), json) := by
  cases json <;> rfl

/-- An entry without nested ones whose path selects one item, which satisfies its descriptor. -/
structure Single (definition : PresentationDefinition) (value : Json) (d : DescriptorMap)
    (json : Option Json) : Prop where
  pathNested : d.pathNested = none
  query : SerdeJsonPath.query d.path value = [encodeItem json]
  descriptor : ∃ desc, d.descriptor definition = some desc ∧ desc.Admits definition d.format ∧
    desc.satisfiedBy json = true

namespace Single
variable {value : Json} {d : DescriptorMap} {json : Option Json}

theorem decodeItem (h : Single definition value d json) :
    ∃ desc constraint, d.descriptor definition = some desc ∧
      formatConstraint definition desc d.format = .ok constraint ∧
      d.decodeItem definition itemDecoder desc (encodeItem json) = some ((), json) ∧
      desc.satisfiedBy json = true := by
  obtain ⟨desc, hd, ha, hs⟩ := h.descriptor
  obtain ⟨constraint, hc⟩ := formatConstraint_of_admits ha
  refine ⟨desc, constraint, hd, hc, ?_, hs⟩
  rw [DescriptorMap.decodeItem, hc]
  simp [itemDecoder_encodeItem, Except.toOption]

theorem acceptedCandidates (h : Single definition value d json) {c : Candidate Unit}
    (hc : c ∈ d.acceptedCandidates definition itemDecoder value) :
    c.entry = d ∧ c.json = json := by
  obtain ⟨desc, constraint, hd, -, hv, -⟩ := h.decodeItem
  rw [DescriptorMap.acceptedCandidates_eq, h.query, List.flatMap_singleton] at hc
  have hm := List.mem_of_mem_filter hc
  rw [DescriptorMap.itemCandidates, hd] at hm
  simp only [hv, h.pathNested, DescriptorMap.candidatesNested, ite_self, List.nil_append,
    List.mem_singleton] at hm
  subst hm
  exact ⟨rfl, rfl⟩

theorem findInputs (h : Single definition value d json) (s : List (DecodedInput Unit)) :
    ∃ ids input, d.findInputs definition itemDecoder value s = (.ok ids, s ++ [input]) ∧
      input.descriptorId = d.id := by
  obtain ⟨desc, constraint, hd, hc, -, hs⟩ := h.decodeItem
  have hcheck : checkConstraints desc d.format json = .ok true :=
    checkConstraints_of_satisfiedBy hs
  have hitem : DescriptorMap.findItem itemDecoder d desc constraint none (encodeItem json) s =
      (.ok (some s.length), s ++ [⟨d.id, d.format, (), []⟩]) := by
    rw [DescriptorMap.findItem, itemDecoder_encodeItem]
    simp only [Except.mapError, Prog.ofExcept_ok_bind, hcheck, if_true]
    rfl
  refine ⟨[s.length], ⟨d.id, d.format, (), []⟩, ?_, rfl⟩
  obtain ⟨id, format, path, nested⟩ := d
  obtain rfl : nested = none := h.pathNested
  have hd' : definition.inputDescriptorsMap.lookup id = some desc := hd
  have hq : SerdeJsonPath.query path value = [encodeItem json] := h.query
  rw [DescriptorMap.findInputs, DescriptorMap.findInputsWith]
  simp only [hd', hc, hq, Prog.ofExcept_ok_bind, DescriptorMap.findNestedWith,
    DescriptorMap.findItems]
  rw [Prog.bind_apply_ok hitem]
  rfl

end Single

theorem findAllInputs_single {value : Json} {ds : List DescriptorMap}
    (h : ∀ d ∈ ds, ∃ json, Single definition value d json) (s : List (DecodedInput Unit)) :
    ∃ inputs, PresentationSubmission.findAllInputs definition value itemDecoder ds s =
      (.ok (), s ++ inputs) ∧ inputs.map DecodedInput.descriptorId = ds.map DescriptorMap.id := by
  induction ds generalizing s with
  | nil => exact ⟨[], by simp [PresentationSubmission.findAllInputs]⟩
  | cons d ds ih =>
    rw [List.forall_mem_cons] at h
    obtain ⟨json, hj⟩ := h.1
    obtain ⟨ids, input, hi, hid⟩ := hj.findInputs s
    obtain ⟨inputs, hr, hids⟩ := ih h.2 (s ++ [input])
    refine ⟨input :: inputs, ?_, by simp [hid, hids]⟩
    rw [PresentationSubmission.findAllInputs, Prog.bind_apply_ok hi, hr, List.append_assoc]
    rfl

/-! ## Acceptance -/

variable [UuidCrate]

/-- An effective descriptor is satisfied in every accepted submission. -/
theorem effective_satisfied {sub : PresentationSubmission} {value : Json} {m : MatchingInputs T}
    {desc : InputDescriptor} (hr : definition.submissionRequirements = none)
    (h : sub.findAndValidateInputs definition value decoder = .ok m)
    (hd : desc ∈ definition.inputDescriptors) (he : definition.Effective desc) :
    ∃ c ∈ sub.acceptedCandidates definition decoder value,
      desc.satisfiedBy c.json = true ∧ desc.Admits definition c.entry.format := by
  obtain ⟨hf, hmet⟩ := PresentationSubmission.findAndValidateInputs_eq_ok_iff.mp h
  have hid := (PresentationDefinition.met_iff_of_none hr).mp hmet desc hd
  rw [PresentationSubmission.ids_eq hf] at hid
  obtain ⟨c, hc, hce⟩ := List.mem_map.mp hid
  obtain ⟨hdec, hacc⟩ := PresentationSubmission.mem_acceptedCandidates hc
  obtain ⟨desc', hdesc, hs, ha⟩ := hdec.satisfiedBy hacc
  rw [DescriptorMap.descriptor, hce, he, Option.some.injEq] at hdesc
  exact ⟨c, hc, hdesc ▸ hs, hdesc ▸ ha⟩

/-- What an entry of the submission that tells the descriptors apart stands for. -/
structure Choice where
  desc : InputDescriptor
  json : Option Json
  format : ClaimFormatDesignation

/-- One entry for each choice, at the index of its item. -/
def choiceEntries (choices : List Choice) : List DescriptorMap :=
  choices.zipIdx.map fun c => .new c.1.desc.id c.1.format (SerdeJsonPath.index c.2)

def choiceItems (choices : List Choice) : Json :=
  .array (choices.map fun c => encodeItem c.json)

omit [UuidCrate] in
theorem single_choiceEntries {choices : List Choice} (h : ∀ c ∈ choices,
    definition.Effective c.desc ∧ c.desc.Admits definition c.format ∧
      c.desc.satisfiedBy c.json = true) {d : DescriptorMap} (hd : d ∈ choiceEntries choices) :
    ∃ c ∈ choices, Single definition (choiceItems choices) d c.json ∧ d.format = c.format := by
  obtain ⟨⟨c, i⟩, hc, rfl⟩ := List.mem_map.mp hd
  rw [List.mem_zipIdx_iff_getElem?] at hc
  have hmem : c ∈ choices := List.mem_of_getElem? hc
  obtain ⟨he, ha, hs⟩ := h c hmem
  refine ⟨c, hmem, ⟨rfl, ?_, c.desc, he, ha, hs⟩, rfl⟩
  simp only [DescriptorMap.new, choiceItems, SerdeJsonPath.query_index, List.getElem?_map]
  simp only at hc
  simp [hc]

/-- A submission of the choices is accepted when they cover every id, and its candidates are the
choices. -/
theorem accepted_choices {choices : List Choice} (hr : definition.submissionRequirements = none)
    (h : ∀ c ∈ choices, definition.Effective c.desc ∧ c.desc.Admits definition c.format ∧
      c.desc.satisfiedBy c.json = true)
    (hcover : ∀ desc ∈ definition.inputDescriptors, ∃ c ∈ choices, c.desc.id = desc.id) :
    ∃ (sub : PresentationSubmission) (m : MatchingInputs Unit),
      sub.findAndValidateInputs definition (choiceItems choices) itemDecoder = .ok m ∧
      ∀ cand ∈ sub.acceptedCandidates definition itemDecoder (choiceItems choices),
        ∃ c ∈ choices, cand.json = c.json ∧ cand.entry.format = c.format := by
  have hsingle {d} (hd : d ∈ choiceEntries choices) := single_choiceEntries h hd
  obtain ⟨inputs, hrun, hids⟩ := findAllInputs_single
    (fun d hd => let ⟨c, _, hs, _⟩ := hsingle hd; ⟨c.json, hs⟩) []
  refine ⟨⟨UuidCrate.nil, definition.id, choiceEntries choices⟩,
    ⟨inputs, PresentationSubmission.byDescriptor inputs⟩, ?_, fun cand hcand => ?_⟩
  · have hfind : PresentationSubmission.findInputs
        ⟨UuidCrate.nil, definition.id, choiceEntries choices⟩ definition (choiceItems choices)
        itemDecoder = .ok ⟨inputs, PresentationSubmission.byDescriptor inputs⟩ := by
      rw [PresentationSubmission.findInputs, hrun]
      rfl
    have hmet : definition.Met (inputs.map DecodedInput.descriptorId) := by
      rw [PresentationDefinition.met_iff_of_none hr, hids]
      intro desc hdesc
      obtain ⟨c, hc, hid⟩ := hcover desc hdesc
      obtain ⟨i, hi⟩ := List.mem_iff_getElem?.mp hc
      refine List.mem_map.mpr ⟨_, List.mem_map.mpr ⟨(c, i), ?_, rfl⟩, hid⟩
      exact List.mem_zipIdx_iff_getElem?.mpr hi
    exact PresentationSubmission.findAndValidateInputs_eq_ok_iff.mpr ⟨hfind, hmet⟩
  · obtain ⟨d, hd, hcand⟩ := List.mem_flatMap.mp hcand
    obtain ⟨c, hc, hs, hf⟩ := hsingle hd
    obtain ⟨rfl, hj⟩ := hs.acceptedCandidates hcand
    exact ⟨c, hc, hj, hf⟩

omit [UuidCrate] in
/-- When no effective descriptor entails `desc`, each of them has a choice that satisfies it but
not `desc`. -/
theorem exists_refuting_choice {desc : InputDescriptor}
    (hne : ¬∃ e ∈ definition.inputDescriptors, definition.Effective e ∧
      e.Entails desc definition) (e : InputDescriptor) :
    ∃ c : Choice, c.desc = e ∧ (e ∈ definition.inputDescriptors → definition.Effective e →
      e.Admits definition c.format ∧ e.satisfiedBy c.json = true ∧
      ¬(desc.satisfiedBy c.json = true ∧ desc.Admits definition c.format)) := by
  by_cases he : e ∈ definition.inputDescriptors ∧ definition.Effective e
  · have hent : ¬e.Entails desc definition := fun hent => hne ⟨e, he.1, he.2, hent⟩
    simp only [InputDescriptor.Entails, not_forall] at hent
    obtain ⟨json, format, hs, ha, hd⟩ := hent
    exact ⟨⟨e, json, format⟩, rfl, fun _ _ => ⟨ha, hs, hd⟩⟩
  · exact ⟨⟨e, none, .jwt⟩, rfl, fun h1 h2 => absurd ⟨h1, h2⟩ he⟩

/-- A descriptor that nothing entails is left unsatisfied by an accepted submission. -/
theorem entailed_of_acceptanceMeansSatisfaction (hr : definition.submissionRequirements = none)
    (h : definition.AcceptanceMeansSatisfaction) {desc : InputDescriptor}
    (hdesc : desc ∈ definition.inputDescriptors) :
    ∃ e ∈ definition.inputDescriptors, definition.Effective e ∧ e.Entails desc definition := by
  by_contra hne
  choose choice hdesc' hchoice using exists_refuting_choice hne
  have hmap {p} (hp : p ∈ definition.inputDescriptorsMap) :=
    effective_of_lookup ((Members.lookup_eq_some_iff nodup_inputDescriptorsMap).mpr hp)
  have hvalid : ∀ c ∈ definition.inputDescriptorsMap.map (fun p => choice p.2),
      definition.Effective c.desc ∧ c.desc.Admits definition c.format ∧
        c.desc.satisfiedBy c.json = true := by
    intro c hc
    obtain ⟨p, hp, rfl⟩ := List.mem_map.mp hc
    obtain ⟨he, -, heff⟩ := hmap hp
    obtain ⟨ha, hs, -⟩ := hchoice p.2 he heff
    rw [hdesc']
    exact ⟨heff, ha, hs⟩
  have hcover : ∀ d ∈ definition.inputDescriptors,
      ∃ c ∈ definition.inputDescriptorsMap.map (fun p => choice p.2), c.desc.id = d.id := by
    intro d hd
    obtain ⟨e, hid, heff⟩ := exists_effective hd
    refine ⟨choice e, List.mem_map.mpr ⟨(e.id, e), ?_, rfl⟩, by rw [hdesc', hid]⟩
    exact Members.mem_of_lookup_eq_some heff
  obtain ⟨sub, m, hm, hcands⟩ := accepted_choices hr hvalid hcover
  obtain ⟨cand, hcand, hs, ha⟩ := h Unit itemDecoder sub _ m hm desc hdesc
  obtain ⟨c, hc, hj, hf⟩ := hcands cand hcand
  obtain ⟨p, hp, rfl⟩ := List.mem_map.mp hc
  obtain ⟨he, -, heff⟩ := hmap hp
  exact (hchoice p.2 he heff).2.2 ⟨hj ▸ hs, hf ▸ ha⟩

/-- Acceptance means satisfaction exactly when every descriptor of the definition is entailed by
one that stands for its id. Descriptors with an id of their own stand for it themselves. -/
theorem accepted_iff_entailed (hr : definition.submissionRequirements = none) :
    definition.AcceptanceMeansSatisfaction ↔
      ∀ desc ∈ definition.inputDescriptors, ∃ e ∈ definition.inputDescriptors,
        definition.Effective e ∧ e.Entails desc definition := by
  constructor
  · intro h desc hdesc
    exact entailed_of_acceptanceMeansSatisfaction hr h hdesc
  · intro h T decoder sub value m hm desc hdesc
    obtain ⟨e, he, heff, hent⟩ := h desc hdesc
    obtain ⟨c, hc, hs, ha⟩ := effective_satisfied hr hm he heff
    exact ⟨c, hc, hent _ _ hs ha⟩

end

namespace Sample
open scoped Reference

/-- Two descriptors of one id, where only the second one can be satisfied. -/
def sharedId : PresentationDefinition where
  id := "definition"
  inputDescriptors := [.new "id" ⟨[{
      id := none, name := none, purpose := none, path := .new (SerdeJsonPath.index 0)
      «optional» := none, filter := some ⟨⟨.bool false, rfl⟩, rfl⟩, predicate := none
      intentToRetain := false }], none⟩,
    .new "id" .new]
  submissionRequirements := none
  name := none
  purpose := none
  format := .empty

/-- A claim of that id is accepted, and it does not satisfy the first descriptor. -/
theorem not_acceptanceMeansSatisfaction : ¬sharedId.AcceptanceMeansSatisfaction := by
  intro h
  obtain ⟨c, hc, hs, -⟩ := h Unit noClaimsDecoder
    ⟨UuidCrate.nil, "definition", [.new "id" .ldpVc (SerdeJsonPath.index 0)]⟩ value _ rfl _
    List.mem_cons_self
  obtain rfl := List.mem_singleton.mp hc
  exact absurd hs (by decide)

/-- A definition whose descriptor has an id of its own. -/
theorem accepted_iff_entailed_definition : definition.submissionRequirements = none ∧
    (definition.AcceptanceMeansSatisfaction ↔
      ∀ desc ∈ definition.inputDescriptors, ∃ e ∈ definition.inputDescriptors,
        definition.Effective e ∧ e.Entails desc definition) :=
  ⟨rfl, accepted_iff_entailed rfl⟩

end Sample
end OpenID4VP
