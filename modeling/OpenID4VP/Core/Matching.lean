import OpenID4VP.Core.PresentationSubmission
import OpenID4VP.Crates.Reference

/-! # What a search for inputs finds

An entry of a submission has a *candidate* for each item that its path selects in its enclosing
JSON; a nested entry is searched in the JSON form of every enclosing candidate that satisfies its
own descriptor. A candidate is *accepted* when it satisfies its descriptor and, if its entry has a
nested one, some candidate of the nested entry is accepted inside it. `findInputs_exact` says that
the inputs are the accepted candidates, nested ones before their parents. -/

namespace OpenID4VP

section
variable [SerdeJsonPath] [JsonSchema]

/-- An item that an entry selects, as decoded. -/
structure Candidate (T : Type) where
  entry : DescriptorMap
  item : Json
  value : T
  json : Option Json

/-- What an input says about its candidate. -/
def DecodedInput.described (i : DecodedInput T) : String × ClaimFormatDesignation × T :=
  (i.descriptorId, i.format, i.value)

def Candidate.described (c : Candidate T) : String × ClaimFormatDesignation × T :=
  (c.entry.id, c.entry.format, c.value)

/-- The decoded JSON satisfies the constraints of the descriptor, if it has any. -/
def InputDescriptor.satisfiedBy (desc : InputDescriptor) (json : Option Json) : Bool :=
  desc.constraints.isEmpty || json.any desc.constraints.matches

/-- The format is listed by the descriptor or, when that lists none, by the definition (if it
lists any). -/
def InputDescriptor.Admits (desc : InputDescriptor) (definition : PresentationDefinition)
    (format : ClaimFormatDesignation) : Prop :=
  (desc.format.isEmpty = false → desc.format.containsKey format = true) ∧
  (desc.format.isEmpty = true → definition.format.isEmpty = false →
    definition.format.containsKey format = true)

section
variable (definition : PresentationDefinition) (decoder : ClaimsDecoder T)

namespace DescriptorMap

/-- The descriptor that an entry refers to. -/
def descriptor (d : DescriptorMap) : Option InputDescriptor :=
  definition.inputDescriptorsMap.lookup d.id

/-- An item of an entry, decoded under the format constraint of the entry's descriptor. -/
def decodeItem (d : DescriptorMap) (desc : InputDescriptor) (item : Json) :
    Option (T × Option Json) :=
  match formatConstraint definition desc d.format with
  | .ok constraint => (decoder.decode item d.format constraint).toOption
  | .error _ => none

mutual
def accepts : DescriptorMap → Json → Bool
  | ⟨id, format, path, pathNested⟩, item =>
    match definition.inputDescriptorsMap.lookup id with
    | none => false
    | some desc =>
      match decodeItem definition decoder ⟨id, format, path, pathNested⟩ desc item with
      | none => false
      | some (_, json) => desc.satisfiedBy json && acceptsNested pathNested json

/-- Some item of the nested entry is accepted inside the JSON of its enclosing candidate. -/
def acceptsNested : Option DescriptorMap → Option Json → Bool
  | none, _ => true
  | some d, some json => (SerdeJsonPath.query d.path json).any fun item => accepts d item
  | some _, none => false
end

mutual
/-- The candidates of an entry and of the entries nested in it, nested candidates first. -/
def candidates : DescriptorMap → Json → List (Candidate T)
  | ⟨id, format, path, pathNested⟩, value =>
    (SerdeJsonPath.query path value).flatMap fun item =>
      match definition.inputDescriptorsMap.lookup id with
      | none => []
      | some desc =>
        match decodeItem definition decoder ⟨id, format, path, pathNested⟩ desc item with
        | none => []
        | some (v, json) =>
          (if desc.satisfiedBy json then candidatesNested pathNested json else []) ++
            [⟨⟨id, format, path, pathNested⟩, item, v, json⟩]

def candidatesNested : Option DescriptorMap → Option Json → List (Candidate T)
  | some d, some json => candidates d json
  | _, _ => []
end

/-- The candidates of one item. -/
def itemCandidates (d : DescriptorMap) (item : Json) : List (Candidate T) :=
  match d.descriptor definition with
  | none => []
  | some desc =>
    match d.decodeItem definition decoder desc item with
    | none => []
    | some (v, json) =>
      (if desc.satisfiedBy json then candidatesNested definition decoder d.pathNested json
        else []) ++ [⟨d, item, v, json⟩]

theorem candidates_eq (d : DescriptorMap) (value : Json) :
    d.candidates definition decoder value =
      (SerdeJsonPath.query d.path value).flatMap (d.itemCandidates definition decoder) := by
  obtain ⟨id, format, path, nested⟩ := d
  rw [candidates]
  rfl

theorem accepts_eq (d : DescriptorMap) (item : Json) :
    d.accepts definition decoder item =
      match d.descriptor definition with
      | none => false
      | some desc => match d.decodeItem definition decoder desc item with
        | none => false
        | some (_, json) =>
          desc.satisfiedBy json && acceptsNested definition decoder d.pathNested json := by
  obtain ⟨id, format, path, nested⟩ := d
  rw [accepts]
  rfl

end DescriptorMap

def Candidate.accepted (c : Candidate T) : Bool := c.entry.accepts definition decoder c.item

/-- The accepted candidates of an entry, in visiting order. -/
def DescriptorMap.acceptedCandidates (d : DescriptorMap) (value : Json) : List (Candidate T) :=
  (d.candidates definition decoder value).filter (Candidate.accepted definition decoder)

/-- The accepted candidates of a submission, in visiting order. -/
def PresentationSubmission.acceptedCandidates [UuidCrate] (s : PresentationSubmission)
    (value : Json) : List (Candidate T) :=
  s.descriptorMap.flatMap fun d => d.acceptedCandidates definition decoder value

end

/-! ## Accepted candidates -/

variable {definition : PresentationDefinition} {decoder : ClaimsDecoder T}

namespace DescriptorMap

theorem acceptedCandidates_eq (d : DescriptorMap) (value : Json) :
    d.acceptedCandidates definition decoder value =
      (SerdeJsonPath.query d.path value).flatMap fun item =>
        (d.itemCandidates definition decoder item).filter
          (Candidate.accepted definition decoder) := by
  rw [acceptedCandidates, candidates_eq, List.filter_flatMap]

/-- The accepted candidates of an accepted item: those nested in it, and the item itself. -/
theorem itemCandidates_of_accepts {d : DescriptorMap} {item : Json} {desc : InputDescriptor}
    {v : T} {json : Option Json} (hd : d.descriptor definition = some desc)
    (hv : d.decodeItem definition decoder desc item = some (v, json))
    (ha : d.accepts definition decoder item = true) :
    (d.itemCandidates definition decoder item).filter (Candidate.accepted definition decoder) =
      (candidatesNested definition decoder d.pathNested json).filter
        (Candidate.accepted definition decoder) ++ [⟨d, item, v, json⟩] := by
  have hs : desc.satisfiedBy json = true := by
    rw [accepts_eq, hd] at ha
    simp only [hv, Bool.and_eq_true] at ha
    exact ha.1
  simp [itemCandidates, hd, hv, hs, Candidate.accepted, ha]

/-- In an item that is not accepted no candidate is accepted, however deep it is nested. -/
theorem itemCandidates_of_not_accepts : ∀ {d : DescriptorMap} {item : Json},
    d.accepts definition decoder item = false →
    (d.itemCandidates definition decoder item).filter (Candidate.accepted definition decoder) = []
  | ⟨id, format, path, nested⟩, item, h => by
    have ha := h
    rw [accepts_eq] at h
    rw [itemCandidates]
    split
    · rfl
    · next desc hd =>
      split
      · rfl
      · next v json hv =>
        simp only [hd, hv, Bool.and_eq_false_iff] at h
        have hc : Candidate.accepted definition decoder
            (⟨⟨id, format, path, nested⟩, item, v, json⟩ : Candidate T) = false := ha
        rw [List.filter_append, List.filter_singleton, hc]
        split
        · next hs =>
          have hn := h.resolve_left (by simp [hs])
          match nested, json with
          | none, _ => simp [acceptsNested] at hn
          | some d, none => rfl
          | some d, some json =>
            simp only [acceptsNested, List.any_eq_false, Bool.not_eq_true] at hn
            change (d.candidates definition decoder json).filter _ ++ [] = []
            rw [List.append_nil, ← acceptedCandidates, acceptedCandidates_eq,
              List.flatMap_eq_nil_iff]
            exact fun item hi => itemCandidates_of_not_accepts (hn item hi)
        · rfl

theorem acceptedCandidates_eq_nil {d : DescriptorMap} {value : Json}
    (h : (SerdeJsonPath.query d.path value).any (d.accepts definition decoder) = false) :
    d.acceptedCandidates definition decoder value = [] := by
  rw [acceptedCandidates_eq, List.flatMap_eq_nil_iff]
  exact fun item hi => itemCandidates_of_not_accepts (by simpa using List.any_eq_false.mp h item hi)

/-! ## The search -/

/-- `search` appends the accepted candidates of entry `d`, and returns no index exactly when no
item of `d` itself is accepted. -/
def Finds (definition : PresentationDefinition) (decoder : ClaimsDecoder T) (d : DescriptorMap)
    (search : Json → Prog (List (DecodedInput T)) SubmissionError (List Nat)) : Prop :=
  ∀ {value s ids s'}, search value s = (.ok ids, s') →
    Grows DecodedInput.described s s'
      ((d.acceptedCandidates definition decoder value).map Candidate.described) ∧
    (ids.isEmpty = !(SerdeJsonPath.query d.path value).any (d.accepts definition decoder))

theorem checkConstraints_eq_ok_iff {desc : InputDescriptor} {format : ClaimFormatDesignation}
    {json : Option Json} {b : Bool} (h : checkConstraints desc format json = .ok b) :
    b = desc.satisfiedBy json := by
  rw [checkConstraints] at h
  split at h
  · next he => simp_all [InputDescriptor.satisfiedBy]
  · next he =>
    cases json with
    | none => simp [requireJson] at h
    | some json => simp_all [InputDescriptor.satisfiedBy, requireJson]

omit [JsonSchema] in
theorem pushInput_spec {d : DescriptorMap} {v : T} {indexes : List Nat} (item : Json)
    (json : Option Json) (h : pushInput d v indexes s = (.ok i, s')) :
    Grows DecodedInput.described s s' [(⟨d, item, v, json⟩ : Candidate T).described] := by
  cases h
  exact .push

/-- What a successful search has done with an item decoded to `v` and `json`: the index it returns,
and the inputs before and after it. -/
inductive ItemRun (d : DescriptorMap) (desc : InputDescriptor)
    (nested : Option (Json → Prog (List (DecodedInput T)) SubmissionError (List Nat)))
    (v : T) (json : Option Json) :
    Option Nat → List (DecodedInput T) → List (DecodedInput T) → Prop
  | unsatisfied (hs : desc.satisfiedBy json = false) : ItemRun d desc nested v json none s s
  | leaf (hs : desc.satisfiedBy json = true) (hn : nested = none)
    (hp : pushInput d v [] s = (.ok i, s')) : ItemRun d desc nested v json (some i) s s'
  | empty (hs : desc.satisfiedBy json = true) (hn : nested = some search) (hj : json = some j)
    (hi : search j s = (.ok [], s')) : ItemRun d desc nested v json none s s'
  | enclosing (hs : desc.satisfiedBy json = true) (hn : nested = some search) (hj : json = some j)
    (hi : search j s = (.ok indexes, s₁)) (he : indexes.isEmpty = false)
    (hp : pushInput d v indexes s₁ = (.ok i, s')) : ItemRun d desc nested v json (some i) s s'

omit [SerdeJsonPath] [JsonSchema] in
theorem requireJson_eq_ok_iff {format : ClaimFormatDesignation} {json : Option Json} {j : Json} :
    requireJson format json = .ok j ↔ json = some j := by
  cases json <;> simp [requireJson]

theorem itemRun_of_findItem {d : DescriptorMap} {desc : InputDescriptor}
    {constraint : Option ClaimFormatPayload}
    {nested : Option (Json → Prog (List (DecodedInput T)) SubmissionError (List Nat))}
    (h : findItem decoder d desc constraint nested item s = (.ok r, s')) :
    ∃ v json, decoder.decode item d.format constraint = .ok (v, json) ∧
      ItemRun d desc nested v json r s s' := by
  rw [findItem, Prog.ofExcept_bind_eq_ok_iff] at h
  obtain ⟨⟨v, json⟩, hdec, h⟩ := h
  refine ⟨v, json, Except.mapError_eq_ok_iff.mp hdec, ?_⟩
  dsimp only at h
  rw [Prog.ofExcept_bind_eq_ok_iff] at h
  obtain ⟨b, hb, h⟩ := h
  obtain rfl := checkConstraints_eq_ok_iff hb
  split at h
  · next hs =>
    cases nested with
    | none =>
      obtain ⟨i, _, hp, h⟩ := Prog.bind_eq_ok_iff.mp h
      obtain ⟨rfl, rfl⟩ := Prog.pure_eq_ok_iff.mp h
      exact .leaf hs rfl hp
    | some search =>
      dsimp only at h
      rw [Prog.ofExcept_bind_eq_ok_iff] at h
      obtain ⟨j, hj, h⟩ := h
      obtain rfl := requireJson_eq_ok_iff.mp hj
      obtain ⟨indexes, s₁, hi, h⟩ := Prog.bind_eq_ok_iff.mp h
      split at h
      · next he =>
        obtain ⟨rfl, rfl⟩ := Prog.pure_eq_ok_iff.mp h
        obtain rfl := List.isEmpty_iff.mp he
        exact .empty hs rfl rfl hi
      · next he =>
        obtain ⟨i, _, hp, h⟩ := Prog.bind_eq_ok_iff.mp h
        obtain ⟨rfl, rfl⟩ := Prog.pure_eq_ok_iff.mp h
        exact .enclosing hs rfl rfl hi (Bool.eq_false_iff.mpr he) hp
  · next hs =>
    obtain ⟨rfl, rfl⟩ := Prog.pure_eq_ok_iff.mp h
    exact .unsatisfied (Bool.eq_false_iff.mpr hs)

/-- One item appends its accepted candidates, and becomes an input exactly when it is accepted. -/
theorem findItem_spec {d : DescriptorMap} {desc : InputDescriptor}
    {constraint : Option ClaimFormatPayload}
    {nested : Option (Json → Prog (List (DecodedInput T)) SubmissionError (List Nat))}
    (hd : d.descriptor definition = some desc)
    (hc : formatConstraint definition desc d.format = .ok constraint)
    (hn : Option.Rel (Finds definition decoder) d.pathNested nested)
    (h : findItem decoder d desc constraint nested item s = (.ok r, s')) :
    Grows DecodedInput.described s s' (((d.itemCandidates definition decoder item).filter
      (Candidate.accepted definition decoder)).map Candidate.described) ∧
    r.isSome = d.accepts definition decoder item := by
  obtain ⟨v, json, hdec, hrun⟩ := itemRun_of_findItem h
  have hv : d.decodeItem definition decoder desc item = some (v, json) := by
    rw [decodeItem, hc]
    simp [hdec, Except.toOption]
  have hacc := accepts_eq definition decoder d item
  simp only [hd, hv] at hacc
  have skip (hf : d.accepts definition decoder item = false) :
      Grows DecodedInput.described s s (((d.itemCandidates definition decoder item).filter
        (Candidate.accepted definition decoder)).map Candidate.described) ∧
      (none : Option Nat).isSome = d.accepts definition decoder item := by
    rw [itemCandidates_of_not_accepts hf, hf]
    exact ⟨.refl, rfl⟩
  generalize hp : d.pathNested = pathNested at *
  cases hrun with
  | unsatisfied hs => exact skip (by rw [hacc, hs, Bool.false_and])
  | leaf hs hn' hi =>
    subst hn'
    cases hn
    have ht : d.accepts definition decoder item = true := by
      rw [hacc, hs]
      rfl
    rw [itemCandidates_of_accepts hd hv ht, hp, ht]
    exact ⟨pushInput_spec item json hi, rfl⟩
  | empty hs hn' hj hi =>
    -- nothing is accepted inside the item, so nothing has been appended
    subst hn' hj
    cases hn with
    | some hn =>
      obtain ⟨hg, he⟩ := hn hi
      rw [List.isEmpty_nil, eq_comm, Bool.not_eq_true'] at he
      rw [acceptedCandidates_eq_nil he] at hg
      rw [hg.eq_of_nil]
      exact skip (by rw [hacc, hs, acceptsNested, he, Bool.true_and])
  | enclosing hs hn' hj hi hne hp' =>
    subst hn' hj
    cases hn with
    | some hn =>
      obtain ⟨hg, he⟩ := hn hi
      have ht : d.accepts definition decoder item = true := by
        rw [hne, eq_comm, Bool.not_eq_false'] at he
        rw [hacc, hs, acceptsNested, he, Bool.true_and]
      rw [itemCandidates_of_accepts hd hv ht, hp, List.map_append, ht]
      exact ⟨hg.trans (pushInput_spec item _ hp'), rfl⟩

/-- A search through items goes through the first of them, and then through the others. -/
theorem findItems_cons_eq_ok {d : DescriptorMap} {desc : InputDescriptor}
    {constraint : Option ClaimFormatPayload}
    {nested : Option (Json → Prog (List (DecodedInput T)) SubmissionError (List Nat))}
    (h : findItems decoder d desc constraint nested (item :: items) s = (.ok ids, s')) :
    ∃ r rs s₁, findItem decoder d desc constraint nested item s = (.ok r, s₁) ∧
      findItems decoder d desc constraint nested items s₁ = (.ok rs, s') ∧
      ids = r.toList ++ rs := by
  rw [findItems] at h
  obtain ⟨r, s₁, hr, h⟩ := Prog.bind_eq_ok_iff.mp h
  obtain ⟨rs, s₂, hrs, h⟩ := Prog.bind_eq_ok_iff.mp h
  obtain ⟨rfl, rfl⟩ := Prog.pure_eq_ok_iff.mp h
  exact ⟨r, rs, s₁, hr, hrs, rfl⟩

theorem findItems_spec {d : DescriptorMap} {desc : InputDescriptor}
    {constraint : Option ClaimFormatPayload}
    {nested : Option (Json → Prog (List (DecodedInput T)) SubmissionError (List Nat))}
    (hd : d.descriptor definition = some desc)
    (hc : formatConstraint definition desc d.format = .ok constraint)
    (hn : Option.Rel (Finds definition decoder) d.pathNested nested)
    (h : findItems decoder d desc constraint nested items s = (.ok ids, s')) :
    Grows DecodedInput.described s s' ((items.flatMap fun item =>
      (d.itemCandidates definition decoder item).filter
        (Candidate.accepted definition decoder)).map Candidate.described) ∧
    ids.isEmpty = !items.any (d.accepts definition decoder) := by
  induction items generalizing s ids with
  | nil =>
    obtain ⟨rfl, rfl⟩ := Prog.pure_eq_ok_iff.mp h
    exact ⟨.refl, rfl⟩
  | cons item items ih =>
    obtain ⟨r, rs, s₁, hr, hrs, rfl⟩ := findItems_cons_eq_ok h
    obtain ⟨hg, ha⟩ := findItem_spec hd hc hn hr
    obtain ⟨hgs, has⟩ := ih hrs
    refine ⟨?_, ?_⟩
    · rw [List.flatMap_cons, List.map_append]
      exact hg.trans hgs
    · rw [List.any_cons, Bool.not_or, ← has, ← ha]
      cases r <;> rfl

/-- A search that ends has found the descriptor of its entry, and has gone through the items that
the path selects. -/
theorem findInputsWith_eq_ok {descriptors : List (String × InputDescriptor)} {id : String}
    {format : ClaimFormatDesignation} {path : JsonPath} {pathNested : Option DescriptorMap}
    (h : findInputsWith definition descriptors decoder ⟨id, format, path, pathNested⟩ value s =
      (.ok ids, s')) :
    ∃ desc constraint, descriptors.lookup id = some desc ∧
      formatConstraint definition desc format = .ok constraint ∧
      findItems decoder ⟨id, format, path, pathNested⟩ desc constraint
        (findNestedWith definition descriptors decoder pathNested)
        (SerdeJsonPath.query path value) s = (.ok ids, s') := by
  rw [findInputsWith] at h
  cases hd : descriptors.lookup id with
  | none => simp [hd] at h
  | some desc =>
    simp only [hd] at h
    obtain ⟨constraint, hc, hi⟩ := Prog.ofExcept_bind_eq_ok_iff.mp h
    exact ⟨desc, constraint, rfl, hc, hi⟩

/-- The search for an entry, by induction on its nesting. -/
theorem findInputsWith_spec : ∀ d : DescriptorMap, Finds definition decoder d
    (findInputsWith definition definition.inputDescriptorsMap decoder d)
  | ⟨id, format, path, nested⟩ => by
    intro h
    obtain ⟨desc, constraint, hd, hc, hi⟩ := findInputsWith_eq_ok h
    rw [acceptedCandidates_eq]
    refine findItems_spec hd hc ?_ hi
    match nested with
    | none => exact .none
    | some n => exact .some (findInputsWith_spec n)

end DescriptorMap

namespace PresentationSubmission

theorem findAllInputs_spec (h : findAllInputs definition value decoder ds s = (.ok r, s')) :
    Grows DecodedInput.described s s'
      ((ds.flatMap fun d => d.acceptedCandidates definition decoder value).map
        Candidate.described) := by
  induction ds generalizing s with
  | nil =>
    obtain ⟨-, rfl⟩ := Prog.pure_eq_ok_iff.mp h
    exact .refl
  | cons d ds ih =>
    rw [findAllInputs, Prog.bind_eq_ok_iff] at h
    obtain ⟨_, s₁, hd, h⟩ := h
    rw [List.flatMap_cons, List.map_append]
    exact (DescriptorMap.findInputsWith_spec d hd).1.trans (ih h)

variable [UuidCrate]

theorem inputs_eq {sub : PresentationSubmission} {m : MatchingInputs T}
    (h : sub.findInputs definition value decoder = .ok m) :
    m.inputs.map DecodedInput.described =
      (sub.acceptedCandidates definition decoder value).map Candidate.described := by
  rw [findInputs] at h
  split at h
  · next _ inputs hf =>
    obtain rfl := Except.ok.inj h
    exact (findAllInputs_spec hf).map_eq
  · simp at h

end PresentationSubmission

/-! ## What is known of a candidate -/

theorem admits_of_formatConstraint {desc : InputDescriptor} {format : ClaimFormatDesignation}
    {constraint : Option ClaimFormatPayload}
    (h : formatConstraint definition desc format = .ok constraint) :
    desc.Admits definition format := by
  rw [formatConstraint] at h
  refine ⟨fun he => ?_, fun he hde => ?_⟩
  · rw [ClaimFormatMap.containsKey]
    cases hf : desc.format.get? format with
    | some payload => rfl
    | none => simp [hf, he] at h
  · rw [ClaimFormatMap.containsKey]
    cases hf : desc.format.get? format with
    | some payload =>
      -- a map that lists the format is not empty
      rw [ClaimFormatMap.eq_empty_of_isEmpty he] at hf
      simp [ClaimFormatMap.get?, ClaimFormatMap.empty] at hf
    | none =>
      cases hdf : definition.format.get? format with
      | some payload => rfl
      | none => simp [hf, he, hdf, hde] at h

/-- The candidate was decoded under the format constraint of its descriptor. -/
def Candidate.Decoded (definition : PresentationDefinition) (decoder : ClaimsDecoder T)
    (c : Candidate T) : Prop :=
  ∃ desc, c.entry.descriptor definition = some desc ∧
    c.entry.decodeItem definition decoder desc c.item = some (c.value, c.json)

namespace DescriptorMap

/-- What acceptance of an item means, clause by clause. -/
theorem accepts_iff {d : DescriptorMap} {item : Json} :
    d.accepts definition decoder item = true ↔
      ∃ desc v json, d.descriptor definition = some desc ∧
        d.decodeItem definition decoder desc item = some (v, json) ∧
        desc.satisfiedBy json = true ∧
        ∀ n, d.pathNested = some n → ∃ j, json = some j ∧
          ∃ item' ∈ SerdeJsonPath.query n.path j, n.accepts definition decoder item' = true := by
  rw [accepts_eq]
  cases hd : d.descriptor definition with
  | none => simp
  | some desc =>
    cases hv : d.decodeItem definition decoder desc item with
    | none => simp [hv]
    | some p =>
      obtain ⟨v, json⟩ := p
      cases hn : d.pathNested <;> cases json <;> simp [hv, acceptsNested]

theorem decoded_of_mem_candidates : ∀ {d : DescriptorMap} {value : Json} {c : Candidate T},
    c ∈ d.candidates definition decoder value → c.Decoded definition decoder
  | ⟨id, format, path, nested⟩, value, c, h => by
    rw [candidates_eq, List.mem_flatMap] at h
    obtain ⟨item, -, h⟩ := h
    rw [itemCandidates] at h
    split at h
    · simp at h
    · next desc hd =>
      split at h
      · simp at h
      · next v json hv =>
        rcases List.mem_append.mp h with h | h
        · split at h
          · match nested, json with
            | some n, some json => exact decoded_of_mem_candidates h
            | none, _ | some _, none => simp [candidatesNested] at h
          · simp at h
        · obtain rfl := List.mem_singleton.mp h
          exact ⟨desc, hd, hv⟩

end DescriptorMap

/-- The candidate has an admitted format. -/
theorem Candidate.Decoded.admits {c : Candidate T} (h : c.Decoded definition decoder) :
    ∃ desc, c.entry.descriptor definition = some desc ∧
      desc.Admits definition c.entry.format := by
  obtain ⟨desc, hd, hv⟩ := h
  refine ⟨desc, hd, ?_⟩
  rw [DescriptorMap.decodeItem] at hv
  split at hv
  · next hc => exact admits_of_formatConstraint hc
  · simp at hv

/-- An accepted candidate satisfies its descriptor. -/
theorem Candidate.Decoded.satisfiedBy {c : Candidate T} (h : c.Decoded definition decoder)
    (ha : c.accepted definition decoder = true) :
    ∃ desc, c.entry.descriptor definition = some desc ∧ desc.satisfiedBy c.json = true ∧
      desc.Admits definition c.entry.format := by
  obtain ⟨desc, hd, hadm⟩ := h.admits
  obtain ⟨desc', hd', hv⟩ := h
  obtain ⟨desc'', v, json, hd'', hv'', hs, -⟩ := DescriptorMap.accepts_iff.mp ha
  rw [hd] at hd' hd''
  obtain rfl := Option.some.inj hd'
  obtain rfl := Option.some.inj hd''
  rw [hv, Option.some.injEq, Prod.mk.injEq] at hv''
  exact ⟨desc, hd, hv''.2 ▸ hs, hadm⟩

namespace PresentationSubmission
variable [UuidCrate]

theorem mem_acceptedCandidates {sub : PresentationSubmission} {c : Candidate T}
    (h : c ∈ sub.acceptedCandidates definition decoder value) :
    c.Decoded definition decoder ∧ c.accepted definition decoder = true := by
  obtain ⟨d, -, h⟩ := List.mem_flatMap.mp h
  obtain ⟨h, ha⟩ := List.mem_filter.mp h
  exact ⟨DescriptorMap.decoded_of_mem_candidates h, ha⟩

/-- The search is exact. The inputs are the accepted candidates in visiting order, one
for each, and every input has a format that its descriptor (or else the definition) lists. -/
theorem findInputs_exact {sub : PresentationSubmission} {m : MatchingInputs T}
    (h : sub.findInputs definition value decoder = .ok m) :
    m.inputs.map DecodedInput.described =
      (sub.acceptedCandidates definition decoder value).map Candidate.described ∧
    ∀ i ∈ m.inputs, ∃ desc, definition.inputDescriptorsMap.lookup i.descriptorId = some desc ∧
      desc.Admits definition i.format := by
  have heq := inputs_eq h
  refine ⟨heq, fun i hi => ?_⟩
  have hm : i.described ∈ m.inputs.map DecodedInput.described := List.mem_map_of_mem hi
  rw [heq] at hm
  obtain ⟨c, hc, hci⟩ := List.mem_map.mp hm
  obtain ⟨desc, hd, hadm⟩ := (mem_acceptedCandidates hc).1.admits
  simp only [Candidate.described, DecodedInput.described, Prod.mk.injEq] at hci
  exact ⟨desc, hci.1 ▸ hd, hci.2.1 ▸ hadm⟩

end PresentationSubmission
end

/-! ## An example -/

namespace Sample
open scoped Reference

/-- A definition with one descriptor, which asks for nothing. -/
def definition : PresentationDefinition := .new "definition" (.new "id" .new)

/-- An envelope at `$[0]` with a claim at its `$[0]`. -/
def envelope : DescriptorMap :=
  (DescriptorMap.new "id" .ldpVp (SerdeJsonPath.index 0)).setPathNested
    (.new "claim" .ldpVc (SerdeJsonPath.index 0))

def submission : PresentationSubmission :=
  ⟨UuidCrate.nil, "definition", [envelope]⟩

def value : Json := .array [.array [.string "claim"]]

theorem findInputs_exact_envelope : ∃ m,
    submission.findInputs definition value noClaimsDecoder = .ok m ∧
    m.inputs.map DecodedInput.described = [("id", .ldpVc, ()), ("id", .ldpVp, ())] ∧
    m.inputs.map DecodedInput.described =
      (submission.acceptedCandidates definition noClaimsDecoder value).map
        Candidate.described ∧
    ∀ i ∈ m.inputs, ∃ desc, definition.inputDescriptorsMap.lookup i.descriptorId = some desc ∧
      desc.Admits definition i.format :=
  ⟨_, rfl, rfl, PresentationSubmission.findInputs_exact rfl⟩

end Sample
end OpenID4VP
