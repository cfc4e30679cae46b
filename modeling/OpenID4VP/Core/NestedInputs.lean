import OpenID4VP.Lib.Forest
import OpenID4VP.Core.Matching

/-! # The forest of the inputs

A search returns the indices of the inputs that its entry adds itself. The others that it adds are
nested in these, or in inputs nested in them. `findInputs_forest` says that every input that is
added has one place, that no index is out of bounds, and that all inputs are listed by their
descriptor ids in the end. -/

namespace OpenID4VP

/-! ## Groups of indices -/

/-- The indices are grouped by the descriptor ids of the inputs that they stand for. -/
structure Groups (claims : List (DecodedInput T)) (m : List (String × List Nat))
    (indexes : List Nat) : Prop where
  nodup : (Members.keys m).Nodup
  perm : (m.flatMap Prod.snd).Perm indexes
  nonempty : ∀ g ∈ m, g.2 ≠ []
  own : ∀ g ∈ m, ∀ i ∈ g.2, ∃ c, claims[i]? = some c ∧ c.descriptorId = g.1

theorem flatMap_pushIndex (m : List (String × List Nat)) (k : String) (i : Nat) :
    ((pushIndex m k i).flatMap Prod.snd).Perm (m.flatMap Prod.snd ++ [i]) := by
  rw [pushIndex]
  induction m with
  | nil => exact .refl _
  | cons g m ih =>
    obtain ⟨k', is⟩ := g
    rw [Members.insert, Members.lookup_cons]
    split
    · next he =>
      subst he
      rw [if_pos rfl, Option.getD_some, List.flatMap_cons, List.flatMap_cons, List.append_assoc,
        List.append_assoc]
      exact .append_left _ List.perm_append_comm
    · next he =>
      rw [if_neg (Ne.symm he), List.flatMap_cons, List.flatMap_cons, List.append_assoc]
      exact .append_left _ ih

namespace Groups
variable {claims : List (DecodedInput T)} {m : List (String × List Nat)} {indexes : List Nat}

theorem nil : Groups claims [] [] := ⟨List.nodup_nil, .refl _, by simp, by simp⟩

/-- Inputs added at the end change no group. -/
theorem append (h : Groups claims m indexes) (new : List (DecodedInput T)) :
    Groups (claims ++ new) m indexes where
  nodup := h.nodup
  perm := h.perm
  nonempty := h.nonempty
  own := by
    intro g hg i hi
    obtain ⟨c, hc, hk⟩ := h.own g hg i hi
    obtain ⟨hl, -⟩ := List.getElem?_eq_some_iff.mp hc
    exact ⟨c, by rw [List.getElem?_append_left hl, hc], hk⟩

theorem push (h : Groups claims m indexes) {i : Nat} {c : DecodedInput T}
    (hc : claims[i]? = some c) :
    Groups claims (pushIndex m c.descriptorId i) (indexes ++ [i]) where
  nodup := Members.nodup_keys_insert h.nodup
  perm := (flatMap_pushIndex m c.descriptorId i).trans (h.perm.append_right _)
  nonempty := by
    intro g hg
    rcases Members.mem_insert hg with rfl | hg
    · simp
    · exact h.nonempty g hg
  own := by
    intro g hg i' hi
    rcases Members.mem_insert hg with rfl | hg
    · rcases List.mem_append.mp hi with hi | hi
      · cases hl : m.lookup c.descriptorId with
        | none => simp [hl] at hi
        | some is =>
          rw [hl] at hi
          exact h.own _ (Members.mem_of_lookup_eq_some hl) i' hi
      · obtain rfl := List.mem_singleton.mp hi
        exact ⟨c, hc, rfl⟩
    · exact h.own g hg i' hi

end Groups

theorem groups_groupByInputDescriptor {claims : List (DecodedInput T)} {indexes : List Nat}
    (h : ∀ i ∈ indexes, i < claims.length) :
    Groups claims (groupByInputDescriptor claims indexes) indexes := by
  have aux (m : List (String × List Nat)) (before : List Nat) (hm : Groups claims m before) :
      Groups claims (indexes.foldl (groupIndex claims) m) (before ++ indexes) := by
    induction indexes generalizing m before with
    | nil =>
      rw [List.append_nil]
      exact hm
    | cons i indexes ih =>
      obtain ⟨hi, hs⟩ := List.forall_mem_cons.mp h
      have hc : claims[i]? = some claims[i] := List.getElem?_eq_getElem hi
      have hp := ih hs _ _ (hm.push hc)
      rw [List.append_assoc] at hp
      rw [List.foldl_cons, groupIndex, hc]
      exact hp
  exact aux [] [] .nil

/-! ## Forests of inputs -/

/-- The indices of all inputs that are nested in an input. -/
def DecodedInput.children (p : DecodedInput T) : List Nat := p.nested.flatMap Prod.snd

/-- The inputs added to `s` are a forest with the roots `ids`, each with its nested inputs grouped
by their ids. -/
def GrowsForest (s : List (DecodedInput T)) (ids : List Nat) (s' : List (DecodedInput T)) : Prop :=
  ∃ new, s' = s ++ new ∧ Forest DecodedInput.children s.length ids new ∧
    ∀ p ∈ new, Groups s' p.nested p.children

namespace GrowsForest
variable {s s' s'' : List (DecodedInput T)} {ids ids' : List Nat}

theorem refl : GrowsForest s [] s := ⟨[], by simp, .refl, by simp⟩

theorem lt_length (h : GrowsForest s ids s') : ∀ i ∈ ids, i < s'.length := by
  obtain ⟨new, rfl, hf, -⟩ := h
  intro i hi
  rw [List.length_append]
  exact (hf.mem_roots hi).2

theorem append (h : GrowsForest s ids s') (h' : GrowsForest s' ids' s'') :
    GrowsForest s (ids ++ ids') s'' := by
  obtain ⟨new, rfl, hf, hg⟩ := h
  obtain ⟨new', rfl, hf', hg'⟩ := h'
  rw [List.length_append] at hf'
  refine ⟨new ++ new', List.append_assoc s new new', hf.append hf', ?_⟩
  intro p hp
  rcases List.mem_append.mp hp with hp | hp
  · exact (hg p hp).append new'
  · exact hg' p hp

/-- An input over those that were found. -/
theorem push [SerdeJsonPath] (h : GrowsForest s ids s') {d : DescriptorMap} {v : T} {i : Nat}
    (hp : d.pushInput v ids s' = (.ok i, s'')) : GrowsForest s [i] s'' := by
  have hg := groups_groupByInputDescriptor h.lt_length
  obtain ⟨new, rfl, hf, hn⟩ := h
  cases hp
  rw [List.length_append]
  refine ⟨_, List.append_assoc _ _ _, hf.push hg.perm, ?_⟩
  intro p hp
  rcases List.mem_append.mp hp with hp | hp
  · exact (hn p hp).append _
  · obtain rfl := List.mem_singleton.mp hp
    exact { hg.append _ with perm := .refl _ }

end GrowsForest

/-! ## The search with checked indices -/

/-- How a program stops: with an error, or as an index is out of bounds. -/
inductive Stop
  | error (e : SubmissionError)
  | outOfBounds

/-- `groupByInputDescriptor`, stopping at an index that is out of bounds. -/
def groupByInputDescriptor! (claims : List (DecodedInput T)) (indexes : List Nat) :
    Except Stop (List (String × List Nat)) :=
  indexes.foldlM (fun m i => match claims[i]? with
    | some c => return pushIndex m c.descriptorId i
    | none => throw .outOfBounds) []

theorem groupByInputDescriptor!_eq {claims : List (DecodedInput T)} {indexes : List Nat}
    (h : ∀ i ∈ indexes, i < claims.length) :
    groupByInputDescriptor! claims indexes = .ok (groupByInputDescriptor claims indexes) := by
  rw [groupByInputDescriptor!, groupByInputDescriptor]
  generalize ([] : List (String × List Nat)) = m
  induction indexes generalizing m with
  | nil => rfl
  | cons i indexes ih =>
    obtain ⟨hi, hs⟩ := List.forall_mem_cons.mp h
    rw [List.foldlM_cons, List.foldl_cons, groupIndex, List.getElem?_eq_getElem hi]
    exact ih hs _

section
variable [SerdeJsonPath] [JsonSchema]

namespace DescriptorMap

section
variable (definition : PresentationDefinition) (descriptors : List (String × InputDescriptor))
  (decoder : ClaimsDecoder T)

def pushInput! (d : DescriptorMap) (value : T) (indexes : List Nat) :
    Prog (List (DecodedInput T)) Stop Nat := fun inputs =>
  match groupByInputDescriptor! inputs indexes with
  | .ok nested => (.ok inputs.length, inputs ++ [{
      descriptorId := d.id
      format := d.format
      value := value
      nested := nested }])
  | .error e => (.error e, inputs)

def findItem! (d : DescriptorMap) (desc : InputDescriptor) (constraint : Option ClaimFormatPayload)
    (nested : Option (Json → Prog (List (DecodedInput T)) Stop (List Nat)))
    (item : Json) : Prog (List (DecodedInput T)) Stop (Option Nat) := do
  let (decoded, json) ← .mapError .error <| .ofExcept <|
    (decoder.decode item d.format constraint).mapError .decoding
  if ← .mapError .error <| .ofExcept <| checkConstraints desc d.format json then
    match nested with
    | none => return some (← pushInput! d decoded [])
    | some nested =>
      let indexes ← nested (← .mapError .error <| .ofExcept <| requireJson d.format json)
      if indexes.isEmpty then return none else return some (← pushInput! d decoded indexes)
  else return none

def findItems! (d : DescriptorMap) (desc : InputDescriptor)
    (constraint : Option ClaimFormatPayload)
    (nested : Option (Json → Prog (List (DecodedInput T)) Stop (List Nat))) :
    List Json → Prog (List (DecodedInput T)) Stop (List Nat)
  | [] => return []
  | item :: items => do
    let i ← findItem! decoder d desc constraint nested item
    return i.toList ++ (← findItems! d desc constraint nested items)

mutual
def findInputsWith! : DescriptorMap → Json →
    Prog (List (DecodedInput T)) Stop (List Nat)
  | ⟨id, format, path, pathNested⟩, value => do
    match descriptors.lookup id with
    | none => throw (.error (.undefinedInputDescriptor id))
    | some desc =>
      let constraint ← .mapError .error <| .ofExcept <| formatConstraint definition desc format
      findItems! decoder ⟨id, format, path, pathNested⟩ desc constraint
        (findNestedWith! pathNested) (SerdeJsonPath.query path value)

def findNestedWith! : Option DescriptorMap →
    Option (Json → Prog (List (DecodedInput T)) Stop (List Nat))
  | none => none
  | some d => some fun value => findInputsWith! d value
end
end

/-- `findInputs`, stopping at an index that is out of bounds. -/
def findInputs! (definition : PresentationDefinition) (decoder : ClaimsDecoder T)
    (d : DescriptorMap) (value : Json) : Prog (List (DecodedInput T)) Stop (List Nat) :=
  findInputsWith! definition definition.inputDescriptorsMap decoder d value

end DescriptorMap

/-! ## Searches grow forests -/

namespace DescriptorMap
variable {definition : PresentationDefinition} {decoder : ClaimsDecoder T}

/-- Whenever the search succeeds, it has grown a forest. -/
def GrowsForests (search : Json → Prog (List (DecodedInput T)) SubmissionError (List Nat)) : Prop :=
  ∀ value s ids s', search value s = (.ok ids, s') → GrowsForest s ids s'

theorem ItemRun.growsForest {d : DescriptorMap} {desc : InputDescriptor}
    {nested : Option (Json → Prog (List (DecodedInput T)) SubmissionError (List Nat))}
    {v : T} {json : Option Json} {r : Option Nat} {s s' : List (DecodedInput T)}
    (hn : ∀ search ∈ nested, GrowsForests search) (h : ItemRun d desc nested v json r s s') :
    GrowsForest s r.toList s' := by
  cases h with
  | unsatisfied => exact .refl
  | leaf _ _ hp => exact GrowsForest.refl.push hp
  | empty _ he _ hi => exact hn _ he _ _ _ _ hi
  | enclosing _ he _ hi _ hp => exact (hn _ he _ _ _ _ hi).push hp

theorem growsForest_of_findItems {d : DescriptorMap} {desc : InputDescriptor}
    {constraint : Option ClaimFormatPayload}
    {nested : Option (Json → Prog (List (DecodedInput T)) SubmissionError (List Nat))}
    (hn : ∀ search ∈ nested, GrowsForests search) {items : List Json} {ids : List Nat}
    {s s' : List (DecodedInput T)}
    (h : findItems decoder d desc constraint nested items s = (.ok ids, s')) :
    GrowsForest s ids s' := by
  induction items generalizing s ids with
  | nil =>
    obtain ⟨rfl, rfl⟩ := Prog.pure_eq_ok_iff.mp h
    exact .refl
  | cons item items ih =>
    obtain ⟨r, rs, s₁, hr, hrs, rfl⟩ := findItems_cons_eq_ok h
    obtain ⟨v, json, -, hrun⟩ := itemRun_of_findItem hr
    exact (hrun.growsForest hn).append (ih hrs)

mutual
/-- The search grows forests, by induction on the nesting of its entry. -/
theorem growsForests_findInputsWith (descriptors : List (String × InputDescriptor)) :
    ∀ d : DescriptorMap, GrowsForests (findInputsWith definition descriptors decoder d)
  | ⟨id, format, path, nested⟩ => by
    intro value s ids s' h
    obtain ⟨_, _, -, -, hi⟩ := findInputsWith_eq_ok h
    exact growsForest_of_findItems (growsForests_findNestedWith descriptors nested) hi

theorem growsForests_findNestedWith (descriptors : List (String × InputDescriptor)) :
    ∀ nested : Option DescriptorMap,
      ∀ search ∈ findNestedWith definition descriptors decoder nested, GrowsForests search
  | none, search, hs => by cases hs
  | some d, search, hs => by
    obtain rfl := Option.some.inj hs
    exact growsForests_findInputsWith descriptors d
end

/-! ## No index is out of bounds -/

omit [JsonSchema] in
theorem pushInput!_eq {d : DescriptorMap} {v : T} {indexes : List Nat}
    {s : List (DecodedInput T)} (h : ∀ i ∈ indexes, i < s.length) :
    pushInput! d v indexes s = Prog.mapError .error (pushInput d v indexes) s := by
  rw [pushInput!, groupByInputDescriptor!_eq h]
  rfl

omit [JsonSchema] in
theorem pushInput!_bind_eq {d : DescriptorMap} {v : T} {indexes : List Nat}
    {s : List (DecodedInput T)} (h : ∀ i ∈ indexes, i < s.length) :
    (pushInput! d v indexes >>= fun i => pure (some i)) s =
      Prog.mapError .error (pushInput d v indexes >>= fun i => pure (some i)) s := by
  rw [Prog.mapError_bind, Prog.bind_apply, Prog.bind_apply, pushInput!_eq h]
  rfl

theorem findItem!_eq {d : DescriptorMap} {desc : InputDescriptor}
    {constraint : Option ClaimFormatPayload}
    {nested : Option (Json → Prog (List (DecodedInput T)) SubmissionError (List Nat))}
    (hn : ∀ search ∈ nested, GrowsForests search) (item : Json) :
    findItem! decoder d desc constraint
        (nested.map fun search value => .mapError .error (search value)) item =
      .mapError .error (findItem decoder d desc constraint nested item) := by
  rw [findItem!, findItem]
  apply Prog.mapError_bind_congr
  rintro ⟨v, json⟩
  apply Prog.mapError_bind_congr
  intro b
  cases b with
  | false => rfl
  | true =>
    cases nested with
    | none => exact funext fun s => pushInput!_bind_eq (List.forall_mem_nil _)
    | some search =>
      change (Prog.mapError .error (.ofExcept (requireJson d.format json)) >>= fun j =>
          .mapError .error (search j) >>= fun indexes =>
            if indexes.isEmpty then pure none
            else pushInput! d v indexes >>= fun i => pure (some i)) =
        .mapError .error (.ofExcept (requireJson d.format json) >>= fun j =>
          search j >>= fun indexes =>
            if indexes.isEmpty then pure none
            else pushInput d v indexes >>= fun i => pure (some i))
      apply Prog.mapError_bind_congr
      intro j
      -- the indices are in bounds of the inputs that the search leaves
      rw [Prog.mapError_bind]
      apply Prog.bind_congr
      intro s indexes s' hi
      have hb := (hn search rfl j s indexes s' (Prog.mapError_eq_ok_iff.mp hi)).lt_length
      split
      · rfl
      · exact pushInput!_bind_eq hb

theorem findItems!_eq {d : DescriptorMap} {desc : InputDescriptor}
    {constraint : Option ClaimFormatPayload}
    {nested : Option (Json → Prog (List (DecodedInput T)) SubmissionError (List Nat))}
    (hn : ∀ search ∈ nested, GrowsForests search) (items : List Json) :
    findItems! decoder d desc constraint
        (nested.map fun search value => .mapError .error (search value)) items =
      .mapError .error (findItems decoder d desc constraint nested items) := by
  induction items with
  | nil => rfl
  | cons item items ih =>
    rw [findItems!, findItems, findItem!_eq hn, ih]
    apply Prog.mapError_bind_congr
    intro i
    apply Prog.mapError_bind_congr
    intro is
    rfl

mutual
/-- The searches are the same, so no index is out of bounds. -/
theorem findInputsWith!_eq (descriptors : List (String × InputDescriptor)) :
    ∀ (d : DescriptorMap) (value : Json), findInputsWith! definition descriptors decoder d value =
      .mapError .error (findInputsWith definition descriptors decoder d value)
  | ⟨id, format, path, nested⟩, value => by
    rw [findInputsWith!, findInputsWith]
    cases descriptors.lookup id with
    | none => rfl
    | some desc =>
      rw [findNestedWith!_eq descriptors nested]
      apply Prog.mapError_bind_congr
      intro constraint
      exact findItems!_eq (growsForests_findNestedWith descriptors nested) _

theorem findNestedWith!_eq (descriptors : List (String × InputDescriptor)) :
    ∀ nested : Option DescriptorMap, findNestedWith! definition descriptors decoder nested =
      (findNestedWith definition descriptors decoder nested).map
        fun search value => .mapError .error (search value)
  | none => rfl
  | some d => congrArg some (funext fun value => findInputsWith!_eq descriptors d value)
end

end DescriptorMap

/-! ## The place of an input -/

/-- What a search has done that goes from the inputs `s` to `s'` and returns `ids`. The inputs of
before are as they were. Every new index is returned, or it is nested once, under the descriptor id
of its input, in one new input behind it. -/
structure InputForest (s : List (DecodedInput T)) (ids : List Nat) (s' : List (DecodedInput T)) :
    Prop where
  unchanged : s <+: s'
  new : ∀ i ∈ ids, s.length ≤ i ∧ i < s'.length
  nodup : ids.Nodup
  root : ∀ i ∈ ids, ∀ p ∈ s'.drop s.length, i ∉ p.children
  nested : ∀ i c, s.length ≤ i → s'[i]? = some c → i ∉ ids →
    ∃ j p, s.length ≤ j ∧ i < j ∧ s'[j]? = some p ∧
      p.children.count i = 1 ∧ i ∈ (p.nested.lookup c.descriptorId).getD [] ∧
      ∀ j' p', s.length ≤ j' → s'[j']? = some p' → j' ≠ j → i ∉ p'.children

omit [SerdeJsonPath] [JsonSchema] in
/-- A grouped index is found under the id of its input. -/
theorem Groups.mem_lookup {claims : List (DecodedInput T)} {m : List (String × List Nat)}
    {indexes : List Nat} (h : Groups claims m indexes) {i : Nat} {c : DecodedInput T}
    (hi : i ∈ indexes) (hc : claims[i]? = some c) : i ∈ (m.lookup c.descriptorId).getD [] := by
  obtain ⟨g, hg, hm⟩ := List.mem_flatMap.mp (h.perm.mem_iff.mpr hi)
  obtain ⟨c', hc', hk⟩ := h.own g hg i hm
  rw [hc] at hc'
  obtain rfl := Option.some.inj hc'
  have hl : m.lookup c.descriptorId = some g.2 :=
    (Members.lookup_eq_some_iff h.nodup).mpr (by rw [hk]; exact hg)
  rw [hl]
  exact hm

omit [SerdeJsonPath] [JsonSchema] in
theorem GrowsForest.inputForest {s s' : List (DecodedInput T)} {ids : List Nat}
    (h : GrowsForest s ids s') : InputForest s ids s' := by
  obtain ⟨new, rfl, hf, hg⟩ := h
  have hb {j : Nat} (hj : s.length ≤ j) : (s ++ new)[j]? = new[j - s.length]? :=
    List.getElem?_append_right hj
  refine ⟨List.prefix_append s new, ?_, hf.nodup_roots, ?_, ?_⟩
  · intro i hi
    rw [List.length_append]
    exact hf.mem_roots hi
  · intro i hi p hp
    rw [List.drop_left] at hp
    exact hf.not_mem_children hi hp
  · intro i c hn hc hi
    have hl : i < s.length + new.length := by
      rw [← List.length_append]
      exact (List.getElem?_eq_some_iff.mp hc).1
    obtain ⟨j, p, hj, hlt, hone, hu⟩ := hf.exists_parent hn hl hi
    have hm : i ∈ p.children := List.count_pos_iff.mp (by omega)
    refine ⟨s.length + j, p, Nat.le_add_right _ _, hlt, ?_, hone, ?_, ?_⟩
    · rw [hb (Nat.le_add_right _ _), Nat.add_sub_cancel_left]
      exact hj
    · exact (hg p (List.mem_of_getElem? hj)).mem_lookup hm hc
    · intro j' p' hj' hp' hne
      rw [hb hj'] at hp'
      exact hu _ p' hp' (by omega)

theorem groups_of_findInputs [UuidCrate] {definition : PresentationDefinition}
    {decoder : ClaimsDecoder T} {value : Json} {sub : PresentationSubmission} {m : MatchingInputs T}
    (h : sub.findInputs definition value decoder = .ok m) :
    Groups m.inputs m.byDescriptor (List.range m.inputs.length) := by
  rw [PresentationSubmission.findInputs] at h
  split at h
  · obtain rfl := Except.ok.inj h
    exact groups_groupByInputDescriptor fun i hi => List.mem_range.mp hi
  · exact absurd h Except.throw_ne_ok

/-- The inputs are added as a forest, and no index is out of bounds. All inputs are listed by their
descriptor ids in the end. -/
theorem findInputs_forest [UuidCrate] (definition : PresentationDefinition)
    (decoder : ClaimsDecoder T) (value : Json) :
    (∀ (d : DescriptorMap) (s : List (DecodedInput T)),
      d.findInputs! definition decoder value s =
        Prog.mapError .error (d.findInputs definition decoder value) s ∧
      ∀ ids s', d.findInputs definition decoder value s = (.ok ids, s') → InputForest s ids s') ∧
    ∀ (sub : PresentationSubmission) (m : MatchingInputs T),
      sub.findInputs definition value decoder = .ok m →
        Groups m.inputs m.byDescriptor (List.range m.inputs.length) := by
  constructor
  · intro d s
    refine ⟨congrFun (DescriptorMap.findInputsWith!_eq _ d value) s, ?_⟩
    intro ids s' h
    exact (DescriptorMap.growsForests_findInputsWith _ d value s ids s' h).inputForest
  · intro sub m h
    exact groups_of_findInputs h

end

/-! ## An example -/

namespace Sample
open scoped Reference

/-- The claim is nested in its envelope, under the id of both. -/
theorem findInputs_forest_envelope :
    (∃ ids s', envelope.findInputs definition noClaimsDecoder value [] = (.ok ids, s') ∧
      InputForest [] ids s') ∧
    ∃ m, submission.findInputs definition value noClaimsDecoder = .ok m ∧
      Groups m.inputs m.byDescriptor (List.range m.inputs.length) :=
  ⟨⟨_, _, rfl, ((findInputs_forest definition noClaimsDecoder value).1 envelope []).2 _ _ rfl⟩,
    _, rfl, (findInputs_forest definition noClaimsDecoder value).2 submission _ rfl⟩

end Sample
end OpenID4VP
