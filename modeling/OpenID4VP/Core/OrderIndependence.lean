import OpenID4VP.Core.SubmissionValidation

/-! # The order of entries and requirements

Neither the order of the entries of a submission nor the order of requirements decides about a
submission. An entry is searched with the same success whatever was found before it, and validation
looks only at the descriptor ids of the inputs. -/

namespace OpenID4VP

section
variable [SerdeJsonPath] [JsonSchema]

/-! ## The order of requirements -/

mutual
/-- The requirement with those nested in it in another order, at any level. -/
inductive Reordered : SubmissionRequirement → SubmissionRequirement → Prop
  | refl : Reordered r r
  | all (h : ReorderedList rs rs') : Reordered (.all (.fromNested rs o)) (.all (.fromNested rs' o))
  | pick {min max : Option UInt64} (h : ReorderedList rs rs') :
    Reordered (.pick (.mk (.fromNested rs o) count min max))
      (.pick (.mk (.fromNested rs' o) count min max))

inductive ReorderedList : List SubmissionRequirement → List SubmissionRequirement → Prop
  | nil : ReorderedList [] []
  | cons (h : Reordered r r') (hs : ReorderedList rs rs') : ReorderedList (r :: rs) (r' :: rs')
  | swap : ReorderedList (r :: r' :: rs) (r' :: r :: rs)
  | trans (h : ReorderedList rs rs') (h' : ReorderedList rs' rs'') : ReorderedList rs rs''
end

/-- The definition with other submission requirements. -/
def PresentationDefinition.withRequirements (definition : PresentationDefinition)
    (requirements : Option (List SubmissionRequirement)) : PresentationDefinition :=
  { definition with submissionRequirements := requirements }

namespace ReorderedList

omit [SerdeJsonPath] [JsonSchema] in
theorem of_perm {rs rs' : List SubmissionRequirement} (h : rs.Perm rs') : ReorderedList rs rs' := by
  induction h with
  | nil => exact .nil
  | cons r _ ih => exact .cons .refl ih
  | swap r r' rs => exact .swap
  | trans _ _ ih ih' => exact .trans ih ih'

end ReorderedList

namespace SubmissionRequirement
variable {grouped : GroupId → List String} {ids ids' : List String}

omit [SerdeJsonPath] [JsonSchema]

mutual
theorem met_iff_of_perm (h : ids.Perm ids') :
    ∀ r : SubmissionRequirement, r.Met grouped ids ↔ r.Met grouped ids'
  | .all (.from group _) => forall₂_congr fun id _ => h.mem_iff
  | .all (.fromNested requirements _) => metEach_iff_of_perm h requirements
  | .pick (.mk (.from group base) count min max) => by rw [Met, Met, h.countP_eq]
  | .pick (.mk (.fromNested requirements _) _ _ _) => metEach_iff_of_perm h requirements

theorem metEach_iff_of_perm (h : ids.Perm ids') :
    ∀ rs : List SubmissionRequirement, MetEach grouped ids rs ↔ MetEach grouped ids' rs
  | [] => Iff.rfl
  | r :: rs => and_congr (met_iff_of_perm h r) (metEach_iff_of_perm h rs)
end

mutual
theorem met_iff_of_reordered : ∀ {r r' : SubmissionRequirement}, Reordered r r' →
    (r.Met grouped ids ↔ r'.Met grouped ids)
  | _, _, .refl => Iff.rfl
  | _, _, .all h => metEach_iff_of_reordered h
  | _, _, .pick h => metEach_iff_of_reordered h

theorem metEach_iff_of_reordered : ∀ {rs rs' : List SubmissionRequirement}, ReorderedList rs rs' →
    (MetEach grouped ids rs ↔ MetEach grouped ids rs')
  | _, _, .nil => Iff.rfl
  | _, _, .cons h hs => and_congr (met_iff_of_reordered h) (metEach_iff_of_reordered hs)
  | _, _, .swap => and_left_comm
  | _, _, .trans h h' => (metEach_iff_of_reordered h).trans (metEach_iff_of_reordered h')
end

end SubmissionRequirement

theorem PresentationDefinition.met_withRequirements_iff {definition : PresentationDefinition}
    {requirements : Option (List SubmissionRequirement)} {ids ids' : List String}
    (hr : Option.Rel ReorderedList definition.submissionRequirements requirements)
    (h : ids.Perm ids') :
    definition.Met ids ↔ (definition.withRequirements requirements).Met ids' := by
  obtain ⟨id, inputDescriptors, before, name, purpose, format⟩ := definition
  cases hr with
  | some hrs =>
    exact (SubmissionRequirement.metEach_iff_of_perm h _).trans
      (SubmissionRequirement.metEach_iff_of_reordered hrs)
  | none => exact forall₂_congr fun desc _ => h.mem_iff

/-! ## The order of entries -/

namespace DescriptorMap
variable {definition : PresentationDefinition} {decoder : ClaimsDecoder T}

theorem uniform_findItem {d : DescriptorMap} {desc : InputDescriptor}
    {constraint : Option ClaimFormatPayload}
    {nested : Option (Json → Prog (List (DecodedInput T)) SubmissionError (List Nat))}
    (hn : ∀ search ∈ nested, ∀ value, (search value).Uniform) (item : Json) :
    (findItem decoder d desc constraint nested item).Uniform := by
  apply Prog.uniform_ofExcept_bind
  rintro ⟨v, json⟩
  apply Prog.uniform_ofExcept_bind
  intro b
  cases b with
  | false => exact Prog.uniform_pure
  | true =>
    cases nested with
    | none => exact fun _ _ _ _ t => ⟨_, _, rfl⟩
    | some search =>
      apply Prog.uniform_ofExcept_bind
      intro j
      apply (hn search rfl j).bind
      intro _ _ _ _ _ indexes t
      -- an input is added or not, either succeeds
      split
      · exact ⟨none, t, rfl⟩
      · exact ⟨_, _, rfl⟩

theorem uniform_findItems {d : DescriptorMap} {desc : InputDescriptor}
    {constraint : Option ClaimFormatPayload}
    {nested : Option (Json → Prog (List (DecodedInput T)) SubmissionError (List Nat))}
    (hn : ∀ search ∈ nested, ∀ value, (search value).Uniform) (items : List Json) :
    (findItems decoder d desc constraint nested items).Uniform := by
  induction items with
  | nil => exact Prog.uniform_pure
  | cons item items ih =>
    apply (uniform_findItem hn item).bind
    intro i s is s' h i' t
    obtain ⟨is, s₁, hs, -⟩ := Prog.bind_eq_ok_iff.mp h
    obtain ⟨is', t₁, ht⟩ := ih s is s₁ hs t
    exact ⟨_, t₁, Prog.bind_apply_ok ht⟩

mutual
/-- What was found before an entry does not decide about its success. -/
theorem uniform_findInputsWith (descriptors : List (String × InputDescriptor)) :
    ∀ (d : DescriptorMap) (value : Json),
      (findInputsWith definition descriptors decoder d value).Uniform
  | ⟨id, format, path, nested⟩, value => by
    rw [findInputsWith]
    cases descriptors.lookup id with
    | none => exact Prog.uniform_throw
    | some desc =>
      apply Prog.uniform_ofExcept_bind
      intro constraint
      exact uniform_findItems (uniform_findNestedWith descriptors nested) _

theorem uniform_findNestedWith (descriptors : List (String × InputDescriptor)) :
    ∀ nested : Option DescriptorMap,
      ∀ search ∈ findNestedWith definition descriptors decoder nested,
        ∀ value, (search value).Uniform
  | none, search, hs => by cases hs
  | some d, search, hs => by
    obtain rfl := Option.some.inj hs
    exact uniform_findInputsWith descriptors d
end

variable {requirements : Option (List SubmissionRequirement)}

mutual
/-- The requirements have no part in the search. -/
theorem findInputsWith_withRequirements (descriptors : List (String × InputDescriptor)) :
    ∀ (d : DescriptorMap) (value : Json),
      findInputsWith (definition.withRequirements requirements) descriptors decoder d value =
        findInputsWith definition descriptors decoder d value
  | ⟨id, format, path, nested⟩, value => by
    rw [findInputsWith, findInputsWith, findNestedWith_withRequirements descriptors nested]
    rfl

theorem findNestedWith_withRequirements (descriptors : List (String × InputDescriptor)) :
    ∀ nested : Option DescriptorMap,
      findNestedWith (definition.withRequirements requirements) descriptors decoder nested =
        findNestedWith definition descriptors decoder nested
  | none => rfl
  | some d => congrArg some (funext fun value =>
      findInputsWith_withRequirements descriptors d value)
end

end DescriptorMap

namespace PresentationSubmission
variable [UuidCrate] {definition : PresentationDefinition} {decoder : ClaimsDecoder T}
  {requirements : Option (List SubmissionRequirement)} {value : Json}
  {sub sub' : PresentationSubmission}

omit [UuidCrate] in
theorem findAllInputs_withRequirements (ds : List DescriptorMap) :
    findAllInputs (definition.withRequirements requirements) value decoder ds =
      findAllInputs definition value decoder ds := by
  induction ds with
  | nil => rfl
  | cons d ds ih =>
    have hd : d.findInputs (definition.withRequirements requirements) decoder value =
        d.findInputs definition decoder value :=
      DescriptorMap.findInputsWith_withRequirements _ d value
    rw [findAllInputs, findAllInputs, hd, ih]

theorem findInputs_withRequirements :
    sub.findInputs (definition.withRequirements requirements) value decoder =
      sub.findInputs definition value decoder := by
  rw [findInputs, findInputs, findAllInputs_withRequirements]

omit [UuidCrate] in
/-- The inputs of all entries are found exactly when those of each entry are. -/
theorem findAllInputs_ok_iff {ds : List DescriptorMap} (s : List (DecodedInput T)) :
    (∃ s', findAllInputs definition value decoder ds s = (.ok (), s')) ↔
      ∀ d ∈ ds, ∃ ids s', d.findInputs definition decoder value [] = (.ok ids, s') := by
  induction ds generalizing s with
  | nil => exact ⟨fun _ => List.forall_mem_nil _, fun _ => ⟨s, rfl⟩⟩
  | cons d ds ih =>
    have hu : (d.findInputs definition decoder value).Uniform :=
      DescriptorMap.uniform_findInputsWith _ d value
    rw [List.forall_mem_cons]
    constructor
    · rintro ⟨s', h⟩
      rw [findAllInputs, Prog.bind_eq_ok_iff] at h
      obtain ⟨ids, s₁, hd, hs⟩ := h
      exact ⟨hu s ids s₁ hd [], (ih s₁).mp ⟨s', hs⟩⟩
    · rintro ⟨⟨ids, s₁, hd⟩, hs⟩
      obtain ⟨ids', s₂, hd'⟩ := hu [] ids s₁ hd s
      obtain ⟨s', h⟩ := (ih s₂).mpr hs
      exact ⟨s', by rw [findAllInputs, Prog.bind_apply_ok hd', h]⟩

theorem findInputs_ok_iff :
    (∃ m, sub.findInputs definition value decoder = .ok m) ↔
      ∀ d ∈ sub.descriptorMap, ∃ ids s',
        d.findInputs definition decoder value [] = (.ok ids, s') := by
  rw [← findAllInputs_ok_iff [], findInputs]
  constructor
  · rintro ⟨m, h⟩
    split at h
    · next inputs hf => exact ⟨inputs, hf⟩
    · exact absurd h Except.throw_ne_ok
  · rintro ⟨inputs, h⟩
    rw [h]
    exact ⟨_, rfl⟩

theorem ids_perm (h : sub.descriptorMap.Perm sub'.descriptorMap) {m m' : MatchingInputs T}
    (hm : sub.findInputs definition value decoder = .ok m)
    (hm' : sub'.findInputs definition value decoder = .ok m') : m.ids.Perm m'.ids := by
  rw [ids_eq hm, ids_eq hm']
  exact (h.flatMap_right _).map _

/-- Submissions with the same entries, and definitions with the same requirements, in whatever
order: one submission is accepted exactly when the other is, with as many inputs of each
descriptor. -/
theorem findAndValidateInputs_order_independent (h : sub.descriptorMap.Perm sub'.descriptorMap)
    (hr : Option.Rel ReorderedList definition.submissionRequirements requirements) :
    ((∃ m, sub.findAndValidateInputs definition value decoder = .ok m) ↔
      ∃ m, sub'.findAndValidateInputs (definition.withRequirements requirements) value decoder =
        .ok m) ∧
    ∀ m m', sub.findAndValidateInputs definition value decoder = .ok m →
      sub'.findAndValidateInputs (definition.withRequirements requirements) value decoder = .ok m' →
      ∀ id, m.inputs.countP (·.descriptorId = id) = m'.inputs.countP (·.descriptorId = id) := by
  have hf : (∃ m, sub.findInputs definition value decoder = .ok m) ↔
      ∃ m, sub'.findInputs definition value decoder = .ok m := by
    rw [findInputs_ok_iff, findInputs_ok_iff]
    exact forall_congr' fun d => imp_congr h.mem_iff Iff.rfl
  simp only [findAndValidateInputs_eq_ok_iff, findInputs_withRequirements]
  refine ⟨⟨?_, ?_⟩, ?_⟩
  · rintro ⟨m, hm, hmet⟩
    obtain ⟨m', hm'⟩ := hf.mp ⟨m, hm⟩
    have hp := ids_perm h hm hm'
    exact ⟨m', hm', (PresentationDefinition.met_withRequirements_iff hr hp).mp hmet⟩
  · rintro ⟨m', hm', hmet⟩
    obtain ⟨m, hm⟩ := hf.mpr ⟨m', hm'⟩
    have hp := ids_perm h hm hm'
    exact ⟨m, hm, (PresentationDefinition.met_withRequirements_iff hr hp).mpr hmet⟩
  · rintro m m' ⟨hm, -⟩ ⟨hm', -⟩ id
    have hp := (ids_perm h hm hm').countP_eq (· = id)
    rw [MatchingInputs.ids, MatchingInputs.ids, List.countP_map, List.countP_map] at hp
    exact hp

end PresentationSubmission
end

/-! ## An example -/

namespace Sample
open scoped Reference

def entryA : DescriptorMap := .new "a" .ldpVc (SerdeJsonPath.index 0)

def entryB : DescriptorMap := .new "b" .ldpVc (SerdeJsonPath.index 1)

def claims : Json := .array [.string "a", .string "b"]

def submissionOf (entries : List DescriptorMap) : PresentationSubmission :=
  ⟨UuidCrate.nil, "definition", entries⟩

/-- `pickOne` with its groups the other way round. -/
def pickOneSwapped : SubmissionRequirement :=
  .pick (.mk (.fromNested [.all (.from "B" ⟨none, none, none⟩), .all (.from "A" ⟨none, none, none⟩)]
    ⟨none, none, none⟩) (some 1) none none)

def twoGroupsSwapped : PresentationDefinition := twoGroups.withRequirements (some [pickOneSwapped])

theorem order_independent_entries :
    (∃ m, (submissionOf [entryA, entryB]).findAndValidateInputs twoGroups claims
      noClaimsDecoder = .ok m) ∧
    ((∃ m, (submissionOf [entryA, entryB]).findAndValidateInputs twoGroups claims
        noClaimsDecoder = .ok m) ↔
      ∃ m, (submissionOf [entryB, entryA]).findAndValidateInputs twoGroupsSwapped claims
        noClaimsDecoder = .ok m) :=
  ⟨⟨_, rfl⟩, (PresentationSubmission.findAndValidateInputs_order_independent (.swap _ _ _)
    (.some (.cons (.pick (.of_perm (.swap _ _ _))) .nil))).1⟩

end Sample
end OpenID4VP
