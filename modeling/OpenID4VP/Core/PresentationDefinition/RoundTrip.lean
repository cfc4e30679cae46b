import OpenID4VP.Core.InputDescriptor.RoundTrip
import OpenID4VP.Core.PresentationDefinition.Requirements
import OpenID4VP.Crates.Reference

/-! # Round trips of presentation definitions

A definition that has been read from a JSON value is read back from what it is written as exactly
when every input descriptor has a constraint field. One that has been read from a text may besides
keep what the text repeats under one key in a form that only the repetition allows. -/

namespace OpenID4VP

section
variable [SerdeJsonPath] [JsonSchema]

instance : WritesSlots PresentationDefinition where
  slots d := [("id", some (toTree d.id)), ("input_descriptors", some (toTree d.inputDescriptors)),
    ("submission_requirements", d.submissionRequirements.map toTree), ("name", d.name.map toTree),
    ("purpose", d.purpose.map toTree),
    ("format", if d.format.isEmpty then none else some (toTree d.format))]
  nodup_keys _ := (by decide : ["id", "input_descriptors", "submission_requirements", "name",
    "purpose", "format"].Nodup)
  toTree_eq_present d := by
    change Json.object (_ ++ (if d.format.isEmpty then [] else member _ _)) = _
    rw [skippedMember_eq_present]
    simp only [optionalMember_eq_present, member_eq_present, ← Members.present_append]
    rfl

namespace PresentationDefinition

/-- The descriptors, the requirements and the formats are canonical. -/
structure Canonical (d : PresentationDefinition) : Prop where
  inputDescriptors : ∀ desc ∈ d.inputDescriptors, desc.Canonical
  submissionRequirements : ∀ rs ∈ d.submissionRequirements, ∀ r ∈ rs, r.Canonical
  format : d.format.Canonical

/-- Every input descriptor has a constraint field. -/
def HasFields (d : PresentationDefinition) : Prop :=
  ∀ desc ∈ d.inputDescriptors, desc.constraints.fields ≠ []

theorem Canonical.wellFormed_toTree {d : PresentationDefinition} (h : d.Canonical) :
    (toTree d).wellFormed = true := OpenID4VP.wellFormed_toTree <| by
  simp only [slots, List.forall_mem_cons]
  refine ⟨fun _ => wellFormed_of_mem_some_toTree, fun x hx => ?_, fun x hx => ?_,
    fun _ => wellFormed_of_mem_map_toTree, fun _ => wellFormed_of_mem_map_toTree,
    fun x hx => ?_, List.forall_mem_nil _⟩
  · obtain rfl := Option.some.inj hx
    exact wellFormed_toTree_list fun desc hd => (h.inputDescriptors desc hd).wellFormed_toTree
  · obtain ⟨rs, hrs, rfl⟩ := Option.map_eq_some_iff.mp hx
    exact wellFormed_toTree_list fun r hr => (h.submissionRequirements rs hrs r hr).wellFormed_write
  · split at hx
    · cases hx
    · obtain rfl := Option.some.inj hx
      exact h.format.wellFormed_toTree

/-- Descriptors without fields are not read. -/
theorem Canonical.hasFields_of_fromTree {d : PresentationDefinition} (h : d.Canonical)
    {descs : List InputDescriptor} (hd : fromTree (toTree d.inputDescriptors) = some descs) :
    d.HasFields := by
  intro desc hm hc
  obtain ⟨_, -, he⟩ := exists_of_mapM_eq_some hd (List.mem_map_of_mem hm)
  rw [(h.inputDescriptors desc hm).fromTree_toTree, if_pos hc] at he
  cases he

/-- A canonical definition is read back when every descriptor has a field, and else it is not
read. -/
theorem Canonical.fromTree_toTree_iff {d : PresentationDefinition} (h : d.Canonical) :
    fromTree (toTree d) = some d ↔ d.HasFields := by
  have hi : (slotOf (slots d) "id").required = some d.id := LawfulSerde.fromTree_toTree d.id
  have hr : (slotOf (slots d) "submission_requirements").optional =
      some d.submissionRequirements := by
    refine Slot.optional_ofOption_of fun rs hrs => fromTree_toTree_list fun r hr => ?_
    exact SubmissionRequirement.read_write (h.submissionRequirements rs hrs r hr)
  have hn : (slotOf (slots d) "name").optional = some d.name := Slot.optional_ofOption d.name
  have hp : (slotOf (slots d) "purpose").optional = some d.purpose :=
    Slot.optional_ofOption d.purpose
  have hf : (slotOf (slots d) "format").orDefault .empty = some d.format :=
    Slot.orDefault_ofOption_skip ClaimFormatMap.eq_empty_of_isEmpty h.format.fromTree_toTree
  change (structFields _ (toTree d) >>= fun f => _) = _ ↔ _
  rw [structFields_toTree, Option.bind_eq_bind, Option.bind_some, hi]
  by_cases hd : d.HasFields
  · refine iff_of_true ?_ hd
    have hds : (slotOf (slots d) "input_descriptors").required = some d.inputDescriptors := by
      refine fromTree_toTree_list fun desc hm => ?_
      rw [(h.inputDescriptors desc hm).fromTree_toTree, if_neg (hd desc hm)]
    rw [hds, hr, hn, hp, hf]
    rfl
  · refine iff_of_false (fun he => hd ?_) hd
    simp only [Option.bind_eq_bind, Option.bind_eq_some_iff] at he
    obtain ⟨_, -, descs, hds, -⟩ := he
    exact h.hasFields_of_fromTree hds

/-- Whatever is read from a value is canonical. -/
theorem canonical_of_fromTree {x : Json} {d : PresentationDefinition} (hx : x.wellFormed = true)
    (h : fromTree x = some d) : d.Canonical := by
  change (structFields _ x >>= fun f => _) = _ at h
  simp only [Option.bind_eq_bind, Option.bind_eq_some_iff, Option.pure_def,
    Option.some.injEq] at h
  obtain ⟨f, hs, _, -, descs, hd, rs, hr, _, -, _, -, format, hf, rfl⟩ := h
  refine ⟨fun desc hm => ?_, ?_, ?_⟩
  · obtain ⟨y, hy, he⟩ := Slot.required_eq_some_iff.mp hd
    obtain ⟨z, hz, he⟩ := exists_of_mem_fromTree_list (wellFormed_of_given hs hx hy) he hm
    exact InputDescriptor.canonical_of_fromTree hz he
  · rintro rs rfl r hm
    obtain ⟨y, hy, -, he⟩ := Slot.optional_eq_some hr
    obtain ⟨z, hz, he⟩ := exists_of_mem_fromTree_list (wellFormed_of_given hs hx hy) he hm
    exact SubmissionRequirement.canonical_of_read hz he
  · rcases Slot.orDefault_eq_some hf with ⟨y, hy, he⟩ | rfl
    · exact ClaimFormatMap.canonical_of_fromTree (wellFormed_of_given hs hx hy) he
    · exact ClaimFormatMap.canonical_empty

/-! ## Re-encoding -/

section
variable [SerdeJson]

/-- The definition is read back from the value that it is converted to, and from its text. -/
def Reencodes (d : PresentationDefinition) : Prop :=
  TypedParameter.tryFrom (TypedParameter.intoJson d).toValue = .ok d ∧
    TypedParameter.tryFrom (.string (toJsonString d)) = .ok d

/-- A value but for a string is read as a canonical definition. -/
theorem canonical_of_tryFrom {x : Json} {d : PresentationDefinition}
    (h : TypedParameter.tryFrom x = .ok d) (hx : x.wellFormed = true) (hs : ∀ s, x ≠ .string s) :
    d.Canonical := by
  change fromStringOrValue x = _ at h
  cases x with
  | string s => exact absurd rfl (hs s)
  | _ => exact canonical_of_fromTree hx (fromValue_eq_ok_iff.mp h)

/-- A definition re-encodes exactly when every descriptor has a field and nothing of it depends on
repeated keys, as nothing does when it has been read from a JSON value. -/
theorem reencodes_iff {x : Json} {d : PresentationDefinition}
    (h : TypedParameter.tryFrom x = .ok d) :
    (d.Reencodes ↔ d.HasFields ∧ d.Canonical) ∧
      (x.wellFormed = true → (∀ s, x ≠ .string s) → (d.Reencodes ↔ d.HasFields)) := by
  have hiff : d.Reencodes ↔ d.HasFields ∧ d.Canonical := by
    constructor
    · rintro ⟨hv, -⟩
      have hc : d.Canonical := canonical_of_tryFrom hv (Json.toValue_wellFormed _) nofun
      refine ⟨hc.fromTree_toTree_iff.mp ?_, hc⟩
      have hd : fromTree (toTree d).toValue = some d := fromValue_eq_ok_iff.mp hv
      rwa [Json.toValue_of_wellFormed hc.wellFormed_toTree] at hd
    · rintro ⟨hf, hc⟩
      have hd : fromTree (toTree d) = some d := hc.fromTree_toTree_iff.mpr hf
      constructor
      · change fromStringOrValue (toTree d).toValue = _
        rw [Json.toValue_of_wellFormed hc.wellFormed_toTree]
        exact fromValue_eq_ok_iff.mpr hd
      · change fromStr (SerdeJson.print (toTree d)) = _
        rw [fromStr_print]
        exact fromValue_eq_ok_iff.mpr hd
  refine ⟨hiff, fun hx hs => hiff.trans ⟨And.left, fun hf => ⟨hf, ?_⟩⟩⟩
  exact canonical_of_tryFrom h hx hs

end

end PresentationDefinition
end

namespace Sample
open scoped Reference

/-- A definition whose descriptor has no constraints. -/
def bareDocument : Json := .object [("id", .string "definition"),
  ("input_descriptors", .array [.object [("id", .string "id")]])]

def bareDefinition : PresentationDefinition := .new "definition" (.new "id" .new)

/-- The document is read, and what is written of it is not. -/
theorem not_reencodes_bareDocument :
    TypedParameter.tryFrom bareDocument = .ok bareDefinition ∧ ¬bareDefinition.Reencodes := by
  refine ⟨rfl, ?_⟩
  rintro ⟨hv, -⟩
  cases hv

/-- A definition with a field and a nested requirement. -/
def nestedDefinition : PresentationDefinition where
  id := "definition"
  inputDescriptors := [{ InputDescriptor.new "id" ⟨[{
      id := none, name := none, purpose := none, path := .new (SerdeJsonPath.index 0)
      «optional» := none, filter := none, predicate := none, intentToRetain := false }], none⟩ with
    groups := ["A"] }]
  submissionRequirements := some [.all (.fromNested
    [.pick (.mk (.from "A" ⟨none, none, some .empty⟩) (some 1) none none)]
    ⟨none, none, some .empty⟩)]
  name := none
  purpose := none
  format := .empty

theorem nestedDefinition_canonical : nestedDefinition.Canonical where
  inputDescriptors := List.forall_mem_singleton.mpr ⟨List.forall_mem_singleton.mpr nofun, nofun⟩
  submissionRequirements := by
    rintro rs hrs
    obtain rfl := Option.some.inj hrs
    refine List.forall_mem_singleton.mpr ⟨⟨_, rfl, nofun⟩, ?_, ⟨_, rfl, nofun⟩, trivial⟩
    rintro m hm
    obtain rfl := Option.some.inj hm
    exact nofun
  format := nofun

theorem nestedDefinition_hasFields : nestedDefinition.HasFields :=
  List.forall_mem_singleton.mpr nofun

/-- The document that is written of it is read as the definition. -/
theorem reencodes_iff_nestedDefinition :
    TypedParameter.tryFrom (toTree nestedDefinition) = .ok nestedDefinition ∧
      (nestedDefinition.Reencodes ↔ nestedDefinition.HasFields ∧ nestedDefinition.Canonical) ∧
      ((toTree nestedDefinition).wellFormed = true → (∀ s, toTree nestedDefinition ≠ .string s) →
        (nestedDefinition.Reencodes ↔ nestedDefinition.HasFields)) := by
  have h : TypedParameter.tryFrom (toTree nestedDefinition) = .ok nestedDefinition :=
    fromValue_eq_ok_iff.mpr
      (nestedDefinition_canonical.fromTree_toTree_iff.mpr nestedDefinition_hasFields)
  exact ⟨h, PresentationDefinition.reencodes_iff h⟩

end Sample
end OpenID4VP
