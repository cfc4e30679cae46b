import OpenID4VP.Core.SubmissionValidation

/-! # Levels of nested entries

An entry is to have the same id at each level of nesting. Where all entries of a submission have
one, the inputs are those of its outermost entries. -/

namespace OpenID4VP

section
variable [SerdeJsonPath]

namespace DescriptorMap

/-- The entry and those nested in it, however deep. -/
def levels : DescriptorMap → List DescriptorMap
  | ⟨id, format, path, none⟩ => [⟨id, format, path, none⟩]
  | ⟨id, format, path, some d⟩ => ⟨id, format, path, some d⟩ :: d.levels

/-- The entry has the same id at each level. -/
def OneId (d : DescriptorMap) : Prop := ∀ e ∈ d.levels, e.id = d.id

theorem levels_eq (d : DescriptorMap) : d.levels = d :: (d.pathNested.map levels).getD [] := by
  obtain ⟨id, format, path, _ | n⟩ := d <;> rfl

/-! ## Candidates of entries with one id -/

variable [JsonSchema] {definition : PresentationDefinition} {decoder : ClaimsDecoder T}

/-- A candidate is one of the entry or of a level of it. -/
theorem entry_mem_levels : ∀ {d : DescriptorMap} {value : Json} {c : Candidate T},
    c ∈ d.candidates definition decoder value → c.entry ∈ d.levels
  | ⟨id, format, path, nested⟩, value, c, h => by
    rw [levels_eq]
    rw [candidates_eq, List.mem_flatMap] at h
    obtain ⟨item, -, h⟩ := h
    rw [itemCandidates] at h
    split at h
    · simp at h
    · split at h
      · simp at h
      · next v json _ =>
        rcases List.mem_append.mp h with h | h
        · split at h
          · match nested, json with
            | some n, some json => exact List.mem_cons_of_mem _ (entry_mem_levels h)
            | none, _ | some _, none => simp [candidatesNested] at h
          · simp at h
        · obtain rfl := List.mem_singleton.mp h
          exact List.mem_cons_self

/-- An entry with one id has an accepted candidate of an id exactly when it is its own and an item
that it selects itself is accepted. -/
theorem OneId.exists_candidate_iff {d : DescriptorMap} {value : Json} (h : d.OneId) {id : String} :
    (∃ c ∈ d.acceptedCandidates definition decoder value, c.entry.id = id) ↔
      d.id = id ∧ ∃ item ∈ SerdeJsonPath.query d.path value,
        d.accepts definition decoder item = true := by
  constructor
  · rintro ⟨c, hc, rfl⟩
    refine ⟨(h _ (entry_mem_levels (List.mem_of_mem_filter hc))).symm, ?_⟩
    rw [← List.any_eq_true]
    by_contra hn
    rw [acceptedCandidates_eq_nil (Bool.eq_false_iff.mpr hn)] at hc
    cases hc
  · rintro ⟨rfl, item, hi, ha⟩
    obtain ⟨desc, v, json, hd, hv, -⟩ := accepts_iff.mp ha
    refine ⟨⟨d, item, v, json⟩, ?_, rfl⟩
    rw [acceptedCandidates_eq]
    refine List.mem_flatMap.mpr ⟨item, hi, ?_⟩
    rw [itemCandidates_of_accepts hd hv ha]
    exact List.mem_append_right _ (List.mem_singleton_self _)

end DescriptorMap

/-- Where every entry has one id, an id is found exactly when an outermost entry has it and selects
an item that is accepted, at this level and below. -/
theorem PresentationSubmission.mem_ids_iff_of_oneId [JsonSchema] [UuidCrate]
    {definition : PresentationDefinition} {decoder : ClaimsDecoder T} {value : Json}
    {sub : PresentationSubmission} {m : MatchingInputs T}
    (h : sub.findInputs definition value decoder = .ok m)
    (hone : ∀ d ∈ sub.descriptorMap, d.OneId) (id : String) :
    id ∈ m.ids ↔ ∃ d ∈ sub.descriptorMap, d.id = id ∧
      ∃ item ∈ SerdeJsonPath.query d.path value, d.accepts definition decoder item = true := by
  rw [ids_eq h, List.mem_map, acceptedCandidates]
  simp only [List.mem_flatMap]
  constructor
  · rintro ⟨c, ⟨d, hd, hc⟩, he⟩
    exact ⟨d, hd, (hone d hd).exists_candidate_iff.mp ⟨c, hc, he⟩⟩
  · rintro ⟨d, hd, hi⟩
    obtain ⟨c, hc, he⟩ := (hone d hd).exists_candidate_iff.mpr hi
    exact ⟨c, ⟨d, hd, hc⟩, he⟩

end

namespace Sample
open scoped Reference

theorem oneId_envelope : envelope.OneId :=
  List.forall_mem_cons.mpr ⟨rfl, List.forall_mem_singleton.mpr rfl⟩

theorem mem_ids_envelope : ∃ m, submission.findInputs definition value noClaimsDecoder = .ok m ∧
    ("id" ∈ m.ids ↔ ∃ d ∈ submission.descriptorMap, d.id = "id" ∧
      ∃ item ∈ SerdeJsonPath.query d.path value,
        d.accepts definition noClaimsDecoder item = true) :=
  ⟨_, rfl, PresentationSubmission.mem_ids_iff_of_oneId rfl
    (List.forall_mem_singleton.mpr oneId_envelope) "id"⟩

end Sample
end OpenID4VP
