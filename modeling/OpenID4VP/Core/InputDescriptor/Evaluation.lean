import OpenID4VP.Core.PresentationDefinition
import OpenID4VP.Crates.Reference

/-! # Evaluation of constraints

A field is about the values that its paths select. The two matchers look at them in their own
ways: `Constraints.matches` wants a value for every required field and nothing of optional ones,
`PresentationDefinition.isCredentialMatch` wants one for the required fields with a filter. -/

namespace OpenID4VP

section
variable [SerdeJsonPath] [JsonSchema]

namespace ConstraintsField

/-- The values that the paths select, in the order of the paths. -/
def selected (field : ConstraintsField) (value : Json) : List Json :=
  field.path.toList.flatMap fun path => SerdeJsonPath.query path value

/-- Some value is selected that passes the filter. -/
def HasPassing (field : ConstraintsField) (value : Json) : Prop :=
  ∃ x ∈ field.selected value, field.passes x = true

/-- What a query says about the value it has found: with a predicate only that there is one. -/
def report (field : ConstraintsField) (x : Json) : FieldQueryResult :=
  match field.predicate with
  | some _ => .predicate true
  | none => .value x

variable {field : ConstraintsField} {value : Json}

/-! ## Queries -/

theorem queryPath_eq (candidates : List Json) :
    field.queryPath candidates = (candidates.find? field.passes).map field.report := by
  induction candidates with
  | nil => rfl
  | cons x xs ih =>
    rw [queryPath, List.find?_cons, ih]
    cases field.passes x with
    | true =>
      change _ = some (field.report x)
      unfold report
      cases field.predicate <;> rfl
    | false => rfl

/-- A query finds the first value that passes, in the order of the paths and of their nodes. -/
theorem query_eq :
    field.query value = ((field.selected value).find? field.passes).map field.report := by
  rw [query, selected]
  induction field.path.toList with
  | nil => rfl
  | cons p ps ih =>
    rw [queryPaths, queryPath_eq, ih, List.flatMap_cons, List.find?_append]
    cases (SerdeJsonPath.query p value).find? field.passes <;> rfl

theorem query_isSome_iff_hasPassing :
    (field.query value).isSome = true ↔ field.HasPassing value := by
  rw [query_eq, Option.isSome_map, List.find?_isSome]
  rfl

/-! ## Fields with and without a filter -/

theorem any_validate_iff (field : ConstraintsField) {filter : CompiledJsonSchema}
    (h : field.filter = some filter) :
    (field.selected value).any filter.validate = true ↔ field.HasPassing value := by
  rw [List.any_eq_true, HasPassing]
  refine exists_congr fun x => and_congr_right fun _ => ?_
  rw [passes, h]

theorem hasPassing_iff_of_filter_eq_none (h : field.filter = none) :
    field.HasPassing value ↔ field.selected value ≠ [] := by
  have hp (x : Json) : field.passes x = true := by rw [passes, h]
  simp only [HasPassing, hp, and_true]
  exact ⟨fun ⟨_, hx⟩ => List.ne_nil_of_mem hx, List.exists_mem_of_ne_nil _⟩

/-! ## Required and optional fields -/

/-- What a field asks for: a value that passes, and of an optional field only if there is a value
at all. -/
def Satisfied (field : ConstraintsField) (value : Json) : Prop :=
  field.HasPassing value ∨ (field.isOptional = true ∧ field.selected value = [])

/-- An optional field whose values are there, and all fail its filter. -/
def PresentButInvalid (field : ConstraintsField) (value : Json) : Prop :=
  field.isOptional = true ∧ field.selected value ≠ [] ∧ ¬field.HasPassing value

theorem satisfied_iff : field.Satisfied value ↔
    (field.isRequired = true → field.HasPassing value) ∧ ¬field.PresentButInvalid value := by
  rw [Satisfied, PresentButInvalid, isRequired]
  cases field.isOptional
  · simp
  · simp
    tauto

end ConstraintsField

namespace Constraints
variable {c : Constraints} {value : Json}

theorem matches_iff_hasPassing : c.matches value = true ↔
    ∀ field ∈ c.fields, field.isRequired = true → field.HasPassing value := by
  rw [matches_iff]
  exact forall₂_congr fun _ _ => imp_congr_right fun _ =>
    ConstraintsField.query_isSome_iff_hasPassing

/-- The constraints are evaluated as the fields say, and the queries find the first values that
pass. -/
def EvaluatedAsSaid (c : Constraints) (value : Json) : Prop :=
  (c.matches value = true ↔ ∀ field ∈ c.fields, field.Satisfied value) ∧
  ∀ field ∈ c.fields,
    field.query value = ((field.selected value).find? field.passes).map field.report

/-- Constraints are evaluated as their fields say exactly when no optional field has values that
all fail its filter, or some required field has no value that passes. -/
theorem evaluatedAsSaid_iff : c.EvaluatedAsSaid value ↔
    (∀ field ∈ c.fields, ¬field.PresentButInvalid value) ∨
      ∃ field ∈ c.fields, field.isRequired = true ∧ ¬field.HasPassing value := by
  have hs : (∀ field ∈ c.fields, field.Satisfied value) ↔
      (∀ field ∈ c.fields, field.isRequired = true → field.HasPassing value) ∧
        ∀ field ∈ c.fields, ¬field.PresentButInvalid value := by
    simp only [ConstraintsField.satisfied_iff, forall_and]
  have hr : (∃ field ∈ c.fields, field.isRequired = true ∧ ¬field.HasPassing value) ↔
      ¬∀ field ∈ c.fields, field.isRequired = true → field.HasPassing value := by
    simp only [not_forall, exists_prop]
  rw [EvaluatedAsSaid, matches_iff_hasPassing, hs, hr,
    and_iff_left fun field _ => ConstraintsField.query_eq]
  tauto

end Constraints

/-! ## The matcher of the wallet -/

namespace PresentationDefinition
variable {d : PresentationDefinition} {credential : Json}

theorem isCredentialMatch_iff : d.isCredentialMatch credential = true ↔
    ∀ desc ∈ d.inputDescriptors, ∀ field ∈ desc.constraints.fields, field.isRequired = true →
      field.filter ≠ none → field.HasPassing credential := by
  rw [isCredentialMatch, List.all_eq_true]
  simp only [List.mem_filter, List.mem_flatMap]
  constructor
  · intro h desc hd field hf hr hn
    have hm := h field ⟨⟨desc, hd, hf⟩, hr⟩
    obtain ⟨filter, hfilter⟩ := Option.ne_none_iff_exists'.mp hn
    rw [hfilter] at hm
    rwa [← field.any_validate_iff hfilter]
  · rintro h field ⟨⟨desc, hd, hf⟩, hr⟩
    split
    · next filter hfilter =>
      exact (field.any_validate_iff hfilter).mpr (h desc hd field hf hr (by simp [hfilter]))
    · rfl

/-- The constraints of all descriptors match exactly when the credential does and has a value for
every required field without a filter. -/
theorem matches_iff_isCredentialMatch :
    (∀ desc ∈ d.inputDescriptors, desc.constraints.matches credential = true) ↔
      d.isCredentialMatch credential = true ∧
      ∀ desc ∈ d.inputDescriptors, ∀ field ∈ desc.constraints.fields, field.isRequired = true →
        field.filter = none → field.selected credential ≠ [] := by
  rw [isCredentialMatch_iff]
  simp only [Constraints.matches_iff_hasPassing]
  constructor
  · intro h
    refine ⟨fun desc hd field hf hr _ => h desc hd field hf hr, fun desc hd field hf hr hn => ?_⟩
    exact (ConstraintsField.hasPassing_iff_of_filter_eq_none hn).mp (h desc hd field hf hr)
  · rintro ⟨hp, hs⟩ desc hd field hf hr
    by_cases hn : field.filter = none
    · exact (ConstraintsField.hasPassing_iff_of_filter_eq_none hn).mpr (hs desc hd field hf hr hn)
    · exact hp desc hd field hf hr hn

end PresentationDefinition
end

/-! ## One field -/

namespace Sample
open scoped Reference

/-- A field at `$[0]`. -/
def fieldAt0 («optional» : Bool) (filter : Option CompiledJsonSchema) : ConstraintsField where
  id := none
  name := none
  purpose := none
  path := .new (SerdeJsonPath.index 0)
  «optional» := some «optional»
  filter := filter
  predicate := none
  intentToRetain := false

/-- The schema `{"const": "a"}`. -/
def constA : CompiledJsonSchema := ⟨⟨.object [("const", .string "a")], rfl⟩, rfl⟩

/-- If the field is there, it has to be `"a"`. -/
def optionalA : Constraints := ⟨[fieldAt0 true (some constA)], none⟩

/-- A value that is there, and is not `"a"`, matches. -/
theorem not_evaluatedAsSaid_optionalA :
    ¬optionalA.EvaluatedAsSaid (.array [.string "b"]) := by
  intro h
  have hs := h.1.mp rfl _ List.mem_cons_self
  have hx : (fieldAt0 true (some constA)).selected (.array [.string "b"]) = [.string "b"] := rfl
  rcases hs with ⟨x, hm, hp⟩ | ⟨-, he⟩
  · rw [hx] at hm
    obtain rfl := List.mem_singleton.mp hm
    exact Bool.false_ne_true hp
  · rw [hx] at he
    cases he

/-- Something has to be there. -/
def requiresAny : PresentationDefinition :=
  .new "definition" (.new "id" ⟨[fieldAt0 false none], none⟩)

theorem isCredentialMatch_empty :
    requiresAny.isCredentialMatch (.array []) = true ∧
    ¬∀ desc ∈ requiresAny.inputDescriptors, desc.constraints.matches (.array []) = true :=
  ⟨rfl, fun h => Bool.false_ne_true (h _ List.mem_cons_self)⟩

end Sample
end OpenID4VP
