import OpenID4VP.Core.InputDescriptor

/-! # Round trips of input descriptors

An input descriptor is read back from what it is written as when it has constraint fields. The
list of the fields is not written when it is empty, and it is not read when it is missing. -/

namespace OpenID4VP

variable [SerdeJsonPath] [JsonSchema]

instance : WritesValues JsonPath := ⟨fun _ => rfl⟩
instance : WritesValues Predicate := ⟨fun p => by cases p <;> rfl⟩
instance : NeverNull Predicate := ⟨fun p => by cases p <;> nofun⟩
instance : WritesValues ConstraintsLimitDisclosure := ⟨fun l => by cases l <;> rfl⟩
instance : NeverNull ConstraintsLimitDisclosure := ⟨fun l => by cases l <;> nofun⟩
instance : WritesValues CompiledJsonSchema := ⟨fun s => s.raw.wf⟩

omit [SerdeJsonPath] in
theorem CompiledJsonSchema.raw_of_ofValue? {raw : Value} {s : CompiledJsonSchema}
    (h : ofValue? raw = some s) : s.raw = raw := by
  rw [ofValue?] at h
  split at h
  · obtain rfl := Option.some.inj h
    rfl
  · cases h

/-! ## Fields -/

instance : WritesSlots ConstraintsField where
  slots field := [("id", field.id.map toTree), ("name", field.name.map toTree),
    ("purpose", field.purpose.map toTree), ("path", some (toTree field.path)),
    ("optional", field.optional.map toTree), ("filter", field.filter.map toTree),
    ("predicate", some ((field.predicate.map toTree).getD .null)),
    ("intent_to_retain", some (toTree field.intentToRetain))]
  nodup_keys _ := (by decide : ["id", "name", "purpose", "path", "optional", "filter", "predicate",
    "intent_to_retain"].Nodup)
  toTree_eq_present field := by
    change Json.object (_ ++ member _ _) = _
    simp only [optionalMember_eq_present, nullableMember_eq_present, member_eq_present,
      ← Members.present_append]
    rfl

instance : WritesValues ConstraintsField := ⟨fun field => wellFormed_toTree <| by
  simp only [slots, List.forall_mem_cons]
  refine ⟨fun _ => wellFormed_of_mem_map_toTree, fun _ => wellFormed_of_mem_map_toTree,
    fun _ => wellFormed_of_mem_map_toTree, fun _ => wellFormed_of_mem_some_toTree,
    fun _ => wellFormed_of_mem_map_toTree, fun _ => wellFormed_of_mem_map_toTree, ?_,
    fun _ => wellFormed_of_mem_some_toTree, List.forall_mem_nil _⟩
  rintro x hx
  obtain rfl := Option.some.inj hx
  cases field.predicate with
  | none => rfl
  | some p => exact WritesValues.wellFormed p⟩

namespace ConstraintsField

/-- A filter is not the schema `null`, which stands for no filter. -/
def Canonical (field : ConstraintsField) : Prop := ∀ s ∈ field.filter, s.raw.tree ≠ .null

theorem Canonical.fromTree_toTree {field : ConstraintsField} (h : field.Canonical) :
    fromTree (toTree field) = some field := by
  have hi : (slotOf (slots field) "id").optional = some field.id := Slot.optional_ofOption field.id
  have hn : (slotOf (slots field) "name").optional = some field.name :=
    Slot.optional_ofOption field.name
  have hp : (slotOf (slots field) "purpose").optional = some field.purpose :=
    Slot.optional_ofOption field.purpose
  have hpa : (slotOf (slots field) "path").required = some field.path :=
    LawfulSerde.fromTree_toTree field.path
  have ho : (slotOf (slots field) "optional").optional = some field.optional :=
    Slot.optional_ofOption field.optional
  have hf : (slotOf (slots field) "filter").optional = some field.filter := by
    change (Slot.ofOption (field.filter.map toTree)).optional = some field.filter
    cases hs : field.filter with
    | none => rfl
    | some s =>
      have hn : toTree s ≠ .null := h s hs
      rw [Option.map_some, Slot.ofOption, Slot.optional_given hn, LawfulSerde.fromTree_toTree]
      rfl
  have hpr : (slotOf (slots field) "predicate").optional = some field.predicate :=
    Slot.optional_nullable field.predicate
  have hr : (slotOf (slots field) "intent_to_retain").orDefault false =
      some field.intentToRetain := rfl
  change (structFields _ (toTree field) >>= fun f => _) = _
  rw [structFields_toTree, Option.bind_eq_bind, Option.bind_some, hi, hn, hp, hpa, ho, hf, hpr, hr]
  rfl

/-- Whatever is read is canonical. -/
theorem canonical_of_fromTree {x : Json} {field : ConstraintsField} (h : fromTree x = some field) :
    field.Canonical := by
  change (structFields _ x >>= fun f => _) = _ at h
  simp only [Option.bind_eq_bind, Option.bind_eq_some_iff, Option.pure_def,
    Option.some.injEq] at h
  obtain ⟨f, -, _, -, _, -, _, -, _, -, _, -, filter, hf, _, -, _, -, rfl⟩ := h
  rintro s rfl hn
  obtain ⟨y, -, hy, he⟩ := Slot.optional_eq_some hf
  obtain ⟨v, hv, hs⟩ := Option.bind_eq_some_iff.mp he
  obtain rfl : ⟨y.toValue, y.toValue_wellFormed⟩ = v := Option.some.inj hv
  rw [CompiledJsonSchema.raw_of_ofValue? hs] at hn
  exact hy (Json.eq_null_of_toValue hn)

end ConstraintsField

/-! ## Constraints -/

instance : WritesSlots Constraints where
  slots c := [("fields", if c.fields.isEmpty then none else some (toTree c.fields)),
    ("limit_disclosure", c.limitDisclosure.map toTree)]
  nodup_keys _ := (by decide : ["fields", "limit_disclosure"].Nodup)
  toTree_eq_present c := by
    change Json.object ((if c.fields.isEmpty then [] else member _ _) ++ optionalMember _ _) = _
    simp only [skippedMember_eq_present, optionalMember_eq_present, ← Members.present_append]
    rfl

instance : WritesValues Constraints := ⟨fun c => wellFormed_toTree <| by
  simp only [slots, List.forall_mem_cons]
  refine ⟨fun x hx => ?_, fun _ => wellFormed_of_mem_map_toTree, List.forall_mem_nil _⟩
  split at hx
  · cases hx
  · exact wellFormed_of_mem_some_toTree hx⟩

namespace Constraints

/-- Every field is canonical. -/
def Canonical (c : Constraints) : Prop := ∀ field ∈ c.fields, field.Canonical

/-- Constraints are read back if there is a field, and are not read at all if there is none. -/
theorem Canonical.fromTree_toTree {c : Constraints} (h : c.Canonical) :
    fromTree (toTree c) = if c.fields = [] then none else some c := by
  have hl : (slotOf (slots c) "limit_disclosure").optional = some c.limitDisclosure :=
    Slot.optional_ofOption c.limitDisclosure
  change (structFields _ (toTree c) >>= fun f => _) = _
  rw [structFields_toTree, Option.bind_eq_bind, Option.bind_some]
  by_cases hc : c.fields = []
  · have hf : ((slotOf (slots c) "fields").required : Option (List ConstraintsField)) = none := by
      change (Slot.ofOption (if c.fields.isEmpty then none else _)).required = _
      rw [hc]
      rfl
    rw [if_pos hc, hf]
    rfl
  · have hf : (slotOf (slots c) "fields").required = some c.fields := by
      change (Slot.ofOption (if c.fields.isEmpty then none else _)).required = _
      rw [if_neg (mt List.isEmpty_iff.mp hc)]
      exact fromTree_toTree_list fun field hm => (h field hm).fromTree_toTree
    rw [if_neg hc, hf, hl]
    rfl

theorem canonical_new : new.Canonical := List.forall_mem_nil _

/-- Whatever is read is canonical. -/
theorem canonical_of_fromTree {x : Json} {c : Constraints} (h : fromTree x = some c) :
    c.Canonical := by
  change (structFields _ x >>= fun f => _) = _ at h
  simp only [Option.bind_eq_bind, Option.bind_eq_some_iff, Option.pure_def,
    Option.some.injEq] at h
  obtain ⟨f, -, fields, hf, _, -, rfl⟩ := h
  intro field hm
  obtain ⟨y, -, hy⟩ := Slot.required_eq_some_iff.mp hf
  obtain ⟨xs, -, hxs⟩ := exists_of_fromTree_list hy
  obtain ⟨z, -, hz⟩ := exists_of_mem_mapM hxs hm
  exact ConstraintsField.canonical_of_fromTree hz

end Constraints

/-! ## Descriptors -/

instance : WritesSlots InputDescriptor where
  slots d := [("id", some (toTree d.id)), ("constraints", some (toTree d.constraints)),
    ("name", d.name.map toTree), ("purpose", d.purpose.map toTree),
    ("format", if d.format.isEmpty then none else some (toTree d.format)),
    ("group", if d.groups.isEmpty then none else some (toTree d.groups))]
  nodup_keys _ := (by decide : ["id", "constraints", "name", "purpose", "format", "group"].Nodup)
  toTree_eq_present d := by
    change Json.object (_ ++ (if d.format.isEmpty then [] else member _ _) ++
      (if d.groups.isEmpty then [] else member _ _)) = _
    rw [skippedMember_eq_present, skippedMember_eq_present]
    simp only [optionalMember_eq_present, member_eq_present, ← Members.present_append]
    rfl

namespace InputDescriptor

/-- The constraints and the formats are canonical. -/
def Canonical (d : InputDescriptor) : Prop := d.constraints.Canonical ∧ d.format.Canonical

theorem Canonical.wellFormed_toTree {d : InputDescriptor} (h : d.Canonical) :
    (toTree d).wellFormed = true := OpenID4VP.wellFormed_toTree <| by
  simp only [slots, List.forall_mem_cons]
  refine ⟨fun _ => wellFormed_of_mem_some_toTree, fun _ => wellFormed_of_mem_some_toTree,
    fun _ => wellFormed_of_mem_map_toTree, fun _ => wellFormed_of_mem_map_toTree,
    fun x hx => ?_, fun x hx => ?_, List.forall_mem_nil _⟩
  · split at hx
    · cases hx
    · obtain rfl := Option.some.inj hx
      exact h.2.wellFormed_toTree
  · split at hx
    · cases hx
    · exact wellFormed_of_mem_some_toTree hx

/-- A descriptor is read back if its constraints have a field, and else it is not read. -/
theorem Canonical.fromTree_toTree {d : InputDescriptor} (h : d.Canonical) :
    fromTree (toTree d) = if d.constraints.fields = [] then none else some d := by
  have hi : (slotOf (slots d) "id").required = some d.id := LawfulSerde.fromTree_toTree d.id
  have hc : (slotOf (slots d) "constraints").orDefault .new =
      if d.constraints.fields = [] then none else some d.constraints := h.1.fromTree_toTree
  have hn : (slotOf (slots d) "name").optional = some d.name := Slot.optional_ofOption d.name
  have hp : (slotOf (slots d) "purpose").optional = some d.purpose :=
    Slot.optional_ofOption d.purpose
  have hf : (slotOf (slots d) "format").orDefault .empty = some d.format :=
    Slot.orDefault_ofOption_skip ClaimFormatMap.eq_empty_of_isEmpty h.2.fromTree_toTree
  have hg : (slotOf (slots d) "group").orDefault [] = some d.groups :=
    Slot.orDefault_ofOption_skip List.isEmpty_iff.mp (LawfulSerde.fromTree_toTree d.groups)
  change (structFields _ (toTree d) >>= fun f => _) = _
  rw [structFields_toTree, Option.bind_eq_bind, Option.bind_some, hi, hc, hn, hp, hf, hg]
  split <;> rfl

/-- Whatever is read from a value is canonical. -/
theorem canonical_of_fromTree {x : Json} {d : InputDescriptor} (hx : x.wellFormed = true)
    (h : fromTree x = some d) : d.Canonical := by
  change (structFields _ x >>= fun f => _) = _ at h
  simp only [Option.bind_eq_bind, Option.bind_eq_some_iff, Option.pure_def,
    Option.some.injEq] at h
  obtain ⟨f, hs, _, -, constraints, hc, _, -, _, -, format, hf, _, -, rfl⟩ := h
  constructor
  · rcases Slot.orDefault_eq_some hc with ⟨y, -, hy⟩ | rfl
    · exact Constraints.canonical_of_fromTree hy
    · exact Constraints.canonical_new
  · rcases Slot.orDefault_eq_some hf with ⟨y, hg, hy⟩ | rfl
    · exact ClaimFormatMap.canonical_of_fromTree (wellFormed_of_given hs hx hg) hy
    · exact ClaimFormatMap.canonical_empty

end InputDescriptor
end OpenID4VP
