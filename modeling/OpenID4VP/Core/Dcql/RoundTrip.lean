import OpenID4VP.Core.Dcql

/-! # Round trips of queries

A well-formed query is read back from what it is written as, its formats as their names say. -/

namespace OpenID4VP

instance : WritesValues ID := ⟨fun _ => rfl⟩
instance : NeverNull ID := ⟨nofun⟩
instance : WritesValues PathValue := ⟨fun v => by cases v <;> rfl⟩
instance : WritesValues ValueType := ⟨fun v => by cases v <;> rfl⟩
instance : WritesValues ClaimFormatDesignation := ⟨fun _ => rfl⟩

/-! ## Claims -/

instance : WritesSlots DcqlClaim where
  slots c := [("id", c.id.map toTree), ("path", some (toTree c.path)),
    ("values", c.values.map toTree)]
  nodup_keys _ := (by decide : ["id", "path", "values"].Nodup)
  toTree_eq_present c := by
    change Json.object (_ ++ member _ _ ++ _) = _
    simp only [optionalMember_eq_present, member_eq_present, ← Members.present_append]
    rfl

instance : WritesValues DcqlClaim := ⟨fun c => wellFormed_toTree <| by
  simp only [slots, List.forall_mem_cons]
  exact ⟨fun _ => wellFormed_of_mem_map_toTree, fun _ => wellFormed_of_mem_some_toTree,
    fun _ => wellFormed_of_mem_map_toTree, nofun⟩⟩

instance : LawfulSerde DcqlClaim := ⟨fun c => by
  have hi : (slotOf (slots c) "id").optional = some c.id := Slot.optional_ofOption c.id
  have hp : (slotOf (slots c) "path").required = some c.path :=
    LawfulSerde.fromTree_toTree c.path
  have hv : (slotOf (slots c) "values").optional = some c.values :=
    Slot.optional_ofOption c.values
  change (structFields _ (toTree c) >>= fun f => _) = _
  rw [structFields_toTree, Option.bind_eq_bind, Option.bind_some, hi, hp, hv]
  rfl⟩

/-! ## The parts of credentials -/

instance : WritesSlots DcqlMeta where
  slots m := [("vct_values", m.vctValues.map toTree), ("type_values", m.typeValues.map toTree),
    ("doctype_value", m.doctypeValue.map toTree)]
  nodup_keys _ := (by decide : ["vct_values", "type_values", "doctype_value"].Nodup)
  toTree_eq_present m := by
    change Json.object (optionalMember _ _ ++ optionalMember _ _ ++ optionalMember _ _) = _
    simp only [optionalMember_eq_present, ← Members.present_append]
    rfl

instance : WritesValues DcqlMeta := ⟨fun m => wellFormed_toTree <| by
  simp only [slots, List.forall_mem_cons]
  exact ⟨fun _ => wellFormed_of_mem_map_toTree, fun _ => wellFormed_of_mem_map_toTree,
    fun _ => wellFormed_of_mem_map_toTree, nofun⟩⟩

instance : LawfulSerde DcqlMeta := ⟨fun m => by
  have hv : (slotOf (slots m) "vct_values").optional = some m.vctValues :=
    Slot.optional_ofOption m.vctValues
  have ht : (slotOf (slots m) "type_values").optional = some m.typeValues :=
    Slot.optional_ofOption m.typeValues
  have hd : (slotOf (slots m) "doctype_value").optional = some m.doctypeValue :=
    Slot.optional_ofOption m.doctypeValue
  change (structFields _ (toTree m) >>= fun f => _) = _
  rw [structFields_toTree, Option.bind_eq_bind, Option.bind_some, hv, ht, hd]
  rfl⟩

instance : WritesSlots DcqlCredentialSet where
  slots s := [("options", some (toTree s.options)), ("required", s.required.map toTree)]
  nodup_keys _ := (by decide : ["options", "required"].Nodup)
  toTree_eq_present s := by
    change Json.object (member _ _ ++ optionalMember _ _) = _
    simp only [optionalMember_eq_present, member_eq_present, ← Members.present_append]
    rfl

instance : WritesValues DcqlCredentialSet := ⟨fun s => wellFormed_toTree <| by
  simp only [slots, List.forall_mem_cons]
  exact ⟨fun _ => wellFormed_of_mem_some_toTree, fun _ => wellFormed_of_mem_map_toTree, nofun⟩⟩

instance : LawfulSerde DcqlCredentialSet := ⟨fun s => by
  have ho : (slotOf (slots s) "options").required = some s.options :=
    LawfulSerde.fromTree_toTree s.options
  have hr : (slotOf (slots s) "required").optional = some s.required :=
    Slot.optional_ofOption s.required
  change (structFields _ (toTree s) >>= fun f => _) = _
  rw [structFields_toTree, Option.bind_eq_bind, Option.bind_some, ho, hr]
  rfl⟩

/-! ## Trusted authorities -/

instance : WritesSlots RawTrustedAuthority where
  slots raw := [("type", some (toTree raw.type)), ("values", some (toTree raw.values))]
  nodup_keys _ := (by decide : ["type", "values"].Nodup)
  toTree_eq_present _ := rfl

instance : WritesValues RawTrustedAuthority := ⟨fun raw => wellFormed_toTree <| by
  simp only [slots, List.forall_mem_cons]
  exact ⟨fun _ => wellFormed_of_mem_some_toTree, fun _ => wellFormed_of_mem_some_toTree, nofun⟩⟩

instance : LawfulSerde RawTrustedAuthority := ⟨fun raw => by
  have ht : (slotOf (slots raw) "type").required = some raw.type := rfl
  have hv : (slotOf (slots raw) "values").required = some raw.values :=
    LawfulSerde.fromTree_toTree raw.values
  change (structFields _ (toTree raw) >>= fun f => _) = _
  rw [structFields_toTree, Option.bind_eq_bind, Option.bind_some, ht, hv]
  rfl⟩

section
variable [Base64Url]

namespace TrustedAuthority

/-- Key identifiers are read from their texts, and no registered type is given as another one. -/
def WellFormed : TrustedAuthority → Prop
  | aki values => ∀ k ∈ values.toList, KeyIdentifier.fromBase64url k.encoded = .ok k
  | etsiTl _ | openidFederation _ => True
  | other type _ => type ∉ ["aki", "etsi_tl", "openid_federation"]

instance : WritesValues TrustedAuthority := ⟨fun a => WritesValues.wellFormed a.intoRaw⟩

theorem WellFormed.fromRaw_intoRaw {a : TrustedAuthority} (h : a.WellFormed) :
    fromRaw a.intoRaw = .ok a := by
  cases a with
  | aki values =>
    have hm : (values.map KeyIdentifier.encoded).mapM KeyIdentifier.fromBase64url = .ok values :=
      NonEmptyVec.mapM_map_eq_self h
    change ((values.map KeyIdentifier.encoded).mapM KeyIdentifier.fromBase64url >>= _) = _
    rw [hm]
    rfl
  | etsiTl values | openidFederation values => rfl
  | other type values =>
    simp only [WellFormed, List.mem_cons, List.not_mem_nil, or_false, not_or] at h
    rw [fromRaw, intoRaw, if_neg h.1, if_neg h.2.1, if_neg h.2.2]
    rfl

theorem WellFormed.fromTree_toTree {a : TrustedAuthority} (h : a.WellFormed) :
    fromTree (toTree a) = some a := by
  change (fromTree (toTree a.intoRaw) >>= fun raw => (fromRaw raw).toOption) = _
  rw [LawfulSerde.fromTree_toTree, Option.bind_eq_bind, Option.bind_some, h.fromRaw_intoRaw]
  rfl

end TrustedAuthority

/-! ## Credentials and queries -/

instance : WritesSlots DcqlCredential where
  slots c := [("id", some (toTree c.id)), ("format", some (toTree c.format)),
    ("meta", some (toTree c.meta)), ("multiple", c.multiple.map toTree),
    ("claims", c.claims.map toTree), ("claim_sets", c.claimSets.map toTree),
    ("require_cryptographic_holder_binding", c.requireCryptographicHolderBinding.map toTree),
    ("trusted_authorities", c.trustedAuthorities.map toTree)]
  nodup_keys _ := (by decide : ["id", "format", "meta", "multiple", "claims", "claim_sets",
    "require_cryptographic_holder_binding", "trusted_authorities"].Nodup)
  toTree_eq_present c := by
    change Json.object (_ ++ optionalMember _ _) = _
    simp only [optionalMember_eq_present, member_eq_present, ← Members.present_append]
    rfl

instance : WritesValues DcqlCredential := ⟨fun c => wellFormed_toTree <| by
  simp only [slots, List.forall_mem_cons]
  exact ⟨fun _ => wellFormed_of_mem_some_toTree, fun _ => wellFormed_of_mem_some_toTree,
    fun _ => wellFormed_of_mem_some_toTree, fun _ => wellFormed_of_mem_map_toTree,
    fun _ => wellFormed_of_mem_map_toTree, fun _ => wellFormed_of_mem_map_toTree,
    fun _ => wellFormed_of_mem_map_toTree, fun _ => wellFormed_of_mem_map_toTree, nofun⟩⟩

namespace DcqlCredential

/-- The credential with the format that its name stands for. -/
def normalize (c : DcqlCredential) : DcqlCredential := { c with format := .fromName c.format.name }

/-- The authorities of the credential are well formed. -/
def WellFormed (c : DcqlCredential) : Prop :=
  ∀ as ∈ c.trustedAuthorities, ∀ a ∈ as.toList, a.WellFormed

theorem WellFormed.fromTree_toTree {c : DcqlCredential} (h : c.WellFormed) :
    fromTree (toTree c) = some c.normalize := by
  have hi : (slotOf (slots c) "id").required = some c.id := LawfulSerde.fromTree_toTree c.id
  have hf : (slotOf (slots c) "format").required = some c.normalize.format := rfl
  have hm : (slotOf (slots c) "meta").required = some c.meta := LawfulSerde.fromTree_toTree c.meta
  have hmu : (slotOf (slots c) "multiple").optional = some c.multiple :=
    Slot.optional_ofOption c.multiple
  have hc : (slotOf (slots c) "claims").optional = some c.claims := Slot.optional_ofOption c.claims
  have hcs : (slotOf (slots c) "claim_sets").optional = some c.claimSets :=
    Slot.optional_ofOption c.claimSets
  have hr : (slotOf (slots c) "require_cryptographic_holder_binding").optional =
      some c.requireCryptographicHolderBinding :=
    Slot.optional_ofOption c.requireCryptographicHolderBinding
  have ht : (slotOf (slots c) "trusted_authorities").optional = some c.trustedAuthorities := by
    refine Slot.optional_ofOption_of fun as has => ?_
    exact NonEmptyVec.fromTree_toTree_of fun a ha => (h as has a ha).fromTree_toTree
  change (structFields _ (toTree c) >>= fun f => _) = _
  rw [structFields_toTree, Option.bind_eq_bind, Option.bind_some, hi, hf, hm, hmu, hc, hcs, hr, ht]
  rfl

end DcqlCredential

instance : WritesSlots DCQL where
  slots q := [("credentials", some (toTree q.credentials)),
    ("credential_sets", q.credentialSets.map toTree)]
  nodup_keys _ := (by decide : ["credentials", "credential_sets"].Nodup)
  toTree_eq_present q := by
    change Json.object (member _ _ ++ optionalMember _ _) = _
    simp only [optionalMember_eq_present, member_eq_present, ← Members.present_append]
    rfl

instance : WritesValues DCQL := ⟨fun q => wellFormed_toTree <| by
  simp only [slots, List.forall_mem_cons]
  exact ⟨fun _ => wellFormed_of_mem_some_toTree, fun _ => wellFormed_of_mem_map_toTree, nofun⟩⟩

namespace DCQL

def normalize (q : DCQL) : DCQL := { q with credentials := q.credentials.map .normalize }

/-- The authorities of all credentials are well formed. -/
def WellFormed (q : DCQL) : Prop := ∀ c ∈ q.credentials.toList, c.WellFormed

theorem WellFormed.fromTree_toTree {q : DCQL} (h : q.WellFormed) :
    fromTree (toTree q) = some q.normalize := by
  have hc : (slotOf (slots q) "credentials").required = some q.normalize.credentials :=
    NonEmptyVec.fromTree_toTree_map fun c hc => (h c hc).fromTree_toTree
  have hs : (slotOf (slots q) "credential_sets").optional = some q.credentialSets :=
    Slot.optional_ofOption q.credentialSets
  change (structFields _ (toTree q) >>= fun f => _) = _
  rw [structFields_toTree, Option.bind_eq_bind, Option.bind_some, hc, hs]
  rfl

/-- A well-formed query is read back from the parameter that it is inserted as. -/
theorem WellFormed.tryFrom_intoJson [SerdeJson] {q : DCQL} (h : q.WellFormed) :
    TypedParameter.tryFrom (TypedParameter.intoJson q).toValue = .ok q.normalize := by
  change fromStringOrValue (toTree q).toValue = _
  rw [toValue_toTree]
  exact fromValue_eq_ok_iff.mpr h.fromTree_toTree

end DCQL
end
end OpenID4VP
