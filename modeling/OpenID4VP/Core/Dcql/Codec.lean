import OpenID4VP.Lib.Kept
import OpenID4VP.Core.Dcql.TrustedAuthorities

/-! # Queries that are read and written again

Every query that is read is read again from what it is written as. `DCQL.recodes` says this of the
readers of values and of texts, and what is kept of the tree that the query was read from. -/

namespace OpenID4VP

/-! ## Trees that are written as they were read -/

theorem eq_toTree_string {x : Json} {s : String} (h : fromTree x = some s) : x = toTree s :=
  fromTree_eq_text_iff.mp h

theorem eq_toTree_bool {x : Json} {b : Bool} (h : fromTree x = some b) : x = toTree b := by
  cases x with
  | bool b' => exact congrArg Json.bool (Option.some.inj h)
  | _ => cases h

theorem PathValue.eq_toTree {x : Json} {v : PathValue} (h : fromTree x = some v) :
    x = toTree v := by
  cases x with
  | string s =>
    obtain rfl := Option.some.inj h
    rfl
  | null =>
    obtain rfl := Option.some.inj h
    rfl
  | number n =>
    cases n with
    | posInt n =>
      obtain rfl := Option.some.inj h
      rfl
    | _ => cases h
  | _ => cases h

theorem ValueType.eq_toTree {x : Json} {v : ValueType} (h : fromTree x = some v) :
    x = toTree v := by
  cases x with
  | string s =>
    obtain rfl := Option.some.inj h
    rfl
  | bool b =>
    obtain rfl := Option.some.inj h
    rfl
  | number n =>
    cases n with
    | posInt n =>
      obtain rfl := Option.some.inj h
      rfl
    | _ => cases h
  | _ => cases h

theorem ClaimFormatDesignation.eq_toTree {x : Json} {d : ClaimFormatDesignation}
    (h : fromTree x = some d) : x = toTree d := by
  obtain ⟨s, hs, h⟩ := Option.bind_eq_some_iff.mp h
  obtain rfl := Option.some.inj h
  rw [fromTree_eq_text_iff.mp hs]
  exact congrArg Json.string (name_fromName s).symm

theorem elementsKept_toTree [Deserialize α] [Serialize α] {kept : Json → Json → Prop}
    (h : ∀ {x} {a : α}, fromTree x = some a → kept x (toTree a)) {x : Json} {v : NonEmptyVec α}
    (hx : fromTree x = some v) : ElementsKept kept x (toTree v) := by
  obtain ⟨as, has, hv⟩ := Option.bind_eq_some_iff.mp hx
  obtain ⟨xs, rfl, hxs⟩ := exists_of_fromTree_list has
  obtain rfl := NonEmptyVec.ofList?_eq_some_iff.mp hv
  have hk := forall₂_of_mapM h hxs
  refine .array ?_ hk
  rintro rfl
  cases hl : v.toList with
  | nil => exact v.nonempty hl
  | cons a as =>
    rw [hl] at hk
    cases hk

theorem exists_of_mem_fromTree_vec [Deserialize α] {x : Json} {v : NonEmptyVec α} {a : α}
    (h : fromTree x = some v) (ha : a ∈ v.toList) : ∃ y, fromTree y = some a := by
  obtain ⟨as, has, hv⟩ := Option.bind_eq_some_iff.mp h
  obtain ⟨xs, -, hxs⟩ := exists_of_fromTree_list has
  obtain ⟨y, -, hy⟩ := exists_of_mem_mapM (NonEmptyVec.ofList?_eq_some_iff.mp hv ▸ hxs) ha
  exact ⟨y, hy⟩

/-! ## The parts of a query -/

namespace DcqlClaim

def rules : List FieldRule := [.optional "id" Eq, .required "path" (ElementsKept Eq),
  .optional "values" (ElementsKept Eq)]

theorem kept {x : Json} {c : DcqlClaim} (h : fromTree x = some c) :
    StructKept rules x (toTree c) := by
  obtain ⟨f, hs, h⟩ := Option.bind_eq_some_iff.mp h
  obtain ⟨id, hi, h⟩ := Option.bind_eq_some_iff.mp h
  obtain ⟨path, hp, h⟩ := Option.bind_eq_some_iff.mp h
  obtain ⟨values, hv, h⟩ := Option.bind_eq_some_iff.mp h
  obtain rfl := Option.some.inj h
  refine structKept_toTree hs rfl ?_
  simp only [rules, List.forall_mem_cons]
  exact ⟨FieldRule.holds_optional ID.fromTree_eq_some_iff.mp hi,
    FieldRule.holds_required (elementsKept_toTree PathValue.eq_toTree) hp,
    FieldRule.holds_optional (elementsKept_toTree ValueType.eq_toTree) hv, List.forall_mem_nil _⟩

end DcqlClaim

namespace DcqlMeta

def rules : List FieldRule := [.optional "vct_values" (ElementsKept Eq),
  .optional "type_values" (ElementsKept (ElementsKept Eq)), .optional "doctype_value" Eq]

theorem kept {x : Json} {m : DcqlMeta} (h : fromTree x = some m) :
    StructKept rules x (toTree m) := by
  obtain ⟨f, hs, h⟩ := Option.bind_eq_some_iff.mp h
  obtain ⟨vctValues, hv, h⟩ := Option.bind_eq_some_iff.mp h
  obtain ⟨typeValues, ht, h⟩ := Option.bind_eq_some_iff.mp h
  obtain ⟨doctypeValue, hd, h⟩ := Option.bind_eq_some_iff.mp h
  obtain rfl := Option.some.inj h
  refine structKept_toTree hs rfl ?_
  simp only [rules, List.forall_mem_cons]
  exact ⟨FieldRule.holds_optional (elementsKept_toTree eq_toTree_string) hv,
    FieldRule.holds_optional (elementsKept_toTree (elementsKept_toTree eq_toTree_string)) ht,
    FieldRule.holds_optional eq_toTree_string hd, List.forall_mem_nil _⟩

end DcqlMeta

namespace DcqlCredentialSet

def rules : List FieldRule := [.required "options" (ElementsKept (ElementsKept Eq)),
  .optional "required" Eq]

theorem kept {x : Json} {s : DcqlCredentialSet} (h : fromTree x = some s) :
    StructKept rules x (toTree s) := by
  obtain ⟨f, hs, h⟩ := Option.bind_eq_some_iff.mp h
  obtain ⟨options, ho, h⟩ := Option.bind_eq_some_iff.mp h
  obtain ⟨required, hr, h⟩ := Option.bind_eq_some_iff.mp h
  obtain rfl := Option.some.inj h
  refine structKept_toTree hs rfl ?_
  simp only [rules, List.forall_mem_cons]
  exact ⟨FieldRule.holds_required (elementsKept_toTree (elementsKept_toTree eq_toTree_string)) ho,
    FieldRule.holds_optional eq_toTree_bool hr, List.forall_mem_nil _⟩

end DcqlCredentialSet

namespace RawTrustedAuthority

def rules : List FieldRule := [.required "type" Eq, .required "values" (ElementsKept Eq)]

theorem kept {x : Json} {raw : RawTrustedAuthority} (h : fromTree x = some raw) :
    StructKept rules x (toTree raw) := by
  obtain ⟨f, hs, h⟩ := Option.bind_eq_some_iff.mp h
  obtain ⟨type, ht, h⟩ := Option.bind_eq_some_iff.mp h
  obtain ⟨values, hv, h⟩ := Option.bind_eq_some_iff.mp h
  obtain rfl := Option.some.inj h
  refine structKept_toTree hs rfl ?_
  simp only [rules, List.forall_mem_cons]
  exact ⟨FieldRule.holds_required eq_toTree_string ht,
    FieldRule.holds_required (elementsKept_toTree eq_toTree_string) hv, List.forall_mem_nil _⟩

end RawTrustedAuthority

section
variable [Base64Url]

namespace TrustedAuthority

theorem intoRaw_of_fromTree {x : Json} {a : TrustedAuthority} (h : fromTree x = some a) :
    fromTree x = some a.intoRaw ∧ a.WellFormed := by
  obtain ⟨raw, hraw, h⟩ := Option.bind_eq_some_iff.mp h
  obtain ⟨rfl, hw⟩ := fromRaw_eq_ok_iff.mp (Except.toOption_eq_some_iff.mp h)
  exact ⟨hraw, hw⟩

theorem kept {x : Json} {a : TrustedAuthority} (h : fromTree x = some a) :
    StructKept RawTrustedAuthority.rules x (toTree a) :=
  RawTrustedAuthority.kept (intoRaw_of_fromTree h).1

end TrustedAuthority

namespace DcqlCredential

def rules : List FieldRule := [.required "id" Eq, .required "format" Eq,
  .required "meta" (StructKept DcqlMeta.rules), .optional "multiple" Eq,
  .optional "claims" (ElementsKept (StructKept DcqlClaim.rules)),
  .optional "claim_sets" (ElementsKept (ElementsKept Eq)),
  .optional "require_cryptographic_holder_binding" Eq,
  .optional "trusted_authorities" (ElementsKept (StructKept RawTrustedAuthority.rules))]

theorem kept {x : Json} {c : DcqlCredential} (h : fromTree x = some c) :
    StructKept rules x (toTree c) := by
  obtain ⟨f, hs, h⟩ := Option.bind_eq_some_iff.mp h
  obtain ⟨id, hi, h⟩ := Option.bind_eq_some_iff.mp h
  obtain ⟨format, hf, h⟩ := Option.bind_eq_some_iff.mp h
  obtain ⟨«meta», hm, h⟩ := Option.bind_eq_some_iff.mp h
  obtain ⟨multiple, hmu, h⟩ := Option.bind_eq_some_iff.mp h
  obtain ⟨claims, hc, h⟩ := Option.bind_eq_some_iff.mp h
  obtain ⟨claimSets, hcs, h⟩ := Option.bind_eq_some_iff.mp h
  obtain ⟨binding, hb, h⟩ := Option.bind_eq_some_iff.mp h
  obtain ⟨authorities, ha, h⟩ := Option.bind_eq_some_iff.mp h
  obtain rfl := Option.some.inj h
  refine structKept_toTree hs rfl ?_
  simp only [rules, List.forall_mem_cons]
  exact ⟨FieldRule.holds_required ID.fromTree_eq_some_iff.mp hi,
    FieldRule.holds_required ClaimFormatDesignation.eq_toTree hf,
    FieldRule.holds_required DcqlMeta.kept hm, FieldRule.holds_optional eq_toTree_bool hmu,
    FieldRule.holds_optional (elementsKept_toTree DcqlClaim.kept) hc,
    FieldRule.holds_optional (elementsKept_toTree (elementsKept_toTree eq_toTree_string)) hcs,
    FieldRule.holds_optional eq_toTree_bool hb,
    FieldRule.holds_optional (elementsKept_toTree TrustedAuthority.kept) ha, List.forall_mem_nil _⟩

theorem wellFormed_of_fromTree {x : Json} {c : DcqlCredential} (h : fromTree x = some c) :
    c.WellFormed ∧ c.normalize = c := by
  obtain ⟨f, hs, h⟩ := Option.bind_eq_some_iff.mp h
  obtain ⟨id, -, h⟩ := Option.bind_eq_some_iff.mp h
  obtain ⟨format, hf, h⟩ := Option.bind_eq_some_iff.mp h
  obtain ⟨«meta», -, h⟩ := Option.bind_eq_some_iff.mp h
  obtain ⟨multiple, -, h⟩ := Option.bind_eq_some_iff.mp h
  obtain ⟨claims, -, h⟩ := Option.bind_eq_some_iff.mp h
  obtain ⟨claimSets, -, h⟩ := Option.bind_eq_some_iff.mp h
  obtain ⟨binding, -, h⟩ := Option.bind_eq_some_iff.mp h
  obtain ⟨authorities, ha, h⟩ := Option.bind_eq_some_iff.mp h
  obtain rfl := Option.some.inj h
  constructor
  · intro as has a hm
    obtain rfl : authorities = some as := has
    obtain ⟨y, -, -, hy⟩ := Slot.optional_eq_some ha
    obtain ⟨z, hz⟩ := exists_of_mem_fromTree_vec hy hm
    exact (TrustedAuthority.intoRaw_of_fromTree hz).2
  · obtain ⟨y, -, hy⟩ := Slot.required_eq_some_iff.mp hf
    obtain ⟨s, -, hs⟩ := Option.bind_eq_some_iff.mp hy
    obtain rfl := Option.some.inj hs
    rw [normalize, ClaimFormatDesignation.name_fromName]

end DcqlCredential

/-! ## Queries -/

namespace DCQL

def rules : List FieldRule := [
  .required "credentials" (ElementsKept (StructKept DcqlCredential.rules)),
  .optional "credential_sets" (ElementsKept (StructKept DcqlCredentialSet.rules))]

theorem kept {x : Json} {q : DCQL} (h : fromTree x = some q) :
    StructKept rules x (toTree q) := by
  obtain ⟨f, hs, h⟩ := Option.bind_eq_some_iff.mp h
  obtain ⟨credentials, hc, h⟩ := Option.bind_eq_some_iff.mp h
  obtain ⟨credentialSets, hcs, h⟩ := Option.bind_eq_some_iff.mp h
  obtain rfl := Option.some.inj h
  refine structKept_toTree hs rfl ?_
  simp only [rules, List.forall_mem_cons]
  exact ⟨FieldRule.holds_required (elementsKept_toTree DcqlCredential.kept) hc,
    FieldRule.holds_optional (elementsKept_toTree DcqlCredentialSet.kept) hcs,
    List.forall_mem_nil _⟩

/-- A query that is read is well formed, with the formats that their names stand for. -/
theorem wellFormed_of_fromTree {x : Json} {q : DCQL} (h : fromTree x = some q) :
    q.WellFormed ∧ q.normalize = q := by
  obtain ⟨f, hs, h⟩ := Option.bind_eq_some_iff.mp h
  obtain ⟨credentials, hc, h⟩ := Option.bind_eq_some_iff.mp h
  obtain ⟨credentialSets, -, h⟩ := Option.bind_eq_some_iff.mp h
  obtain rfl := Option.some.inj h
  obtain ⟨y, -, hy⟩ := Slot.required_eq_some_iff.mp hc
  have hw : ∀ c ∈ credentials.toList, c.WellFormed ∧ c.normalize = c := by
    intro c hm
    obtain ⟨z, hz⟩ := exists_of_mem_fromTree_vec hy hm
    exact DcqlCredential.wellFormed_of_fromTree hz
  refine ⟨fun c hm => (hw c hm).1, ?_⟩
  rw [normalize, NonEmptyVec.map_eq_self fun c hm => (hw c hm).2]

theorem fromTree_toTree_of_fromTree {x : Json} {q : DCQL} (h : fromTree x = some q) :
    fromTree (toTree q) = some q := by
  obtain ⟨hw, hn⟩ := wellFormed_of_fromTree h
  rw [hw.fromTree_toTree, hn]

variable [SerdeJson]

/-- The query is read again from the tree, the parameter and the text it is written as, and all of
the tree it was read from is kept but for members that no field has, optional members that are
`null`, and the positions of what is given by position. -/
structure Recodes (x : Json) (q : DCQL) : Prop where
  serde : fromTree (toTree q) = some q
  parameter : TypedParameter.tryFrom (TypedParameter.intoJson q) = .ok q
  text : TypedParameter.tryFrom (.string (toJsonString q)) = .ok q
  kept : StructKept rules x (toTree q)

theorem recodes_of_fromTree {x : Json} {q : DCQL} (h : fromTree x = some q) : Recodes x q := by
  have hq := fromTree_toTree_of_fromTree h
  refine { serde := hq, parameter := ?_, text := ?_, kept := kept h }
  · change fromStringOrValue (toTree q) = _
    exact fromValue_eq_ok_iff.mpr hq
  · change fromStr (SerdeJson.print (toTree q)) = _
    rw [fromStr_print, fromValue_eq_ok_iff]
    exact hq

/-- Whatever a query is read from, it is written as what is read as that query again. As a
parameter, it is read from a value or from the text in a string. -/
theorem recodes (x : Json) (q : DCQL) :
    (fromTree x = some q → Recodes x q) ∧
    (TypedParameter.tryFrom x = .ok q → ∃ y,
      (y = x ∨ ∃ s, x = .string s ∧ SerdeJson.parse s = some y) ∧ Recodes y q) := by
  refine ⟨recodes_of_fromTree, fun h => ?_⟩
  change fromStringOrValue x = .ok q at h
  cases x with
  | string s =>
    obtain ⟨y, hy, hq⟩ := fromStr_eq_ok_iff.mp h
    exact ⟨y, .inr ⟨s, rfl, hy⟩, recodes_of_fromTree hq⟩
  | _ => exact ⟨_, .inl rfl, recodes_of_fromTree (fromValue_eq_ok_iff.mp h)⟩

end DCQL
end

/-! ## A query by position -/

/-- The second tree is the first one without some members of its objects. -/
inductive MembersDropped : Json → Json → Prop
  | same : MembersDropped x x
  | array (h : List.Forall₂ MembersDropped xs ys) : MembersDropped (.array xs) (.array ys)
  | object (hs : ks ⊆ ms) (hk : Members.keys ks = Members.keys ns)
    (h : List.Forall₂ MembersDropped (ks.map Prod.snd) (ns.map Prod.snd)) :
    MembersDropped (.object ms) (.object ns)

namespace Sample
open scoped Reference

/-- A query for one credential. -/
def addressQuery : DCQL where
  credentials := .new {
    id := ⟨"address", rfl⟩, format := .sdJwtVc, «meta» := ⟨none, none, none⟩, multiple := none
    claims := none, claimSets := none, requireCryptographicHolderBinding := none
    trustedAuthorities := none }
  credentialSets := none

/-- The query as an array of its fields. -/
def positionalQuery : Json :=
  .array [
    .array [.object [
      ("id", .string "address"), ("format", .string "dc+sd-jwt"), ("meta", .object [])]],
    .null]

theorem fromTree_positionalQuery : fromTree positionalQuery = some addressQuery := rfl

theorem recodes_positionalQuery : DCQL.Recodes positionalQuery addressQuery :=
  (DCQL.recodes positionalQuery addressQuery).1 fromTree_positionalQuery

theorem not_membersDropped_positionalQuery :
    fromTree positionalQuery = some addressQuery ∧
      ¬MembersDropped positionalQuery (toTree addressQuery) := by
  refine ⟨fromTree_positionalQuery, fun h => ?_⟩
  have ho : ∃ ns, toTree addressQuery = .object ns := ⟨_, rfl⟩
  obtain ⟨ns, hns⟩ := ho
  rw [hns] at h
  cases h

end Sample
end OpenID4VP
