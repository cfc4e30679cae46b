import OpenID4VP.Core.Object
import OpenID4VP.Core.CredentialFormat
import OpenID4VP.Lib.Split

/-! # The digital credentials query language -/

namespace OpenID4VP

/-! ## Identifiers -/

def isIdChar (c : Char) : Bool := c.isAlphanum || c == '_' || c == '-'

/-- The text of an identifier (`^[a-zA-Z0-9_-]+$`). -/
def isId (s : String) : Bool := !s.toList.isEmpty && s.toList.all isIdChar

structure ID where
  value : String
  valid : isId value = true
  deriving DecidableEq

namespace ID

def new (id : String) : Except Anyhow ID :=
  if h : isId id = true then return ⟨id, h⟩
  else throw (.msg "ID must only contain alphanumeric characters, hyphens, and underscores")

@[simp] theorem new_value (id : ID) : new id.value = .ok id := dif_pos id.valid

instance : Deserialize ID := ⟨fun x => do (new (← fromTree x)).toOption⟩
instance : Serialize ID := ⟨fun id => toTree id.value⟩
instance : LawfulSerde ID := ⟨fun id => by
  change (new id.value).toOption = _
  rw [new_value]
  rfl⟩

theorem new_eq_ok_iff {s : String} {id : ID} : new s = .ok id ↔ s = id.value := by
  constructor
  · intro h
    rw [new] at h
    split at h
    · rw [← Except.pure_eq_ok_iff.mp h]
    · exact absurd h Except.throw_ne_ok
  · rintro rfl
    exact new_value id

theorem fromTree_eq_some_iff {x : Json} {id : ID} :
    fromTree x = some id ↔ x = .string id.value := by
  change ((fromTree x : Option String) >>= fun s => (new s).toOption) = some id ↔ _
  rw [Option.bind_eq_bind, Option.bind_eq_some_iff]
  constructor
  · rintro ⟨s, hs, hn⟩
    rw [fromTree_eq_text_iff.mp hs, new_eq_ok_iff.mp (Except.toOption_eq_some_iff.mp hn)]
  · rintro rfl
    exact ⟨id.value, rfl, by rw [new_value]; rfl⟩

instance [SerdeJson] : TypedParameter ID where
  key := "id"
  tryFrom x := do new (← fromStringOrValue x)
  intoJson id := toTree id.value

end ID

/-! ## Trusted authorities -/

section
variable [Base64Url]

/-- A key identifier, as the text it was given and as its bytes. -/
structure KeyIdentifier where
  encoded : String
  bytes : List UInt8
  nonempty : bytes ≠ []

namespace KeyIdentifier

/-- The key identifier of some bytes under a text for them. -/
def ofBytes (encoded : String) (bytes : List UInt8) : Except Anyhow KeyIdentifier :=
  if h : bytes ≠ [] then return ⟨encoded, bytes, h⟩
  else throw (.msg "a Key Identifier cannot be empty")

def fromBase64url (encoded : String) : Except Anyhow KeyIdentifier :=
  match Base64Url.decode (trimEndMatches '=' encoded) with
  | some bytes => ofBytes encoded bytes
  | none => throw (.library "base64")

def fromBytes (bytes : List UInt8) : Except Anyhow KeyIdentifier :=
  ofBytes (Base64Url.encode bytes) bytes

end KeyIdentifier

inductive TrustedAuthority
  | aki (values : NonEmptyVec KeyIdentifier)
  | etsiTl (values : NonEmptyVec String)
  | openidFederation (values : NonEmptyVec String)
  | other (type : String) (values : NonEmptyVec String)

structure RawTrustedAuthority where
  type : String
  values : NonEmptyVec String

instance : Deserialize RawTrustedAuthority := ⟨fun x => do
  let f ← structFields ["type", "values"] x
  return { type := ← (f "type").required, values := ← (f "values").required }⟩

instance : Serialize RawTrustedAuthority := ⟨fun raw =>
  .object <| member "type" raw.type ++ member "values" raw.values⟩

namespace TrustedAuthority

def fromRaw (raw : RawTrustedAuthority) : Except Anyhow TrustedAuthority :=
  if raw.type = "aki" then return aki (← raw.values.mapM KeyIdentifier.fromBase64url)
  else if raw.type = "etsi_tl" then return etsiTl raw.values
  else if raw.type = "openid_federation" then return openidFederation raw.values
  else return other raw.type raw.values

def intoRaw : TrustedAuthority → RawTrustedAuthority
  | aki values => ⟨"aki", values.map KeyIdentifier.encoded⟩
  | etsiTl values => ⟨"etsi_tl", values⟩
  | openidFederation values => ⟨"openid_federation", values⟩
  | other type values => ⟨type, values⟩

instance : Deserialize TrustedAuthority := ⟨fun x => do (fromRaw (← fromTree x)).toOption⟩
instance : Serialize TrustedAuthority := ⟨fun a => toTree a.intoRaw⟩

end TrustedAuthority
end

/-! ## Claims -/

inductive PathValue
  | string (s : String)
  | usize (n : UInt64)
  | null
  deriving DecidableEq

instance : Deserialize PathValue := ⟨fun
  | .string s => some (.string s)
  | .number (.posInt n) => some (.usize n)
  | .null => some .null
  | _ => none⟩
instance : Serialize PathValue := ⟨fun
  | .string s => .string s
  | .usize n => toTree n
  | .null => .null⟩
instance : LawfulSerde PathValue := ⟨fun v => by cases v <;> rfl⟩

inductive ValueType
  | string (s : String)
  | integer (n : UInt64)
  | boolean (b : Bool)
  deriving DecidableEq

instance : Deserialize ValueType := ⟨fun
  | .string s => some (.string s)
  | .number (.posInt n) => some (.integer n)
  | .bool b => some (.boolean b)
  | _ => none⟩
instance : Serialize ValueType := ⟨fun
  | .string s => .string s
  | .integer n => toTree n
  | .boolean b => .bool b⟩
instance : LawfulSerde ValueType := ⟨fun v => by cases v <;> rfl⟩

structure DcqlClaim where
  id : Option ID
  path : NonEmptyVec PathValue
  values : Option (NonEmptyVec ValueType)
  deriving DecidableEq

instance : Deserialize DcqlClaim := ⟨fun x => do
  let f ← structFields ["id", "path", "values"] x
  return {
    id := ← (f "id").optional
    path := ← (f "path").required
    values := ← (f "values").optional }⟩

instance : Serialize DcqlClaim := ⟨fun claim => .object <|
  optionalMember "id" claim.id ++ member "path" claim.path ++ optionalMember "values" claim.values⟩

/-! ## Queries -/

structure DcqlMeta where
  vctValues : Option (NonEmptyVec String)
  typeValues : Option (NonEmptyVec (NonEmptyVec String))
  doctypeValue : Option String
  deriving DecidableEq

instance : Deserialize DcqlMeta := ⟨fun x => do
  let f ← structFields ["vct_values", "type_values", "doctype_value"] x
  return {
    vctValues := ← (f "vct_values").optional
    typeValues := ← (f "type_values").optional
    doctypeValue := ← (f "doctype_value").optional }⟩

instance : Serialize DcqlMeta := ⟨fun m => .object <|
  optionalMember "vct_values" m.vctValues ++ optionalMember "type_values" m.typeValues ++
  optionalMember "doctype_value" m.doctypeValue⟩

structure DcqlCredentialSet where
  options : NonEmptyVec (NonEmptyVec String)
  /-- Taken as `true` where it is absent. -/
  required : Option Bool
  deriving DecidableEq

instance : Deserialize DcqlCredentialSet := ⟨fun x => do
  let f ← structFields ["options", "required"] x
  return { options := ← (f "options").required, required := ← (f "required").optional }⟩

instance : Serialize DcqlCredentialSet := ⟨fun s => .object <|
  member "options" s.options ++ optionalMember "required" s.required⟩

variable [Base64Url]

structure DcqlCredential where
  id : ID
  format : ClaimFormatDesignation
  «meta» : DcqlMeta
  multiple : Option Bool
  claims : Option (NonEmptyVec DcqlClaim)
  claimSets : Option (NonEmptyVec (NonEmptyVec String))
  requireCryptographicHolderBinding : Option Bool
  trustedAuthorities : Option (NonEmptyVec TrustedAuthority)

instance : Deserialize DcqlCredential := ⟨fun x => do
  let f ← structFields ["id", "format", "meta", "multiple", "claims", "claim_sets",
    "require_cryptographic_holder_binding", "trusted_authorities"] x
  return {
    id := ← (f "id").required
    format := ← (f "format").required
    «meta» := ← (f "meta").required
    multiple := ← (f "multiple").optional
    claims := ← (f "claims").optional
    claimSets := ← (f "claim_sets").optional
    requireCryptographicHolderBinding := ← (f "require_cryptographic_holder_binding").optional
    trustedAuthorities := ← (f "trusted_authorities").optional }⟩

instance : Serialize DcqlCredential := ⟨fun c => .object <|
  member "id" c.id ++ member "format" c.format ++ member "meta" c.meta ++
  optionalMember "multiple" c.multiple ++ optionalMember "claims" c.claims ++
  optionalMember "claim_sets" c.claimSets ++
  optionalMember "require_cryptographic_holder_binding" c.requireCryptographicHolderBinding ++
  optionalMember "trusted_authorities" c.trustedAuthorities⟩

structure DCQL where
  credentials : NonEmptyVec DcqlCredential
  credentialSets : Option (NonEmptyVec DcqlCredentialSet)

namespace DCQL

instance : Deserialize DCQL := ⟨fun x => do
  let f ← structFields ["credentials", "credential_sets"] x
  return {
    credentials := ← (f "credentials").required
    credentialSets := ← (f "credential_sets").optional }⟩

instance : Serialize DCQL := ⟨fun q => .object <|
  member "credentials" q.credentials ++ optionalMember "credential_sets" q.credentialSets⟩

instance [SerdeJson] : TypedParameter DCQL where
  key := "dcql_query"
  tryFrom := fromStringOrValue
  intoJson := toTree

end DCQL
end OpenID4VP
