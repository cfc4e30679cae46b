import OpenID4VP.Core.Object
import OpenID4VP.Core.PresentationDefinition
import OpenID4VP.Core.Dcql
import OpenID4VP.Utils

/-! # Parameters of authorization requests -/

namespace OpenID4VP

/-! ## Client identifiers -/

inductive ClientIdPrefix
  | decentralizedIdentifier | openidFederation | preRegistered | redirectUri
  | verifierAttestation | origin | x509SanDns | x509Hash
  deriving DecidableEq

namespace ClientIdPrefix

def name : ClientIdPrefix → String
  | decentralizedIdentifier => "decentralized_identifier"
  | openidFederation => "openid_federation"
  | preRegistered => "pre-registered"
  | redirectUri => "redirect_uri"
  | verifierAttestation => "verifier_attestation"
  | origin => "origin"
  | x509SanDns => "x509_san_dns"
  | x509Hash => "x509_hash"

def tryFrom (value : String) : Except Anyhow ClientIdPrefix :=
  match value with
  | "decentralized_identifier" => return decentralizedIdentifier
  | "openid_federation" => return openidFederation
  | "pre-registered" => return preRegistered
  | "redirect_uri" => return redirectUri
  | "verifier_attestation" => return verifierAttestation
  | "origin" => return origin
  | "x509_san_dns" => return x509SanDns
  | "x509_hash" => return x509Hash
  | _ => throw (.msg s!"Given client id prefix is not supported: {value}")

@[simp] theorem tryFrom_name (p : ClientIdPrefix) : tryFrom p.name = .ok p := by
  cases p <;> rfl

/-- The prefix that is read from a text has that text as its name. -/
theorem tryFrom_eq_ok_iff {s : String} {p : ClientIdPrefix} : tryFrom s = .ok p ↔ s = p.name := by
  refine ⟨fun h => ?_, fun h => h ▸ tryFrom_name p⟩
  unfold tryFrom at h
  split at h <;> simp only [Except.pure_eq_ok_iff, Except.throw_ne_ok] at h <;> subst h <;> rfl

theorem colon_not_mem_name (p : ClientIdPrefix) : ':' ∉ p.name.toList := by
  cases p <;> simp [name]

def tryFromJson (x : Json) : Except Anyhow ClientIdPrefix := do tryFrom (← fromValue x)

def intoJson (p : ClientIdPrefix) : Json := .string p.name

end ClientIdPrefix

structure ClientId where
  id : String
  idPrefix : ClientIdPrefix
  deriving DecidableEq

namespace ClientId

/-- A client id from its text: the part before the first colon is the prefix, and a text without
one is the id of a client that is registered. -/
def new (clientId : String) : Except Anyhow ClientId :=
  if clientId = "" then throw (.msg "Client ID cannot be empty.")
  else match splitOnce ':' clientId with
    | none => return ⟨clientId, .preRegistered⟩
    | some (p, id) => do return ⟨id, ← ClientIdPrefix.tryFrom p⟩

def getFullId (c : ClientId) : String := c.idPrefix.name ++ ":" ++ c.id

def fromDid [SsiDids] (did : String) : Except Anyhow ClientId :=
  if SsiDids.isDid did then return ⟨did, .decentralizedIdentifier⟩ else throw (.library "ssi")

def fromRedirectUri [UrlCrate] (uri : Url) : ClientId := ⟨UrlCrate.toString uri, .redirectUri⟩

instance : TypedParameter ClientId where
  key := "client_id"
  tryFrom
    | .string s => new s
    | _ => throw (.msg "client_id is not a string")
  intoJson c := .string c.getFullId

-- unlike `tryFrom`, it asks for a prefix
instance : Deserialize ClientId := ⟨fun x => do
  let s ← fromTree x
  let (idPrefix, id) ← splitOnce ':' s
  (new (idPrefix ++ ":" ++ id)).toOption⟩

instance : Serialize ClientId := ⟨fun c => toTree c.getFullId⟩

/-- The text of a client id is read as that client id. -/
theorem new_getFullId (c : ClientId) : new c.getFullId = .ok c := by
  have hs : splitOnce ':' c.getFullId = some (c.idPrefix.name, c.id) :=
    splitOnce_eq_some_iff.mpr ⟨by simp [getFullId], c.idPrefix.colon_not_mem_name⟩
  have hne : c.getFullId ≠ "" := by
    intro h
    rw [h] at hs
    exact absurd hs (by simp [splitOnce, splitList])
  rw [new, if_neg hne, hs]
  simp

/-- What a text that is read as a client id looks like. -/
theorem new_eq_ok_iff {s : String} {c : ClientId} :
    new s = .ok c ↔ s = c.getFullId ∨ (s = c.id ∧ c.idPrefix = .preRegistered ∧ s ≠ "" ∧
      ':' ∉ s.toList) := by
  constructor
  · intro h
    rw [new] at h
    split at h
    · exact absurd h Except.throw_ne_ok
    · next hne =>
      split at h
      · next hs =>
        have hc : (⟨s, .preRegistered⟩ : ClientId) = c := Except.pure_eq_ok_iff.mp h
        subst hc
        exact .inr ⟨rfl, rfl, hne, splitOnce_eq_none_iff.mp hs⟩
      · next p id hs =>
        simp only [Except.bind_eq_ok_iff, Except.pure_eq_ok_iff] at h
        obtain ⟨q, hq, rfl⟩ := h
        obtain rfl : p = q.name := ClientIdPrefix.tryFrom_eq_ok_iff.mp hq
        refine .inl (String.toList_inj.mp ?_)
        rw [(splitOnce_eq_some_iff.mp hs).1, getFullId]
        simp
  · rintro (rfl | ⟨rfl, hp, hne, hs⟩)
    · exact new_getFullId c
    · rw [new, if_neg hne, splitOnce_eq_none_iff.mpr hs, ← hp]
      rfl

/-- A client id without a prefix is written with one. -/
theorem getFullId_of_not_mem {s : String} {c : ClientId} (h : new s = .ok c)
    (hs : ':' ∉ s.toList) : c.getFullId = "pre-registered:" ++ s := by
  rcases new_eq_ok_iff.mp h with rfl | ⟨rfl, hp, -⟩
  · exact absurd (by simp [getFullId]) hs
  · rw [getFullId, hp]
    rfl

theorem getFullId_of_mem {s : String} {c : ClientId} (h : new s = .ok c) (hs : ':' ∈ s.toList) :
    c.getFullId = s := by
  rcases new_eq_ok_iff.mp h with rfl | ⟨-, -, -, hn⟩
  · rfl
  · exact absurd hs hn

/-- When it makes no difference to compare with the text of a client id or with the one it is
written as: a text with a prefix, or one that both are different from. -/
theorem eq_getFullId_iff_eq_iff {r s : String} {c : ClientId} (h : new s = .ok c) :
    (r = c.getFullId ↔ s = r) ↔ ':' ∈ s.toList ∨ (r ≠ s ∧ r ≠ "pre-registered:" ++ s) := by
  by_cases hs : ':' ∈ s.toList
  · simp [getFullId_of_mem h hs, hs, eq_comm]
  · have hne : s ≠ "pre-registered:" ++ s := fun he => hs (he ▸ by simp)
    rw [getFullId_of_not_mem h hs]
    constructor
    · intro he
      refine .inr ⟨fun hr => hne ?_, fun hr => hne ?_⟩
      · exact hr ▸ he.mpr hr.symm
      · exact (he.mp hr).trans hr
    · rintro (h' | ⟨h1, h2⟩)
      · exact absurd h' hs
      · exact ⟨fun hr => absurd hr h2, fun hr => absurd hr.symm h1⟩

end ClientId

/-! ## Texts -/

structure Nonce where
  value : String
  deriving DecidableEq

instance : TypedParameter Nonce := .via "nonce" Nonce.mk Nonce.value

structure WalletNonce where
  value : String
  deriving DecidableEq

instance : TypedParameter WalletNonce := .via "wallet_nonce" WalletNonce.mk WalletNonce.value

structure Audience where
  value : String
  deriving DecidableEq

instance : TypedParameter Audience := .via "aud" Audience.mk Audience.value

structure State where
  value : String
  deriving DecidableEq

instance : TypedParameter State := .via "state" State.mk State.value

structure Scope where
  value : String
  deriving DecidableEq

instance : TypedParameter Scope := .via "scope" Scope.mk Scope.value

/-! ## Names -/

inductive ResponseMode
  | directPost | directPostJwt | fragment | fragmentJwt | dcApi | dcApiJwt
  | unsupported (name : String)
  deriving DecidableEq

namespace ResponseMode

def default : ResponseMode := fragment

def ofString (s : String) : ResponseMode :=
  match s with
  | "direct_post" => directPost
  | "direct_post.jwt" => directPostJwt
  | "fragment" => fragment
  | "fragment.jwt" => fragmentJwt
  | "dc_api" => dcApi
  | "dc_api.jwt" => dcApiJwt
  | s => unsupported s

def toString : ResponseMode → String
  | directPost => "direct_post"
  | directPostJwt => "direct_post.jwt"
  | fragment => "fragment"
  | fragmentJwt => "fragment.jwt"
  | dcApi => "dc_api"
  | dcApiJwt => "dc_api.jwt"
  | unsupported name => name

instance : ToString ResponseMode := ⟨toString⟩
instance : TypedParameter ResponseMode := .via "response_mode" ofString toString

/-- The mode of an answer through the browser. -/
def isDcApi (m : ResponseMode) : Bool := m = dcApi || m = dcApiJwt

end ResponseMode

inductive ResponseType
  | vpToken | vpTokenIdToken
  | unsupported (name : String)
  deriving DecidableEq

namespace ResponseType

def ofString (s : String) : ResponseType :=
  match s with
  | "vp_token" => vpToken
  | "vp_token id_token" => vpTokenIdToken
  | s => unsupported s

def toString : ResponseType → String
  | vpToken => "vp_token"
  | vpTokenIdToken => "vp_token id_token"
  | unsupported name => name

instance : Deserialize ResponseType := ⟨fun x => do return ofString (← fromTree x)⟩
instance : Serialize ResponseType := ⟨fun t => toTree t.toString⟩
instance : TypedParameter ResponseType := .via "response_type" ofString toString

end ResponseType

inductive IdTokenType
  | subjectSigned
  | unsupported (name : String)
  deriving DecidableEq

namespace IdTokenType

def ofString (s : String) : IdTokenType :=
  match s with
  | "subject_signed_id_token" => subjectSigned
  | s => unsupported s

def toString : IdTokenType → String
  | subjectSigned => "subject_signed_id_token"
  | unsupported name => name

instance : TypedParameter IdTokenType := .via "id_token_type" ofString toString

end IdTokenType

inductive HttpMethodForAuth
  | get | post
  deriving DecidableEq

instance : Deserialize HttpMethodForAuth := ⟨unitVariant [("get", .get), ("post", .post)]⟩
instance : Serialize HttpMethodForAuth := ⟨fun
  | .get => .string "get"
  | .post => .string "post"⟩
instance : LawfulSerde HttpMethodForAuth := ⟨fun m => by cases m <;> rfl⟩

inductive HashAlgorithm
  | sha256 | sha384 | sha512
  deriving DecidableEq

namespace HashAlgorithm

def toString : HashAlgorithm → String
  | sha256 => "sha-256"
  | sha384 => "sha-384"
  | sha512 => "sha-512"

def tryFrom (value : String) : Except Anyhow HashAlgorithm :=
  match value with
  | "sha-256" => return sha256
  | "sha-384" => return sha384
  | "sha-512" => return sha512
  | _ => throw (.msg "Unsupported hash algorithm")

@[simp] theorem tryFrom_toString (a : HashAlgorithm) : tryFrom a.toString = .ok a := by
  cases a <;> rfl

theorem tryFrom_eq_ok_iff {s : String} {a : HashAlgorithm} :
    tryFrom s = .ok a ↔ s = a.toString := by
  refine ⟨fun h => ?_, fun h => h ▸ tryFrom_toString a⟩
  unfold tryFrom at h
  split at h <;> simp only [Except.pure_eq_ok_iff, Except.throw_ne_ok] at h <;> subst h <;> rfl

instance : Deserialize HashAlgorithm := ⟨fun x => do (tryFrom (← fromTree x)).toOption⟩
instance : Serialize HashAlgorithm := ⟨fun a => toTree a.toString⟩
instance : LawfulSerde HashAlgorithm :=
  ⟨fun a => by
    change (tryFrom a.toString).toOption = some a
    rw [tryFrom_toString]
    rfl⟩

end HashAlgorithm

/-! ## URLs -/

section
variable [UrlCrate]

structure RedirectUri where
  url : Url
  deriving DecidableEq

instance : TypedParameter RedirectUri := .via "redirect_uri" RedirectUri.mk RedirectUri.url

structure ResponseUri where
  url : Url
  deriving DecidableEq

instance : TypedParameter ResponseUri := .via "response_uri" ResponseUri.mk ResponseUri.url

structure PresentationDefinitionUri where
  url : Url
  deriving DecidableEq

instance : TypedParameter PresentationDefinitionUri :=
  .via "presentation_definition_uri" PresentationDefinitionUri.mk PresentationDefinitionUri.url

structure ExpectedOrigins where
  origins : NonEmptyVec Origin

namespace ExpectedOrigins

def parseOrigin (s : String) : Except Anyhow Origin :=
  match UrlCrate.parse s with
  | some url => return UrlCrate.origin url
  | none => throw (.library "url")

instance : TypedParameter ExpectedOrigins where
  key := "expected_origins"
  tryFrom x := do
    let urls : NonEmptyVec String ← fromValue x
    return ⟨← urls.mapM parseOrigin⟩
  intoJson o := .array (o.origins.toList.map fun u => .string (UrlCrate.unicodeSerialization u))

end ExpectedOrigins
end

/-! ## Structured parameters -/

structure TransactionData where
  items : List String
  deriving DecidableEq

instance : TypedParameter TransactionData :=
  .via "transaction_data" TransactionData.mk TransactionData.items

inductive VerifierInfoData
  | string (s : String)
  | object (o : JsonMap)
  deriving DecidableEq

instance : Deserialize VerifierInfoData := ⟨fun x =>
  (fromTree x).map VerifierInfoData.string <|> (fromTree x).map VerifierInfoData.object⟩
instance : Serialize VerifierInfoData := ⟨fun
  | .string s => toTree s
  | .object o => toTree o⟩

structure VerifierInfoEntry where
  format : String
  data : VerifierInfoData
  credentialIds : Option (NonEmptyVec String)
  deriving DecidableEq

instance : Deserialize VerifierInfoEntry := ⟨fun x => do
  let f ← structFields ["format", "data", "credential_ids"] x
  return {
    format := ← (f "format").required
    data := ← (f "data").required
    credentialIds := ← (f "credential_ids").optionalOrNone }⟩

instance : Serialize VerifierInfoEntry := ⟨fun e => .object <|
  member "format" e.format ++ member "data" e.data ++
  optionalMember "credential_ids" e.credentialIds⟩

structure VerifierInfo where
  entries : NonEmptyVec VerifierInfoEntry
  deriving DecidableEq

instance : TypedParameter VerifierInfo :=
  .via "verifier_info" VerifierInfo.mk VerifierInfo.entries

section
variable [SerdeJson]

structure ClientMetadata where
  object : UntypedObject
  deriving DecidableEq

instance : TypedParameter ClientMetadata where
  key := "client_metadata"
  tryFrom x := (fromStringOrValue x).map ClientMetadata.mk
  intoJson m := toTree m.object

/-- The metadata of the verifier in a request, none if the request has no such member. -/
def ClientMetadata.resolve (request : UntypedObject) : Except Anyhow ClientMetadata :=
  match request.get ClientMetadata with
  | some metadata => metadata
  | none => return ⟨.empty⟩

end
end OpenID4VP
