import OpenID4VP.Core.AuthorizationRequest.Parameters

/-! # Metadata of wallets and verifiers -/

namespace OpenID4VP

/-! ## Parameters -/

structure SubjectSyntaxTypesSupported where
  values : List String
  deriving DecidableEq

namespace SubjectSyntaxTypesSupported

def default : SubjectSyntaxTypesSupported :=
  ⟨["urn:ietf:params:oauth:jwk-thumbprint", "did:key"]⟩

instance : TypedParameter SubjectSyntaxTypesSupported :=
  .via "subject_syntax_types_supported" mk values

end SubjectSyntaxTypesSupported

structure VpFormatsSupported where
  formats : ClaimFormatMap

namespace VpFormatsSupported

instance : TypedParameter VpFormatsSupported := .via "vp_formats_supported" mk formats

/-- The format is listed, with a payload that has something in common with this one. -/
def containsClaimFormatWithPayload (v : VpFormatsSupported) (designation : ClaimFormatDesignation)
    (payload : ClaimFormatPayload) : Bool :=
  match v.formats.get? designation with
  | some p => p.contains payload
  | none => false

/-- The payload of the format names the security method: an algorithm or a type of proof. -/
def supportsSecurityMethod (v : VpFormatsSupported) (format : ClaimFormatDesignation)
    (securityMethod : String) : Bool :=
  match v.formats.get? format with
  | some (.alg algValues) | some (.algValuesSupported algValues) =>
    algValues.contains securityMethod
  | some (.proofType proofTypes) => proofTypes.contains securityMethod
  | _ => false

end VpFormatsSupported

structure AuthorizationEndpoint [UrlCrate] where
  url : Url

instance [UrlCrate] : TypedParameter AuthorizationEndpoint :=
  .via "authorization_endpoint" AuthorizationEndpoint.mk AuthorizationEndpoint.url

structure ResponseTypesSupported where
  values : List ResponseType
  deriving DecidableEq

instance : TypedParameter ResponseTypesSupported :=
  .via "response_types_supported" ResponseTypesSupported.mk ResponseTypesSupported.values

structure ClientIdPrefixesSupported where
  values : List ClientIdPrefix
  deriving DecidableEq

namespace ClientIdPrefixesSupported

def default : ClientIdPrefixesSupported := ⟨[.preRegistered]⟩

instance : TypedParameter ClientIdPrefixesSupported where
  key := "client_id_prefixes_supported"
  tryFrom
    | .array xs => do return ⟨← xs.mapM ClientIdPrefix.tryFromJson⟩
    | _ => throw (.msg "expected JSON array")
  intoJson v := .array (v.values.map ClientIdPrefix.intoJson)

end ClientIdPrefixesSupported

structure RequestObjectSigningAlgValuesSupported where
  values : List String
  deriving DecidableEq

namespace RequestObjectSigningAlgValuesSupported

def default : RequestObjectSigningAlgValuesSupported := ⟨["ES256"]⟩

instance : TypedParameter RequestObjectSigningAlgValuesSupported :=
  .via "request_object_signing_alg_values_supported" mk values

end RequestObjectSigningAlgValuesSupported

structure ScopesSupported where
  values : List String
  deriving DecidableEq

namespace ScopesSupported

def default : ScopesSupported := ⟨["openid"]⟩

instance : TypedParameter ScopesSupported := .via "scopes_supported" mk values

end ScopesSupported

structure IdTokenTypesSupported where
  values : List String
  deriving DecidableEq

namespace IdTokenTypesSupported

def default : IdTokenTypesSupported := ⟨["subject_signed_id_token"]⟩

instance : TypedParameter IdTokenTypesSupported := .via "id_token_types_supported" mk values

end IdTokenTypesSupported

structure IdTokenSigningAlgValuesSupported where
  values : List String
  deriving DecidableEq

namespace IdTokenSigningAlgValuesSupported

def default : IdTokenSigningAlgValuesSupported := ⟨["ES256"]⟩

instance : TypedParameter IdTokenSigningAlgValuesSupported :=
  .via "id_token_signing_alg_values_supported" mk values

end IdTokenSigningAlgValuesSupported

/-! ## Wallet metadata -/

structure WalletMetadata [UrlCrate] where
  object : UntypedObject
  authorizationEndpoint : AuthorizationEndpoint
  vpFormatsSupported : VpFormatsSupported
  responseTypesSupported : ResponseTypesSupported
  clientIdPrefixesSupported : ClientIdPrefixesSupported
  requestObjectSigningAlgValuesSupported : RequestObjectSigningAlgValuesSupported
  scopesSupported : ScopesSupported
  subjectSyntaxTypesSupported : SubjectSyntaxTypesSupported
  idTokenTypesSupported : IdTokenTypesSupported
  idTokenSigningAlgValuesSupported : IdTokenSigningAlgValuesSupported

namespace WalletMetadata
variable [UrlCrate]

def new (authorizationEndpoint : AuthorizationEndpoint) (vpFormatsSupported : VpFormatsSupported)
    (responseTypesSupported : ResponseTypesSupported) (other : Option UntypedObject) :
    WalletMetadata where
  object := other.getD .empty
  authorizationEndpoint := authorizationEndpoint
  vpFormatsSupported := vpFormatsSupported
  responseTypesSupported := responseTypesSupported
  clientIdPrefixesSupported := .default
  requestObjectSigningAlgValuesSupported := .default
  scopesSupported := .default
  subjectSyntaxTypesSupported := .default
  idTokenTypesSupported := .default
  idTokenSigningAlgValuesSupported := .default

/-- The optional parameters that cannot be read have their default. -/
def tryFrom (value : UntypedObject) : Except Anyhow WalletMetadata := do
  return {
    object := value
    authorizationEndpoint := ← parsingError (value.get AuthorizationEndpoint)
    vpFormatsSupported := ← parsingError (value.get VpFormatsSupported)
    responseTypesSupported := ← parsingError (value.get ResponseTypesSupported)
    clientIdPrefixesSupported :=
      (parsingError (value.get ClientIdPrefixesSupported)).toOption.getD .default
    requestObjectSigningAlgValuesSupported :=
      (parsingError (value.get RequestObjectSigningAlgValuesSupported)).toOption.getD .default
    scopesSupported := (parsingError (value.get ScopesSupported)).toOption.getD .default
    subjectSyntaxTypesSupported :=
      (parsingError (value.get SubjectSyntaxTypesSupported)).toOption.getD .default
    idTokenTypesSupported :=
      (parsingError (value.get IdTokenTypesSupported)).toOption.getD .default
    idTokenSigningAlgValuesSupported :=
      (parsingError (value.get IdTokenSigningAlgValuesSupported)).toOption.getD .default }

/-- An optional parameter: a reading that fails counts as absent. -/
def readOrDefault [TypedParameter α] (value : UntypedObject) (default : α) : α :=
  (parsingError (value.get α)).toOption.getD default

omit [UrlCrate] in
theorem readOrDefault_eq_default_iff [TypedParameter α] {value : UntypedObject} {default : α} :
    readOrDefault value default = default ↔
      ∀ given, value.get α = some (.ok given) → given = default := by
  rw [readOrDefault]
  constructor
  · intro h given hg
    rw [hg] at h
    exact h
  · intro h
    cases hx : parsingError (value.get α) with
    | ok given => exact h given (parsingError_eq_ok_iff.mp hx)
    | error e => rfl

/-- The metadata is read from this value. -/
structure ReadFrom (value : UntypedObject) (m : WalletMetadata) : Prop where
  object : m.object = value
  authorizationEndpoint : value.get AuthorizationEndpoint = some (.ok m.authorizationEndpoint)
  vpFormatsSupported : value.get VpFormatsSupported = some (.ok m.vpFormatsSupported)
  responseTypesSupported : value.get ResponseTypesSupported = some (.ok m.responseTypesSupported)
  clientIdPrefixesSupported : m.clientIdPrefixesSupported = readOrDefault value .default
  requestObjectSigningAlgValuesSupported :
    m.requestObjectSigningAlgValuesSupported = readOrDefault value .default
  scopesSupported : m.scopesSupported = readOrDefault value .default
  subjectSyntaxTypesSupported : m.subjectSyntaxTypesSupported = readOrDefault value .default
  idTokenTypesSupported : m.idTokenTypesSupported = readOrDefault value .default
  idTokenSigningAlgValuesSupported :
    m.idTokenSigningAlgValuesSupported = readOrDefault value .default

theorem tryFrom_eq_ok_iff {value : UntypedObject} {m : WalletMetadata} :
    tryFrom value = .ok m ↔ ReadFrom value m := by
  simp only [tryFrom, Except.bind_eq_ok_iff, Except.pure_eq_ok_iff, parsingError_eq_ok_iff]
  constructor
  · rintro ⟨_, he, _, hf, _, ht, rfl⟩
    exact ⟨rfl, he, hf, ht, rfl, rfl, rfl, rfl, rfl, rfl⟩
  · rintro ⟨rfl, he, hf, ht, h1, h2, h3, h4, h5, h6⟩
    refine ⟨_, he, _, hf, _, ht, ?_⟩
    obtain ⟨object, _, _, _, _, _, _, _, _, _⟩ := m
    simp only at h1 h2 h3 h4 h5 h6
    subst h1 h2 h3 h4 h5 h6
    rfl

/-! ## Accessors and mutators -/

def isClientIdPrefixSupported (m : WalletMetadata) (p : ClientIdPrefix) : Bool :=
  m.clientIdPrefixesSupported.values.contains p

def addRequestObjectSigningAlgValuesSupported (alg : String) : Prog WalletMetadata Anyhow Unit :=
  fun m =>
    match m.object.getOrDefault RequestObjectSigningAlgValuesSupported.default with
    | .ok supported =>
      let supported : RequestObjectSigningAlgValuesSupported := ⟨supported.values ++ [alg]⟩
      (.ok (), { m with object := (m.object.insertParam supported).1 })
    | .error e => (.error e, m)

-- only the object is changed, not the prefixes that were read from it
def addClientIdPrefixesSupported (clientIdPrefixes : List ClientIdPrefix) :
    Prog WalletMetadata Anyhow Unit := fun m =>
  match m.object.getOrDefault ClientIdPrefixesSupported.default with
  | .ok supported =>
    let supported : ClientIdPrefixesSupported := ⟨supported.values ++ clientIdPrefixes⟩
    (.ok (), { m with object := (m.object.insertParam supported).1 })
  | .error e => (.error e, m)

/-- The object that is published: the endpoint and the formats as they are now. -/
def intoUntyped (m : WalletMetadata) : UntypedObject :=
  ((m.object.insertParam m.authorizationEndpoint).1.insertParam m.vpFormatsSupported).1

instance : Serialize WalletMetadata := ⟨fun m => m.intoUntyped.toJson⟩

end WalletMetadata
end OpenID4VP
