import Mathlib.Data.List.Dedup
import OpenID4VP.Core.AuthorizationRequest.Request
import OpenID4VP.Core.Metadata

/-! # Verifiers

A verifier makes requests with a client, which gives them a client id and may sign them. A request
is built from parameters, those of the verifier by default, and from one query. -/

namespace OpenID4VP

section
variable [SerdeJson] [SerdeJsonPath] [JsonSchema] [UrlCrate] [Base64Url]

structure Client (σ : Type) where
  id : ClientId
  idPrefix : ClientIdPrefix
  generateRequestObjectJwt : AuthorizationRequestObject → Prog σ Anyhow String

structure Verifier (σ : Type) where
  client : Client σ
  defaultRequestParams : UntypedObject
  submissionEndpoint : Option Url

structure VerifierBuilder (σ : Type) where
  client : Option (Client σ)
  defaultRequestParams : UntypedObject
  submissionEndpoint : Option Url

namespace VerifierBuilder

def new : VerifierBuilder σ := ⟨none, .empty, none⟩

def build (b : VerifierBuilder σ) : Except Anyhow (Verifier σ) :=
  match b.client with
  | some client => return ⟨client, b.defaultRequestParams, b.submissionEndpoint⟩
  | none => throw (.msg "client is required, see `with_client`")

def withDefaultRequestParameter [TypedParameter α] (b : VerifierBuilder σ) (a : α) :
    VerifierBuilder σ :=
  { b with defaultRequestParams := (b.defaultRequestParams.insertParam a).1 }

def withClient (b : VerifierBuilder σ) (client : Client σ) : VerifierBuilder σ :=
  { b with client := some client }

def withSubmissionEndpoint (b : VerifierBuilder σ) (endpoint : Url) : VerifierBuilder σ :=
  { b with submissionEndpoint := some endpoint }

end VerifierBuilder

/-! ## Building requests -/

inductive ByReference
  | false
  | true (reference : RequestReference)

/-- How a token is passed on. -/
def ByReference.indirection (jwt : String) : ByReference → RequestIndirection
  | false => .byValue jwt
  | true reference => .byReference reference

inductive RequestType
  | plain
  | signedJwt (passByReference : ByReference)

structure RequestBuilder (σ : Type) where
  presentationDefinition : Option PresentationDefinition
  dcql : Option DCQL
  requestParameters : UntypedObject
  verifier : Verifier σ

namespace RequestBuilder

def new (verifier : Verifier σ) : RequestBuilder σ :=
  ⟨none, none, verifier.defaultRequestParams, verifier⟩

def withPresentationDefinition (b : RequestBuilder σ) (definition : PresentationDefinition) :
    RequestBuilder σ :=
  { b with presentationDefinition := some definition }

def withDcql (b : RequestBuilder σ) (dcql : DCQL) : RequestBuilder σ :=
  { b with dcql := some dcql }

def withRequestParameter [TypedParameter α] (b : RequestBuilder σ) (a : α) : RequestBuilder σ :=
  { b with requestParameters := (b.requestParameters.insertParam a).1 }

/-! ### Checks -/

def internal (message : String) : Error := .internal (.msg message)

/-- The claims of a credential that has claim sets all have ids, which are distinct. -/
def validateClaims (claims : List DcqlClaim) : Except Error Unit := do
  let claimIds ← claims.mapM fun claim =>
    match claim.id with
    | some id => return id
    | none => throw (internal "Claim id cannot be empty if Claim set is given")
  ensure (claimIds.dedup.length = claims.length)
    (internal "Claim IDs must be unique in the Credential query")

def validateCredential (cred : DcqlCredential) : Except Error Unit :=
  match cred.claims, cred.claimSets with
  | some claims, some _ => validateClaims claims.toList
  | none, some _ => throw (internal "Claim set cannot be given if Claims is empty")
  | _, none => return ()

def validateDcql (dcql : DCQL) : Except Error Unit := do
  let credentials := dcql.credentials.toList
  ensure ((credentials.map DcqlCredential.id).dedup.length = credentials.length)
    (internal "Credential IDs must be unique in the dcql query")
  credentials.forM validateCredential

def validatePresentationDefinition (definition : PresentationDefinition) :
    Except Error Unit := do
  ensure (definition.id ≠ "") (internal "presentation definition 'id' cannot be empty")
  ensure (!definition.inputDescriptors.isEmpty)
    (internal "'input_descriptors' of presentation definition cannot be empty")

/-- A parameter that the builder needs, with the context of its reading. -/
def needParameter (missing : String) (context : String) :
    Option (Except Anyhow α) → Except Error α
  | none => throw (internal missing)
  | some x => orInternal (withContext context x)

def validateSubjectSyntaxTypes (params : UntypedObject) (walletMetadata : WalletMetadata) :
    Except Error Unit := do
  let clientMetadata ← needParameter ("'client_metadata' is required while building " ++
    "an authorization request with 'vp_token id_token' response type")
    "error occurred when retrieving 'client_metadata'" (params.get ClientMetadata)
  let offered ← needParameter ("'subject_syntax_types_supported' is required while building " ++
    "an authorization request with 'vp_token id_token' response type")
    "error occurred when retrieving 'subject_syntax_types_supported'"
    (clientMetadata.object.get SubjectSyntaxTypesSupported)
  match offered.values.find? fun s =>
    !walletMetadata.subjectSyntaxTypesSupported.values.contains s with
  | some unsupported =>
    throw (internal s!"subject syntax type = '{unsupported}' is not supported by the wallet")
  | none => return ()

def validateResponseType (params : UntypedObject) (walletMetadata : WalletMetadata) :
    Except Error Unit := do
  let responseType ← needParameter "response type is required, see `with_request_parameter`"
    "error occurred when retrieving response type" (params.get ResponseType)
  ensure (walletMetadata.responseTypesSupported.values.contains responseType)
    (internal s!"response type = '{responseType.toString}' is not supported by the wallet")
  if responseType = .vpTokenIdToken then validateSubjectSyntaxTypes params walletMetadata
  else return ()

/-! ### The request object -/

/-- The parameters with the query, of which one of the two kinds has to be given. -/
def insertQuery (params : UntypedObject) (dcql : Option DCQL)
    (definition : Option PresentationDefinition) : Except Error UntypedObject :=
  match dcql, definition with
  | some dcql, none => do
    validateDcql dcql
    return (params.insertParam dcql).1
  | none, some definition => do
    validatePresentationDefinition definition
    return (params.insertParam definition).1
  | _, _ => throw (internal "either presentation definition or dcql query must be present")

def requireEndpoint (submissionEndpoint : Option Url) (mode : ResponseMode) : Except Error Url :=
  match submissionEndpoint with
  | some uri => return uri
  | none => throw (internal s!"submission endpoint is required for '{mode}' response mode")

/-- The parameters without those that contradict an answer through the browser. -/
def forBrowser (params : UntypedObject) : RequestType → Except Error UntypedObject
  | .plain =>
    return ((params.removeParam ClientId).removeParam ResponseUri).removeParam RedirectUri
  | .signedJwt _ => do
    let _ ← needParameter "'expected_origins' parameter is missed"
      "error occurred when retrieving expected origins" (params.get ExpectedOrigins)
    return (params.removeParam ResponseUri).removeParam RedirectUri

/-- The parameters with the URI that the response mode needs. -/
def buildHelper (params : UntypedObject) (submissionEndpoint : Option Url)
    (requestType : RequestType) : Except Error UntypedObject := do
  let mode ← needParameter "'response_mode' parameter is missed"
    "error occurred when retrieving response mode" (params.get ResponseMode)
  match mode with
  | .unsupported r => throw (internal s!"unsupported response_mode: {r}")
  | .directPost | .directPostJwt => do
    let uri ← requireEndpoint submissionEndpoint mode
    return (params.insertParam (ResponseUri.mk uri)).1
  | .fragment | .fragmentJwt => do
    let uri ← requireEndpoint submissionEndpoint mode
    return (params.insertParam (RedirectUri.mk uri)).1
  | .dcApi | .dcApiJwt => forBrowser params requestType

/-- The request object that is encoded. -/
def requestObject (b : RequestBuilder σ) (walletMetadata : WalletMetadata)
    (requestType : RequestType) : Except Error AuthorizationRequestObject := do
  let client := b.verifier.client
  let params := (b.requestParameters.insertParam client.id).1
  let params ← insertQuery params b.dcql b.presentationDefinition
  validateResponseType params walletMetadata
  ensure (walletMetadata.isClientIdPrefixSupported client.idPrefix)
    (internal s!"the wallet does not support the client_id_prefix '{client.idPrefix.name}'")
  let params ← buildHelper params b.verifier.submissionEndpoint requestType
  (AuthorizationRequestObject.tryFrom params).mapError <| .context
    "unable to construct the Authorization Request from provided request parameters"

/-! ### What is encoded -/

omit [SerdeJson] [SerdeJsonPath] [JsonSchema] [UrlCrate] [Base64Url] in
@[simp] theorem needParameter_eq_ok_iff {missing context : String} {x : Option (Except Anyhow α)}
    {a : α} : needParameter missing context x = .ok a ↔ x = some (.ok a) := by
  cases x <;> simp [needParameter]

/-- The parameters with the one query that is given. -/
inductive InsertsQuery (params : UntypedObject) :
    Option DCQL → Option PresentationDefinition → UntypedObject → Prop
  | dcql (h : validateDcql query = .ok ()) :
    InsertsQuery params (some query) none (params.insertParam query).1
  | definition (h : validatePresentationDefinition definition = .ok ()) :
    InsertsQuery params none (some definition) (params.insertParam definition).1

omit [UrlCrate] in
theorem insertQuery_eq_ok_iff {params params' : UntypedObject} {dcql : Option DCQL}
    {definition : Option PresentationDefinition} :
    insertQuery params dcql definition = .ok params' ↔
      InsertsQuery params dcql definition params' := by
  constructor
  · intro h
    rw [insertQuery.eq_def] at h
    split at h
    · obtain ⟨_, hv, h⟩ := Except.bind_eq_ok_iff.mp h
      exact Except.pure_eq_ok_iff.mp h ▸ .dcql hv
    · obtain ⟨_, hv, h⟩ := Except.bind_eq_ok_iff.mp h
      exact Except.pure_eq_ok_iff.mp h ▸ .definition hv
    · exact absurd h Except.throw_ne_ok
  · intro h
    cases h with
    | dcql h => rw [insertQuery, h]; rfl
    | definition h => rw [insertQuery, h]; rfl

/-- The parameters with the URI that a response mode needs, or without any. -/
inductive Prepares (params : UntypedObject) (endpoint : Option Url) :
    RequestType → ResponseMode → UntypedObject → Prop
  | response (hm : mode = .directPost ∨ mode = .directPostJwt) (he : endpoint = some uri) :
    Prepares params endpoint type mode (params.insertParam (ResponseUri.mk uri)).1
  | redirect (hm : mode = .fragment ∨ mode = .fragmentJwt) (he : endpoint = some uri) :
    Prepares params endpoint type mode (params.insertParam (RedirectUri.mk uri)).1
  | plain (hm : mode.isDcApi = true) : Prepares params endpoint .plain mode
    (((params.removeParam ClientId).removeParam ResponseUri).removeParam RedirectUri)
  | signed (hm : mode.isDcApi = true) (ho : params.get ExpectedOrigins = some (.ok origins)) :
    Prepares params endpoint (.signedJwt r) mode
      ((params.removeParam ResponseUri).removeParam RedirectUri)

omit [SerdeJson] [SerdeJsonPath] [JsonSchema] [Base64Url] in
theorem requireEndpoint_eq_ok_iff {endpoint : Option Url} {mode : ResponseMode} {uri : Url} :
    requireEndpoint endpoint mode = .ok uri ↔ endpoint = some uri := by
  cases endpoint <;> simp [requireEndpoint]

omit [SerdeJson] [SerdeJsonPath] [JsonSchema] [Base64Url] in
theorem forBrowser_eq_ok_iff {params params' : UntypedObject} {endpoint : Option Url}
    {type : RequestType} {mode : ResponseMode} (hm : mode.isDcApi = true) :
    forBrowser params type = .ok params' ↔ Prepares params endpoint type mode params' := by
  constructor
  · intro h
    cases type with
    | plain => exact Except.pure_eq_ok_iff.mp h ▸ .plain hm
    | signedJwt r =>
      rw [forBrowser, Except.bind_eq_ok_iff] at h
      obtain ⟨origins, ho, h⟩ := h
      rw [needParameter_eq_ok_iff] at ho
      exact Except.pure_eq_ok_iff.mp h ▸ .signed hm ho
  · intro h
    cases h with
    | response hp | redirect hp => rcases hp with rfl | rfl <;> exact absurd hm Bool.false_ne_true
    | plain => rfl
    | signed _ ho => rw [forBrowser, ho]; rfl

omit [SerdeJson] [SerdeJsonPath] [JsonSchema] [Base64Url] in
theorem buildHelper_eq_ok_iff {params params' : UntypedObject} {endpoint : Option Url}
    {type : RequestType} :
    buildHelper params endpoint type = .ok params' ↔
      ∃ mode, params.get ResponseMode = some (.ok mode) ∧
        Prepares params endpoint type mode params' := by
  rw [buildHelper, Except.bind_eq_ok_iff]
  refine exists_congr fun mode => ?_
  rw [needParameter_eq_ok_iff]
  refine and_congr_right fun _ => ?_
  cases mode with
  | unsupported r =>
    refine iff_of_false Except.throw_ne_ok fun h => ?_
    cases h with
    | response hm | redirect hm => rcases hm with hm | hm <;> cases hm
    | plain hm | signed hm => exact absurd hm Bool.false_ne_true
  | dcApi | dcApiJwt => exact forBrowser_eq_ok_iff rfl
  | directPost | directPostJwt =>
    rw [Except.bind_eq_ok_iff]
    constructor
    · rintro ⟨uri, hu, h⟩
      rw [requireEndpoint_eq_ok_iff] at hu
      exact Except.pure_eq_ok_iff.mp h ▸ .response (by simp) hu
    · intro h
      cases h with
      | response _ he => exact ⟨_, requireEndpoint_eq_ok_iff.mpr he, rfl⟩
      | redirect hm => rcases hm with hm | hm <;> cases hm
      | plain hm | signed hm => exact absurd hm Bool.false_ne_true
  | fragment | fragmentJwt =>
    rw [Except.bind_eq_ok_iff]
    constructor
    · rintro ⟨uri, hu, h⟩
      rw [requireEndpoint_eq_ok_iff] at hu
      exact Except.pure_eq_ok_iff.mp h ▸ .redirect (by simp) hu
    · intro h
      cases h with
      | redirect _ he => exact ⟨_, requireEndpoint_eq_ok_iff.mpr he, rfl⟩
      | response hm => rcases hm with hm | hm <;> cases hm
      | plain hm | signed hm => exact absurd hm Bool.false_ne_true

/-- The request object that a builder encodes: the object of the parameters with the client id,
the query and the URI of the response mode. -/
structure Encoded (b : RequestBuilder σ) (walletMetadata : WalletMetadata) (type : RequestType)
    (params params' : UntypedObject) (mode : ResponseMode) (o : AuthorizationRequestObject) :
    Prop where
  query : InsertsQuery (b.requestParameters.insertParam b.verifier.client.id).1 b.dcql
    b.presentationDefinition params
  responseType : validateResponseType params walletMetadata = .ok ()
  supported : walletMetadata.isClientIdPrefixSupported b.verifier.client.idPrefix = true
  responseMode : params.get ResponseMode = some (.ok mode)
  prepares : Prepares params b.verifier.submissionEndpoint type mode params'
  readFrom : o.ReadFrom params'

theorem requestObject_eq_ok_iff {b : RequestBuilder σ} {m : WalletMetadata} {type : RequestType}
    {o : AuthorizationRequestObject} :
    b.requestObject m type = .ok o ↔
      ∃ params params' mode, Encoded b m type params params' mode o := by
  simp only [requestObject, Except.bind_eq_ok_iff, insertQuery_eq_ok_iff, ensure_eq_ok_iff,
    buildHelper_eq_ok_iff, Except.mapError_eq_ok_iff,
    AuthorizationRequestObject.tryFrom_eq_ok_iff]
  constructor
  · rintro ⟨params, hq, _, ht, _, hp, params', ⟨mode, hm, hu⟩, hr⟩
    exact ⟨params, params', mode, hq, ht, hp, hm, hu, hr⟩
  · rintro ⟨params, params', mode, hq, ht, hp, hm, hu, hr⟩
    exact ⟨params, hq, (), ht, (), hp, params', ⟨mode, hm, hu⟩, hr⟩

theorem Encoded.requestObject_eq {b : RequestBuilder σ} {m : WalletMetadata} {type : RequestType}
    {params params' : UntypedObject} {mode : ResponseMode} {o : AuthorizationRequestObject}
    (h : Encoded b m type params params' mode o) : b.requestObject m type = .ok o :=
  requestObject_eq_ok_iff.mpr ⟨params, params', mode, h⟩

variable [FormUrlencoded]

/-- The URL for the wallet, and the token of a signed request. -/
def build (b : RequestBuilder σ) (walletMetadata : WalletMetadata) (requestType : RequestType) :
    Prog σ Error (Url × Option String) := do
  let o ← .ofExcept (b.requestObject walletMetadata requestType)
  let endpoint ← .ofExcept <| orInternal <|
    parsingError (walletMetadata.object.get AuthorizationEndpoint)
  match requestType with
  | .plain => return (o.intoUrl endpoint.url, none)
  | .signedJwt passByReference => do
    let jwt ← .mapError .internal (b.verifier.client.generateRequestObjectJwt o)
    let signed : SignedAuthorizationRequest :=
      ⟨b.verifier.client.id.getFullId, passByReference.indirection jwt⟩
    return (signed.intoUrl endpoint.url, some jwt)

end RequestBuilder
end
end OpenID4VP
