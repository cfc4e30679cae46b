import OpenID4VP.Core.AuthorizationRequest.Soundness
import OpenID4VP.Verifier

/-! # What built requests say

Defaults, overrides and the members that the builder forces are written to one object, and stale
members of earlier calls are left to the reader of the request object. Whatever was called, a
request that is built has the id of the client, the query that was given last, and the return URI
of its response mode. -/

namespace OpenID4VP

section
variable [SerdeJson] [SerdeJsonPath] [JsonSchema] [UrlCrate] [Base64Url]

namespace RequestBuilder

/-! ## Histories of calls -/

/-- A call of a method that sets up the builder. -/
inductive Call : Type 1
  | withPresentationDefinition (definition : PresentationDefinition)
  | withDcql (dcql : DCQL)
  | withRequestParameter {α : Type} [TypedParameter α] (a : α)

namespace Call

def apply (b : RequestBuilder σ) : Call → RequestBuilder σ
  | withPresentationDefinition definition => b.withPresentationDefinition definition
  | withDcql dcql => b.withDcql dcql
  | withRequestParameter a => b.withRequestParameter a

def dcql? : Call → Option DCQL
  | withDcql dcql => some dcql
  | _ => none

def definition? : Call → Option PresentationDefinition
  | withPresentationDefinition definition => some definition
  | _ => none

end Call

/-- The builder after some calls. -/
def after (verifier : Verifier σ) (calls : List Call) : RequestBuilder σ :=
  calls.foldl Call.apply (new verifier)

def lastDcql (calls : List Call) : Option DCQL := calls.reverse.findSome? Call.dcql?

def lastDefinition (calls : List Call) : Option PresentationDefinition :=
  calls.reverse.findSome? Call.definition?

omit [SerdeJson] [Base64Url] in
theorem after_concat (verifier : Verifier σ) (calls : List Call) (call : Call) :
    after verifier (calls ++ [call]) = call.apply (after verifier calls) := by
  rw [after, List.foldl_append]
  rfl

omit [SerdeJson] [Base64Url] in
/-- No call changes the verifier, and of the queries of one kind the last one stays. -/
theorem after_fields (verifier : Verifier σ) (calls : List Call) :
    (after verifier calls).verifier = verifier ∧
      (after verifier calls).dcql = lastDcql calls ∧
      (after verifier calls).presentationDefinition = lastDefinition calls := by
  induction calls using List.reverseRecOn with
  | nil => exact ⟨rfl, rfl, rfl⟩
  | append_singleton calls call ih =>
    obtain ⟨hv, hq, hd⟩ := ih
    rw [after_concat, lastDcql, lastDefinition, List.reverse_concat, List.findSome?_cons,
      List.findSome?_cons]
    cases call with
    | withPresentationDefinition definition => exact ⟨hv, hq, rfl⟩
    | withDcql dcql => exact ⟨hv, rfl, hd⟩
    | withRequestParameter a => exact ⟨hv, hq, hd⟩

/-! ## The postcondition -/

/-- The JSON value of a parameter. -/
def jsonOf [TypedParameter α] (a : α) : Json := (TypedParameter.intoJson a).toValue

/-- The query of the request is the reading of the JSON of the one that was given last. Only one
kind was given, and the request has no other query. -/
inductive AsksForLast (calls : List Call) (o : AuthorizationRequestObject) : Prop
  | dcql (hc : lastDcql calls = some given) (hd : lastDefinition calls = none)
    (hq : TypedParameter.tryFrom (jsonOf given) = .ok query)
    (ho : o.presentationQuery = .dcql query)
    (hk : o.inner.HasOnly AuthorizationRequestObject.queryKeys "dcql_query")
  | definition (hc : lastDcql calls = none) (hd : lastDefinition calls = some given)
    (hq : TypedParameter.tryFrom (jsonOf given) = .ok definition)
    (ho : o.presentationQuery = .presentationDefinition (.byValue definition))
    (hk : o.inner.HasOnly AuthorizationRequestObject.queryKeys "presentation_definition")

/-- Answers that are posted or redirected go to the submission endpoint of the verifier. -/
def ReturnsToEndpoint (endpoint : Option Url) (o : AuthorizationRequestObject) : Prop :=
  match o.responseMode with
  | .directPost | .directPostJwt | .fragment | .fragmentJwt =>
    ∃ uri, endpoint = some uri ∧ o.returnUri = some uri
  | .dcApi | .dcApiJwt => o.returnUri = none
  | .unsupported _ => False

variable {params params' : UntypedObject} {o : AuthorizationRequestObject}

omit [SerdeJson] [SerdeJsonPath] [JsonSchema] [Base64Url] in
/-- Only the client id and the URIs are changed for a response mode. -/
theorem Prepares.get_eq [TypedParameter α] {endpoint : Option Url} {type : RequestType}
    {mode : ResponseMode} (h : Prepares params endpoint type mode params')
    (hk : TypedParameter.key α ∉ ["client_id", "response_uri", "redirect_uri"]) :
    params'.get α = params.get α := by
  simp only [List.mem_cons, List.not_mem_nil, or_false, not_or] at hk
  obtain ⟨hc, hp, hr⟩ := hk
  cases h with
  | response => exact UntypedObject.get_insertParam_of_ne hp _ _
  | redirect => exact UntypedObject.get_insertParam_of_ne hr _ _
  | plain =>
    rw [UntypedObject.get_removeParam_of_ne hr, UntypedObject.get_removeParam_of_ne hp,
      UntypedObject.get_removeParam_of_ne hc]
  | signed =>
    rw [UntypedObject.get_removeParam_of_ne hr, UntypedObject.get_removeParam_of_ne hp]

omit [SerdeJson] [SerdeJsonPath] [JsonSchema] [Base64Url] in
/-- The client id is kept or removed. -/
theorem Prepares.get_clientId {endpoint : Option Url} {type : RequestType}
    {mode : ResponseMode} (h : Prepares params endpoint type mode params') :
    params'.get ClientId = params.get ClientId ∨ params'.get ClientId = none := by
  have hp : TypedParameter.key ClientId ≠ TypedParameter.key ResponseUri := by
    simp [TypedParameter.key]
  have hr : TypedParameter.key ClientId ≠ TypedParameter.key RedirectUri := by
    simp [TypedParameter.key]
  cases h with
  | response => exact .inl (UntypedObject.get_insertParam_of_ne hp _ _)
  | redirect => exact .inl (UntypedObject.get_insertParam_of_ne hr _ _)
  | plain =>
    rw [UntypedObject.get_removeParam_of_ne hr, UntypedObject.get_removeParam_of_ne hp]
    exact .inr (UntypedObject.get_removeParam_self _ _)
  | signed =>
    rw [UntypedObject.get_removeParam_of_ne hr, UntypedObject.get_removeParam_of_ne hp]
    exact .inl rfl

omit [UrlCrate] in
theorem InsertsQuery.get_eq [TypedParameter α] {dcql : Option DCQL}
    {definition : Option PresentationDefinition}
    (h : InsertsQuery params dcql definition params')
    (hk : TypedParameter.key α ∉ ["dcql_query", "presentation_definition"]) :
    params'.get α = params.get α := by
  simp only [List.mem_cons, List.not_mem_nil, or_false, not_or] at hk
  cases h with
  | dcql => exact UntypedObject.get_insertParam_of_ne hk.1 _ _
  | definition => exact UntypedObject.get_insertParam_of_ne hk.2 _ _

variable {b : RequestBuilder σ} {m : WalletMetadata} {type : RequestType} {mode : ResponseMode}

/-- The client id is that of the client, whatever the parameters say. -/
theorem Encoded.clientId (h : Encoded b m type params params' mode o) :
    o.clientId = b.verifier.client.id := by
  have hc : params.get ClientId = some (.ok b.verifier.client.id) := by
    rw [h.query.get_eq (by simp [TypedParameter.key]), UntypedObject.get_insertParam_self,
      Option.some_inj]
    exact ClientId.new_getFullId _
  have ho := h.readFrom.clientId
  rcases h.prepares.get_clientId with he | he
  · rw [he, hc, Option.some_inj, Except.ok.injEq] at ho
    exact ho.symm
  · rw [he] at ho
    cases ho

theorem Encoded.responseMode_eq (h : Encoded b m type params params' mode o) :
    o.responseMode = mode := by
  have hm : params'.get ResponseMode = some (.ok mode) :=
    (h.prepares.get_eq (by simp [TypedParameter.key])).trans h.responseMode
  have ho := h.readFrom.responseMode
  rw [UntypedObject.getOrDefault_eq_get, hm, Option.getD_some, Except.ok.injEq] at ho
  exact ho.symm

theorem Encoded.returnsToEndpoint (h : Encoded b m type params params' mode o) :
    ReturnsToEndpoint b.verifier.submissionEndpoint o := by
  have hr := h.readFrom.returnUri
  rw [h.responseMode_eq] at hr
  rw [ReturnsToEndpoint, h.responseMode_eq]
  cases h.prepares with
  | @response _ uri _ hm he =>
    have hu : (params.insertParam (ResponseUri.mk uri)).1.get ResponseUri = some (.ok ⟨uri⟩) := by
      rw [UntypedObject.get_insertParam_self]
      exact congrArg some (TypedParameter.via_tryFrom_toTree uri)
    have ho : o.returnUri = some uri := hr.eq_of_response hm hu
    rcases hm with rfl | rfl <;> exact ⟨uri, he, ho⟩
  | @redirect _ uri _ hm he =>
    have hu : (params.insertParam (RedirectUri.mk uri)).1.get RedirectUri = some (.ok ⟨uri⟩) := by
      rw [UntypedObject.get_insertParam_self]
      exact congrArg some (TypedParameter.via_tryFrom_toTree uri)
    have ho : o.returnUri = some uri := hr.eq_of_redirect hm hu
    rcases hm with rfl | rfl <;> exact ⟨uri, he, ho⟩
  | plain hm | signed hm =>
    have ho : o.returnUri = none := hr.eq_of_browser hm
    cases mode with
    | dcApi | dcApiJwt => exact ho
    | _ => exact absurd hm Bool.false_ne_true

/-- The reader admits no other query, so that the member of the one that was inserted is the only
one. -/
theorem Encoded.asksForLast {verifier : Verifier σ} {calls : List Call}
    (h : Encoded (after verifier calls) m type params params' mode o) : AsksForLast calls o := by
  obtain ⟨-, hdcql, hdefinition⟩ := after_fields verifier calls
  have hk : AuthorizationRequestObject.QueryOf o.inner o.presentationQuery :=
    h.readFrom.inner ▸ h.readFrom.presentationQuery.queryOf
  have hd : params'.get DCQL = params.get DCQL :=
    h.prepares.get_eq (by simp [TypedParameter.key])
  have hp : params'.get PresentationDefinition = params.get PresentationDefinition :=
    h.prepares.get_eq (by simp [TypedParameter.key])
  have hi := h.query
  have hr := h.readFrom.presentationQuery
  rw [hdcql, hdefinition] at hi
  generalize hc : lastDcql calls = dcql, hf : lastDefinition calls = definition at hi
  generalize ho : o.presentationQuery = asked at hr hk
  cases hi with
  | dcql hv =>
    rw [UntypedObject.get_insertParam_self] at hd
    cases hr with
    | dcql hq => exact .dcql hc hf (Option.some.inj (hd.symm.trans hq)) ho hk.1
    | definition _ _ hn | uri _ _ hn => cases hd.symm.trans hn
  | definition hv =>
    rw [UntypedObject.get_insertParam_self] at hp
    cases hr with
    | definition hq => exact .definition hc hf (Option.some.inj (hp.symm.trans hq)) ho hk.1
    | dcql _ hn | uri _ hn => cases hp.symm.trans hn

/-! ## Built requests -/

variable [FormUrlencoded]

/-- The request that carries an object: in its URL if it is plain, in its token if it is signed. -/
inductive Carries (client : Client σ) (o : AuthorizationRequestObject) (endpoint : Url) (s s' : σ) :
    RequestType → Url × Option String → Prop
  | plain (hs : s' = s) : Carries client o endpoint s s' .plain (o.intoUrl endpoint, none)
  | signed (h : client.generateRequestObjectJwt o s = (.ok jwt, s')) :
    Carries client o endpoint s s' (.signedJwt r)
      (SignedAuthorizationRequest.intoUrl ⟨client.id.getFullId, r.indirection jwt⟩ endpoint,
        some jwt)

theorem build_eq_ok {s s' : σ} {request : Url × Option String}
    (h : b.build m type s = (.ok request, s')) :
    ∃ o endpoint, b.requestObject m type = .ok o ∧
      m.object.get AuthorizationEndpoint = some (.ok endpoint) ∧
      Carries b.verifier.client o endpoint.url s s' type request := by
  rw [build, Prog.ofExcept_bind_eq_ok_iff] at h
  obtain ⟨o, ho, h⟩ := h
  rw [Prog.ofExcept_bind_eq_ok_iff] at h
  obtain ⟨endpoint, he, h⟩ := h
  rw [orInternal_eq_ok_iff, parsingError_eq_ok_iff] at he
  refine ⟨o, endpoint, ho, he, ?_⟩
  cases type with
  | plain =>
    obtain ⟨rfl, rfl⟩ := Prog.pure_eq_ok_iff.mp h
    exact .plain rfl
  | signedJwt r =>
    obtain ⟨jwt, s₁, hj, h⟩ := Prog.bind_eq_ok_iff.mp h
    obtain ⟨rfl, rfl⟩ := Prog.pure_eq_ok_iff.mp h
    exact .signed (Prog.mapError_eq_ok_iff.mp hj)

/-- The request object of the builder is what the request carries, and it has the id of the client,
the query that was given last and the return URI of its response mode. -/
theorem build_postcondition {verifier : Verifier σ} {calls : List Call} {s s' : σ}
    {request : Url × Option String}
    (h : (after verifier calls).build m type s = (.ok request, s')) :
    ∃ o endpoint, (after verifier calls).requestObject m type = .ok o ∧
      m.object.get AuthorizationEndpoint = some (.ok endpoint) ∧
      Carries verifier.client o endpoint.url s s' type request ∧
      o.clientId = verifier.client.id ∧ AsksForLast calls o ∧
      ReturnsToEndpoint verifier.submissionEndpoint o := by
  obtain ⟨o, endpoint, ho, hm, hc⟩ := build_eq_ok h
  obtain ⟨params, params', mode, he⟩ := requestObject_eq_ok_iff.mp ho
  have hv : (after verifier calls).verifier = verifier := (after_fields verifier calls).1
  rw [hv] at hc
  exact ⟨o, endpoint, ho, hm, hc, hv ▸ he.clientId, he.asksForLast, hv ▸ he.returnsToEndpoint⟩

end RequestBuilder
end

namespace Sample
open scoped Reference

/-- A client with a certificate, whose tokens have no signature. -/
def x509Client : Client Unit where
  id := ⟨"verifier.example", .x509SanDns⟩
  idPrefix := .x509SanDns
  generateRequestObjectJwt o := pure (Reference.token o.intoUntyped.toJson)

/-- A verifier with a default for the parameters of its requests. -/
def verifier : Verifier Unit where
  client := x509Client
  defaultRequestParams := (UntypedObject.insertParam .empty ResponseType.vpToken).1
  submissionEndpoint := some responseUri

def dcqlQuery : DCQL where
  credentials := ⟨[{
    id := ⟨"pid", rfl⟩
    format := .sdJwtVc
    «meta» := ⟨none, none, none⟩
    multiple := none
    claims := none
    claimSets := none
    requireCryptographicHolderBinding := none
    trustedAuthorities := none }], nofun⟩
  credentialSets := none

/-- The calls for a request in some mode. -/
def calls (mode : ResponseMode) : List RequestBuilder.Call :=
  [.withRequestParameter mode, .withRequestParameter (Nonce.mk "n"),
    .withRequestParameter (ClientMetadata.mk .empty), .withDcql dcqlQuery]

def metadataObject : UntypedObject where
  entries := [("authorization_endpoint", .string "openid4vp:"),
    ("client_id_prefixes_supported", .array [.string "x509_san_dns"]),
    ("response_types_supported", .array [.string "vp_token"]), ("vp_formats_supported", .object [])]
  wf := rfl

/-- The metadata of a wallet, as a verifier reads it. -/
def walletMetadata : WalletMetadata where
  object := metadataObject
  authorizationEndpoint := ⟨endpoint⟩
  vpFormatsSupported := ⟨.empty⟩
  responseTypesSupported := ⟨[.vpToken]⟩
  clientIdPrefixesSupported := ⟨[.x509SanDns]⟩
  requestObjectSigningAlgValuesSupported := .default
  scopesSupported := .default
  subjectSyntaxTypesSupported := .default
  idTokenTypesSupported := .default
  idTokenSigningAlgValuesSupported := .default

theorem tryFrom_metadataObject : WalletMetadata.tryFrom metadataObject = .ok walletMetadata := rfl

theorem build_verifier : ∃ request,
    (RequestBuilder.after verifier (calls .directPost)).build walletMetadata .plain () =
      (.ok request, ()) :=
  ⟨_, rfl⟩

theorem build_postcondition_verifier : ∃ request o,
    (RequestBuilder.after verifier (calls .directPost)).requestObject walletMetadata .plain =
      .ok o ∧
    RequestBuilder.Carries x509Client o endpoint () () .plain request ∧
    o.clientId = x509Client.id ∧ RequestBuilder.AsksForLast (calls .directPost) o ∧
    RequestBuilder.ReturnsToEndpoint (some responseUri) o := by
  obtain ⟨request, h⟩ := build_verifier
  obtain ⟨o, e, ho, hm, hc, hr⟩ := RequestBuilder.build_postcondition h
  obtain rfl : ⟨endpoint⟩ = e := Except.ok.inj (Option.some.inj hm)
  exact ⟨request, o, ho, hc, hr⟩

end Sample
end OpenID4VP
