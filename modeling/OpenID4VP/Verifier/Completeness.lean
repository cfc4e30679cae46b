import OpenID4VP.Core.Dcql.RoundTrip
import OpenID4VP.Core.AuthorizationRequest.ExpectedOrigins
import OpenID4VP.Verifier.Postcondition

/-! # When requests can be built

A builder that has all it needs builds a request unless its parameters contradict it. What the
builder removes for an answer through the browser is not what the reader of the request object
allows to be absent: a plain request is left without its client id, and is never built. -/

namespace OpenID4VP

section
variable [SerdeJson] [SerdeJsonPath] [JsonSchema] [UrlCrate] [Base64Url]

/-! ## Parameters that were set -/

/-- The object has this parameter, as it is inserted. -/
def UntypedObject.Holds [TypedParameter α] (o : UntypedObject) (a : α) : Prop :=
  o.get? (TypedParameter.key α) = some (TypedParameter.intoJson a).toValue

omit [SerdeJson] [SerdeJsonPath] [JsonSchema] [UrlCrate] [Base64Url] in
theorem UntypedObject.Holds.get_eq [TypedParameter α] {o : UntypedObject} {a : α}
    (h : o.Holds a) :
    o.get α = some (TypedParameter.tryFrom (TypedParameter.intoJson a).toValue) := by
  rw [get, h]
  rfl

omit [SerdeJson] [SerdeJsonPath] [JsonSchema] [UrlCrate] [Base64Url] in
theorem Nonce.tryFrom_intoJson (n : Nonce) :
    TypedParameter.tryFrom (TypedParameter.intoJson n).toValue = .ok n :=
  TypedParameter.via_tryFrom_toTree n.value

omit [SerdeJsonPath] [JsonSchema] [UrlCrate] [Base64Url] in
theorem ClientMetadata.tryFrom_intoJson (m : ClientMetadata) :
    TypedParameter.tryFrom (TypedParameter.intoJson m).toValue = .ok m := by
  change (fromStringOrValue (toTree m.object).toValue).map ClientMetadata.mk = _
  rw [toValue_toTree]
  have h : (fromStringOrValue (toTree m.object) : Except Anyhow JsonMap) = .ok m.object :=
    fromValue_eq_ok_iff.mpr (LawfulSerde.fromTree_toTree m.object)
  rw [h]
  rfl

omit [SerdeJson] [SerdeJsonPath] [JsonSchema] [UrlCrate] [Base64Url] in
theorem ResponseMode.tryFrom_intoJson {mode : ResponseMode} (h : ∀ m, mode ≠ .unsupported m) :
    TypedParameter.tryFrom (TypedParameter.intoJson mode).toValue = .ok mode := by
  cases mode with
  | unsupported m => exact absurd rfl (h m)
  | _ => rfl

/-- The origins print as URLs. An opaque origin prints as `null`, which is none. -/
def ExpectedOrigins.Readable (o : ExpectedOrigins) : Prop :=
  ∀ u ∈ o.origins.toList, (UrlCrate.parse (UrlCrate.unicodeSerialization u)).isSome = true

omit [SerdeJson] [SerdeJsonPath] [JsonSchema] [Base64Url] in
/-- Expected origins are read back, as some origins, exactly when each prints as a URL. -/
theorem ExpectedOrigins.exists_tryFrom_iff {o : ExpectedOrigins} :
    (∃ o' : ExpectedOrigins,
      TypedParameter.tryFrom (TypedParameter.intoJson o).toValue = .ok o') ↔ o.Readable := by
  have hv : (TypedParameter.intoJson o).toValue =
      .array ((o.origins.toList.map UrlCrate.unicodeSerialization).map .string) := by
    rw [intoJson_eq_array]
    exact toValue_toTree (o.origins.toList.map UrlCrate.unicodeSerialization)
  have hne : o.origins.toList.map UrlCrate.unicodeSerialization ≠ [] := by
    rw [Ne, List.map_eq_nil_iff]
    exact o.origins.nonempty
  have hp (s : String) : (∃ u, parseOrigin s = .ok u) ↔ (UrlCrate.parse s).isSome = true := by
    simp [parseOrigin_eq_ok_iff, Option.isSome_iff_exists]
  have hr := exists_tryFrom_array_iff hne (P := fun _ => True)
  simp only [and_true, exists_mapM_eq_ok_iff, hp] at hr
  rw [hv, hr, Readable]
  exact List.forall_mem_map

namespace RequestBuilder

/-! ## Builders that have all they need -/

/-- The builder has what a request in some mode needs, and the wallet supports it. -/
structure Ready (b : RequestBuilder σ) (walletMetadata : WalletMetadata) (type : RequestType)
    (mode : ResponseMode) : Prop where
  dcql : ∃ query, b.dcql = some query ∧ query.WellFormed ∧ validateDcql query = .ok ()
  definition : b.presentationDefinition = none
  responseMode : b.requestParameters.Holds mode
  supportedMode : ∀ m, mode ≠ .unsupported m
  responseType : b.requestParameters.Holds ResponseType.vpToken
  supportedType : .vpToken ∈ walletMetadata.responseTypesSupported.values
  nonce : ∃ nonce : Nonce, b.requestParameters.Holds nonce
  clientMetadata : ∃ metadata : ClientMetadata, b.requestParameters.Holds metadata
  submissionEndpoint : mode.isDcApi = false → b.verifier.submissionEndpoint.isSome = true
  expectedOrigins : ∀ r, type = .signedJwt r → mode.isDcApi = true →
    ∃ origins : ExpectedOrigins, b.requestParameters.Holds origins
  parsed : ∃ value, WalletMetadata.tryFrom value = .ok walletMetadata
  supportedPrefix : walletMetadata.isClientIdPrefixSupported b.verifier.client.idPrefix = true
  signs : ∀ r, type = .signedJwt r → ∀ o s, ∃ jwt s',
    b.verifier.client.generateRequestObjectJwt o s = (.ok jwt, s')

/-- The request keeps its client id, and the parameters have no other query, no other URI than
that of the response mode, and no expected origins that cannot be read. -/
structure Consistent (b : RequestBuilder σ) (type : RequestType) (mode : ResponseMode) :
    Prop where
  keepsClientId : ¬(type = .plain ∧ mode.isDcApi = true)
  noDefinition : b.requestParameters.containsKey "presentation_definition" = false
  noDefinitionUri : b.requestParameters.containsKey "presentation_definition_uri" = false
  noRedirectUri : mode = .directPost ∨ mode = .directPostJwt →
    b.requestParameters.containsKey "redirect_uri" = false
  noResponseUri : mode = .fragment ∨ mode = .fragmentJwt →
    b.requestParameters.containsKey "response_uri" = false
  readableOrigins : mode.isDcApi = true →
    ∀ origins : ExpectedOrigins, b.requestParameters.Holds origins → origins.Readable

variable {b : RequestBuilder σ} {m : WalletMetadata} {type : RequestType} {mode : ResponseMode}
variable {params params' : UntypedObject} {o : AuthorizationRequestObject}

omit [UrlCrate] in
/-- The parameters of the builder, of which only the client id and the query are replaced. -/
theorem InsertsQuery.get_of_dcql [TypedParameter α] {value : UntypedObject} {id : ClientId}
    {query : DCQL} (h : InsertsQuery (value.insertParam id).1 (some query) none params)
    (hk : TypedParameter.key α ∉ ["client_id", "dcql_query"]) : params.get α = value.get α := by
  simp only [List.mem_cons, List.not_mem_nil, or_false, not_or] at hk
  cases h
  rw [UntypedObject.get_insertParam_of_ne hk.2, UntypedObject.get_insertParam_of_ne hk.1]

omit [UrlCrate] in
theorem InsertsQuery.get_dcql {value : UntypedObject} {query : DCQL}
    (h : InsertsQuery value (some query) none params) :
    params.get DCQL = some (TypedParameter.tryFrom (TypedParameter.intoJson query).toValue) := by
  cases h
  exact UntypedObject.get_insertParam_self _ _

omit [UrlCrate] in
theorem InsertsQuery.get_clientId {value : UntypedObject} {id : ClientId} {query : DCQL}
    (h : InsertsQuery (value.insertParam id).1 (some query) none params) :
    params.get ClientId = some (.ok id) := by
  cases h
  rw [UntypedObject.get_insertParam_of_ne (by simp [TypedParameter.key]),
    UntypedObject.get_insertParam_self, Option.some_inj]
  exact ClientId.new_getFullId _

/-! ### What contradicts a request -/

theorem Ready.insertsQuery (hb : Ready b m type mode)
    (h : Encoded b m type params params' mode' o) : ∃ query,
      InsertsQuery (b.requestParameters.insertParam b.verifier.client.id).1 (some query) none
        params := by
  obtain ⟨query, hq, -, -⟩ := hb.dcql
  have hi := h.query
  rw [hq, hb.definition] at hi
  exact ⟨query, hi⟩

theorem Ready.responseMode_eq (hb : Ready b m type mode)
    (h : Encoded b m type params params' mode' o) : mode' = mode := by
  obtain ⟨query, hi⟩ := hb.insertsQuery h
  have hm := h.responseMode
  rw [hi.get_of_dcql (by simp [TypedParameter.key]), hb.responseMode.get_eq,
    ResponseMode.tryFrom_intoJson hb.supportedMode, Option.some_inj, Except.ok.injEq] at hm
  exact hm.symm

theorem Encoded.keepsClientId (h : Encoded b m type params params' mode o) :
    ¬(type = .plain ∧ mode.isDcApi = true) := by
  rintro ⟨rfl, hd⟩
  have hc := h.readFrom.clientId
  cases h.prepares with
  | response hm | redirect hm => rcases hm with rfl | rfl <;> exact absurd hd Bool.false_ne_true
  | plain =>
    rw [UntypedObject.get_removeParam_of_ne (by simp [TypedParameter.key]),
      UntypedObject.get_removeParam_of_ne (by simp [TypedParameter.key]),
      UntypedObject.get_removeParam_self] at hc
    cases hc

/-- With a query that was inserted, the reader admits no definition and no URI of one. -/
theorem Ready.no_definition (hb : Ready b m type mode)
    (h : Encoded b m type params params' mode o) :
    b.requestParameters.get PresentationDefinition = none ∧
      b.requestParameters.get PresentationDefinitionUri = none := by
  obtain ⟨query, hi⟩ := hb.insertsQuery h
  have hd : params'.get PresentationDefinition = b.requestParameters.get PresentationDefinition :=
    (h.prepares.get_eq (by simp [TypedParameter.key])).trans
      (hi.get_of_dcql (by simp [TypedParameter.key]))
  have hu : params'.get PresentationDefinitionUri =
      b.requestParameters.get PresentationDefinitionUri :=
    (h.prepares.get_eq (by simp [TypedParameter.key])).trans
      (hi.get_of_dcql (by simp [TypedParameter.key]))
  have hq : params'.get DCQL = _ :=
    (h.prepares.get_eq (by simp [TypedParameter.key])).trans hi.get_dcql
  rw [← hd, ← hu]
  have hr := h.readFrom.presentationQuery
  generalize o.presentationQuery = asked at hr
  cases hr with
  | dcql _ hd hu => exact ⟨hd, hu⟩
  | definition _ _ hn | uri _ _ hn => cases hq.symm.trans hn

omit [SerdeJson] [SerdeJsonPath] [JsonSchema] [Base64Url] in
/-- A request with posted answers has no other URI than the one that was inserted. -/
theorem Prepares.no_redirectUri {endpoint uri : Option Url}
    (h : Prepares params endpoint type mode params')
    (hm : mode = .directPost ∨ mode = .directPostJwt)
    (hr : AuthorizationRequestObject.ReturnsTo params' mode uri) :
    params.get RedirectUri = none := by
  have hn : params'.get RedirectUri = none := by
    cases hr with
    | response _ _ hn => exact hn
    | redirect hm' => rcases hm with rfl | rfl <;> simp at hm'
    | browser hm' => rcases hm with rfl | rfl <;> exact absurd hm' Bool.false_ne_true
  cases h with
  | response =>
    rwa [UntypedObject.get_insertParam_of_ne (by simp [TypedParameter.key])] at hn
  | redirect hm' => rcases hm with rfl | rfl <;> simp at hm'
  | plain hm' | signed hm' => rcases hm with rfl | rfl <;> exact absurd hm' Bool.false_ne_true

omit [SerdeJson] [SerdeJsonPath] [JsonSchema] [Base64Url] in
theorem Prepares.no_responseUri {endpoint uri : Option Url}
    (h : Prepares params endpoint type mode params') (hm : mode = .fragment ∨ mode = .fragmentJwt)
    (hr : AuthorizationRequestObject.ReturnsTo params' mode uri) :
    params.get ResponseUri = none := by
  have hn : params'.get ResponseUri = none := by
    cases hr with
    | redirect _ _ hn => exact hn
    | response hm' => rcases hm with rfl | rfl <;> simp at hm'
    | browser hm' => rcases hm with rfl | rfl <;> exact absurd hm' Bool.false_ne_true
  cases h with
  | redirect =>
    rwa [UntypedObject.get_insertParam_of_ne (by simp [TypedParameter.key])] at hn
  | response hm' => rcases hm with rfl | rfl <;> simp at hm'
  | plain hm' | signed hm' => rcases hm with rfl | rfl <;> exact absurd hm' Bool.false_ne_true

theorem Ready.consistent (hb : Ready b m type mode)
    (h : Encoded b m type params params' mode o) : Consistent b type mode := by
  obtain ⟨query, hi⟩ := hb.insertsQuery h
  obtain ⟨hd, hu⟩ := hb.no_definition h
  have hr := h.readFrom.returnUri
  rw [h.responseMode_eq] at hr
  exact {
    keepsClientId := h.keepsClientId
    noDefinition := UntypedObject.get_eq_none_iff.mp hd
    noDefinitionUri := UntypedObject.get_eq_none_iff.mp hu
    noRedirectUri hm := by
      have hn := h.prepares.no_redirectUri hm hr
      rw [hi.get_of_dcql (by simp [TypedParameter.key])] at hn
      exact UntypedObject.get_eq_none_iff.mp hn
    noResponseUri hm := by
      have hn := h.prepares.no_responseUri hm hr
      rw [hi.get_of_dcql (by simp [TypedParameter.key])] at hn
      exact UntypedObject.get_eq_none_iff.mp hn
    readableOrigins hm origins ho := by
      have hp := h.prepares
      cases hp with
      | response hm' | redirect hm' =>
        rcases hm' with rfl | rfl <;> exact absurd hm Bool.false_ne_true
      | plain => exact absurd ⟨rfl, hm⟩ h.keepsClientId
      | signed _ hs =>
        rw [hi.get_of_dcql (by simp [TypedParameter.key]), ho.get_eq, Option.some_inj] at hs
        exact ExpectedOrigins.exists_tryFrom_iff.mp ⟨_, hs⟩ }

/-! ### What is enough -/

/-- The response mode and the type of a consistent request decide where it returns to. -/
theorem Consistent.exists_prepares (hb : Ready b m type mode) (hc : Consistent b type mode)
    (hi : InsertsQuery (b.requestParameters.insertParam b.verifier.client.id).1 (some query) none
      params) :
    ∃ params' uri, Prepares params b.verifier.submissionEndpoint type mode params' ∧
      AuthorizationRequestObject.ReturnsTo params' mode uri ∧
      params'.get ClientId = some (.ok b.verifier.client.id) := by
  have hr : params.get RedirectUri = b.requestParameters.get RedirectUri :=
    hi.get_of_dcql (by simp [TypedParameter.key])
  have hp : params.get ResponseUri = b.requestParameters.get ResponseUri :=
    hi.get_of_dcql (by simp [TypedParameter.key])
  cases mode with
  | unsupported m => exact absurd rfl (hb.supportedMode m)
  | directPost | directPostJwt =>
    obtain ⟨uri, hu⟩ := Option.isSome_iff_exists.mp (hb.submissionEndpoint rfl)
    refine ⟨_, some (ResponseUri.mk uri).url, .response (by simp) hu,
      .response (by simp) ?_ ?_, ?_⟩
    · rw [UntypedObject.get_insertParam_self]
      exact congrArg some (TypedParameter.via_tryFrom_toTree uri)
    · rw [UntypedObject.get_insertParam_of_ne (by simp [TypedParameter.key]), hr]
      exact UntypedObject.get_eq_none_iff.mpr (hc.noRedirectUri (by simp))
    · rw [UntypedObject.get_insertParam_of_ne (by simp [TypedParameter.key]), hi.get_clientId]
  | fragment | fragmentJwt =>
    obtain ⟨uri, hu⟩ := Option.isSome_iff_exists.mp (hb.submissionEndpoint rfl)
    refine ⟨_, some (RedirectUri.mk uri).url, .redirect (by simp) hu,
      .redirect (by simp) ?_ ?_, ?_⟩
    · rw [UntypedObject.get_insertParam_self]
      exact congrArg some (TypedParameter.via_tryFrom_toTree uri)
    · rw [UntypedObject.get_insertParam_of_ne (by simp [TypedParameter.key]), hp]
      exact UntypedObject.get_eq_none_iff.mpr (hc.noResponseUri (by simp))
    · rw [UntypedObject.get_insertParam_of_ne (by simp [TypedParameter.key]), hi.get_clientId]
  | dcApi | dcApiJwt =>
    cases type with
    | plain => exact absurd ⟨rfl, rfl⟩ hc.keepsClientId
    | signedJwt r =>
      obtain ⟨origins, ho⟩ := hb.expectedOrigins r rfl rfl
      obtain ⟨origins', ho'⟩ :=
        ExpectedOrigins.exists_tryFrom_iff.mpr (hc.readableOrigins rfl origins ho)
      have hg : params.get ExpectedOrigins = some (.ok origins') := by
        rw [hi.get_of_dcql (by simp [TypedParameter.key]), ho.get_eq, ho']
      refine ⟨_, _, .signed rfl hg, .browser rfl ?_ ?_, ?_⟩
      · exact UntypedObject.get_removeParam_self _ _
      · rw [UntypedObject.get_removeParam_of_ne (by simp [TypedParameter.key])]
        exact UntypedObject.get_removeParam_self _ _
      · rw [UntypedObject.get_removeParam_of_ne (by simp [TypedParameter.key]),
          UntypedObject.get_removeParam_of_ne (by simp [TypedParameter.key]), hi.get_clientId]

omit [SerdeJsonPath] [JsonSchema] [Base64Url] in
theorem validateResponseType_vpToken (h : params.get ResponseType = some (.ok .vpToken))
    (hs : .vpToken ∈ m.responseTypesSupported.values) :
    validateResponseType params m = .ok () := by
  have hc : m.responseTypesSupported.values.contains ResponseType.vpToken = true :=
    List.contains_iff_mem.mpr hs
  rw [validateResponseType, Except.bind_eq_ok_iff]
  refine ⟨.vpToken, needParameter_eq_ok_iff.mpr h, ?_⟩
  rw [hc]
  rfl

/-- What a consistent builder has is read as a request object. -/
theorem Consistent.exists_encoded (hb : Ready b m type mode) (hc : Consistent b type mode) :
    ∃ params params' o, Encoded b m type params params' mode o := by
  obtain ⟨query, hq, hw, hv⟩ := hb.dcql
  obtain ⟨nonce, hn⟩ := hb.nonce
  obtain ⟨metadata, hmd⟩ := hb.clientMetadata
  have hi : InsertsQuery (b.requestParameters.insertParam b.verifier.client.id).1 (some query) none
    _ := .dcql hv
  obtain ⟨params', uri, hp, hr, hid⟩ := hc.exists_prepares hb hi
  generalize ((b.requestParameters.insertParam b.verifier.client.id).1.insertParam query).1 =
    params at hi hp
  have hmode : params.get ResponseMode = some (.ok mode) := by
    rw [hi.get_of_dcql (by simp [TypedParameter.key]), hb.responseMode.get_eq,
      ResponseMode.tryFrom_intoJson hb.supportedMode]
  have htype : params.get ResponseType = some (.ok .vpToken) := by
    rw [hi.get_of_dcql (by simp [TypedParameter.key]), hb.responseType.get_eq]
    rfl
  have hd : b.requestParameters.get PresentationDefinition = none :=
    UntypedObject.get_eq_none_iff.mpr hc.noDefinition
  have hu : b.requestParameters.get PresentationDefinitionUri = none :=
    UntypedObject.get_eq_none_iff.mpr hc.noDefinitionUri
  refine ⟨params, params', {
    inner := params'
    clientId := b.verifier.client.id
    responseMode := mode
    responseType := .vpToken
    presentationQuery := .dcql query.normalize
    returnUri := uri
    nonce := nonce
    clientMetadata := metadata
    expectedOrigins := AuthorizationRequestObject.readExpectedOrigins params' mode }, {
    query := by rwa [hq, hb.definition]
    responseType := ?_
    supported := hb.supportedPrefix
    responseMode := hmode
    prepares := hp
    readFrom := ⟨rfl, hid, ?_, hr, ?_, .dcql ?_ ?_ ?_, ?_, ?_, rfl⟩ }⟩
  · exact validateResponseType_vpToken htype hb.supportedType
  · rw [UntypedObject.getOrDefault_eq_get, hp.get_eq (by simp [TypedParameter.key]), hmode]
    rfl
  · rw [hp.get_eq (by simp [TypedParameter.key]), htype]
  · rw [hp.get_eq (by simp [TypedParameter.key]), hi.get_dcql, hw.tryFrom_intoJson]
  · rw [hp.get_eq (by simp [TypedParameter.key]), hi.get_of_dcql (by simp [TypedParameter.key]), hd]
  · rw [hp.get_eq (by simp [TypedParameter.key]), hi.get_of_dcql (by simp [TypedParameter.key]), hu]
  · rw [hp.get_eq (by simp [TypedParameter.key]), hi.get_of_dcql (by simp [TypedParameter.key]),
      hn.get_eq, nonce.tryFrom_intoJson]
  · rw [hp.get_eq (by simp [TypedParameter.key]), hi.get_of_dcql (by simp [TypedParameter.key]),
      hmd.get_eq, metadata.tryFrom_intoJson]

/-! ## Built requests -/

variable [FormUrlencoded]

/-- An object that is encoded is sent, by a client that signs what it has to. -/
theorem Ready.exists_build (hb : Ready b m type mode) (h : b.requestObject m type = .ok o)
    (s : σ) : ∃ request s', b.build m type s = (.ok request, s') := by
  obtain ⟨value, hm⟩ := hb.parsed
  have he : m.object.get AuthorizationEndpoint = some (.ok m.authorizationEndpoint) := by
    have hr := WalletMetadata.tryFrom_eq_ok_iff.mp hm
    rw [hr.object, hr.authorizationEndpoint]
  rw [build, h, he]
  cases type with
  | plain => exact ⟨_, s, rfl⟩
  | signedJwt r =>
    obtain ⟨jwt, s', hj⟩ := hb.signs r rfl o s
    exact ⟨_, s', Prog.ofExcept_bind_eq_ok_iff.mpr ⟨o, rfl,
      Prog.ofExcept_bind_eq_ok_iff.mpr ⟨m.authorizationEndpoint, rfl,
        Prog.bind_eq_ok_iff.mpr ⟨jwt, s', Prog.mapError_eq_ok_iff.mpr hj, rfl⟩⟩⟩⟩

/-- A builder that has all it needs builds a request exactly when the request is consistent. -/
theorem build_ok_iff (hb : Ready b m type mode) (s : σ) :
    (∃ request s', b.build m type s = (.ok request, s')) ↔ Consistent b type mode := by
  constructor
  · rintro ⟨request, s', h⟩
    obtain ⟨o, -, ho, -⟩ := build_eq_ok h
    obtain ⟨params, params', mode', he⟩ := requestObject_eq_ok_iff.mp ho
    obtain rfl := hb.responseMode_eq he
    exact hb.consistent he
  · intro hc
    obtain ⟨params, params', o, he⟩ := hc.exists_encoded hb
    exact hb.exists_build he.requestObject_eq s

end RequestBuilder
end

namespace Sample
open scoped Reference

theorem wellFormed_dcqlQuery : dcqlQuery.WellFormed := by
  intro c hc as has
  obtain rfl := List.mem_singleton.mp hc
  cases has

/-- The sample verifier has all it needs for a plain request in any mode. -/
theorem ready_verifier {mode : ResponseMode} (h : ∀ m, mode ≠ .unsupported m) :
    (RequestBuilder.after verifier (calls mode)).Ready walletMetadata .plain mode where
  dcql := ⟨dcqlQuery, rfl, wellFormed_dcqlQuery, rfl⟩
  definition := rfl
  responseMode := rfl
  supportedMode := h
  responseType := rfl
  supportedType := List.mem_singleton_self _
  nonce := ⟨⟨"n"⟩, rfl⟩
  clientMetadata := ⟨⟨.empty⟩, rfl⟩
  submissionEndpoint _ := rfl
  expectedOrigins := nofun
  parsed := ⟨_, tryFrom_metadataObject⟩
  supportedPrefix := rfl
  signs := nofun

theorem build_ok_iff_verifier :
    (∃ request s', (RequestBuilder.after verifier (calls .directPost)).build walletMetadata .plain
      () = (.ok request, s')) ↔
    (RequestBuilder.after verifier (calls .directPost)).Consistent .plain .directPost :=
  RequestBuilder.build_ok_iff (@ready_verifier .directPost nofun) ()

/-- A plain request for the digital credentials API lacks its client id. -/
theorem not_build_dcApi :
    (RequestBuilder.after verifier (calls .dcApi)).Ready walletMetadata .plain .dcApi ∧
    ¬∃ request s', (RequestBuilder.after verifier (calls .dcApi)).build walletMetadata .plain () =
      (.ok request, s') := by
  have hb := @ready_verifier .dcApi nofun
  refine ⟨hb, ?_⟩
  rintro ⟨request, s', h⟩
  obtain ⟨o, -, ho, -⟩ := RequestBuilder.build_eq_ok h
  obtain ⟨params, params', mode', he⟩ := RequestBuilder.requestObject_eq_ok_iff.mp ho
  obtain rfl := hb.responseMode_eq he
  exact he.keepsClientId ⟨rfl, rfl⟩

end Sample
end OpenID4VP
