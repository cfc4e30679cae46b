import OpenID4VP.Core.AuthorizationRequest.Negotiation
import OpenID4VP.Core.AuthorizationRequest.RoundTrip
import OpenID4VP.Core.Metadata.Published
import OpenID4VP.Verifier.SignedRequest
import OpenID4VP.Wallet.ValidateRequest

/-! # Requests from a verifier to a wallet

A verifier builds a request from what a wallet has published, and the wallet validates its URL. What
the builder checks the wallet finds fulfilled: the request is accepted, as the object that was
encoded, exactly when it is authenticated and the formats have something in common. -/

namespace OpenID4VP

section
variable [SerdeJson] [SerdeJsonPath] [JsonSchema] [UrlCrate] [Base64Url]

/-! ## What a request offers -/

namespace AuthorizationRequestObject

/-- What the request offers, from its fields. -/
def terms (o : AuthorizationRequestObject) : Offer where
  clientIdPrefix := o.clientId.idPrefix
  responseType := o.responseType
  subjectSyntaxTypes := (parsingError
    (o.clientMetadata.object.get SubjectSyntaxTypesSupported)).toOption.map (·.values)
  vpFormats := (parsingError
    (o.clientMetadata.object.get VpFormatsSupported)).toOption.map (·.formats)

theorem ReadFrom.offer {value : UntypedObject} {o : AuthorizationRequestObject}
    (h : o.ReadFrom value) : o.offer = .ok o.terms := by
  have hm : ClientMetadata.resolve o.inner = .ok o.clientMetadata := by
    rw [ClientMetadata.resolve, h.inner, h.clientMetadata]
  have ht : parsingError (o.inner.get ResponseType) = .ok o.responseType := by
    rw [parsingError_eq_ok_iff, h.inner, h.responseType]
  rw [AuthorizationRequestObject.offer, hm, ht]
  rfl

end AuthorizationRequestObject

/-- Whatever formats a verifier names, the wallet has something in common with them. -/
def FormatsMeet (m : WalletMetadata) (o : AuthorizationRequestObject) : Prop :=
  ∀ v, o.clientMetadata.object.get VpFormatsSupported = some (.ok v) →
    Overlap v.formats m.vpFormatsSupported.formats

namespace RequestBuilder

variable {params params' : UntypedObject} {view m : WalletMetadata}

/-! ## What the builder has checked -/

omit [SerdeJsonPath] [JsonSchema] [Base64Url] in
theorem validateSubjectSyntaxTypes_eq_ok_iff : validateSubjectSyntaxTypes params view = .ok () ↔
    ∃ (metadata : ClientMetadata) (ts : SubjectSyntaxTypesSupported),
      params.get ClientMetadata = some (.ok metadata) ∧
      metadata.object.get SubjectSyntaxTypesSupported = some (.ok ts) ∧
      ts.values ⊆ view.subjectSyntaxTypesSupported.values := by
  simp only [validateSubjectSyntaxTypes, Except.bind_eq_ok_iff, needParameter_eq_ok_iff]
  refine exists_congr fun metadata => ?_
  rw [← exists_and_left]
  refine exists_congr fun ts => and_congr_right fun _ => and_congr_right fun _ => ?_
  split
  · next t ht =>
    refine iff_of_false Except.throw_ne_ok fun hsub => ?_
    have hc := List.find?_some ht
    rw [List.contains_iff_mem.mpr (hsub (List.mem_of_find?_eq_some ht))] at hc
    cases hc
  · next hn =>
    refine iff_of_true rfl fun t ht => ?_
    have hc := List.find?_eq_none.mp hn t ht
    simpa using hc

omit [SerdeJsonPath] [JsonSchema] [Base64Url] in
theorem validateResponseType_eq_ok_iff : validateResponseType params view = .ok () ↔
    ∃ t, params.get ResponseType = some (.ok t) ∧ t ∈ view.responseTypesSupported.values ∧
      (t = .vpTokenIdToken → validateSubjectSyntaxTypes params view = .ok ()) := by
  simp only [validateResponseType, Except.bind_eq_ok_iff, needParameter_eq_ok_iff,
    ensure_eq_ok_iff, List.contains_iff_mem]
  refine exists_congr fun t => and_congr_right fun _ => ?_
  constructor
  · rintro ⟨_, hm, h⟩
    refine ⟨hm, fun hi => ?_⟩
    rwa [if_pos hi] at h
  · rintro ⟨hm, h⟩
    refine ⟨(), hm, ?_⟩
    split
    · next hi => exact h hi
    · rfl

variable {b : RequestBuilder σ} {type : RequestType} {mode : ResponseMode}
  {o o' : AuthorizationRequestObject} {value : UntypedObject}

/-- What the wallet is asked for it can do, but for the formats. -/
theorem Encoded.accepts_terms_iff (h : Encoded b view type params params' mode o)
    (hv : view.Represents m) (hc : b.verifier.client.idPrefix = b.verifier.client.id.idPrefix)
    {c : Capabilities} (hm : m.capabilities = .ok c) : Accepts c o.terms ↔ FormatsMeet m o := by
  obtain ⟨supported, hs, hp⟩ := hv.clientIdPrefixes
  obtain ⟨_, hs', hm⟩ := Except.bind_eq_ok_iff.mp hm
  obtain rfl : supported = _ := Except.ok.inj (hs.symm.trans hs')
  obtain rfl := Except.pure_eq_ok_iff.mp hm
  have hf : FormatsMeet m o ↔
      ∀ fs, o.terms.vpFormats = some fs → Overlap fs m.vpFormatsSupported.formats := by
    simp only [AuthorizationRequestObject.terms, toOption_map_eq_some_iff, FormatsMeet]
    constructor
    · rintro h fs ⟨v, hv, rfl⟩
      exact h v hv
    · intro h v hv
      exact h _ ⟨v, hv, rfl⟩
  rw [hf]
  refine ⟨fun ha => ha.vpFormats, fun hf => ⟨?_, ?_, ?_, hf⟩⟩
  · refine hp _ ?_
    change view.isClientIdPrefixSupported o.clientId.idPrefix = true
    rw [h.clientId, ← hc]
    exact h.supported
  all_goals
    obtain ⟨t, ht, hmem, hts⟩ := validateResponseType_eq_ok_iff.mp h.responseType
    have hto := h.readFrom.responseType
    rw [h.prepares.get_eq (by simp [TypedParameter.key]), ht, Option.some_inj, Except.ok.injEq]
      at hto
    subst hto
  · exact hv.responseTypes hmem
  · intro hid
    obtain ⟨metadata, ts, hmd, hg, hsub⟩ := validateSubjectSyntaxTypes_eq_ok_iff.mp (hts hid)
    have hmo := h.readFrom.clientMetadata
    rw [h.prepares.get_eq (by simp [TypedParameter.key]), hmd, Option.some_inj, Except.ok.injEq]
      at hmo
    subst hmo
    exact ⟨ts.values, toOption_map_eq_some_iff.mpr ⟨ts, hg, rfl⟩,
      List.Subset.trans hsub hv.subjectSyntaxTypes⟩

/-- The wallet has no objection to an object that says the same, but for its formats. -/
theorem Encoded.validate_eq_ok_iff (h : Encoded b view type params params' mode o)
    (hv : view.Represents m) (hc : b.verifier.client.idPrefix = b.verifier.client.id.idPrefix)
    (hr : o'.ReadFrom value) (ht : o'.terms = o.terms) :
    validateRequestAgainstMetadata m o' = .ok () ↔ FormatsMeet m o := by
  obtain ⟨supported, hs, -⟩ := hv.clientIdPrefixes
  obtain ⟨c, hm⟩ : ∃ c, m.capabilities = .ok c :=
    ⟨_, Except.bind_eq_ok_iff.mpr ⟨supported, hs, rfl⟩⟩
  rw [validateRequestAgainstMetadata_eq_ok_iff, ← h.accepts_terms_iff hv hc hm]
  constructor
  · rintro ⟨c', offer, hc', ho, ha⟩
    rw [hr.offer, Except.ok.injEq] at ho
    rw [← ht, ho]
    rwa [Except.ok.inj (hm.symm.trans hc')]
  · intro ha
    exact ⟨_, _, hm, hr.offer, ht ▸ ha⟩

/-! ## What the request says -/

/-- The members that the builder writes itself. -/
def forcedKeys : List String :=
  ["client_id", "response_uri", "redirect_uri", "dcql_query", "presentation_definition"]

/-- The request object says what the builder was told: it has the id of the client, the query that
was given last, the return URI of its response mode and the parameters that were given. -/
structure Says (verifier : Verifier σ) (calls : List Call) (o : AuthorizationRequestObject) :
    Prop where
  clientId : o.clientId = verifier.client.id
  query : AsksForLast calls o
  returnUri : ReturnsToEndpoint verifier.submissionEndpoint o
  responseMode :
    (after verifier calls).requestParameters.get ResponseMode = some (.ok o.responseMode)
  responseType :
    (after verifier calls).requestParameters.get ResponseType = some (.ok o.responseType)
  nonce : (after verifier calls).requestParameters.get Nonce = some (.ok o.nonce)
  clientMetadata :
    (after verifier calls).requestParameters.get ClientMetadata = some (.ok o.clientMetadata)
  other : ∀ (α : Type) [TypedParameter α], TypedParameter.key α ∉ forcedKeys →
    (after verifier calls).requestParameters.get α = o.inner.get α

/-- The parameters that the builder does not force are read as they were given. -/
theorem Encoded.get_eq [TypedParameter α] (h : Encoded b view type params params' mode o)
    (hk : TypedParameter.key α ∉ forcedKeys) : b.requestParameters.get α = params'.get α := by
  simp only [forcedKeys, List.mem_cons, List.not_mem_nil, or_false, not_or] at hk
  obtain ⟨hc, hp, hr, hq, hd⟩ := hk
  rw [h.prepares.get_eq (by simp [hc, hp, hr]), h.query.get_eq (by simp [hq, hd]),
    UntypedObject.get_insertParam_of_ne hc]

theorem Encoded.says {verifier : Verifier σ} {calls : List Call}
    (h : Encoded (after verifier calls) view type params params' mode o) :
    Says verifier calls o := by
  have hv : (after verifier calls).verifier = verifier := (after_fields verifier calls).1
  exact {
    clientId := hv ▸ h.clientId
    query := h.asksForLast
    returnUri := hv ▸ h.returnsToEndpoint
    responseMode := by
      rw [h.responseMode_eq, h.get_eq (by simp [TypedParameter.key, forcedKeys]),
        h.prepares.get_eq (by simp [TypedParameter.key]), h.responseMode]
    responseType :=
      (h.get_eq (by simp [TypedParameter.key, forcedKeys])).trans h.readFrom.responseType
    nonce := (h.get_eq (by simp [TypedParameter.key, forcedKeys])).trans h.readFrom.nonce
    clientMetadata :=
      (h.get_eq (by simp [TypedParameter.key, forcedKeys])).trans h.readFrom.clientMetadata
    other := fun α _ hk => by rw [h.readFrom.inner, h.get_eq hk] }

/-! ## Requests that are plain -/

/-- The object has no parameter that makes a request a signed one. -/
def NoRequestObject (o : UntypedObject) : Prop :=
  ∀ k ∈ ["request", "request_uri"], o.containsKey k = false

omit [UrlCrate] in
theorem InsertsQuery.noRequestObject {dcql : Option DCQL}
    {definition : Option PresentationDefinition} (h : InsertsQuery params dcql definition params')
    (hn : NoRequestObject params) :
    NoRequestObject params' := by
  intro k hk
  have hd : k ≠ TypedParameter.key DCQL := by
    rintro rfl
    simp [TypedParameter.key] at hk
  have hp : k ≠ TypedParameter.key PresentationDefinition := by
    rintro rfl
    simp [TypedParameter.key] at hk
  rw [← hn k hk]
  cases h with
  | dcql => exact congrArg Option.isSome (UntypedObject.get?_insertParam_of_ne hd _ _)
  | definition => exact congrArg Option.isSome (UntypedObject.get?_insertParam_of_ne hp _ _)

omit [SerdeJson] [SerdeJsonPath] [JsonSchema] [Base64Url] in
theorem Prepares.noRequestObject {endpoint : Option Url}
    (h : Prepares params endpoint type mode params') (hn : NoRequestObject params) :
    NoRequestObject params' := by
  intro k hk
  have hc : k ≠ TypedParameter.key ClientId := by
    rintro rfl
    simp [TypedParameter.key] at hk
  have hp : k ≠ TypedParameter.key ResponseUri := by
    rintro rfl
    simp [TypedParameter.key] at hk
  have hr : k ≠ TypedParameter.key RedirectUri := by
    rintro rfl
    simp [TypedParameter.key] at hk
  rw [← hn k hk]
  refine congrArg Option.isSome ?_
  cases h with
  | response => exact UntypedObject.get?_insertParam_of_ne hp _ _
  | redirect => exact UntypedObject.get?_insertParam_of_ne hr _ _
  | plain =>
    exact (JsonMap.get?_erase_of_ne hr _).trans <|
      (JsonMap.get?_erase_of_ne hp _).trans (JsonMap.get?_erase_of_ne hc _)
  | signed => exact (JsonMap.get?_erase_of_ne hr _).trans (JsonMap.get?_erase_of_ne hp _)

theorem Encoded.noRequestObject (h : Encoded b view type params params' mode o)
    (hn : NoRequestObject b.requestParameters) : NoRequestObject params' := by
  refine h.prepares.noRequestObject (h.query.noRequestObject fun k hk => ?_)
  have hc : k ≠ TypedParameter.key ClientId := by
    rintro rfl
    simp [TypedParameter.key] at hk
  rw [← hn k hk]
  exact congrArg Option.isSome (UntypedObject.get?_insertParam_of_ne hc _ _)

end RequestBuilder

/-! ## Runs -/

variable [SsiJwt] [HttpCrate] [FormUrlencoded]

namespace Wallet

theorem validateRequest_eq_ok_iff {w : Wallet τ} {url : Url} {t t' : World τ}
    {o : AuthorizationRequestObject} : w.validateRequest url t = (.ok o, t') ↔
      ∃ ar, AuthorizationRequest.fromUrl url w.metadata.authorizationEndpoint.url = .ok ar ∧
        ar.validate w t = (.ok o, t') := by
  rw [validateRequest, Prog.ofExcept_bind_eq_ok_iff]
  exact exists_congr fun ar => and_congr Except.mapError_eq_ok_iff Prog.mapError_eq_ok_iff

theorem validateRequest_eq_ok_iff_of_fromUrl {w : Wallet τ} {url : Url} {t t' : World τ}
    {o : AuthorizationRequestObject} {ar : AuthorizationRequest}
    (hu : AuthorizationRequest.fromUrl url w.metadata.authorizationEndpoint.url = .ok ar) :
    w.validateRequest url t = (.ok o, t') ↔ ar.validate w t = (.ok o, t') := by
  rw [validateRequest_eq_ok_iff, hu, Except.exists_ok_iff]

end Wallet

namespace RequestBuilder

section
variable {w : Wallet τ} {t t₁ t' : World τ} {verifier : Verifier σ} {calls : List Call}
  {s s' : σ} {request : Url × Option String}

omit [SsiJwt] [HttpCrate] in
/-- A request that was built carries an object that was encoded to the endpoint of the wallet. -/
theorem exists_encoded_of_build
    (hb : (after verifier calls).build view type s = (.ok request, s')) (hv : view.Represents m) :
    ∃ o params params' mode, Encoded (after verifier calls) view type params params' mode o ∧
      Carries verifier.client o m.authorizationEndpoint.url s s' type request := by
  obtain ⟨o, endpoint, ho, he, hr⟩ := build_eq_ok hb
  obtain ⟨params, params', mode, hq⟩ := requestObject_eq_ok_iff.mp ho
  rw [hv.authorizationEndpoint, Option.some_inj, Except.ok.injEq] at he
  rw [(after_fields verifier calls).1, ← he] at hr
  exact ⟨o, params, params', mode, hq, hr⟩

/-- A plain request is accepted as its object exactly when it is authenticated and the formats
meet. -/
theorem Encoded.validateRequest_plain_iff (h : Encoded b view .plain params params' mode o)
    (hv : view.Represents w.metadata)
    (hc : b.verifier.client.idPrefix = b.verifier.client.id.idPrefix)
    (hn : NoRequestObject b.requestParameters) :
    w.validateRequest (o.intoUrl w.metadata.authorizationEndpoint.url) t = (.ok o', t') ↔
      o' = o.ofForm ∧ w.authenticatePlain o.ofForm t = (.ok (), t') ∧ FormatsMeet w.metadata o := by
  have hk := h.noRequestObject hn
  have hu := AuthorizationRequest.fromUrl_eq_ofForm w.metadata.authorizationEndpoint.url
    (AuthorizationRequestObject.tryFrom_eq_ok_iff.mpr h.readFrom) (hk _ (by simp)) (hk _ (by simp))
  rw [Wallet.validateRequest_eq_ok_iff_of_fromUrl hu, AuthorizationRequest.validate,
    Wallet.verifyRequest_plain_eq_ok_iff, h.validate_eq_ok_iff hv hc h.readFrom.ofForm rfl]

/-- A signed request whose token is retrieved is accepted as its object exactly when the header of
the token can be read, the method of its prefix and the wallet nonce are accepted and the formats
meet. -/
theorem Encoded.validateRequest_signed_iff [SsiJws] [X509Cert] {r : ByReference}
    {header : Json} {jwt : String} {signature : List UInt8}
    (h : Encoded b view (.signedJwt r) params params' mode o)
    (hv : view.Represents w.metadata)
    (hc : b.verifier.client.idPrefix = b.verifier.client.id.idPrefix)
    (ht : jwt = compactToken header o.intoUntyped.toJson signature)
    (hj : w.retrieveUnverifiedJwt ⟨b.verifier.client.id.getFullId, r.indirection jwt⟩ t =
      (.ok jwt, t₁)) :
    w.validateRequest (SignedAuthorizationRequest.intoUrl
        ⟨b.verifier.client.id.getFullId, r.indirection jwt⟩
        w.metadata.authorizationEndpoint.url) t = (.ok o', t') ↔
      o' = o.reread ∧ SsiJws.readsHeader header = true ∧ FormatsMeet w.metadata o ∧
        ∃ t₂, w.authenticateJwt o.reread jwt t₁ = (.ok (), t₂) ∧
          w.validateWalletNonce o.reread t₂ = (.ok (), t') := by
  have hvalid : validateRequestAgainstMetadata w.metadata o.reread = .ok () ↔
      FormatsMeet w.metadata o := h.validate_eq_ok_iff hv hc h.readFrom.intoUntyped rfl
  rw [Wallet.validateRequest_eq_ok_iff_of_fromUrl (AuthorizationRequest.fromUrl_intoUrl_signed _ _),
    AuthorizationRequest.validate, Wallet.resolveAuthRequest_eq_ok_iff, ← hvalid]
  constructor
  · rintro ⟨⟨jwt', t₁', t₂, hj', hvr, hnonce⟩, -⟩
    obtain ⟨rfl, rfl⟩ : jwt = jwt' ∧ t₁ = t₁' := by simpa using hj.symm.trans hj'
    obtain ⟨hd, ha, hm⟩ := Wallet.verifyRequest_jwt_eq_ok_iff.mp hvr
    rw [ht] at hd
    obtain ⟨hread, rfl⟩ := (decodeRequest_compactToken h.readFrom header signature).mp hd
    exact ⟨rfl, hread, hm, t₂, ha, hnonce⟩
  · rintro ⟨rfl, hread, hm, t₂, ha, hnonce⟩
    have hd := (decodeRequest_compactToken h.readFrom header signature).mpr ⟨hread, rfl⟩
    exact ⟨⟨jwt, t₁, t₂, hj, Wallet.verifyRequest_jwt_eq_ok_iff.mpr ⟨ht ▸ hd, ha, hm⟩, hnonce⟩,
      congrArg ClientId.getFullId h.clientId.symm⟩

/-- A plain request that was built from what the wallet has published is accepted exactly when it is
authenticated and the formats meet, and it is accepted as the object that was encoded. -/
theorem validateRequest_of_build_plain
    (hb : (after verifier calls).build view .plain s = (.ok request, s'))
    (hv : view.Represents w.metadata)
    (hc : verifier.client.idPrefix = verifier.client.id.idPrefix)
    (hn : NoRequestObject (after verifier calls).requestParameters) :
    ∃ o, (after verifier calls).requestObject view .plain = .ok o ∧ Says verifier calls o ∧
      ∀ t o' t', w.validateRequest request.1 t = (.ok o', t') ↔ o' = o.ofForm ∧
        w.authenticatePlain o.ofForm t = (.ok (), t') ∧ FormatsMeet w.metadata o := by
  obtain ⟨o, params, params', mode, hq, hr⟩ := exists_encoded_of_build hb hv
  rw [← (after_fields verifier calls).1] at hc
  cases hr with
  | plain =>
    exact ⟨o, hq.requestObject_eq, hq.says, fun t o' t' => hq.validateRequest_plain_iff hv hc hn⟩

/-- A signed request that was built from what the wallet has published, and whose token the wallet
retrieves, is accepted exactly when the header of the token can be read, the method of its prefix
and the wallet nonce are accepted and the formats meet. -/
theorem validateRequest_of_build_signed [SsiJws] [X509Cert] {c : SigningClient σ}
    {defaults : UntypedObject} {submissionEndpoint : Option Url} {r : ByReference} {url : Url}
    {jwt : String}
    (hb : (after ⟨c.client, defaults, submissionEndpoint⟩ calls).build view (.signedJwt r) s =
      (.ok (url, some jwt), s'))
    (hv : view.Represents w.metadata) (hc : c.client.idPrefix = c.client.id.idPrefix) :
    ∃ o header s₁, c.header s = (.ok header, s₁) ∧
      (after ⟨c.client, defaults, submissionEndpoint⟩ calls).requestObject view (.signedJwt r) =
        .ok o ∧
      Says ⟨c.client, defaults, submissionEndpoint⟩ calls o ∧ ∀ t t₁,
        w.retrieveUnverifiedJwt ⟨c.client.id.getFullId, r.indirection jwt⟩ t = (.ok jwt, t₁) →
        ∀ o' t', w.validateRequest url t = (.ok o', t') ↔
          o' = o.reread ∧ SsiJws.readsHeader header = true ∧ FormatsMeet w.metadata o ∧
            ∃ t₂, w.authenticateJwt o.reread jwt t₁ = (.ok (), t₂) ∧
              w.validateWalletNonce o.reread t₂ = (.ok (), t') := by
  obtain ⟨o, params, params', mode, hq, hr⟩ := exists_encoded_of_build hb hv
  have hvf : (after ⟨c.client, defaults, submissionEndpoint⟩ calls).verifier.client = c.client :=
    congrArg Verifier.client (after_fields _ calls).1
  cases hr with
  | signed hj =>
    obtain ⟨header, s₁, signature, hh, ht⟩ := c.generateRequestObjectJwt_eq_ok hj
    refine ⟨o, header, s₁, hh, hq.requestObject_eq, hq.says, fun t t₁ hj o' t' => ?_⟩
    rw [← hvf] at hc hj ⊢
    exact hq.validateRequest_signed_iff hv hc ht hj

end
end RequestBuilder
end

/-! ## Requests of a client with a certificate -/

namespace Sample
open scoped Reference

theorem represents_walletMetadata : walletMetadata.Represents wallet.metadata where
  authorizationEndpoint := rfl
  clientIdPrefixes := ⟨⟨[.x509SanDns]⟩, rfl, fun _ h => List.contains_iff_mem.mp h⟩
  responseTypes := List.Subset.refl _
  subjectSyntaxTypes := List.Subset.refl _

/-- The wallet accepts the plain request of the verifier. -/
theorem validateRequest_of_build_verifier : ∃ request t' o,
    (RequestBuilder.after verifier (calls .directPost)).build walletMetadata .plain () =
      (.ok request, ()) ∧
    wallet.validateRequest request.1 ⟨(), []⟩ = (.ok o, t') ∧ o.clientId = x509Client.id := by
  obtain ⟨request, hb⟩ := build_verifier
  have hn : RequestBuilder.NoRequestObject
      (RequestBuilder.after verifier (calls .directPost)).requestParameters := by
    intro k hk
    simp only [List.mem_cons, List.not_mem_nil, or_false] at hk
    rcases hk with rfl | rfl <;> rfl
  obtain ⟨o, -, hs, h⟩ :=
    RequestBuilder.validateRequest_of_build_plain hb represents_walletMetadata rfl hn
  have hm : o.clientMetadata = ⟨.empty⟩ := (Except.ok.inj (Option.some.inj hs.clientMetadata)).symm
  have hu : ∃ uri, o.returnUri = some uri := by
    have hr := hs.returnUri
    rw [RequestBuilder.ReturnsToEndpoint,
      ← Except.ok.inj (Option.some.inj hs.responseMode)] at hr
    obtain ⟨uri, -, hr⟩ := hr
    exact ⟨uri, hr⟩
  obtain ⟨uri, hu⟩ := hu
  refine ⟨request, ⟨(), [.verified .redirectUri o.ofForm (.ok ())]⟩, o.ofForm, hb,
    (h _ _ _).mpr ⟨rfl, ?_, ?_⟩, hs.clientId⟩
  · have hr : o.ofForm.returnUri = some uri := hu
    rw [Wallet.authenticatePlain, hr]
    rfl
  · intro v hv
    rw [hm] at hv
    cases hv

/-- A wallet accepts the signed request of the verifier. -/
theorem validateRequest_of_build_signingClient : ∃ url jwt t' o,
    (RequestBuilder.after ⟨signingClient.client, verifier.defaultRequestParams, some responseUri⟩
      (calls .directPost)).build walletMetadata (.signedJwt .false) () =
        (.ok (url, some jwt), ()) ∧
    (nonceWallet jwt).validateRequest url ⟨(), []⟩ = (.ok o, t') ∧ o.clientId = x509Client.id := by
  obtain ⟨url, jwt, hb⟩ := build_signingClient
  obtain ⟨o, header, s₁, hh, -, hs, h⟩ := RequestBuilder.validateRequest_of_build_signed
    (w := nonceWallet jwt) hb represents_walletMetadata rfl
  have hm : o.clientMetadata = ⟨.empty⟩ := (Except.ok.inj (Option.some.inj hs.clientMetadata)).symm
  have hn : o.reread.inner.get WalletNonce = none :=
    (o.get_intoUntyped (by simp [TypedParameter.key])).trans
      (hs.other WalletNonce (by simp [TypedParameter.key, RequestBuilder.forcedKeys])).symm
  have hp : o.reread.clientId.idPrefix = .x509SanDns := congrArg ClientId.idPrefix hs.clientId
  refine ⟨url, jwt, _, o.reread, hb, (h ⟨(), []⟩ ⟨(), []⟩ rfl _ _).mpr ⟨rfl, ?_, ?_,
    ⟨(), [.verified .x509SanDns o.reread (.ok ())]⟩, ?_,
    Wallet.validateWalletNonce_eq_ok_iff.mpr (.inl ⟨hn, rfl⟩)⟩, hs.clientId⟩
  · cases hh
    rfl
  · intro v hv
    rw [hm] at hv
    cases hv
  · rw [Wallet.authenticateJwt, hp]
    rfl

end Sample
end OpenID4VP
