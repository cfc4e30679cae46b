import OpenID4VP.Verifier.HonestRun
import OpenID4VP.Wallet.IdToken
import OpenID4VP.Wallet.Sessions.Interleaving

/-! # Conversations

A verifier builds a request and a wallet accepts it. The wallet resolves the query that the verifier
gave last, and the response goes to where the accepted request says. That is the endpoint of the
verifier, which it reaches once, and the verifier reads there the response that was submitted, where
its form can be read back at all. -/

namespace OpenID4VP

section
variable [SerdeJson] [SerdeJsonPath] [JsonSchema] [UrlCrate] [Base64Url] [UuidCrate] [UrlFragment]
  [SsiJwt] [HttpCrate] [HttpStatus] [FormUrlencoded]

/-! ## Responses -/

/-- The text is read as the response, but for transaction data. -/
def AuthorizationResponse.IsReadFrom (text : String) : AuthorizationResponse → Prop
  | unencoded r => ∃ r', fromXWwwFormUrlencoded text = .ok (unencoded r') ∧
    r'.vpToken = r.vpToken ∧ r'.presentationSubmission = r.presentationSubmission ∧
    r'.idToken = r.idToken ∧ r'.state = r.state
  | jwt r => fromXWwwFormUrlencoded text = .ok (jwt r)

/-- The text comes to the endpoint: in the body of the one request that is sent, or in the fragment
of the URL that the user is sent to. -/
inductive Arrival (endpoint : Url) (text : String) (s s' : World τ) (redirect : Option Url) : Prop
  | body (hl : s'.log = s.log ++ [.sent request (.ok resp)]) (hm : request.method = .post)
    (hu : request.uri = UrlCrate.toString endpoint) (hb : request.body = text.toUTF8)
  | fragment (hl : s'.log = s.log) (hu : redirect = some url)
    (he : url = UrlFragment.setFragment endpoint text) (hf : UrlFragment.fragment url = some text)

omit [UuidCrate] [UrlFragment] [SerdeJson] [SerdeJsonPath] [JsonSchema] [Base64Url] [SsiJwt]
  [HttpStatus] [FormUrlencoded] in
theorem createPostRequest_eq_ok_iff {url : Url} {body : ByteArray} {contentType accept : String}
    {request : Request} : createPostRequest url body contentType accept = .ok request ↔
      HttpCrate.isUri (UrlCrate.toString url) = true ∧
      request = ⟨.post, UrlCrate.toString url,
        [("content-type", contentType), ("accept", accept)], body⟩ := by
  rw [createPostRequest, requestUri]
  split
  · next h =>
    rw [and_iff_right h, eq_comm (a := request)]
    exact Eq.to_iff (Except.ok.injEq _ _)
  · next h => exact iff_of_false Except.throw_ne_ok fun hc => h hc.1

omit [JsonSchema] [UrlCrate] [Base64Url] [UrlFragment] [HttpCrate] [HttpStatus] in
/-- A form is read as the response that it was written for exactly when this is readable. -/
theorem AuthorizationResponse.isReadFrom_iff {response : AuthorizationResponse} {text : String}
    (hf : response.unencodedForm = .ok text ∨ response.jwtForm = .ok text)
    (ht : ¬response.HasTransactionData) : response.IsReadFrom text ↔ response.Readable := by
  cases response with
  | unencoded r =>
    rw [HasTransactionData, Bool.not_eq_true, Option.isSome_eq_false_iff,
      Option.isNone_iff_eq_none] at ht
    have hr : r.intoXWwwFormUrlencoded = .ok text :=
      hf.elim orInternal_eq_ok_iff.mp fun h => absurd h Except.throw_ne_ok
    rw [Readable, ← UnencodedAuthorizationResponse.unencoded_roundTrips_iff ht]
    constructor
    · rintro ⟨r', h⟩
      exact ⟨text, r', hr, h⟩
    · rintro ⟨text', r', hr', h⟩
      obtain rfl : text = text' := Except.ok.inj (hr.symm.trans hr')
      exact ⟨r', h⟩
  | jwt r =>
    have hr : r.intoXWwwFormUrlencoded = .ok text :=
      hf.elim (fun h => absurd h Except.throw_ne_ok) orInternal_eq_ok_iff.mp
    obtain ⟨text', hr', h⟩ := JwtAuthorizationResponse.roundTrips r
    obtain rfl : text = text' := Except.ok.inj (hr.symm.trans hr')
    exact iff_of_true h trivial

namespace Wallet

variable {w : Wallet τ} {uri : Url} {mode : ResponseMode} {response : AuthorizationResponse}
  {s s' : World τ} {u : Option Url}

omit [Base64Url] in
/-- A response that is submitted comes to its URI, in a form that can be read back if it is
readable. -/
theorem arrival_of_submitResponse (h : w.submitResponse uri mode response s = (.ok u, s'))
    (ht : ¬response.HasTransactionData) : ∃ text, Arrival uri text s s' u ∧
      (response.IsReadFrom text ↔ response.Readable) := by
  rw [← Session.run_submitResponse] at h
  obtain ⟨t, hd, ha⟩ := Calls.run_eq_iff.mp h
  have hl := log_of_answered ha
  cases Session.finishes_submitResponse_iff.mp hd with
  | @fragment text hm hf =>
    refine ⟨text, .fragment (hl.trans (List.append_nil _)) rfl rfl ?_,
      AuthorizationResponse.isReadFrom_iff (.inl hf) ht⟩
    obtain ⟨r, hr⟩ : ∃ r : UnencodedAuthorizationResponse, r.intoXWwwFormUrlencoded = .ok text := by
      cases response with
      | unencoded r => exact ⟨r, orInternal_eq_ok_iff.mp hf⟩
      | jwt r => exact absurd hf Except.throw_ne_ok
    obtain ⟨ps, hp⟩ := exists_intoXWwwFormUrlencoded r
    obtain rfl := Except.ok.inj (hr.symm.trans hp)
    exact UrlFragment.fragment_setFragment _ _ (FormUrlencoded.isFormChar_toString ps)
  | @post request resp hp hs =>
    obtain ⟨text, hp, hr⟩ := hp
    obtain ⟨-, rfl⟩ := createPostRequest_eq_ok_iff.mp hr
    have hf : response.unencodedForm = .ok text ∨ response.jwtForm = .ok text := by
      cases hp with
      | directPost h => exact .inl h
      | directPostJwt h => exact .inr h
    exact ⟨text, .body hl rfl rfl rfl, AuthorizationResponse.isReadFrom_iff hf ht⟩

end Wallet

/-! ## Whole conversations -/

variable [SsiJws] [X509Cert]

namespace RequestBuilder

/-- A verifier has built a request from what a wallet has published, and the wallet has accepted it.
A plain request must not look like a signed one, and the token of a signed one is what the wallet
retrieves. -/
inductive Accepted (c : SigningClient σ) (defaults : UntypedObject)
    (submissionEndpoint : Option Url) (calls : List Call) (w : Wallet τ)
    (o : AuthorizationRequestObject) (t' : World τ) : Prop
  | intro {view : WalletMetadata} {type : RequestType} {s s' : σ} {request : Url × Option String}
    {t : World τ}
    (built : (after ⟨c.client, defaults, submissionEndpoint⟩ calls).build view type s =
      (.ok request, s'))
    (published : view.Represents w.metadata)
    (prefixes : c.client.idPrefix = c.client.id.idPrefix)
    (plain : type = .plain → NoRequestObject
      (after ⟨c.client, defaults, submissionEndpoint⟩ calls).requestParameters)
    (retrieved : ∀ r jwt, type = .signedJwt r → request.2 = some jwt → ∃ t₁,
      w.retrieveUnverifiedJwt ⟨c.client.id.getFullId, r.indirection jwt⟩ t = (.ok jwt, t₁))
    (validated : w.validateRequest request.1 t = (.ok o, t'))

variable {c : SigningClient σ} {defaults : UntypedObject} {submissionEndpoint : Option Url}
  {calls : List Call} {w : Wallet τ} {o : AuthorizationRequestObject} {t' t'' : World τ} {uri : Url}
  {response : AuthorizationResponse} {u : Option Url}

omit [UuidCrate] [UrlFragment] [HttpStatus] in
/-- What is accepted of a request says what the builder was told. -/
theorem Accepted.says (h : Accepted c defaults submissionEndpoint calls w o t') :
    ∃ o', Says ⟨c.client, defaults, submissionEndpoint⟩ calls o' ∧
      (o = o'.ofForm ∨ o = o'.reread) := by
  obtain @⟨view, type, s, s', request, t, hb, hv, hc, hn, hj, ha⟩ := h
  obtain ⟨o', params, params', mode, hq, hr⟩ := exists_encoded_of_build hb hv
  have hvf : (after ⟨c.client, defaults, submissionEndpoint⟩ calls).verifier.client = c.client :=
    congrArg Verifier.client (after_fields _ calls).1
  rw [← hvf] at hc
  refine ⟨o', hq.says, ?_⟩
  cases hr with
  | plain => exact .inl ((hq.validateRequest_plain_iff hv hc (hn rfl)).mp ha).1
  | @signed jwt r hg =>
    obtain ⟨header, s₁, signature, -, ht⟩ := c.generateRequestObjectJwt_eq_ok hg
    obtain ⟨t₁, hj⟩ := hj r jwt rfl rfl
    dsimp only at ha
    rw [← hvf] at hj ha
    exact .inr ((hq.validateRequest_signed_iff hv hc ht hj).mp ha).1

/-- The query that the builder was given last, as its JSON is read. -/
inductive LastQuery (calls : List Call) : ResolvedPresentationQuery → Prop
  | dcql (hc : lastDcql calls = some given) (hd : lastDefinition calls = none)
    (hq : TypedParameter.tryFrom (jsonOf given) = .ok query) : LastQuery calls (.dcql query)
  | definition (hc : lastDcql calls = none) (hd : lastDefinition calls = some given)
    (hq : TypedParameter.tryFrom (jsonOf given) = .ok definition) :
    LastQuery calls (.presentationDefinition definition)

omit [UuidCrate] [UrlFragment] [HttpStatus] in
/-- An accepted request has the query that the verifier gave last. -/
theorem Accepted.presentationQuery_eq (h : Accepted c defaults submissionEndpoint calls w o t') :
    ∃ o', AsksForLast calls o' ∧ o.presentationQuery = o'.presentationQuery := by
  obtain ⟨o', hs, ho⟩ := h.says
  refine ⟨o', hs.query, ?_⟩
  rcases ho with rfl | rfl <;> rfl

omit [Base64Url] [UuidCrate] [UrlFragment] [HttpStatus] [FormUrlencoded] [SsiJws] [X509Cert] in
/-- A definition in the request is resolved without asking anybody. -/
theorem resolvePresentationQuery_byValue {definition : PresentationDefinition} {t : World τ}
    (h : o.presentationQuery = .presentationDefinition (.byValue definition)) :
    (Session.resolvePresentationQuery o).run w.answer t =
      (.ok (.presentationDefinition definition), t) :=
  Calls.run_eq_iff.mpr ⟨[], Session.finishes_resolvePresentationQuery_iff.mpr (.byValue h), .nil⟩

omit [UuidCrate] [UrlFragment] [HttpStatus] in
/-- A wallet that has accepted a request resolves the query that the verifier gave last, and asks
nobody for it. -/
theorem Accepted.resolves (h : Accepted c defaults submissionEndpoint calls w o t') :
    ∃ query, LastQuery calls query ∧
      (Session.resolvePresentationQuery o).run w.answer t' = (.ok query, t') := by
  obtain ⟨o', ha, hq⟩ := h.presentationQuery_eq
  cases ha with
  | dcql hl hd hr hp =>
    refine ⟨_, .dcql hl hd hr, Calls.run_eq_iff.mpr ⟨[], ?_, .nil⟩⟩
    exact Session.finishes_resolvePresentationQuery_iff.mpr (.dcql (hq.trans hp))
  | definition hl hd hr hp =>
    exact ⟨_, .definition hl hd hr, resolvePresentationQuery_byValue (hq.trans hp)⟩

omit [UuidCrate] [UrlFragment] [HttpStatus] in
/-- An accepted request is answered at the endpoint of the verifier. -/
theorem Accepted.submissionEndpoint_eq (h : Accepted c defaults submissionEndpoint calls w o t')
    (hu : o.returnUri = some uri) : submissionEndpoint = some uri := by
  obtain ⟨o', ho, ho'⟩ := h.says
  have hr : ReturnsToEndpoint submissionEndpoint o := by
    rcases ho' with rfl | rfl <;> exact ho.returnUri
  rw [ReturnsToEndpoint] at hr
  split at hr
  iterate 4
    obtain ⟨uri', he, hr⟩ := hr
    rw [he, ← hr, hu]
  iterate 2 exact absurd (hu.symm.trans hr) (Option.some_ne_none uri)
  exact absurd hr not_false

/-- The response to a request that was accepted comes to the endpoint of the verifier once, and is
read there as it was submitted if it is readable. -/
theorem Accepted.arrival (h : Accepted c defaults submissionEndpoint calls w o t')
    (hu : o.returnUri = some uri)
    (hs : w.submitResponse uri o.responseMode response t' = (.ok u, t''))
    (ht : ¬response.HasTransactionData) :
    ∃ endpoint text, submissionEndpoint = some endpoint ∧ Arrival endpoint text t' t'' u ∧
      (response.IsReadFrom text ↔ response.Readable) := by
  obtain ⟨text, hx, hi⟩ := Wallet.arrival_of_submitResponse hs ht
  exact ⟨uri, text, h.submissionEndpoint_eq hu, hx, hi⟩

/-- The verifier reads an ID token that the wallet generated for the request as one of the wallet's
DID, with the nonce that the builder was given. -/
theorem Accepted.idToken [TimeCrate] [Serialize JWK] [SsiDidUrls]
    {r : UnencodedAuthorizationResponse} {now : OffsetDateTime} {didUrl : DIDURLBuf}
    {params : IdTokenParams} {signer : Signer υ} {v v' : υ} {jwt : String} {token : IdToken}
    (h : Accepted c defaults submissionEndpoint calls w o t')
    (hg : generateDidBasedIdToken now didUrl params signer v = (.ok jwt, v'))
    (hp : params.nonce = o.nonce) (hj : IdToken.tryFromString jwt = .ok token)
    (hi : r.idToken = some token) (hu : o.returnUri = some uri)
    (hs : w.submitResponse uri o.responseMode (.unencoded r) t' = (.ok u, t''))
    (ht : ¬AuthorizationResponse.HasTransactionData (.unencoded r))
    (hr : AuthorizationResponse.Readable (.unencoded r)) :
    ∃ endpoint text r' token', submissionEndpoint = some endpoint ∧
      Arrival endpoint text t' t'' u ∧
      AuthorizationResponse.fromXWwwFormUrlencoded text = .ok (.unencoded r') ∧
      r'.idToken = some token' ∧ token'.parsed.issuer = SsiDidUrls.did didUrl ∧
      (after ⟨c.client, defaults, submissionEndpoint⟩ calls).requestParameters.get Nonce =
        some (.ok ⟨token'.parsed.nonce⟩) := by
  obtain ⟨text, hx, hiff⟩ := Wallet.arrival_of_submitResponse hs ht
  obtain ⟨r', hf, -, -, hi', -⟩ := hiff.mpr hr
  obtain ⟨hiss, -, -, hn, -⟩ := IdToken.parsed_of_generate hg hj
  refine ⟨uri, text, r', token, h.submissionEndpoint_eq hu, hx, hf, hi'.trans hi, hiss, ?_⟩
  obtain ⟨o', ho, ho'⟩ := h.says
  have ho' : o.nonce = o'.nonce := by
    rcases ho' with rfl | rfl <;> rfl
  rw [hn, hp, ho', ho.nonce]

end RequestBuilder
end

/-! ## A request that is answered -/

namespace Sample
open scoped Reference

/-- A wallet with a connection to the verifier. -/
def onlineWallet : Wallet Unit where
  metadata := wallet.metadata
  redirectUri _ _ := pure ()
  execute _ := pure ⟨200, .empty⟩
  generateNonce := pure none
  validateNonce _ := pure false

/-- A verifier that answers are posted to. -/
def postVerifier : Verifier Unit :=
  ⟨signingClient.client, verifier.defaultRequestParams, some responseUri⟩

/-- The wallet accepts a plain request without conditions on the formats. -/
theorem accepted_of_build {calls : List RequestBuilder.Call} {request : Url × Option String}
    (hb : (RequestBuilder.after postVerifier calls).build walletMetadata .plain () =
      (.ok request, ()))
    (hn : RequestBuilder.NoRequestObject
      (RequestBuilder.after postVerifier calls).requestParameters)
    (hp : (RequestBuilder.after postVerifier calls).requestParameters.get ResponseMode =
      some (.ok .directPost))
    (hc : (RequestBuilder.after postVerifier calls).requestParameters.get ClientMetadata =
      some (.ok ⟨.empty⟩)) :
    ∃ o t', RequestBuilder.Accepted signingClient verifier.defaultRequestParams (some responseUri)
      calls onlineWallet o t' ∧ o.responseMode = .directPost ∧ o.returnUri = some responseUri := by
  have hv : walletMetadata.Represents onlineWallet.metadata := represents_walletMetadata
  obtain ⟨o, params, params', mode, hq, hr⟩ := RequestBuilder.exists_encoded_of_build hb hv
  have hs := hq.says
  have hm : o.responseMode = .directPost :=
    (Except.ok.inj (Option.some.inj (hp.symm.trans hs.responseMode))).symm
  have hmd : o.clientMetadata = ⟨.empty⟩ :=
    (Except.ok.inj (Option.some.inj (hc.symm.trans hs.clientMetadata))).symm
  obtain ⟨uri, he, hu⟩ : ∃ uri, some responseUri = some uri ∧ o.returnUri = some uri := by
    have hr := hs.returnUri
    rwa [RequestBuilder.ReturnsToEndpoint, hm] at hr
  obtain rfl := Option.some.inj he
  have hvf := (RequestBuilder.after_fields postVerifier calls).1
  cases hr with
  | plain =>
    have ha : onlineWallet.validateRequest
        (o.intoUrl onlineWallet.metadata.authorizationEndpoint.url) ⟨(), []⟩ =
          (.ok o.ofForm, ⟨(), [.verified .redirectUri o.ofForm (.ok ())]⟩) := by
      refine (hq.validateRequest_plain_iff hv (by rw [hvf]; rfl) hn).mpr ⟨rfl, ?_, ?_⟩
      · have hr : o.ofForm.returnUri = some responseUri := hu
        rw [Wallet.authenticatePlain, hr]
        rfl
      · intro v hv
        rw [hmd] at hv
        cases hv
    exact ⟨o.ofForm, _, .intro hb hv rfl (fun _ => hn) (fun r jwt hr => by cases hr) ha, hm, hu⟩

/-- The wallet accepts the request for the DCQL query. -/
theorem accepted_postBuilder : ∃ o t', RequestBuilder.Accepted signingClient
    verifier.defaultRequestParams (some responseUri) (calls .directPost) onlineWallet o t' ∧
      o.responseMode = .directPost ∧ o.returnUri = some responseUri := by
  have hb : ∃ request, (RequestBuilder.after postVerifier (calls .directPost)).build walletMetadata
      .plain () = (.ok request, ()) := ⟨_, rfl⟩
  obtain ⟨request, hb⟩ := hb
  refine accepted_of_build hb ?_ rfl rfl
  intro k hk
  simp only [List.mem_cons, List.not_mem_nil, or_false] at hk
  rcases hk with rfl | rfl <;> rfl

/-- The wallet resolves the query of the verifier. -/
theorem resolves_postBuilder : ∃ (o : AuthorizationRequestObject) (t : World Unit),
    ∃ query, RequestBuilder.LastQuery (calls .directPost) query ∧
      (Session.resolvePresentationQuery o).run onlineWallet.answer t = (.ok query, t) := by
  obtain ⟨o, t, h, -⟩ := accepted_postBuilder
  exact ⟨o, t, h.resolves⟩

/-- A response that is submitted, with its token as a JSON object and perhaps an ID token. -/
def objectAnswer (idToken : Option IdToken) : UnencodedAuthorizationResponse where
  vpToken := ⟨[.jsonObject (.ofMembers [("pid", .string "credential")])]⟩
  presentationSubmission := none
  idToken := idToken
  state := some "state"
  transactionDataResponse := none

theorem readable_objectAnswer (idToken : Option IdToken) :
    AuthorizationResponse.Readable (.unencoded (objectAnswer idToken)) := by
  refine ⟨?_, fun s hs => by cases hs⟩
  rintro ⟨s, hs⟩
  cases hs

/-- The verifier reads the response of the wallet. -/
theorem arrival_postBuilder : ∃ text, ∃ s s' : World Unit, ∃ u,
    Arrival responseUri text s s' u ∧
      AuthorizationResponse.IsReadFrom text (.unencoded (objectAnswer none)) := by
  obtain ⟨o, t, h, hm, hu⟩ := accepted_postBuilder
  obtain ⟨u, s', hp⟩ : ∃ u s', onlineWallet.submitResponse responseUri o.responseMode
      (.unencoded (objectAnswer none)) t = (.ok u, s') := by
    rw [hm]
    exact ⟨_, _, rfl⟩
  obtain ⟨endpoint, text, he, hx, hi⟩ := h.arrival hu hp Bool.false_ne_true
  obtain rfl := Option.some.inj he
  exact ⟨text, _, _, u, hx, hi.mpr (readable_objectAnswer none)⟩

/-- The verifier reads the ID token of the holder. -/
theorem idToken_postBuilder : ∃ text r token,
    AuthorizationResponse.fromXWwwFormUrlencoded text = .ok (.unencoded r) ∧
      r.idToken = some token ∧ token.parsed.issuer = "did:example:holder" := by
  obtain ⟨o, t, h, hm, hu⟩ := accepted_postBuilder
  obtain ⟨jwt, hg⟩ : ∃ jwt, generateDidBasedIdToken signedAt holderDid
      { idTokenParams with nonce := o.nonce } holderSigner () = (.ok jwt, ()) := ⟨_, rfl⟩
  obtain ⟨time, algorithm, signature, s, -, ha, rfl⟩ := generateDidBasedIdToken_eq_ok hg
  cases ha
  obtain ⟨token, hj, -⟩ := (IdToken.exists_tryFromString_compactToken_iff
    (b := idTokenBody signedAt time holderDid { idTokenParams with nonce := o.nonce }) rfl).mpr
    ⟨rfl, List.forall_mem_singleton.mpr (by decide)⟩
  obtain ⟨u, s', hp⟩ : ∃ u s', onlineWallet.submitResponse responseUri o.responseMode
      (.unencoded (objectAnswer (some token))) t = (.ok u, s') := by
    rw [hm]
    exact ⟨_, _, rfl⟩
  obtain ⟨endpoint, text, r, token', -, -, hr, ht, hiss, -⟩ := h.idToken hg rfl hj rfl hu hp
    Bool.false_ne_true (readable_objectAnswer (some token))
  exact ⟨text, r, token', hr, ht, hiss⟩

end Sample
end OpenID4VP
