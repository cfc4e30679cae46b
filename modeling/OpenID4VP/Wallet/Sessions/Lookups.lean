import OpenID4VP.Core.AuthorizationRequest.PresentationQuery
import OpenID4VP.Core.PresentationDefinition.RoundTrip
import OpenID4VP.Wallet.Sessions.Requests

/-! # What sessions that look something up call

A wallet resolves the query of a request that it has accepted, with one request at most. It may also
look up where a signed request is to be answered, before it is authenticated: the nonce of the
request object is validated then, too. -/

namespace OpenID4VP

section
variable [SerdeJson] [SerdeJsonPath] [JsonSchema] [UrlCrate] [Base64Url] [SsiJwt] [HttpCrate]
  [FormUrlencoded]

namespace Session

/-! ## The sessions -/

omit [Base64Url] [SsiJwt] [FormUrlencoded] in
/-- The HTTP client is that of the wallet. -/
def resolvePresentationQuery (o : AuthorizationRequestObject) :
    Session σ Error ResolvedPresentationQuery :=
  match o.presentationQuery with
  | .dcql dcql => return .dcql dcql
  | .presentationDefinition (.byValue pd) => return .presentationDefinition pd
  | .presentationDefinition (.byReference url) => do
    let request ← .done (orInternal (createGetRequest url mimeTypeJson))
    let resp ← .mapError .internal (execute request)
    .done (readDefinition o.state resp)

/-- The request object in a token, which nobody authenticates. -/
def decodeObject (jwt : String) : Except Error AuthorizationRequestObject :=
  match (SsiJwt.decodeUnverified jwt).bind fromTree with
  | some value => AuthorizationRequestObject.tryFrom value
  | none =>
    let e : Anyhow := .library "ssi"
    throw <| .internal <| .msg
      s!"unable to decode Authorization Request Object JWT: {e.toString}"

def resolveResponseUriAndMode (w : Wallet σ) (r : SignedAuthorizationRequest) :
    Session σ Error (Option Url × ResponseMode) := do
  let jwt ← retrieveUnverifiedJwt w r
  let aro ← .done (decodeObject jwt)
  validateWalletNonce aro
  return (aro.returnUri, aro.responseMode)

/-! ## What they call -/

/-- The calls of a session that resolves the query of a request, with the outcome of it. -/
inductive Resolves (o : AuthorizationRequestObject) :
    Except Error ResolvedPresentationQuery → List (walletInterface σ).Call → Prop
  | dcql (h : o.presentationQuery = .dcql query) : Resolves o (.ok (.dcql query)) []
  | byValue (h : o.presentationQuery = .presentationDefinition (.byValue pd)) :
    Resolves o (.ok (.presentationDefinition pd)) []
  | notUri (h : o.presentationQuery = .presentationDefinition (.byReference uri))
    (hr : createGetRequest uri mimeTypeJson = .error e) : Resolves o (.error (.internal e)) []
  | unanswered (h : o.presentationQuery = .presentationDefinition (.byReference uri))
    (hr : createGetRequest uri mimeTypeJson = .ok request) :
    Resolves o (.error (.internal e)) [⟨.execute request, .error e⟩]
  | answered (h : o.presentationQuery = .presentationDefinition (.byReference uri))
    (hr : createGetRequest uri mimeTypeJson = .ok request) :
    Resolves o (readDefinition o.state resp) [⟨.execute request, .ok resp⟩]

/-- The request for the document that a request names as its presentation definition. -/
def IsFetched (o : AuthorizationRequestObject) (request : Request) : Prop :=
  ∃ uri, o.presentationQuery = .presentationDefinition (.byReference uri) ∧
    createGetRequest uri mimeTypeJson = .ok request

/-- The calls of a session that has looked up where to answer a request, with the request object
that says so: they retrieve it and check its nonce, and none of them authenticates it. -/
inductive Locates (w : Wallet σ) (r : SignedAuthorizationRequest) (o : AuthorizationRequestObject) :
    List (walletInterface σ).Call → Prop
  | intro (hj : Retrieves w r jwt retrieval) (hd : decodeObject jwt = .ok o)
    (hn : ChecksNonce o nonce) : Locates w r o (retrieval ++ nonce)

/-- How far a session that looks up where to answer has come. -/
inductive Locating (w : Wallet σ) (r : SignedAuthorizationRequest) :
    List (walletInterface σ).Call → Prop
  | retrieving (h : Retrieving w r retrieval) : Locating w r retrieval
  | validating (hj : Retrieves w r jwt retrieval) (hd : decodeObject jwt = .ok o)
    (hn : o.inner.get WalletNonce = some (.ok nonce)) :
    Locating w r (retrieval ++ [⟨.validateNonce nonce, outcome⟩])

variable {w : Wallet σ} {o : AuthorizationRequestObject} {jwt : String}
  {t : List (walletInterface σ).Call}

/-! ## Queries -/

section
omit [Base64Url] [SsiJwt] [FormUrlencoded]

/-- The session ends as its one call was answered. -/
theorem finishes_resolvePresentationQuery_iff {x : Except Error ResolvedPresentationQuery} :
    (resolvePresentationQuery o).Finishes t x ↔ Resolves o x t := by
  rw [resolvePresentationQuery.eq_def]
  constructor
  · intro h
    cases hq : o.presentationQuery with
    | dcql query =>
      simp only [hq] at h
      obtain ⟨rfl, rfl⟩ := Calls.finishes_pure_iff.mp h
      exact .dcql hq
    | presentationDefinition definition =>
      cases definition with
      | byValue pd =>
        simp only [hq] at h
        obtain ⟨rfl, rfl⟩ := Calls.finishes_pure_iff.mp h
        exact .byValue hq
      | byReference uri =>
        simp only [hq] at h
        cases hr : createGetRequest uri mimeTypeJson with
        | error e =>
          rw [hr] at h
          obtain ⟨rfl, rfl⟩ := Calls.finishes_done_iff.mp h
          exact .notUri hq hr
        | ok request =>
          rw [hr] at h
          obtain ⟨answer, t', rfl, ha⟩ := Calls.finishes_call_iff.mp h
          cases answer with
          | error e =>
            obtain ⟨rfl, rfl⟩ := Calls.finishes_done_iff.mp ha
            exact .unanswered hq hr
          | ok resp =>
            obtain ⟨rfl, rfl⟩ := Calls.finishes_done_iff.mp ha
            exact .answered hq hr
  · intro h
    cases h with
    | dcql hq | byValue hq =>
      simp only [hq]
      exact .refl
    | notUri hq hr =>
      simp only [hq, hr]
      exact .refl
    | unanswered hq hr | answered hq hr =>
      simp only [hq, hr]
      exact .call .refl

/-- Whatever has become of it, a session has asked for a document once or not at all. -/
theorem does_resolvePresentationQuery (h : (resolvePresentationQuery o).Does t) :
    t = [] ∨ ∃ request outcome, IsFetched o request ∧ t = [⟨.execute request, outcome⟩] := by
  rw [resolvePresentationQuery.eq_def] at h
  cases hq : o.presentationQuery with
  | dcql query =>
    simp only [hq] at h
    exact .inl (Calls.does_done_iff.mp h)
  | presentationDefinition definition =>
    cases definition with
    | byValue pd =>
      simp only [hq] at h
      exact .inl (Calls.does_done_iff.mp h)
    | byReference uri =>
      simp only [hq] at h
      rcases Calls.does_done_bind h with rfl | ⟨request, hr, hd⟩
      · exact .inl rfl
      · rcases does_execute (Calls.does_bind_done hd) with rfl | ⟨outcome, rfl⟩
        · exact .inl rfl
        · exact .inr ⟨request, outcome, ⟨uri, hq, orInternal_eq_ok_iff.mp hr⟩, rfl⟩

/-- A definition that is named by its URI is the one in the document that answers the one request
for it. -/
theorem finishes_resolvePresentationQuery_byReference_iff {uri : Url}
    {q : ResolvedPresentationQuery}
    (hq : o.presentationQuery = .presentationDefinition (.byReference uri)) :
    (resolvePresentationQuery o).Finishes t (.ok q) ↔ ∃ request resp x d, IsFetched o request ∧
      t = [⟨.execute request, .ok resp⟩] ∧ resp.isSuccess = true ∧
      valueFromSlice resp.body = .ok x ∧ TypedParameter.tryFrom x = .ok d ∧
      q = .presentationDefinition d := by
  rw [finishes_resolvePresentationQuery_iff]
  constructor
  · intro h
    generalize hy : Except.ok q = y at h
    cases h with
    | dcql h | byValue h => cases hq.symm.trans h
    | notUri | unanswered => cases hy
    | answered h hr =>
      obtain ⟨hs, x, d, hx, hd, rfl⟩ := readDefinition_eq_ok_iff.mp hy.symm
      exact ⟨_, _, x, d, ⟨_, h, hr⟩, rfl, hs, hx, hd, rfl⟩
  · rintro ⟨request, resp, x, d, ⟨uri', h, hr⟩, rfl, hs, hx, hd, rfl⟩
    rw [← readDefinition_eq_ok_iff.mpr ⟨hs, x, d, hx, hd, rfl⟩]
    exact .answered h hr

end

omit [SsiJwt] [FormUrlencoded] in
/-- A request that names its definition by a URI is resolved as the same request is that has the
document in the place of the URI, and that needs no call to be resolved. -/
theorem finishes_resolvePresentationQuery_inlined_iff {value : UntypedObject}
    {q : ResolvedPresentationQuery} (ho : AuthorizationRequestObject.tryFrom value = .ok o)
    (hu : value.containsKey "presentation_definition_uri" = true) :
    (resolvePresentationQuery o : Session σ Error _).Finishes t (.ok q) ↔
      ∃ request resp x o', IsFetched o request ∧ t = [⟨.execute request, .ok resp⟩] ∧
        resp.isSuccess = true ∧ valueFromSlice resp.body = .ok x ∧
        AuthorizationRequestObject.tryFrom (AuthorizationRequestObject.inlined value x) = .ok o' ∧
        o' = { o with inner := o'.inner, presentationQuery := o'.presentationQuery } ∧
        (resolvePresentationQuery o' : Session σ Error _).Finishes [] (.ok q) := by
  have h := AuthorizationRequestObject.tryFrom_eq_ok_iff.mp ho
  obtain ⟨uri, hq⟩ := h.byReference hu
  rw [finishes_resolvePresentationQuery_byReference_iff hq]
  constructor
  · rintro ⟨request, resp, x, d, hf, rfl, hs, hx, hd, rfl⟩
    rw [← toValue_of_valueFromSlice hx] at hd
    have ho' := (AuthorizationRequestObject.readFrom_inlined_iff h hq).mpr ⟨d, hd, rfl⟩
    exact ⟨request, resp, x, _, hf, rfl, hs, hx,
      AuthorizationRequestObject.tryFrom_eq_ok_iff.mpr ho', rfl,
      finishes_resolvePresentationQuery_iff.mpr (.byValue rfl)⟩
  · rintro ⟨request, resp, x, o', hf, rfl, hs, hx, ho', -, hr⟩
    obtain ⟨d, hd, rfl⟩ := (AuthorizationRequestObject.readFrom_inlined_iff h hq).mp <|
      AuthorizationRequestObject.tryFrom_eq_ok_iff.mp ho'
    rw [toValue_of_valueFromSlice hx] at hd
    refine ⟨request, resp, x, d, hf, rfl, hs, hx, hd, ?_⟩
    -- the request with the document has its definition by value
    have hr := finishes_resolvePresentationQuery_iff.mp hr
    generalize hy : Except.ok q = y at hr
    cases hr with
    | dcql h => cases h
    | byValue h =>
      cases h
      exact Except.ok.inj hy
    | notUri => cases hy

/-! ## Where to answer -/

section
omit [HttpCrate] [FormUrlencoded]

theorem decodeObject_eq_ok_iff : decodeObject jwt = .ok o ↔ decodeRequest jwt = .ok o := by
  rw [decodeObject, decodeRequest]
  cases (SsiJwt.decodeUnverified jwt).bind (fromTree : Json → Option UntypedObject) with
  | some value => exact Iff.rfl
  | none => exact iff_of_false Except.throw_ne_ok Except.throw_ne_ok

end

theorem finishes_resolveResponseUriAndMode_iff {r : SignedAuthorizationRequest}
    {x : Option Url × ResponseMode} : (resolveResponseUriAndMode w r).Finishes t (.ok x) ↔
      ∃ o, Locates w r o t ∧ x = (o.returnUri, o.responseMode) := by
  rw [resolveResponseUriAndMode, Calls.finishes_bind_iff]
  constructor
  · rintro ⟨jwt, t₁, t₂, rfl, hj, h⟩
    obtain ⟨o, hd, h⟩ := Calls.finishes_done_bind_iff.mp h
    obtain ⟨_, t₃, t₄, rfl, hn, h⟩ := Calls.finishes_bind_iff.mp h
    obtain ⟨rfl, hx⟩ := Calls.finishes_pure_iff.mp h
    rw [List.append_nil]
    exact ⟨o, .intro (finishes_retrieveUnverifiedJwt_iff.mp hj) hd
      (finishes_validateWalletNonce_iff.mp hn), (Except.ok.inj hx).symm⟩
  · rintro ⟨o, h, rfl⟩
    cases h with
    | @intro jwt retrieval nonce hj hd hn =>
      refine ⟨jwt, retrieval, nonce, rfl, finishes_retrieveUnverifiedJwt_iff.mpr hj, ?_⟩
      refine Calls.finishes_done_bind_iff.mpr ⟨o, hd, ?_⟩
      exact Calls.finishes_bind_iff.mpr ⟨(), nonce, [], (List.append_nil _).symm,
        finishes_validateWalletNonce_iff.mpr hn, .refl⟩

theorem locating_of_resolveResponseUriAndMode {r : SignedAuthorizationRequest}
    (h : (resolveResponseUriAndMode w r).Does t) : Locating w r t := by
  rw [resolveResponseUriAndMode] at h
  rcases Calls.does_bind h with hj | ⟨jwt, retrieval, t₂, rfl, hj, h⟩
  · exact .retrieving (retrieving_of_retrieveUnverifiedJwt hj)
  have hj := finishes_retrieveUnverifiedJwt_iff.mp hj
  rcases Calls.does_done_bind h with rfl | ⟨o, hd, h⟩
  · rw [List.append_nil]
    exact .retrieving hj.retrieving
  rcases does_validateWalletNonce (Calls.does_bind_done h) with rfl | ⟨nonce, outcome, hn, rfl⟩
  · rw [List.append_nil]
    exact .retrieving hj.retrieving
  · exact .validating hj hd hn

/-- A request object is asked for once. -/
theorem Locating.asksForObject {r : SignedAuthorizationRequest}
    {before after : List (walletInterface σ).Call} {request : Request}
    {outcome : Except Anyhow Response}
    (h : Locating w r (before ++ ⟨.execute request, outcome⟩ :: after)) :
    AsksForObject w r request before ∧ ∀ c ∈ after, ¬IsSent c := by
  generalize hl : before ++ ⟨.execute request, outcome⟩ :: after = t at h
  cases h with
  | retrieving h =>
    subst hl
    obtain ⟨ha, rfl⟩ := h.asksForObject
    exact ⟨ha, List.forall_mem_nil _⟩
  | @validating jwt retrieval o nonce valid hj hd hn =>
    have hs : ∀ c ∈ [(⟨.validateNonce nonce, valid⟩ : (walletInterface σ).Call)], ¬IsSent c :=
      List.forall_mem_singleton.mpr not_false
    obtain ⟨zs, rfl, rfl⟩ := append_cons_eq_append hl fun hm => hs _ hm trivial
    obtain ⟨ha, rfl⟩ := hj.retrieving.asksForObject
    exact ⟨ha, hs⟩

/-- A nonce is validated at the very end, of an object that was retrieved. -/
theorem Locating.presented {r : SignedAuthorizationRequest}
    {before after : List (walletInterface σ).Call} {nonce : WalletNonce}
    {outcome : Except Anyhow Bool}
    (h : Locating w r (before ++ ⟨.validateNonce nonce, outcome⟩ :: after)) :
    (∃ jwt o, Retrieves w r jwt before ∧ decodeObject jwt = .ok o ∧
      o.inner.get WalletNonce = some (.ok nonce)) ∧ after = [] := by
  generalize hl : before ++ ⟨.validateNonce nonce, outcome⟩ :: after = t at h
  have hx : ⟨.validateNonce nonce, outcome⟩ ∈ t := hl ▸ List.mem_append_right _ List.mem_cons_self
  cases h with
  | retrieving h => exact absurd trivial (h.not_isNonceCheck _ hx)
  | validating hj hd hn =>
    obtain ⟨rfl, hc, rfl⟩ := append_cons_eq_concat _ hl fun hm =>
      hj.retrieving.not_isNonceCheck _ hm trivial
    cases hc
    exact ⟨⟨_, _, hj, hd, hn⟩, rfl⟩

/-- Where a request that a session accepts is to be answered is what it is looked up as, with the
calls that do not authenticate it. -/
theorem Accepts.locates {url : Url} {r : SignedAuthorizationRequest} (h : Accepts w url o t)
    (hu : AuthorizationRequest.fromUrl url w.metadata.authorizationEndpoint.url =
      .ok (.signed r)) : ∃ retrieval authentication nonce,
      t = retrieval ++ authentication ++ nonce ∧ Locates w r o (retrieval ++ nonce) ∧
      ∀ c ∈ authentication, IsAuthentication c := by
  cases h with
  | browser hu' | plain hu' => cases hu.symm.trans hu'
  | signed hu' hj hd ha _ hn =>
    cases hu.symm.trans hu'
    exact ⟨_, _, _, rfl, .intro hj (decodeObject_eq_ok_iff.mpr hd) hn, ha.isAuthentication⟩

end Session
end

/-! ## A definition in a document -/

namespace Sample
open scoped Reference

/-- The document with the definition. -/
def definitionDocument : Response := ⟨200, (SerdeJson.print (toTree nestedDefinition)).toUTF8⟩

/-- The request names its definition by the URI of the document. -/
theorem finishes_definitionDocument : ∃ request x o',
    (Session.resolvePresentationQuery x509Request : Session Unit Error _).Finishes
      [⟨.execute request, .ok definitionDocument⟩]
      (.ok (.presentationDefinition nestedDefinition)) ∧
    AuthorizationRequestObject.tryFrom
      (AuthorizationRequestObject.inlined x509Request.inner x) = .ok o' ∧
    (Session.resolvePresentationQuery o' : Session Unit Error _).Finishes []
      (.ok (.presentationDefinition nestedDefinition)) := by
  have hc := nestedDefinition_canonical
  obtain ⟨request, hr⟩ : ∃ request, createGetRequest definitionUri mimeTypeJson = .ok request :=
    ⟨_, rfl⟩
  have hx : valueFromSlice definitionDocument.body = .ok (toTree nestedDefinition) := by
    have hb : definitionDocument.body = (SerdeJson.print (toTree nestedDefinition)).toUTF8 := by
      rw [definitionDocument]
    rw [hb]
    exact valueFromSlice_print hc.wellFormed_toTree
  have hd : TypedParameter.tryFrom (toTree nestedDefinition) = .ok nestedDefinition :=
    fromValue_eq_ok_iff.mpr (hc.fromTree_toTree_iff.mpr nestedDefinition_hasFields)
  have hf := Session.finishes_resolvePresentationQuery_byReference_iff (σ := Unit)
    (o := x509Request) rfl |>.mpr ⟨request, definitionDocument, _, _, ⟨_, rfl, hr⟩, rfl, rfl,
      hx, hd, rfl⟩
  obtain ⟨request', resp, x, o', -, ht, -, -, ho', -, hq⟩ :=
    (Session.finishes_resolvePresentationQuery_inlined_iff tryFrom_x509Request rfl).mp hf
  exact ⟨request, x, o', hf, ho', hq⟩

end Sample
end OpenID4VP
