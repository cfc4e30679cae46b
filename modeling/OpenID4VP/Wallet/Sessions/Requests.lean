import OpenID4VP.Lib.Ledger
import OpenID4VP.Wallet.Sessions

/-! # What sessions that validate requests call

A session accepts a request after exactly the calls that retrieve its request object, authenticate
it and check its nonce. Before that it has made the first of them, and a nonce is validated at the
very end. -/

namespace OpenID4VP

section
variable [SerdeJson] [SerdeJsonPath] [JsonSchema] [UrlCrate] [Base64Url] [SsiJwt]

namespace Session

/-! ## Requests that are accepted -/

/-- The calls that authenticate a request in a token: its method accepts it. -/
inductive Authenticates (w : Wallet σ) (o : AuthorizationRequestObject) (jwt : String) :
    List (walletInterface σ).Call → Prop
  | method (hp : o.clientId.idPrefix ≠ .redirectUri) :
    Authenticates w o jwt [⟨.verify o.clientId.idPrefix o jwt, .ok ()⟩]
  | redirectUri {cs : List (walletInterface σ).Call} (hp : o.clientId.idPrefix = .redirectUri)
    (h : (ofVerifier (w.redirectUriJwt o jwt)).Finishes cs (.ok ())) : Authenticates w o jwt cs

/-- The calls that check the wallet nonce of a request object, if it has one. -/
inductive ChecksNonce (o : AuthorizationRequestObject) : List (walletInterface σ).Call → Prop
  | absent (h : o.inner.get WalletNonce = none) : ChecksNonce o []
  | valid (h : o.inner.get WalletNonce = some (.ok nonce)) :
    ChecksNonce o [⟨.validateNonce nonce, .ok true⟩]

variable [HttpCrate] [FormUrlencoded]

/-- The calls that retrieve the token of a request: none if it is in the request. -/
inductive Retrieves (w : Wallet σ) (r : SignedAuthorizationRequest) (jwt : String) :
    List (walletInterface σ).Call → Prop
  | byValue (h : r.requestIndirection = .byValue jwt) : Retrieves w r jwt []
  | get (h : r.requestIndirection = .byReference reference)
    (hm : reference.requestUriMethod.getD .get = .get)
    (hr : createGetRequest reference.requestUri mimeTypeOauthReqJwt = .ok request)
    (hj : httpRespToUnverifiedJwt resp = .ok jwt) : Retrieves w r jwt [⟨.execute request, .ok resp⟩]
  | post (h : r.requestIndirection = .byReference reference)
    (hm : reference.requestUriMethod.getD .get = .post)
    (hr : createPostRequest reference.requestUri
      (postBody w.metadata (generated.toOption.getD none)).toUTF8 mimeTypeFormUrlencoded
      mimeTypeOauthReqJwt = .ok request)
    (hj : httpRespToUnverifiedJwt resp = .ok jwt) :
    Retrieves w r jwt [⟨.generateNonce, generated⟩, ⟨.execute request, .ok resp⟩]

/-- The calls of a session that accepts `o`. A plain request is authenticated by `redirect_uri`, or
not at all if it is answered through the browser. -/
inductive Accepts (w : Wallet σ) (url : Url) (o : AuthorizationRequestObject) :
    List (walletInterface σ).Call → Prop
  | browser (hu : AuthorizationRequest.fromUrl url w.metadata.authorizationEndpoint.url =
      .ok (.plain o)) (hr : o.returnUri = none) (hm : o.responseMode.isDcApi = true)
    (hv : validateRequestAgainstMetadata w.metadata o = .ok ()) : Accepts w url o []
  | plain (hu : AuthorizationRequest.fromUrl url w.metadata.authorizationEndpoint.url =
      .ok (.plain o)) (hr : o.returnUri = some uri)
    (hv : validateRequestAgainstMetadata w.metadata o = .ok ()) :
    Accepts w url o [⟨.redirectUri o uri, .ok ()⟩]
  | signed (hu : AuthorizationRequest.fromUrl url w.metadata.authorizationEndpoint.url =
      .ok (.signed r)) (hj : Retrieves w r jwt retrieval) (hd : decodeRequest jwt = .ok o)
    (ha : Authenticates w o jwt authentication)
    (hv : validateRequestAgainstMetadata w.metadata o = .ok ()) (hn : ChecksNonce o nonce)
    (hc : r.clientId = o.clientId.getFullId) :
    Accepts w url o (retrieval ++ authentication ++ nonce)

/-- The calls that retrieve a token, as far as they have been made. -/
inductive Retrieving (w : Wallet σ) (r : SignedAuthorizationRequest) :
    List (walletInterface σ).Call → Prop
  | start : Retrieving w r []
  | get (h : r.requestIndirection = .byReference reference)
    (hm : reference.requestUriMethod.getD .get = .get)
    (hr : createGetRequest reference.requestUri mimeTypeOauthReqJwt = .ok request) :
    Retrieving w r [⟨.execute request, outcome⟩]
  | nonce : Retrieving w r [⟨.generateNonce, generated⟩]
  | post (h : r.requestIndirection = .byReference reference)
    (hm : reference.requestUriMethod.getD .get = .post)
    (hr : createPostRequest reference.requestUri
      (postBody w.metadata (generated.toOption.getD none)).toUTF8 mimeTypeFormUrlencoded
      mimeTypeOauthReqJwt = .ok request) :
    Retrieving w r [⟨.generateNonce, generated⟩, ⟨.execute request, outcome⟩]

/-- The calls that authenticate a request. -/
def IsAuthentication (c : (walletInterface σ).Call) : Prop :=
  match c.op with
  | .get | .set _ | .verify .. | .redirectUri .. => True
  | .execute _ | .generateNonce | .validateNonce _ => False

/-- How far a session has come. A nonce is validated at the very end. -/
inductive Progress (w : Wallet σ) (url : Url) : List (walletInterface σ).Call → Prop
  | plain {cs : List (walletInterface σ).Call} (h : ∀ c ∈ cs, IsAuthentication c) :
    Progress w url cs
  | retrieving (hu : AuthorizationRequest.fromUrl url w.metadata.authorizationEndpoint.url =
      .ok (.signed r)) (h : Retrieving w r retrieval) : Progress w url retrieval
  | authenticating (hu : AuthorizationRequest.fromUrl url w.metadata.authorizationEndpoint.url =
      .ok (.signed r)) (hj : Retrieves w r jwt retrieval)
    (ha : ∀ c ∈ authentication, IsAuthentication c) : Progress w url (retrieval ++ authentication)
  | validating (hu : AuthorizationRequest.fromUrl url w.metadata.authorizationEndpoint.url =
      .ok (.signed r)) (hj : Retrieves w r jwt retrieval) (hd : decodeRequest jwt = .ok o)
    (ha : Authenticates w o jwt authentication)
    (hv : validateRequestAgainstMetadata w.metadata o = .ok ())
    (hn : o.inner.get WalletNonce = some (.ok nonce)) :
    Progress w url (retrieval ++ authentication ++ [⟨.validateNonce nonce, outcome⟩])

/-- A call that sends a request. -/
def IsSent (c : (walletInterface σ).Call) : Prop :=
  match c.op with
  | .execute _ => True
  | _ => False

/-- A call that has a nonce validated. -/
def IsNonceCheck (c : (walletInterface σ).Call) : Prop :=
  match c.op with
  | .validateNonce _ => True
  | _ => False

/-- The request that asks for a request object, after these calls: a GET before any call, or a POST
with the nonce that the wallet has just generated. -/
inductive AsksForObject (w : Wallet σ) (r : SignedAuthorizationRequest) :
    Request → List (walletInterface σ).Call → Prop
  | get (h : r.requestIndirection = .byReference reference)
    (hm : reference.requestUriMethod.getD .get = .get)
    (hr : createGetRequest reference.requestUri mimeTypeOauthReqJwt = .ok request) :
    AsksForObject w r request []
  | post (h : r.requestIndirection = .byReference reference)
    (hm : reference.requestUriMethod.getD .get = .post)
    (hr : createPostRequest reference.requestUri
      (postBody w.metadata (generated.toOption.getD none)).toUTF8 mimeTypeFormUrlencoded
      mimeTypeOauthReqJwt = .ok request) :
    AsksForObject w r request [⟨.generateNonce, generated⟩]

/-- The calls after which a nonce is validated: those of a request object that was retrieved,
authenticated and checked against the metadata, with this nonce in it. -/
inductive Presents (w : Wallet σ) (url : Url) (nonce : WalletNonce) :
    List (walletInterface σ).Call → Prop
  | intro (hu : AuthorizationRequest.fromUrl url w.metadata.authorizationEndpoint.url =
      .ok (.signed r)) (hj : Retrieves w r jwt retrieval) (hd : decodeRequest jwt = .ok o)
    (ha : Authenticates w o jwt authentication)
    (hv : validateRequestAgainstMetadata w.metadata o = .ok ())
    (hn : o.inner.get WalletNonce = some (.ok nonce)) :
    Presents w url nonce (retrieval ++ authentication)

variable {w : Wallet σ} {o : AuthorizationRequestObject} {jwt : String}
  {t : List (walletInterface σ).Call}

section
omit [HttpCrate] [FormUrlencoded]

omit [SerdeJson] [Base64Url] [SsiJwt] in
theorem finishes_verify_iff {method : ClientIdPrefix} :
    (verify method o jwt).Finishes t (.ok ()) ↔ t = [⟨.verify method o jwt, .ok ()⟩] := by
  constructor
  · intro h
    obtain ⟨answer, t', rfl, hf⟩ := Calls.finishes_call_iff.mp h
    obtain ⟨rfl, ha⟩ := Calls.finishes_done_iff.mp hf
    rw [ha]
  · rintro rfl
    exact .call .refl

omit [SerdeJson] [Base64Url] in
theorem finishes_authenticateJwt_iff :
    (authenticateJwt w o jwt).Finishes t (.ok ()) ↔ Authenticates w o jwt t := by
  rw [authenticateJwt]
  constructor
  · intro h
    by_cases hp : o.clientId.idPrefix = .redirectUri
    · simp only [hp] at h
      exact .redirectUri hp h
    · have hm : (verify o.clientId.idPrefix o jwt).Finishes t (.ok ()) := by
        cases hc : o.clientId.idPrefix <;> simp only [hc] at h
        case redirectUri => exact absurd hc hp
        all_goals exact h
      rw [finishes_verify_iff.mp hm]
      exact .method hp
  · intro h
    cases h with
    | method hp =>
      have hm : (verify o.clientId.idPrefix o jwt : Session σ Error Unit).Finishes _ _ :=
        finishes_verify_iff.mpr rfl
      cases hc : o.clientId.idPrefix <;> rw [hc] at hm
      case redirectUri => exact absurd hc hp
      all_goals exact hm
    | redirectUri hp h => simpa only [hp] using h

omit [SerdeJson] [Base64Url] [SsiJwt] in
theorem finishes_validateWalletNonce_iff :
    (validateWalletNonce o : Session σ Error Unit).Finishes t (.ok ()) ↔ ChecksNonce o t := by
  rw [validateWalletNonce]
  constructor
  · intro h
    cases hn : o.inner.get WalletNonce with
    | none =>
      simp only [hn] at h
      obtain ⟨rfl, -⟩ := Calls.finishes_pure_iff.mp h
      exact .absent hn
    | some x =>
      simp only [hn] at h
      obtain ⟨nonce, hx, hb⟩ := Calls.finishes_done_bind_iff.mp h
      obtain rfl := orInternal_eq_ok_iff.mp hx
      obtain ⟨valid, t₁, t₂, rfl, hv, hr⟩ := Calls.finishes_bind_iff.mp hb
      obtain ⟨answer, t₃, rfl, ha⟩ := Calls.finishes_call_iff.mp (Calls.finishes_mapError_iff.mp hv)
      obtain ⟨rfl, rfl⟩ := Calls.finishes_done_iff.mp ha
      cases valid with
      | true =>
        obtain ⟨rfl, -⟩ := Calls.finishes_pure_iff.mp hr
        exact .valid hn
      | false => cases (Calls.finishes_done_iff.mp hr).2
  · intro h
    cases h with
    | absent hn =>
      simp only [hn]
      exact .refl
    | valid hn =>
      simp only [hn]
      exact .call .refl

theorem finishes_verifyRequest_jwt_iff :
    (verifyRequest w (.unverifiedJwt jwt)).Finishes t (.ok o) ↔
      decodeRequest jwt = .ok o ∧ Authenticates w o jwt t ∧
        validateRequestAgainstMetadata w.metadata o = .ok () := by
  have hr : ∀ request, (.done (validateRequestAgainstMetadata w.metadata request) >>= fun _ =>
      pure request : Session σ Error _) = .done (validateRequestAgainstMetadata w.metadata request
        >>= fun _ => .ok request) := fun request => Calls.done_bind_done
  simp only [verifyRequest, hr, Calls.finishes_done_bind_iff, Calls.finishes_bind_done_iff,
    Except.bind_eq_ok_iff]
  constructor
  · rintro ⟨request, hd, _, ha, _, hv, ho⟩
    cases ho
    exact ⟨hd, finishes_authenticateJwt_iff.mp ha, hv⟩
  · rintro ⟨hd, ha, hv⟩
    exact ⟨o, hd, (), finishes_authenticateJwt_iff.mpr ha, (), hv, rfl⟩

theorem finishes_verifyRequest_plain_iff {o' : AuthorizationRequestObject} :
    (verifyRequest w (.plain o)).Finishes t (.ok o') ↔
      o' = o ∧ (authenticatePlain o).Finishes t (.ok ()) ∧
        validateRequestAgainstMetadata w.metadata o = .ok () := by
  have hr : (.done (validateRequestAgainstMetadata w.metadata o) >>= fun _ =>
      pure o : Session σ Error _) = .done (validateRequestAgainstMetadata w.metadata o
        >>= fun _ => .ok o) := Calls.done_bind_done
  simp only [verifyRequest, hr, Calls.finishes_bind_done_iff, Except.bind_eq_ok_iff]
  constructor
  · rintro ⟨_, ha, _, hv, ho⟩
    cases ho
    exact ⟨rfl, ha, hv⟩
  · rintro ⟨rfl, ha, hv⟩
    exact ⟨(), ha, (), hv, rfl⟩

end

omit [SerdeJson] [Base64Url] [SsiJwt] [HttpCrate] [FormUrlencoded] in
theorem finishes_execute_iff {f : Anyhow → ε} {request : Request} {resp : Response} :
    ((execute request : Session σ Anyhow Response).mapError f).Finishes t (.ok resp) ↔
      t = [⟨.execute request, .ok resp⟩] := by
  rw [Calls.finishes_mapError_iff]
  constructor
  · intro h
    obtain ⟨answer, t', rfl, ha⟩ := Calls.finishes_call_iff.mp h
    obtain ⟨rfl, rfl⟩ := Calls.finishes_done_iff.mp ha
    rfl
  · rintro rfl
    exact .call .refl

omit [Base64Url] in
theorem finishes_getByReference_iff {reference : RequestReference} {r : SignedAuthorizationRequest}
    (hi : r.requestIndirection = .byReference reference) :
    (getByReference w reference).Finishes t (.ok jwt) ↔ Retrieves w r jwt t := by
  rw [getByReference]
  constructor
  · intro h
    cases hm : reference.requestUriMethod.getD .get with
    | get =>
      simp only [hm, Calls.finishes_done_bind_iff, Calls.finishes_bind_done_iff] at h
      obtain ⟨request, hr, resp, hx, hj⟩ := h
      rw [finishes_execute_iff.mp hx]
      exact .get hi hm (orInternal_eq_ok_iff.mp hr) hj
    | post =>
      simp only [hm] at h
      obtain ⟨generated, t₁, t₂, rfl, hg, hb⟩ := Calls.finishes_bind_iff.mp h
      obtain ⟨answer, t₃, rfl, ha⟩ := Calls.finishes_call_iff.mp (Calls.finishes_attempt_iff.mp hg)
      obtain ⟨rfl, rfl⟩ := Calls.finishes_done_iff.mp ha
      simp only [Calls.finishes_done_bind_iff, Calls.finishes_bind_done_iff] at hb
      obtain ⟨request, hr, resp, hx, hj⟩ := hb
      rw [finishes_execute_iff.mp hx]
      exact .post hi hm (orInternal_eq_ok_iff.mp hr) hj
  · intro h
    cases h with
    | byValue h => cases hi.symm.trans h
    | @get _ request resp h hm hr hj =>
      cases hi.symm.trans h
      simp only [hm, Calls.finishes_done_bind_iff, Calls.finishes_bind_done_iff]
      exact ⟨request, orInternal_eq_ok_iff.mpr hr, resp, finishes_execute_iff.mpr rfl, hj⟩
    | @post _ request resp generated h hm hr hj =>
      cases hi.symm.trans h
      simp only [hm]
      refine Calls.finishes_bind_iff.mpr ⟨generated, _, _, rfl (a := [_] ++ [_]),
        Calls.finishes_attempt_iff.mpr (.call .refl), ?_⟩
      simp only [Calls.finishes_done_bind_iff, Calls.finishes_bind_done_iff]
      exact ⟨request, orInternal_eq_ok_iff.mpr hr, resp, finishes_execute_iff.mpr rfl, hj⟩

omit [Base64Url] in
theorem finishes_retrieveUnverifiedJwt_iff {r : SignedAuthorizationRequest} :
    (retrieveUnverifiedJwt w r).Finishes t (.ok jwt) ↔ Retrieves w r jwt t := by
  rw [retrieveUnverifiedJwt]
  cases hi : r.requestIndirection with
  | byReference reference => exact finishes_getByReference_iff hi
  | byValue jwt' =>
    rw [Calls.finishes_pure_iff, Except.ok.injEq]
    constructor
    · rintro ⟨rfl, rfl⟩
      exact .byValue hi
    · intro h
      cases h with
      | byValue h =>
        cases hi.symm.trans h
        exact ⟨rfl, rfl⟩
      | get h | post h => cases hi.symm.trans h

theorem finishes_resolveAuthRequest_iff {r : SignedAuthorizationRequest} :
    (resolveAuthRequest w r).Finishes t (.ok o) ↔ ∃ jwt retrieval authentication nonce,
      Retrieves w r jwt retrieval ∧ decodeRequest jwt = .ok o ∧
      Authenticates w o jwt authentication ∧
      validateRequestAgainstMetadata w.metadata o = .ok () ∧ ChecksNonce o nonce ∧
      r.clientId = o.clientId.getFullId ∧ t = retrieval ++ authentication ++ nonce := by
  rw [resolveAuthRequest, Calls.finishes_bind_iff]
  constructor
  · rintro ⟨jwt, t₁, t₂, rfl, hj, h⟩
    obtain ⟨o', t₃, t₄, rfl, hv, h⟩ := Calls.finishes_bind_iff.mp h
    obtain ⟨_, t₅, t₆, rfl, hn, h⟩ := Calls.finishes_bind_iff.mp h
    obtain ⟨_, hc, h⟩ := Calls.finishes_done_bind_iff.mp h
    obtain ⟨rfl, ho⟩ := Calls.finishes_pure_iff.mp h
    cases ho
    obtain ⟨hd, ha, hm⟩ := finishes_verifyRequest_jwt_iff.mp hv
    have hc : r.clientId = o.clientId.getFullId := of_decide_eq_true (ensure_eq_ok_iff.mp hc)
    exact ⟨jwt, t₁, t₃, t₅, finishes_retrieveUnverifiedJwt_iff.mp hj, hd, ha, hm,
      finishes_validateWalletNonce_iff.mp hn, hc, by simp⟩
  · rintro ⟨jwt, retrieval, authentication, nonce, hj, hd, ha, hm, hn, hc, rfl⟩
    refine ⟨jwt, retrieval, _, List.append_assoc .., finishes_retrieveUnverifiedJwt_iff.mpr hj, ?_⟩
    have hv := finishes_verifyRequest_jwt_iff.mpr ⟨hd, ha, hm⟩
    refine Calls.finishes_bind_iff.mpr ⟨o, authentication, nonce, rfl, hv, ?_⟩
    refine Calls.finishes_bind_iff.mpr ⟨(), nonce, [], (List.append_nil _).symm,
      finishes_validateWalletNonce_iff.mpr hn, ?_⟩
    refine Calls.finishes_done_bind_iff.mpr ⟨(), ?_, .refl⟩
    exact ensure_eq_ok_iff.mpr (decide_eq_true hc)

/-- A session that has accepted a request has made exactly the calls for that. -/
theorem finishes_validateRequest_iff {url : Url} :
    (validateRequest w url).Finishes t (.ok o) ↔ Accepts w url o t := by
  rw [validateRequest, Calls.finishes_done_bind_iff]
  constructor
  · rintro ⟨ar, hu, h⟩
    rw [Except.mapError_eq_ok_iff] at hu
    rw [Calls.finishes_mapError_iff, validate.eq_def] at h
    cases ar with
    | plain request =>
      obtain ⟨rfl, ha, hv⟩ := finishes_verifyRequest_plain_iff.mp h
      rw [authenticatePlain] at ha
      cases hr : o.returnUri with
      | some uri =>
        simp only [hr] at ha
        obtain ⟨answer, t', rfl, hd⟩ := Calls.finishes_call_iff.mp ha
        obtain ⟨rfl, rfl⟩ := Calls.finishes_done_iff.mp hd
        exact .plain hu hr hv
      | none =>
        simp only [hr] at ha
        by_cases hm : o.responseMode.isDcApi = true
        · rw [if_pos hm] at ha
          obtain ⟨rfl, -⟩ := Calls.finishes_done_iff.mp ha
          exact .browser hu hr hm hv
        · rw [if_neg hm] at ha
          cases (Calls.finishes_done_iff.mp ha).2
    | signed r =>
      obtain ⟨jwt, retrieval, authentication, nonce, hj, hd, ha, hm, hn, hc, rfl⟩ :=
        finishes_resolveAuthRequest_iff.mp h
      exact .signed hu hj hd ha hm hn hc
  · intro h
    cases h with
    | browser hu hr hm hv =>
      refine ⟨.plain o, Except.mapError_eq_ok_iff.mpr hu, Calls.finishes_mapError_iff.mpr ?_⟩
      refine finishes_verifyRequest_plain_iff.mpr ⟨rfl, ?_, hv⟩
      simp only [authenticatePlain, hr, if_pos hm]
      exact .refl
    | plain hu hr hv =>
      refine ⟨.plain o, Except.mapError_eq_ok_iff.mpr hu, Calls.finishes_mapError_iff.mpr ?_⟩
      refine finishes_verifyRequest_plain_iff.mpr ⟨rfl, ?_, hv⟩
      simp only [authenticatePlain, hr]
      exact .call .refl
    | @signed r jwt retrieval authentication nonce hu hj hd ha hv hn hc =>
      refine ⟨.signed r, Except.mapError_eq_ok_iff.mpr hu, Calls.finishes_mapError_iff.mpr ?_⟩
      exact finishes_resolveAuthRequest_iff.mpr
        ⟨jwt, retrieval, authentication, nonce, hj, hd, ha, hv, hn, hc, rfl⟩

/-! ## Requests that are under way -/

section
omit [HttpCrate] [FormUrlencoded]

omit [SerdeJson] [Base64Url] [SsiJwt] in
theorem isAuthentication_of_ofVerifier {p : VerifierProg σ} (h : (ofVerifier p).Does t) :
    ∀ c ∈ t, IsAuthentication c := by
  induction p generalizing t with
  | done outcome =>
    obtain rfl := Calls.does_done_iff.mp h
    exact List.forall_mem_nil _
  | get next ih =>
    rcases Calls.does_call_iff.mp h with rfl | ⟨answer, t', rfl, hn⟩
    · exact List.forall_mem_nil _
    · exact List.forall_mem_cons.mpr ⟨trivial, ih answer hn⟩
  | set s next ih =>
    rcases Calls.does_call_iff.mp h with rfl | ⟨answer, t', rfl, hn⟩
    · exact List.forall_mem_nil _
    · exact List.forall_mem_cons.mpr ⟨trivial, ih hn⟩
  | redirectUri request uri next ih =>
    rcases Calls.does_call_iff.mp h with rfl | ⟨answer, t', rfl, hn⟩
    · exact List.forall_mem_nil _
    · exact List.forall_mem_cons.mpr ⟨trivial, ih answer hn⟩

omit [SerdeJson] [Base64Url] in
theorem isAuthentication_of_authenticateJwt (h : (authenticateJwt w o jwt).Does t) :
    ∀ c ∈ t, IsAuthentication c := by
  have hm : ∀ method, (verify method o jwt : Session σ Error Unit).Does t →
      ∀ c ∈ t, IsAuthentication c := by
    intro method h
    rcases Calls.does_call_iff.mp h with rfl | ⟨answer, t', rfl, hn⟩
    · exact List.forall_mem_nil _
    · obtain rfl := Calls.does_done_iff.mp hn
      exact List.forall_mem_singleton.mpr trivial
  rw [authenticateJwt] at h
  cases hc : o.clientId.idPrefix <;> simp only [hc] at h
  case redirectUri => exact isAuthentication_of_ofVerifier h
  all_goals exact hm _ h

omit [SerdeJson] [Base64Url] [SsiJwt] in
theorem isAuthentication_of_authenticatePlain
    (h : (authenticatePlain o : Session σ Error Unit).Does t) : ∀ c ∈ t, IsAuthentication c := by
  rw [authenticatePlain] at h
  cases hr : o.returnUri with
  | some uri =>
    simp only [hr] at h
    rcases Calls.does_call_iff.mp h with rfl | ⟨answer, t', rfl, hn⟩
    · exact List.forall_mem_nil _
    · obtain rfl := Calls.does_done_iff.mp hn
      exact List.forall_mem_singleton.mpr trivial
  | none =>
    simp only [hr] at h
    have ht : t = [] := by
      split at h <;> exact Calls.does_done_iff.mp h
    subst ht
    exact List.forall_mem_nil _

theorem isAuthentication_of_verifyRequest {fetched : FetchedAuthorizationRequest}
    (h : (verifyRequest w fetched).Does t) : ∀ c ∈ t, IsAuthentication c := by
  have hr : ∀ request, (.done (validateRequestAgainstMetadata w.metadata request) >>= fun _ =>
      pure request : Session σ Error _) = .done (validateRequestAgainstMetadata w.metadata request
        >>= fun _ => .ok request) := fun request => Calls.done_bind_done
  cases fetched with
  | plain request =>
    simp only [verifyRequest, hr] at h
    exact isAuthentication_of_authenticatePlain (Calls.does_bind_done h)
  | unverifiedJwt jwt =>
    simp only [verifyRequest, hr] at h
    rcases Calls.does_done_bind h with rfl | ⟨request, -, hd⟩
    · exact List.forall_mem_nil _
    · exact isAuthentication_of_authenticateJwt (Calls.does_bind_done hd)

end

omit [SerdeJson] [Base64Url] [SsiJwt] [HttpCrate] [FormUrlencoded] in
theorem does_execute {f : Anyhow → ε} {request : Request}
    (h : ((execute request : Session σ Anyhow Response).mapError f).Does t) :
    t = [] ∨ ∃ outcome, t = [⟨.execute request, outcome⟩] := by
  rcases Calls.does_call_iff.mp (Calls.does_mapError_iff.mp h) with rfl | ⟨outcome, t', rfl, hn⟩
  · exact .inl rfl
  · obtain rfl := Calls.does_done_iff.mp hn
    exact .inr ⟨outcome, rfl⟩

omit [Base64Url] in
theorem retrieving_of_retrieveUnverifiedJwt {r : SignedAuthorizationRequest}
    (h : (retrieveUnverifiedJwt w r).Does t) : Retrieving w r t := by
  rw [retrieveUnverifiedJwt] at h
  cases hi : r.requestIndirection with
  | byValue jwt =>
    simp only [hi] at h
    obtain rfl := Calls.does_done_iff.mp h
    exact .start
  | byReference reference =>
    simp only [hi, getByReference] at h
    cases hm : reference.requestUriMethod.getD .get with
    | get =>
      simp only [hm] at h
      rcases Calls.does_done_bind h with rfl | ⟨request, hr, hd⟩
      · exact .start
      · rcases does_execute (Calls.does_bind_done hd) with rfl | ⟨outcome, rfl⟩
        · exact .start
        · exact .get hi hm (orInternal_eq_ok_iff.mp hr)
    | post =>
      simp only [hm] at h
      rcases Calls.does_bind h with hg | ⟨generated, t₁, t₂, rfl, hg, hb⟩
      · rcases Calls.does_call_iff.mp (Calls.does_attempt_iff.mp hg) with
          rfl | ⟨generated, t', rfl, hn⟩
        · exact .start
        · obtain rfl := Calls.does_done_iff.mp hn
          exact .nonce
      · obtain ⟨answer, t₃, rfl, ha⟩ :=
          Calls.finishes_call_iff.mp (Calls.finishes_attempt_iff.mp hg)
        obtain ⟨rfl, rfl⟩ := Calls.finishes_done_iff.mp ha
        rcases Calls.does_done_bind hb with rfl | ⟨request, hr, hd⟩
        · exact .nonce
        · rcases does_execute (Calls.does_bind_done hd) with rfl | ⟨outcome, rfl⟩
          · exact .nonce
          · exact .post hi hm (orInternal_eq_ok_iff.mp hr)

omit [SerdeJson] [Base64Url] [SsiJwt] [HttpCrate] [FormUrlencoded] in
theorem does_validateWalletNonce (h : (validateWalletNonce o : Session σ Error Unit).Does t) :
    t = [] ∨ ∃ nonce outcome, o.inner.get WalletNonce = some (.ok nonce) ∧
      t = [⟨.validateNonce nonce, outcome⟩] := by
  rw [validateWalletNonce] at h
  cases hn : o.inner.get WalletNonce with
  | none =>
    simp only [hn] at h
    exact .inl (Calls.does_done_iff.mp h)
  | some x =>
    simp only [hn] at h
    rcases Calls.does_done_bind h with rfl | ⟨nonce, hx, hb⟩
    · exact .inl rfl
    · obtain rfl := orInternal_eq_ok_iff.mp hx
      have hv : ((validateNonce nonce : Session σ Anyhow Bool).mapError Error.internal).Does t := by
        rcases Calls.does_bind hb with hv | ⟨valid, t₁, t₂, rfl, hv, hr⟩
        · exact hv
        · have ht : t₂ = [] := by
            split at hr <;> exact Calls.does_done_iff.mp hr
          rw [ht, List.append_nil]
          exact hv.does
      rcases Calls.does_call_iff.mp (Calls.does_mapError_iff.mp hv) with
        rfl | ⟨outcome, t', rfl, hd⟩
      · exact .inl rfl
      · obtain rfl := Calls.does_done_iff.mp hd
        exact .inr ⟨nonce, outcome, rfl, rfl⟩

/-- Whatever has become of it, a session has called no more than this. -/
theorem progress_of_validateRequest {url : Url} (h : (validateRequest w url).Does t) :
    Progress w url t := by
  rw [validateRequest] at h
  rcases Calls.does_done_bind h with rfl | ⟨ar, hu, hv⟩
  · exact .plain (List.forall_mem_nil _)
  rw [Except.mapError_eq_ok_iff] at hu
  rw [Calls.does_mapError_iff, validate.eq_def] at hv
  cases ar with
  | plain request => exact .plain (isAuthentication_of_verifyRequest hv)
  | signed r =>
    simp only [resolveAuthRequest] at hv
    rcases Calls.does_bind hv with hj | ⟨jwt, retrieval, t₂, rfl, hj, hr⟩
    · exact .retrieving hu (retrieving_of_retrieveUnverifiedJwt hj)
    have hj := finishes_retrieveUnverifiedJwt_iff.mp hj
    rcases Calls.does_bind hr with ha | ⟨o, authentication, t₃, rfl, ha, hn⟩
    · exact .authenticating hu hj (isAuthentication_of_verifyRequest ha)
    have hd := finishes_verifyRequest_jwt_iff.mp ha
    have hc : (validateWalletNonce o : Session σ Error Unit).Does t₃ := by
      rcases Calls.does_bind hn with hn | ⟨_, t₄, t₅, rfl, hn, hc⟩
      · exact hn
      · have ht : t₅ = [] := by
          rcases Calls.does_done_bind hc with rfl | ⟨_, -, hc⟩
          · rfl
          · exact Calls.does_done_iff.mp hc
        rw [ht, List.append_nil]
        exact hn.does
    rcases does_validateWalletNonce hc with rfl | ⟨nonce, outcome, hw, rfl⟩
    · rw [List.append_nil]
      exact .authenticating hu hj (isAuthentication_of_verifyRequest ha.does)
    · rw [← List.append_assoc]
      exact .validating hu hj hd.1 hd.2.1 hd.2.2 hw

/-! ## What leaves a session -/

omit [SerdeJson] [Base64Url] [SsiJwt] [HttpCrate] [FormUrlencoded] in
theorem IsAuthentication.not_isSent {c : (walletInterface σ).Call} (h : IsAuthentication c) :
    ¬IsSent c := by
  obtain ⟨op, answer⟩ := c
  cases op <;> first | exact not_false | exact fun _ => h

omit [SerdeJson] [Base64Url] [SsiJwt] [HttpCrate] [FormUrlencoded] in
theorem IsAuthentication.not_isNonceCheck {c : (walletInterface σ).Call} (h : IsAuthentication c) :
    ¬IsNonceCheck c := by
  obtain ⟨op, answer⟩ := c
  cases op <;> first | exact not_false | exact fun _ => h

omit [Base64Url] in
theorem Retrieves.retrieving {r : SignedAuthorizationRequest} (h : Retrieves w r jwt t) :
    Retrieving w r t := by
  cases h with
  | byValue => exact .start
  | get h hm hr => exact .get h hm hr
  | post h hm hr => exact .post h hm hr

omit [Base64Url] in
theorem Retrieving.not_isNonceCheck {r : SignedAuthorizationRequest} (h : Retrieving w r t) :
    ∀ c ∈ t, ¬IsNonceCheck c := by
  cases h with
  | start => exact List.forall_mem_nil _
  | get | nonce => exact List.forall_mem_singleton.mpr not_false
  | post => exact List.forall_mem_cons.mpr ⟨not_false, List.forall_mem_singleton.mpr not_false⟩

omit [HttpCrate] [FormUrlencoded] [SerdeJson] [Base64Url] in
theorem Authenticates.isAuthentication (h : Authenticates w o jwt t) :
    ∀ c ∈ t, IsAuthentication c := by
  cases h with
  | method => exact List.forall_mem_singleton.mpr trivial
  | redirectUri _ h => exact isAuthentication_of_ofVerifier h.does

/-- The calls that retrieve a token come first, and none of the others sends a request. -/
theorem Progress.retrieval {url : Url} (h : Progress w url t) : (∀ c ∈ t, ¬IsSent c) ∨
    ∃ r retrieval rest, AuthorizationRequest.fromUrl url w.metadata.authorizationEndpoint.url =
      .ok (.signed r) ∧ Retrieving w r retrieval ∧ t = retrieval ++ rest ∧
      ∀ c ∈ rest, ¬IsSent c := by
  cases h with
  | plain h => exact .inl fun c hc => (h c hc).not_isSent
  | retrieving hu h => exact .inr ⟨_, t, [], hu, h, (List.append_nil t).symm, List.forall_mem_nil _⟩
  | authenticating hu hj ha =>
    exact .inr ⟨_, _, _, hu, hj.retrieving, rfl, fun c hc => (ha c hc).not_isSent⟩
  | validating hu hj _ ha =>
    refine .inr ⟨_, _, _, hu, hj.retrieving, List.append_assoc .., ?_⟩
    exact List.forall_mem_append.mpr ⟨fun c hc => (ha.isAuthentication c hc).not_isSent,
      List.forall_mem_singleton.mpr not_false⟩

omit [Base64Url] in
/-- A request object is asked for once. -/
theorem Retrieving.asksForObject {r : SignedAuthorizationRequest}
    {before after : List (walletInterface σ).Call} {request : Request}
    {outcome : Except Anyhow Response}
    (h : Retrieving w r (before ++ ⟨.execute request, outcome⟩ :: after)) :
    AsksForObject w r request before ∧ after = [] := by
  generalize hl : before ++ ⟨.execute request, outcome⟩ :: after = retrieval at h
  cases h with
  | start => exact absurd hl (List.append_ne_nil_of_right_ne_nil _ (List.cons_ne_nil _ _))
  | get hi hm hr =>
    obtain ⟨rfl, hx, rfl⟩ := append_cons_eq_concat [] hl List.not_mem_nil
    cases hx
    exact ⟨.get hi hm hr, rfl⟩
  | nonce =>
    obtain ⟨-, hx, -⟩ := append_cons_eq_concat [] hl List.not_mem_nil
    cases hx
  | @post _ _ generated _ hi hm hr =>
    have hg : (⟨.execute request, outcome⟩ : (walletInterface σ).Call) ∉
        [⟨.generateNonce, generated⟩] := fun hm => by cases List.mem_singleton.mp hm
    obtain ⟨rfl, hx, rfl⟩ := append_cons_eq_concat [_] hl hg
    cases hx
    exact ⟨.post hi hm hr, rfl⟩

/-- A session for a request sends one request at most, for the request object. -/
theorem Progress.asksForObject {url : Url} {before after : List (walletInterface σ).Call}
    {request : Request} {outcome : Except Anyhow Response}
    (h : Progress w url (before ++ ⟨.execute request, outcome⟩ :: after)) :
    (∃ r, AuthorizationRequest.fromUrl url w.metadata.authorizationEndpoint.url = .ok (.signed r) ∧
      AsksForObject w r request before) ∧ ∀ c ∈ after, ¬IsSent c := by
  rcases h.retrieval with hs | ⟨r, retrieval, rest, hu, hr, ht, hs⟩
  · exact absurd trivial (hs _ (List.mem_append_right _ List.mem_cons_self))
  obtain ⟨zs, rfl, rfl⟩ := append_cons_eq_append ht fun hm => hs _ hm trivial
  obtain ⟨ha, rfl⟩ := hr.asksForObject
  exact ⟨⟨r, hu, ha⟩, hs⟩

/-- A nonce is validated at the very end of a session. -/
theorem Progress.presented {url : Url} {before after : List (walletInterface σ).Call}
    {nonce : WalletNonce} {outcome : Except Anyhow Bool}
    (h : Progress w url (before ++ ⟨.validateNonce nonce, outcome⟩ :: after)) :
    Presents w url nonce before ∧ after = [] := by
  generalize hl : before ++ ⟨.validateNonce nonce, outcome⟩ :: after = cs at h
  have hx : ⟨.validateNonce nonce, outcome⟩ ∈ cs := hl ▸ List.mem_append_right _ List.mem_cons_self
  cases h with
  | plain h => exact absurd trivial (h _ hx).not_isNonceCheck
  | retrieving hu h => exact absurd trivial (h.not_isNonceCheck _ hx)
  | authenticating hu hj ha =>
    rcases List.mem_append.mp hx with hx | hx
    · exact absurd trivial (hj.retrieving.not_isNonceCheck _ hx)
    · exact absurd trivial (ha _ hx).not_isNonceCheck
  | @validating r jwt retrieval o authentication nonce' _ hu hj hd ha hv hn =>
    have hr : ∀ c ∈ retrieval ++ authentication, ¬IsNonceCheck c :=
      List.forall_mem_append.mpr ⟨hj.retrieving.not_isNonceCheck,
        fun c hc => (ha.isAuthentication c hc).not_isNonceCheck⟩
    obtain ⟨rfl, hc, rfl⟩ := append_cons_eq_concat _ hl fun hm => hr _ hm trivial
    cases hc
    exact ⟨.intro hu hj hd ha hv hn, rfl⟩

end Session
end
end OpenID4VP
