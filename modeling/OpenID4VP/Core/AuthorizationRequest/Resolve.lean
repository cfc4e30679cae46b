import OpenID4VP.Core.AuthorizationRequest.Authentication
import OpenID4VP.Core.AuthorizationRequest.Request

/-! # Resolving signed requests

The request object of a signed request is in the request, or is fetched. It is verified, a wallet
nonce in it is validated, and its client id is compared with the one of the request. -/

namespace OpenID4VP

section
variable [SerdeJson] [SerdeJsonPath] [JsonSchema] [UrlCrate] [Base64Url] [SsiJwt] [HttpCrate]
  [FormUrlencoded]

/-- The body that asks for a request object with POST. -/
def postBody (walletMetadata : WalletMetadata) (nonce : Option WalletNonce) : String :=
  let body := "wallet_metadata=" ++ FormUrlencoded.byteSerialize (toJsonString walletMetadata)
  match nonce with
  | some nonce => s!"{body}&wallet_nonce={nonce.value}"
  | none => body

def httpRespToUnverifiedJwt (resp : Response) : Except Error String :=
  if resp.isSuccess then
    match String.fromUTF8? resp.body with
    | some jwt => return jwt
    | none => throw <| .internal <|
      .context "cannot parse authorization request object" (.library "std")
  else throw <| .internal (.msg "failed to get authorization request object")

namespace Wallet

variable (w : Wallet σ)

def getByReference (requestReference : RequestReference) : Prog (World σ) Error String := do
  let resp ← match requestReference.requestUriMethod.getD .get with
    | .get => do
      let request ← .ofExcept <| orInternal <|
        createGetRequest requestReference.requestUri mimeTypeOauthReqJwt
      .mapError .internal (w.callExecute request)
    | .post => do
      -- a wallet that gives no nonce, or fails to, has none sent
      let generated ← .attempt w.callGenerateNonce
      let body := postBody w.metadata (generated.toOption.getD none)
      let request ← .ofExcept <| orInternal <| createPostRequest requestReference.requestUri
        body.toUTF8 mimeTypeFormUrlencoded mimeTypeOauthReqJwt
      .mapError .internal (w.callExecute request)
  .ofExcept (httpRespToUnverifiedJwt resp)

def retrieveUnverifiedJwt (r : SignedAuthorizationRequest) : Prog (World σ) Error String :=
  match r.requestIndirection with
  | .byValue jwt => return jwt
  | .byReference requestReference => w.getByReference requestReference

/-- Have the wallet validate the nonce of a request object, if it has one. -/
def validateWalletNonce (aro : AuthorizationRequestObject) : Prog (World σ) Error Unit :=
  match aro.inner.get WalletNonce with
  | none => return ()
  | some nonce => do
    let nonce ← .ofExcept (orInternal nonce)
    let valid ← .mapError .internal (w.callValidateNonce nonce)
    if valid then return ()
    else throw <|
      .protocol .invalidRequest (some "wallet_nonce validation did not pass") none none

def resolveAuthRequest (r : SignedAuthorizationRequest) :
    Prog (World σ) Error AuthorizationRequestObject := do
  let unverifiedJwt ← w.retrieveUnverifiedJwt r
  let aro ← w.verifyRequest (.unverifiedJwt unverifiedJwt)
  w.validateWalletNonce aro
  let received := aro.clientId.getFullId
  .ofExcept <| ensure (r.clientId = received) <| .protocolInvalidReq
    ("Authorization Request and Request Object have different client ids: " ++
      s!"'{r.clientId}' vs. '{received}'") aro.state
  return aro

end Wallet

namespace AuthorizationRequest

def validate (request : AuthorizationRequest) (w : Wallet σ) :
    Prog (World σ) Error AuthorizationRequestObject :=
  match request with
  | .plain aro => w.verifyRequest (.plain aro)
  | .signed r => w.resolveAuthRequest r

end AuthorizationRequest

/-! ## Runs that succeed -/

namespace Wallet

variable {w : Wallet σ} {r : SignedAuthorizationRequest} {o : AuthorizationRequestObject}

omit [SerdeJson] [Base64Url] [HttpCrate] [FormUrlencoded] in
theorem validateWalletNonce_eq_ok_iff {s s' : World σ} :
    w.validateWalletNonce o s = (.ok (), s') ↔
      (o.inner.get WalletNonce = none ∧ s' = s) ∨
      ∃ nonce, o.inner.get WalletNonce = some (.ok nonce) ∧
        w.callValidateNonce nonce s = (.ok true, s') := by
  rw [validateWalletNonce]
  cases h : o.inner.get WalletNonce with
  | none => simp [eq_comm]
  | some x =>
    simp only [Prog.bind_eq_ok_iff, Prog.ofExcept_apply, Prod.mk.injEq, orInternal_eq_ok_iff,
      Prog.mapError_eq_ok_iff, Option.some.injEq, reduceCtorEq, false_and, false_or]
    constructor
    · rintro ⟨nonce, s₀, ⟨rfl, rfl⟩, valid, s₁, hv, ht⟩
      cases valid with
      | true =>
        obtain ⟨-, rfl⟩ := Prog.pure_eq_ok_iff.mp ht
        exact ⟨nonce, rfl, hv⟩
      | false => simp at ht
    · rintro ⟨nonce, rfl, hv⟩
      exact ⟨nonce, s, ⟨rfl, rfl⟩, true, s', hv, rfl⟩

/-- The request object of the request: what the run has when it comes to compare client ids. -/
structure Retrieves (w : Wallet σ) (r : SignedAuthorizationRequest) (s : World σ)
    (o : AuthorizationRequestObject) (s' : World σ) : Prop where
  run : ∃ jwt s₁ s₂, w.retrieveUnverifiedJwt r s = (.ok jwt, s₁) ∧
    w.verifyRequest (.unverifiedJwt jwt) s₁ = (.ok o, s₂) ∧
    w.validateWalletNonce o s₂ = (.ok (), s')

theorem resolveAuthRequest_eq_ok_iff {s s' : World σ} :
    w.resolveAuthRequest r s = (.ok o, s') ↔
      w.Retrieves r s o s' ∧ r.clientId = o.clientId.getFullId := by
  simp only [resolveAuthRequest, Prog.bind_eq_ok_iff, Prog.ofExcept_apply, Prod.mk.injEq,
    Prog.pure_eq_ok_iff, ensure_eq_ok_iff, decide_eq_true_eq]
  constructor
  · rintro ⟨jwt, s₁, hj, o', s₂, hv, _, s₃, hn, _, s₄, ⟨hc, rfl⟩, rfl, rfl⟩
    exact ⟨⟨jwt, s₁, s₂, hj, hv, hn⟩, hc⟩
  · rintro ⟨⟨jwt, s₁, s₂, hj, hv, hn⟩, hc⟩
    exact ⟨jwt, s₁, hj, o, s₂, hv, (), s', hn, (), s', ⟨hc, rfl⟩, rfl, rfl⟩

/-! ## Wallet nonces -/

/-- A wallet nonce went out in the body of a POST. -/
def NonceSent (w : Wallet σ) (log : List Event) : Prop :=
  ∃ request outcome nonce, .sent request outcome ∈ log ∧ request.method = .post ∧
    request.body = (postBody w.metadata (some nonce)).toUTF8

/-- A request whose request object was asked for with a wallet nonce is resolved only if the object
carries a wallet nonce that the wallet has accepted. -/
def ReplayProtected (w : Wallet σ) (r : SignedAuthorizationRequest) (s : σ) : Prop :=
  ∀ uri jwt s₁, r.requestIndirection = .byReference ⟨uri, some .post⟩ →
    w.getByReference ⟨uri, some .post⟩ ⟨s, []⟩ = (.ok jwt, s₁) → w.NonceSent s₁.log →
    ∀ o s', w.resolveAuthRequest r ⟨s, []⟩ = (.ok o, s') →
      ∃ nonce, o.inner.get WalletNonce = some (.ok nonce) ∧
        .nonceValidated nonce (.ok true) ∈ s'.log

/-- What the server answers to a request with a wallet nonce carries one, in any request object that
can be verified and has the client id of the request. -/
def AnswersWithNonce (w : Wallet σ) (r : SignedAuthorizationRequest) (s : σ) : Prop :=
  ∀ uri jwt s₁ o s₂, r.requestIndirection = .byReference ⟨uri, some .post⟩ →
    w.getByReference ⟨uri, some .post⟩ ⟨s, []⟩ = (.ok jwt, s₁) → w.NonceSent s₁.log →
    w.verifyRequest (.unverifiedJwt jwt) s₁ = (.ok o, s₂) → r.clientId = o.clientId.getFullId →
    o.inner.containsKey "wallet_nonce" = true

theorem replayProtected_iff {s : σ} : w.ReplayProtected r s ↔ w.AnswersWithNonce r s := by
  constructor
  · intro h uri jwt s₁ o s₂ hr hg hs hv hc
    by_contra hn
    have hw : o.inner.get WalletNonce = none :=
      UntypedObject.get_eq_none_iff.mpr (Bool.eq_false_iff.mpr hn)
    have hj : w.retrieveUnverifiedJwt r ⟨s, []⟩ = (.ok jwt, s₁) := by
      rwa [retrieveUnverifiedJwt, hr]
    have hn : w.validateWalletNonce o s₂ = (.ok (), s₂) :=
      validateWalletNonce_eq_ok_iff.mpr (.inl ⟨hw, rfl⟩)
    have hok := resolveAuthRequest_eq_ok_iff.mpr ⟨⟨jwt, s₁, s₂, hj, hv, hn⟩, hc⟩
    obtain ⟨nonce, hnonce, -⟩ := h uri jwt s₁ hr hg hs o s₂ hok
    rw [hw] at hnonce
    exact absurd hnonce (Option.some_ne_none _).symm
  · intro h uri jwt s₁ hr hg hs o s' hok
    obtain ⟨⟨jwt', s₁', s₂, hj, hv, hn⟩, hc⟩ := resolveAuthRequest_eq_ok_iff.mp hok
    rw [retrieveUnverifiedJwt, hr] at hj
    obtain ⟨rfl, rfl⟩ : jwt = jwt' ∧ s₁ = s₁' := by simpa using hg.symm.trans hj
    have hk := h uri jwt s₁ o s₂ hr hg hs hv hc
    rcases validateWalletNonce_eq_ok_iff.mp hn with ⟨hw, -⟩ | ⟨nonce, hw, hcall⟩
    · exact absurd hk (Bool.eq_false_iff.mp (UntypedObject.get_eq_none_iff.mp hw))
    · exact ⟨nonce, hw, mem_log_of_record hcall⟩

end Wallet
end

/-! ### An answer without a nonce -/

/-- A token that is answered is taken as it is. -/
theorem httpRespToUnverifiedJwt_token (jwt : String) :
    httpRespToUnverifiedJwt ⟨200, jwt.toUTF8⟩ = .ok jwt := by
  have h : String.fromUTF8? jwt.toUTF8 = some jwt := dif_pos jwt.isValidUTF8
  have hs : Response.isSuccess ⟨200, jwt.toUTF8⟩ = true := rfl
  rw [httpRespToUnverifiedJwt, if_pos hs, h]
  rfl

namespace Sample
open scoped Reference

/-- The token of a request. -/
def token (o : AuthorizationRequestObject) : String := Reference.token o.inner.toJson

theorem decodeRequest_token {o : AuthorizationRequestObject}
    (h : AuthorizationRequestObject.tryFrom o.inner = .ok o) : decodeRequest (token o) = .ok o := by
  rw [decodeRequest, token, Reference.decodeUnverified_token]
  simpa [fromTree, JsonMap.toJson] using h

/-- A wallet with a nonce of its own, and a server that answers with a token. -/
def nonceWallet (jwt : String) : Wallet Unit where
  metadata := wallet.metadata
  x509SanDns _ _ := pure ()
  execute _ := pure ⟨200, jwt.toUTF8⟩
  generateNonce := pure (some ⟨"fresh"⟩)
  validateNonce nonce := pure (nonce.value = "fresh")

def nonceReference : RequestReference := ⟨responseUri, some .post⟩

def nonceRequest : SignedAuthorizationRequest :=
  ⟨"x509_san_dns:verifier.example", .byReference nonceReference⟩

/-- The request for the request object, with the nonce. -/
def objectRequest (w : Wallet Unit) : Request where
  method := .post
  uri := "https://verifier.example/response"
  headers := [("content-type", "application/x-www-form-urlencoded"),
    ("accept", "application/oauth-authz-req+jwt")]
  body := (postBody w.metadata (some ⟨"fresh"⟩)).toUTF8

theorem getByReference_nonceWallet (jwt : String) :
    (nonceWallet jwt).getByReference nonceReference ⟨(), []⟩ =
      (.ok jwt, ⟨(), [.nonceGenerated (.ok (some ⟨"fresh"⟩)),
        .sent (objectRequest (nonceWallet jwt)) (.ok ⟨200, jwt.toUTF8⟩)]⟩) := by
  change (httpRespToUnverifiedJwt ⟨200, jwt.toUTF8⟩, _) = _
  rw [httpRespToUnverifiedJwt_token]
  rfl

theorem not_replayProtected_nonceRequest :
    ¬(nonceWallet (token x509Request)).ReplayProtected nonceRequest () := by
  intro h
  have hg := getByReference_nonceWallet (token x509Request)
  have hv : ∀ s : World Unit,
      (nonceWallet (token x509Request)).verifyRequest (.unverifiedJwt (token x509Request)) s =
        (.ok x509Request, ⟨(), s.log ++ [.verified .x509SanDns x509Request (.ok ())]⟩) :=
    fun s => Wallet.verifyRequest_jwt_eq_ok_iff.mpr ⟨decodeRequest_token rfl, rfl, rfl⟩
  have hn : ∀ s : World Unit,
      (nonceWallet (token x509Request)).validateWalletNonce x509Request s = (.ok (), s) :=
    fun s => rfl
  obtain ⟨nonce, hw, -⟩ := h responseUri _ _ rfl hg
    ⟨_, _, ⟨"fresh"⟩, List.mem_cons_of_mem _ List.mem_cons_self, rfl, rfl⟩ x509Request _
    (Wallet.resolveAuthRequest_eq_ok_iff.mpr ⟨⟨_, _, _, hg, hv _, hn _⟩, rfl⟩)
  exact nomatch hw

end Sample

section
variable [SerdeJson] [SerdeJsonPath] [JsonSchema] [UrlCrate] [Base64Url] [SsiJwt] [HttpCrate]
  [FormUrlencoded]

namespace Wallet

variable {w : Wallet σ} {r : SignedAuthorizationRequest} {o : AuthorizationRequestObject}

/-! ## Client ids -/

/-- A request whose request object has passed all other checks is accepted exactly when it has the
client id of the object, character for character. -/
def AcceptsSameClientId (w : Wallet σ) (r : SignedAuthorizationRequest) (s : σ) : Prop :=
  ∀ o s', w.Retrieves r ⟨s, []⟩ o s' →
    (w.resolveAuthRequest r ⟨s, []⟩ = (.ok o, s') ↔
      o.inner.get? "client_id" = some (.string r.clientId))

omit [HttpCrate] [FormUrlencoded] in
/-- The client id of a verified request object, as it stands there. -/
theorem clientId_of_decodeRequest {jwt : String} (h : decodeRequest jwt = .ok o) :
    ∃ c, o.inner.get? "client_id" = some (.string c) ∧ ClientId.new c = .ok o.clientId := by
  rw [decodeRequest] at h
  split at h
  · next value hd =>
    obtain ⟨rfl, hc, -⟩ := AuthorizationRequestObject.tryFrom_eq_ok_iff.mp h
    obtain ⟨x, hx, hc⟩ := UntypedObject.get_eq_some_iff.mp hc
    cases x with
    | string c => exact ⟨c, hx, hc⟩
    | _ => exact absurd hc Except.throw_ne_ok
  · exact absurd h Except.throw_ne_ok

theorem acceptsSameClientId_iff {s : σ} :
    w.AcceptsSameClientId r s ↔ ∀ o s', w.Retrieves r ⟨s, []⟩ o s' →
      ∀ c, o.inner.get? "client_id" = some (.string c) →
        ':' ∈ c.toList ∨ (r.clientId ≠ c ∧ r.clientId ≠ "pre-registered:" ++ c) := by
  have main : ∀ o s', w.Retrieves r ⟨s, []⟩ o s' →
      ((w.resolveAuthRequest r ⟨s, []⟩ = (.ok o, s') ↔
          o.inner.get? "client_id" = some (.string r.clientId)) ↔
        ∀ c, o.inner.get? "client_id" = some (.string c) →
          ':' ∈ c.toList ∨ (r.clientId ≠ c ∧ r.clientId ≠ "pre-registered:" ++ c)) := by
    intro o s' hr
    obtain ⟨jwt, _, _, -, hv, -⟩ := hr.run
    obtain ⟨c, hc, hn⟩ := clientId_of_decodeRequest (verifyRequest_jwt_eq_ok_iff.mp hv).1
    rw [resolveAuthRequest_eq_ok_iff, and_iff_right hr, hc]
    simp only [Option.some.injEq, Json.string.injEq, forall_eq']
    exact ClientId.eq_getFullId_iff_eq_iff hn
  exact forall₃_congr fun o s' hr => main o s' hr

end Wallet
end

/-! ### A client id without a prefix -/

namespace Sample
open scoped Reference

def preRegisteredRequest : AuthorizationRequestObject :=
  request ⟨"verifier", .preRegistered⟩ (requestObject "verifier")

def preRegisteredWallet : Wallet Unit where
  metadata := metadata [.string "pre-registered"] rfl
  preregistered _ _ := pure ()
  execute _ := throw (.msg "offline")
  generateNonce := pure none
  validateNonce _ := pure true

def sameIdRequest : SignedAuthorizationRequest :=
  ⟨"verifier", .byValue (token preRegisteredRequest)⟩

theorem not_acceptsSameClientId_sameIdRequest :
    ¬preRegisteredWallet.AcceptsSameClientId sameIdRequest () := by
  intro h
  have hv : preRegisteredWallet.verifyRequest (.unverifiedJwt (token preRegisteredRequest))
      ⟨(), []⟩ = (.ok preRegisteredRequest,
        ⟨(), [.verified .preRegistered preRegisteredRequest (.ok ())]⟩) :=
    Wallet.verifyRequest_jwt_eq_ok_iff.mpr ⟨decodeRequest_token rfl, rfl, rfl⟩
  have hn : ∀ s : World Unit,
      preRegisteredWallet.validateWalletNonce preRegisteredRequest s = (.ok (), s) :=
    fun s => rfl
  have hr := (h preRegisteredRequest _ ⟨_, _, _, rfl, hv, hn _⟩).mpr rfl
  have hc : "verifier" = "pre-registered:verifier" := (Wallet.resolveAuthRequest_eq_ok_iff.mp hr).2
  exact absurd hc (by decide)

end Sample
end OpenID4VP
