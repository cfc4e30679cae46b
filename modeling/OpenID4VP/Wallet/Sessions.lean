import OpenID4VP.Lib.Calls
import OpenID4VP.Wallet.SubmitResponse
import OpenID4VP.Wallet.ValidateRequest

/-! # Sessions

The functions of a wallet are asynchronous. They wait wherever they call a method that the author of
the wallet gives, and other sessions of the same wallet may go on meanwhile. A session is such a
function with its calls; run alone it is the function itself. -/

namespace OpenID4VP

section
variable [SerdeJson] [SerdeJsonPath] [JsonSchema] [UrlCrate] [Base64Url] [SsiJwt]

/-! ## What sessions call -/

/-- The methods of a wallet, and the state of its own that its method for tokens of the prefix
`redirect_uri` may read and replace. -/
inductive Operation (σ : Type)
  | get
  | set (s : σ)
  | verify (method : ClientIdPrefix) (request : AuthorizationRequestObject) (requestJwt : String)
  | redirectUri (request : AuthorizationRequestObject) (uri : Url)
  | execute (request : Request)
  | generateNonce
  | validateNonce (nonce : WalletNonce)

def Operation.Answer : Operation σ → Type
  | get => σ
  | set _ => Unit
  | verify .. | redirectUri .. => Except Error Unit
  | execute _ => Except Anyhow Response
  | generateNonce => Except Anyhow (Option WalletNonce)
  | validateNonce _ => Except Anyhow Bool

/-- The interface of a wallet. -/
@[reducible] def walletInterface (σ : Type) : Interface := ⟨Operation σ, Operation.Answer⟩

abbrev Session (σ ε α : Type) := Calls (walletInterface σ) ε α

/-- The method that authenticates tokens of a prefix. Those of `redirect_uri` have a method that
makes calls itself, see `VerifierProg`. -/
def Wallet.verifier (w : Wallet σ) :
    ClientIdPrefix → AuthorizationRequestObject → String → Prog σ Error Unit
  | .decentralizedIdentifier => w.decentralizedIdentifier
  | .openidFederation => w.openidFederation
  | .preRegistered => w.preregistered
  | .verifierAttestation => w.verifierAttestation
  | .origin => w.origin
  | .x509SanDns => w.x509SanDns
  | .x509Hash => w.x509Hash
  | .redirectUri => notSupported "redirect_uri"

/-- How the wallet answers a call. -/
def Wallet.answer (w : Wallet σ) : Calls.Handler (walletInterface σ) (World σ)
  | .get => fun world => (world.state, world)
  | .set s => fun world => ((), { world with state := s })
  | .verify method request jwt => callVerifier method (w.verifier method) request jwt
  | .redirectUri request uri => w.callRedirectUri request uri
  | .execute request => w.callExecute request
  | .generateNonce => w.callGenerateNonce
  | .validateNonce nonce => w.callValidateNonce nonce

namespace Session

/-! ## Requests -/

def verify (method : ClientIdPrefix) (request : AuthorizationRequestObject) (jwt : String) :
    Session σ Error Unit :=
  .call (.verify method request jwt) .done

def redirectUri (request : AuthorizationRequestObject) (uri : Url) : Session σ Error Unit :=
  .call (.redirectUri request uri) .done

def execute (request : Request) : Session σ Anyhow Response := .call (.execute request) .done

def generateNonce : Session σ Anyhow (Option WalletNonce) := .call .generateNonce .done

def validateNonce (nonce : WalletNonce) : Session σ Anyhow Bool :=
  .call (.validateNonce nonce) .done

/-- The session of a method that calls `redirect_uri`. -/
def ofVerifier : VerifierProg σ → Session σ Error Unit
  | .done outcome => .done outcome
  | .get next => .call .get fun s => ofVerifier (next s)
  | .set s next => .call (.set s) fun _ => ofVerifier next
  | .redirectUri request uri next =>
    .call (.redirectUri request uri) fun outcome => ofVerifier (next outcome)

def authenticatePlain (request : AuthorizationRequestObject) : Session σ Error Unit :=
  match request.returnUri with
  | some uri => redirectUri request uri
  | none =>
    if request.responseMode.isDcApi then .done (.ok ())
    else .done <| .error <| .protocolInvalidReq ("'response_uri/redirect_uri' is required " ++
      s!"when response_mode is '{request.responseMode}'") request.state

def authenticateJwt (w : Wallet σ) (request : AuthorizationRequestObject) (jwt : String) :
    Session σ Error Unit :=
  match request.clientId.idPrefix with
  | .redirectUri => ofVerifier (w.redirectUriJwt request jwt)
  | method => verify method request jwt

def verifyRequest (w : Wallet σ) :
    FetchedAuthorizationRequest → Session σ Error AuthorizationRequestObject
  | .plain request => do
    authenticatePlain request
    .done (validateRequestAgainstMetadata w.metadata request)
    return request
  | .unverifiedJwt jwt => do
    let request ← .done (decodeRequest jwt)
    authenticateJwt w request jwt
    .done (validateRequestAgainstMetadata w.metadata request)
    return request

variable [HttpCrate] [FormUrlencoded]

def getByReference (w : Wallet σ) (requestReference : RequestReference) :
    Session σ Error String := do
  let resp ← match requestReference.requestUriMethod.getD .get with
    | .get => do
      let request ← .done <| orInternal <|
        createGetRequest requestReference.requestUri mimeTypeOauthReqJwt
      .mapError .internal (execute request)
    | .post => do
      let generated ← .attempt generateNonce
      let body := postBody w.metadata (generated.toOption.getD none)
      let request ← .done <| orInternal <| createPostRequest requestReference.requestUri
        body.toUTF8 mimeTypeFormUrlencoded mimeTypeOauthReqJwt
      .mapError .internal (execute request)
  .done (httpRespToUnverifiedJwt resp)

def retrieveUnverifiedJwt (w : Wallet σ) (r : SignedAuthorizationRequest) :
    Session σ Error String :=
  match r.requestIndirection with
  | .byValue jwt => return jwt
  | .byReference requestReference => getByReference w requestReference

def validateWalletNonce (aro : AuthorizationRequestObject) : Session σ Error Unit :=
  match aro.inner.get WalletNonce with
  | none => return ()
  | some nonce => do
    let nonce ← .done (orInternal nonce)
    let valid ← .mapError .internal (validateNonce nonce)
    if valid then return ()
    else .done <| .error <|
      .protocol .invalidRequest (some "wallet_nonce validation did not pass") none none

def resolveAuthRequest (w : Wallet σ) (r : SignedAuthorizationRequest) :
    Session σ Error AuthorizationRequestObject := do
  let unverifiedJwt ← retrieveUnverifiedJwt w r
  let aro ← verifyRequest w (.unverifiedJwt unverifiedJwt)
  validateWalletNonce aro
  let received := aro.clientId.getFullId
  .done <| ensure (r.clientId = received) <| .protocolInvalidReq
    ("Authorization Request and Request Object have different client ids: " ++
      s!"'{r.clientId}' vs. '{received}'") aro.state
  return aro

def validate (w : Wallet σ) : AuthorizationRequest → Session σ Error AuthorizationRequestObject
  | .plain aro => verifyRequest w (.plain aro)
  | .signed r => resolveAuthRequest w r

def validateRequest (w : Wallet σ) (url : Url) :
    Session σ Error AuthorizationRequestObject := do
  let ar ← .done <|
    (AuthorizationRequest.fromUrl url w.metadata.authorizationEndpoint.url).mapError
      (.context "unable to parse authorization request")
  .mapError (.context "unable to validate authorization request") (validate w ar)

/-! ## Responses -/

section
variable [HttpStatus]

def postForm (responseUri : Url) (body : String) : Session σ Error (Option Url) := do
  let httpRequest ← .done <| orInternal <|
    createPostRequest responseUri body.toUTF8 mimeTypeFormUrlencoded mimeTypeJson
  let httpResponse ← .mapError
    (fun e => .internal (.context "failed to make authorization response request" e))
    (execute httpRequest)
  .done (ensure httpResponse.isSuccess (submissionError httpResponse))
  return (fromSlice httpResponse.body).toOption.map PostRedirection.redirectUri

variable [UuidCrate] [UrlFragment]

def submitResponse (responseUri : Url) (responseMode : ResponseMode)
    (response : AuthorizationResponse) : Session σ Error (Option Url) :=
  match responseMode with
  | .directPost => do postForm responseUri (← .done response.unencodedForm)
  | .directPostJwt => do postForm responseUri (← .done response.jwtForm)
  | .fragment | .fragmentJwt => do
    return some (UrlFragment.setFragment responseUri (← .done response.unencodedForm))
  | mode@.dcApi | mode@.dcApiJwt => .done <| .error <| .internal <| .msg
      s!"in response_mode {mode}, authorization response could not be submitted"
  | .unsupported mode =>
    .done <| .error <| .internal <| .msg s!"unsupported response_mode {mode}"

end

end Session
end

/-! ## Sessions that run alone -/

section
variable [SerdeJson] [SerdeJsonPath] [JsonSchema] [UrlCrate] [Base64Url] [SsiJwt]

namespace Session

variable {w : Wallet σ}

omit [SerdeJson] [Base64Url] in
theorem run_done {x : Except ε α} : (.done x : Session σ ε α).run w.answer = .ofExcept x := rfl

omit [SerdeJson] [Base64Url] in
theorem run_pure {a : α} : (pure a : Session σ ε α).run w.answer = pure a := rfl

omit [SerdeJson] [Base64Url] in
theorem run_ofVerifier (p : VerifierProg σ) :
    (ofVerifier p).run w.answer = w.runVerifier p := by
  funext s
  induction p generalizing s with
  | done outcome => rfl
  | get next ih => exact ih s.state s
  | set state next ih => exact ih { s with state := state }
  | redirectUri request uri next ih => exact ih _ (w.callRedirectUri request uri s).2

omit [SerdeJson] [Base64Url] in
theorem run_authenticatePlain (request : AuthorizationRequestObject) :
    (authenticatePlain request).run w.answer = w.authenticatePlain request := by
  rw [authenticatePlain, Wallet.authenticatePlain]
  cases request.returnUri with
  | some uri => rfl
  | none =>
    change Calls.run _ (ite _ _ _) = ite _ _ _
    split <;> rfl

omit [SerdeJson] [Base64Url] in
theorem run_authenticateJwt (request : AuthorizationRequestObject) (jwt : String) :
    (authenticateJwt w request jwt).run w.answer = w.authenticateJwt request jwt := by
  rw [authenticateJwt, Wallet.authenticateJwt]
  cases request.clientId.idPrefix with
  | redirectUri => exact run_ofVerifier _
  | _ => rfl

theorem run_verifyRequest (fetched : FetchedAuthorizationRequest) :
    (verifyRequest w fetched).run w.answer = w.verifyRequest fetched := by
  cases fetched with
  | plain request =>
    rw [verifyRequest, Calls.run_bind, run_authenticatePlain]
    simp only [Calls.run_bind, run_done, run_pure]
    rfl
  | unverifiedJwt jwt =>
    rw [verifyRequest]
    simp only [Calls.run_bind, run_done, run_pure, run_authenticateJwt]
    rfl

variable [HttpCrate] [FormUrlencoded]

omit [Base64Url] in
theorem run_getByReference (r : RequestReference) :
    (getByReference w r).run w.answer = w.getByReference r := by
  rw [getByReference, Wallet.getByReference]
  cases r.requestUriMethod.getD .get with
  | get =>
    simp only [Calls.run_bind, run_done, Calls.run_mapError]
    rfl
  | post =>
    simp only [Calls.run_bind, run_done, Calls.run_mapError, Calls.run_attempt]
    rfl

omit [Base64Url] in
theorem run_retrieveUnverifiedJwt (r : SignedAuthorizationRequest) :
    (retrieveUnverifiedJwt w r).run w.answer = w.retrieveUnverifiedJwt r := by
  rw [retrieveUnverifiedJwt, Wallet.retrieveUnverifiedJwt]
  cases r.requestIndirection with
  | byValue jwt => rfl
  | byReference reference => exact run_getByReference reference

omit [SerdeJson] [Base64Url] [HttpCrate] [FormUrlencoded] in
theorem run_validateWalletNonce (o : AuthorizationRequestObject) :
    (validateWalletNonce o).run w.answer = w.validateWalletNonce o := by
  rw [validateWalletNonce, Wallet.validateWalletNonce]
  cases o.inner.get WalletNonce with
  | none => rfl
  | some nonce =>
    simp only [Calls.run_bind, run_done, Calls.run_mapError]
    congr 1
    funext nonce
    congr 1
    funext valid
    cases valid <;> rfl

theorem run_resolveAuthRequest (r : SignedAuthorizationRequest) :
    (resolveAuthRequest w r).run w.answer = w.resolveAuthRequest r := by
  rw [resolveAuthRequest, Wallet.resolveAuthRequest]
  simp only [Calls.run_bind, run_done, run_pure, run_retrieveUnverifiedJwt, run_verifyRequest,
    run_validateWalletNonce]

theorem run_validate (r : AuthorizationRequest) :
    (validate w r).run w.answer = r.validate w := by
  rw [validate.eq_def, AuthorizationRequest.validate.eq_def]
  cases r with
  | plain aro => exact run_verifyRequest (.plain aro)
  | signed r => exact run_resolveAuthRequest r

/-- The session that validates a request is, alone, the function of the wallet. -/
theorem run_validateRequest (url : Url) :
    (validateRequest w url).run w.answer = w.validateRequest url := by
  rw [validateRequest, Wallet.validateRequest]
  simp only [Calls.run_bind, run_done, Calls.run_mapError, run_validate]

variable [HttpStatus]

omit [Base64Url] [FormUrlencoded] in
theorem run_postForm (uri : Url) (body : String) :
    (postForm uri body).run w.answer = w.postForm uri body := by
  rw [postForm, Wallet.postForm]
  simp only [Calls.run_bind, run_done, run_pure, Calls.run_mapError]
  rfl

variable [UuidCrate] [UrlFragment]

omit [Base64Url] in
/-- The session that submits a response is, alone, the function of the wallet. -/
theorem run_submitResponse (uri : Url) (mode : ResponseMode) (response : AuthorizationResponse) :
    (submitResponse uri mode response).run w.answer = w.submitResponse uri mode response := by
  cases mode with
  | directPost | directPostJwt =>
    rw [submitResponse, Wallet.submitResponse]
    simp only [Calls.run_bind, run_done, run_postForm]
  | fragment | fragmentJwt =>
    rw [submitResponse, Wallet.submitResponse]
    simp only [Calls.run_bind, run_done, run_pure]
  | dcApi | dcApiJwt | unsupported => rfl

end Session
end
end OpenID4VP
