import OpenID4VP.Lib.Prog
import OpenID4VP.Core.Http
import OpenID4VP.Core.Metadata
import OpenID4VP.Core.AuthorizationRequest.Object

/-! # Wallets

A wallet is its metadata and the methods that its author gives it. The methods work on a state of
the wallet's own. What the methods were called with, and what they returned, is kept in a log. -/

namespace OpenID4VP

variable [SerdeJson] [SerdeJsonPath] [JsonSchema] [UrlCrate] [Base64Url] [SsiJwt]

/-! ## What is called -/

/-- A call of one of the wallet's methods, with its outcome. The methods that authenticate a
request are named by the client id prefix they belong to. -/
inductive Event
  | verified (method : ClientIdPrefix) (request : AuthorizationRequestObject)
    (outcome : Except Error Unit)
  | sent (request : Request) (outcome : Except Anyhow Response)
  | nonceGenerated (outcome : Except Anyhow (Option WalletNonce))
  | nonceValidated (nonce : WalletNonce) (outcome : Except Anyhow Bool)

/-- The state of a wallet, and the calls of its methods up to now. -/
abbrev World (σ : Type) := Recorded σ Event

/-! ## Methods -/

/-- A method that calls `redirect_uri`: it may read and replace the wallet's state, make the call
and go on with its outcome. -/
inductive VerifierProg (σ : Type)
  | done (outcome : Except Error Unit)
  | get (next : σ → VerifierProg σ)
  | set (s : σ) (next : VerifierProg σ)
  | redirectUri (request : AuthorizationRequestObject) (uri : Url)
    (next : Except Error Unit → VerifierProg σ)

/-- A method of the trait that the wallet does not implement. -/
def notSupported (method : String) (decodedRequest : AuthorizationRequestObject) (_ : α) :
    Prog σ Error Unit :=
  throw <| .protocolAccessDenied s!"'{method}' client verification is not supported"
    decodedRequest.state

/-- The token has a signature, which need not be valid. -/
def isSignedJwt (jwt : String) : Except Anyhow Bool :=
  match SsiJwt.splitJws jwt with
  | some (_, _, signature) => return !signature.isEmpty
  | none => throw (.library "ssi")

/-- The method for tokens of the prefix `redirect_uri`, unless a wallet has its own. -/
def redirectUriJwt (σ : Type) (decodedRequest : AuthorizationRequestObject) (requestJwt : String) :
    VerifierProg σ :=
  match isSignedJwt requestJwt with
  | .error e => .done <| .error <|
    (Error.protocolInvalidReq "unable to decode Authorization Request Object JWT" none).addSource e
  | .ok true => .done <| .error <| .protocolInvalidReq
      "Client id prefix 'redirect_uri' can not be used in signed auth requests" decodedRequest.state
  | .ok false =>
    match decodedRequest.returnUri with
    | some returnUrl => .redirectUri decodedRequest returnUrl .done
    | none => .done <| .error <| .internal <|
      .msg "redirect_uri_jwt was called for a request without return_uri"

structure Wallet (σ : Type) where
  metadata : WalletMetadata
  decentralizedIdentifier : AuthorizationRequestObject → String → Prog σ Error Unit :=
    notSupported "decentralized_identifier"
  openidFederation : AuthorizationRequestObject → String → Prog σ Error Unit :=
    notSupported "openid_federation"
  preregistered : AuthorizationRequestObject → String → Prog σ Error Unit :=
    notSupported "preregistered"
  redirectUri : AuthorizationRequestObject → Url → Prog σ Error Unit :=
    notSupported "redirect_uri"
  verifierAttestation : AuthorizationRequestObject → String → Prog σ Error Unit :=
    notSupported "verifier_attestation"
  origin : AuthorizationRequestObject → String → Prog σ Error Unit := notSupported "origin"
  x509SanDns : AuthorizationRequestObject → String → Prog σ Error Unit :=
    notSupported "x509_san_dns"
  x509Hash : AuthorizationRequestObject → String → Prog σ Error Unit := notSupported "x509_hash"
  redirectUriJwt : AuthorizationRequestObject → String → VerifierProg σ := redirectUriJwt σ
  execute : Request → Prog σ Anyhow Response
  generateNonce : Prog σ Anyhow (Option WalletNonce)
  validateNonce : WalletNonce → Prog σ Anyhow Bool

namespace Wallet

variable (w : Wallet σ)

/-! ## Calls -/

/-- Call a method that authenticates a request by the token it came in. -/
def callVerifier (method : ClientIdPrefix)
    (run : AuthorizationRequestObject → String → Prog σ Error Unit)
    (request : AuthorizationRequestObject) (jwt : String) : Prog (World σ) Error Unit :=
  record (.verified method request) (run request jwt)

def callRedirectUri (request : AuthorizationRequestObject) (uri : Url) :
    Prog (World σ) Error Unit :=
  record (.verified .redirectUri request) (w.redirectUri request uri)

/-- Run a method that calls `redirect_uri`. -/
def runVerifier : VerifierProg σ → Prog (World σ) Error Unit
  | .done outcome => .ofExcept outcome
  | .get next => fun world => runVerifier (next world.state) world
  | .set s next => fun world => runVerifier next { world with state := s }
  | .redirectUri request uri next => do
    let outcome ← .attempt (w.callRedirectUri request uri)
    runVerifier (next outcome)

def callExecute (request : Request) : Prog (World σ) Anyhow Response :=
  record (.sent request) (w.execute request)

def callGenerateNonce : Prog (World σ) Anyhow (Option WalletNonce) :=
  record .nonceGenerated w.generateNonce

def callValidateNonce (nonce : WalletNonce) : Prog (World σ) Anyhow Bool :=
  record (.nonceValidated nonce) (w.validateNonce nonce)

end Wallet
end OpenID4VP
