import OpenID4VP.Wallet

/-! # Verification of authorization requests -/

namespace OpenID4VP

variable [SerdeJson] [SerdeJsonPath] [JsonSchema] [UrlCrate] [Base64Url] [SsiJwt]

/-- A request that has been fetched: the object itself, or the token it comes in. -/
inductive FetchedAuthorizationRequest
  | unverifiedJwt (jwt : String)
  | plain (request : AuthorizationRequestObject)

/-! ## Checks against the metadata of the wallet -/

/-- A parameter that a request has to have. -/
def requireParameter (description : String) (state : Option String) (context : String) :
    Option (Except Anyhow α) → Except Error α
  | none => throw (.protocolInvalidReq description state)
  | some x => orInternal (withContext context x)

/-- The subject syntax types of the verifier, in a request for an id token. -/
def requireSubjectSyntaxTypes (request : AuthorizationRequestObject) :
    Except Error SubjectSyntaxTypesSupported := do
  let state := request.state
  let clientMetadata ← requireParameter
    "'client_metadata' is required when response type is 'vp_token id_token'" state
    "error occurred when retrieving 'client_metadata'" (request.inner.get ClientMetadata)
  requireParameter
    "'subject_syntax_types_supported' is required when response type is 'vp_token id_token'" state
    "error occurred when retrieving 'subject_syntax_types_supported'"
    (clientMetadata.object.get SubjectSyntaxTypesSupported)

def validateSubjectSyntaxTypes (request : AuthorizationRequestObject)
    (walletMetadata : WalletMetadata) : Except Error Unit := do
  let offered ← requireSubjectSyntaxTypes request
  match offered.values.find? fun s =>
    !walletMetadata.subjectSyntaxTypesSupported.values.contains s with
  | some unsupported =>
    throw <| .protocolInvalidReq s!"subject syntax type = '{unsupported}' is not supported"
      request.state
  | none => return ()

def validateResponseType (request : AuthorizationRequestObject) (walletMetadata : WalletMetadata) :
    Except Error Unit := do
  let state := request.state
  let responseType ← requireParameter ("'response_type' is not declared, " ++
    "it is a required parameter of authorization request object") state
    "error occurred when retrieving response type" (request.inner.get ResponseType)
  ensure (walletMetadata.responseTypesSupported.values.contains responseType)
    (.protocolInvalidReq s!"response type = '{responseType.toString}' is not supported" state)
  if responseType = .vpTokenIdToken then validateSubjectSyntaxTypes request walletMetadata
  else return ()

/-- A format of the verifier, as an error names it. -/
def offeredFormat (format : ClaimFormatDesignation) (alg : ClaimFormatPayload) : String :=
  s!"'{format.name}' with alg values '{toJsonString alg}'"

/-- Refuses a request none of whose formats the wallet supports. -/
def validateVpFormatsSupported (metadata : ClientMetadata) (walletMetadata : WalletMetadata)
    (state : Option String) : Except Error Unit :=
  match parsingError (metadata.object.get VpFormatsSupported) with
  | .error _ => return ()
  | .ok vpFormats =>
    if vpFormats.formats.isEmpty then throw <| .protocolVpFormatsNotSupported
      "the verifier advertised an empty 'vp_formats_supported' object" state
    else if vpFormats.formats.entries.any fun (format, alg) =>
      walletMetadata.vpFormatsSupported.containsClaimFormatWithPayload format alg then return ()
    else
      let offered := ", ".intercalate <| vpFormats.formats.entries.map fun (format, alg) =>
        offeredFormat format alg
      throw <| .protocolVpFormatsNotSupported
        s!"none of the vp formats offered by the verifier are supported: {offered}" state

def validateRequestAgainstMetadata (walletMetadata : WalletMetadata)
    (request : AuthorizationRequestObject) : Except Error Unit := do
  let state := request.state
  let supported ← orInternal (walletMetadata.object.getOrDefault ClientIdPrefixesSupported.default)
  ensure (supported.values.contains request.clientId.idPrefix) (.protocolInvalidReq
    s!"wallet does not support client_id_prefix '{request.clientId.idPrefix.name}'" state)
  validateResponseType request walletMetadata
  let clientMetadata ← orInternal (ClientMetadata.resolve request.inner)
  validateVpFormatsSupported clientMetadata walletMetadata state

/-! ## Authentication -/

/-- The request in a token, which has not been verified. -/
def decodeRequest (jwt : String) : Except Error AuthorizationRequestObject :=
  match (SsiJwt.decodeUnverified jwt).bind fromTree with
  | some value => AuthorizationRequestObject.tryFrom value
  | none => throw <|
    (Error.protocolInvalidReq "unable to decode Authorization Request Object JWT" none).addSource
      (.library "ssi")

namespace Wallet

variable (w : Wallet σ)

/-- Authenticate a plain request. -/
def authenticatePlain (request : AuthorizationRequestObject) : Prog (World σ) Error Unit :=
  match request.returnUri with
  | some uri => w.callRedirectUri request uri
  | none =>
    if request.responseMode.isDcApi then return ()
    else throw <| .protocolInvalidReq ("'response_uri/redirect_uri' is required " ++
      s!"when response_mode is '{request.responseMode}'") request.state

/-- Authenticate a request by the token it came in, with the method of its client id prefix. -/
def authenticateJwt (request : AuthorizationRequestObject) (jwt : String) :
    Prog (World σ) Error Unit :=
  match request.clientId.idPrefix with
  | .decentralizedIdentifier =>
    callVerifier .decentralizedIdentifier w.decentralizedIdentifier request jwt
  | .openidFederation => callVerifier .openidFederation w.openidFederation request jwt
  | .preRegistered => callVerifier .preRegistered w.preregistered request jwt
  | .verifierAttestation => callVerifier .verifierAttestation w.verifierAttestation request jwt
  | .origin => callVerifier .origin w.origin request jwt
  | .x509SanDns => callVerifier .x509SanDns w.x509SanDns request jwt
  | .x509Hash => callVerifier .x509Hash w.x509Hash request jwt
  | .redirectUri => w.runVerifier (w.redirectUriJwt request jwt)

def verifyRequest (fetchedRequest : FetchedAuthorizationRequest) :
    Prog (World σ) Error AuthorizationRequestObject := do
  let request ← match fetchedRequest with
    | .plain request => do
      w.authenticatePlain request
      pure request
    | .unverifiedJwt jwt => do
      let request ← .ofExcept (decodeRequest jwt)
      w.authenticateJwt request jwt
      pure request
  .ofExcept (validateRequestAgainstMetadata w.metadata request)
  return request

end Wallet
end OpenID4VP
