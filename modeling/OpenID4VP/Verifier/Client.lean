import OpenID4VP.Core.Http
import OpenID4VP.Verifier

/-! # Clients

The clients that a verifier can have: those of the prefixes for decentralized identifiers and for
certificates sign their request objects, and the one of the prefix `redirect_uri` does not. -/

namespace OpenID4VP

section
variable [SerdeJson] [SerdeJsonPath] [JsonSchema] [UrlCrate] [Base64Url]

structure Signer (σ : Type) where
  alg : Prog σ Anyhow String
  sign : List UInt8 → Prog σ Anyhow (List UInt8)

/-- A token with these contents, signed. -/
def generateJwt [Serialize α] (header : Json) (body : α) (signer : Signer σ) :
    Prog σ Anyhow String := do
  let headerB64 := Base64Url.encode (SerdeJson.print header).toUTF8.data.toList
  let bodyB64 := Base64Url.encode (toJsonString body).toUTF8.data.toList
  let payload := headerB64 ++ "." ++ bodyB64
  let signature ← signer.sign payload.toUTF8.data.toList
  let signatureB64 := Base64Url.encode signature
  return headerB64 ++ "." ++ bodyB64 ++ "." ++ signatureB64

instance : Serialize AuthorizationRequestObject := ⟨fun o => o.intoUntyped.toJson⟩

/-! ## Decentralized identifiers -/

structure DecentralizedIdentifierClient (σ : Type) where
  id : ClientId
  vm : String
  signer : Signer σ

namespace DecentralizedIdentifierClient

def header (c : DecentralizedIdentifierClient σ) : Prog σ Anyhow Json := do
  let algorithm ← .mapError (.context "failed to retrieve signing algorithm") c.signer.alg
  return .object [("alg", .string algorithm), ("kid", .string c.vm),
    ("typ", .string mimeTypeOauthReqJwtShort)]

def client (c : DecentralizedIdentifierClient σ) : Client σ where
  id := c.id
  idPrefix := .decentralizedIdentifier
  generateRequestObjectJwt body := do
    let header ← c.header
    generateJwt header body c.signer

end DecentralizedIdentifierClient

section
variable [SsiJwt]

/-- A signer with a public key. -/
structure KeySigner (σ : Type) extends Signer σ where
  jwk : Prog σ Anyhow JWK

/-- What finds the public key of a verification method. -/
structure JWKResolver (σ : Type) where
  fetchPublicJwk : Option String → Prog σ Anyhow JWK

/-- A client for a verification method: its identifier is what comes before the last `#`, and its
key has to be that of the signer. -/
def DecentralizedIdentifierClient.new [SsiKeys] (vm : String) (signer : KeySigner σ)
    (resolver : JWKResolver σ) : Prog σ Anyhow (DecentralizedIdentifierClient σ) := do
  let (id, _) ← .ofExcept <|
    okOr (.msg s!"expected a DID verification method, received '{vm}'") (rsplitOnce '#' vm)
  let jwk ← .mapError (.context "unable to resolve key from verification method")
    (resolver.fetchPublicJwk (some vm))
  let signerJwk ← .mapError (.context "signer did not have a JWK") signer.jwk
  .ofExcept <| ensure (SsiKeys.sameKey jwk signerJwk) <| .msg
    "verification method resolved from DID document did not match public key of signer"
  let id ← .ofExcept (ClientId.new ("decentralized_identifier" ++ ":" ++ id))
  return { id, vm, signer := signer.toSigner }

end

/-! ## Certificates -/

section
variable [X509Cert]

inductive X509Variant
  | hash
  | sanDns

def X509Variant.toPrefix : X509Variant → ClientIdPrefix
  | hash => .x509Hash
  | sanDns => .x509SanDns

structure X509Client (σ : Type) where
  id : ClientId
  x5c : List Certificate
  signer : Signer σ
  variant : X509Variant

namespace X509Client

/-- A certificate of the chain as the header has it. -/
def encodeCertificate (certificate : Certificate) : Except Anyhow String :=
  match X509Cert.toDer certificate with
  | some der => return X509Cert.encodeStandard der
  | none => throw (.library "x509_cert")

def header (c : X509Client σ) : Prog σ Anyhow Json := do
  let algorithm ← .mapError (.context "failed to retrieve signing algorithm") c.signer.alg
  let x5c ← .ofExcept (c.x5c.mapM encodeCertificate)
  return .object [("alg", .string algorithm), ("x5c", toTree x5c),
    ("typ", .string mimeTypeOauthReqJwtShort)]

def client (c : X509Client σ) : Client σ where
  id := c.id
  idPrefix := match c.variant with
    | .sanDns => .x509SanDns
    | .hash => .x509Hash
  generateRequestObjectJwt body := do
    let header ← c.header
    generateJwt header body c.signer

variable [X509Read] [Sha256]

/-- The DNS names among the alternative names of the subject. -/
def dnsNames (leaf : Certificate) : List String :=
  ((X509Read.subjectAltNames leaf).filterMap fun san => san).flatten.filterMap GeneralName.dns?

/-- The client id that the first certificate of the chain implies. -/
def clientId (x5c : List Certificate) (variant : X509Variant) : Except Anyhow ClientId := do
  let leaf ← okOr (.msg "x509 certificate chain is empty") x5c.head?
  let id ← match variant with
    | .hash => do
      let der ← okOr (.library "x509_cert") (X509Cert.toDer leaf)
      pure (Base64Url.encode (Sha256.digest der))
    | .sanDns =>
      okOr (.msg "x509 certificate does not contain Subject Alternative Name") (dnsNames leaf).head?
  ClientId.new (variant.toPrefix.name ++ ":" ++ id)

def new (x5c : List Certificate) (signer : Signer σ) (variant : X509Variant) :
    Except Anyhow (X509Client σ) := do
  return ⟨← clientId x5c variant, x5c, signer, variant⟩

end X509Client
end

/-! ## Redirect URIs -/

structure RedirectUriClient where
  id : ClientId

namespace RedirectUriClient

def new (id : String) : Except Anyhow RedirectUriClient := do
  return ⟨← ClientId.new ("redirect_uri" ++ ":" ++ id)⟩

def client (σ : Type) (c : RedirectUriClient) : Client σ where
  id := c.id
  idPrefix := .redirectUri
  generateRequestObjectJwt _ := throw <|
    .msg "generation of signed jwt is not supported in 'redirect_uri' client identifier"

end RedirectUriClient

/-! ## Tokens -/

omit [SerdeJsonPath] [JsonSchema] [UrlCrate] in
theorem generateJwt_eq_ok_iff [Serialize α] {header : Json} {body : α} {signer : Signer σ}
    {s s' : σ} {jwt : String} :
    generateJwt header body signer s = (.ok jwt, s') ↔ ∃ signature,
      signer.sign (tokenPart header ++ "." ++ tokenPart (toTree body)).toUTF8.data.toList s =
        (.ok signature, s') ∧ compactToken header (toTree body) signature = jwt := by
  rw [generateJwt, Prog.bind_eq_ok_iff]
  constructor
  · rintro ⟨signature, s₁, hs, h⟩
    obtain ⟨rfl, rfl⟩ := Prog.pure_eq_ok_iff.mp h
    exact ⟨signature, hs, rfl⟩
  · rintro ⟨signature, hs, rfl⟩
    exact ⟨signature, s', hs, rfl⟩

end
end OpenID4VP
