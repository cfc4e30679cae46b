import OpenID4VP.Core.AuthorizationRequest.Authentication
import OpenID4VP.Verifier.Client

/-! # Requests signed with certificates

The validation of a request by the certificate in the header of its token, for the prefixes
`x509_hash` and `x509_san_dns`. The client id has to be a name of the certificate.
`clientIdBinding` says for which ids the check is exact. -/

namespace OpenID4VP
namespace X509San

/-! ## The client id check -/

section
variable [Base64Url] [X509Cert] [X509Read] [Sha256]

def ensureClientIdMatchesLeaf (variant : X509Variant) (clientId : String)
    (leafCert : Certificate) (leafCertDer : List UInt8) : Except Anyhow Unit :=
  match variant with
  | .hash =>
    let hash := Base64Url.encode (Sha256.digest leafCertDer)
    ensure (hash = clientId)
      (.msg "client_id does not match the hash of the leaf certificate in 'x5c'")
  | .sanDns => ensure ((X509Client.dnsNames leafCert).any (· = clientId))
      (.msg "client_id does not match any Subject Alternative Name")

/-- The text that the start of an id of this variant has to be. -/
def prefixText (variant : X509Variant) : String := variant.toPrefix.name ++ ":"

/-- The id that is compared: without the text of its prefix, if it begins with it once more. -/
def clientIdSource (variant : X509Variant) (clientId : String) : String :=
  (stripPrefix (prefixText variant) clientId).getD clientId

/-- What a certificate can be called. -/
def leafNames (variant : X509Variant) (leafCert : Certificate) (leafCertDer : List UInt8) :
    List String :=
  match variant with
  | .hash => [Base64Url.encode (Sha256.digest leafCertDer)]
  | .sanDns => X509Client.dnsNames leafCert

/-- The client id check of the validation passes for this id. -/
def Passes (variant : X509Variant) (leafCert : Certificate) (leafCertDer : List UInt8)
    (clientId : String) : Prop :=
  ensureClientIdMatchesLeaf variant (clientIdSource variant clientId) leafCert leafCertDer = .ok ()

/-- A text that begins with the text of the prefix is a name just when what comes after that is. -/
def PrefixKeepsNames (variant : X509Variant) (leafCert : Certificate) (leafCertDer : List UInt8)
    (clientId : String) : Prop :=
  ∀ rest, clientId = prefixText variant ++ rest →
    (rest ∈ leafNames variant leafCert leafCertDer ↔
      clientId ∈ leafNames variant leafCert leafCertDer)

variable {variant : X509Variant} {leafCert : Certificate} {leafCertDer : List UInt8}

theorem ensureClientIdMatchesLeaf_eq_ok_iff {clientId : String} :
    ensureClientIdMatchesLeaf variant clientId leafCert leafCertDer = .ok () ↔
      clientId ∈ leafNames variant leafCert leafCertDer := by
  cases variant with
  | hash =>
    rw [ensureClientIdMatchesLeaf, ensure_eq_ok_iff, decide_eq_true_eq, leafNames,
      List.mem_singleton, eq_comm]
  | sanDns => simp [ensureClientIdMatchesLeaf, leafNames]

theorem passes_iff {clientId : String} :
    Passes variant leafCert leafCertDer clientId ↔
      clientIdSource variant clientId ∈ leafNames variant leafCert leafCertDer :=
  ensureClientIdMatchesLeaf_eq_ok_iff

theorem passes_prefixed_iff {rest : String} :
    Passes variant leafCert leafCertDer (prefixText variant ++ rest) ↔
      rest ∈ leafNames variant leafCert leafCertDer := by
  rw [passes_iff, clientIdSource, stripPrefix_append, Option.getD_some]

theorem passes_iff_mem_iff {clientId : String} :
    (Passes variant leafCert leafCertDer clientId ↔
        clientId ∈ leafNames variant leafCert leafCertDer) ↔
      PrefixKeepsNames variant leafCert leafCertDer clientId := by
  constructor
  · rintro h rest rfl
    rwa [passes_prefixed_iff] at h
  · intro h
    rw [passes_iff, clientIdSource]
    cases hs : stripPrefix (prefixText variant) clientId with
    | none => rfl
    | some rest => exact h rest (stripPrefix_eq_some_iff.mp hs)

/-- The id of a client is a name of its certificate. -/
theorem mem_leafNames_of_clientId {x5c : List Certificate} {c : ClientId}
    (h : X509Client.clientId x5c variant = .ok c) (hl : x5c.head? = some leafCert)
    (hd : X509Cert.toDer leafCert = some leafCertDer) :
    c.id ∈ leafNames variant leafCert leafCertDer := by
  obtain ⟨leaf, hl', h⟩ := Except.bind_eq_ok_iff.mp h
  obtain rfl : leaf = leafCert := Option.some.inj ((okOr_eq_ok_iff.mp hl').symm.trans hl)
  have hn (id : String) := ClientId.new_getFullId ⟨id, variant.toPrefix⟩
  cases variant with
  | hash =>
    obtain ⟨der, hd', h⟩ := Except.bind_eq_ok_iff.mp h
    obtain rfl : der = leafCertDer := Option.some.inj ((okOr_eq_ok_iff.mp hd').symm.trans hd)
    obtain rfl := Except.ok.inj ((hn _).symm.trans h)
    exact List.mem_cons_self
  | sanDns =>
    obtain ⟨dns, hs, h⟩ := Except.bind_eq_ok_iff.mp h
    obtain rfl := Except.ok.inj ((hn _).symm.trans h)
    exact List.mem_of_mem_head? (okOr_eq_ok_iff.mp hs)

end

/-! ## Validation -/

section
variable [SerdeJson] [SerdeJsonPath] [JsonSchema] [UrlCrate] [Base64Url] [SsiJwt] [X509Cert]
  [X509Read] [Sha256]

/-- A verifier of signatures of a payload, for a key and an algorithm. -/
abbrev FromSpki :=
  SubjectPublicKeyInfo → String → Except Anyhow (List UInt8 → List UInt8 → Except Anyhow Unit)

/-- What is read of a token before the client id is looked at. -/
structure Token where
  headersB64 : String
  bodyB64 : String
  sigB64 : String
  alg : String
  leafCert : Certificate
  leafCertDer : List UInt8

def readToken (walletMetadata : WalletMetadata) (requestJwt : String) : Except Anyhow Token := do
  let (headersB64, bodyB64, sigB64) ← okOr (.library "ssi") (SsiJwt.splitJws requestJwt)
  let headersJsonBytes ← withContext "jwt headers were not valid base64url" <|
    okOr (.library "base64") (Base64Url.decode headersB64)
  let headers : JsonMap ← withContext "jwt headers were not valid json" <|
    fromSlice ⟨headersJsonBytes.toArray⟩
  let alg ← match ← okOr (.msg "'alg' was missing from jwt headers") (headers.get? "alg") with
    | .string alg => pure alg
    | _ => throw (.msg "'alg' header was not a string")
  let supportedAlgs ←
    parsingError (walletMetadata.object.get RequestObjectSigningAlgValuesSupported)
  ensure (supportedAlgs.values.contains alg)
    (.msg s!"request was signed with unsupported algorithm: {alg}")
  let x5chain ← match ← okOr (.msg "'x5c' was missing from jwt headers") (headers.get? "x5c") with
    | .array x5chain => pure x5chain
    | _ => throw (.msg "'x5c' header was not an array")
  let b64X509 ← match ← okOr (.msg "'x5c' was an empty array") x5chain.head? with
    | .string b64X509 => pure b64X509
    | _ => throw (.msg "'x5c' header was not an array of strings")
  let leafCertDer ← withContext "leaf certificate in 'x5c' was not valid base64" <|
    okOr (.library "base64") (X509Read.decodeStandardNoPad (trimEndMatches '=' b64X509))
  let leafCert ← withContext "leaf certificate in 'x5c' was not valid DER" <|
    okOr (.library "x509_cert") (X509Read.fromDer leafCertDer)
  return { headersB64, bodyB64, sigB64, alg, leafCert, leafCertDer }

def verifySignature (fromSpki : FromSpki) (token : Token) : Except Anyhow Unit := do
  let verify ← withContext "unable to parse SPKI" <|
    fromSpki (X509Read.subjectPublicKeyInfo token.leafCert) token.alg
  let payload := (token.headersB64 ++ "." ++ token.bodyB64).toUTF8.data.toList
  let signature ← withContext "could not decode base64url encoded jwt signature" <|
    okOr (.library "base64") (Base64Url.decode token.sigB64)
  withContext "request signature could not be verified" (verify payload signature)

-- the chain is not verified, so the trusted roots do not matter
def validate (fromSpki : FromSpki) (variant : X509Variant) (walletMetadata : WalletMetadata)
    (requestObject : AuthorizationRequestObject) (requestJwt : String)
    (_trustedRoots : Option (List Certificate)) : Except Anyhow Unit := do
  let source := clientIdSource variant requestObject.clientId.id
  let token ← readToken walletMetadata requestJwt
  ensureClientIdMatchesLeaf variant source token.leafCert token.leafCertDer
  verifySignature fromSpki token

/-- A request is valid when its client id passes the check for the certificate in its token and the
signature of the token is the certificate's. -/
theorem validate_eq_ok_iff {fromSpki : FromSpki} {walletMetadata : WalletMetadata}
    {requestObject : AuthorizationRequestObject} {requestJwt : String}
    {trustedRoots : Option (List Certificate)} :
    validate fromSpki variant walletMetadata requestObject requestJwt trustedRoots = .ok () ↔
      ∃ token, readToken walletMetadata requestJwt = .ok token ∧
        Passes variant token.leafCert token.leafCertDer requestObject.clientId.id ∧
        verifySignature fromSpki token = .ok () := by
  simp only [validate, Except.bind_eq_ok_iff, Passes]
  exact exists_congr fun token => and_congr_right fun _ => Unique.exists_iff

end

section
variable [SerdeJsonPath] [JsonSchema] [UrlCrate] [Base64Url] [X509Cert] [X509Read] [Sha256]

/-- The check is exact at an id, and passes for one that a client has from its chain, just when the
text of the prefix in front of the id makes no difference to its being a name. -/
theorem clientIdBinding (variant : X509Variant) (leafCert : Certificate)
    (leafCertDer : List UInt8) :
    (∀ o : AuthorizationRequestObject,
      (Passes variant leafCert leafCertDer o.clientId.id ↔
          o.clientId.id ∈ leafNames variant leafCert leafCertDer) ↔
        PrefixKeepsNames variant leafCert leafCertDer o.clientId.id) ∧
    ∀ x5c c, X509Client.clientId x5c variant = .ok c → x5c.head? = some leafCert →
      X509Cert.toDer leafCert = some leafCertDer →
        (Passes variant leafCert leafCertDer c.id ↔
          PrefixKeepsNames variant leafCert leafCertDer c.id) := by
  refine ⟨fun o => passes_iff_mem_iff, fun x5c c h hl hd => ?_⟩
  rw [← passes_iff_mem_iff]
  exact (iff_true_right (mem_leafNames_of_clientId h hl hd)).symm

end
end X509San

/-! ## A client id with its prefix twice -/

namespace Sample
open scoped Reference

theorem dnsNames_leaf : X509Client.dnsNames Reference.leafDer = ["verifier.example"] := by
  have hs : X509Read.subjectAltNames Reference.leafDer = [some [.dnsName "verifier.example"]] :=
    if_pos rfl
  rw [X509Client.dnsNames, hs]
  rfl

theorem clientId_leaf : X509Client.clientId [Reference.leafDer] .sanDns =
    .ok ⟨"verifier.example", .x509SanDns⟩ := by
  refine Except.bind_eq_ok_iff.mpr ⟨Reference.leafDer, rfl, ?_⟩
  refine Except.bind_eq_ok_iff.mpr ⟨"verifier.example", ?_, rfl⟩
  rw [dnsNames_leaf]
  rfl

theorem clientIdBinding_leaf :
    X509San.Passes .sanDns Reference.leafDer Reference.leafDer "verifier.example" ↔
      X509San.PrefixKeepsNames .sanDns Reference.leafDer Reference.leafDer "verifier.example" := by
  have h := (X509San.clientIdBinding .sanDns Reference.leafDer Reference.leafDer).2 _ _
    clientId_leaf rfl rfl
  exact h

def doubledRequest : AuthorizationRequestObject :=
  request ⟨"x509_san_dns:verifier.example", .x509SanDns⟩
    (requestObject "x509_san_dns:x509_san_dns:verifier.example")

/-- A second client id is accepted for the certificate. -/
theorem not_exact_doubledRequest :
    AuthorizationRequestObject.tryFrom doubledRequest.inner = .ok doubledRequest ∧
    ¬(X509San.Passes .sanDns Reference.leafDer Reference.leafDer doubledRequest.clientId.id ↔
      doubledRequest.clientId.id ∈
        X509San.leafNames .sanDns Reference.leafDer Reference.leafDer) := by
  have hp : X509San.Passes .sanDns Reference.leafDer Reference.leafDer
      (X509San.prefixText .sanDns ++ "verifier.example") ↔
        "verifier.example" ∈ X509San.leafNames .sanDns Reference.leafDer Reference.leafDer :=
    X509San.passes_prefixed_iff
  refine ⟨rfl, fun h => ?_⟩
  rw [X509San.leafNames, dnsNames_leaf] at h hp
  have hm := h.mp (hp.mpr List.mem_cons_self)
  exact absurd (List.mem_singleton.mp hm) (by decide)

end Sample
end OpenID4VP
