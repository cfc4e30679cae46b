import OpenID4VP.Core.AuthorizationRequest.Verification.Did
import OpenID4VP.Core.AuthorizationRequest.Verification.X509San

/-! # Signatures of requests

A token that is validated was signed, with an algorithm that the wallet supports: with the key of
the certificate in its header, or with that of the verification method there. What a client has
signed is validated exactly when its own key verifies the signature, and its client id is read from
the header as the client has it. -/

namespace OpenID4VP

section
variable [X509Cert] [X509Read]

/-- A verifier for the key and the algorithm accepts the signature of the payload. -/
def X509San.Verifies (fromSpki : X509San.FromSpki) (key : SubjectPublicKeyInfo) (alg : String)
    (payload signature : List UInt8) : Prop :=
  ∃ verify, fromSpki key alg = .ok verify ∧ verify payload signature = .ok ()

/-! ## P-256 -/

namespace P256Verifier
variable [P256]

def verify (key : P256.VerifyingKey) (payload signature : List UInt8) : Except Anyhow Unit := do
  let signature ← okOr (.library "ecdsa") (P256.signature signature)
  ensure (P256.verify key payload signature) (.library "ecdsa")

def fromSpki : X509San.FromSpki := fun spki algorithm => do
  ensure (algorithm = "ES256")
    (.msg s!"P256Verifier cannot verify requests signed with '{algorithm}'")
  let key ← okOr (.library "spki") (P256.verifyingKey spki)
  return verify key

theorem verifies_iff {spki : SubjectPublicKeyInfo} {alg : String}
    {payload signature : List UInt8} :
    X509San.Verifies fromSpki spki alg payload signature ↔ alg = "ES256" ∧
      ∃ key s, P256.verifyingKey spki = some key ∧ P256.signature signature = some s ∧
        P256.verify key payload s = true := by
  simp only [X509San.Verifies, fromSpki, Except.bind_eq_ok_iff, ensure_eq_ok_iff,
    decide_eq_true_eq, okOr_eq_ok_iff, Except.pure_eq_ok_iff]
  constructor
  · rintro ⟨_, ⟨_, ha, key, hk, rfl⟩, h⟩
    obtain ⟨s, hs, hv⟩ := Except.bind_eq_ok_iff.mp h
    exact ⟨ha, key, s, hk, okOr_eq_ok_iff.mp hs, ensure_eq_ok_iff.mp hv⟩
  · rintro ⟨ha, key, s, hk, hs, hv⟩
    refine ⟨_, ⟨(), ha, key, hk, rfl⟩, ?_⟩
    exact Except.bind_eq_ok_iff.mpr ⟨s, okOr_eq_ok_iff.mpr hs, ensure_eq_ok_iff.mpr hv⟩

end P256Verifier
end

section
variable [SerdeJson] [SerdeJsonPath] [JsonSchema] [UrlCrate] [Base64Url] [SsiJwt]

/-- The wallet supports the algorithm for request objects. -/
def WalletMetadata.SupportsAlg (walletMetadata : WalletMetadata) (alg : String) : Prop :=
  ∃ supported : RequestObjectSigningAlgValuesSupported,
    walletMetadata.object.get RequestObjectSigningAlgValuesSupported = some (.ok supported) ∧
      alg ∈ supported.values

variable {walletMetadata : WalletMetadata} {jwt : String}

/-! ## What is signed -/

/-- The bytes that the signature of a compact token is about. -/
def signingInput (header claims : Json) : List UInt8 :=
  (tokenPart header ++ "." ++ tokenPart claims).toUTF8.data.toList

omit [SerdeJsonPath] [JsonSchema] [UrlCrate] in
/-- What is signed determines a token up to its signature. -/
theorem eq_compactToken [SsiJwsParts] [Base64Canonical] {header claims : Json} {h b s : String}
    {signature : List UInt8} (hs : SsiJwt.splitJws jwt = some (h, b, s))
    (hp : (h ++ "." ++ b).toUTF8.data.toList = signingInput header claims)
    (hd : Base64Url.decode s = some signature) : jwt = compactToken header claims signature := by
  have ht : h ++ "." ++ b = tokenPart header ++ "." ++ tokenPart claims := by
    have hu := congrArg (fun bs : List UInt8 => String.fromUTF8? ⟨bs.toArray⟩) hp
    dsimp only [signingInput] at hu
    rw [Form.fromUTF8?_toUTF8, Form.fromUTF8?_toUTF8] at hu
    exact Option.some.inj hu
  rw [SsiJwsParts.eq_of_splitJws _ _ _ _ hs, compactToken, ht,
    Base64Canonical.encode_of_decode _ _ hd]

/-! ## Certificates -/

namespace X509San
variable [X509Cert] [X509Read] [Sha256]

/-- What the signature of a token is about. -/
def Token.payload (token : Token) : List UInt8 :=
  (token.headersB64 ++ "." ++ token.bodyB64).toUTF8.data.toList

omit [SerdeJson] [SerdeJsonPath] [JsonSchema] [UrlCrate] [SsiJwt] in
/-- A digest in Base64 passes for a certificate if it is that of the certificate: it does not begin
with the text of the prefix. -/
theorem passes_hash_iff [Base64Canonical] {leaf : Certificate} {der bs : List UInt8} :
    Passes .hash leaf der (Base64Url.encode bs) ↔ Sha256.digest der = bs := by
  have hn : stripPrefix (prefixText .hash) (Base64Url.encode bs) = none := by
    refine Option.eq_none_iff_forall_ne_some.mpr fun rest hr => ?_
    have hm : ':' ∈ (Base64Url.encode bs).toList := by
      rw [stripPrefix_eq_some_iff.mp hr, prefixText, String.toList_append, String.toList_append]
      simp
    exact absurd (Base64Canonical.isDigit_encode bs ':' hm) (by decide)
  rw [passes_iff, clientIdSource, hn, Option.getD_none, leafNames, List.mem_singleton]
  constructor
  · intro h
    have hd := congrArg Base64Url.decode h
    rw [Base64Url.decode_encode, Base64Url.decode_encode] at hd
    exact (Option.some.inj hd).symm
  · rintro rfl
    rfl

/-- The signature of the token is that of the key in its certificate. -/
def Token.Signed (fromSpki : FromSpki) (token : Token) : Prop :=
  ∃ signature, Base64Url.decode token.sigB64 = some signature ∧
    Verifies fromSpki (X509Read.subjectPublicKeyInfo token.leafCert) token.alg token.payload
      signature

/-- The token is read from the text: its parts, and from its header an algorithm that the wallet
supports and the first certificate of a chain. -/
structure Token.ReadFrom (walletMetadata : WalletMetadata) (jwt : String) (token : Token) :
    Prop where
  parts : SsiJwt.splitJws jwt = some (token.headersB64, token.bodyB64, token.sigB64)
  headers : ∃ bytes headers b64 rest, Base64Url.decode token.headersB64 = some bytes ∧
    (fromSlice ⟨bytes.toArray⟩ : Except Anyhow JsonMap) = .ok headers ∧
    headers.get? "alg" = some (.string token.alg) ∧
    headers.get? "x5c" = some (.array (.string b64 :: rest)) ∧
    X509Read.decodeStandardNoPad (trimEndMatches '=' b64) = some token.leafCertDer
  supported : walletMetadata.SupportsAlg token.alg
  leafCert : X509Read.fromDer token.leafCertDer = some token.leafCert

variable {fromSpki : FromSpki} {token : Token}

omit [SerdeJson] [SerdeJsonPath] [JsonSchema] [UrlCrate] [SsiJwt] [Sha256] in
theorem verifySignature_eq_ok_iff :
    verifySignature fromSpki token = .ok () ↔ token.Signed fromSpki := by
  simp only [verifySignature, Except.bind_eq_ok_iff, withContext_eq_ok_iff, okOr_eq_ok_iff]
  constructor
  · rintro ⟨verify, hv, signature, hs, h⟩
    exact ⟨signature, hs, verify, hv, h⟩
  · rintro ⟨signature, hs, verify, hv, h⟩
    exact ⟨verify, hv, signature, hs, h⟩

omit [SerdeJsonPath] [JsonSchema] [Sha256] in
theorem readToken_eq_ok_iff :
    readToken walletMetadata jwt = .ok token ↔ token.ReadFrom walletMetadata jwt := by
  simp only [readToken, Except.bind_eq_ok_iff, okOr_eq_ok_iff, withContext_eq_ok_iff]
  constructor
  · rintro ⟨⟨h, b, s⟩, hp, bytes, hb, headers, hh, x, ha, hr⟩
    cases x with
    | string alg =>
      simp only [Except.bind_eq_ok_iff, Except.pure_eq_ok_iff, okOr_eq_ok_iff,
        parsingError_eq_ok_iff, ensure_eq_ok_iff, List.contains_iff_mem] at hr
      obtain ⟨alg, rfl, supported, hs, -, hm, y, hx, hr⟩ := hr
      cases y with
      | array xs =>
        simp only [Except.bind_eq_ok_iff, Except.pure_eq_ok_iff, okOr_eq_ok_iff] at hr
        obtain ⟨xs, rfl, z, hz, hr⟩ := hr
        obtain ⟨rest, rfl⟩ := List.head?_eq_some_iff.mp hz
        cases z with
        | string b64 =>
          simp only [Except.bind_eq_ok_iff, okOr_eq_ok_iff, withContext_eq_ok_iff,
            Except.pure_eq_ok_iff] at hr
          obtain ⟨b64, rfl, der, hd, leaf, hl, rfl⟩ := hr
          exact {
            parts := hp
            headers := ⟨bytes, headers, b64, rest, hb, hh, ha, hx, hd⟩
            supported := ⟨supported, hs, hm⟩
            leafCert := hl }
        | _ => cases hr
      | _ => cases hr
    | _ => cases hr
  · rintro ⟨hp, ⟨bytes, headers, b64, rest, hb, hh, ha, hx, hd⟩, ⟨supported, hs, hm⟩, hl⟩
    refine ⟨_, hp, bytes, hb, headers, hh, _, ha, ?_⟩
    simp only [Except.bind_eq_ok_iff, okOr_eq_ok_iff, parsingError_eq_ok_iff, ensure_eq_ok_iff,
      List.contains_iff_mem]
    refine ⟨_, rfl, supported, hs, (), hm, _, hx, ?_⟩
    simp only [Except.bind_eq_ok_iff, okOr_eq_ok_iff]
    refine ⟨_, rfl, _, rfl, ?_⟩
    simp only [Except.bind_eq_ok_iff, okOr_eq_ok_iff, withContext_eq_ok_iff]
    exact ⟨_, rfl, _, hd, _, hl, rfl⟩

/-- A request is valid exactly when its token was signed with the key of a certificate that its
client id passes for. -/
theorem validate_eq_ok_iff_signed {variant : X509Variant}
    {requestObject : AuthorizationRequestObject} {trustedRoots : Option (List Certificate)} :
    validate fromSpki variant walletMetadata requestObject jwt trustedRoots = .ok () ↔
      ∃ token : Token, token.ReadFrom walletMetadata jwt ∧
        Passes variant token.leafCert token.leafCertDer requestObject.clientId.id ∧
        token.Signed fromSpki := by
  simp only [validate_eq_ok_iff, readToken_eq_ok_iff, verifySignature_eq_ok_iff]

/-- With the verifier for P-256, a request is valid exactly when its token was signed by `ES256`,
whatever else the wallet supports, with the key of a certificate that its client id passes for. -/
theorem validate_p256_eq_ok_iff [P256] {variant : X509Variant}
    {requestObject : AuthorizationRequestObject} {trustedRoots : Option (List Certificate)} :
    validate P256Verifier.fromSpki variant walletMetadata requestObject jwt trustedRoots = .ok () ↔
      ∃ token : Token, token.ReadFrom walletMetadata jwt ∧ token.alg = "ES256" ∧
        Passes variant token.leafCert token.leafCertDer requestObject.clientId.id ∧
        ∃ bytes key signature, Base64Url.decode token.sigB64 = some bytes ∧
          P256.signature bytes = some signature ∧
          P256.verifyingKey (X509Read.subjectPublicKeyInfo token.leafCert) = some key ∧
          P256.verify key token.payload signature = true := by
  rw [validate_eq_ok_iff_signed]
  refine exists_congr fun token => and_congr_right fun _ => ?_
  simp only [Token.Signed, P256Verifier.verifies_iff]
  constructor
  · rintro ⟨hp, bytes, hd, ha, key, signature, hk, hs, hv⟩
    exact ⟨ha, hp, bytes, key, signature, hd, hs, hk, hv⟩
  · rintro ⟨ha, hp, bytes, key, signature, hd, hs, hk, hv⟩
    exact ⟨hp, bytes, hd, ha, key, signature, hk, hs, hv⟩

end X509San

namespace X509Client
variable [X509Cert]

/-- The members of the header of a token with these certificates. -/
def headerMembers (algorithm : String) (x5c : List String) : List (String × Json) :=
  [("alg", .string algorithm), ("x5c", toTree x5c), ("typ", .string mimeTypeOauthReqJwtShort)]

/-- How a client makes a token: its signer signs the other parts, and the header has the algorithm
of the signer and the chain of the client. -/
structure Signs (c : X509Client σ) (s s' : σ) (body : AuthorizationRequestObject)
    (token : X509San.Token) (jwt : String) : Prop where
  head : c.x5c.head? = some token.leafCert
  toDer : X509Cert.toDer token.leafCert = some token.leafCertDer
  signed : ∃ signature s₁, c.signer.alg s = (.ok token.alg, s₁) ∧
    c.signer.sign token.payload s₁ = (.ok signature, s') ∧
    token.sigB64 = Base64Url.encode signature
  headersB64 : ∃ rest, token.headersB64 = tokenPart (.object
    (headerMembers token.alg (X509Cert.encodeStandard token.leafCertDer :: rest)))
  bodyB64 : token.bodyB64 = tokenPart body.intoUntyped.toJson
  jwt : jwt = token.headersB64 ++ "." ++ token.bodyB64 ++ "." ++ token.sigB64

variable {c : X509Client σ} {body : AuthorizationRequestObject} {jwt : String} {s s' : σ}
  {token : X509San.Token}

omit [SsiJwt] in
/-- A client with a chain makes its tokens so. -/
theorem exists_signs {leaf : Certificate} (hl : c.x5c.head? = some leaf)
    (h : c.client.generateRequestObjectJwt body s = (.ok jwt, s')) :
    ∃ token, c.Signs s s' body token jwt := by
  obtain ⟨header, s₁, hh, hj⟩ := Prog.bind_eq_ok_iff.mp h
  obtain ⟨algorithm, s₂, ha, hh⟩ := Prog.bind_eq_ok_iff.mp hh
  obtain ⟨x5c, hx, hh⟩ := Prog.ofExcept_bind_eq_ok_iff.mp hh
  obtain ⟨rfl, rfl⟩ := Prog.pure_eq_ok_iff.mp hh
  obtain ⟨signature, hs, rfl⟩ := generateJwt_eq_ok_iff.mp hj
  obtain ⟨chain, hc⟩ := List.head?_eq_some_iff.mp hl
  rw [hc] at hx
  obtain ⟨text, rest, ht, -, rfl⟩ := Except.mapM_cons_eq_ok_iff.mp hx
  obtain ⟨der, hd, rfl⟩ : ∃ der, X509Cert.toDer leaf = some der ∧
      text = X509Cert.encodeStandard der := by
    rw [encodeCertificate] at ht
    split at ht
    · next der hd => exact ⟨der, hd, (Except.pure_eq_ok_iff.mp ht).symm⟩
    · cases ht
  exact ⟨⟨_, _, _, algorithm, leaf, der⟩, {
    head := hl
    toDer := hd
    signed := ⟨signature, _, Prog.mapError_eq_ok_iff.mp ha, hs, rfl⟩
    headersB64 := ⟨rest, rfl⟩
    bodyB64 := rfl
    jwt := rfl }⟩

variable [X509Read] [X509Codec] [SsiJws]

omit [SerdeJsonPath] [JsonSchema] [UrlCrate] [SsiJwt] [X509Cert] [X509Read] [X509Codec]
  [SsiJws] in
theorem decode_tokenPart (x : Json) :
    Base64Url.decode (tokenPart x) = some (SerdeJson.print x).toUTF8.data.toList :=
  Base64Url.decode_encode _

omit [SerdeJsonPath] [JsonSchema] [UrlCrate] [Base64Url] [SsiJwt] [X509Cert] [X509Read] [X509Codec]
  [SsiJws] in
theorem fromSlice_print (ms : List (String × Json)) :
    (fromSlice ⟨(SerdeJson.print (.object ms)).toUTF8.data.toList.toArray⟩ :
      Except Anyhow JsonMap) = .ok (.ofMembers ms) := by
  rw [fromSlice, Form.fromUTF8?_toUTF8]
  exact fromStr_print _

omit [X509Read] [X509Codec] in
theorem Signs.splitJws (h : c.Signs s s' body token jwt) :
    SsiJwt.splitJws jwt = some (token.headersB64, token.bodyB64, token.sigB64) := by
  obtain ⟨rest, hrest⟩ := h.headersB64
  obtain ⟨signature, -, -, -, hsig⟩ := h.signed
  rw [h.jwt, hrest, h.bodyB64, hsig]
  exact SsiJws.splitJws_compactToken _ _ _

/-- The wallet reads a token as it was made, if it supports the algorithm. -/
theorem Signs.readFrom_iff {token' : X509San.Token} (h : c.Signs s s' body token jwt) :
    token'.ReadFrom walletMetadata jwt ↔
      token' = token ∧ walletMetadata.SupportsAlg token.alg := by
  have hp := h.splitJws
  obtain ⟨rest, hrest⟩ := h.headersB64
  have hb := decode_tokenPart (.object (headerMembers token.alg
    (X509Cert.encodeStandard token.leafCertDer :: rest)))
  rw [← hrest] at hb
  have hd : X509Read.decodeStandardNoPad
      (trimEndMatches '=' (X509Cert.encodeStandard token.leafCertDer)) = some token.leafCertDer :=
    X509Codec.decodeStandard_encodeStandard _
  have hl : X509Read.fromDer token.leafCertDer = some token.leafCert :=
    X509Codec.fromDer_toDer _ _ h.toDer
  constructor
  · rintro ⟨hp', ⟨bytes, headers, b64, rest', hb', hh', ha', hx', hd'⟩, hs', hl'⟩
    obtain ⟨headersB64, bodyB64, sigB64, alg, leaf, der⟩ := token'
    dsimp only at hp' hb' ha' hd' hs' hl'
    obtain ⟨rfl, rfl, rfl⟩ : token.headersB64 = headersB64 ∧ token.bodyB64 = bodyB64 ∧
        token.sigB64 = sigB64 := by simpa using hp.symm.trans hp'
    obtain rfl := Option.some.inj (hb.symm.trans hb')
    obtain rfl := Except.ok.inj ((fromSlice_print _).symm.trans hh')
    obtain rfl : token.alg = alg := Json.string.inj (Option.some.inj ha')
    obtain ⟨hb64, -⟩ := List.cons_eq_cons.mp (Json.array.inj (Option.some.inj hx'))
    obtain rfl := Json.string.inj hb64
    obtain rfl := Option.some.inj (hd.symm.trans hd')
    obtain rfl := Option.some.inj (hl.symm.trans hl')
    exact ⟨rfl, hs'⟩
  · rintro ⟨rfl, hs⟩
    exact ⟨hp, ⟨_, _, _, _, hb, fromSlice_print _, rfl, rfl, hd⟩, hs, hl⟩

variable [Sha256] {fromSpki : X509San.FromSpki} {o : AuthorizationRequestObject}
  {trustedRoots : Option (List Certificate)}

/-- A request with the client id that was derived from the chain of a client is valid with a token
of this client exactly when the wallet supports the algorithm, the text of the prefix in front of
the id makes no difference, and the key of the certificate verifies the signature. -/
theorem Signs.validate_iff (h : c.Signs s s' body token jwt)
    (hc : clientId c.x5c c.variant = .ok c.id) (ho : o.clientId = c.id) :
    X509San.validate fromSpki c.variant walletMetadata o jwt trustedRoots = .ok () ↔
      walletMetadata.SupportsAlg token.alg ∧
        X509San.PrefixKeepsNames c.variant token.leafCert token.leafCertDer c.id.id ∧
        token.Signed fromSpki := by
  have hm := X509San.mem_leafNames_of_clientId hc h.head h.toDer
  rw [← X509San.passes_iff_mem_iff, iff_true_right hm, X509San.validate_eq_ok_iff_signed, ho]
  constructor
  · rintro ⟨token', hr, hp, hs⟩
    obtain ⟨rfl, ha⟩ := h.readFrom_iff.mp hr
    exact ⟨ha, hp, hs⟩
  · rintro ⟨ha, hp, hs⟩
    exact ⟨token, h.readFrom_iff.mpr ⟨rfl, ha⟩, hp, hs⟩

end X509Client

/-! ## Decentralized identifiers -/

namespace Did
variable [SsiKeys]

/-- The token was signed with this key in the name of the client id: by an algorithm that the wallet
supports, and as its header says for a verification method of the identifier, which is trusted. -/
structure Signed (walletMetadata : WalletMetadata) (trustedDids : Option (List String))
    (o : AuthorizationRequestObject) (jwt kid : String) (key : JWK) : Prop where
  headers : ∃ headers alg, readHeaders o.state jwt = .ok headers ∧
    headers.get? "alg" = some (.string alg) ∧ walletMetadata.SupportsAlg alg ∧
    headers.get? "kid" = some (.string kid)
  did : ∃ fragment, splitOnce '#' kid = some (o.clientId.id, fragment)
  trusted : ∀ dids, trustedDids = some dids → o.clientId.id ∈ dids
  signature : ∃ claims, SsiKeys.decodeVerify jwt key = some claims

variable {trustedDids : Option (List String)} {o : AuthorizationRequestObject}

omit [SerdeJson] [SerdeJsonPath] [JsonSchema] [UrlCrate] [Base64Url] [SsiJwt] [SsiKeys] in
theorem ensureTrusted_eq_ok_iff {state : Option String} {did : String} {u : Unit} :
    ensureTrusted state trustedDids did = .ok u ↔
      ∀ dids, trustedDids = some dids → did ∈ dids := by
  cases trustedDids <;> simp [ensureTrusted]

omit [SerdeJson] [SerdeJsonPath] [JsonSchema] [Base64Url] [SsiJwt] [SsiKeys] in
theorem readKid_eq_ok_iff {state : Option String} {headers : JsonMap} {kid : String} :
    readKid walletMetadata state headers = .ok kid ↔ ∃ alg,
      headers.get? "alg" = some (.string alg) ∧ walletMetadata.SupportsAlg alg ∧
      headers.get? "kid" = some (.string kid) := by
  simp only [readKid, Except.bind_eq_ok_iff, okOr_eq_ok_iff]
  constructor
  · rintro ⟨x, ha, h⟩
    cases x with
    | string alg =>
      simp only [Except.bind_eq_ok_iff, Except.pure_eq_ok_iff, okOr_eq_ok_iff,
        parsingError_eq_ok_iff, ensure_eq_ok_iff, List.contains_iff_mem, orInternal_eq_ok_iff] at h
      obtain ⟨alg, rfl, supported, hs, -, hm, y, hk, h⟩ := h
      cases y with
      | string kid =>
        obtain rfl := Except.pure_eq_ok_iff.mp h
        exact ⟨alg, ha, ⟨supported, hs, hm⟩, hk⟩
      | _ => cases h
    | _ => cases h
  · rintro ⟨alg, ha, ⟨supported, hs, hm⟩, hk⟩
    refine ⟨_, ha, ?_⟩
    simp only [Except.bind_eq_ok_iff, okOr_eq_ok_iff, parsingError_eq_ok_iff, ensure_eq_ok_iff,
      List.contains_iff_mem, orInternal_eq_ok_iff]
    exact ⟨_, rfl, supported, hs, (), hm, _, hk, rfl⟩

/-- A request is valid exactly when its token was signed in the name of its client id with the key
that the verification method is resolved to. -/
theorem verifyWithResolver_eq_ok_iff {resolver : JWKResolver σ} {s s' : σ} :
    verifyWithResolver walletMetadata o jwt trustedDids resolver s = (.ok (), s') ↔
      ∃ kid key, Signed walletMetadata trustedDids o jwt kid key ∧
        resolver.fetchPublicJwk (some kid) s = (.ok key, s') := by
  simp only [verifyWithResolver, Prog.ofExcept_bind_eq_ok_iff, readKid_eq_ok_iff,
    matchDid_eq_ok_iff, ensureTrusted_eq_ok_iff]
  constructor
  · rintro ⟨headers, hh, kid, ⟨alg, ha, hs, hk⟩, did, ⟨f, hf, rfl⟩, -, ht, h⟩
    obtain ⟨key, s₁, hr, h⟩ := Prog.bind_eq_ok_iff.mp h
    obtain ⟨claims, hc, h⟩ := Prog.ofExcept_bind_eq_ok_iff.mp h
    obtain ⟨-, rfl⟩ := Prog.pure_eq_ok_iff.mp h
    refine ⟨kid, key, ⟨⟨headers, alg, hh, ha, hs, hk⟩, ⟨f, hf⟩, ht, claims, ?_⟩, ?_⟩
    · exact okOr_eq_ok_iff.mp hc
    · exact Prog.mapError_eq_ok_iff.mp hr
  · rintro ⟨kid, key, ⟨⟨headers, alg, hh, ha, hs, hk⟩, ⟨f, hf⟩, ht, claims, hc⟩, hr⟩
    refine ⟨headers, hh, kid, ⟨alg, ha, hs, hk⟩, _, ⟨f, hf, rfl⟩, (), ht, ?_⟩
    refine Prog.bind_eq_ok_iff.mpr ⟨key, s', Prog.mapError_eq_ok_iff.mpr hr, ?_⟩
    exact Prog.ofExcept_bind_eq_ok_iff.mpr ⟨claims, okOr_eq_ok_iff.mpr hc, rfl⟩

variable [SsiJws] {c : DecentralizedIdentifierClient σ} {body : AuthorizationRequestObject}
  {s s' : σ} {f : String}

/-- A token of a client that was made for a verification method counts as signed in its name exactly
when the wallet supports the algorithm, there is one `#` in the verification method, the identifier
is trusted and the key verifies the signature. -/
theorem signed_iff_of_generateRequestObjectJwt
    (h : c.client.generateRequestObjectJwt body s = (.ok jwt, s'))
    (hc : rsplitOnce '#' c.vm = some (c.id.id, f)) (ho : o.clientId = c.id) :
    ∃ algorithm s₁, c.signer.alg s = (.ok algorithm, s₁) ∧ ∀ kid key,
      Signed walletMetadata trustedDids o jwt kid key ↔ kid = c.vm ∧
        walletMetadata.SupportsAlg algorithm ∧ c.vm.toList.count '#' = 1 ∧
        (∀ dids, trustedDids = some dids → c.id.id ∈ dids) ∧
        ∃ claims, SsiKeys.decodeVerify jwt key = some claims := by
  obtain ⟨header, s₁, hh, hj⟩ := Prog.bind_eq_ok_iff.mp h
  obtain ⟨algorithm, s₂, ha, hh⟩ := Prog.bind_eq_ok_iff.mp hh
  obtain ⟨rfl, rfl⟩ := Prog.pure_eq_ok_iff.mp hh
  obtain ⟨signature, -, rfl⟩ := generateJwt_eq_ok_iff.mp hj
  refine ⟨algorithm, _, Prog.mapError_eq_ok_iff.mp ha, fun kid key => ?_⟩
  have hd := readHeaders_compactToken o.state [("alg", .string algorithm), ("kid", .string c.vm),
    ("typ", .string mimeTypeOauthReqJwtShort)] (toTree body) signature
  rw [← compared_iff h ho hc, ← ho]
  constructor
  · rintro ⟨⟨headers, alg, hh, ha, hs, hk⟩, ⟨g, hg⟩, ht, hsig⟩
    obtain rfl := Except.ok.inj (hd.symm.trans hh)
    obtain rfl : algorithm = alg := Json.string.inj (Option.some.inj ha)
    obtain rfl : c.vm = kid := Json.string.inj (Option.some.inj hk)
    refine ⟨rfl, hs, ⟨_, _, hd, hk, ?_⟩, ht, hsig⟩
    exact matchDid_eq_ok_iff.mpr ⟨g, ho ▸ hg, congrArg ClientId.id ho⟩
  · rintro ⟨rfl, hs, ⟨headers, kid, hh, hk, hm⟩, ht, hsig⟩
    obtain rfl := Except.ok.inj (hd.symm.trans hh)
    obtain rfl : c.vm = kid := Json.string.inj (Option.some.inj hk)
    obtain ⟨g, hg, -⟩ := matchDid_eq_ok_iff.mp hm
    exact ⟨⟨_, algorithm, hd, rfl, hs, rfl⟩, ⟨g, ho ▸ hg⟩, ht, hsig⟩

end Did
end
end OpenID4VP
