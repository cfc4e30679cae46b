import OpenID4VP.Crates.Reference.Signatures
import OpenID4VP.Verifier.Completeness
import OpenID4VP.Verifier.SigningLog
import OpenID4VP.Wallet.Sessions.Authenticity

/-! # Authenticity

A wallet has its requests authenticated by the validations for certificates and decentralized
identifiers. What a client signs is accepted when the wallet supports its algorithm and its key
verifies the signature. If nothing else has such a signature, then a request that is accepted in the
name of the client was built for it, and is accepted as it was built. -/

namespace OpenID4VP

section
variable [SerdeJson] [SerdeJsonPath] [JsonSchema] [UrlCrate] [Base64Url] [SsiJwt]

/-! ## Prefixes of clients -/

omit [SerdeJson] [SerdeJsonPath] [JsonSchema] [UrlCrate] [SsiJwt] in
theorem X509Client.idPrefix_of_clientId [X509Cert] [X509Read] [Sha256] {x5c : List Certificate}
    {variant : X509Variant} {id : ClientId} (h : clientId x5c variant = .ok id) :
    id.idPrefix = variant.toPrefix := by
  obtain ⟨leaf, -, h⟩ := Except.bind_eq_ok_iff.mp h
  have hn (text : String) := ClientId.new_getFullId ⟨text, variant.toPrefix⟩
  cases variant with
  | hash | sanDns =>
    obtain ⟨text, -, h⟩ := Except.bind_eq_ok_iff.mp h
    exact congrArg ClientId.idPrefix (Except.ok.inj (h.symm.trans (hn _)))

omit [SerdeJson] [SerdeJsonPath] [JsonSchema] [UrlCrate] [Base64Url] in
theorem DecentralizedIdentifierClient.idPrefix_of_new [SsiKeys] {vm : String} {signer : KeySigner σ}
    {resolver : JWKResolver σ} {c : DecentralizedIdentifierClient σ} {s s' : σ}
    (h : new vm signer resolver s = (.ok c, s')) : c.id.idPrefix = .decentralizedIdentifier := by
  obtain ⟨⟨text, f⟩, -, h⟩ := Prog.ofExcept_bind_eq_ok_iff.mp h
  obtain ⟨jwk, s₁, -, h⟩ := Prog.bind_eq_ok_iff.mp h
  obtain ⟨signerJwk, s₂, -, h⟩ := Prog.bind_eq_ok_iff.mp h
  obtain ⟨-, -, h⟩ := Prog.ofExcept_bind_eq_ok_iff.mp h
  obtain ⟨id, hid, h⟩ := Prog.ofExcept_bind_eq_ok_iff.mp h
  obtain ⟨rfl, -⟩ := Prog.pure_eq_ok_iff.mp h
  have hn := ClientId.new_getFullId ⟨text, .decentralizedIdentifier⟩
  exact congrArg ClientId.idPrefix (Except.ok.inj (hid.symm.trans hn))

/-! ## Honest runs -/

variable [HttpCrate] [FormUrlencoded]

omit [SerdeJson] [Base64Url] [HttpCrate] [FormUrlencoded] in
theorem Wallet.authenticateJwt_eq_ok_iff {w : Wallet τ} {o : AuthorizationRequestObject}
    {jwt : String} {t t' : World τ} (hp : o.clientId.idPrefix ≠ .redirectUri) :
    w.authenticateJwt o jwt t = (.ok (), t') ↔ ∃ s,
      w.verifier o.clientId.idPrefix o jwt t.state = (.ok (), s) ∧
        t' = ⟨s, t.log ++ [.verified o.clientId.idPrefix o (.ok ())]⟩ := by
  have ha : w.authenticateJwt o jwt =
      callVerifier o.clientId.idPrefix (w.verifier o.clientId.idPrefix) o jwt := by
    rw [authenticateJwt]
    cases hc : o.clientId.idPrefix with
    | redirectUri => exact absurd hc hp
    | _ => rfl
  rw [ha, callVerifier, record_apply, Prod.mk.injEq]
  constructor
  · rintro ⟨h, rfl⟩
    exact ⟨_, Prod.ext h rfl, by rw [h]⟩
  · rintro ⟨s, h, rfl⟩
    rw [h]
    exact ⟨rfl, rfl⟩

namespace RequestBuilder
variable {w : Wallet τ} {calls : List Call} {view : WalletMetadata} {s s' : σ}
  {defaults : UntypedObject} {submissionEndpoint : Option Url} {r : ByReference} {url : Url}
  {jwt : String} [SsiJws]

/-- A signed request is accepted as its object exactly when the header of its token can be read, the
formats meet, and the method of its prefix and the wallet nonce are accepted, in this order. -/
theorem exists_signed_of_build [X509Cert] {c : SigningClient σ}
    (hb : (after ⟨c.client, defaults, submissionEndpoint⟩ calls).build view (.signedJwt r) s =
      (.ok (url, some jwt), s'))
    (hv : view.Represents w.metadata) (hc : c.client.idPrefix = c.client.id.idPrefix)
    (hn : c.client.id.idPrefix ≠ .redirectUri) :
    ∃ o params params' mode header s₁,
      Encoded (after ⟨c.client, defaults, submissionEndpoint⟩ calls) view (.signedJwt r) params
        params' mode o ∧
      c.client.generateRequestObjectJwt o s = (.ok jwt, s') ∧ c.header s = (.ok header, s₁) ∧
      o.clientId = c.client.id ∧
      AuthorizationRequest.fromUrl url w.metadata.authorizationEndpoint.url =
        .ok (.signed ⟨c.client.id.getFullId, r.indirection jwt⟩) ∧ ∀ t t₁,
        w.retrieveUnverifiedJwt ⟨c.client.id.getFullId, r.indirection jwt⟩ t = (.ok jwt, t₁) →
        ∀ o' t', w.validateRequest url t = (.ok o', t') ↔
          o' = o.reread ∧ SsiJws.readsHeader header = true ∧ FormatsMeet w.metadata o ∧ ∃ st,
            w.verifier c.client.id.idPrefix o.reread jwt t₁.state = (.ok (), st) ∧
            w.validateWalletNonce o.reread
              ⟨st, t₁.log ++ [.verified c.client.id.idPrefix o.reread (.ok ())]⟩ =
                (.ok (), t') := by
  obtain ⟨o, params, params', mode, hq, hr⟩ := exists_encoded_of_build hb hv
  have hvf : (after ⟨c.client, defaults, submissionEndpoint⟩ calls).verifier.client = c.client :=
    congrArg Verifier.client (after_fields _ calls).1
  have hid : o.clientId = c.client.id := hvf ▸ hq.clientId
  cases hr with
  | signed hj =>
    obtain ⟨header, s₁, signature, hh, he⟩ := c.generateRequestObjectJwt_eq_ok hj
    refine ⟨o, params, params', mode, header, s₁, hq, hj, hh, hid, ?_, fun t t₁ hjwt o' t' => ?_⟩
    · exact AuthorizationRequest.fromUrl_intoUrl_signed _ _
    have ha : o.reread.clientId.idPrefix = c.client.id.idPrefix := congrArg ClientId.idPrefix hid
    rw [← hvf] at hc hjwt ⊢
    rw [hq.validateRequest_signed_iff hv hc he hjwt]
    rw [hvf]
    refine and_congr_right fun _ => and_congr_right fun _ => and_congr_right fun _ => ?_
    simp only [Wallet.authenticateJwt_eq_ok_iff (ha ▸ hn), ha]
    constructor
    · rintro ⟨t₂, ⟨st, hm, rfl⟩, hnonce⟩
      exact ⟨st, hm, hnonce⟩
    · rintro ⟨st, hm, hnonce⟩
      exact ⟨_, ⟨st, hm, rfl⟩, hnonce⟩

/-- A request that a client with certificates has signed is accepted as its object exactly when the
formats meet, the wallet supports the algorithm, the text of the prefix in front of the client id
makes no difference, the key of the certificate verifies the signature, and the nonce is valid.
Nobody has to trust the certificate. -/
theorem validateRequest_of_build_x509 [X509Cert] [X509Read] [Sha256] [X509Codec]
    {c : X509Client σ} {fromSpki : X509San.FromSpki} {trustedRoots : Option (List Certificate)}
    (hb : (after ⟨c.client, defaults, submissionEndpoint⟩ calls).build view (.signedJwt r) s =
      (.ok (url, some jwt), s'))
    (hv : view.Represents w.metadata) (hc : X509Client.clientId c.x5c c.variant = .ok c.id)
    (hw : w.ValidatesCertificates fromSpki trustedRoots) :
    ∃ o token header s₁,
      (after ⟨c.client, defaults, submissionEndpoint⟩ calls).requestObject view (.signedJwt r) =
        .ok o ∧
      Says ⟨c.client, defaults, submissionEndpoint⟩ calls o ∧
      c.Signs s s' o token jwt ∧ c.header s = (.ok header, s₁) ∧ ∀ t t₁,
        w.retrieveUnverifiedJwt ⟨c.id.getFullId, r.indirection jwt⟩ t = (.ok jwt, t₁) →
        ∀ o' t', w.validateRequest url t = (.ok o', t') ↔
          o' = o.reread ∧ SsiJws.readsHeader header = true ∧ FormatsMeet w.metadata o ∧
            w.metadata.SupportsAlg token.alg ∧
            X509San.PrefixKeepsNames c.variant token.leafCert token.leafCertDer c.id.id ∧
            token.Signed fromSpki ∧
            w.validateWalletNonce o.reread
              ⟨t₁.state, t₁.log ++ [.verified c.variant.toPrefix o.reread (.ok ())]⟩ =
                (.ok (), t') := by
  have hp : c.id.idPrefix = c.variant.toPrefix := X509Client.idPrefix_of_clientId hc
  have hcp : c.client.idPrefix = c.variant.toPrefix := by
    rw [X509Client.client]
    cases c.variant <;> rfl
  have hn : c.id.idPrefix ≠ .redirectUri := by
    rw [hp]
    cases c.variant <;> exact nofun
  obtain ⟨o, params, params', mode, header, s₁, hq, hj, hh, hid, -, h⟩ :=
    exists_signed_of_build (c := .x509 c) hb hv (hcp.trans hp.symm) hn
  obtain ⟨leaf, hl, -⟩ := Except.bind_eq_ok_iff.mp hc
  obtain ⟨token, ht⟩ := X509Client.exists_signs (okOr_eq_ok_iff.mp hl) hj
  refine ⟨o, token, header, s₁, hq.requestObject_eq, hq.says, ht, hh, fun t t₁ hjwt o' t' => ?_⟩
  rw [h t t₁ hjwt o' t']
  refine and_congr_right fun _ => and_congr_right fun _ => and_congr_right fun _ => ?_
  have hvalid : X509San.validate fromSpki c.variant w.metadata o.reread jwt trustedRoots = .ok () ↔
      _ := ht.validate_iff hc hid
  rw [X509San.validate_eq_ok_iff_signed] at hvalid
  change (∃ st, w.verifier c.id.idPrefix o.reread jwt t₁.state = _ ∧ w.validateWalletNonce o.reread
    ⟨st, t₁.log ++ [.verified c.id.idPrefix o.reread (.ok ())]⟩ = _) ↔ _
  rw [hp]
  simp only [hw.verifier_eq_ok_iff, hvalid, and_assoc, exists_eq_left]

/-- A request that a client has signed in the name of a decentralized identifier is accepted as its
object exactly when the formats meet, the wallet supports the algorithm, there is one `#` in the
verification method, the identifier is trusted, the key that the verification method is resolved to
verifies the signature, and the nonce is valid. -/
theorem validateRequest_of_build_did [X509Cert] [SsiKeys] {vm : String} {signer : KeySigner σ}
    {c : DecentralizedIdentifierClient σ} {u u' : σ} {clientResolver : JWKResolver σ}
    {resolver : JWKResolver τ} {trustedDids : Option (List String)}
    (hn : DecentralizedIdentifierClient.new vm signer clientResolver u = (.ok c, u'))
    (hb : (after ⟨c.client, defaults, submissionEndpoint⟩ calls).build view (.signedJwt r) s =
      (.ok (url, some jwt), s'))
    (hv : view.Represents w.metadata) (hw : w.ValidatesDids trustedDids resolver) :
    ∃ o algorithm header s₁ s₂,
      (after ⟨c.client, defaults, submissionEndpoint⟩ calls).requestObject view (.signedJwt r) =
        .ok o ∧
      Says ⟨c.client, defaults, submissionEndpoint⟩ calls o ∧
      c.signer.alg s = (.ok algorithm, s₁) ∧ c.header s = (.ok header, s₂) ∧ ∀ t t₁,
        w.retrieveUnverifiedJwt ⟨c.id.getFullId, r.indirection jwt⟩ t = (.ok jwt, t₁) →
        ∀ o' t', w.validateRequest url t = (.ok o', t') ↔
          o' = o.reread ∧ SsiJws.readsHeader header = true ∧ FormatsMeet w.metadata o ∧
            w.metadata.SupportsAlg algorithm ∧ vm.toList.count '#' = 1 ∧
            (∀ dids, trustedDids = some dids → c.id.id ∈ dids) ∧ ∃ key claims st,
              resolver.fetchPublicJwk (some vm) t₁.state = (.ok key, st) ∧
              SsiKeys.decodeVerify jwt key = some claims ∧
              w.validateWalletNonce o.reread
                ⟨st, t₁.log ++ [.verified .decentralizedIdentifier o.reread (.ok ())]⟩ =
                  (.ok (), t') := by
  obtain ⟨rfl, f, hf⟩ := Did.new_eq_ok hn
  have hp := DecentralizedIdentifierClient.idPrefix_of_new hn
  obtain ⟨o, params, params', mode, header, s₂, hq, hj, hh, hid, -, h⟩ := exists_signed_of_build
    (c := .decentralizedIdentifier c) hb hv hp.symm (fun hr => nomatch hp.symm.trans hr)
  obtain ⟨algorithm, s₁, ha, hsig⟩ : ∃ algorithm s₁, c.signer.alg s = (.ok algorithm, s₁) ∧
      ∀ kid key, Did.Signed w.metadata trustedDids o.reread jwt kid key ↔ _ :=
    Did.signed_iff_of_generateRequestObjectJwt hj hf hid
  refine ⟨o, algorithm, header, s₁, s₂, hq.requestObject_eq, hq.says, ha, hh,
    fun t t₁ hjwt o' t' => ?_⟩
  rw [h t t₁ hjwt o' t']
  refine and_congr_right fun _ => and_congr_right fun _ => and_congr_right fun _ => ?_
  change (∃ st, w.verifier c.id.idPrefix o.reread jwt t₁.state = _ ∧ w.validateWalletNonce o.reread
    ⟨st, t₁.log ++ [.verified c.id.idPrefix o.reread (.ok ())]⟩ = _) ↔ _
  simp only [hp, hw.verifier_eq_ok_iff, hsig]
  constructor
  · rintro ⟨st, ⟨kid, key, ⟨rfl, hsup, hone, htrust, claims, hc⟩, hr⟩, hnonce⟩
    exact ⟨hsup, hone, htrust, key, claims, st, hr, hc, hnonce⟩
  · rintro ⟨hsup, hone, htrust, key, claims, st, hr, hc, hnonce⟩
    exact ⟨st, ⟨c.vm, key, ⟨rfl, hsup, hone, htrust, claims, hc⟩, hr⟩, hnonce⟩

end RequestBuilder

/-! ## Agreement -/

section
open Calls.Pool
open RequestBuilder

/-- Of these tokens, the key verifies only those that have the request objects in a log. -/
def X509San.SignsOnly [X509Cert] [X509Read] (fromSpki : X509San.FromSpki)
    (key : SubjectPublicKeyInfo) (log : List SigningCall) (tokens : Set X509San.Token) : Prop :=
  ∀ token ∈ tokens, ∀ signature, Base64Url.decode token.sigB64 = some signature →
    X509San.Verifies fromSpki key token.alg token.payload signature →
      ∃ header body jwt, (body, .ok jwt) ∈ log ∧
        token.payload = signingInput header body.intoUntyped.toJson

/-- Of these tokens, the key verifies only those that have the request objects in a log. -/
def Did.SignsOnly [SsiKeys] (key : JWK) (log : List SigningCall) (tokens : Set String) : Prop :=
  ∀ jwt ∈ tokens, ∀ claims, SsiKeys.decodeVerify jwt key = some claims →
    ∃ header body signature jwt', (body, .ok jwt') ∈ log ∧
      jwt = compactToken header body.intoUntyped.toJson signature

variable [SsiJws] {c : Client σ} {orders : List Order} {s : σ} {o body : AuthorizationRequestObject}

omit [HttpCrate] in
/-- A token with a request object of the log is decoded as what was built for one of the orders. -/
theorem Client.exists_signs_of_decodeRequest {jwt : String} {header : Json}
    {signature : List UInt8} (h : (body, .ok jwt) ∈ c.log orders s)
    (hd : decodeRequest (compactToken header body.intoUntyped.toJson signature) = .ok o) :
    ∃ earlier x later jwt o', orders = earlier ++ x :: later ∧
      x.Signs c (c.serve earlier s) o' jwt ∧ Says (x.verifier c) x.calls o' ∧ o = o'.reread := by
  obtain ⟨earlier, x, later, hx, hs⟩ := mem_log_iff.mp h
  obtain ⟨params, params', mode, hq⟩ := requestObject_eq_ok_iff.mp hs.object
  obtain ⟨-, rfl⟩ := (decodeRequest_compactToken hq.readFrom header signature).mp hd
  exact ⟨earlier, x, later, jwt, body, hx, hs, hq.says, rfl⟩

variable [HttpStatus] [UuidCrate] [UrlFragment] {w : Wallet τ} {tasks : κ → Task} {t₀ : World τ}
  [DecidableEq κ] {k : κ} {url : Url} {t : List (κ × (walletInterface τ).Call)}
  {P : Calls.Pool (walletInterface τ) (World τ) κ Error Outcome}

/-- Under every schedule and whatever servers answer, a request that a session accepts in the name
of a client whose id is the digest of its certificate was built with this client for one of its
orders, and is accepted as it was built, if among the tokens of the run no other certificate has
this digest, and the key verifies only those that the log of the client has. -/
theorem agrees_x509Hash [X509Cert] [X509Read] [Sha256] [X509Codec] [SsiJwsParts] [Base64Canonical]
    {c : X509Client σ} {leaf : Certificate} {der : List UInt8} {fromSpki : X509San.FromSpki}
    {trustedRoots : Option (List Certificate)} (hc : X509Client.clientId c.x5c .hash = .ok c.id)
    (hl : c.x5c.head? = some leaf) (hder : X509Cert.toDer leaf = some der)
    (hcoll : ∀ token ∈ w.examinedTokens t,
      Sha256.digest token.leafCertDer = Sha256.digest der → token.leafCertDer = der)
    (hsig : X509San.SignsOnly fromSpki (X509Read.subjectPublicKeyInfo leaf)
      (c.client.log orders s) (w.examinedTokens t))
    (hw : w.ValidatesCertificates fromSpki trustedRoots)
    (h : (w.sessions tasks t₀).Steps w.answer t P) (hk : tasks k = .validate url)
    (hd : P.progs k = .done (.ok (.accepted o))) (ho : o.clientId = c.id)
    (hu : AuthorizationRequest.fromUrl url w.metadata.authorizationEndpoint.url ≠ .ok (.plain o)) :
    ∃ earlier x later jwt body, orders = earlier ++ x :: later ∧
      x.Signs c.client (c.client.serve earlier s) body jwt ∧
      Says (x.verifier c.client) x.calls body ∧ o = body.reread := by
  have hp : o.clientId.idPrefix = X509Variant.hash.toPrefix :=
    ho ▸ X509Client.idPrefix_of_clientId hc
  have hid : c.id.id = Base64Url.encode (Sha256.digest der) :=
    List.mem_singleton.mp (X509San.mem_leafNames_of_clientId hc hl hder)
  obtain ⟨jwt, token, hb, hr, hpass, signature, hs, hv⟩ := hw.signed_of_steps h hk hd hp hu
  have hmem : token ∈ w.examinedTokens t := ⟨jwt, Wallet.mem_examined hb, hr⟩
  rw [ho, hid, X509San.passes_hash_iff] at hpass
  have hleaf : leaf = token.leafCert := by
    have hf := hr.leafCert
    rw [hcoll token hmem hpass, X509Codec.fromDer_toDer _ _ hder] at hf
    exact Option.some.inj hf
  rw [← hleaf] at hv
  obtain ⟨header, body, jwt', hlog, hpay⟩ := hsig token hmem signature hs hv
  have ho := hb.decodeRequest
  rw [eq_compactToken hr.parts hpay hs] at ho
  exact Client.exists_signs_of_decodeRequest hlog ho

/-- Under every schedule and whatever servers answer, a request that a session accepts in the name
of a decentralized identifier was built with its client for one of the orders, and is accepted as it
was built, if the verification methods of the identifier are resolved only to keys that, among the
tokens of the run, verify only those that the log of the client has. -/
theorem agrees_decentralizedIdentifier [SsiKeys] {resolver : JWKResolver τ}
    {trustedDids : Option (List String)}
    (hr : ∀ kid fragment key u u', splitOnce '#' kid = some (c.id.id, fragment) →
      resolver.fetchPublicJwk (some kid) u = (.ok key, u') →
        Did.SignsOnly key (c.log orders s) (Wallet.examined t))
    (hw : w.ValidatesDids trustedDids resolver)
    (h : (w.sessions tasks t₀).Steps w.answer t P) (hk : tasks k = .validate url)
    (hd : P.progs k = .done (.ok (.accepted o)))
    (ho : o.clientId = ⟨c.id.id, .decentralizedIdentifier⟩)
    (hu : AuthorizationRequest.fromUrl url w.metadata.authorizationEndpoint.url ≠ .ok (.plain o)) :
    ∃ earlier x later jwt body, orders = earlier ++ x :: later ∧
      x.Signs c (c.serve earlier s) body jwt ∧ Says (x.verifier c) x.calls body ∧
      o = body.reread := by
  obtain ⟨jwt, kid, key, u, u', hb, hs, hf⟩ := hw.signed_of_steps h hk hd (by rw [ho]) hu
  obtain ⟨fragment, hkid⟩ := hs.did
  obtain ⟨claims, hv⟩ := hs.signature
  rw [ho] at hkid
  obtain ⟨header, body, signature, jwt', hlog, rfl⟩ :=
    hr kid fragment key u u' hkid hf jwt (Wallet.mem_examined hb) claims hv
  exact Client.exists_signs_of_decodeRequest hlog hb.decodeRequest

end
end

/-! ## A certificate of its verifier -/

namespace Sample
open scoped Reference

def signedObject : UntypedObject where
  entries := [("authorization_endpoint", .string "openid4vp:"),
    ("client_id_prefixes_supported", .array [.string "x509_san_dns", .string "x509_hash",
      .string "decentralized_identifier"]),
    ("request_object_signing_alg_values_supported", .array [.string "ES256"]),
    ("response_types_supported", .array [.string "vp_token"]), ("vp_formats_supported", .object [])]
  wf := rfl

/-- The metadata of a wallet that authenticates tokens. -/
def signedMetadata : WalletMetadata :=
  { walletMetadata with
    object := signedObject
    clientIdPrefixesSupported := ⟨[.x509SanDns, .x509Hash, .decentralizedIdentifier]⟩ }

theorem represents_signedMetadata : signedMetadata.Represents signedMetadata where
  authorizationEndpoint := rfl
  clientIdPrefixes := ⟨signedMetadata.clientIdPrefixesSupported, rfl,
    fun _ h => List.contains_iff_mem.mp h⟩
  responseTypes := List.Subset.refl _
  subjectSyntaxTypes := List.Subset.refl _

/-- The order of a signed request. -/
def signedOrder : Order where
  defaults := verifier.defaultRequestParams
  submissionEndpoint := some responseUri
  calls := calls .directPost
  walletMetadata := signedMetadata
  requestType := .signedJwt .false

/-- The builder of a client that signs. -/
def signedBuilder (c : Client Unit) : RequestBuilder Unit := signedOrder.builder c

theorem build_signedBuilder {c : Client Unit}
    (hp : signedMetadata.isClientIdPrefixSupported c.idPrefix = true)
    (hs : ∀ o, ∃ jwt, c.generateRequestObjectJwt o () = (.ok jwt, ())) :
    ∃ url jwt,
      (signedBuilder c).build signedMetadata (.signedJwt .false) () =
        (.ok (url, some jwt), ()) := by
  have hr : (signedBuilder c).Ready signedMetadata (.signedJwt .false) .directPost := {
    dcql := ⟨dcqlQuery, rfl, wellFormed_dcqlQuery, rfl⟩
    definition := rfl
    responseMode := rfl
    supportedMode := nofun
    responseType := rfl
    supportedType := List.mem_singleton_self _
    nonce := ⟨⟨"n"⟩, rfl⟩
    clientMetadata := ⟨⟨.empty⟩, rfl⟩
    submissionEndpoint := fun _ => rfl
    expectedOrigins := fun _ _ hm => absurd hm Bool.false_ne_true
    parsed := ⟨signedObject, rfl⟩
    supportedPrefix := hp
    signs := fun _ _ o _ => ⟨_, _, (hs o).choose_spec⟩ }
  have hc : (signedBuilder c).Consistent (.signedJwt .false) .directPost := {
    keepsClientId := fun h => absurd h.2 Bool.false_ne_true
    noDefinition := rfl
    noDefinitionUri := rfl
    noRedirectUri := fun _ => rfl
    noResponseUri := fun h => by rcases h with h | h <;> cases h
    readableOrigins := fun hm => absurd hm Bool.false_ne_true }
  obtain ⟨params, params', o, he⟩ := hc.exists_encoded hr
  obtain ⟨request, u, hb⟩ :=
    hr.exists_build he.requestObject_eq ()
  obtain ⟨o', endpoint, -, -, hcarries⟩ := RequestBuilder.build_eq_ok hb
  cases hcarries with
  | signed hj => exact ⟨_, _, hb⟩

theorem formatsMeet_signedBuilder {c : Client Unit} {o : AuthorizationRequestObject}
    (h : RequestBuilder.Says ⟨c, verifier.defaultRequestParams, some responseUri⟩
      (calls .directPost) o) : FormatsMeet signedMetadata o := by
  have hm : ClientMetadata.mk .empty = o.clientMetadata :=
    Except.ok.inj (Option.some.inj h.clientMetadata)
  intro v hv
  rw [← hm] at hv
  cases hv

theorem walletNonce_signedBuilder {c : Client Unit} {o : AuthorizationRequestObject}
    (h : RequestBuilder.Says ⟨c, verifier.defaultRequestParams, some responseUri⟩
      (calls .directPost) o) : o.reread.inner.get WalletNonce = none :=
  (o.get_intoUntyped (by simp [TypedParameter.key])).trans
    (h.other WalletNonce (by simp [TypedParameter.key, RequestBuilder.forcedKeys])).symm

/-- A verifier that knows what its key has signed: what the signature of this token is about. -/
def listed (jwt : String) : X509San.FromSpki := fun _ _ => .ok fun payload _ =>
  ensure ((SsiJwt.splitJws jwt).map (fun (h, b, _) => (h ++ "." ++ b).toUTF8.data.toList) =
    some payload) (.msg "this was not signed")

def certificateWallet (jwt : String) : Wallet Unit where
  metadata := signedMetadata
  x509SanDns o jwt' := .ofExcept <| orInternal <|
    X509San.validate (listed jwt) .sanDns signedMetadata o jwt' none
  x509Hash o jwt' := .ofExcept <| orInternal <|
    X509San.validate (listed jwt) .hash signedMetadata o jwt' none
  execute _ := throw (.msg "offline")
  generateNonce := pure none
  validateNonce _ := pure false

theorem validatesCertificates_certificateWallet (jwt : String) :
    (certificateWallet jwt).ValidatesCertificates (listed jwt) none := ⟨rfl, rfl⟩

theorem supportsAlg_signedMetadata : signedMetadata.SupportsAlg "ES256" :=
  ⟨.default, rfl, List.mem_cons_self⟩

/-- A client with the certificate, whose signatures are one byte. -/
def certificateClient (variant : X509Variant) (id : String) : X509Client Unit where
  id := ⟨id, variant.toPrefix⟩
  x5c := [Reference.leafDer]
  signer := ⟨pure "ES256", fun _ => pure [0]⟩
  variant := variant

theorem exists_jwt_certificateClient (variant : X509Variant) (id : String)
    (o : AuthorizationRequestObject) :
    ∃ jwt, (certificateClient variant id).client.generateRequestObjectJwt o () = (.ok jwt, ()) :=
  ⟨_, rfl⟩

theorem signed_listed {c : X509Client Unit} {body : AuthorizationRequestObject}
    {token : X509San.Token} {jwt : String} (h : c.Signs () () body token jwt) :
    token.Signed (listed jwt) := by
  obtain ⟨signature, -, -, -, hs⟩ := h.signed
  refine ⟨signature, ?_, _, rfl, ?_⟩
  · rw [hs]
    exact Base64Url.decode_encode signature
  · rw [ensure_eq_ok_iff, h.splitJws]
    exact decide_eq_true rfl

/-- The wallet accepts a request that the key of the certificate has signed. -/
theorem validateRequest_certificateClient : ∃ url jwt t' o,
    (signedBuilder (certificateClient .sanDns "verifier.example").client).build signedMetadata
      (.signedJwt .false) () = (.ok (url, some jwt), ()) ∧
    (certificateWallet jwt).validateRequest url ⟨(), []⟩ = (.ok o, t') ∧
    o.clientId = ⟨"verifier.example", .x509SanDns⟩ := by
  obtain ⟨url, jwt, hb⟩ := build_signedBuilder rfl <|
    exists_jwt_certificateClient .sanDns "verifier.example"
  obtain ⟨o, token, header, s₁, -, hs, ht, hh, h⟩ := RequestBuilder.validateRequest_of_build_x509
    hb represents_signedMetadata clientId_leaf (validatesCertificates_certificateWallet jwt)
  have hn := walletNonce_signedBuilder hs
  obtain ⟨signature, s₂, ha, -, -⟩ := ht.signed
  have halg : "ES256" = token.alg := Except.ok.inj (congrArg Prod.fst ha)
  refine ⟨url, jwt, _, o.reread, hb, (h ⟨(), []⟩ ⟨(), []⟩ rfl _ _).mpr ⟨rfl, rfl,
    formatsMeet_signedBuilder hs, halg ▸ supportsAlg_signedMetadata, ?_, signed_listed ht,
    Wallet.validateWalletNonce_eq_ok_iff.mpr (.inl ⟨hn, rfl⟩)⟩, hs.clientId⟩
  intro rest hr
  have hc : ':' ∈ "verifier.example".toList := by
    rw [show "verifier.example" = _ from hr, X509San.prefixText, String.toList_append,
      String.toList_append]
    simp
  exact absurd hc (by decide)

def hashClient : X509Client Unit :=
  certificateClient .hash (Base64Url.encode (Sha256.digest Reference.leafDer))

theorem clientId_hash {leaf : Certificate} {der : List UInt8}
    (h : X509Cert.toDer leaf = some der) : X509Client.clientId [leaf] .hash =
      .ok ⟨Base64Url.encode (Sha256.digest der), .x509Hash⟩ := by
  refine Except.bind_eq_ok_iff.mpr ⟨leaf, rfl, ?_⟩
  refine Except.bind_eq_ok_iff.mpr ⟨der, okOr_eq_ok_iff.mpr h, ?_⟩
  exact ClientId.new_getFullId ⟨Base64Url.encode (Sha256.digest der), .x509Hash⟩

theorem clientId_hashClient :
    X509Client.clientId hashClient.x5c .hash = .ok hashClient.id := clientId_hash rfl

theorem eq_leafDer_of_digest_eq (der : List UInt8)
    (h : Sha256.digest der = Sha256.digest Reference.leafDer) : der = Reference.leafDer := by
  have hd : Sha256.digest Reference.leafDer ≠ [] := by
    rw [show Sha256.digest Reference.leafDer = _ from if_pos rfl]
    decide +kernel
  by_contra hn
  rw [show Sha256.digest der = [] from if_neg hn] at h
  exact hd h.symm

theorem mem_log_signedOrder {c : Client Unit} {body : AuthorizationRequestObject} {jwt : String}
    {url : Url} (ho : signedOrder.object c = .ok body)
    (hb : (signedBuilder c).build signedMetadata (.signedJwt .false) () =
      (.ok (url, some jwt), ())) : (body, .ok jwt) ∈ c.log [signedOrder] () :=
  Client.mem_log_iff.mpr ⟨[], signedOrder, [], rfl, ho, url, (), hb⟩

theorem signsOnly_listed {c : X509Client Unit} {body : AuthorizationRequestObject}
    {token : X509San.Token} {jwt : String} {log : List SigningCall}
    (h : c.Signs () () body token jwt) (hl : (body, .ok jwt) ∈ log) (key : SubjectPublicKeyInfo)
    (tokens : Set X509San.Token) : X509San.SignsOnly (listed jwt) key log tokens := by
  rintro token' - signature - ⟨verify, hf, hv⟩
  cases hf
  rw [ensure_eq_ok_iff, h.splitJws, decide_eq_true_eq] at hv
  obtain ⟨rest, hrest⟩ := h.headersB64
  refine ⟨.object (X509Client.headerMembers token.alg
    (X509Cert.encodeStandard token.leafCertDer :: rest)), body, jwt, hl, ?_⟩
  rw [signingInput, ← hrest, ← h.bodyB64]
  exact (Option.some.inj hv).symm

theorem exists_signs_of_singleton {c : Client Unit} {o : AuthorizationRequestObject} {x : Order}
    (h : ∃ earlier y later jwt body, [x] = earlier ++ y :: later ∧
      y.Signs c (c.serve earlier ()) body jwt ∧
      RequestBuilder.Says (y.verifier c) y.calls body ∧ o = body.reread) :
    ∃ jwt body, x.Signs c () body jwt ∧ o = body.reread := by
  obtain ⟨earlier, y, later, jwt, body, hx, hs, -, ho⟩ := h
  obtain ⟨rfl, -⟩ | ⟨earlier, rfl, hx⟩ := List.cons_eq_append_iff.mp hx
  · cases hx
    exact ⟨jwt, body, hs, ho⟩
  · cases earlier <;> cases hx

/-- The wallet accepts the request of the client, and as it was built. -/
theorem agrees_hashClient : ∃ url jwt o t P,
    (signedBuilder hashClient.client).build signedMetadata (.signedJwt .false) () =
      (.ok (url, some jwt), ()) ∧
    ((certificateWallet jwt).sessions (fun _ : Unit => .validate url) ⟨(), []⟩).Steps
      (certificateWallet jwt).answer t P ∧
    P.progs () = .done (.ok (.accepted o)) ∧ ∃ jwt' body,
      signedOrder.Signs hashClient.client () body jwt' ∧ o = body.reread := by
  obtain ⟨url, jwt, hb⟩ := build_signedBuilder rfl (exists_jwt_certificateClient .hash _)
  have hw := validatesCertificates_certificateWallet jwt
  obtain ⟨o, params, params', mode, header, s₁, hq, hj, -, hid, hu, h⟩ :=
    RequestBuilder.exists_signed_of_build (c := .x509 hashClient) (w := certificateWallet jwt) hb
      represents_signedMetadata rfl nofun
  have hl : hashClient.x5c.head? = some Reference.leafDer := rfl
  obtain ⟨token, ht⟩ := X509Client.exists_signs hl hj
  have hlog := mem_log_signedOrder hq.requestObject_eq hb
  obtain ⟨signature, s₂, ha, -, -⟩ := ht.signed
  have halg : "ES256" = token.alg := Except.ok.inj (congrArg Prod.fst ha)
  have hleaf : Reference.leafDer = token.leafCert := Option.some.inj ht.head
  have hder : token.leafCert = token.leafCertDer := Option.some.inj ht.toDer
  have hv : (certificateWallet jwt).verifier X509Variant.hash.toPrefix o.reread jwt () =
      (.ok (), ()) := by
    refine hw.verifier_eq_ok_iff.mpr ⟨rfl, token, ?_, ?_, signed_listed ht⟩
    · exact ht.readFrom_iff.mpr ⟨rfl, halg ▸ supportsAlg_signedMetadata⟩
    · have hp : o.reread.clientId.id = Base64Url.encode (Sha256.digest token.leafCertDer) := by
        rw [← hder, ← hleaf]
        exact congrArg ClientId.id hid
      rw [hp]
      exact X509San.passes_hash_iff.mpr rfl
  have ho := (h ⟨(), []⟩ ⟨(), []⟩ rfl o.reread _).mpr ⟨rfl, rfl,
    formatsMeet_signedBuilder hq.says, (), hv,
    Wallet.validateWalletNonce_eq_ok_iff.mpr (.inl ⟨walletNonce_signedBuilder hq.says, rfl⟩)⟩
  obtain ⟨t, P, hP, hd⟩ : ∃ t P,
      ((certificateWallet jwt).sessions (fun _ : Unit => .validate url) ⟨(), []⟩).Steps
        (certificateWallet jwt).answer t P ∧ P.progs () = .done (.ok (.accepted o.reread)) :=
    Wallet.exists_steps_of_validateRequest rfl ho
  refine ⟨url, jwt, o.reread, t, P, hb, hP, hd, ?_⟩
  refine exists_signs_of_singleton (agrees_x509Hash (c := hashClient) clientId_hashClient hl rfl
    (fun _ _ => eq_leafDer_of_digest_eq _) (signsOnly_listed ht hlog _ _) hw hP rfl hd hid ?_)
  rw [hu]
  exact nofun

/-! ## A decentralized identifier of its verifier -/

/-- The key of the verification method, on the curve P-256 and uncompressed. -/
@[irreducible] def didKey : List UInt8 := (Base64Url.decode <|
  "BGXvwExQTZemxLYysC1dKsGGR7Rmjbr3HYcGIyE7TVEJzappgaj6eUZA4aihUs7O" ++
  "9jx1esBlstaYaMxW3YA0xU4").getD []

/-- The signature of this key for the token of the request. -/
@[irreducible] def didSignature : List UInt8 := (Base64Url.decode <|
  "vypv6j6U-KAIU0PLIOrli2WTFnPIbZmgbSYG8bb-BXQkhOnC8Lzm5WMd7q1YwnSY" ++
  "x9pdBx2gnXXIkPhutwYXCw").getD []

/-- The key verifies this token. -/
@[reducible] def didKeys (jwt : String) : SsiKeys where
  sameKey (a b : List UInt8) := a = b
  decodeVerify jwt' (key : List UInt8) :=
    if jwt' = jwt ∧ key = didKey then SsiJwt.decodeUnverified jwt else none

def keySigner (key : List UInt8) : KeySigner Unit :=
  ⟨⟨pure "ES256", fun _ => pure didSignature⟩, pure key⟩

def keyResolver (key : List UInt8) : JWKResolver Unit := ⟨fun _ => pure key⟩

def keyClient : DecentralizedIdentifierClient Unit :=
  ⟨⟨"did:example:verifier", .decentralizedIdentifier⟩, "did:example:verifier#key",
    (keySigner didKey).toSigner⟩

def keyWallet (jwt : String) : Wallet Unit where
  metadata := signedMetadata
  decentralizedIdentifier o jwt' :=
    letI := didKeys jwt
    Did.verifyWithResolver signedMetadata o jwt' none (keyResolver didKey)
  execute _ := throw (.msg "offline")
  generateNonce := pure none
  validateNonce _ := pure false

theorem new_keyClient (jwt : String) (key : List UInt8) : letI := didKeys jwt
    DecentralizedIdentifierClient.new "did:example:verifier#key" (keySigner key) (keyResolver key)
      () = (.ok keyClient, ()) := by
  have hk : decide (key = key) = true := decide_eq_true rfl
  refine Prog.ofExcept_bind_eq_ok_iff.mpr ⟨("did:example:verifier", "key"), rfl, ?_⟩
  refine Prog.bind_eq_ok_iff.mpr ⟨key, (), rfl, ?_⟩
  refine Prog.bind_eq_ok_iff.mpr ⟨key, (), rfl, ?_⟩
  exact Prog.ofExcept_bind_eq_ok_iff.mpr ⟨(), ensure_eq_ok_iff.mpr hk, rfl⟩

theorem exists_decodeVerify_didKeys {o : AuthorizationRequestObject} {jwt : String}
    (h : keyClient.client.generateRequestObjectJwt o () = (.ok jwt, ())) :
    ∃ claims, (didKeys jwt).decodeVerify jwt didKey = some claims := by
  obtain ⟨header, s₁, signature, -, hjwt⟩ :=
    SigningClient.generateRequestObjectJwt_eq_ok (c := .decentralizedIdentifier keyClient) h
  refine ⟨o.intoUntyped.toJson, (if_pos ⟨rfl, rfl⟩).trans ?_⟩
  rw [hjwt]
  exact SsiJws.decodeUnverified_compactToken _ _ _

/-- The wallet accepts a request that the key of the identifier has signed. -/
theorem validateRequest_keyClient : ∃ url jwt t' o,
    (signedBuilder keyClient.client).build signedMetadata (.signedJwt .false) () =
      (.ok (url, some jwt), ()) ∧
    (keyWallet jwt).validateRequest url ⟨(), []⟩ = (.ok o, t') ∧
    o.clientId = ⟨"did:example:verifier", .decentralizedIdentifier⟩ := by
  obtain ⟨url, jwt, hb⟩ := build_signedBuilder (c := keyClient.client) rfl fun _ => ⟨_, rfl⟩
  let := didKeys jwt
  obtain ⟨o, algorithm, header, s₁, s₂, -, hs, ha, -, h⟩ :=
    RequestBuilder.validateRequest_of_build_did (w := keyWallet jwt) (new_keyClient jwt didKey)
      hb represents_signedMetadata rfl
  have halg : "ES256" = algorithm := Except.ok.inj (congrArg Prod.fst ha)
  obtain ⟨o', endpoint, -, -, hcarries⟩ := RequestBuilder.build_eq_ok hb
  cases hcarries with
  | signed hj =>
    obtain ⟨claims, hclaims⟩ := exists_decodeVerify_didKeys hj
    exact ⟨_, jwt, _, o.reread, hb, (h ⟨(), []⟩ ⟨(), []⟩ rfl _ _).mpr ⟨rfl, rfl,
      formatsMeet_signedBuilder hs, halg ▸ supportsAlg_signedMetadata, by decide, nofun,
      didKey, claims, (), rfl, hclaims,
      Wallet.validateWalletNonce_eq_ok_iff.mpr (.inl ⟨walletNonce_signedBuilder hs, rfl⟩)⟩,
      hs.clientId⟩

/-- The wallet accepts the request of the client, and as it was built. -/
theorem agrees_keyClient : ∃ url jwt o t P,
    (signedBuilder keyClient.client).build signedMetadata (.signedJwt .false) () =
      (.ok (url, some jwt), ()) ∧
    ((keyWallet jwt).sessions (fun _ : Unit => .validate url) ⟨(), []⟩).Steps
      (keyWallet jwt).answer t P ∧
    P.progs () = .done (.ok (.accepted o)) ∧ ∃ jwt' body,
      signedOrder.Signs keyClient.client () body jwt' ∧ o = body.reread := by
  obtain ⟨url, jwt, hb⟩ := build_signedBuilder (c := keyClient.client) rfl fun _ => ⟨_, rfl⟩
  let := didKeys jwt
  obtain ⟨o, params, params', mode, header, s₁, hq, hj, -, hid, hu, h⟩ :=
    RequestBuilder.exists_signed_of_build (c := .decentralizedIdentifier keyClient)
      (w := keyWallet jwt) hb represents_signedMetadata rfl nofun
  obtain ⟨claims, hclaims⟩ := exists_decodeVerify_didKeys hj
  have hw : (keyWallet jwt).ValidatesDids none (keyResolver didKey) := rfl
  have hv : (keyWallet jwt).verifier .decentralizedIdentifier o.reread jwt () = (.ok (), ()) := by
    obtain ⟨algorithm, s₁, ha, hsig⟩ : ∃ algorithm s₁, keyClient.signer.alg () =
        (.ok algorithm, s₁) ∧ ∀ kid key, Did.Signed signedMetadata none o.reread jwt kid key ↔ _ :=
      Did.signed_iff_of_generateRequestObjectJwt hj rfl hid
    have halg : "ES256" = algorithm := Except.ok.inj (congrArg Prod.fst ha)
    refine hw.verifier_eq_ok_iff.mpr ⟨keyClient.vm, didKey, (hsig _ _).mpr ⟨rfl, ?_⟩, rfl⟩
    exact ⟨halg ▸ supportsAlg_signedMetadata, by decide, nofun, claims, hclaims⟩
  have ho := (h ⟨(), []⟩ ⟨(), []⟩ rfl o.reread _).mpr ⟨rfl, rfl,
    formatsMeet_signedBuilder hq.says, (), hv,
    Wallet.validateWalletNonce_eq_ok_iff.mpr (.inl ⟨walletNonce_signedBuilder hq.says, rfl⟩)⟩
  obtain ⟨t, P, hP, hd⟩ : ∃ t P,
      ((keyWallet jwt).sessions (fun _ : Unit => .validate url) ⟨(), []⟩).Steps
        (keyWallet jwt).answer t P ∧ P.progs () = .done (.ok (.accepted o.reread)) :=
    Wallet.exists_steps_of_validateRequest rfl ho
  refine ⟨url, jwt, o.reread, t, P, hb, hP, hd, ?_⟩
  have hlog := mem_log_signedOrder hq.requestObject_eq hb
  refine exists_signs_of_singleton
    (agrees_decentralizedIdentifier (c := keyClient.client) ?_ hw hP rfl hd hid ?_)
  · rintro kid fragment key u u' - hr jwt' - claims hverify
    obtain ⟨⟨rfl, -⟩, -⟩ := Option.ite_none_right_eq_some.mp hverify
    obtain ⟨header, s₁, signature, -, hjwt⟩ :=
      SigningClient.generateRequestObjectJwt_eq_ok (c := .decentralizedIdentifier keyClient) hj
    exact ⟨header, o, signature, jwt', hlog, hjwt⟩
  · rw [hu]
    exact nofun

end Sample
end OpenID4VP
