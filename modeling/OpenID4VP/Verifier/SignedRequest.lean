import OpenID4VP.Core.AuthorizationRequest.Resolve
import OpenID4VP.Verifier.Client
import OpenID4VP.Verifier.Postcondition

/-! # Signed requests

The token of a request object goes to the wallet in the URL of the request or by reference. The
wallet reads the request from the URL, decodes the token, and compares the two client ids: it finds
the object that was signed, and the comparison passes. -/

namespace OpenID4VP

section
variable [SerdeJson] [SerdeJsonPath] [JsonSchema] [UrlCrate] [Base64Url]

/-! ## Decoding -/

/-- The object as it is read from its JSON. -/
def AuthorizationRequestObject.reread (o : AuthorizationRequestObject) :
    AuthorizationRequestObject :=
  { o with inner := o.intoUntyped }

/-- A request object from the JSON of its members. -/
def readRequestObject (x : Json) : Option AuthorizationRequestObject := do
  (AuthorizationRequestObject.tryFrom (← fromTree x)).toOption

theorem readRequestObject_intoUntyped {value : UntypedObject} {o : AuthorizationRequestObject}
    (h : o.ReadFrom value) : readRequestObject o.intoUntyped.toJson = some o.reread := by
  have hf : fromTree o.intoUntyped.toJson = some o.intoUntyped :=
    LawfulSerde.fromTree_toTree o.intoUntyped
  have ht : AuthorizationRequestObject.tryFrom o.intoUntyped = .ok o.reread :=
    AuthorizationRequestObject.tryFrom_eq_ok_iff.mpr h.intoUntyped
  rw [readRequestObject, hf, Option.bind_eq_bind, Option.bind_some, ht]
  rfl

variable [SsiJwt]

/-- The request object in the payload of a token, whatever its header says. -/
def decodePayload (jwt : String) : Option AuthorizationRequestObject :=
  (SsiJwt.splitJws jwt).bind fun (_, payload, _) =>
    (readTokenPart payload).bind readRequestObject

variable [SsiJws] {value : UntypedObject} {o : AuthorizationRequestObject}

theorem decodePayload_compactToken (h : o.ReadFrom value) (header : Json)
    (signature : List UInt8) :
    decodePayload (compactToken header o.intoUntyped.toJson signature) = some o.reread := by
  rw [decodePayload, SsiJws.splitJws_compactToken, Option.bind_some]
  change (readTokenPart (tokenPart o.intoUntyped.toJson)).bind readRequestObject = _
  rw [readTokenPart_tokenPart, Option.bind_some, readRequestObject_intoUntyped h]

/-- The wallet decodes the token if its header can be read, and to the object in its payload. -/
theorem decodeRequest_compactToken (h : o.ReadFrom value) (header : Json)
    (signature : List UInt8) :
    decodeRequest (compactToken header o.intoUntyped.toJson signature) = .ok o' ↔
      SsiJws.readsHeader header = true ∧ o' = o.reread := by
  have hf : fromTree o.intoUntyped.toJson = some o.intoUntyped :=
    LawfulSerde.fromTree_toTree o.intoUntyped
  have ht : AuthorizationRequestObject.tryFrom o.intoUntyped = .ok o.reread :=
    AuthorizationRequestObject.tryFrom_eq_ok_iff.mpr h.intoUntyped
  rw [decodeRequest, SsiJws.decodeUnverified_compactToken]
  cases hr : SsiJws.readsHeader header with
  | true =>
    rw [if_pos rfl, Option.bind_some, hf]
    change AuthorizationRequestObject.tryFrom o.intoUntyped = _ ↔ _
    rw [ht, Except.ok.injEq, eq_comm]
    exact (and_iff_right rfl).symm
  | false => exact iff_of_false Except.throw_ne_ok fun h => Bool.false_ne_true h.1

/-! ## The pipeline -/

variable [HttpCrate] [FormUrlencoded]

/-- The comparison of client ids passes in every run of every wallet that has come to it with the
request object of this token. -/
def SignedAuthorizationRequest.PassesComparison (r : SignedAuthorizationRequest) (jwt : String) :
    Prop :=
  ∀ (τ : Type) (w : Wallet τ) (s s₁ s₂ s₃ : World τ) (aro : AuthorizationRequestObject),
    w.retrieveUnverifiedJwt r s = (.ok jwt, s₁) →
    w.verifyRequest (.unverifiedJwt jwt) s₁ = (.ok aro, s₂) →
    w.validateWalletNonce aro s₂ = (.ok (), s₃) → w.resolveAuthRequest r s = (.ok aro, s₃)

theorem passesComparison_compactToken (h : o.ReadFrom value) (header : Json)
    (signature : List UInt8) (indirection : RequestIndirection) :
    SignedAuthorizationRequest.PassesComparison ⟨o.clientId.getFullId, indirection⟩
      (compactToken header o.intoUntyped.toJson signature) := by
  intro τ w s s₁ s₂ s₃ aro hj hv hn
  have hd := (Wallet.verifyRequest_jwt_eq_ok_iff.mp hv).1
  obtain ⟨-, rfl⟩ := (decodeRequest_compactToken h header signature).mp hd
  exact Wallet.resolveAuthRequest_eq_ok_iff.mpr ⟨⟨_, s₁, s₂, hj, hv, hn⟩, rfl⟩

/-! ## Clients that sign -/

variable [X509Cert]

/-- The clients that are able to sign: those of the crate, and those that others make for a prefix
with tokens of their own header. -/
inductive SigningClient (σ : Type)
  | decentralizedIdentifier (c : DecentralizedIdentifierClient σ)
  | x509 (c : X509Client σ)
  | other (id : ClientId) (idPrefix : ClientIdPrefix) (header : Prog σ Anyhow Json)
    (signer : Signer σ)

namespace SigningClient

def client : SigningClient σ → Client σ
  | decentralizedIdentifier c => c.client
  | x509 c => c.client
  | other id idPrefix header signer => ⟨id, idPrefix, fun body => do
    let header ← header
    generateJwt header body signer⟩

/-- The header of the tokens of the client. -/
def header : SigningClient σ → Prog σ Anyhow Json
  | decentralizedIdentifier c => c.header
  | x509 c => c.header
  | other _ _ header _ => header

omit [SsiJwt] [SsiJws] [HttpCrate] [FormUrlencoded] in
/-- A token of the client is a compact one, with the request object as its claims. -/
theorem generateRequestObjectJwt_eq_ok {c : SigningClient σ} {o : AuthorizationRequestObject}
    {jwt : String} {s s' : σ} (h : c.client.generateRequestObjectJwt o s = (.ok jwt, s')) :
    ∃ header s₁ signature, c.header s = (.ok header, s₁) ∧
      jwt = compactToken header o.intoUntyped.toJson signature := by
  cases c with
  | decentralizedIdentifier c | x509 c | other _ _ header _ =>
    obtain ⟨header, s₁, hh, hj⟩ := Prog.bind_eq_ok_iff.mp h
    obtain ⟨signature, -, rfl⟩ := generateJwt_eq_ok_iff.mp hj
    exact ⟨header, s₁, signature, hh, rfl⟩

end SigningClient

/-- What becomes of a signed request: its URL is read as the request with the client id of the
client and the indirection that was asked for, its token has the object that was signed, and the
wallet finds that the client ids agree. -/
structure Arrives (c : SigningClient σ) (r : ByReference) (endpoint url : Url) (jwt : String)
    (s : σ) (o : AuthorizationRequestObject) (request : SignedAuthorizationRequest) : Prop where
  signed : ∃ s', c.client.generateRequestObjectJwt o s = (.ok jwt, s')
  fromUrl : AuthorizationRequest.fromUrl url endpoint = .ok (.signed request)
  clientId : request.clientId = c.client.id.getFullId
  requestIndirection : request.requestIndirection = r.indirection jwt
  payload : decodePayload jwt = some o.reread
  decoded : ∃ header s₁, c.header s = (.ok header, s₁) ∧
    (SsiJws.readsHeader header = true → decodeRequest jwt = .ok o.reread)
  comparison : request.PassesComparison jwt

namespace RequestBuilder

/-- The requests that a client signs arrive, as the request objects of their builders, whatever was
called on these. -/
theorem build_signed {c : SigningClient σ} {params : UntypedObject}
    {submissionEndpoint : Option Url} {calls : List Call} {value : UntypedObject}
    {m : WalletMetadata} {r : ByReference} {s s' : σ} {url : Url} {jwt : String}
    (hm : WalletMetadata.tryFrom value = .ok m)
    (h : (after ⟨c.client, params, submissionEndpoint⟩ calls).build m (.signedJwt r) s =
      (.ok (url, some jwt), s')) :
    ∃ o request, (after ⟨c.client, params, submissionEndpoint⟩ calls).requestObject m
        (.signedJwt r) = .ok o ∧
      Arrives c r m.authorizationEndpoint.url url jwt s o request := by
  obtain ⟨o, endpoint, ho, he, hc⟩ := build_eq_ok h
  obtain ⟨params', params'', mode, hq⟩ := requestObject_eq_ok_iff.mp ho
  have hv : (after ⟨c.client, params, submissionEndpoint⟩ calls).verifier.client = c.client :=
    congrArg Verifier.client (after_fields _ calls).1
  have hid : o.clientId = c.client.id := hv ▸ hq.clientId
  have hendpoint : endpoint = m.authorizationEndpoint := by
    have hr := WalletMetadata.tryFrom_eq_ok_iff.mp hm
    rw [hr.object, hr.authorizationEndpoint, Option.some_inj, Except.ok.injEq] at he
    exact he.symm
  subst hendpoint
  rw [hv] at hc
  cases hc with
  | signed hj =>
    obtain ⟨header, s₁, signature, hh, rfl⟩ := c.generateRequestObjectJwt_eq_ok hj
    refine ⟨o, ⟨c.client.id.getFullId, _⟩, ho, {
      signed := ⟨s', hj⟩
      fromUrl := AuthorizationRequest.fromUrl_intoUrl_signed _ _
      clientId := rfl
      requestIndirection := rfl
      payload := decodePayload_compactToken hq.readFrom header signature
      decoded := ⟨header, s₁, hh, fun hr =>
        (decodeRequest_compactToken hq.readFrom header signature).mpr ⟨hr, rfl⟩⟩
      comparison := ?_ }⟩
    rw [← hid]
    exact passesComparison_compactToken hq.readFrom header signature _

end RequestBuilder
end

namespace Sample
open scoped Reference

/-- A client with a certificate, whose signatures are one byte. -/
def signingClient : SigningClient Unit := .x509 {
  id := x509Client.id
  x5c := [[48, 0]]
  signer := ⟨pure "ES256", fun _ => pure [0]⟩
  variant := .sanDns }

theorem build_signingClient : ∃ url jwt,
    (RequestBuilder.after ⟨signingClient.client, verifier.defaultRequestParams, some responseUri⟩
      (calls .directPost)).build walletMetadata (.signedJwt .false) () =
        (.ok (url, some jwt), ()) :=
  ⟨_, _, rfl⟩

theorem build_signed_signingClient : ∃ url jwt o request,
    (RequestBuilder.after ⟨signingClient.client, verifier.defaultRequestParams, some responseUri⟩
      (calls .directPost)).requestObject walletMetadata (.signedJwt .false) = .ok o ∧
    Arrives signingClient .false endpoint url jwt () o request := by
  obtain ⟨url, jwt, h⟩ := build_signingClient
  obtain ⟨o, request, ho, ha⟩ := RequestBuilder.build_signed tryFrom_metadataObject h
  exact ⟨url, jwt, o, request, ho, ha⟩

end Sample
end OpenID4VP
