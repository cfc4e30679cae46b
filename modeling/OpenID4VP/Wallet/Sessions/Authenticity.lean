import OpenID4VP.Core.AuthorizationRequest.Verification.Signature
import OpenID4VP.Wallet.Sessions.Interleaving

/-! # Whom sessions believe

A wallet may have its requests authenticated by the validations for certificates and decentralized
identifiers. Whatever the servers answer and whatever the other sessions do, a session accepts a
signed request in the name of such a client id only with a token that was signed in this name. -/

namespace OpenID4VP

section
variable [SerdeJson] [SerdeJsonPath] [JsonSchema] [UrlCrate] [Base64Url] [SsiJwt] [HttpCrate]
  [FormUrlencoded]

namespace Session
variable {w : Wallet σ} {url : Url} {o : AuthorizationRequestObject}
  {cs : List (walletInterface σ).Call}

/-- The calls of a session that accepts a token: its method has accepted the token that was
retrieved, and after that its nonce is checked. -/
inductive Believes (w : Wallet σ) (url : Url) (o : AuthorizationRequestObject) (jwt : String) :
    List (walletInterface σ).Call → Prop
  | intro (hu : AuthorizationRequest.fromUrl url w.metadata.authorizationEndpoint.url =
      .ok (.signed r)) (hj : Retrieves w r jwt retrieval) (hd : decodeRequest jwt = .ok o)
    (hn : ChecksNonce o nonce) (hc : r.clientId = o.clientId.getFullId) :
    Believes w url o jwt (retrieval ++ ⟨.verify o.clientId.idPrefix o jwt, .ok ()⟩ :: nonce)

theorem Believes.mem {jwt : String} (h : Believes w url o jwt cs) :
    ⟨.verify o.clientId.idPrefix o jwt, .ok ()⟩ ∈ cs := by
  cases h
  exact List.mem_append_right _ List.mem_cons_self

theorem Believes.decodeRequest {jwt : String} (h : Believes w url o jwt cs) :
    OpenID4VP.decodeRequest jwt = .ok o := by
  cases h with
  | intro _ _ hd => exact hd

/-- A request that is accepted, and is not in its URL, has come in a token. -/
theorem Accepts.believes (h : Accepts w url o cs) (hp : o.clientId.idPrefix ≠ .redirectUri)
    (hu : AuthorizationRequest.fromUrl url w.metadata.authorizationEndpoint.url ≠ .ok (.plain o)) :
    ∃ jwt, Believes w url o jwt cs := by
  cases h with
  | browser h | plain h => exact absurd h hu
  | @signed r jwt retrieval authentication nonce hs hj hd ha hv hn hc =>
    cases ha with
    | method =>
      rw [List.append_assoc]
      exact ⟨jwt, .intro hs hj hd hn hc⟩
    | redirectUri h => exact absurd h hp

end Session

namespace Wallet
open Calls.Pool

/-- The methods of the wallet for certificates validate the token. -/
structure ValidatesCertificates [X509Cert] [X509Read] [Sha256] (w : Wallet σ)
    (fromSpki : X509San.FromSpki) (trustedRoots : Option (List Certificate)) : Prop where
  x509SanDns : w.x509SanDns = fun o jwt => .ofExcept <| orInternal <|
    X509San.validate fromSpki .sanDns w.metadata o jwt trustedRoots
  x509Hash : w.x509Hash = fun o jwt => .ofExcept <| orInternal <|
    X509San.validate fromSpki .hash w.metadata o jwt trustedRoots

/-- The method of the wallet for decentralized identifiers validates the token. -/
def ValidatesDids [SsiKeys] (w : Wallet σ) (trustedDids : Option (List String))
    (resolver : JWKResolver σ) : Prop :=
  w.decentralizedIdentifier = fun o jwt =>
    Did.verifyWithResolver w.metadata o jwt trustedDids resolver

/-- The tokens that the sessions of a run have given to the methods of their wallet. -/
def examined (t : List (κ × (walletInterface σ).Call)) : Set String :=
  {jwt | ∃ k idPrefix o answer, (k, ⟨.verify idPrefix o jwt, answer⟩) ∈ t}

/-- The tokens of a run, as the methods for certificates read them. -/
def examinedTokens [X509Cert] [X509Read] (w : Wallet σ)
    (t : List (κ × (walletInterface σ).Call)) : Set X509San.Token :=
  {token | ∃ jwt ∈ examined t, token.ReadFrom w.metadata jwt}

variable {w : Wallet σ} {o : AuthorizationRequestObject} {jwt : String} {s s' : σ}

omit [HttpCrate] [FormUrlencoded] in
/-- A token with a certificate is accepted exactly when it was signed with the key of a certificate
that the client id passes for. -/
theorem ValidatesCertificates.verifier_eq_ok_iff [X509Cert] [X509Read] [Sha256]
    {fromSpki : X509San.FromSpki} {trustedRoots : Option (List Certificate)}
    {variant : X509Variant} (hw : w.ValidatesCertificates fromSpki trustedRoots) :
    w.verifier variant.toPrefix o jwt s = (.ok (), s') ↔ s' = s ∧
      ∃ token : X509San.Token, token.ReadFrom w.metadata jwt ∧
        X509San.Passes variant token.leafCert token.leafCertDer o.clientId.id ∧
        token.Signed fromSpki := by
  have hv : w.verifier variant.toPrefix o jwt s = (orInternal
      (X509San.validate fromSpki variant w.metadata o jwt trustedRoots), s) := by
    cases variant with
    | hash => exact congrFun (congrFun (congrFun hw.x509Hash o) jwt) s
    | sanDns => exact congrFun (congrFun (congrFun hw.x509SanDns o) jwt) s
  rw [hv, Prod.mk.injEq, orInternal_eq_ok_iff, X509San.validate_eq_ok_iff_signed, and_comm,
    eq_comm (a := s)]

omit [HttpCrate] [FormUrlencoded] in
/-- A token with the key of a decentralized identifier is accepted exactly when it was signed with
this key. -/
theorem ValidatesDids.verifier_eq_ok_iff [SsiKeys] {trustedDids : Option (List String)}
    {resolver : JWKResolver σ} (hw : w.ValidatesDids trustedDids resolver) :
    w.verifier .decentralizedIdentifier o jwt s = (.ok (), s') ↔
      ∃ kid key, Did.Signed w.metadata trustedDids o jwt kid key ∧
        resolver.fetchPublicJwk (some kid) s = (.ok key, s') := by
  rw [← Did.verifyWithResolver_eq_ok_iff]
  exact iff_of_eq (congrArg (· = _) (congrFun (congrFun (congrFun hw o) jwt) s))

variable [HttpStatus] [UuidCrate] [UrlFragment] {tasks : κ → Task} {t₀ : World σ} [DecidableEq κ]
  {k : κ} {url : Url} {t : List (κ × (walletInterface σ).Call)}
  {P : Calls.Pool (walletInterface σ) (World σ) κ Error Outcome}

omit [HttpStatus] [UuidCrate] [UrlFragment] in
theorem mem_examined (h : Session.Believes w url o jwt (callsOf k t)) : jwt ∈ examined t :=
  ⟨k, _, _, _, mem_callsOf.mp h.mem⟩

/-- Under every schedule, a session that has accepted a request in a token has had it authenticated
by the method of its prefix, which has accepted it in some state of the wallet. -/
theorem believes_of_steps (h : (w.sessions tasks t₀).Steps w.answer t P)
    (hk : tasks k = .validate url) (hd : P.progs k = .done (.ok (.accepted o)))
    (hp : o.clientId.idPrefix ≠ .redirectUri)
    (hu : AuthorizationRequest.fromUrl url w.metadata.authorizationEndpoint.url ≠ .ok (.plain o)) :
    ∃ jwt s s', Session.Believes w url o jwt (callsOf k t) ∧
      w.verifier o.clientId.idPrefix o jwt s = (.ok (), s') := by
  have hc := finishes_session_iff.mp (h.progs_eq_done_iff.mp hd)
  rw [hk] at hc
  cases hc with
  | accepted ha =>
    obtain ⟨jwt, hb⟩ := ha.believes hp hu
    obtain ⟨s, hs⟩ := h.exists_of_mem_callsOf hb.mem
    exact ⟨jwt, s.state, _, hb, Prod.ext hs.symm rfl⟩

/-- Under every schedule, a session accepts a token under a prefix for certificates only if it was
signed with the key of a certificate that the client id passes for. -/
theorem ValidatesCertificates.signed_of_steps [X509Cert] [X509Read] [Sha256]
    {fromSpki : X509San.FromSpki} {trustedRoots : Option (List Certificate)}
    {variant : X509Variant} (hw : w.ValidatesCertificates fromSpki trustedRoots)
    (h : (w.sessions tasks t₀).Steps w.answer t P) (hk : tasks k = .validate url)
    (hd : P.progs k = .done (.ok (.accepted o)))
    (hp : o.clientId.idPrefix = variant.toPrefix)
    (hu : AuthorizationRequest.fromUrl url w.metadata.authorizationEndpoint.url ≠ .ok (.plain o)) :
    ∃ jwt token, Session.Believes w url o jwt (callsOf k t) ∧
      X509San.Token.ReadFrom w.metadata jwt token ∧
      X509San.Passes variant token.leafCert token.leafCertDer o.clientId.id ∧
      token.Signed fromSpki := by
  have hr : o.clientId.idPrefix ≠ .redirectUri := by
    rw [hp]
    cases variant <;> exact nofun
  obtain ⟨jwt, s, s', hb, hv⟩ := believes_of_steps h hk hd hr hu
  rw [hp, hw.verifier_eq_ok_iff] at hv
  obtain ⟨-, token, ht⟩ := hv
  exact ⟨jwt, token, hb, ht⟩

/-- Under every schedule, a session accepts a token under the prefix for decentralized identifiers
only if it was signed with a key that a verification method of the identifier was resolved to. -/
theorem ValidatesDids.signed_of_steps [SsiKeys] {trustedDids : Option (List String)}
    {resolver : JWKResolver σ} (hw : w.ValidatesDids trustedDids resolver)
    (h : (w.sessions tasks t₀).Steps w.answer t P) (hk : tasks k = .validate url)
    (hd : P.progs k = .done (.ok (.accepted o)))
    (hp : o.clientId.idPrefix = .decentralizedIdentifier)
    (hu : AuthorizationRequest.fromUrl url w.metadata.authorizationEndpoint.url ≠ .ok (.plain o)) :
    ∃ jwt kid key s s', Session.Believes w url o jwt (callsOf k t) ∧
      Did.Signed w.metadata trustedDids o jwt kid key ∧
      resolver.fetchPublicJwk (some kid) s = (.ok key, s') := by
  obtain ⟨jwt, s, s', hb, hv⟩ := believes_of_steps h hk hd (by rw [hp]; exact nofun) hu
  rw [hp, hw.verifier_eq_ok_iff] at hv
  obtain ⟨kid, key, hs, hr⟩ := hv
  exact ⟨jwt, kid, key, s, s', hb, hs, hr⟩

end Wallet
end
end OpenID4VP
