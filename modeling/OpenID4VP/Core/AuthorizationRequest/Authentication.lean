import OpenID4VP.Core.AuthorizationRequest.Verification
import OpenID4VP.Crates.Reference

/-! # Who authenticates a request

A request is authenticated when the method of its client id prefix has accepted it. A request that
comes in a token is dispatched by its prefix. A plain request goes to `redirect_uri` whatever its
prefix is, so it is authenticated only if that is its prefix. -/

namespace OpenID4VP

section
variable [SerdeJson] [SerdeJsonPath] [JsonSchema] [UrlCrate] [Base64Url] [SsiJwt]

/-- The method of the request's client id prefix was called on it and accepted it. -/
def Authenticated (log : List Event) (o : AuthorizationRequestObject) : Prop :=
  .verified o.clientId.idPrefix o (.ok ()) ∈ log

namespace Wallet

variable {w : Wallet σ} {o : AuthorizationRequestObject}

omit [SerdeJson] [Base64Url] in
/-- Every prefix but `redirect_uri` has its request in a token authenticated by its own method. -/
theorem authenticated_of_authenticateJwt {jwt : String} {s s' : World σ}
    (hp : o.clientId.idPrefix ≠ .redirectUri)
    (h : w.authenticateJwt o jwt s = (.ok (), s')) : Authenticated s'.log o := by
  rw [Authenticated]
  cases hc : o.clientId.idPrefix <;> simp only [authenticateJwt, hc] at h
  case redirectUri => exact absurd hc hp
  all_goals exact mem_log_of_record h

/-- The wallet's own method for tokens of the prefix `redirect_uri` accepts this request only after
`redirect_uri` has. -/
def DefersToRedirectUri (w : Wallet σ) (o : AuthorizationRequestObject) (jwt : String) (s : σ) :
    Prop :=
  ∀ w', w.runVerifier (w.redirectUriJwt o jwt) ⟨s, []⟩ = (.ok (), w') →
    .verified .redirectUri o (.ok ()) ∈ w'.log

omit [SerdeJson] [Base64Url] in
/-- The method that wallets have unless they give their own. -/
theorem defersToRedirectUri_provided {jwt : String} {s : σ}
    (h : w.redirectUriJwt = OpenID4VP.redirectUriJwt σ) : w.DefersToRedirectUri o jwt s := by
  intro w' hw
  rw [h, OpenID4VP.redirectUriJwt] at hw
  cases hs : isSignedJwt jwt with
  | error e => simp [hs, runVerifier] at hw
  | ok signed =>
    cases signed with
    | true => simp [hs, runVerifier] at hw
    | false =>
      cases hu : o.returnUri with
      | none => simp [hs, hu, runVerifier] at hw
      | some uri =>
        simp only [hs, hu, runVerifier, Prog.bind_eq_ok_iff] at hw
        obtain ⟨outcome, w₁, h1, h2⟩ := hw
        obtain ⟨rfl, rfl⟩ : outcome = .ok () ∧ w₁ = w' := Prod.mk.inj h2
        exact mem_log_of_record (Prog.attempt_eq_iff.mp h1)

/-- Whatever this request is verified as, unless it is answered through the browser, has been
authenticated by the method of its prefix. -/
def AuthenticatesByPrefix (w : Wallet σ) (r : FetchedAuthorizationRequest) (s : σ) : Prop :=
  ∀ o w', w.verifyRequest r ⟨s, []⟩ = (.ok o, w') → o.responseMode.isDcApi = false →
    Authenticated w'.log o

/-- When a request is authenticated by the method of its prefix. A plain request has to have the
prefix `redirect_uri`, or to be answered through the browser, or be refused by `redirect_uri` or for
the metadata. In a token of the prefix `redirect_uri`, it takes a method that calls it. -/
def DispatchedByPrefix (w : Wallet σ) (s : σ) : FetchedAuthorizationRequest → Prop
  | .plain o => o.clientId.idPrefix = .redirectUri ∨ o.responseMode.isDcApi = true ∨
    validateRequestAgainstMetadata w.metadata o ≠ .ok () ∨
    ∀ uri, o.returnUri = some uri → (w.redirectUri o uri s).1 ≠ .ok ()
  | .unverifiedJwt jwt => ∀ o, decodeRequest jwt = .ok o → o.clientId.idPrefix = .redirectUri →
    o.responseMode.isDcApi = false → validateRequestAgainstMetadata w.metadata o = .ok () →
    w.DefersToRedirectUri o jwt s

theorem verifyRequest_plain_eq_ok_iff {s s' : World σ} {o' : AuthorizationRequestObject} :
    w.verifyRequest (.plain o) s = (.ok o', s') ↔
      o' = o ∧ w.authenticatePlain o s = (.ok (), s') ∧
      validateRequestAgainstMetadata w.metadata o = .ok () := by
  simp only [verifyRequest, pure_bind, Prog.bind_eq_ok_iff, Prog.ofExcept_apply,
    Prog.pure_eq_ok_iff, Prod.mk.injEq]
  constructor
  · rintro ⟨_, s₁, ha, _, s₂, ⟨hv, rfl⟩, rfl, rfl⟩
    exact ⟨rfl, ha, hv⟩
  · rintro ⟨rfl, ha, hv⟩
    exact ⟨(), s', ha, (), s', ⟨hv, rfl⟩, rfl, rfl⟩

theorem verifyRequest_jwt_eq_ok_iff {s s' : World σ} {jwt : String} :
    w.verifyRequest (.unverifiedJwt jwt) s = (.ok o, s') ↔
      decodeRequest jwt = .ok o ∧ w.authenticateJwt o jwt s = (.ok (), s') ∧
      validateRequestAgainstMetadata w.metadata o = .ok () := by
  simp only [verifyRequest, pure_bind, Prog.bind_eq_ok_iff, Prog.ofExcept_apply,
    Prog.pure_eq_ok_iff, Prod.mk.injEq]
  constructor
  · rintro ⟨o', s₀, ⟨hd, rfl⟩, _, s₁, ha, _, s₂, ⟨hv, rfl⟩, rfl, rfl⟩
    exact ⟨hd, ha, hv⟩
  · rintro ⟨hd, ha, hv⟩
    exact ⟨o, s, ⟨hd, rfl⟩, (), s', ha, (), s', ⟨hv, rfl⟩, rfl, rfl⟩

theorem authenticatesByPrefix_plain_iff {s : σ} :
    w.AuthenticatesByPrefix (.plain o) s ↔ w.DispatchedByPrefix s (.plain o) := by
  constructor
  · intro h
    by_contra hn
    simp only [DispatchedByPrefix, not_or, not_forall, ne_eq, not_not] at hn
    obtain ⟨hp, hm, hv, uri, hu, hr⟩ := hn
    have ha : w.authenticatePlain o ⟨s, []⟩ =
        (.ok (), ⟨(w.redirectUri o uri s).2, [.verified .redirectUri o (.ok ())]⟩) := by
      simp only [authenticatePlain, hu, callRedirectUri, record_apply, hr, List.nil_append]
    have hl := h o _ (verifyRequest_plain_eq_ok_iff.mpr ⟨rfl, ha, hv⟩) (by simpa using hm)
    rw [Authenticated, List.mem_singleton, Event.verified.injEq] at hl
    exact hp hl.1
  · intro h o' w' hv hm
    obtain ⟨rfl, ha, hv⟩ := verifyRequest_plain_eq_ok_iff.mp hv
    cases hu : o'.returnUri with
    | none => simp [authenticatePlain, hu, hm] at ha
    | some uri =>
      simp only [authenticatePlain, hu] at ha
      have hl := mem_log_of_record ha
      rw [callRedirectUri, record_apply, Prod.mk.injEq] at ha
      rcases h with hp | hm' | hv' | hr
      · rwa [Authenticated, hp]
      · rw [hm] at hm'
        exact absurd hm' Bool.false_ne_true
      · exact absurd hv hv'
      · exact absurd ha.1 (hr uri hu)

theorem authenticatesByPrefix_jwt_iff {jwt : String} {s : σ} :
    w.AuthenticatesByPrefix (.unverifiedJwt jwt) s ↔
      w.DispatchedByPrefix s (.unverifiedJwt jwt) := by
  constructor
  · intro h o hd hp hm hv w' hw
    have ha : w.authenticateJwt o jwt ⟨s, []⟩ = (.ok (), w') := by
      simpa only [authenticateJwt, hp] using hw
    have hl := h o w' (verifyRequest_jwt_eq_ok_iff.mpr ⟨hd, ha, hv⟩) hm
    rwa [Authenticated, hp] at hl
  · intro h o w' hv hm
    obtain ⟨hd, ha, hv⟩ := verifyRequest_jwt_eq_ok_iff.mp hv
    by_cases hp : o.clientId.idPrefix = .redirectUri
    · simp only [authenticateJwt, hp] at ha
      rw [Authenticated, hp]
      exact h o hd hp hm hv w' ha
    · exact authenticated_of_authenticateJwt hp ha

theorem authenticatesByPrefix_iff {r : FetchedAuthorizationRequest} {s : σ} :
    w.AuthenticatesByPrefix r s ↔ w.DispatchedByPrefix s r := by
  cases r with
  | plain o => exact authenticatesByPrefix_plain_iff
  | unverifiedJwt jwt => exact authenticatesByPrefix_jwt_iff

end Wallet
end

/-! ## A plain request that claims a certificate -/

namespace Sample
open scoped Reference

def endpoint : Url := Reference.UrlText.mk "openid4vp:".toList none none rfl

def responseUri : Url :=
  Reference.UrlText.mk "https://verifier.example/response".toList none none rfl

def definitionUri : Url :=
  Reference.UrlText.mk "https://verifier.example/definition".toList none none rfl

/-- A request object of a verifier with this client id. -/
def requestObject (clientId : String) : UntypedObject where
  entries := [("client_id", .string clientId), ("client_metadata", .object []),
    ("nonce", .string "n"),
    ("presentation_definition_uri", .string "https://verifier.example/definition"),
    ("response_mode", .string "direct_post"), ("response_type", .string "vp_token"),
    ("response_uri", .string "https://verifier.example/response")]
  wf := rfl

def request (clientId : ClientId) (inner : UntypedObject) : AuthorizationRequestObject where
  inner := inner
  clientId := clientId
  responseMode := .directPost
  responseType := .vpToken
  presentationQuery := .presentationDefinition (.byReference definitionUri)
  returnUri := some responseUri
  nonce := ⟨"n"⟩
  clientMetadata := ⟨.empty⟩
  expectedOrigins := none

def x509Request : AuthorizationRequestObject :=
  request ⟨"verifier.example", .x509SanDns⟩ (requestObject "x509_san_dns:verifier.example")

/-- The request is one that the wallet reads. -/
theorem tryFrom_x509Request :
    AuthorizationRequestObject.tryFrom x509Request.inner = .ok x509Request := rfl

/-- The metadata of a wallet that supports these client id prefixes. -/
def metadata (prefixes : List Json) (h : (Json.array prefixes).wellFormed = true) :
    WalletMetadata :=
  .new ⟨endpoint⟩ ⟨.empty⟩ ⟨[.vpToken]⟩ <| some
    ⟨[("client_id_prefixes_supported", .array prefixes)], by
      simp [Json.wellFormed_object, Members.keys, h]⟩

/-- A wallet that accepts every plain request, and no certificate. -/
def wallet : Wallet Unit where
  metadata := metadata [.string "x509_san_dns"] rfl
  redirectUri _ _ := pure ()
  execute _ := throw (.msg "offline")
  generateNonce := pure none
  validateNonce _ := pure true

/-- It is `redirect_uri` that has verified the request. -/
theorem not_authenticatesByPrefix_x509Request :
    ¬wallet.AuthenticatesByPrefix (.plain x509Request) () := by
  intro h
  have hl := h x509Request _ rfl rfl
  exact absurd (List.mem_singleton.mp hl) nofun

end Sample
end OpenID4VP
