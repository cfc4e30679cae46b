import OpenID4VP.Core.AuthorizationRequest.Resolve

/-! # The requests a wallet is given

A wallet is given a request as a URL, which it parses and validates. A context on an error goes
through `anyhow`, and whatever the error was it is internal then: no protocol error comes out. -/

namespace OpenID4VP

section
variable [SerdeJson] [SerdeJsonPath] [JsonSchema] [UrlCrate] [Base64Url] [SsiJwt] [HttpCrate]
  [FormUrlencoded]

namespace Wallet

def validateRequest (w : Wallet σ) (url : Url) :
    Prog (World σ) Error AuthorizationRequestObject := do
  let ar ← .ofExcept <|
    (AuthorizationRequest.fromUrl url w.metadata.authorizationEndpoint.url).mapError
      (.context "unable to parse authorization request")
  .mapError (.context "unable to validate authorization request") (ar.validate w)

variable {w : Wallet σ} {url : Url} {s : World σ}

/-! ## The errors of a request -/

/-- The request at the URL fails with a protocol error, when it is parsed or when it is validated
in the state `s`. -/
inductive ProtocolFailure (w : Wallet σ) (url : Url) (s : World σ) :
    ErrorType → Option String → Prop
  | parse (h : AuthorizationRequest.fromUrl url w.metadata.authorizationEndpoint.url =
      .error (.protocol type description state source)) : ProtocolFailure w url s type state
  | validate (h : AuthorizationRequest.fromUrl url w.metadata.authorizationEndpoint.url = .ok ar)
    (hv : (ar.validate w s).1 = .error (.protocol type description state source)) :
    ProtocolFailure w url s type state

/-- The protocol error of a request is the error that the wallet reports: of the same type, with
the same state. -/
def ReportsProtocolErrors (w : Wallet σ) (url : Url) (s : World σ) : Prop :=
  ∀ type state, w.ProtocolFailure url s type state → ∃ description source,
    (w.validateRequest url s).1 = .error (.protocol type description state source)

/-- Every error has one of the two contexts. -/
theorem eq_context_of_validateRequest {e : Error} (h : (w.validateRequest url s).1 = .error e) :
    ∃ message source, e = .context message source := by
  rw [validateRequest, Prog.bind_apply, Prog.ofExcept_apply] at h
  cases hu : AuthorizationRequest.fromUrl url w.metadata.authorizationEndpoint.url with
  | error source =>
    rw [hu] at h
    exact ⟨_, source, (Except.error.inj h).symm⟩
  | ok ar =>
    rw [hu] at h
    change ((ar.validate w s).1.mapError _) = _ at h
    cases hv : (ar.validate w s).1 with
    | error source =>
      rw [hv] at h
      exact ⟨_, source, (Except.error.inj h).symm⟩
    | ok o =>
      rw [hv] at h
      exact nomatch h

theorem validateRequest_ne_protocol {type : ErrorType} {description state : Option String}
    {source : Option Anyhow} :
    (w.validateRequest url s).1 ≠ .error (.protocol type description state source) := by
  intro h
  obtain ⟨message, source, he⟩ := eq_context_of_validateRequest h
  exact nomatch he

/-- The wallet reports the protocol errors of a request only when there are none. -/
theorem reportsProtocolErrors_iff :
    w.ReportsProtocolErrors url s ↔ ∀ type state, ¬w.ProtocolFailure url s type state := by
  constructor
  · intro h type state hf
    obtain ⟨description, source, he⟩ := h type state hf
    exact validateRequest_ne_protocol he
  · intro h type state hf
    exact absurd hf (h type state)

end Wallet
end

/-! ## A URL without a query -/

namespace Sample
open scoped Reference

theorem not_reportsProtocolErrors_endpoint : ¬wallet.ReportsProtocolErrors endpoint ⟨(), []⟩ := by
  intro h
  obtain ⟨description, source, he⟩ := h .invalidRequest none (.parse rfl)
  exact Wallet.validateRequest_ne_protocol he

end Sample
end OpenID4VP
