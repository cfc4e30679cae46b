import OpenID4VP.Core.HeldClaims
import OpenID4VP.Core.PresentationDefinition.RoundTrip
import OpenID4VP.Verifier.Conversation

/-! # Presentations

A verifier asks for a presentation definition and a holder answers with claims. The wallet resolves
the definition as the verifier has it, and what the verifier finds in the response at its endpoint
comes to a pass over the claims of the holder. -/

namespace OpenID4VP

section
variable [SerdeJson] [SerdeJsonPath] [JsonSchema] [UrlCrate] [Base64Url] [UuidCrate] [UrlFragment]
  [SsiJwt] [HttpCrate] [HttpStatus] [FormUrlencoded] [SsiJws] [X509Cert]

omit [UrlCrate] [Base64Url] [UuidCrate] [UrlFragment] [SsiJwt] [HttpCrate] [HttpStatus]
  [FormUrlencoded] [SsiJws] [X509Cert] in
/-- A canonical definition with fields is read from its JSON as it is. -/
theorem PresentationDefinition.Canonical.tryFrom_jsonOf {d : PresentationDefinition}
    (h : d.Canonical) (hf : d.HasFields) :
    TypedParameter.tryFrom (RequestBuilder.jsonOf d) = .ok d := by
  change fromStringOrValue (toTree d).toValue = _
  rw [Json.toValue_of_wellFormed h.wellFormed_toTree]
  exact fromValue_eq_ok_iff.mpr (h.fromTree_toTree_iff.mpr hf)

namespace RequestBuilder

variable {c : SigningClient σ} {defaults : UntypedObject} {submissionEndpoint : Option Url}
  {calls : List Call} {w : Wallet τ} {o : AuthorizationRequestObject} {t' t'' : World τ} {uri : Url}
  {definition : PresentationDefinition}

omit [UuidCrate] [UrlFragment] [HttpStatus] in
/-- The definition that was given last is the one in an accepted request. -/
theorem Accepted.presentationDefinition (h : Accepted c defaults submissionEndpoint calls w o t')
    (hd : lastDefinition calls = some definition) (hc : definition.Canonical)
    (hf : definition.HasFields) :
    o.presentationQuery = .presentationDefinition (.byValue definition) := by
  obtain ⟨o', ha, hq⟩ := h.presentationQuery_eq
  cases ha with
  | dcql _ hn _ _ => cases hn.symm.trans hd
  | definition _ hl hr hp =>
    obtain rfl := Option.some.inj (hl.symm.trans hd)
    obtain rfl := Except.ok.inj (hr.symm.trans (hc.tryFrom_jsonOf hf))
    exact hq.trans hp

/-- A wallet that has accepted a request for a definition resolves this definition. When it submits
a presentation of claims, the verifier finds at its endpoint what a pass over the claims gives. -/
theorem Accepted.presents {r : UnencodedAuthorizationResponse} {sub : PresentationSubmission}
    {claims : List HeldClaim} {u : Option Url}
    (h : Accepted c defaults submissionEndpoint calls w o t')
    (hd : lastDefinition calls = some definition) (hc : definition.Canonical)
    (hf : definition.HasFields) (hp : r.presentationSubmission = some sub)
    (hcl : sub.Presents (toTree r.vpToken) claims) (hu : o.returnUri = some uri)
    (hs : w.submitResponse uri o.responseMode (.unencoded r) t' = (.ok u, t''))
    (ht : ¬AuthorizationResponse.HasTransactionData (.unencoded r))
    (hr : AuthorizationResponse.Readable (.unencoded r)) :
    (Session.resolvePresentationQuery o).run w.answer t' =
        (.ok (.presentationDefinition definition), t') ∧
      ∃ endpoint text r' sub', submissionEndpoint = some endpoint ∧
        Arrival endpoint text t' t'' u ∧
        AuthorizationResponse.fromXWwwFormUrlencoded text = .ok (.unencoded r') ∧
        r'.presentationSubmission = some sub' ∧
        ∀ (T : Type) (decoder : ClaimsDecoder T) (m : MatchingInputs T),
          sub'.findAndValidateInputs definition (toTree r'.vpToken) decoder = .ok m ↔
            ∃ inputs, HeldClaim.inputs definition decoder claims = .ok inputs ∧
              definition.Met (inputs.map DecodedInput.descriptorId) ∧
              m = ⟨inputs, PresentationSubmission.byDescriptor inputs⟩ := by
  refine ⟨resolvePresentationQuery_byValue (h.presentationDefinition hd hc hf), ?_⟩
  obtain ⟨text, hx, hiff⟩ := Wallet.arrival_of_submitResponse hs ht
  obtain ⟨r', hread, hv, hp', -⟩ := hiff.mpr hr
  refine ⟨uri, text, r', sub, h.submissionEndpoint_eq hu, hx, hread, hp'.trans hp, ?_⟩
  intro T decoder m
  rw [hv]
  exact PresentationSubmission.findAndValidateInputs_eq_ok_iff_of_presents hcl

end RequestBuilder
end

/-! ## A presentation -/

namespace Sample
open scoped Reference

/-- The calls for a request for a definition. -/
def definitionCalls : List RequestBuilder.Call :=
  [.withRequestParameter ResponseMode.directPost, .withRequestParameter (Nonce.mk "n"),
    .withRequestParameter (ClientMetadata.mk .empty), .withPresentationDefinition nestedDefinition]

/-- The wallet accepts the request for the definition. -/
theorem accepted_definitionCalls : ∃ o t', RequestBuilder.Accepted signingClient
    verifier.defaultRequestParams (some responseUri) definitionCalls onlineWallet o t' ∧
      o.responseMode = .directPost ∧ o.returnUri = some responseUri := by
  have hb : ∃ request, (RequestBuilder.after postVerifier definitionCalls).build walletMetadata
      .plain () = (.ok request, ()) := ⟨_, rfl⟩
  obtain ⟨request, hb⟩ := hb
  refine accepted_of_build hb ?_ rfl rfl
  intro k hk
  simp only [List.mem_cons, List.not_mem_nil, or_false] at hk
  rcases hk with rfl | rfl <;> rfl

/-- A credential of the holder. -/
def heldCredential : VpTokenItem := .jsonObject (.ofMembers [("pid", .string "credential")])

def heldClaim : HeldClaim := ⟨"id", .ldpVc, toTree heldCredential⟩

/-- The credential alone is the token, which the path `$` selects. -/
def heldSubmission : PresentationSubmission :=
  ⟨UuidCrate.nil, "definition", [.new "id" .ldpVc ⟨"$", rfl⟩]⟩

def heldAnswer : UnencodedAuthorizationResponse where
  vpToken := ⟨[heldCredential]⟩
  presentationSubmission := some heldSubmission
  idToken := none
  state := some "state"
  transactionDataResponse := none

/-- Decodes a claim to an array of it. -/
def arrayDecoder : ClaimsDecoder String := ⟨fun item _ _ => .ok ("decoded", some (.array [item]))⟩

/-- The verifier accepts the credential of the holder for the one descriptor of its group. -/
theorem presents_heldClaim : ∃ text r sub m,
    AuthorizationResponse.fromXWwwFormUrlencoded text = .ok (.unencoded r) ∧
      r.presentationSubmission = some sub ∧
      sub.findAndValidateInputs nestedDefinition (toTree r.vpToken) arrayDecoder = .ok m ∧
      m.inputs = [⟨"id", .ldpVc, "decoded", []⟩] := by
  obtain ⟨o, t, h, hm, hu⟩ := accepted_definitionCalls
  obtain ⟨u, s', hs⟩ : ∃ u s', onlineWallet.submitResponse responseUri o.responseMode
      (.unencoded heldAnswer) t = (.ok u, s') := by
    rw [hm]
    exact ⟨_, _, rfl⟩
  have hp : heldSubmission.Presents (toTree heldAnswer.vpToken) [heldClaim] :=
    .cons ⟨rfl, rfl, rfl, rfl⟩ .nil
  have hr : AuthorizationResponse.Readable (.unencoded heldAnswer) := by
    constructor
    · rintro ⟨s, hs⟩
      cases hs
    · rintro s hs
      obtain rfl := Option.some.inj hs
      exact List.forall_mem_singleton.mpr rfl
  obtain ⟨-, endpoint, text, r, sub, -, -, hread, hsub, hiff⟩ := h.presents rfl
    nestedDefinition_canonical nestedDefinition_hasFields rfl hp hu hs Bool.false_ne_true hr
  exact ⟨text, r, sub, _, hread, hsub, (hiff _ arrayDecoder _).mpr
    ⟨_, rfl, ⟨⟨rfl, trivial⟩, trivial⟩, rfl⟩, rfl⟩

end Sample
end OpenID4VP
