import OpenID4VP.Core.AuthorizationRequest.Authentication
import OpenID4VP.Core.Response.RoundTrip

/-! # The responses a wallet submits

A response is posted to the verifier, or returned in the fragment of a URL. The modes with `.jwt`
are for responses that are encrypted. `confidential_iff` says when no other response goes out in
them, and those that are encrypted do. -/

namespace OpenID4VP

section
variable [SerdeJson] [SerdeJsonPath] [JsonSchema] [UuidCrate] [UrlCrate] [UrlFragment] [SsiJwt]
  [HttpCrate] [HttpStatus] [FormUrlencoded]

/-! ## Submission -/

omit [JsonSchema] [UrlCrate] [UrlFragment] [HttpCrate] [HttpStatus] in
theorem exists_intoXWwwFormUrlencoded (r : UnencodedAuthorizationResponse) :
    ∃ ps, r.intoXWwwFormUrlencoded = .ok (FormUrlencoded.toString ps) := by
  rw [UnencodedAuthorizationResponse.intoXWwwFormUrlencoded,
    JsonEncodedAuthorizationResponse.tryFrom]
  cases r.transactionDataResponse with
  | none => exact ⟨_, rfl⟩
  | some d => exact ⟨_, rfl⟩

namespace AuthorizationResponse

def unexpectedFormat : Error := .internal (.msg "unexpected AuthorizationResponse format")

/-- The form of a response in the clear. -/
def unencodedForm : AuthorizationResponse → Except Error String
  | unencoded r => orInternal r.intoXWwwFormUrlencoded
  | jwt _ => throw unexpectedFormat

/-- The form of a response in a token. -/
def jwtForm : AuthorizationResponse → Except Error String
  | jwt r => orInternal r.intoXWwwFormUrlencoded
  | unencoded _ => throw unexpectedFormat

end AuthorizationResponse

/-- The error for an answer that is no success. -/
def submissionError (resp : Response) : Error :=
  let body := (String.fromUTF8? resp.body).getD ""
  .internal <| .msg <| s!"error submitting authorization response: " ++
    s!"status_code={HttpStatus.statusText resp.status}, response_body={body}"

namespace Wallet

/-- Post a form to the verifier, which may answer with a URL for the user. -/
def postForm (w : Wallet σ) (responseUri : Url) (body : String) :
    Prog (World σ) Error (Option Url) := do
  let httpRequest ← .ofExcept <| orInternal <|
    createPostRequest responseUri body.toUTF8 mimeTypeFormUrlencoded mimeTypeJson
  let httpResponse ← .mapError
    (fun e => .internal (.context "failed to make authorization response request" e))
    (w.callExecute httpRequest)
  .ofExcept (ensure httpResponse.isSuccess (submissionError httpResponse))
  return (fromSlice httpResponse.body).toOption.map PostRedirection.redirectUri

def submitResponse (w : Wallet σ) (responseUri : Url) (responseMode : ResponseMode)
    (response : AuthorizationResponse) : Prog (World σ) Error (Option Url) :=
  match responseMode with
  | .directPost => do w.postForm responseUri (← .ofExcept response.unencodedForm)
  | .directPostJwt => do w.postForm responseUri (← .ofExcept response.jwtForm)
  | .fragment | .fragmentJwt => do
    return some (UrlFragment.setFragment responseUri (← .ofExcept response.unencodedForm))
  | mode@.dcApi | mode@.dcApiJwt => throw <| .internal <| .msg
      s!"in response_mode {mode}, authorization response could not be submitted"
  | .unsupported mode => throw <| .internal <| .msg s!"unsupported response_mode {mode}"

/-! ## What goes out -/

/-- The text goes out when the response is submitted: in the body of a request that is sent, or in
the fragment of the URL that is returned. -/
inductive Emits (w : Wallet σ) (uri : Url) (mode : ResponseMode) (response : AuthorizationResponse)
    (s : World σ) (text : String) : Prop
  | body
    (h : .sent request outcome ∈ (w.submitResponse uri mode response s).2.log.drop s.log.length)
    (hb : request.body = text.toUTF8)
  | fragment (h : (w.submitResponse uri mode response s).1 = .ok (some u))
    (hf : UrlFragment.fragment u = some text)

/-- In the modes for encrypted responses no response goes out in the clear, and every response in a
token goes out in a form from which it is read back. -/
structure Confidential (w : Wallet σ) (uri : Url) (mode : ResponseMode)
    (response : AuthorizationResponse) (s : World σ) : Prop where
  unencoded : mode = .directPostJwt ∨ mode = .fragmentJwt → ∀ r text, response = .unencoded r →
    r.intoXWwwFormUrlencoded = .ok text → ¬w.Emits uri mode response s text
  jwt : mode = .directPostJwt ∨ mode = .fragmentJwt → ∀ r, response = .jwt r →
    ∃ text, w.Emits uri mode response s text ∧
      AuthorizationResponse.fromXWwwFormUrlencoded text = .ok (.jwt r)

variable {w : Wallet σ} {uri : Url} {mode : ResponseMode} {response : AuthorizationResponse}
  {s : World σ}

/-- A submission that fails at once emits nothing. -/
theorem not_emits_of_error {e : Error} {text : String}
    (h : w.submitResponse uri mode response s = (.error e, s)) :
    ¬w.Emits uri mode response s text := by
  intro he
  cases he with
  | body hm =>
    rw [h, List.drop_length] at hm
    cases hm
  | fragment hu =>
    rw [h] at hu
    cases hu

omit [UuidCrate] [UrlFragment] [FormUrlencoded] in
/-- A form that can be posted is posted, whatever becomes of it. -/
theorem sent_of_postForm (body : String)
    (h : HttpCrate.isUri (UrlCrate.toString uri) = true) :
    ∃ request outcome, (w.postForm uri body s).2.log = s.log ++ [.sent request outcome] ∧
      request.body = body.toUTF8 := by
  obtain ⟨request, hr, hb⟩ :=
    exists_createPostRequest h body.toUTF8 mimeTypeFormUrlencoded mimeTypeJson
  refine ⟨request, (w.execute request s.state).1, ?_, hb⟩
  rw [postForm, hr, orInternal_ok, Prog.ofExcept_ok_bind, Prog.bind_apply, Prog.mapError,
    callExecute, record_apply]
  cases (w.execute request s.state).1 with
  | error e => rfl
  | ok httpResponse => exact congrArg Recorded.log Prog.state_ofExcept_bind_pure

omit [UuidCrate] [UrlFragment] [FormUrlencoded] in
/-- A form for a URL that is no URI of a request is not posted. -/
theorem postForm_of_not_isUri (body : String)
    (h : ¬HttpCrate.isUri (UrlCrate.toString uri) = true) :
    ∃ e, w.postForm uri body s = (.error e, s) := by
  rw [postForm, createPostRequest, requestUri, if_neg h]
  exact ⟨_, rfl⟩

/-! ## The modes for encrypted responses -/

/-- In the mode `fragment.jwt` a response in the clear is returned, and one in a token is not. -/
theorem not_confidential_fragmentJwt : ¬w.Confidential uri .fragmentJwt response s := by
  intro h
  cases response with
  | unencoded r =>
    obtain ⟨ps, hp⟩ := exists_intoXWwwFormUrlencoded r
    have hf : UrlFragment.fragment (UrlFragment.setFragment uri (FormUrlencoded.toString ps)) =
        some (FormUrlencoded.toString ps) :=
      UrlFragment.fragment_setFragment _ _ (FormUrlencoded.isFormChar_toString ps)
    apply h.unencoded (.inr rfl) r _ rfl hp
    apply Emits.fragment _ hf
    rw [submitResponse, AuthorizationResponse.unencodedForm, hp]
    rfl
  | jwt r =>
    obtain ⟨text, he, -⟩ := h.jwt (.inr rfl) r rfl
    exact not_emits_of_error rfl he

theorem confidential_directPostJwt_iff : w.Confidential uri .directPostJwt response s ↔
    ((∃ r, response = .jwt r) → HttpCrate.isUri (UrlCrate.toString uri) = true) := by
  constructor
  · rintro h ⟨r, rfl⟩
    by_contra hu
    obtain ⟨text, he, -⟩ := h.jwt (.inl rfl) r rfl
    obtain ⟨e, hp⟩ := postForm_of_not_isUri (w := w) (s := s) (FormUrlencoded.toString r.pairs) hu
    have hs : w.submitResponse uri .directPostJwt (.jwt r) s = (.error e, s) := hp
    exact not_emits_of_error hs he
  · intro hu
    refine ⟨?_, ?_⟩
    · rintro - r text rfl -
      exact not_emits_of_error rfl
    · rintro - r rfl
      obtain ⟨body, hb, hr⟩ := JwtAuthorizationResponse.roundTrips r
      obtain ⟨request, outcome, hl, hq⟩ := sent_of_postForm (w := w) (s := s) body (hu ⟨r, rfl⟩)
      have hs : w.submitResponse uri .directPostJwt (.jwt r) s = w.postForm uri body s := by
        rw [submitResponse, AuthorizationResponse.jwtForm, hb]
        rfl
      have hm : .sent request outcome ∈
          (w.submitResponse uri .directPostJwt (.jwt r) s).2.log.drop s.log.length := by
        rw [hs, hl, List.drop_left]
        exact List.mem_cons_self
      exact ⟨body, .body hm hq, hr⟩

/-- Responses are confidential exactly in the modes other than `fragment.jwt`, and where one in a
token is to be posted, if its URL is the URI of a request. -/
theorem confidential_iff : w.Confidential uri mode response s ↔ mode ≠ .fragmentJwt ∧
    (mode = .directPostJwt → (∃ r, response = .jwt r) →
      HttpCrate.isUri (UrlCrate.toString uri) = true) := by
  by_cases hf : mode = .fragmentJwt
  · subst hf
    exact ⟨fun h => absurd h not_confidential_fragmentJwt, fun h => absurd rfl h.1⟩
  · by_cases hd : mode = .directPostJwt
    · subst hd
      rw [confidential_directPostJwt_iff]
      exact ⟨fun h => ⟨hf, fun _ => h⟩, fun h => h.2 rfl⟩
    · have hn : ¬(mode = .directPostJwt ∨ mode = .fragmentJwt) := by
        rintro (h | h)
        · exact hd h
        · exact hf h
      exact ⟨fun _ => ⟨hf, fun h => absurd h hd⟩,
        fun _ => ⟨fun h => absurd h hn, fun h => absurd h hn⟩⟩

end Wallet
end

/-! ## A response in the clear in the fragment -/

namespace Sample
open scoped Reference

def clearResponse : AuthorizationResponse := .unencoded {
  vpToken := ⟨[.string "string"]⟩
  presentationSubmission := none
  idToken := none
  state := none
  transactionDataResponse := none }

/-- The presentation is in the URL that is returned, though the verifier asks for encryption. -/
theorem not_confidential_clearResponse :
    ¬wallet.Confidential responseUri .fragmentJwt clearResponse ⟨(), []⟩ := by
  intro h
  exact h.unencoded (.inr rfl) _ "vp_token=string" rfl rfl (.fragment rfl rfl)

end Sample
end OpenID4VP
