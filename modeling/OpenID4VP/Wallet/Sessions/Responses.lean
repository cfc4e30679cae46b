import OpenID4VP.Wallet.Sessions.Requests

/-! # What sessions that submit responses call

A session makes one call at most: it posts the response to where it was told, or it returns it in
the fragment of a URL. -/

namespace OpenID4VP

section
variable [SerdeJson] [SerdeJsonPath] [JsonSchema] [UrlCrate] [Base64Url] [SsiJwt] [HttpCrate]
  [FormUrlencoded]

namespace Session

variable [HttpStatus] [UuidCrate] [UrlFragment]

/-- The form that a response is posted as: in the clear in the mode `direct_post`, in a token in the
mode `direct_post.jwt`. -/
inductive PostedForm (response : AuthorizationResponse) : ResponseMode → String → Prop
  | directPost (h : response.unencodedForm = .ok body) : PostedForm response .directPost body
  | directPostJwt (h : response.jwtForm = .ok body) : PostedForm response .directPostJwt body

/-- The request that a response is posted with. -/
def IsPosted (uri : Url) (mode : ResponseMode) (response : AuthorizationResponse)
    (request : Request) : Prop :=
  ∃ body, PostedForm response mode body ∧
    createPostRequest uri body.toUTF8 mimeTypeFormUrlencoded mimeTypeJson = .ok request

/-- The calls of a session that has submitted a response: none if it is returned in a fragment, one
request if it is posted. -/
inductive Submits (uri : Url) (mode : ResponseMode) (response : AuthorizationResponse) :
    Option Url → List (walletInterface σ).Call → Prop
  | fragment (hm : mode = .fragment ∨ mode = .fragmentJwt)
    (hf : response.unencodedForm = .ok text) :
    Submits uri mode response (some (UrlFragment.setFragment uri text)) []
  | post (hp : IsPosted uri mode response request) (hs : resp.isSuccess = true) :
    Submits uri mode response ((fromSlice resp.body).toOption.map PostRedirection.redirectUri)
      [⟨.execute request, .ok resp⟩]

variable {t : List (walletInterface σ).Call} {uri : Url} {mode : ResponseMode}
  {response : AuthorizationResponse} {u : Option Url}

omit [Base64Url] [SsiJwt] [FormUrlencoded] [UuidCrate] [UrlFragment] in
theorem finishes_postForm_iff {body : String} :
    (postForm uri body : Session σ Error (Option Url)).Finishes t (.ok u) ↔ ∃ request resp,
      createPostRequest uri body.toUTF8 mimeTypeFormUrlencoded mimeTypeJson = .ok request ∧
      resp.isSuccess = true ∧ t = [⟨.execute request, .ok resp⟩] ∧
      u = (fromSlice resp.body).toOption.map PostRedirection.redirectUri := by
  have hr : ∀ resp : Response, (.done (ensure resp.isSuccess (submissionError resp)) >>= fun _ =>
      pure ((fromSlice resp.body).toOption.map PostRedirection.redirectUri) :
        Session σ Error (Option Url)) = .done (ensure resp.isSuccess (submissionError resp) >>=
      fun _ => .ok ((fromSlice resp.body).toOption.map PostRedirection.redirectUri)) :=
    fun resp => Calls.done_bind_done
  simp only [postForm, hr, Calls.finishes_done_bind_iff, Calls.finishes_bind_done_iff,
    finishes_execute_iff, orInternal_eq_ok_iff, Except.bind_eq_ok_iff, ensure_eq_ok_iff]
  constructor
  · rintro ⟨request, hp, resp, rfl, _, hs, hu⟩
    cases hu
    exact ⟨request, resp, hp, hs, rfl, rfl⟩
  · rintro ⟨request, resp, hp, hs, rfl, rfl⟩
    exact ⟨request, hp, resp, rfl, (), hs, rfl⟩

omit [Base64Url] in
/-- A session that has submitted a response has made exactly the calls for that. -/
theorem finishes_submitResponse_iff :
    (submitResponse uri mode response : Session σ Error (Option Url)).Finishes t (.ok u) ↔
      Submits uri mode response u t := by
  constructor
  · intro h
    cases mode with
    | directPost | directPostJwt =>
      rw [submitResponse, Calls.finishes_done_bind_iff] at h
      obtain ⟨body, hb, hp⟩ := h
      obtain ⟨request, resp, hr, hs, rfl, rfl⟩ := finishes_postForm_iff.mp hp
      first
        | exact .post ⟨body, .directPost hb, hr⟩ hs
        | exact .post ⟨body, .directPostJwt hb, hr⟩ hs
    | fragment | fragmentJwt =>
      rw [submitResponse, Calls.finishes_done_bind_iff] at h
      obtain ⟨text, hf, hp⟩ := h
      obtain ⟨rfl, hu⟩ := Calls.finishes_pure_iff.mp hp
      cases hu
      exact .fragment (by simp) hf
    | dcApi | dcApiJwt | unsupported => cases (Calls.finishes_done_iff.mp h).2
  · intro h
    cases h with
    | fragment hm hf =>
      rcases hm with rfl | rfl <;>
      · rw [submitResponse, Calls.finishes_done_bind_iff]
        exact ⟨_, hf, .refl⟩
    | post hp hs =>
      obtain ⟨body, hb, hr⟩ := hp
      have hp := finishes_postForm_iff (σ := σ).mpr ⟨_, _, hr, hs, rfl, rfl⟩
      cases hb with
      | directPost hb | directPostJwt hb =>
        rw [submitResponse, Calls.finishes_done_bind_iff]
        exact ⟨body, hb, hp⟩

omit [Base64Url] in
/-- Whatever has become of it, a session has posted the response once or not at all. -/
theorem does_submitResponse
    (h : (submitResponse uri mode response : Session σ Error (Option Url)).Does t) :
    t = [] ∨ ∃ request outcome, IsPosted uri mode response request ∧
      t = [⟨.execute request, outcome⟩] := by
  have hp : ∀ body, (postForm uri body : Session σ Error (Option Url)).Does t →
      t = [] ∨ ∃ request outcome,
        createPostRequest uri body.toUTF8 mimeTypeFormUrlencoded mimeTypeJson = .ok request ∧
        t = [⟨.execute request, outcome⟩] := by
    intro body h
    rcases Calls.does_done_bind h with rfl | ⟨request, hr, hb⟩
    · exact .inl rfl
    have hx : ((execute request : Session σ Anyhow Response).mapError fun e =>
        Error.internal (.context "failed to make authorization response request" e)).Does t := by
      rcases Calls.does_bind hb with hx | ⟨resp, t₁, t₂, rfl, hx, hc⟩
      · exact hx
      · have ht : t₂ = [] := by
          rcases Calls.does_done_bind hc with rfl | ⟨_, -, hc⟩
          · rfl
          · exact Calls.does_done_iff.mp hc
        rw [ht, List.append_nil]
        exact hx.does
    rcases does_execute hx with rfl | ⟨outcome, rfl⟩
    · exact .inl rfl
    · exact .inr ⟨request, outcome, orInternal_eq_ok_iff.mp hr, rfl⟩
  cases mode with
  | directPost | directPostJwt =>
    rw [submitResponse] at h
    rcases Calls.does_done_bind h with rfl | ⟨body, hb, hd⟩
    · exact .inl rfl
    rcases hp body hd with rfl | ⟨request, outcome, hr, rfl⟩
    · exact .inl rfl
    first
      | exact .inr ⟨request, outcome, ⟨body, .directPost hb, hr⟩, rfl⟩
      | exact .inr ⟨request, outcome, ⟨body, .directPostJwt hb, hr⟩, rfl⟩
  | fragment | fragmentJwt =>
    rw [submitResponse] at h
    rcases Calls.does_done_bind h with rfl | ⟨text, -, hd⟩
    · exact .inl rfl
    · exact .inl (Calls.does_done_iff.mp hd)
  | dcApi | dcApiJwt | unsupported => exact .inl (Calls.does_done_iff.mp h)

end Session
end
end OpenID4VP
