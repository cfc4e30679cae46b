import OpenID4VP.Core.AuthorizationRequest.Completeness

/-! # How request objects are refused

A request object is refused with the error of the first of its parameters that cannot be read. The
checks that choose between members report to the other party, with the state of the request; the
readings of single members fail with an internal error. -/

namespace OpenID4VP

/-- The error is one for the other party, with this state. -/
def Error.ReportedWith (state : Option String) (e : Error) : Prop :=
  ∃ type description source, e = .protocol type description state source

theorem Error.not_reportedWith_internal {state : Option String} {e : Anyhow} :
    ¬(Error.internal e).ReportedWith state := by
  rintro ⟨_, _, _, h⟩
  exact nomatch h

theorem Error.reportedWith_protocol {type : ErrorType} {description state : Option String}
    {source : Option Anyhow} : (Error.protocol type description state source).ReportedWith state :=
  ⟨_, _, _, rfl⟩

theorem orInternal_eq_error_iff {x : Except Anyhow α} {e : Error} :
    orInternal x = .error e ↔ ∃ a, x = .error a ∧ .internal a = e :=
  Except.mapError_eq_error_iff

section
variable [SerdeJson] [SerdeJsonPath] [JsonSchema] [UrlCrate] [Base64Url]

namespace AuthorizationRequestObject

/-! ## Checks that report -/

omit [SerdeJson] [SerdeJsonPath] [JsonSchema] [Base64Url] in
theorem reportedWith_of_selectReturnUri {state : Option String}
    {redirect : Option (Except Anyhow RedirectUri)} {response : Option (Except Anyhow ResponseUri)}
    {mode : ResponseMode} {e : Error}
    (h : selectReturnUri state redirect response mode = .error e) :
    e.ReportedWith state := by
  cases redirect <;> cases response <;> cases mode <;>
    simp [selectReturnUri, Except.mapError_eq_error_iff] at h
  case none.some.directPost | none.some.directPostJwt | some.none.fragment |
      some.none.fragmentJwt =>
    obtain ⟨_, -, rfl⟩ := h
    exact Error.reportedWith_protocol
  all_goals
    subst h
    exact Error.reportedWith_protocol

theorem reportedWith_of_selectPresentationQuery {state : Option String}
    {pd : Option (Except Anyhow PresentationDefinition)}
    {uri : Option (Except Anyhow PresentationDefinitionUri)} {dcql : Option (Except Anyhow DCQL)}
    {e : Error} (h : selectPresentationQuery state pd uri dcql = .error e) :
    e.ReportedWith state := by
  cases pd <;> cases uri <;> cases dcql <;>
    simp [selectPresentationQuery, Except.mapError_eq_error_iff] at h
  case none.none.some | none.some.none | some.none.none =>
    obtain ⟨_, -, rfl⟩ := h
    exact Error.reportedWith_protocol
  all_goals
    subst h
    exact Error.reportedWith_protocol

/-! ## Faults -/

variable {value : UntypedObject}

/-- The parameters that are read before the first fault say where it is: in the members that
depend on the response mode, or else in those that say what is asked for. -/
structure FaultyChoice (value : UntypedObject) : Prop where
  clientId : ∃ s c, value.get? "client_id" = some (.string s) ∧ ClientId.new s = .ok c
  responseMode : ∀ x, value.get? "response_mode" = some x → ∃ s, x = .string s
  fault : (¬∃ mode uri, ModeOf value mode ∧ ReturnUriOf value mode uri) ∨
    (∃ s, value.get? "response_type" = some (.string s)) ∧ ¬∃ query, QueryOf value query

/-- The error tells the other party so, with the state of the request if it has one. -/
def RejectedAsProtocol (value : UntypedObject) (e : Error) : Prop :=
  ∃ state, e.ReportedWith state ∧ ∀ s, value.get? "state" = some (.string s) → state = some s

omit [SerdeJson] [SerdeJsonPath] [JsonSchema] [UrlCrate] [Base64Url] in
theorem stateOf_of_get? {s : String} (h : value.get? "state" = some (.string s)) :
    stateOf value = some s := by
  have hg : value.get State = some (.ok ⟨s⟩) :=
    UntypedObject.get_eq_some_iff.mpr ⟨_, h, rfl⟩
  rw [stateOf, hg]

omit [SerdeJson] [SerdeJsonPath] [JsonSchema] [UrlCrate] [Base64Url] in
theorem exists_getOrDefault_iff :
    (∃ mode, value.getOrDefault ResponseMode.default = .ok mode) ↔
      ∀ x, value.get? "response_mode" = some x → ∃ s, x = .string s := by
  have hk : TypedParameter.key ResponseMode = "response_mode" := rfl
  rw [UntypedObject.getOrDefault, hk]
  cases value.get? "response_mode" with
  | none =>
    refine iff_of_true ⟨_, rfl⟩ fun x hx => ?_
    cases hx
  | some x =>
    simp only [Option.some.injEq, forall_eq']
    constructor
    · rintro ⟨mode, hm⟩
      obtain ⟨s, rfl, -⟩ := tryFrom_text_iff.mp hm
      exact ⟨s, rfl⟩
    · rintro ⟨s, rfl⟩
      exact ⟨_, rfl⟩

omit [SerdeJson] [SerdeJsonPath] [JsonSchema] [Base64Url] in
theorem exists_readReturnUri_iff {mode : ResponseMode}
    (hm : value.getOrDefault ResponseMode.default = .ok mode) :
    (∃ uri, readReturnUri value mode = .ok uri) ↔
      ∃ mode uri, ModeOf value mode ∧ ReturnUriOf value mode uri := by
  simp only [readReturnUri_eq_ok_iff]
  constructor
  · rintro ⟨uri, hu⟩
    have hr := hu.returnUriOf
    exact ⟨mode, uri, (getOrDefault_eq_ok_iff hr.supported).mp hm, hr⟩
  · rintro ⟨mode', uri, hm', hr⟩
    have he := (getOrDefault_eq_ok_iff hr.supported).mpr hm'
    obtain rfl := Except.ok.inj (hm.symm.trans he)
    exact ⟨uri, hr.returnsTo⟩

theorem exists_readPresentationQuery_iff :
    (∃ query, readPresentationQuery value = .ok query) ↔ ∃ query, QueryOf value query := by
  simp only [readPresentationQuery_eq_ok_iff]
  exact exists_congr fun query => ⟨AsksFor.queryOf, QueryOf.asksFor⟩

omit [SerdeJson] [SerdeJsonPath] [JsonSchema] [UrlCrate] [Base64Url] in
theorem rejectedAsProtocol_of_reported {e : Error} (h : e.ReportedWith (stateOf value)) :
    RejectedAsProtocol value e :=
  ⟨stateOf value, h, fun _ hs => stateOf_of_get? hs⟩

omit [SerdeJson] [SerdeJsonPath] [JsonSchema] [UrlCrate] [Base64Url] in
theorem not_rejectedAsProtocol_of_internal {x : Except Anyhow α} {e : Error}
    (h : orInternal x = .error e) : ¬RejectedAsProtocol value e := by
  obtain ⟨a, -, rfl⟩ := orInternal_eq_error_iff.mp h
  rintro ⟨state, hs, -⟩
  exact Error.not_reportedWith_internal hs

omit [SerdeJson] [SerdeJsonPath] [JsonSchema] [UrlCrate] [Base64Url] in
theorem get_ne_ok_of_error [TypedParameter α] {e : Error}
    (h : orInternal (parsingError (value.get α)) = .error e) (a : α) :
    value.get α ≠ some (.ok a) := by
  intro ha
  rw [parsingError_eq_ok_iff.mpr ha] at h
  exact nomatch h

/-- A refused object is refused with a protocol error exactly when its first fault is in a choice
between members. -/
theorem rejectedAsProtocol_iff {e : Error} (h : tryFrom value = .error e) :
    RejectedAsProtocol value e ↔ FaultyChoice value := by
  rw [tryFrom] at h
  rcases Except.bind_eq_error_iff.mp h with h | ⟨c, hc, h⟩
  · refine iff_of_false (not_rejectedAsProtocol_of_internal h) fun hf => ?_
    obtain ⟨s, c, hs, hc⟩ := hf.clientId
    exact get_ne_ok_of_error h c (get_clientId_iff.mpr ⟨s, hs, hc⟩)
  have hc := get_clientId_iff.mp (parsingError_eq_ok_iff.mp (orInternal_eq_ok_iff.mp hc))
  rcases Except.bind_eq_error_iff.mp h with h | ⟨mode, hm, h⟩
  · refine iff_of_false (not_rejectedAsProtocol_of_internal h) fun hf => ?_
    obtain ⟨mode, hm⟩ := exists_getOrDefault_iff.mpr hf.responseMode
    rw [hm] at h
    cases h
  have hm := orInternal_eq_ok_iff.mp hm
  have hs := exists_getOrDefault_iff.mp ⟨mode, hm⟩
  rcases Except.bind_eq_error_iff.mp h with h | ⟨uri, hu, h⟩
  · refine iff_of_true (rejectedAsProtocol_of_reported (reportedWith_of_selectReturnUri h)) ?_
    refine ⟨hc.imp fun s h => ⟨c, h⟩, hs, .inl ?_⟩
    rw [← exists_readReturnUri_iff hm, h]
    rintro ⟨_, hn⟩
    cases hn
  have hu := (exists_readReturnUri_iff hm).mp ⟨uri, hu⟩
  rcases Except.bind_eq_error_iff.mp h with h | ⟨t, ht, h⟩
  · refine iff_of_false (not_rejectedAsProtocol_of_internal h) fun hf => ?_
    obtain ⟨t, ht⟩ : ∃ t, value.get ResponseType = some (.ok t) :=
      (exists_get_text_iff tryFrom_text_iff).mpr (hf.fault.resolve_left (not_not.mpr hu)).1
    exact get_ne_ok_of_error h t ht
  have ht := parsingError_eq_ok_iff.mp (orInternal_eq_ok_iff.mp ht)
  rcases Except.bind_eq_error_iff.mp h with h | ⟨query, hq, h⟩
  · refine iff_of_true
      (rejectedAsProtocol_of_reported (reportedWith_of_selectPresentationQuery h)) ?_
    have ht := (exists_get_text_iff tryFrom_text_iff).mp ⟨t, ht⟩
    refine ⟨hc.imp fun s h => ⟨c, h⟩, hs, .inr ⟨ht, ?_⟩⟩
    rw [← exists_readPresentationQuery_iff, h]
    rintro ⟨_, hn⟩
    cases hn
  -- all that is left to fail are readings of single members
  have hq := exists_readPresentationQuery_iff.mp ⟨query, hq⟩
  have hn : ¬FaultyChoice value := fun hf =>
    hf.fault.elim (fun h => h hu) fun h => h.2 hq
  rcases Except.bind_eq_error_iff.mp h with h | ⟨nonce, -, h⟩
  · exact iff_of_false (not_rejectedAsProtocol_of_internal h) hn
  rcases Except.bind_eq_error_iff.mp h with h | ⟨metadata, -, h⟩
  · exact iff_of_false (not_rejectedAsProtocol_of_internal h) hn
  · exact absurd h Except.pure_ne_error

end AuthorizationRequestObject
end

/-! ## A request without a nonce -/

namespace Sample
open scoped Reference

def withoutNonce : UntypedObject := (requestObject "x509_san_dns:verifier.example").erase "nonce"

theorem tryFrom_withoutNonce : AuthorizationRequestObject.tryFrom withoutNonce =
    .error (.internal (.msg "'nonce' is missing")) := rfl

theorem rejectedAsProtocol_iff_withoutNonce :
    AuthorizationRequestObject.RejectedAsProtocol withoutNonce
        (.internal (.msg "'nonce' is missing")) ↔
      AuthorizationRequestObject.FaultyChoice withoutNonce :=
  AuthorizationRequestObject.rejectedAsProtocol_iff tryFrom_withoutNonce

theorem not_rejectedAsProtocol_withoutNonce :
    ¬∀ e, AuthorizationRequestObject.tryFrom withoutNonce = .error e →
      AuthorizationRequestObject.RejectedAsProtocol withoutNonce e := by
  intro h
  obtain ⟨state, hs, -⟩ := h _ tryFrom_withoutNonce
  exact Error.not_reportedWith_internal hs

end Sample
end OpenID4VP
