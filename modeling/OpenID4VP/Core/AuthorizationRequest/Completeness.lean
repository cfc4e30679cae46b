import OpenID4VP.Core.AuthorizationRequest.Soundness

/-! # Which request objects are accepted

`accepted_iff` is the grammar of request objects. Of the members that it asks for only
`client_metadata` is one that a request may do without: `ClientMetadata.resolve` reads a request
without it as one with empty metadata, but no such request gets that far. -/

namespace OpenID4VP

/-- One of the six response modes. -/
def ResponseMode.Supported (mode : ResponseMode) : Prop := ∀ name, mode ≠ .unsupported name

section
variable [SerdeJson] [SerdeJsonPath] [JsonSchema] [UrlCrate] [Base64Url]

namespace AuthorizationRequestObject

/-! ## The grammar -/

/-- The response mode that the members say. -/
inductive ModeOf (value : UntypedObject) : ResponseMode → Prop
  | absent (h : value.containsKey "response_mode" = false) : ModeOf value .fragment
  | given (h : value.get? "response_mode" = some (.string mode.toString))
    (hm : mode.Supported) : ModeOf value mode

/-- The object has the members that a request object needs, each of which can be read, and none
that contradicts them. It need not have client metadata. -/
structure Conforms (value : UntypedObject) : Prop where
  clientId : ∃ s c, value.get? "client_id" = some (.string s) ∧ ClientId.new s = .ok c
  responseType : ∃ s, value.get? "response_type" = some (.string s)
  nonce : ∃ s, value.get? "nonce" = some (.string s)
  presentationQuery : ∃ query, QueryOf value query
  returnUri : ∃ mode uri, ModeOf value mode ∧ ReturnUriOf value mode uri
  clientMetadata : value.containsKey "client_metadata" = true →
    ∃ metadata, value.get ClientMetadata = some (.ok metadata)

/-- The object is accepted, with the metadata that `resolve` gives for it: those of the member, or
empty metadata without it. -/
def AcceptedAsResolved (value : UntypedObject) : Prop :=
  ∃ o, tryFrom value = .ok o ∧ ClientMetadata.resolve o.inner = .ok o.clientMetadata

variable {value : UntypedObject}

/-! ## Single members -/

omit [SerdeJson] [SerdeJsonPath] [JsonSchema] [UrlCrate] [Base64Url] in
theorem get_clientId_iff {c : ClientId} :
    value.get ClientId = some (.ok c) ↔
      ∃ s, value.get? "client_id" = some (.string s) ∧ ClientId.new s = .ok c := by
  rw [UntypedObject.get_eq_some_iff]
  constructor
  · rintro ⟨x, hx, h⟩
    cases x with
    | string s => exact ⟨s, hx, h⟩
    | _ => cases h
  · rintro ⟨s, hs, h⟩
    exact ⟨_, hs, h⟩

omit [SerdeJson] [SerdeJsonPath] [JsonSchema] [UrlCrate] [Base64Url] in
/-- A text is read as any parameter that is made of a text. -/
theorem tryFrom_text_iff {wrap : String → α} {raw : α → String} {k : String} {x : Json} {a : α} :
    (TypedParameter.via k wrap raw).tryFrom x = .ok a ↔ ∃ s, x = .string s ∧ wrap s = a := by
  rw [TypedParameter.via_tryFrom_eq_ok_iff]
  exact exists_congr fun s => and_congr_left fun _ => fromTree_eq_text_iff

omit [SerdeJson] [SerdeJsonPath] [JsonSchema] [UrlCrate] [Base64Url] in
theorem exists_get_text_iff [TypedParameter α] {wrap : String → α}
    (h : ∀ {x} {a : α}, TypedParameter.tryFrom x = .ok a ↔ ∃ s, x = .string s ∧ wrap s = a) :
    (∃ a, value.get α = some (.ok a)) ↔
      ∃ s, value.get? (TypedParameter.key α) = some (.string s) := by
  simp only [UntypedObject.get_eq_some_iff]
  constructor
  · rintro ⟨a, x, hx, ha⟩
    obtain ⟨s, rfl, -⟩ := h.mp ha
    exact ⟨s, hx⟩
  · rintro ⟨s, hs⟩
    exact ⟨wrap s, _, hs, h.mpr ⟨s, rfl, rfl⟩⟩

omit [SerdeJson] [SerdeJsonPath] [JsonSchema] [UrlCrate] [Base64Url] in
theorem ofString_eq_iff {s : String} {mode : ResponseMode} (hm : mode.Supported) :
    ResponseMode.ofString s = mode ↔ s = mode.toString := by
  constructor
  · rintro rfl
    rw [ResponseMode.ofString.eq_def] at hm ⊢
    split at hm
    case h_7 => exact absurd rfl (hm _)
    all_goals rfl
  · rintro rfl
    cases mode with
    | unsupported name => exact absurd rfl (hm name)
    | _ => rfl

omit [SerdeJson] [SerdeJsonPath] [JsonSchema] [UrlCrate] [Base64Url] in
theorem getOrDefault_eq_ok_iff {mode : ResponseMode} (hm : mode.Supported) :
    value.getOrDefault ResponseMode.default = .ok mode ↔ ModeOf value mode := by
  have hk : TypedParameter.key ResponseMode = "response_mode" := rfl
  rw [UntypedObject.getOrDefault, hk]
  constructor
  · intro h
    cases hx : value.get? "response_mode" with
    | none =>
      rw [hx, Except.ok.injEq] at h
      subst h
      exact .absent (by rw [JsonMap.containsKey, hx]; rfl)
    | some x =>
      rw [hx] at h
      obtain ⟨s, rfl, hs⟩ := tryFrom_text_iff.mp h
      rw [ofString_eq_iff hm] at hs
      exact .given (hs ▸ hx) hm
  · intro h
    cases h with
    | absent h =>
      rw [JsonMap.containsKey, Option.isSome_eq_false_iff, Option.isNone_iff_eq_none] at h
      rw [h]
      rfl
    | given h =>
      rw [h]
      exact tryFrom_text_iff.mpr ⟨_, rfl, (ofString_eq_iff hm).mpr rfl⟩

/-! ## Members that exclude each other -/

omit [SerdeJson] [SerdeJsonPath] [JsonSchema] [UrlCrate] [Base64Url] in
theorem get_eq_none_of_hasOnly [TypedParameter α] {keys : List String} {k : String}
    (h : value.HasOnly keys k) (hk : TypedParameter.key α ∈ keys)
    (hne : TypedParameter.key α ≠ k) : value.get α = none := by
  rw [UntypedObject.get_eq_none_iff, ← Bool.not_eq_true]
  intro hc
  have hm : TypedParameter.key α ∈ keys.filter value.containsKey := List.mem_filter.mpr ⟨hk, hc⟩
  rw [h] at hm
  exact hne (List.mem_singleton.mp hm)

omit [SerdeJson] [SerdeJsonPath] [JsonSchema] [Base64Url] in
theorem ReturnUriOf.returnsTo {mode : ResponseMode} {uri : Option Url}
    (h : ReturnUriOf value mode uri) : ReturnsTo value mode uri := by
  have hresponse (ho : value.HasOnly ["redirect_uri", "response_uri"] "redirect_uri") :
      value.get ResponseUri = none :=
    get_eq_none_of_hasOnly ho (by simp [TypedParameter.key]) (by simp [TypedParameter.key])
  have hredirect (ho : value.HasOnly ["redirect_uri", "response_uri"] "response_uri") :
      value.get RedirectUri = none :=
    get_eq_none_of_hasOnly ho (by simp [TypedParameter.key]) (by simp [TypedParameter.key])
  cases mode with
  | fragment =>
    obtain ⟨ho, u, hu, rfl⟩ := h
    exact .redirect (.inl rfl) hu (hresponse ho)
  | fragmentJwt =>
    obtain ⟨ho, u, hu, rfl⟩ := h
    exact .redirect (.inr rfl) hu (hresponse ho)
  | directPost =>
    obtain ⟨ho, u, hu, rfl⟩ := h
    exact .response (.inl rfl) hu (hredirect ho)
  | directPostJwt =>
    obtain ⟨ho, u, hu, rfl⟩ := h
    exact .response (.inr rfl) hu (hredirect ho)
  | dcApi | dcApiJwt =>
    obtain ⟨hr, hp, rfl⟩ := h
    exact .browser rfl (UntypedObject.get_eq_none_iff.mpr hr) (UntypedObject.get_eq_none_iff.mpr hp)
  | unsupported name => exact absurd h not_false

theorem QueryOf.asksFor {query : PresentationQuery} (h : QueryOf value query) :
    AsksFor value query := by
  have hquery : TypedParameter.key DCQL ∈ queryKeys := by simp [queryKeys, TypedParameter.key]
  have hvalue : TypedParameter.key PresentationDefinition ∈ queryKeys := List.mem_cons_self
  have huri : TypedParameter.key PresentationDefinitionUri ∈ queryKeys := by
    simp [queryKeys, TypedParameter.key]
  cases query with
  | dcql query =>
    obtain ⟨ho, hq⟩ := h
    exact .dcql hq (get_eq_none_of_hasOnly ho hvalue (by simp [TypedParameter.key]))
      (get_eq_none_of_hasOnly ho huri (by simp [TypedParameter.key]))
  | presentationDefinition definition =>
    cases definition with
    | byValue definition =>
      obtain ⟨ho, hq⟩ := h
      exact .definition hq (get_eq_none_of_hasOnly ho huri (by simp [TypedParameter.key]))
        (get_eq_none_of_hasOnly ho hquery (by simp [TypedParameter.key]))
    | byReference url =>
      obtain ⟨ho, hq⟩ := h
      exact .uri hq (get_eq_none_of_hasOnly ho hvalue (by simp [TypedParameter.key]))
        (get_eq_none_of_hasOnly ho hquery (by simp [TypedParameter.key]))

/-! ## Acceptance -/

/-- What is accepted conforms, and has client metadata. -/
theorem ReadFrom.conforms {o : AuthorizationRequestObject} (h : ReadFrom value o) :
    Conforms value ∧ value.containsKey "client_metadata" = true := by
  have hk : value.containsKey "client_metadata" = true :=
    containsKey_of_get_eq_some h.clientMetadata
  refine ⟨?_, hk⟩
  exact {
    clientId := by
      obtain ⟨s, hs, hc⟩ := get_clientId_iff.mp h.clientId
      exact ⟨s, _, hs, hc⟩
    responseType := (exists_get_text_iff tryFrom_text_iff).mp ⟨_, h.responseType⟩
    nonce := (exists_get_text_iff tryFrom_text_iff).mp ⟨_, h.nonce⟩
    presentationQuery := ⟨_, h.presentationQuery.queryOf⟩
    returnUri := ⟨_, _, (getOrDefault_eq_ok_iff h.supported).mp h.responseMode,
      h.returnUri.returnUriOf⟩
    clientMetadata := fun _ => ⟨_, h.clientMetadata⟩ }

omit [SerdeJson] [SerdeJsonPath] [JsonSchema] [Base64Url] in
/-- The mode of an object that says where the answer goes is one of the six. -/
theorem ReturnUriOf.supported {mode : ResponseMode} {uri : Option Url}
    (h : ReturnUriOf value mode uri) : mode.Supported := by
  rintro name rfl
  exact h

theorem exists_readFrom (h : Conforms value) (hk : value.containsKey "client_metadata" = true) :
    ∃ o, ReadFrom value o := by
  obtain ⟨s, c, hs, hc⟩ := h.clientId
  obtain ⟨t, ht⟩ : ∃ t, value.get ResponseType = some (.ok t) :=
    (exists_get_text_iff tryFrom_text_iff).mpr h.responseType
  obtain ⟨n, hn⟩ : ∃ n, value.get Nonce = some (.ok n) :=
    (exists_get_text_iff tryFrom_text_iff).mpr h.nonce
  obtain ⟨query, hq⟩ := h.presentationQuery
  obtain ⟨mode, uri, hm, hu⟩ := h.returnUri
  obtain ⟨metadata, hmd⟩ := h.clientMetadata hk
  refine ⟨⟨value, c, mode, t, query, uri, n, metadata, readExpectedOrigins value mode⟩, ?_⟩
  exact {
    inner := rfl
    clientId := get_clientId_iff.mpr ⟨s, hs, hc⟩
    responseMode := (getOrDefault_eq_ok_iff hu.supported).mpr hm
    returnUri := hu.returnsTo
    responseType := ht
    presentationQuery := hq.asksFor
    nonce := hn
    clientMetadata := hmd
    expectedOrigins := rfl }

/-- An object is accepted exactly when it conforms and has client metadata. -/
theorem accepted_iff :
    (∃ o, tryFrom value = .ok o) ↔ Conforms value ∧ value.containsKey "client_metadata" = true := by
  simp only [tryFrom_eq_ok_iff]
  exact ⟨fun ⟨_, h⟩ => h.conforms, fun ⟨h, hk⟩ => exists_readFrom h hk⟩

/-- Of the objects that conform those with client metadata are accepted, with the metadata of the
member, and those without are not. -/
theorem acceptedAsResolved_iff (h : Conforms value) :
    AcceptedAsResolved value ↔ value.containsKey "client_metadata" = true := by
  constructor
  · rintro ⟨o, ho, -⟩
    exact (accepted_iff.mp ⟨o, ho⟩).2
  · intro hk
    obtain ⟨o, ho⟩ := exists_readFrom h hk
    refine ⟨o, tryFrom_eq_ok_iff.mpr ho, ?_⟩
    rw [ClientMetadata.resolve, ho.inner, ho.clientMetadata]

end AuthorizationRequestObject
end

/-! ## A request without client metadata -/

namespace Sample
open scoped Reference

/-- The request of a verifier that says nothing of its metadata. -/
def withoutMetadata : UntypedObject :=
  (requestObject "x509_san_dns:verifier.example").erase "client_metadata"

theorem conforms_requestObject :
    AuthorizationRequestObject.Conforms (requestObject "x509_san_dns:verifier.example") :=
  (AuthorizationRequestObject.accepted_iff.mp ⟨_, tryFrom_x509Request⟩).1

theorem acceptedAsResolved_requestObject :
    AuthorizationRequestObject.AcceptedAsResolved (requestObject "x509_san_dns:verifier.example") ↔
      (requestObject "x509_san_dns:verifier.example").containsKey "client_metadata" = true :=
  AuthorizationRequestObject.acceptedAsResolved_iff conforms_requestObject

theorem withoutMetadata_refused : AuthorizationRequestObject.Conforms withoutMetadata ∧
    ClientMetadata.resolve withoutMetadata = .ok ⟨.empty⟩ ∧
    ¬AuthorizationRequestObject.AcceptedAsResolved withoutMetadata := by
  have hc : AuthorizationRequestObject.Conforms withoutMetadata := {
    clientId := ⟨"x509_san_dns:verifier.example", _, rfl, rfl⟩
    responseType := ⟨_, rfl⟩
    nonce := ⟨_, rfl⟩
    presentationQuery := ⟨.presentationDefinition (.byReference definitionUri), rfl, rfl⟩
    returnUri := ⟨.directPost, _, .given rfl nofun, rfl, ⟨responseUri⟩, rfl, rfl⟩
    clientMetadata := nofun }
  refine ⟨hc, rfl, ?_⟩
  rintro ⟨o, ho, -⟩
  exact Bool.false_ne_true (AuthorizationRequestObject.accepted_iff.mp ⟨o, ho⟩).2

end Sample
end OpenID4VP
