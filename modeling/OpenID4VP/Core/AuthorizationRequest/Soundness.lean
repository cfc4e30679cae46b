import OpenID4VP.Core.AuthorizationRequest.Authentication

/-! # What accepted request objects say

Every parameter of a request object that is accepted is the reading of a member, the members that
contradict it are not there, and the object is read again as the same after it is written. -/

namespace OpenID4VP

/-- Of the members under these keys the object has the one under `k` and no other. -/
def UntypedObject.HasOnly (value : UntypedObject) (keys : List String) (k : String) : Prop :=
  keys.filter value.containsKey = [k]

section
variable [SerdeJson] [SerdeJsonPath] [JsonSchema] [UrlCrate] [Base64Url]

namespace AuthorizationRequestObject

/-! ## Members and parameters -/

/-- The return URI is the one that the response mode asks for, and the object has no other. -/
def ReturnUriOf (value : UntypedObject) : ResponseMode → Option Url → Prop
  | .fragment, returnUri | .fragmentJwt, returnUri =>
    value.HasOnly ["redirect_uri", "response_uri"] "redirect_uri" ∧
    ∃ uri, value.get RedirectUri = some (.ok uri) ∧ returnUri = some uri.url
  | .directPost, returnUri | .directPostJwt, returnUri =>
    value.HasOnly ["redirect_uri", "response_uri"] "response_uri" ∧
    ∃ uri, value.get ResponseUri = some (.ok uri) ∧ returnUri = some uri.url
  | .dcApi, returnUri | .dcApiJwt, returnUri =>
    value.containsKey "redirect_uri" = false ∧ value.containsKey "response_uri" = false ∧
    returnUri = none
  | .unsupported _, _ => False

def queryKeys : List String :=
  ["presentation_definition", "presentation_definition_uri", "dcql_query"]

/-- The query is the reading of the only member that has one. -/
def QueryOf (value : UntypedObject) : PresentationQuery → Prop
  | .dcql query =>
    value.HasOnly queryKeys "dcql_query" ∧ value.get DCQL = some (.ok query)
  | .presentationDefinition (.byValue definition) =>
    value.HasOnly queryKeys "presentation_definition" ∧
    value.get PresentationDefinition = some (.ok definition)
  | .presentationDefinition (.byReference url) =>
    value.HasOnly queryKeys "presentation_definition_uri" ∧
    value.get PresentationDefinitionUri = some (.ok ⟨url⟩)

/-- What the members of an accepted object say about its parameters. -/
structure ParametersOf (value : UntypedObject) (o : AuthorizationRequestObject) : Prop where
  responseMode : value.getOrDefault ResponseMode.default = .ok o.responseMode
  supported : ∀ m, o.responseMode ≠ .unsupported m
  returnUri : ReturnUriOf value o.responseMode o.returnUri
  presentationQuery : QueryOf value o.presentationQuery
  clientId : value.get ClientId = some (.ok o.clientId)
  responseType : value.get ResponseType = some (.ok o.responseType)
  nonce : value.get Nonce = some (.ok o.nonce)
  clientMetadata : value.get ClientMetadata = some (.ok o.clientMetadata)

/-- The two request objects agree on all that is read from them. -/
structure SameParameters (o o' : AuthorizationRequestObject) : Prop where
  responseMode : o'.responseMode = o.responseMode
  returnUri : o'.returnUri = o.returnUri
  presentationQuery : o'.presentationQuery = o.presentationQuery
  clientId : o'.clientId = o.clientId
  responseType : o'.responseType = o.responseType
  nonce : o'.nonce = o.nonce
  clientMetadata : o'.clientMetadata = o.clientMetadata

variable {value : UntypedObject} {o : AuthorizationRequestObject}

/-! ## Soundness -/

omit [SerdeJson] [SerdeJsonPath] [JsonSchema] [UrlCrate] [Base64Url] in
theorem containsKey_of_get_eq_some [TypedParameter α] {x : Except Anyhow α}
    (h : value.get α = some x) : value.containsKey (TypedParameter.key α) = true := by
  obtain ⟨v, hv, -⟩ := UntypedObject.get_eq_some_iff.mp h
  rw [JsonMap.containsKey, hv]
  rfl

omit [SerdeJson] [SerdeJsonPath] [JsonSchema] [Base64Url] in
theorem ReturnsTo.returnUriOf {mode : ResponseMode} {uri : Option Url}
    (h : ReturnsTo value mode uri) : ReturnUriOf value mode uri := by
  cases h with
  | @redirect uri hm h hn =>
    have hk : value.containsKey "redirect_uri" = true := containsKey_of_get_eq_some h
    have hk' : value.containsKey "response_uri" = false := UntypedObject.get_eq_none_iff.mp hn
    have ho : value.HasOnly ["redirect_uri", "response_uri"] "redirect_uri" := by
      simp [UntypedObject.HasOnly, hk, hk']
    rcases hm with rfl | rfl <;> exact ⟨ho, uri, h, rfl⟩
  | @response uri hm h hn =>
    have hk : value.containsKey "response_uri" = true := containsKey_of_get_eq_some h
    have hk' : value.containsKey "redirect_uri" = false := UntypedObject.get_eq_none_iff.mp hn
    have ho : value.HasOnly ["redirect_uri", "response_uri"] "response_uri" := by
      simp [UntypedObject.HasOnly, hk, hk']
    rcases hm with rfl | rfl <;> exact ⟨ho, uri, h, rfl⟩
  | browser hm h hn =>
    have hk : value.containsKey "redirect_uri" = false := UntypedObject.get_eq_none_iff.mp h
    have hk' : value.containsKey "response_uri" = false := UntypedObject.get_eq_none_iff.mp hn
    cases mode with
    | dcApi | dcApiJwt => exact ⟨hk, hk', rfl⟩
    | _ => exact absurd hm Bool.false_ne_true

theorem AsksFor.queryOf {query : PresentationQuery} (h : AsksFor value query) :
    QueryOf value query := by
  cases h with
  | dcql h hd hu =>
    have hk : value.containsKey "dcql_query" = true := containsKey_of_get_eq_some h
    have hd : value.containsKey "presentation_definition" = false :=
      UntypedObject.get_eq_none_iff.mp hd
    have hu : value.containsKey "presentation_definition_uri" = false :=
      UntypedObject.get_eq_none_iff.mp hu
    exact ⟨by simp [UntypedObject.HasOnly, queryKeys, hk, hd, hu], h⟩
  | definition h hu hq =>
    have hk : value.containsKey "presentation_definition" = true := containsKey_of_get_eq_some h
    have hu : value.containsKey "presentation_definition_uri" = false :=
      UntypedObject.get_eq_none_iff.mp hu
    have hq : value.containsKey "dcql_query" = false := UntypedObject.get_eq_none_iff.mp hq
    exact ⟨by simp [UntypedObject.HasOnly, queryKeys, hk, hu, hq], h⟩
  | uri h hd hq =>
    have hk : value.containsKey "presentation_definition_uri" = true :=
      containsKey_of_get_eq_some h
    have hd : value.containsKey "presentation_definition" = false :=
      UntypedObject.get_eq_none_iff.mp hd
    have hq : value.containsKey "dcql_query" = false := UntypedObject.get_eq_none_iff.mp hq
    exact ⟨by simp [UntypedObject.HasOnly, queryKeys, hk, hd, hq], h⟩

/-- No request in an unsupported mode has a place to return to. -/
theorem ReadFrom.supported (h : ReadFrom value o) (m : String) :
    o.responseMode ≠ .unsupported m := by
  intro hm
  have hr := h.returnUri.returnUriOf
  rw [hm] at hr
  exact hr

theorem ReadFrom.parametersOf (h : ReadFrom value o) : ParametersOf value o where
  responseMode := h.responseMode
  supported := h.supported
  returnUri := h.returnUri.returnUriOf
  presentationQuery := h.presentationQuery.queryOf
  clientId := h.clientId
  responseType := h.responseType
  nonce := h.nonce
  clientMetadata := h.clientMetadata

/-- The parameters of an accepted object are those its members say, and they are the same after
the object is written and read again. -/
theorem tryFrom_sound (h : tryFrom value = .ok o) :
    ParametersOf value o ∧ ∃ o', tryFrom o.intoUntyped = .ok o' ∧ o.SameParameters o' := by
  have hr := tryFrom_eq_ok_iff.mp h
  refine ⟨hr.parametersOf, _, tryFrom_eq_ok_iff.mpr hr.intoUntyped, ?_⟩
  exact ⟨rfl, rfl, rfl, rfl, rfl, rfl, rfl⟩

end AuthorizationRequestObject
end

namespace Sample
open scoped Reference

theorem tryFrom_sound_x509Request :
    AuthorizationRequestObject.ParametersOf x509Request.inner x509Request ∧
      ∃ o', AuthorizationRequestObject.tryFrom x509Request.intoUntyped = .ok o' ∧
        x509Request.SameParameters o' :=
  AuthorizationRequestObject.tryFrom_sound tryFrom_x509Request

end Sample
end OpenID4VP
