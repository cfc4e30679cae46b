import OpenID4VP.Core.AuthorizationRequest.Object
import OpenID4VP.Core.Http

/-! # Presentation queries by reference

A request names its presentation definition by value or by the URI of a document. The definition is
the same either way. -/

namespace OpenID4VP

variable [SerdeJson] [SerdeJsonPath] [JsonSchema]

/-- A query with the presentation definition itself. -/
inductive ResolvedPresentationQuery
  | dcql (query : DCQL)
  | presentationDefinition (definition : PresentationDefinition)

namespace ResolvedPresentationQuery

def getPresentationDefinition : ResolvedPresentationQuery → Option PresentationDefinition
  | presentationDefinition p => some p
  | dcql _ => none

def getDcql : ResolvedPresentationQuery → Option DCQL
  | dcql d => some d
  | presentationDefinition _ => none

end ResolvedPresentationQuery

omit [SerdeJsonPath] [JsonSchema] in
/-- The JSON value in the bytes of a document. -/
def valueFromSlice (bytes : ByteArray) : Except Anyhow Json :=
  match (String.fromUTF8? bytes).bind SerdeJson.parse with
  | some x => .ok x.toValue
  | none => .error (.library "serde_json")

/-- The query in the response to a request for a presentation definition. -/
def readDefinition (state : Option String) (resp : Response) :
    Except Error ResolvedPresentationQuery := do
  ensure resp.isSuccess <| .protocol .invalidPresentationDefinitionUri
    (some s!"failed to get Presentation Definition: status_code={resp.status}") state none
  let presentationDef ← orInternal (valueFromSlice resp.body)
  -- the text of this error is not a format string, so the braces stay
  let presentationDef ← (TypedParameter.tryFrom presentationDef).mapError
    (Error.protocol .invalidPresentationDefinitionReference
      (some "failed to get parse Presentation Definition: \x7be\x7d") state none).addSource
  return .presentationDefinition presentationDef

/-! ## What is resolved -/

omit [SerdeJsonPath] [JsonSchema] in
theorem valueFromSlice_eq_ok_iff {bytes : ByteArray} {x : Json} :
    valueFromSlice bytes = .ok x ↔
      ∃ s y, String.fromUTF8? bytes = some s ∧ SerdeJson.parse s = some y ∧ y.toValue = x := by
  rw [valueFromSlice]
  cases hs : String.fromUTF8? bytes with
  | none => simp
  | some s => cases hp : SerdeJson.parse s <;> simp [hp]

omit [SerdeJsonPath] [JsonSchema] in
/-- A value is read from the bytes of its text. -/
theorem valueFromSlice_print {x : Json} (h : x.wellFormed = true) :
    valueFromSlice (SerdeJson.print x).toUTF8 = .ok x :=
  valueFromSlice_eq_ok_iff.mpr ⟨_, x, Form.fromUTF8?_toUTF8 _, SerdeJson.parse_print x,
    Json.toValue_of_wellFormed h⟩

omit [SerdeJsonPath] [JsonSchema] in
theorem toValue_of_valueFromSlice {bytes : ByteArray} {x : Json}
    (h : valueFromSlice bytes = .ok x) : x.toValue = x := by
  obtain ⟨s, y, -, -, rfl⟩ := valueFromSlice_eq_ok_iff.mp h
  exact Json.toValue_of_wellFormed (Json.toValue_wellFormed y)

theorem readDefinition_eq_ok_iff {state : Option String} {resp : Response}
    {q : ResolvedPresentationQuery} : readDefinition state resp = .ok q ↔
      resp.isSuccess = true ∧ ∃ x d, valueFromSlice resp.body = .ok x ∧
        TypedParameter.tryFrom x = .ok d ∧ q = .presentationDefinition d := by
  simp only [readDefinition, Except.bind_eq_ok_iff, ensure_eq_ok_iff, orInternal_eq_ok_iff,
    Except.mapError_eq_ok_iff, Except.pure_eq_ok_iff]
  constructor
  · rintro ⟨_, hs, x, hx, d, hd, hq⟩
    exact ⟨hs, x, d, hx, hd, hq.symm⟩
  · rintro ⟨hs, x, d, hx, hd, hq⟩
    exact ⟨(), hs, x, hx, d, hd, hq.symm⟩

/-! ## The definition in the place of its URI -/

namespace AuthorizationRequestObject
variable [UrlCrate]

/-- The parameters with a presentation definition in the place of the URI of one. -/
def inlined (value : UntypedObject) (x : Json) : UntypedObject :=
  (value.removeParam PresentationDefinitionUri).insert "presentation_definition" x

variable {value : UntypedObject} {x : Json} {o o' : AuthorizationRequestObject} {uri : Url}

omit [SerdeJson] [SerdeJsonPath] [JsonSchema] in
theorem get?_inlined {k : String}
    (hk : k ∉ ["presentation_definition", "presentation_definition_uri"]) :
    (inlined value x).get? k = value.get? k := by
  simp only [List.mem_cons, List.not_mem_nil, or_false, not_or] at hk
  exact (JsonMap.get?_insert_of_ne hk.1 _ x).trans (JsonMap.get?_erase_of_ne hk.2 value)

omit [SerdeJson] [SerdeJsonPath] [JsonSchema] in
/-- The other parameters are those of the request. -/
theorem get_inlined [TypedParameter α]
    (hk : TypedParameter.key α ∉ ["presentation_definition", "presentation_definition_uri"]) :
    (inlined value x).get α = value.get α :=
  congrArg (Option.map TypedParameter.tryFrom) (get?_inlined hk)

theorem get_inlined_presentationDefinition : (inlined value x).get PresentationDefinition =
    some (TypedParameter.tryFrom x.toValue) :=
  congrArg (Option.map TypedParameter.tryFrom) (JsonMap.get?_insert_self _ _ x)

omit [SerdeJson] [SerdeJsonPath] [JsonSchema] in
theorem get_inlined_presentationDefinitionUri :
    (inlined value x).get PresentationDefinitionUri = none := by
  have hk : "presentation_definition_uri" ≠ "presentation_definition" := by decide
  exact congrArg (Option.map TypedParameter.tryFrom) <|
    (JsonMap.get?_insert_of_ne hk _ x).trans (JsonMap.get?_erase_self value _)

omit [SerdeJson] [SerdeJsonPath] [JsonSchema] in
theorem ReturnsTo.inlined {mode : ResponseMode} {returnUri : Option Url}
    (h : ReturnsTo value mode returnUri) : ReturnsTo (inlined value x) mode returnUri := by
  have hr : (AuthorizationRequestObject.inlined value x).get RedirectUri = value.get RedirectUri :=
    get_inlined (by simp [TypedParameter.key])
  have hp : (AuthorizationRequestObject.inlined value x).get ResponseUri = value.get ResponseUri :=
    get_inlined (by simp [TypedParameter.key])
  cases h with
  | redirect hm h hn => exact .redirect hm (hr.trans h) (hp.trans hn)
  | response hm h hn => exact .response hm (hp.trans h) (hr.trans hn)
  | browser hm h hn => exact .browser hm (hr.trans h) (hp.trans hn)

variable [Base64Url]

/-- A request with a URI of a presentation definition names its definition by the URI. -/
theorem ReadFrom.byReference (h : ReadFrom value o)
    (hu : value.containsKey "presentation_definition_uri" = true) :
    ∃ uri, o.presentationQuery = .presentationDefinition (.byReference uri) := by
  have ha := h.presentationQuery
  generalize o.presentationQuery = query at ha
  cases ha with
  | dcql _ _ hn | definition _ hn =>
    exact absurd (hu.symm.trans (UntypedObject.get_eq_none_iff.mp hn)) Bool.noConfusion
  | @uri uri => exact ⟨uri.url, rfl⟩

/-- A request that names a definition by its URI is read with a definition in the place of the URI
exactly when this can be read, and as the same request but for its query. -/
theorem readFrom_inlined_iff (h : ReadFrom value o)
    (hq : o.presentationQuery = .presentationDefinition (.byReference uri)) :
    ReadFrom (inlined value x) o' ↔ ∃ d, TypedParameter.tryFrom x.toValue = .ok d ∧
      o' = { o with
        inner := inlined value x
        presentationQuery := .presentationDefinition (.byValue d) } := by
  have hdcql : (inlined value x).get DCQL = none := by
    rw [get_inlined (by simp [TypedParameter.key])]
    have ha := h.presentationQuery
    rw [hq] at ha
    cases ha with
    | uri _ _ hn => exact hn
  have hread {d : PresentationDefinition} (hd : TypedParameter.tryFrom x.toValue = .ok d) :
      ReadFrom (inlined value x) { o with
        inner := inlined value x
        presentationQuery := .presentationDefinition (.byValue d) } := {
    inner := rfl
    clientId := (get_inlined (by simp [TypedParameter.key])).trans h.clientId
    responseMode := by
      rw [UntypedObject.getOrDefault_eq_get, get_inlined (by simp [TypedParameter.key]),
        ← UntypedObject.getOrDefault_eq_get]
      exact h.responseMode
    returnUri := h.returnUri.inlined
    responseType := (get_inlined (by simp [TypedParameter.key])).trans h.responseType
    presentationQuery := .definition (get_inlined_presentationDefinition.trans (congrArg some hd))
      get_inlined_presentationDefinitionUri hdcql
    nonce := (get_inlined (by simp [TypedParameter.key])).trans h.nonce
    clientMetadata := (get_inlined (by simp [TypedParameter.key])).trans h.clientMetadata
    expectedOrigins := by
      rw [readExpectedOrigins, get_inlined (by simp [TypedParameter.key])]
      exact h.expectedOrigins }
  constructor
  · intro h'
    obtain ⟨d, hd⟩ : ∃ d, TypedParameter.tryFrom x.toValue = .ok d := by
      have ha := h'.presentationQuery
      generalize o'.presentationQuery = query at ha
      cases ha with
      | dcql _ hn | uri _ hn => cases get_inlined_presentationDefinition.symm.trans hn
      | definition hd =>
        exact ⟨_, Option.some.inj (get_inlined_presentationDefinition.symm.trans hd)⟩
    have ht := (tryFrom_eq_ok_iff.mpr h').symm.trans (tryFrom_eq_ok_iff.mpr (hread hd))
    exact ⟨d, hd, Except.ok.inj ht⟩
  · rintro ⟨d, hd, rfl⟩
    exact hread hd

end AuthorizationRequestObject
end OpenID4VP
