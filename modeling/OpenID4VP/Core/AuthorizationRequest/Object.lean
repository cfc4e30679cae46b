import OpenID4VP.Core.AuthorizationRequest.Parameters

/-! # Authorization request objects

A request object is an untyped object whose parameters have been read. `tryFrom_eq_ok_iff` says
which objects are accepted and what is read from them. -/

namespace OpenID4VP

variable [SerdeJson] [SerdeJsonPath] [JsonSchema] [UrlCrate] [Base64Url]

inductive PresentationDefinitionIndirection
  | byValue (definition : PresentationDefinition)
  | byReference (uri : Url)

inductive PresentationQuery
  | dcql (query : DCQL)
  | presentationDefinition (definition : PresentationDefinitionIndirection)

structure AuthorizationRequestObject where
  inner : UntypedObject
  clientId : ClientId
  responseMode : ResponseMode
  responseType : ResponseType
  presentationQuery : PresentationQuery
  returnUri : Option Url
  nonce : Nonce
  clientMetadata : ClientMetadata
  expectedOrigins : Option ExpectedOrigins

namespace AuthorizationRequestObject

/-- The state of a request, where it can be read. -/
def stateOf (value : UntypedObject) : Option String :=
  match value.get State with
  | some (.ok s) => some s.value
  | _ => none

/-- The URI the answer is sent to, which the response mode decides on. -/
def selectReturnUri (state : Option String) : Option (Except Anyhow RedirectUri) →
    Option (Except Anyhow ResponseUri) → ResponseMode → Except Error (Option Url)
  | some uri, none, .fragment | some uri, none, .fragmentJwt => do
    return some (← (parsingError (some uri)).mapError
      (Error.protocolInvalidReq "could not parse a 'redirect_uri'" state).addSource).url
  | none, some uri, .directPost | none, some uri, .directPostJwt => do
    return some (← (parsingError (some uri)).mapError
      (Error.protocolInvalidReq "could not parse a 'redirect_uri'" state).addSource).url
  | none, none, .dcApi | none, none, .dcApiJwt => return none
  | _, _, mode@.dcApi | _, _, mode@.dcApiJwt => throw <| .protocolInvalidReq
      s!"'response_uri/redirect_uri' is not allowed with this '{mode}' response mode" state
  | _, _, .unsupported m =>
    throw <| .protocolInvalidReq s!"'{m}' response_mode is not supported" state
  | some _, some _, _ => throw <| .protocolInvalidReq
      "'response_uri' and 'redirect_uri' are mutually exclusive" state
  | _, none, mode@.directPost | _, none, mode@.directPostJwt => throw <| .protocolInvalidReq
      s!"'response_uri' is required for this '{mode}' response mode" state
  | none, _, mode@.fragment | none, _, mode@.fragmentJwt => throw <| .protocolInvalidReq
      s!"'redirect_uri' is required for this '{mode}' response mode" state

def readReturnUri (value : UntypedObject) (mode : ResponseMode) : Except Error (Option Url) :=
  selectReturnUri (stateOf value) (value.get RedirectUri) (value.get ResponseUri) mode

/-- The origins of a request through the browser. Origins that cannot be read count as absent. -/
def readExpectedOrigins (value : UntypedObject) (mode : ResponseMode) : Option ExpectedOrigins :=
  if mode.isDcApi then
    match value.get ExpectedOrigins with
    | some (.ok origins) => some origins
    | _ => none
  else none

def selectPresentationQuery (state : Option String) :
    Option (Except Anyhow PresentationDefinition) →
    Option (Except Anyhow PresentationDefinitionUri) → Option (Except Anyhow DCQL) →
    Except Error PresentationQuery
  | none, none, some dcql => do
    return .dcql (← (parsingError (some dcql)).mapError
      (Error.protocol .invalidDCQLFormat (some "an error occurred in parsing dcql_query") state
        none).addSource)
  | some pd, none, none => do
    return .presentationDefinition (.byValue (← (parsingError (some pd)).mapError
      (Error.protocol .invalidPresentationDefinitionFormat
        (some "an error occurred in parsing presentation_definition") state none).addSource))
  | none, some uri, none => do
    return .presentationDefinition (.byReference (← (parsingError (some uri)).mapError
      (Error.protocol .invalidPresentationDefinitionUri
        (some "could parse a 'presentation_definition_uri'") state none).addSource).url)
  | _, _, _ => throw <| .protocolInvalidReq ("one and only one correctly formatted of " ++
      "'presentation_definition', 'presentation_definition_uri' or 'dcql_query' is required") state

def readPresentationQuery (value : UntypedObject) : Except Error PresentationQuery :=
  selectPresentationQuery (stateOf value) (value.get PresentationDefinition)
    (value.get PresentationDefinitionUri) (value.get DCQL)

def tryFrom (value : UntypedObject) : Except Error AuthorizationRequestObject := do
  let clientId ← orInternal (parsingError (value.get ClientId))
  let responseMode ← orInternal (value.getOrDefault ResponseMode.default)
  let returnUri ← readReturnUri value responseMode
  let responseType ← orInternal (parsingError (value.get ResponseType))
  let presentationQuery ← readPresentationQuery value
  let nonce ← orInternal (parsingError (value.get Nonce))
  let clientMetadata ← orInternal (parsingError (value.get ClientMetadata))
  return {
    inner := value
    clientId, responseMode, responseType, presentationQuery, returnUri, nonce, clientMetadata
    expectedOrigins := readExpectedOrigins value responseMode }

/-! ## Reading a request object -/

def state (o : AuthorizationRequestObject) : Option String := stateOf o.inner

/-- A parameter that counts as absent where it cannot be read. -/
def getTransactionData (o : AuthorizationRequestObject) : Option TransactionData :=
  match o.inner.get TransactionData with
  | some (.ok d) => some d
  | _ => none

/-- The object with the client id it was read with. -/
def intoUntyped (o : AuthorizationRequestObject) : UntypedObject :=
  (o.inner.insertParam o.clientId).1

/-! ## What is accepted -/

/-- The URI the answer to a request of some mode is sent to: `redirect_uri` for answers in a
fragment, `response_uri` for answers that are posted, none for answers through the browser. -/
inductive ReturnsTo (value : UntypedObject) : ResponseMode → Option Url → Prop
  | redirect (hm : mode = .fragment ∨ mode = .fragmentJwt)
    (h : value.get RedirectUri = some (.ok uri)) (hr : value.get ResponseUri = none) :
    ReturnsTo value mode (some uri.url)
  | response (hm : mode = .directPost ∨ mode = .directPostJwt)
    (h : value.get ResponseUri = some (.ok uri)) (hr : value.get RedirectUri = none) :
    ReturnsTo value mode (some uri.url)
  | browser (hm : mode.isDcApi = true) (h : value.get RedirectUri = none)
    (hr : value.get ResponseUri = none) : ReturnsTo value mode none

omit [SerdeJson] [SerdeJsonPath] [JsonSchema] [Base64Url] in
theorem readReturnUri_eq_ok_iff {value : UntypedObject} {mode : ResponseMode} {uri : Option Url} :
    readReturnUri value mode = .ok uri ↔ ReturnsTo value mode uri := by
  rw [readReturnUri]
  constructor
  · intro h
    cases h1 : value.get RedirectUri <;> cases h2 : value.get ResponseUri <;> cases mode <;>
      rw [h1, h2] at h <;> simp [selectReturnUri] at h
    case none.none.dcApi | none.none.dcApiJwt =>
      subst h
      exact .browser rfl h1 h2
    case none.some.directPost =>
      obtain ⟨u, rfl, rfl⟩ := h
      exact .response (.inl rfl) h2 h1
    case none.some.directPostJwt =>
      obtain ⟨u, rfl, rfl⟩ := h
      exact .response (.inr rfl) h2 h1
    case some.none.fragment =>
      obtain ⟨u, rfl, rfl⟩ := h
      exact .redirect (.inl rfl) h1 h2
    case some.none.fragmentJwt =>
      obtain ⟨u, rfl, rfl⟩ := h
      exact .redirect (.inr rfl) h1 h2
  · intro h
    cases h with
    | redirect hm h hr => rw [h, hr]; rcases hm with rfl | rfl <;> rfl
    | response hm h hr => rw [h, hr]; rcases hm with rfl | rfl <;> rfl
    | browser hm h hr => rw [h, hr]; cases mode <;> first | rfl | simp [ResponseMode.isDcApi] at hm

section
variable {value : UntypedObject} {mode : ResponseMode} {returnUri : Option Url}

omit [SerdeJson] [SerdeJsonPath] [JsonSchema] [Base64Url] in
theorem ReturnsTo.eq_of_response (h : ReturnsTo value mode returnUri)
    (hm : mode = .directPost ∨ mode = .directPostJwt) {uri : ResponseUri}
    (hu : value.get ResponseUri = some (.ok uri)) : returnUri = some uri.url := by
  cases h with
  | redirect hm' => rcases hm with rfl | rfl <;> simp at hm'
  | response _ h =>
    rw [hu, Option.some_inj, Except.ok.injEq] at h
    rw [h]
  | browser hm' => rcases hm with rfl | rfl <;> exact absurd hm' Bool.false_ne_true

omit [SerdeJson] [SerdeJsonPath] [JsonSchema] [Base64Url] in
theorem ReturnsTo.eq_of_redirect (h : ReturnsTo value mode returnUri)
    (hm : mode = .fragment ∨ mode = .fragmentJwt) {uri : RedirectUri}
    (hu : value.get RedirectUri = some (.ok uri)) : returnUri = some uri.url := by
  cases h with
  | redirect _ h =>
    rw [hu, Option.some_inj, Except.ok.injEq] at h
    rw [h]
  | response hm' => rcases hm with rfl | rfl <;> simp at hm'
  | browser hm' => rcases hm with rfl | rfl <;> exact absurd hm' Bool.false_ne_true

omit [SerdeJson] [SerdeJsonPath] [JsonSchema] [Base64Url] in
theorem ReturnsTo.eq_of_browser (h : ReturnsTo value mode returnUri)
    (hm : mode.isDcApi = true) : returnUri = none := by
  cases h with
  | redirect hm' | response hm' =>
    rcases hm' with rfl | rfl <;> exact absurd hm Bool.false_ne_true
  | browser => rfl

end

/-- What a request asks for: one of the three members that say so is given, and can be read. -/
inductive AsksFor (value : UntypedObject) : PresentationQuery → Prop
  | dcql (h : value.get DCQL = some (.ok query)) (hd : value.get PresentationDefinition = none)
    (hu : value.get PresentationDefinitionUri = none) : AsksFor value (.dcql query)
  | definition (h : value.get PresentationDefinition = some (.ok definition))
    (hu : value.get PresentationDefinitionUri = none) (hq : value.get DCQL = none) :
    AsksFor value (.presentationDefinition (.byValue definition))
  | uri (h : value.get PresentationDefinitionUri = some (.ok uri))
    (hd : value.get PresentationDefinition = none) (hq : value.get DCQL = none) :
    AsksFor value (.presentationDefinition (.byReference uri.url))

theorem readPresentationQuery_eq_ok_iff {value : UntypedObject} {q : PresentationQuery} :
    readPresentationQuery value = .ok q ↔ AsksFor value q := by
  rw [readPresentationQuery]
  constructor
  · intro h
    cases hd : value.get PresentationDefinition <;>
      cases hu : value.get PresentationDefinitionUri <;> cases hq : value.get DCQL <;>
      rw [hd, hu, hq] at h <;> simp [selectPresentationQuery] at h
    case none.none.some =>
      obtain ⟨query, rfl, rfl⟩ := h
      exact .dcql hq hd hu
    case none.some.none =>
      obtain ⟨uri, rfl, rfl⟩ := h
      exact .uri hu hd hq
    case some.none.none =>
      obtain ⟨definition, rfl, rfl⟩ := h
      exact .definition hd hu hq
  · intro h
    cases h with
    | dcql h hd hu => rw [h, hd, hu]; rfl
    | definition h hu hq => rw [h, hu, hq]; rfl
    | uri h hd hq => rw [h, hd, hq]; rfl

/-- The object is read from this value. -/
structure ReadFrom (value : UntypedObject) (o : AuthorizationRequestObject) : Prop where
  inner : o.inner = value
  clientId : value.get ClientId = some (.ok o.clientId)
  responseMode : value.getOrDefault ResponseMode.default = .ok o.responseMode
  returnUri : ReturnsTo value o.responseMode o.returnUri
  responseType : value.get ResponseType = some (.ok o.responseType)
  presentationQuery : AsksFor value o.presentationQuery
  nonce : value.get Nonce = some (.ok o.nonce)
  clientMetadata : value.get ClientMetadata = some (.ok o.clientMetadata)
  expectedOrigins : o.expectedOrigins = readExpectedOrigins value o.responseMode

theorem tryFrom_eq_ok_iff {value : UntypedObject} {o : AuthorizationRequestObject} :
    tryFrom value = .ok o ↔ ReadFrom value o := by
  simp only [tryFrom, Except.bind_eq_ok_iff, Except.pure_eq_ok_iff, orInternal_eq_ok_iff,
    parsingError_eq_ok_iff, readReturnUri_eq_ok_iff, readPresentationQuery_eq_ok_iff]
  constructor
  · rintro ⟨c, hc, m, hm, u, hu, t, ht, q, hq, n, hn, md, hmd, rfl⟩
    exact ⟨rfl, hc, hm, hu, ht, hq, hn, hmd, rfl⟩
  · rintro ⟨rfl, hc, hm, hu, ht, hq, hn, hmd, he⟩
    exact ⟨_, hc, _, hm, _, hu, _, ht, _, hq, _, hn, _, hmd, by rw [← he]⟩

/-! ## What is read again -/

variable {value : UntypedObject} {o : AuthorizationRequestObject}

omit [SerdeJson] [Base64Url] in
/-- The other members are those of the object the request was read from. -/
theorem get_intoUntyped [TypedParameter α] (h : TypedParameter.key α ≠ "client_id")
    (o : AuthorizationRequestObject) : o.intoUntyped.get α = o.inner.get α :=
  UntypedObject.get_insertParam_of_ne h o.inner o.clientId

omit [SerdeJson] [Base64Url] in
/-- The client id is written with its prefix, and read as the same. -/
theorem get_clientId_intoUntyped (o : AuthorizationRequestObject) :
    o.intoUntyped.get ClientId = some (.ok o.clientId) := by
  rw [intoUntyped, UntypedObject.get_insertParam_self, Option.some_inj]
  exact ClientId.new_getFullId _

omit [SerdeJson] [Base64Url] in
theorem ReturnsTo.intoUntyped {mode : ResponseMode} {uri : Option Url}
    (h : ReturnsTo o.inner mode uri) : ReturnsTo o.intoUntyped mode uri := by
  have hr : o.intoUntyped.get RedirectUri = o.inner.get RedirectUri :=
    get_intoUntyped (by simp [TypedParameter.key]) o
  have hp : o.intoUntyped.get ResponseUri = o.inner.get ResponseUri :=
    get_intoUntyped (by simp [TypedParameter.key]) o
  cases h with
  | redirect hm h hn => exact .redirect hm (hr.trans h) (hp.trans hn)
  | response hm h hn => exact .response hm (hp.trans h) (hr.trans hn)
  | browser hm h hn => exact .browser hm (hr.trans h) (hp.trans hn)

theorem AsksFor.intoUntyped {query : PresentationQuery} (h : AsksFor o.inner query) :
    AsksFor o.intoUntyped query := by
  have hd : o.intoUntyped.get PresentationDefinition = o.inner.get PresentationDefinition :=
    get_intoUntyped (by simp [TypedParameter.key]) o
  have hu : o.intoUntyped.get PresentationDefinitionUri = o.inner.get PresentationDefinitionUri :=
    get_intoUntyped (by simp [TypedParameter.key]) o
  have hq : o.intoUntyped.get DCQL = o.inner.get DCQL :=
    get_intoUntyped (by simp [TypedParameter.key]) o
  cases h with
  | dcql h h1 h2 => exact .dcql (hq.trans h) (hd.trans h1) (hu.trans h2)
  | definition h h1 h2 => exact .definition (hd.trans h) (hu.trans h1) (hq.trans h2)
  | uri h h1 h2 => exact .uri (hu.trans h) (hd.trans h1) (hq.trans h2)

/-- A request object that is written is read as the same parameters again. -/
theorem ReadFrom.intoUntyped (h : ReadFrom value o) :
    ReadFrom o.intoUntyped { o with inner := o.intoUntyped } := by
  obtain ⟨rfl, -, hm, hu, ht, hq, hn, hmd, he⟩ := h
  have hm' : o.intoUntyped.getOrDefault ResponseMode.default =
      o.inner.getOrDefault ResponseMode.default :=
    UntypedObject.getOrDefault_insertParam_of_ne (by simp [TypedParameter.key]) _ _ _
  have ho : readExpectedOrigins o.intoUntyped o.responseMode =
      readExpectedOrigins o.inner o.responseMode := by
    rw [readExpectedOrigins, get_intoUntyped (by simp [TypedParameter.key]) o, readExpectedOrigins]
  exact {
    inner := rfl
    clientId := o.get_clientId_intoUntyped
    responseMode := hm'.trans hm
    returnUri := hu.intoUntyped
    responseType := (get_intoUntyped (by simp [TypedParameter.key]) o).trans ht
    presentationQuery := hq.intoUntyped
    nonce := (get_intoUntyped (by simp [TypedParameter.key]) o).trans hn
    clientMetadata := (get_intoUntyped (by simp [TypedParameter.key]) o).trans hmd
    expectedOrigins := he.trans ho.symm }

end AuthorizationRequestObject
end OpenID4VP
