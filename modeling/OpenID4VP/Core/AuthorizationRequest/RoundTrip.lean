import OpenID4VP.Core.AuthorizationRequest.Request
import OpenID4VP.Core.AuthorizationRequest.Authentication

/-! # Plain requests as URLs

The URL of a plain request has a form with the members of the object: strings as they are, other
values as JSON text. Read back, every member is a string. A parameter that reads a value and its
text alike (`ReadsForm`) is kept, which all parameters of a request object are but those that are
arrays and read arrays only (`ReadsNoString`): these are lost. -/

namespace OpenID4VP

section
variable [SerdeJson]

/-! ## The form of an object -/

/-- The object that the form of an object is read back as. -/
def formObject (o : UntypedObject) : UntypedObject :=
  .ofMembers (o.flattenForForm.map fun p => (p.1, .string p.2))

omit [SerdeJson] in
theorem toValueMembers_string (ps : List (String × String)) :
    Json.toValueMembers (ps.map fun p => (p.1, .string p.2)) =
      ps.map fun p => (p.1, .string p.2) := by
  apply Json.toValueMembers_of_wellFormed
  rw [Json.wellFormedMembers_iff]
  intro m hm
  obtain ⟨p, -, rfl⟩ := List.mem_map.mp hm
  rfl

/-- Every member is there, as its text. -/
theorem get?_formObject (o : UntypedObject) (k : String) :
    (formObject o).get? k = (o.get? k).map fun x => .string (UntypedObject.formText x) := by
  have hn : (Members.keys (o.entries.map fun m => (m.1, UntypedObject.formText m.2))).Nodup := by
    rw [Members.keys_map fun _ => UntypedObject.formText]
    exact o.nodup_keys
  have hs : (Members.keys (o.flattenForForm.map fun p => (p.1, Json.string p.2))).Nodup := by
    rw [Members.keys_map fun _ => Json.string]
    exact Members.nodup_keys_sort hn
  change (Members.collect (Json.toValueMembers _)).lookup k = _
  rw [toValueMembers_string, Members.collect_of_nodup hs,
    Members.lookup_map fun _ v => Json.string v, UntypedObject.flattenForForm,
    Members.lookup_sort hn, Members.lookup_map fun _ x => UntypedObject.formText x, Option.map_map]
  rfl

theorem containsKey_formObject (o : UntypedObject) (k : String) :
    (formObject o).containsKey k = o.containsKey k := by
  rw [JsonMap.containsKey, get?_formObject, Option.isSome_map, JsonMap.containsKey]

theorem get_formObject_eq_none_iff [TypedParameter α] {o : UntypedObject} :
    (formObject o).get α = none ↔ o.get α = none := by
  rw [UntypedObject.get_eq_none_iff, containsKey_formObject, UntypedObject.get_eq_none_iff]

/-! ## Parameters that forms keep -/

/-- Whatever value is read, its text is read as the same. -/
def ReadsForm (α : Type) [TypedParameter α] : Prop :=
  ∀ (x : Json) (a : α), TypedParameter.tryFrom x = .ok a →
    (TypedParameter.tryFrom (.string (UntypedObject.formText x)) : Except Anyhow α) = .ok a

/-- The type is read from strings only. -/
def ReadsStrings (α : Type) [Deserialize α] : Prop :=
  ∀ (x : Json) (a : α), fromTree x = some a → ∃ s, x = .string s

omit [SerdeJson] in
theorem readsStrings_string : ReadsStrings String := by
  intro x a h
  cases x with
  | string s => exact ⟨s, rfl⟩
  | _ => exact nomatch h

omit [SerdeJson] in
theorem readsStrings_url [UrlCrate] : ReadsStrings Url := by
  intro x a h
  change (do UrlCrate.parse (← fromTree x)) = _ at h
  rw [Option.bind_eq_bind, Option.bind_eq_some_iff] at h
  obtain ⟨s, hs, -⟩ := h
  exact readsStrings_string x s hs

theorem readsForm_via [Deserialize β] [Serialize β] {key : String} {wrap : β → α} {raw : α → β}
    (h : ReadsStrings β) : @ReadsForm _ α (.via key wrap raw) := by
  intro x a hx
  obtain ⟨b, hb, -⟩ := TypedParameter.via_tryFrom_eq_ok_iff.mp hx
  obtain ⟨s, rfl⟩ := h x b hb
  exact hx

/-- A reading of text or values gives the same for a value and for its text. -/
theorem fromStringOrValue_formText [Deserialize α] (x : Json) :
    (fromStringOrValue (.string (UntypedObject.formText x)) : Except Anyhow α) =
      fromStringOrValue x := by
  cases x with
  | string s => rfl
  | _ => exact fromStr_print _

theorem readsForm_clientId : ReadsForm ClientId := by
  intro x a h
  cases x with
  | string s => exact h
  | _ => exact absurd h Except.throw_ne_ok

theorem readsForm_clientMetadata : ReadsForm ClientMetadata := by
  intro x a h
  change (fromStringOrValue _).map ClientMetadata.mk = _
  rw [fromStringOrValue_formText]
  exact h

theorem readsForm_presentationDefinition [SerdeJsonPath] [JsonSchema] :
    ReadsForm PresentationDefinition := fun x _ h => (fromStringOrValue_formText x).trans h

theorem readsForm_dcql [Base64Url] : ReadsForm DCQL :=
  fun x _ h => (fromStringOrValue_formText x).trans h

theorem get_formObject [TypedParameter α] (hα : ReadsForm α) {o : UntypedObject} {a : α}
    (h : o.get α = some (.ok a)) : (formObject o).get α = some (.ok a) := by
  obtain ⟨x, hx, ha⟩ := UntypedObject.get_eq_some_iff.mp h
  refine UntypedObject.get_eq_some_iff.mpr ⟨_, ?_, hα x a ha⟩
  rw [get?_formObject, hx]
  rfl

/-! ## Parameters that forms lose -/

omit [SerdeJson] in
/-- The parameter is not read from strings. -/
def ReadsNoString (α : Type) [TypedParameter α] : Prop :=
  ∀ (s : String) (a : α), TypedParameter.tryFrom (.string s) ≠ .ok a

theorem get_formObject_ne_ok [TypedParameter α] (hα : ReadsNoString α) {o : UntypedObject} {a : α} :
    (formObject o).get α ≠ some (.ok a) := by
  intro h
  obtain ⟨x, hx, ha⟩ := UntypedObject.get_eq_some_iff.mp h
  rw [get?_formObject, Option.map_eq_some_iff] at hx
  obtain ⟨y, -, rfl⟩ := hx
  exact hα _ a ha

omit [SerdeJson] in
theorem readsNoString_transactionData : ReadsNoString TransactionData := by
  intro s a h
  exact nomatch h

omit [SerdeJson] in
theorem readsNoString_verifierInfo : ReadsNoString VerifierInfo := by
  intro s a h
  exact nomatch h

omit [SerdeJson] in
theorem readsNoString_expectedOrigins [UrlCrate] : ReadsNoString ExpectedOrigins := by
  intro s a h
  exact nomatch h

end

/-! ## Reading the URL of a request -/

section
variable [SerdeJson]

theorem getOrDefault_formObject {v : UntypedObject} {mode : ResponseMode}
    (h : v.getOrDefault ResponseMode.default = .ok mode) :
    (formObject v).getOrDefault ResponseMode.default = .ok mode := by
  rw [UntypedObject.getOrDefault] at h ⊢
  rw [get?_formObject]
  cases hx : v.get? (TypedParameter.key ResponseMode) with
  | none => rwa [hx] at h
  | some x =>
    rw [hx] at h
    exact readsForm_via readsStrings_string x mode h

theorem queryMap_toString [FormUrlencoded] (o : UntypedObject) :
    AuthorizationRequest.queryMap (FormUrlencoded.toString o.flattenForForm) = formObject o := by
  rw [AuthorizationRequest.queryMap, FormUrlencoded.parse_toString]
  rfl

namespace AuthorizationRequestObject

variable [UrlCrate] {v : UntypedObject}

theorem ReturnsTo.formObject {mode : ResponseMode} {uri : Option Url} (h : ReturnsTo v mode uri) :
    ReturnsTo (formObject v) mode uri := by
  cases h with
  | redirect hm h hr =>
    exact .redirect hm (get_formObject (readsForm_via readsStrings_url) h)
      (get_formObject_eq_none_iff.mpr hr)
  | response hm h hr =>
    exact .response hm (get_formObject (readsForm_via readsStrings_url) h)
      (get_formObject_eq_none_iff.mpr hr)
  | browser hm h hr =>
    exact .browser hm (get_formObject_eq_none_iff.mpr h) (get_formObject_eq_none_iff.mpr hr)

theorem readExpectedOrigins_formObject {mode : ResponseMode} :
    readExpectedOrigins (formObject v) mode = none := by
  rw [readExpectedOrigins]
  split
  · split
    · next h => exact absurd h (get_formObject_ne_ok readsNoString_expectedOrigins)
    · rfl
  · rfl

variable [SerdeJsonPath] [JsonSchema] [Base64Url] {o : AuthorizationRequestObject}

theorem AsksFor.formObject {q : PresentationQuery} (h : AsksFor v q) :
    AsksFor (formObject v) q := by
  cases h with
  | dcql h hd hu =>
    exact .dcql (get_formObject readsForm_dcql h) (get_formObject_eq_none_iff.mpr hd)
      (get_formObject_eq_none_iff.mpr hu)
  | definition h hu hq =>
    exact .definition (get_formObject readsForm_presentationDefinition h)
      (get_formObject_eq_none_iff.mpr hu) (get_formObject_eq_none_iff.mpr hq)
  | uri h hd hq =>
    exact .uri (get_formObject (readsForm_via readsStrings_url) h)
      (get_formObject_eq_none_iff.mpr hd) (get_formObject_eq_none_iff.mpr hq)

/-- The request object read from the form of another one: all is kept but what is read from arrays
only. -/
def ofForm (o : AuthorizationRequestObject) : AuthorizationRequestObject :=
  { o with inner := formObject o.inner, expectedOrigins := none }

theorem ReadFrom.ofForm (h : ReadFrom v o) : ReadFrom (formObject v) o.ofForm where
  inner := congrArg formObject h.inner
  clientId := get_formObject readsForm_clientId h.clientId
  responseMode := getOrDefault_formObject h.responseMode
  returnUri := h.returnUri.formObject
  responseType := get_formObject (readsForm_via readsStrings_string) h.responseType
  presentationQuery := h.presentationQuery.formObject
  nonce := get_formObject (readsForm_via readsStrings_string) h.nonce
  clientMetadata := get_formObject readsForm_clientMetadata h.clientMetadata
  expectedOrigins := readExpectedOrigins_formObject.symm

end AuthorizationRequestObject

variable [SerdeJsonPath] [JsonSchema] [UrlCrate] [Base64Url] [FormUrlencoded]

namespace AuthorizationRequest

variable {v : UntypedObject} {o : AuthorizationRequestObject}

/-- What is read from the URL of a request. -/
theorem fromUrl_eq_ofForm (e : Url) (h : AuthorizationRequestObject.tryFrom v = .ok o)
    (hr : v.containsKey "request" = false) (hu : v.containsKey "request_uri" = false) :
    fromUrl (o.intoUrl e) e = .ok (.plain o.ofForm) := by
  have hv := AuthorizationRequestObject.tryFrom_eq_ok_iff.mp h
  have hi := AuthorizationRequestObject.tryFrom_eq_ok_iff.mpr hv.ofForm
  rw [AuthorizationRequestObject.intoUrl, fromUrl_setQuery, fromQueryParams, queryMap_toString,
    hv.inner]
  simp only [containsKey_formObject, hr, hu, hi]
  rfl

/-- The URL of a plain request is read back as the request. -/
theorem fromUrl_intoUrl (e : Url) (h : AuthorizationRequestObject.tryFrom v = .ok o)
    (hr : v.containsKey "request" = false) (hu : v.containsKey "request_uri" = false) :
    ∃ o', fromUrl (o.intoUrl e) e = .ok (.plain o') ∧ o'.clientId = o.clientId ∧
      o'.responseMode = o.responseMode ∧ o'.responseType = o.responseType ∧
      o'.presentationQuery = o.presentationQuery ∧ o'.returnUri = o.returnUri ∧
      o'.nonce = o.nonce ∧ o'.clientMetadata = o.clientMetadata :=
  ⟨o.ofForm, fromUrl_eq_ofForm e h hr hu, rfl, rfl, rfl, rfl, rfl, rfl, rfl⟩

/-! ## Arrays -/

/-- No array parameter of the request that can be read is lost or changed on the way through a
URL. -/
def KeepsArrays (o : AuthorizationRequestObject) (e : Url) : Prop :=
  ∀ o', fromUrl (o.intoUrl e) e = .ok (.plain o') →
    (∀ d, o.getTransactionData = some d → o'.getTransactionData = some d) ∧
    (∀ i, o.inner.get VerifierInfo = some (.ok i) → o'.inner.get VerifierInfo = some (.ok i)) ∧
    ∀ x, o.expectedOrigins = some x → o'.expectedOrigins = some x

/-- The request has no array parameter that can be read. -/
structure CarriesNoArrays (o : AuthorizationRequestObject) : Prop where
  transactionData : o.getTransactionData = none
  verifierInfo : ∀ i, o.inner.get VerifierInfo ≠ some (.ok i)
  expectedOrigins : o.expectedOrigins = none

omit [Base64Url] [FormUrlencoded] in
theorem getTransactionData_ofForm (o : AuthorizationRequestObject) :
    o.ofForm.getTransactionData = none := by
  rw [AuthorizationRequestObject.getTransactionData]
  split
  · next h => exact absurd h (get_formObject_ne_ok readsNoString_transactionData)
  · rfl

/-- A plain request keeps its arrays in a URL exactly when it has none. -/
theorem keepsArrays_iff (e : Url) (h : AuthorizationRequestObject.tryFrom v = .ok o)
    (hr : v.containsKey "request" = false) (hu : v.containsKey "request_uri" = false) :
    KeepsArrays o e ↔ CarriesNoArrays o := by
  have hf := fromUrl_eq_ofForm e h hr hu
  constructor
  · intro hk
    obtain ⟨ht, hi, hx⟩ := hk o.ofForm hf
    refine ⟨?_, fun i h => ?_, ?_⟩
    · by_contra hn
      obtain ⟨d, hd⟩ := Option.ne_none_iff_exists'.mp hn
      exact nomatch (getTransactionData_ofForm o).symm.trans (ht d hd)
    · exact get_formObject_ne_ok readsNoString_verifierInfo (hi i h)
    · by_contra hn
      obtain ⟨x, hx'⟩ := Option.ne_none_iff_exists'.mp hn
      exact nomatch hx x hx'
  · rintro ⟨ht, hi, hx⟩ o' -
    refine ⟨fun d hd => ?_, fun i h => absurd h (hi i), fun x hx' => ?_⟩
    · exact nomatch ht.symm.trans hd
    · exact nomatch hx.symm.trans hx'

end AuthorizationRequest
end

/-! ## Samples -/

namespace Sample
open scoped Reference

theorem fromUrl_intoUrl_x509Request :
    ∃ o', AuthorizationRequest.fromUrl (x509Request.intoUrl endpoint) endpoint = .ok (.plain o') ∧
      o'.clientId = x509Request.clientId ∧ o'.responseMode = x509Request.responseMode ∧
      o'.responseType = x509Request.responseType ∧
      o'.presentationQuery = x509Request.presentationQuery ∧
      o'.returnUri = x509Request.returnUri ∧ o'.nonce = x509Request.nonce ∧
      o'.clientMetadata = x509Request.clientMetadata :=
  AuthorizationRequest.fromUrl_intoUrl endpoint tryFrom_x509Request rfl rfl

/-- A request for the approval of a transaction. -/
def transactionObject : UntypedObject :=
  (requestObject "x509_san_dns:verifier.example").insert "transaction_data"
    (.array [.string "eyJ0eXBlIjoicGF5bWVudCJ9"])

def transactionRequest : AuthorizationRequestObject :=
  request ⟨"verifier.example", .x509SanDns⟩ transactionObject

theorem tryFrom_transactionObject :
    AuthorizationRequestObject.tryFrom transactionObject = .ok transactionRequest := rfl

theorem keepsArrays_transactionRequest :
    AuthorizationRequest.KeepsArrays transactionRequest endpoint ↔
      AuthorizationRequest.CarriesNoArrays transactionRequest :=
  AuthorizationRequest.keepsArrays_iff endpoint tryFrom_transactionObject rfl rfl

theorem not_keepsArrays_transactionRequest :
    ¬AuthorizationRequest.KeepsArrays transactionRequest endpoint := by
  intro h
  have hf := AuthorizationRequest.fromUrl_eq_ofForm endpoint tryFrom_transactionObject rfl rfl
  have ht := (h _ hf).1 ⟨["eyJ0eXBlIjoicGF5bWVudCJ9"]⟩ rfl
  exact nomatch (AuthorizationRequest.getTransactionData_ofForm transactionRequest).symm.trans ht

end Sample
end OpenID4VP
