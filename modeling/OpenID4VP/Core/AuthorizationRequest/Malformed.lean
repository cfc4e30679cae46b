import OpenID4VP.Core.AuthorizationRequest.Authentication
import OpenID4VP.Core.AuthorizationRequest.TransactionData

/-! # Parameters that cannot be read

A parameter that a request may do without is absent, malformed or given. Where its reading is an
option of a result, a failure that is turned into `none` looks like an absent member: the check
that the member was sent for is then left out. -/

namespace OpenID4VP

/-- The object has a member for the parameter, which cannot be read. -/
def UntypedObject.Malformed (o : UntypedObject) (α : Type) [TypedParameter α] : Prop :=
  ∃ e, o.get α = some (.error e)

section
variable [SerdeJson] [SerdeJsonPath] [JsonSchema] [UrlCrate] [Base64Url]

namespace AuthorizationRequestObject
variable {value : UntypedObject} {o : AuthorizationRequestObject}

/-! ## Origins and formats -/

/-- A request through the browser has no origins only where the object has none. -/
def KeepsExpectedOrigins (value : UntypedObject) (o : AuthorizationRequestObject) : Prop :=
  o.expectedOrigins = none → value.containsKey "expected_origins" = false

theorem keepsExpectedOrigins_iff (h : tryFrom value = .ok o) (hm : o.responseMode.isDcApi = true) :
    KeepsExpectedOrigins value o ↔ ¬value.Malformed ExpectedOrigins := by
  have he : o.expectedOrigins = readExpectedOrigins value o.responseMode :=
    (tryFrom_eq_ok_iff.mp h).expectedOrigins
  have hn : value.get ExpectedOrigins = none ↔ value.containsKey "expected_origins" = false :=
    UntypedObject.get_eq_none_iff
  rw [readExpectedOrigins, if_pos hm] at he
  rw [KeepsExpectedOrigins, he, ← hn, UntypedObject.Malformed]
  rcases value.get ExpectedOrigins with _ | _ | _ <;> simp

end AuthorizationRequestObject

/-- Formats of the verifier that cannot be read do not pass the check. -/
def RefusesMalformedFormats (metadata : ClientMetadata) (walletMetadata : WalletMetadata)
    (state : Option String) : Prop :=
  metadata.object.Malformed VpFormatsSupported →
    validateVpFormatsSupported metadata walletMetadata state ≠ .ok ()

omit [SerdeJsonPath] [JsonSchema] [Base64Url] in
theorem refusesMalformedFormats_iff {metadata : ClientMetadata} {walletMetadata : WalletMetadata}
    {state : Option String} :
    RefusesMalformedFormats metadata walletMetadata state ↔
      ¬metadata.object.Malformed VpFormatsSupported := by
  refine ⟨fun h hm => h hm ?_, fun h hm => absurd hm h⟩
  obtain ⟨e, he⟩ := hm
  rw [validateVpFormatsSupported, he]
  rfl

/-- A parameter that cannot be read counts as absent, and only such a parameter does. -/
theorem malformed_counts_as_absent :
    (∀ value o, AuthorizationRequestObject.tryFrom value = .ok o →
      o.responseMode.isDcApi = true →
      (o.KeepsExpectedOrigins value ↔ ¬value.Malformed ExpectedOrigins)) ∧
    ∀ metadata walletMetadata state,
      RefusesMalformedFormats metadata walletMetadata state ↔
        ¬metadata.object.Malformed VpFormatsSupported :=
  ⟨fun _ _ h hm => AuthorizationRequestObject.keepsExpectedOrigins_iff h hm,
    fun _ _ _ => refusesMalformedFormats_iff⟩

/-! ## Transaction data -/

namespace AuthorizationRequestObject

/-- The value is a list of texts, of which these items are the decodings. -/
def DecodesTo (x : Json) (items : List TransactionDataItem) : Prop :=
  ∃ texts : List String, x = .array (texts.map .string) ∧
    texts.mapM TransactionDataItem.fromBase64urlEncoded = .ok items

/-- The transaction data of a request is reported as it is: absent, decoded or malformed. -/
structure ReportsTransactionData (o : AuthorizationRequestObject) : Prop where
  absent : o.getTransactionDataItems = .ok none ↔
    o.inner.containsKey "transaction_data" = false
  decoded : ∀ items, o.getTransactionDataItems = .ok (some items) ↔
    ∃ x, o.inner.get? "transaction_data" = some x ∧ DecodesTo x items
  malformed : ∀ x, o.inner.get? "transaction_data" = some x → (∀ items, ¬DecodesTo x items) →
    ∃ description state source, o.getTransactionDataItems =
      .error (.protocol .invalidTransactionData description state source)

/-- The object has no transaction data, or a list of texts, whatever they say. -/
def HasTexts (o : AuthorizationRequestObject) : Prop :=
  ∀ x, o.inner.get? "transaction_data" = some x →
    ∃ texts : List String, x = .array (texts.map .string)

variable {o : AuthorizationRequestObject}

omit [SerdeJson] [Base64Url] in
theorem getTransactionData_eq_some_iff {d : TransactionData} :
    o.getTransactionData = some d ↔
      o.inner.get? "transaction_data" = some (.array (d.items.map .string)) := by
  have h : o.inner.get TransactionData = some (.ok d) ↔
      o.inner.get? "transaction_data" = some (.array (d.items.map .string)) := by
    rw [UntypedObject.get_eq_some_iff]
    constructor
    · rintro ⟨x, hx, hd⟩
      obtain ⟨texts, ht, rfl⟩ := TypedParameter.via_tryFrom_eq_ok_iff.mp hd
      rwa [(fromTree_list_eq_some_iff fromTree_eq_text_iff).mp ht] at hx
    · intro hx
      exact ⟨_, hx, TypedParameter.via_tryFrom_eq_ok_iff.mpr
        ⟨d.items, (fromTree_list_eq_some_iff fromTree_eq_text_iff).mpr rfl, rfl⟩⟩
  rw [← h, getTransactionData]
  rcases o.inner.get TransactionData with _ | _ | d' <;> simp

omit [SerdeJson] [Base64Url] in
theorem getTransactionData_eq_none_iff :
    o.getTransactionData = none ↔
      ∀ texts : List String,
        o.inner.get? "transaction_data" ≠ some (.array (texts.map .string)) := by
  rw [Option.eq_none_iff_forall_ne_some]
  exact ⟨fun h texts ht => h ⟨texts⟩ (getTransactionData_eq_some_iff.mpr ht),
    fun h d hd => h d.items (getTransactionData_eq_some_iff.mp hd)⟩

/-- A list of texts is decoded or refused, all other transaction data is overlooked. -/
theorem getTransactionDataItems_of_texts {texts : List String}
    (h : o.inner.get? "transaction_data" = some (.array (texts.map .string))) :
    o.getTransactionDataItems = some <$> texts.mapM (decodeTransactionDataItem o.state) := by
  have hd : o.getTransactionData = some ⟨texts⟩ := getTransactionData_eq_some_iff.mpr h
  rw [getTransactionDataItems, hd]
  rfl

omit [SerdeJsonPath] [JsonSchema] [UrlCrate] in
theorem eq_invalidTransactionData {state : Option String} {item : String} {e : Error}
    (h : decodeTransactionDataItem state item = .error e) :
    ∃ description, e = .protocol .invalidTransactionData description state none := by
  rw [decodeTransactionDataItem] at h
  cases hf : TransactionDataItem.fromBase64urlEncoded item with
  | error e' =>
    rw [hf] at h
    exact ⟨_, (Except.error.inj h).symm⟩
  | ok t =>
    rw [hf] at h
    cases h

theorem reports_of_absent (h : o.inner.get? "transaction_data" = none) :
    o.ReportsTransactionData := by
  have hk : o.inner.containsKey "transaction_data" = false := by
    rw [JsonMap.containsKey, h]
    rfl
  have hn : o.getTransactionDataItems = .ok none := by
    rw [getTransactionDataItems, getTransactionData_eq_none_iff.mpr (by simp [h])]
    rfl
  refine ⟨iff_of_true hn hk, fun items => ?_, by simp [h]⟩
  rw [hn, h]
  simp

omit [SerdeJsonPath] [JsonSchema] [UrlCrate] in
/-- The decodings of a list of texts, whatever its failures are reported as. -/
theorem mapM_decode_eq_ok_iff {state : Option String} {texts : List String}
    {items : List TransactionDataItem} :
    texts.mapM (decodeTransactionDataItem state) = .ok items ↔
      DecodesTo (.array (texts.map .string)) items := by
  have hm : texts.mapM (decodeTransactionDataItem state) = .ok items ↔
      texts.mapM TransactionDataItem.fromBase64urlEncoded = .ok items :=
    Except.mapM_mapError_eq_ok_iff
  rw [hm, DecodesTo]
  constructor
  · intro h
    exact ⟨texts, rfl, h⟩
  · rintro ⟨texts', he, h⟩
    have hi : Function.Injective Json.string := fun _ _ h => Json.string.inj h
    rwa [hi.list_map (Json.array.inj he)]

theorem reports_of_texts {texts : List String}
    (h : o.inner.get? "transaction_data" = some (.array (texts.map .string))) :
    o.ReportsTransactionData := by
  have hk : o.inner.containsKey "transaction_data" = true := by
    rw [JsonMap.containsKey, h]
    rfl
  have ht := getTransactionDataItems_of_texts h
  refine ⟨?_, fun items => ?_, fun x hx hd => ?_⟩
  · rw [ht, hk, Except.map_eq_ok_iff]
    simp
  · rw [ht, h, Except.map_eq_ok_iff]
    simp only [Option.some.injEq, exists_eq_right, exists_eq_left', mapM_decode_eq_ok_iff]
  · rw [h, Option.some.injEq] at hx
    subst hx
    cases hm : texts.mapM (decodeTransactionDataItem o.state) with
    | ok items => exact absurd (mapM_decode_eq_ok_iff.mp hm) (hd items)
    | error e =>
      obtain ⟨item, -, he⟩ := Except.exists_of_mapM_eq_error hm
      obtain ⟨description, rfl⟩ := eq_invalidTransactionData he
      exact ⟨description, o.state, none, by rw [ht, hm]; rfl⟩

theorem HasTexts.reports (h : o.HasTexts) : o.ReportsTransactionData := by
  cases hx : o.inner.get? "transaction_data" with
  | none => exact reports_of_absent hx
  | some x =>
    obtain ⟨texts, rfl⟩ := h x hx
    exact reports_of_texts hx

/-- Transaction data is reported as it is exactly when it is absent or a list of texts: anything
else counts as absent. -/
theorem reportsTransactionData_iff : o.ReportsTransactionData ↔ o.HasTexts := by
  refine ⟨fun h x hx => ?_, HasTexts.reports⟩
  by_contra hn
  have hd : o.getTransactionData = none := by
    rw [getTransactionData_eq_none_iff]
    intro texts ht
    rw [hx, Option.some.injEq] at ht
    exact hn ⟨texts, ht⟩
  have hk : o.inner.containsKey "transaction_data" = false := by
    rw [← h.absent, getTransactionDataItems, hd]
    rfl
  rw [JsonMap.containsKey, hx] at hk
  cases hk

end AuthorizationRequestObject
end

/-! ## Requests with malformed parameters -/

namespace Sample
open scoped Reference

/-- A request through the browser with these origins. -/
def browserObject (origins : Json) : UntypedObject :=
  (((requestObject "x509_san_dns:verifier.example").erase "response_uri").insert "response_mode"
    (.string "dc_api")).insert "expected_origins" origins

/-- The origin alone, which is no list. -/
def malformedOrigins : UntypedObject := browserObject (.string "https://verifier.example")

def malformedOriginsRequest : AuthorizationRequestObject :=
  { request ⟨"verifier.example", .x509SanDns⟩ malformedOrigins with
    responseMode := .dcApi
    returnUri := none }

theorem tryFrom_malformedOrigins :
    AuthorizationRequestObject.tryFrom malformedOrigins = .ok malformedOriginsRequest := rfl

/-- Formats that are no object. -/
def malformedFormats : ClientMetadata :=
  ⟨⟨[("vp_formats_supported", .string "jwt_vc_json")], rfl⟩⟩

theorem malformed_counts_as_absent_origins :
    (malformedOriginsRequest.KeepsExpectedOrigins malformedOrigins ↔
      ¬malformedOrigins.Malformed ExpectedOrigins) ∧
    (RefusesMalformedFormats malformedFormats wallet.metadata none ↔
      ¬malformedFormats.object.Malformed VpFormatsSupported) :=
  ⟨malformed_counts_as_absent.1 _ _ tryFrom_malformedOrigins rfl,
    malformed_counts_as_absent.2 _ _ _⟩

/-- The request is accepted as one without origins, and the metadata as one without formats. -/
theorem malformed_parameters_pass :
    AuthorizationRequestObject.tryFrom malformedOrigins = .ok malformedOriginsRequest ∧
    malformedOriginsRequest.responseMode.isDcApi = true ∧
    ¬malformedOriginsRequest.KeepsExpectedOrigins malformedOrigins ∧
    ¬RefusesMalformedFormats malformedFormats wallet.metadata none := by
  refine ⟨rfl, rfl, fun h => ?_, fun h => ?_⟩
  · have hk : malformedOrigins.containsKey "expected_origins" = true := rfl
    exact Bool.false_ne_true ((h rfl).symm.trans hk)
  · exact h ⟨.library "serde_json", rfl⟩ rfl

/-- The text of an item, outside of a list. -/
def textTransactionData : UntypedObject :=
  (requestObject "x509_san_dns:verifier.example").insert "transaction_data" (.string "e30")

def textTransactionDataRequest : AuthorizationRequestObject :=
  request ⟨"verifier.example", .x509SanDns⟩ textTransactionData

theorem transactionData_overlooked :
    AuthorizationRequestObject.tryFrom textTransactionData = .ok textTransactionDataRequest ∧
    textTransactionDataRequest.getTransactionDataItems = .ok none ∧
    ¬textTransactionDataRequest.ReportsTransactionData := by
  refine ⟨rfl, rfl, fun h => ?_⟩
  have hk : textTransactionData.containsKey "transaction_data" = true := rfl
  exact Bool.false_ne_true ((h.absent.mp rfl).symm.trans hk)

end Sample
end OpenID4VP
