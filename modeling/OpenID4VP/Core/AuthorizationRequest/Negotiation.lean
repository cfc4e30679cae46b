import Mathlib.Logic.Relation
import OpenID4VP.Core.AuthorizationRequest.Authentication
import OpenID4VP.Core.Metadata.Prefixes

/-! # Negotiation of capabilities

A request is checked against the metadata of the wallet: by what the wallet can do and by what the
request offers, and by nothing else (`validateRequestAgainstMetadata_eq_ok_iff`). Of the subject
syntax types the wallet has to support all that are offered, of everything else one is enough. So
a party that can do more is still accepted, but for more subject syntax types of the verifier. -/

namespace OpenID4VP

/-- The second list is the first one with `a` added somewhere. -/
def AddsElement (a : α) (xs ys : List α) : Prop := ∃ l r, xs = l ++ r ∧ ys = l ++ a :: r

def Adds (xs ys : List α) : Prop := ∃ a, AddsElement a xs ys

theorem AddsElement.mem {a b : α} {xs ys : List α} (h : AddsElement a xs ys) (hb : b ∈ ys) :
    b = a ∨ b ∈ xs := by
  obtain ⟨l, r, rfl, rfl⟩ := h
  simp only [List.mem_append, List.mem_cons] at hb ⊢
  tauto

theorem Adds.subset {xs ys : List α} (h : Adds xs ys) : xs ⊆ ys := by
  obtain ⟨a, l, r, rfl, rfl⟩ := h
  exact List.append_subset.mpr ⟨List.subset_append_left l _, fun _ h =>
    List.mem_append_right l (List.mem_cons_of_mem a h)⟩

theorem containsAny_iff [DecidableEq α] {large small : List α} :
    containsAny large small = true ↔ ∃ a ∈ small, a ∈ large := by
  simp [containsAny]

theorem containsAny_comm [DecidableEq α] (xs ys : List α) :
    containsAny xs ys = containsAny ys xs := by
  rw [Bool.eq_iff_iff, containsAny_iff, containsAny_iff]
  exact exists_congr fun a => and_comm

theorem containsAny_mono [DecidableEq α] {large large' small : List α} (hl : large ⊆ large')
    (h : containsAny large small = true) : containsAny large' small = true := by
  obtain ⟨a, ha, hm⟩ := containsAny_iff.mp h
  exact containsAny_iff.mpr ⟨a, ha, hl hm⟩

/-! ## Formats -/

/-- A value is added to a list of values of the payload. -/
inductive ClaimFormatPayload.AddsValue : ClaimFormatPayload → ClaimFormatPayload → Prop
  | alg (h : Adds xs ys) : AddsValue (alg xs) (alg ys)
  | algValuesSupported (h : Adds xs ys) : AddsValue (algValuesSupported xs) (algValuesSupported ys)
  | proofType (h : Adds xs ys) : AddsValue (proofType xs) (proofType ys)
  | sdJwtAlg (h : Adds xs ys) : AddsValue (sdJwtAlgValues xs kb) (sdJwtAlgValues ys kb)
  | kbJwtAlg (h : Adds xs ys) : AddsValue (sdJwtAlgValues sd xs) (sdJwtAlgValues sd ys)

namespace ClaimFormatPayload
variable {p p' q : ClaimFormatPayload}

/-- What two payloads have in common does not depend on whose they are. -/
theorem contains_comm (p q : ClaimFormatPayload) : p.contains q = q.contains p := by
  cases p <;> cases q <;> simp only [contains, containsAny_comm]
  exact Value.same_comm _ _

theorem AddsValue.contains_left (h : p.AddsValue p') (hc : p.contains q = true) :
    p'.contains q = true := by
  cases h with
  | alg h | algValuesSupported h | proofType h =>
    cases q <;> first | exact containsAny_mono h.subset hc | exact nomatch hc
  | sdJwtAlg h =>
    cases q with
    | sdJwtAlgValues =>
      obtain ⟨hs, hk⟩ := Bool.and_eq_true_iff.mp hc
      exact Bool.and_eq_true_iff.mpr ⟨containsAny_mono h.subset hs, hk⟩
    | _ => exact nomatch hc
  | kbJwtAlg h =>
    cases q with
    | sdJwtAlgValues =>
      obtain ⟨hs, hk⟩ := Bool.and_eq_true_iff.mp hc
      exact Bool.and_eq_true_iff.mpr ⟨hs, containsAny_mono h.subset hk⟩
    | _ => exact nomatch hc

theorem AddsValue.contains_right (h : p.AddsValue p') (hc : q.contains p = true) :
    q.contains p' = true := by
  rw [contains_comm] at hc ⊢
  exact h.contains_left hc

end ClaimFormatPayload

/-- A new format, or a value of a format that is there. -/
inductive ClaimFormatMap.AddsFormat (m : ClaimFormatMap) : ClaimFormatMap → Prop
  | format (d : ClaimFormatDesignation) (p : ClaimFormatPayload) (h : m.containsKey d = false) :
    AddsFormat m (m.insert d p)
  | value (hd : m.get? d = some p) (h : p.AddsValue p') : AddsFormat m (m.insert d p')

namespace ClaimFormatMap
variable {m m' : ClaimFormatMap}

@[simp] theorem get?_insert_self (m : ClaimFormatMap) (d : ClaimFormatDesignation)
    (p : ClaimFormatPayload) : (m.insert d p).get? d = some p :=
  Members.lookup_insert_self d p m.entries

theorem get?_insert_of_ne {d d' : ClaimFormatDesignation} (h : d' ≠ d) (m : ClaimFormatMap)
    (p : ClaimFormatPayload) : (m.insert d p).get? d' = m.get? d' :=
  Members.lookup_insert_of_ne h p m.entries

/-- Every format is still there, with its payload or with one that has a value more. -/
theorem AddsFormat.get? (h : m.AddsFormat m') {d : ClaimFormatDesignation}
    {p : ClaimFormatPayload} (hd : m.get? d = some p) :
    ∃ p', m'.get? d = some p' ∧ (p' = p ∨ p.AddsValue p') := by
  cases h with
  | format d' p' hn =>
    have hne : d ≠ d' := by
      rintro rfl
      rw [containsKey, hd] at hn
      exact nomatch hn
    exact ⟨p, (get?_insert_of_ne hne m p').trans hd, .inl rfl⟩
  | @value d' q q' hq ha =>
    by_cases hdd : d = d'
    · subst hdd
      obtain rfl : q = p := Option.some.inj (hq.symm.trans hd)
      exact ⟨q', get?_insert_self m d q', .inr ha⟩
    · exact ⟨p, (get?_insert_of_ne hdd m q').trans hd, .inl rfl⟩

end ClaimFormatMap

/-! ## What is negotiated -/

/-- A format of the verifier is supported with something in common. -/
def Overlap (fs supported : ClaimFormatMap) : Prop :=
  ∃ d p q, fs.get? d = some p ∧ supported.get? d = some q ∧ q.contains p = true

/-- What a wallet can do. -/
structure Capabilities where
  clientIdPrefixes : List ClientIdPrefix
  responseTypes : List ResponseType
  subjectSyntaxTypes : List String
  vpFormats : ClaimFormatMap

/-- What a verifier asks for, and what it can do itself. -/
structure Offer where
  clientIdPrefix : ClientIdPrefix
  responseType : ResponseType
  subjectSyntaxTypes : Option (List String)
  vpFormats : Option ClaimFormatMap

/-- What the wallet can do meets what the verifier offers. -/
structure Accepts (c : Capabilities) (o : Offer) : Prop where
  clientIdPrefix : o.clientIdPrefix ∈ c.clientIdPrefixes
  responseType : o.responseType ∈ c.responseTypes
  subjectSyntaxTypes : o.responseType = .vpTokenIdToken →
    ∃ ts, o.subjectSyntaxTypes = some ts ∧ ts ⊆ c.subjectSyntaxTypes
  vpFormats : ∀ fs, o.vpFormats = some fs → Overlap fs c.vpFormats

/-- An element is added to one of the lists of the wallet. -/
inductive Capabilities.Adds (c : Capabilities) : Capabilities → Prop
  | clientIdPrefix (h : OpenID4VP.Adds c.clientIdPrefixes ps) :
    Adds c { c with clientIdPrefixes := ps }
  | responseType (h : OpenID4VP.Adds c.responseTypes ts) : Adds c { c with responseTypes := ts }
  | subjectSyntaxType (h : OpenID4VP.Adds c.subjectSyntaxTypes ts) :
    Adds c { c with subjectSyntaxTypes := ts }
  | vpFormat (h : c.vpFormats.AddsFormat fs) : Adds c { c with vpFormats := fs }

/-- An element is added to one of the lists of a verifier that talks to a wallet with these
capabilities. A subject syntax type has to be one of the wallet's where an id token is asked for. -/
inductive Offer.Adds (c : Capabilities) (o : Offer) : Offer → Prop
  | vpFormat (hf : o.vpFormats = some fs) (h : fs.AddsFormat fs') :
    Adds c o { o with vpFormats := some fs' }
  | subjectSyntaxType (ht : o.subjectSyntaxTypes = some ts) (h : AddsElement t ts ts')
    (hc : o.responseType = .vpTokenIdToken → t ∈ c.subjectSyntaxTypes) :
    Adds c o { o with subjectSyntaxTypes := some ts' }

theorem Accepts.capabilities_mono {c c' : Capabilities} {o : Offer} (h : Accepts c o)
    (ha : c.Adds c') : Accepts c' o := by
  obtain ⟨hp, ht, hs, hf⟩ := h
  cases ha with
  | clientIdPrefix ha => exact ⟨ha.subset hp, ht, hs, hf⟩
  | responseType ha => exact ⟨hp, ha.subset ht, hs, hf⟩
  | subjectSyntaxType ha =>
    refine ⟨hp, ht, fun hr => ?_, hf⟩
    obtain ⟨ts, hts, hsub⟩ := hs hr
    exact ⟨ts, hts, List.Subset.trans hsub ha.subset⟩
  | vpFormat ha =>
    refine ⟨hp, ht, hs, fun fs hfs => ?_⟩
    obtain ⟨d, p, q, hd, hq, hc⟩ := hf fs hfs
    obtain ⟨q', hq', rfl | hv⟩ := ha.get? hq
    · exact ⟨d, p, q', hd, hq', hc⟩
    · exact ⟨d, p, q', hd, hq', hv.contains_left hc⟩

theorem Accepts.offer_mono {c : Capabilities} {o o' : Offer} (h : Accepts c o)
    (ha : o.Adds c o') : Accepts c o' := by
  obtain ⟨hp, ht, hs, hf⟩ := h
  cases ha with
  | subjectSyntaxType hts ha hc =>
    refine ⟨hp, ht, fun hr => ⟨_, rfl, fun t hm => ?_⟩, hf⟩
    obtain ⟨ts, hts', hsub⟩ := hs hr
    obtain rfl := Option.some.inj (hts.symm.trans hts')
    rcases ha.mem hm with rfl | hm
    · exact hc hr
    · exact hsub hm
  | vpFormat hfs ha =>
    refine ⟨hp, ht, hs, fun fs' hfs' => ?_⟩
    obtain rfl := Option.some.inj hfs'
    obtain ⟨d, p, q, hd, hq, hc⟩ := hf _ hfs
    obtain ⟨p', hp', rfl | hv⟩ := ha.get? hd
    · exact ⟨d, p', q, hp', hq, hc⟩
    · exact ⟨d, p', q, hp', hq, hv.contains_right hc⟩

/-! ## What metadata and requests say -/

section
variable [SerdeJson] [SerdeJsonPath] [JsonSchema] [UrlCrate]

/-- The capabilities the wallet is asked for: the prefixes of the object, the rest of the fields. -/
def WalletMetadata.capabilities (m : WalletMetadata) : Except Anyhow Capabilities := do
  let supported ← m.objectPrefixes
  return {
    clientIdPrefixes := supported.values
    responseTypes := m.responseTypesSupported.values
    subjectSyntaxTypes := m.subjectSyntaxTypesSupported.values
    vpFormats := m.vpFormatsSupported.formats }

/-- What a request offers. Formats that cannot be read count as not offered. -/
def AuthorizationRequestObject.offer (r : AuthorizationRequestObject) : Except Anyhow Offer := do
  let metadata ← ClientMetadata.resolve r.inner
  return {
    clientIdPrefix := r.clientId.idPrefix
    responseType := ← parsingError (r.inner.get ResponseType)
    subjectSyntaxTypes := (parsingError
      (metadata.object.get SubjectSyntaxTypesSupported)).toOption.map (·.values)
    vpFormats := (parsingError
      (metadata.object.get VpFormatsSupported)).toOption.map (·.formats) }

omit [SerdeJson] [SerdeJsonPath] [JsonSchema] [UrlCrate] in
theorem requireParameter_eq_ok_iff {description context : String} {state : Option String}
    {x : Option (Except Anyhow α)} {a : α} :
    requireParameter description state context x = .ok a ↔ x = some (.ok a) := by
  cases x with
  | none => exact iff_of_false Except.throw_ne_ok nofun
  | some x => simp [requireParameter]

omit [SerdeJson] [SerdeJsonPath] [JsonSchema] [UrlCrate] in
theorem containsClaimFormatWithPayload_iff {v : VpFormatsSupported} {d : ClaimFormatDesignation}
    {p : ClaimFormatPayload} :
    v.containsClaimFormatWithPayload d p = true ↔
      ∃ q, v.formats.get? d = some q ∧ q.contains p = true := by
  unfold VpFormatsSupported.containsClaimFormatWithPayload
  cases v.formats.get? d <;> simp

omit [SerdeJson] [SerdeJsonPath] [JsonSchema] [UrlCrate] in
theorem any_containsClaimFormatWithPayload_iff {fs : ClaimFormatMap} {v : VpFormatsSupported} :
    (fs.entries.any fun (d, p) => v.containsClaimFormatWithPayload d p) = true ↔
      Overlap fs v.formats := by
  rw [List.any_eq_true]
  constructor
  · rintro ⟨⟨d, p⟩, hm, h⟩
    obtain ⟨q, hq, hc⟩ := containsClaimFormatWithPayload_iff.mp h
    exact ⟨d, p, q, (Members.lookup_eq_some_iff fs.nodup).mpr hm, hq, hc⟩
  · rintro ⟨d, p, q, hp, hq, hc⟩
    exact ⟨(d, p), Members.mem_of_lookup_eq_some hp,
      containsClaimFormatWithPayload_iff.mpr ⟨q, hq, hc⟩⟩

omit [SerdeJsonPath] [JsonSchema] in
/-- The formats are refused only when they are offered and have nothing in common. -/
theorem validateVpFormatsSupported_eq_ok_iff {metadata : ClientMetadata} {m : WalletMetadata}
    {state : Option String} :
    validateVpFormatsSupported metadata m state = .ok () ↔
      ∀ fs, (parsingError (metadata.object.get VpFormatsSupported)).toOption.map (·.formats) =
        some fs → Overlap fs m.vpFormatsSupported.formats := by
  rw [validateVpFormatsSupported]
  cases parsingError (metadata.object.get VpFormatsSupported) with
  | error e => exact iff_of_true rfl nofun
  | ok v =>
    simp only [Except.toOption, Option.map_some, Option.some.injEq, forall_eq',
      ← any_containsClaimFormatWithPayload_iff]
    split
    · next he =>
      refine iff_of_false Except.throw_ne_ok ?_
      rw [ClaimFormatMap.eq_empty_of_isEmpty he]
      exact Bool.false_ne_true
    split
    · next ha => exact iff_of_true rfl ha
    · next ha => exact iff_of_false Except.throw_ne_ok ha

theorem requireSubjectSyntaxTypes_eq_ok_iff {r : AuthorizationRequestObject}
    {ts : SubjectSyntaxTypesSupported} :
    requireSubjectSyntaxTypes r = .ok ts ↔ ∃ metadata : ClientMetadata,
      r.inner.get ClientMetadata = some (.ok metadata) ∧
      metadata.object.get SubjectSyntaxTypesSupported = some (.ok ts) := by
  simp only [requireSubjectSyntaxTypes, Except.bind_eq_ok_iff, requireParameter_eq_ok_iff]

theorem validateSubjectSyntaxTypes_eq_ok_iff {r : AuthorizationRequestObject}
    {m : WalletMetadata} :
    validateSubjectSyntaxTypes r m = .ok () ↔ ∃ ts, requireSubjectSyntaxTypes r = .ok ts ∧
      ts.values ⊆ m.subjectSyntaxTypesSupported.values := by
  rw [validateSubjectSyntaxTypes, Except.bind_eq_ok_iff]
  refine exists_congr fun ts => and_congr_right fun _ => ?_
  split
  · next t ht =>
    refine iff_of_false Except.throw_ne_ok fun hsub => ?_
    have hc := List.find?_some ht
    rw [List.contains_iff_mem.mpr (hsub (List.mem_of_find?_eq_some ht))] at hc
    cases hc
  · next hn =>
    refine iff_of_true rfl fun t ht => ?_
    have hc := List.find?_eq_none.mp hn t ht
    simpa using hc

theorem validateResponseType_eq_ok_iff {r : AuthorizationRequestObject} {m : WalletMetadata} :
    validateResponseType r m = .ok () ↔ ∃ t, r.inner.get ResponseType = some (.ok t) ∧
      t ∈ m.responseTypesSupported.values ∧
      (t = .vpTokenIdToken → validateSubjectSyntaxTypes r m = .ok ()) := by
  simp only [validateResponseType, Except.bind_eq_ok_iff, requireParameter_eq_ok_iff,
    ensure_eq_ok_iff, List.contains_iff_mem]
  constructor
  · rintro ⟨t, ht, _, hm, h⟩
    refine ⟨t, ht, hm, fun hi => ?_⟩
    rwa [if_pos hi] at h
  · rintro ⟨t, ht, hm, h⟩
    refine ⟨t, ht, (), hm, ?_⟩
    split
    · next hi => exact h hi
    · rfl

omit [SerdeJson] [SerdeJsonPath] [JsonSchema] [UrlCrate] in
theorem toOption_map_eq_some_iff [TypedParameter α] {x : Option (Except Anyhow α)} {f : α → β}
    {b : β} : (parsingError x).toOption.map f = some b ↔ ∃ a, x = some (.ok a) ∧ f a = b := by
  simp only [← parsingError_eq_ok_iff]
  cases parsingError x <;> simp [Except.toOption]

/-- The subject syntax types are those of the metadata that the request is resolved to. -/
theorem requireSubjectSyntaxTypes_iff_of_resolve {r : AuthorizationRequestObject}
    {metadata : ClientMetadata} {ts : SubjectSyntaxTypesSupported}
    (h : ClientMetadata.resolve r.inner = .ok metadata) :
    requireSubjectSyntaxTypes r = .ok ts ↔
      metadata.object.get SubjectSyntaxTypesSupported = some (.ok ts) := by
  rw [requireSubjectSyntaxTypes_eq_ok_iff]
  unfold ClientMetadata.resolve at h
  cases hm : r.inner.get ClientMetadata with
  | none =>
    rw [hm] at h
    obtain rfl := Except.pure_eq_ok_iff.mp h
    exact iff_of_false (fun ⟨_, h, _⟩ => nomatch h) nofun
  | some x =>
    rw [hm] at h
    obtain rfl : x = .ok metadata := h
    simp

/-- Validation decides on what the wallet can do and what the request offers. -/
theorem validateRequestAgainstMetadata_eq_ok_iff {m : WalletMetadata}
    {r : AuthorizationRequestObject} :
    validateRequestAgainstMetadata m r = .ok () ↔
      ∃ c o, m.capabilities = .ok c ∧ r.offer = .ok o ∧ Accepts c o := by
  simp only [validateRequestAgainstMetadata, Except.bind_eq_ok_iff, orInternal_eq_ok_iff,
    ensure_eq_ok_iff, List.contains_iff_mem]
  constructor
  · rintro ⟨ps, hps, _, hp, _, ht, metadata, hmd, hf⟩
    obtain ⟨t, ht, hm, hs⟩ := validateResponseType_eq_ok_iff.mp ht
    refine ⟨_, _, Except.bind_eq_ok_iff.mpr ⟨ps, hps, rfl⟩, Except.bind_eq_ok_iff.mpr
      ⟨metadata, hmd, Except.bind_eq_ok_iff.mpr ⟨t, parsingError_eq_ok_iff.mpr ht, rfl⟩⟩, hp, hm,
      fun hi => ?_, validateVpFormatsSupported_eq_ok_iff.mp hf⟩
    obtain ⟨ts, hts, hsub⟩ := validateSubjectSyntaxTypes_eq_ok_iff.mp (hs hi)
    have hg := (requireSubjectSyntaxTypes_iff_of_resolve hmd).mp hts
    exact ⟨ts.values, toOption_map_eq_some_iff.mpr ⟨ts, hg, rfl⟩, hsub⟩
  · rintro ⟨c, o, hc, ho, hp, hm, hs, hf⟩
    obtain ⟨ps, hps, hc⟩ := Except.bind_eq_ok_iff.mp hc
    obtain rfl := Except.pure_eq_ok_iff.mp hc
    obtain ⟨metadata, hmd, ho⟩ := Except.bind_eq_ok_iff.mp ho
    obtain ⟨t, ht, ho⟩ := Except.bind_eq_ok_iff.mp ho
    obtain rfl := Except.pure_eq_ok_iff.mp ho
    refine ⟨ps, hps, (), hp, (), validateResponseType_eq_ok_iff.mpr
      ⟨t, parsingError_eq_ok_iff.mp ht, hm, fun hi => ?_⟩, metadata, hmd,
      validateVpFormatsSupported_eq_ok_iff.mpr hf⟩
    obtain ⟨_, hts, hsub⟩ := hs hi
    obtain ⟨ts, hg, rfl⟩ := toOption_map_eq_some_iff.mp hts
    exact validateSubjectSyntaxTypes_eq_ok_iff.mpr
      ⟨ts, (requireSubjectSyntaxTypes_iff_of_resolve hmd).mpr hg, hsub⟩

/-! ## Additions -/

/-- One of the two parties adds an element to one of the lists it advertises. -/
inductive Addition : WalletMetadata × AuthorizationRequestObject →
    WalletMetadata × AuthorizationRequestObject → Prop
  | wallet (h : m.capabilities = .ok c) (h' : m'.capabilities = .ok c') (ha : c.Adds c') :
    Addition (m, r) (m', r)
  | verifier (hc : m.capabilities = .ok c) (h : r.offer = .ok o) (h' : r'.offer = .ok o')
    (ha : o.Adds c o') : Addition (m, r) (m, r')

theorem Addition.validate {x y : WalletMetadata × AuthorizationRequestObject} (ha : Addition x y)
    (h : validateRequestAgainstMetadata x.1 x.2 = .ok ()) :
    validateRequestAgainstMetadata y.1 y.2 = .ok () := by
  obtain ⟨c, o, hc, ho, h⟩ := validateRequestAgainstMetadata_eq_ok_iff.mp h
  cases ha with
  | wallet h1 h2 ha =>
    obtain rfl := Except.ok.inj (h1.symm.trans hc)
    exact validateRequestAgainstMetadata_eq_ok_iff.mpr ⟨_, o, h2, ho, h.capabilities_mono ha⟩
  | verifier h0 h1 h2 ha =>
    obtain rfl := Except.ok.inj (h0.symm.trans hc)
    obtain rfl := Except.ok.inj (h1.symm.trans ho)
    exact validateRequestAgainstMetadata_eq_ok_iff.mpr ⟨_, _, hc, h2, h.offer_mono ha⟩

/-- No additions turn an acceptance into a rejection. -/
theorem validate_of_additions {x y : WalletMetadata × AuthorizationRequestObject}
    (ha : Relation.ReflTransGen Addition x y)
    (h : validateRequestAgainstMetadata x.1 x.2 = .ok ()) :
    validateRequestAgainstMetadata y.1 y.2 = .ok () := by
  induction ha with
  | refl => exact h
  | tail _ ha ih => exact ha.validate ih

end

/-! ## A verifier with more subject syntax types, a wallet with more algorithms -/

namespace Sample
open scoped Reference

/-- A request with this response type, and with a parameter in the metadata of the verifier. -/
def offerRequest (responseType : ResponseType) (k : String) (x : Json) :
    AuthorizationRequestObject where
  inner := .ofMembers [("client_metadata", .object [(k, x)]),
    ("response_type", .string responseType.toString)]
  clientId := ⟨"verifier.example", .x509SanDns⟩
  responseMode := .directPost
  responseType := responseType
  presentationQuery := .presentationDefinition (.byReference definitionUri)
  returnUri := some responseUri
  nonce := ⟨"n"⟩
  clientMetadata := ⟨.ofMembers [(k, x)]⟩
  expectedOrigins := none

def idTokenRequest (types : List String) : AuthorizationRequestObject :=
  offerRequest .vpTokenIdToken "subject_syntax_types_supported" (toTree types)

/-- The algorithms of a document, as numbers that stand for them. -/
def mdocAlgs (algs : List Json) : Json := .object [("issuerauth_alg_values", .array algs)]

def mdocRequest (algs : List Json) : AuthorizationRequestObject :=
  offerRequest .vpToken "vp_formats_supported" (.object [("mso_mdoc", mdocAlgs algs)])

/-- A wallet that asks for no subject syntax types but the default ones. -/
def mdocMetadata : WalletMetadata where
  object := .ofMembers [("client_id_prefixes_supported", .array [.string "x509_san_dns"])]
  authorizationEndpoint := walletEndpoint
  vpFormatsSupported := ⟨ClaimFormatMap.empty.insert .msoMDoc
    (.json ⟨mdocAlgs [.number (.negInt 6)], rfl⟩)⟩
  responseTypesSupported := ⟨[.vpToken, .vpTokenIdToken]⟩
  clientIdPrefixesSupported := .default
  requestObjectSigningAlgValuesSupported := .default
  scopesSupported := .default
  subjectSyntaxTypesSupported := .default
  idTokenTypesSupported := .default
  idTokenSigningAlgValuesSupported := .default

/-- The wallet with a response type more. -/
def mdocMetadataAnd (t : ResponseType) : WalletMetadata :=
  { mdocMetadata with responseTypesSupported := ⟨[.vpToken, .vpTokenIdToken, t]⟩ }

theorem addition_mdocMetadata (t : ResponseType) (r : AuthorizationRequestObject) :
    Addition (mdocMetadata, r) (mdocMetadataAnd t, r) :=
  .wallet rfl rfl (.responseType ⟨t, [.vpToken, .vpTokenIdToken], [], rfl, rfl⟩)

theorem validate_of_additions_mdocRequest :
    validateRequestAgainstMetadata (mdocMetadataAnd (.unsupported "code"))
      (mdocRequest [.number (.negInt 6)]) = .ok () :=
  validate_of_additions (.single (addition_mdocMetadata _ _)) rfl

/-- A subject syntax type more, or an algorithm more in a payload that is compared as a whole, and
the request is refused. -/
theorem not_monotone :
    (validateRequestAgainstMetadata mdocMetadata (idTokenRequest ["did:key"]) = .ok () ∧
      validateRequestAgainstMetadata mdocMetadata (idTokenRequest ["did:key", "did:web"]) ≠
        .ok ()) ∧
    (validateRequestAgainstMetadata mdocMetadata (mdocRequest [.number (.negInt 6)]) = .ok () ∧
      validateRequestAgainstMetadata mdocMetadata
        (mdocRequest [.number (.negInt 6), .number (.negInt 7)]) ≠ .ok ()) := by
  exact ⟨⟨rfl, nofun⟩, rfl, nofun⟩

end Sample
end OpenID4VP
