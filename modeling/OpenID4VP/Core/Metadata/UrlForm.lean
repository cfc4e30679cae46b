import OpenID4VP.Core.Metadata.RoundTrip

/-! # Wallet metadata in URLs

Metadata in a URL is a form: every member of the object that is published, with its value as JSON
text. The members go through hash maps, so that the form may have them in any order. -/

namespace OpenID4VP

/-- An order in which hash maps are iterated. -/
structure HashOrder where
  iter : List (String × String) → List (String × String)
  perm : ∀ entries, (iter entries).Perm entries

section
variable [SerdeJson] [UrlCrate] [FormUrlencoded]

def urlEncodeWalletMetadata (order : HashOrder) (metadata : WalletMetadata) :
    Except Anyhow String :=
  match toTree metadata with
  | .object map =>
    let flatMap := map.map fun e => (e.1, SerdeJson.print e.2)
    return FormUrlencoded.toString (order.iter flatMap)
  | _ => throw (.msg "failed to serialize wallet metadata: Expected an object")

/-- The value in a text. A text that is not JSON stands for itself. -/
def readText (v : String) : Json :=
  match SerdeJson.parse v with
  | some x => x.toValue
  | none => .string v

/-- The object in a form. Of the pairs with one name the last one counts. -/
def jsonMap (order : HashOrder) (metadata : String) : UntypedObject :=
  let flatMap := Members.collect (FormUrlencoded.parse metadata)
  .ofMembers ((order.iter flatMap).map fun e => (e.1, readText e.2))

def urlDecodeWalletMetadata (order : HashOrder) (metadata : String) :
    Except Anyhow WalletMetadata :=
  match WalletMetadata.tryFrom (jsonMap order metadata) with
  | .ok m => return m
  | .error e => throw (.msg ("failed to decode wallet metadata: " ++ e.toString))

/-! ## Texts and members -/

omit [UrlCrate] [FormUrlencoded] in
theorem readText_print {x : Json} (h : x.wellFormed = true) : readText (SerdeJson.print x) = x := by
  rw [readText, SerdeJson.parse_print]
  exact Json.toValue_of_wellFormed h

omit [SerdeJson] [UrlCrate] [FormUrlencoded] in
theorem HashOrder.nodup_keys (order : HashOrder) {entries : List (String × String)}
    (h : (Members.keys entries).Nodup) : (Members.keys (order.iter entries)).Nodup :=
  ((order.perm entries).map Prod.fst).nodup_iff.mpr h

/-- The entries of an object as texts. -/
def texts (o : UntypedObject) : List (String × String) :=
  o.entries.map fun e => (e.1, SerdeJson.print e.2)

omit [UrlCrate] [FormUrlencoded] in
theorem nodup_keys_texts (o : UntypedObject) : (Members.keys (texts o)).Nodup := by
  have hk : Members.keys (texts o) = Members.keys o.entries := by
    simp only [texts, Members.keys, List.map_map]
    rfl
  rw [hk]
  exact o.nodup_keys

omit [UrlCrate] [FormUrlencoded] in
/-- The object that is read from the texts of another one, in whatever order, has its members. -/
theorem get?_ofMembers_texts (o : UntypedObject) {entries : List (String × String)}
    (h : entries.Perm (texts o)) (k : String) :
    (JsonMap.ofMembers (entries.map fun e => (e.1, readText e.2))).get? k = o.get? k := by
  have hp : (entries.map fun e => (e.1, readText e.2)).Perm o.entries := by
    have hb : (texts o).map (fun e => (e.1, readText e.2)) = o.entries := by
      rw [texts, List.map_map]
      refine (List.map_congr_left fun e he => ?_).trans o.entries.map_id
      have hw := (Json.wellFormed_object.mp o.wf).2 e he
      exact Prod.ext rfl (readText_print hw)
    exact hb ▸ h.map _
  have hn : (Members.keys (entries.map fun e => (e.1, readText e.2))).Nodup :=
    (hp.map Prod.fst).nodup_iff.mpr o.nodup_keys
  have hl : (entries.map fun e => (e.1, readText e.2)).lookup k = o.get? k :=
    Members.lookup_perm hp hn k
  rw [JsonMap.get?_ofMembers hn, hl]
  cases hk : o.get? k with
  | none => rfl
  | some x =>
    have hw := (Json.wellFormed_object.mp o.wf).2 _ (Members.mem_of_lookup_eq_some hk)
    exact congrArg some (Json.toValue_of_wellFormed hw)

namespace WalletMetadata

omit [SerdeJson] [FormUrlencoded] in
theorem get?_intoUntyped (m : WalletMetadata) (k : String) :
    m.intoUntyped.get? k =
      if k = "vp_formats_supported" then
        some (TypedParameter.intoJson m.vpFormatsSupported).toValue
      else if k = "authorization_endpoint" then
        some (TypedParameter.intoJson m.authorizationEndpoint).toValue
      else m.object.get? k := by
  split
  · next hk =>
    subst hk
    exact JsonMap.get?_insert_self _ _ _
  · next hk =>
    rw [intoUntyped, UntypedObject.get?_insertParam_of_ne hk]
    split
    · next hk =>
      subst hk
      exact JsonMap.get?_insert_self _ _ _
    · next hk => exact UntypedObject.get?_insertParam_of_ne hk _ _

/-- The metadata is the same, but for the order of the members of its object and the writing of
those that are kept apart. -/
structure SameAs (m m' : WalletMetadata) : Prop where
  published : ∀ k, m'.intoUntyped.get? k = m.intoUntyped.get? k
  accessors : m' = { m with object := m'.object }
  authorizationEndpoint : m'.object.get AuthorizationEndpoint = m.object.get AuthorizationEndpoint
  vpFormatsSupported : m'.object.get VpFormatsSupported = m.object.get VpFormatsSupported
  others : ∀ k, k ≠ "authorization_endpoint" → k ≠ "vp_formats_supported" →
    m'.object.get? k = m.object.get? k

variable {value o : UntypedObject} {m : WalletMetadata}

omit [SerdeJson] [FormUrlencoded] in
/-- Metadata that was read can be read again from what is published of it. -/
theorem ReadFrom.of_published (h : ReadFrom value m) (ho : ∀ k, o.get? k = m.intoUntyped.get? k)
    (hc : m.vpFormatsSupported.formats.Canonical) :
    tryFrom o = .ok { m with object := o } ∧ m.SameAs { m with object := o } := by
  obtain ⟨hobj, he, hf, ht, hp, hr, hs, hx, hi, hg⟩ := h
  subst hobj
  have get_eq (α : Type) [TypedParameter α] : o.get α = m.intoUntyped.get α := by
    rw [UntypedObject.get, ho, UntypedObject.get]
  have he' : o.get AuthorizationEndpoint = some (.ok m.authorizationEndpoint) :=
    (get_eq _).trans m.get_authorizationEndpoint_intoUntyped
  have hf' : o.get VpFormatsSupported = some (.ok m.vpFormatsSupported) := by
    rw [get_eq, get_vpFormatsSupported_intoUntyped, VpFormatsSupported.tryFrom_intoJson hc]
  have param {α : Type} [TypedParameter α] (h1 : TypedParameter.key α ≠ "authorization_endpoint")
      (h2 : TypedParameter.key α ≠ "vp_formats_supported") : o.get α = m.object.get α :=
    (get_eq α).trans (get_intoUntyped h1 h2 m)
  have default {α : Type} [TypedParameter α] (h1 : TypedParameter.key α ≠ "authorization_endpoint")
      (h2 : TypedParameter.key α ≠ "vp_formats_supported") (d : α) :
      readOrDefault m.object d = readOrDefault o d := by
    rw [readOrDefault, readOrDefault, param h1 h2]
  have others (k : String) (h1 : k ≠ "authorization_endpoint") (h2 : k ≠ "vp_formats_supported") :
      o.get? k = m.object.get? k := by
    rw [ho, get?_intoUntyped, if_neg h2, if_neg h1]
  refine ⟨tryFrom_eq_ok_iff.mpr ?_, ?_⟩
  · exact {
      object := rfl
      authorizationEndpoint := he'
      vpFormatsSupported := hf'
      responseTypesSupported :=
        (param (by simp [TypedParameter.key]) (by simp [TypedParameter.key])).trans ht
      clientIdPrefixesSupported :=
        hp.trans (default (by simp [TypedParameter.key]) (by simp [TypedParameter.key]) _)
      requestObjectSigningAlgValuesSupported :=
        hr.trans (default (by simp [TypedParameter.key]) (by simp [TypedParameter.key]) _)
      scopesSupported :=
        hs.trans (default (by simp [TypedParameter.key]) (by simp [TypedParameter.key]) _)
      subjectSyntaxTypesSupported :=
        hx.trans (default (by simp [TypedParameter.key]) (by simp [TypedParameter.key]) _)
      idTokenTypesSupported :=
        hi.trans (default (by simp [TypedParameter.key]) (by simp [TypedParameter.key]) _)
      idTokenSigningAlgValuesSupported :=
        hg.trans (default (by simp [TypedParameter.key]) (by simp [TypedParameter.key]) _) }
  · refine { published := fun k => ?_, accessors := rfl, authorizationEndpoint := he'.trans he.symm,
             vpFormatsSupported := hf'.trans hf.symm, others := others }
    rw [get?_intoUntyped, get?_intoUntyped]
    split
    · rfl
    split
    · rfl
    · next h2 h1 => exact others k h1 h2

end WalletMetadata

/-- The metadata in a URL is that of the wallet, whatever members it has. -/
theorem urlDecodeWalletMetadata_urlEncodeWalletMetadata {value : UntypedObject}
    {m : WalletMetadata} (h : WalletMetadata.tryFrom value = .ok m) (order order' : HashOrder) :
    ∃ text m', urlEncodeWalletMetadata order m = .ok text ∧
      urlDecodeWalletMetadata order' text = .ok m' ∧ m.SameAs m' := by
  have hr := WalletMetadata.tryFrom_eq_ok_iff.mp h
  have hc : m.vpFormatsSupported.formats.Canonical := by
    obtain ⟨x, hx, hv⟩ := UntypedObject.get_eq_some_iff.mp hr.vpFormatsSupported
    obtain ⟨fs, hfs, hm⟩ := TypedParameter.via_tryFrom_eq_ok_iff.mp hv
    have hw := (Json.wellFormed_object.mp value.wf).2 _ (Members.mem_of_lookup_eq_some hx)
    exact hm ▸ ClaimFormatMap.canonical_of_fromTree hw hfs
  let flatMap := order.iter (texts m.intoUntyped)
  have ho : ∀ k, (jsonMap order' (FormUrlencoded.toString flatMap)).get? k =
      m.intoUntyped.get? k := by
    have hn : (Members.keys flatMap).Nodup := order.nodup_keys (nodup_keys_texts _)
    rw [jsonMap, FormUrlencoded.parse_toString, Members.collect_of_nodup hn]
    exact get?_ofMembers_texts _ ((order'.perm _).trans (order.perm _))
  obtain ⟨hd, hs⟩ := hr.of_published ho hc
  refine ⟨FormUrlencoded.toString flatMap, _, rfl, ?_, hs⟩
  rw [urlDecodeWalletMetadata, hd]
  rfl

end

/-! ## Metadata with a member of its own -/

namespace Sample
open scoped Reference

/-- The object of a wallet, with a string that could be a number. -/
def versionedObject : UntypedObject where
  entries := [("authorization_endpoint", .string "openid4vp:"),
    ("response_types_supported", .array [.string "vp_token"]),
    ("vp_formats_supported", .object []), ("version", .string "1")]
  wf := rfl

def versionedMetadata : WalletMetadata where
  object := versionedObject
  authorizationEndpoint := walletEndpoint
  vpFormatsSupported := ⟨.empty⟩
  responseTypesSupported := ⟨[.vpToken]⟩
  clientIdPrefixesSupported := .default
  requestObjectSigningAlgValuesSupported := .default
  scopesSupported := .default
  subjectSyntaxTypesSupported := .default
  idTokenTypesSupported := .default
  idTokenSigningAlgValuesSupported := .default

/-- The entries from the last one to the first. -/
def backwards : HashOrder := ⟨List.reverse, List.reverse_perm⟩

theorem urlDecode_urlEncode_versionedMetadata :
    ∃ text m', urlEncodeWalletMetadata backwards versionedMetadata = .ok text ∧
      urlDecodeWalletMetadata backwards text = .ok m' ∧ versionedMetadata.SameAs m' :=
  have h : WalletMetadata.tryFrom versionedObject = .ok versionedMetadata := rfl
  urlDecodeWalletMetadata_urlEncodeWalletMetadata h backwards backwards

end Sample
end OpenID4VP
