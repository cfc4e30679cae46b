import OpenID4VP.Core.Metadata.Prefixes

/-! # Wallet metadata as objects

Metadata is published as an object and read back by the other party. The writer puts the endpoint
and the formats of the fields into the object; what it has of other parameters is what the object
was made with. -/

namespace OpenID4VP

namespace VpFormatsSupported

/-- Canonical formats are read back. -/
theorem tryFrom_intoJson {v : VpFormatsSupported} (h : v.formats.Canonical) :
    TypedParameter.tryFrom (TypedParameter.intoJson v).toValue = .ok v := by
  obtain ⟨m⟩ := v
  have ht : (toTree m).toValue = toTree m := Json.toValue_of_wellFormed h.wellFormed_toTree
  change TypedParameter.tryFrom (toTree m).toValue = _
  rw [ht]
  exact TypedParameter.via_tryFrom_eq_ok_iff.mpr ⟨m, h.fromTree_toTree, rfl⟩

/-- The formats are read back as the same map exactly when they are canonical. -/
theorem tryFrom_intoJson_iff {v : VpFormatsSupported} :
    (∃ v' : VpFormatsSupported,
      TypedParameter.tryFrom (TypedParameter.intoJson v).toValue = .ok v' ∧
      ∀ d, v'.formats.get? d = v.formats.get? d) ↔ v.formats.Canonical := by
  obtain ⟨m⟩ := v
  change (∃ v', TypedParameter.tryFrom (toTree m).toValue = .ok v' ∧ _) ↔ _
  constructor
  · rintro ⟨v', hv, h⟩ ⟨d, p⟩ hm
    obtain ⟨m', hr, rfl⟩ := TypedParameter.via_tryFrom_eq_ok_iff.mp hv
    have hg : m'.get? d = some p := (h d).trans ((Members.lookup_eq_some_iff m.nodup).mpr hm)
    have hc := ClaimFormatMap.canonical_of_fromTree (Json.toValue_wellFormed _) hr
    exact hc (d, p) (Members.mem_of_lookup_eq_some hg)
  · intro hc
    exact ⟨⟨m⟩, tryFrom_intoJson hc, fun _ => rfl⟩

end VpFormatsSupported

namespace WalletMetadata
variable [UrlCrate]

/-! ## The object that is published -/

theorem get_authorizationEndpoint_intoUntyped (m : WalletMetadata) :
    m.intoUntyped.get AuthorizationEndpoint = some (.ok m.authorizationEndpoint) := by
  rw [intoUntyped, UntypedObject.get_insertParam_of_ne (by simp [TypedParameter.key]),
    UntypedObject.get_insertParam_self, Option.some_inj]
  exact TypedParameter.via_tryFrom_eq_ok_iff.mpr
    ⟨_, LawfulSerde.fromTree_toTree m.authorizationEndpoint.url, rfl⟩

theorem get_vpFormatsSupported_intoUntyped (m : WalletMetadata) :
    m.intoUntyped.get VpFormatsSupported =
      some (TypedParameter.tryFrom (TypedParameter.intoJson m.vpFormatsSupported).toValue) :=
  UntypedObject.get_insertParam_self _ _

/-- The other parameters are those of the object. -/
theorem get_intoUntyped [TypedParameter α] (he : TypedParameter.key α ≠ "authorization_endpoint")
    (hf : TypedParameter.key α ≠ "vp_formats_supported") (m : WalletMetadata) :
    m.intoUntyped.get α = m.object.get α := by
  rw [intoUntyped, UntypedObject.get_insertParam_of_ne hf, UntypedObject.get_insertParam_of_ne he]

theorem readOrDefault_intoUntyped [TypedParameter α]
    (he : TypedParameter.key α ≠ "authorization_endpoint")
    (hf : TypedParameter.key α ≠ "vp_formats_supported") (m : WalletMetadata) (default : α) :
    readOrDefault m.intoUntyped default = readOrDefault m.object default := by
  rw [readOrDefault, get_intoUntyped he hf, readOrDefault]

/-! ## Round trips -/

/-- The metadata after its formats are edited. -/
def afterEdits (m : WalletMetadata) (edits : List (VpFormatsSupported → VpFormatsSupported)) :
    WalletMetadata :=
  edits.foldl (fun m edit => { m with vpFormatsSupported := edit m.vpFormatsSupported }) m

/-- The object that is published is read as metadata with the same parameters. -/
def SurvivesPublication (m : WalletMetadata) : Prop :=
  ∃ m', tryFrom m.intoUntyped = .ok m' ∧
    m'.authorizationEndpoint = m.authorizationEndpoint ∧
    (∀ d, m'.vpFormatsSupported.formats.get? d = m.vpFormatsSupported.formats.get? d) ∧
    m'.responseTypesSupported = m.responseTypesSupported ∧
    m'.clientIdPrefixesSupported = m.clientIdPrefixesSupported ∧
    m'.subjectSyntaxTypesSupported = m.subjectSyntaxTypesSupported

/-- The parameters that are not written back are read from the object as they are in the fields. -/
structure ObjectComplete (m : WalletMetadata) : Prop where
  responseTypesSupported :
    m.object.get ResponseTypesSupported = some (.ok m.responseTypesSupported)
  clientIdPrefixesSupported : readOrDefault m.object .default = m.clientIdPrefixesSupported
  subjectSyntaxTypesSupported : readOrDefault m.object .default = m.subjectSyntaxTypesSupported

theorem survivesPublication_iff_objectComplete {m : WalletMetadata} :
    m.SurvivesPublication ↔ m.ObjectComplete ∧ m.vpFormatsSupported.formats.Canonical := by
  have ht : m.intoUntyped.get ResponseTypesSupported = m.object.get ResponseTypesSupported :=
    get_intoUntyped (by simp [TypedParameter.key]) (by simp [TypedParameter.key]) m
  have hp : readOrDefault m.intoUntyped .default =
      (readOrDefault m.object .default : ClientIdPrefixesSupported) :=
    readOrDefault_intoUntyped (by simp [TypedParameter.key]) (by simp [TypedParameter.key]) m _
  have hs : readOrDefault m.intoUntyped .default =
      (readOrDefault m.object .default : SubjectSyntaxTypesSupported) :=
    readOrDefault_intoUntyped (by simp [TypedParameter.key]) (by simp [TypedParameter.key]) m _
  rw [← VpFormatsSupported.tryFrom_intoJson_iff]
  constructor
  · rintro ⟨m', h, -, hf, htypes, hprefixes, hsubject⟩
    have hr := tryFrom_eq_ok_iff.mp h
    refine ⟨⟨?_, ?_, ?_⟩, m'.vpFormatsSupported, ?_, hf⟩
    · rw [← ht, ← htypes]
      exact hr.responseTypesSupported
    · rw [← hp, ← hprefixes, hr.clientIdPrefixesSupported]
    · rw [← hs, ← hsubject, hr.subjectSyntaxTypesSupported]
    · exact Option.some.inj (m.get_vpFormatsSupported_intoUntyped.symm.trans hr.vpFormatsSupported)
  · rintro ⟨⟨htypes, hprefixes, hsubject⟩, v, hv, hf⟩
    let m' : WalletMetadata := {
      object := m.intoUntyped
      authorizationEndpoint := m.authorizationEndpoint
      vpFormatsSupported := v
      responseTypesSupported := m.responseTypesSupported
      clientIdPrefixesSupported := readOrDefault m.intoUntyped .default
      requestObjectSigningAlgValuesSupported := readOrDefault m.intoUntyped .default
      scopesSupported := readOrDefault m.intoUntyped .default
      subjectSyntaxTypesSupported := readOrDefault m.intoUntyped .default
      idTokenTypesSupported := readOrDefault m.intoUntyped .default
      idTokenSigningAlgValuesSupported := readOrDefault m.intoUntyped .default }
    have hr : ReadFrom m.intoUntyped m' := {
      object := rfl
      authorizationEndpoint := m.get_authorizationEndpoint_intoUntyped
      vpFormatsSupported := by rw [get_vpFormatsSupported_intoUntyped, hv]
      responseTypesSupported := ht.trans htypes
      clientIdPrefixesSupported := rfl
      requestObjectSigningAlgValuesSupported := rfl
      scopesSupported := rfl
      subjectSyntaxTypesSupported := rfl
      idTokenTypesSupported := rfl
      idTokenSigningAlgValuesSupported := rfl }
    exact ⟨m', tryFrom_eq_ok_iff.mpr hr, rfl, hf, rfl, hp.trans hprefixes, hs.trans hsubject⟩

/-- Edits of the formats change nothing else. -/
theorem afterEdits_eq (m : WalletMetadata)
    (edits : List (VpFormatsSupported → VpFormatsSupported)) :
    m.afterEdits edits =
      { m with vpFormatsSupported := edits.foldl (fun v edit => edit v) m.vpFormatsSupported } := by
  induction edits generalizing m with
  | nil => rfl
  | cons edit edits ih => exact ih _

/-- The object that metadata comes with has the parameters that are not written back: metadata that
was parsed always, new metadata when it was given them. -/
def Source.Complete : Source → Prop
  | new _ _ responseTypesSupported other =>
    let object := other.getD .empty
    object.get ResponseTypesSupported = some (.ok responseTypesSupported) ∧
    (∀ given, object.get ClientIdPrefixesSupported = some (.ok given) → given = .default) ∧
    ∀ given, object.get SubjectSyntaxTypesSupported = some (.ok given) → given = .default
  | parsed _ => True

theorem objectComplete_iff {source : Source} {m : WalletMetadata} (h : source.metadata = .ok m) :
    m.ObjectComplete ↔ source.Complete := by
  cases source with
  | new endpoint formats types other =>
    obtain rfl := Except.ok.inj h
    simp only [Source.Complete, ← readOrDefault_eq_default_iff]
    exact ⟨fun ⟨h1, h2, h3⟩ => ⟨h1, h2, h3⟩, fun ⟨h1, h2, h3⟩ => ⟨h1, h2, h3⟩⟩
  | parsed value =>
    refine iff_of_true ?_ trivial
    obtain ⟨rfl, -, -, ht, hp, -, -, hs, -, -⟩ := tryFrom_eq_ok_iff.mp h
    exact ⟨ht, hp.symm, hs.symm⟩

/-- Metadata survives publication exactly when the object it came with is complete and the formats
it has at the end are canonical. -/
theorem survivesPublication_iff {source : Source} {m : WalletMetadata}
    (h : source.metadata = .ok m) (edits : List (VpFormatsSupported → VpFormatsSupported)) :
    (m.afterEdits edits).SurvivesPublication ↔
      source.Complete ∧ (m.afterEdits edits).vpFormatsSupported.formats.Canonical := by
  have hc : (m.afterEdits edits).ObjectComplete ↔ m.ObjectComplete := by
    rw [afterEdits_eq]
    exact ⟨fun ⟨h1, h2, h3⟩ => ⟨h1, h2, h3⟩, fun ⟨h1, h2, h3⟩ => ⟨h1, h2, h3⟩⟩
  rw [survivesPublication_iff_objectComplete, hc, objectComplete_iff h]

end WalletMetadata

/-! ## Metadata that a wallet makes -/

namespace Sample
open scoped Reference

theorem survivesPublication_iff_newMetadata :
    ((WalletMetadata.new walletEndpoint ⟨.empty⟩ ⟨[.vpToken]⟩ none).afterEdits
        []).SurvivesPublication ↔
      newMetadata.Complete ∧ ClaimFormatMap.Canonical .empty :=
  @WalletMetadata.survivesPublication_iff _ newMetadata _ rfl []

/-- The response types are not published. -/
theorem not_survivesPublication_newMetadata :
    ¬(WalletMetadata.new walletEndpoint ⟨.empty⟩ ⟨[.vpToken]⟩ none).SurvivesPublication := by
  intro h
  have hc := (WalletMetadata.survivesPublication_iff_objectComplete.mp h).1
  exact nomatch hc.responseTypesSupported

end Sample
end OpenID4VP
