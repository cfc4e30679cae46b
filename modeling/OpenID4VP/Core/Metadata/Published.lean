import OpenID4VP.Core.Metadata.RoundTrip

/-! # What published metadata says of a wallet

A verifier works with the metadata that a wallet has published, and the wallet with its own, which
it may have changed since it was made. What the verifier then finds supported, the wallet supports,
as long as the wallet can read its own prefixes. -/

namespace OpenID4VP
namespace WalletMetadata
variable [UrlCrate]

/-! ## Changes -/

/-- A change of the metadata: a mutator is called, or the formats are edited. -/
inductive Change
  | call (call : Call)
  | edit (edit : VpFormatsSupported → VpFormatsSupported)

/-- The metadata after a change, whether it succeeds or not. -/
def change (m : WalletMetadata) : Change → WalletMetadata
  | .call call => (call.run m).2
  | .edit edit => { m with vpFormatsSupported := edit m.vpFormatsSupported }

def afterChanges (m : WalletMetadata) (changes : List Change) : WalletMetadata :=
  changes.foldl change m

def Change.added : Change → List ClientIdPrefix
  | call c => c.added
  | edit _ => []

theorem objectPrefixes_change (m : WalletMetadata) (c : Change) :
    (m.change c).objectPrefixes = m.objectPrefixes.map fun s => s.append c.added := by
  cases c with
  | call call => exact objectPrefixes_run call m
  | edit edit => exact (ClientIdPrefixesSupported.map_append_nil _).symm

theorem objectPrefixes_afterChanges (m : WalletMetadata) (changes : List Change) :
    (m.afterChanges changes).objectPrefixes =
      m.objectPrefixes.map fun s => s.append (changes.flatMap Change.added) := by
  induction changes generalizing m with
  | nil => exact (ClientIdPrefixesSupported.map_append_nil _).symm
  | cons c changes ih =>
    refine (ih _).trans ?_
    rw [objectPrefixes_change, ClientIdPrefixesSupported.map_append_append]
    rfl

/-- The object has the response types and the subject syntax types of the fields. -/
structure InStep (m : WalletMetadata) : Prop where
  responseTypesSupported :
    m.object.get ResponseTypesSupported = some (.ok m.responseTypesSupported)
  subjectSyntaxTypesSupported : readOrDefault m.object .default = m.subjectSyntaxTypesSupported

/-- No change touches the members that are under other keys, nor their fields. -/
theorem InStep.change {m : WalletMetadata} (h : m.InStep) (c : Change) : (m.change c).InStep := by
  have hi : ∀ {α : Type} [TypedParameter α] (a : α),
      TypedParameter.key ResponseTypesSupported ≠ TypedParameter.key α →
      TypedParameter.key SubjectSyntaxTypesSupported ≠ TypedParameter.key α →
      InStep { m with object := (m.object.insertParam a).1 } := by
    intro α _ a ht hs
    refine ⟨?_, ?_⟩
    · rw [← h.responseTypesSupported]
      exact UntypedObject.get_insertParam_of_ne ht _ _
    · rw [readOrDefault, UntypedObject.get_insertParam_of_ne hs]
      exact h.subjectSyntaxTypesSupported
  cases c with
  | edit edit => exact ⟨h.responseTypesSupported, h.subjectSyntaxTypesSupported⟩
  | call call =>
    cases call with
    | addRequestObjectSigningAlg alg =>
      rw [WalletMetadata.change, Call.run, addRequestObjectSigningAlgValuesSupported]
      split
      · exact hi _ (by simp [TypedParameter.key]) (by simp [TypedParameter.key])
      · exact h
    | addClientIdPrefixes ps =>
      rw [WalletMetadata.change, Call.run, addClientIdPrefixesSupported]
      split
      · exact hi _ (by simp [TypedParameter.key]) (by simp [TypedParameter.key])
      · exact h

theorem InStep.afterChanges {m : WalletMetadata} (h : m.InStep) (changes : List Change) :
    (m.afterChanges changes).InStep := by
  induction changes generalizing m with
  | nil => exact h
  | cons c changes ih => exact ih (h.change c)

theorem ObjectComplete.inStep {m : WalletMetadata} (h : m.ObjectComplete) : m.InStep :=
  ⟨h.responseTypesSupported, h.subjectSyntaxTypesSupported⟩

/-! ## Views -/

/-- What a verifier finds supported in the metadata that it has, the wallet supports. -/
structure Represents (view m : WalletMetadata) : Prop where
  authorizationEndpoint :
    view.object.get AuthorizationEndpoint = some (.ok m.authorizationEndpoint)
  clientIdPrefixes : ∃ supported, m.objectPrefixes = .ok supported ∧
    ∀ p, view.isClientIdPrefixSupported p = true → p ∈ supported.values
  responseTypes : view.responseTypesSupported.values ⊆ m.responseTypesSupported.values
  subjectSyntaxTypes :
    view.subjectSyntaxTypesSupported.values ⊆ m.subjectSyntaxTypesSupported.values

omit [UrlCrate] in
theorem readOrDefault_of_getOrDefault [TypedParameter α] {value : UntypedObject} {a default : α}
    (h : value.getOrDefault default = .ok a) : readOrDefault value default = a := by
  rw [UntypedObject.getOrDefault_eq_get] at h
  rw [readOrDefault]
  cases hx : value.get α with
  | none =>
    rw [hx] at h
    exact Except.ok.inj h
  | some x =>
    rw [hx] at h
    obtain rfl : x = .ok a := h
    rfl

theorem InStep.represents_iff {m view : WalletMetadata} (h : m.InStep)
    (hv : tryFrom m.intoUntyped = .ok view) :
    view.Represents m ↔ ∃ supported, m.objectPrefixes = .ok supported := by
  have hr := tryFrom_eq_ok_iff.mp hv
  constructor
  · rintro ⟨-, ⟨supported, hs, -⟩, -, -⟩
    exact ⟨supported, hs⟩
  rintro ⟨supported, hs⟩
  refine ⟨?_, ⟨supported, hs, fun p hp => ?_⟩, ?_, ?_⟩
  · rw [hr.object]
    exact m.get_authorizationEndpoint_intoUntyped
  · rwa [isClientIdPrefixSupported, hr.clientIdPrefixesSupported,
      readOrDefault_intoUntyped (by simp [TypedParameter.key]) (by simp [TypedParameter.key]),
      readOrDefault_of_getOrDefault hs, List.contains_iff_mem] at hp
  · have ht := hr.responseTypesSupported
    rw [get_intoUntyped (by simp [TypedParameter.key]) (by simp [TypedParameter.key]),
      h.responseTypesSupported, Option.some_inj, Except.ok.injEq] at ht
    rw [ht]
    exact List.Subset.refl _
  · rw [hr.subjectSyntaxTypesSupported,
      readOrDefault_intoUntyped (by simp [TypedParameter.key]) (by simp [TypedParameter.key]),
      h.subjectSyntaxTypesSupported]
    exact List.Subset.refl _

/-- However a wallet changes the metadata that it has parsed, what it then publishes represents it,
unless the prefixes cannot be read. -/
theorem represents_afterChanges_iff {value : UntypedObject} {m view : WalletMetadata}
    {changes : List Change} (h : tryFrom value = .ok m)
    (hv : tryFrom (m.afterChanges changes).intoUntyped = .ok view) :
    view.Represents (m.afterChanges changes) ↔
      ∀ e, value.get ClientIdPrefixesSupported ≠ some (.error e) := by
  have hs : (Source.parsed value).metadata = .ok m := h
  have hc : m.ObjectComplete := (objectComplete_iff hs).mpr trivial
  rw [(hc.inStep.afterChanges changes).represents_iff hv, objectPrefixes_afterChanges,
    objectPrefixes, (tryFrom_eq_ok_iff.mp h).object, UntypedObject.getOrDefault_eq_get]
  cases value.get ClientIdPrefixesSupported with
  | none => exact iff_of_true ⟨_, rfl⟩ fun _ h => by cases h
  | some x =>
    cases x with
    | ok supported => exact iff_of_true ⟨_, rfl⟩ fun _ h => by cases h
    | error e =>
      refine iff_of_false ?_ fun h => h e rfl
      rintro ⟨_, h⟩
      cases h

end WalletMetadata

/-! ## A prefix that is added and published -/

namespace Sample
open scoped Reference

def parsedObject : UntypedObject :=
  .ofMembers [("authorization_endpoint", .string "openid4vp:"),
    ("response_types_supported", .array [.string "vp_token"]), ("vp_formats_supported", .object [])]

theorem represents_afterChanges_iff_parsedObject : ∃ m view : WalletMetadata,
    view.isClientIdPrefixSupported .x509Hash = true ∧
    (view.Represents (m.afterChanges [.call (.addClientIdPrefixes [.x509Hash])]) ↔
      ∀ e, parsedObject.get ClientIdPrefixesSupported ≠ some (.error e)) :=
  ⟨_, _, rfl, WalletMetadata.represents_afterChanges_iff rfl rfl⟩

end Sample
end OpenID4VP
