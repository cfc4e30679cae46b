import OpenID4VP.Core.Metadata
import OpenID4VP.Crates.Reference

/-! # The supported client id prefixes of wallet metadata

The prefixes are there twice: as a member of the object, which the wallet looks at when it
validates a request, and in a field, which a verifier looks at when it builds one. The field is
filled when the metadata is made, and the mutators change the object only. -/

namespace OpenID4VP

/-- Nothing is added to a list when all of it is there already. -/
theorem forall_mem_append_iff (xs ys : List α) :
    (∀ x, x ∈ xs ↔ x ∈ xs ++ ys) ↔ ∀ y ∈ ys, y ∈ xs := by
  simp only [List.mem_append, iff_self_or]

namespace ClientIdPrefixesSupported

theorem tryFrom_intoJson (v : ClientIdPrefixesSupported) :
    TypedParameter.tryFrom (TypedParameter.intoJson v).toValue = .ok v := by
  obtain ⟨ps⟩ := v
  have hv : (TypedParameter.intoJson (ClientIdPrefixesSupported.mk ps)).toValue =
      .array (ps.map ClientIdPrefix.intoJson) := by
    refine Json.toValue_of_wellFormed (Json.wellFormedList_iff.mpr fun x hx => ?_)
    obtain ⟨p, -, rfl⟩ := List.mem_map.mp hx
    rfl
  have hm : (ps.map ClientIdPrefix.intoJson).mapM ClientIdPrefix.tryFromJson = .ok ps := by
    have hf : ClientIdPrefix.tryFromJson ∘ ClientIdPrefix.intoJson = pure :=
      funext ClientIdPrefix.tryFrom_name
    rw [List.mapM_map, hf, List.mapM_pure, List.map_id']
    rfl
  rw [hv]
  change (mk <$> (ps.map ClientIdPrefix.intoJson).mapM ClientIdPrefix.tryFromJson) = _
  rw [hm]
  rfl

def append (s : ClientIdPrefixesSupported) (ps : List ClientIdPrefix) :
    ClientIdPrefixesSupported := ⟨s.values ++ ps⟩

theorem map_append_nil (x : Except ε ClientIdPrefixesSupported) :
    (x.map fun s => s.append []) = x := by
  cases x with
  | ok s => exact congrArg (fun ps => Except.ok (mk ps)) (List.append_nil s.values)
  | error e => rfl

theorem map_append_append (x : Except ε ClientIdPrefixesSupported) (ps qs : List ClientIdPrefix) :
    ((x.map fun s => s.append ps).map fun s => s.append qs) =
      x.map fun s => s.append (ps ++ qs) := by
  cases x with
  | ok s => exact congrArg (fun ps => Except.ok (mk ps)) (List.append_assoc s.values ps qs)
  | error e => rfl

theorem default_append_iff (ps : List ClientIdPrefix) :
    (∀ p, p ∈ default.values ↔
      p ∈ default.values ++ ps) ↔ ∀ p ∈ ps, p = .preRegistered := by
  rw [forall_mem_append_iff]
  simp only [default, List.mem_singleton]

end ClientIdPrefixesSupported

namespace WalletMetadata
variable [UrlCrate]

/-- The prefixes that the wallet looks at. -/
def objectPrefixes (m : WalletMetadata) : Except Anyhow ClientIdPrefixesSupported :=
  m.object.getOrDefault .default

/-! ## Runs -/

/-- A call of a mutator. -/
inductive Call
  | addRequestObjectSigningAlg (alg : String)
  | addClientIdPrefixes (clientIdPrefixes : List ClientIdPrefix)

def Call.run : Call → Prog WalletMetadata Anyhow Unit
  | addRequestObjectSigningAlg alg => addRequestObjectSigningAlgValuesSupported alg
  | addClientIdPrefixes ps => addClientIdPrefixesSupported ps

/-- The metadata after the calls, whether they succeed or not. -/
def afterCalls (m : WalletMetadata) (calls : List Call) : WalletMetadata :=
  calls.foldl (fun m call => (call.run m).2) m

/-- The prefixes a call adds. -/
def Call.added : Call → List ClientIdPrefix
  | addRequestObjectSigningAlg _ => []
  | addClientIdPrefixes ps => ps

/-- The prefixes that calls add, in their order. -/
def addedPrefixes (calls : List Call) : List ClientIdPrefix := calls.flatMap Call.added

theorem clientIdPrefixesSupported_run (call : Call) (m : WalletMetadata) :
    (call.run m).2.clientIdPrefixesSupported = m.clientIdPrefixesSupported := by
  cases call with
  | addRequestObjectSigningAlg alg =>
    rw [Call.run, addRequestObjectSigningAlgValuesSupported]
    split <;> rfl
  | addClientIdPrefixes ps =>
    rw [Call.run, addClientIdPrefixesSupported]
    split <;> rfl

/-- The object has the prefixes of the call added, where it has any that can be read. -/
theorem objectPrefixes_run (call : Call) (m : WalletMetadata) :
    (call.run m).2.objectPrefixes =
      m.objectPrefixes.map fun s => s.append call.added := by
  cases call with
  | addRequestObjectSigningAlg alg =>
    have hs : ((Call.addRequestObjectSigningAlg alg).run m).2.objectPrefixes =
        m.objectPrefixes := by
      rw [Call.run, addRequestObjectSigningAlgValuesSupported]
      split
      · exact UntypedObject.getOrDefault_insertParam_of_ne (by simp [TypedParameter.key]) _ _ _
      · rfl
    exact hs.trans (ClientIdPrefixesSupported.map_append_nil _).symm
  | addClientIdPrefixes ps =>
    cases h : m.object.getOrDefault ClientIdPrefixesSupported.default with
    | ok supported =>
      rw [Call.run, addClientIdPrefixesSupported, h]
      change UntypedObject.getOrDefault _ _ = (m.object.getOrDefault _).map _
      rw [UntypedObject.getOrDefault_insertParam_self, h]
      exact ClientIdPrefixesSupported.tryFrom_intoJson _
    | error e =>
      rw [Call.run, addClientIdPrefixesSupported, h]
      change m.object.getOrDefault _ = (m.object.getOrDefault _).map _
      rw [h]
      rfl

theorem clientIdPrefixesSupported_afterCalls (calls : List Call) (m : WalletMetadata) :
    (m.afterCalls calls).clientIdPrefixesSupported = m.clientIdPrefixesSupported := by
  induction calls generalizing m with
  | nil => rfl
  | cons call calls ih => exact (ih _).trans (clientIdPrefixesSupported_run call m)

theorem objectPrefixes_afterCalls (calls : List Call) (m : WalletMetadata) :
    (m.afterCalls calls).objectPrefixes =
      m.objectPrefixes.map fun s => s.append (addedPrefixes calls) := by
  induction calls generalizing m with
  | nil => exact (ClientIdPrefixesSupported.map_append_nil _).symm
  | cons call calls ih =>
    refine (ih _).trans ?_
    rw [objectPrefixes_run, ClientIdPrefixesSupported.map_append_append]
    rfl

/-! ## Agreement -/

/-- Where metadata comes from. -/
inductive Source
  | new (authorizationEndpoint : AuthorizationEndpoint) (vpFormatsSupported : VpFormatsSupported)
    (responseTypesSupported : ResponseTypesSupported) (other : Option UntypedObject)
  | parsed (value : UntypedObject)

/-- The metadata that comes from there, if any does. -/
def Source.metadata : Source → Except Anyhow WalletMetadata
  | new endpoint formats types other => .ok (.new endpoint formats types other)
  | parsed value => tryFrom value

/-- A prefix is supported according to the field exactly when it is according to the object, which
can be read. -/
def PrefixesAgree (m : WalletMetadata) : Prop :=
  ∃ supported : ClientIdPrefixesSupported, m.object.getOrDefault .default = .ok supported ∧
    ∀ p, m.isClientIdPrefixSupported p = true ↔ p ∈ supported.values

/-- The two copies at the end, from what they are at the start. -/
theorem prefixesAgree_afterCalls_iff {calls : List Call} {m : WalletMetadata} :
    (m.afterCalls calls).PrefixesAgree ↔ ∃ given, m.objectPrefixes = .ok given ∧
      ∀ p, p ∈ m.clientIdPrefixesSupported.values ↔ p ∈ given.values ++ addedPrefixes calls := by
  have ho := objectPrefixes_afterCalls calls m
  simp only [PrefixesAgree, isClientIdPrefixSupported, clientIdPrefixesSupported_afterCalls,
    List.contains_iff_mem]
  constructor
  · rintro ⟨supported, hs, h⟩
    cases hm : m.objectPrefixes with
    | ok given =>
      rw [hm] at ho
      obtain rfl := Except.ok.inj (hs.symm.trans ho)
      exact ⟨given, rfl, h⟩
    | error e =>
      rw [hm] at ho
      exact nomatch hs.symm.trans ho
  · rintro ⟨given, hg, h⟩
    rw [hg] at ho
    exact ⟨_, ho, h⟩

/-- The calls keep the two copies in step: nothing is added that the field does not have, and
other parameters given to `new` say nothing about prefixes but the default. -/
def Source.KeepsPrefixes : Source → List Call → Prop
  | new _ _ _ other, calls =>
    match (other.getD .empty).get ClientIdPrefixesSupported with
    | none => ∀ p ∈ addedPrefixes calls, p = .preRegistered
    | some (.ok given) => ∀ p, p ∈ given.values ++ addedPrefixes calls ↔ p = .preRegistered
    | some (.error _) => False
  | parsed value, calls =>
    match value.get ClientIdPrefixesSupported with
    | none => ∀ p ∈ addedPrefixes calls, p = .preRegistered
    | some (.ok given) => ∀ p ∈ addedPrefixes calls, p ∈ given.values
    | some (.error _) => False

/-- The field and the object agree at the end of a run exactly when the calls keep them in step. -/
theorem prefixesAgree_iff {source : Source} {m : WalletMetadata} (h : source.metadata = .ok m)
    (calls : List Call) : (m.afterCalls calls).PrefixesAgree ↔ source.KeepsPrefixes calls := by
  rw [prefixesAgree_afterCalls_iff, objectPrefixes, UntypedObject.getOrDefault_eq_get]
  cases source with
  | new endpoint formats types other =>
    obtain rfl := Except.ok.inj h
    have ho : (new endpoint formats types other).object = other.getD .empty := rfl
    have hp : (new endpoint formats types other).clientIdPrefixesSupported = .default := rfl
    rw [ho, hp, Source.KeepsPrefixes]
    cases (other.getD .empty).get ClientIdPrefixesSupported with
    | none => exact Except.exists_ok_iff.trans (ClientIdPrefixesSupported.default_append_iff _)
    | some x =>
      cases x with
      | ok given =>
        refine Except.exists_ok_iff.trans (forall_congr' fun p => ?_)
        rw [ClientIdPrefixesSupported.default, List.mem_singleton]
        exact iff_comm
      | error e =>
        refine iff_of_false ?_ id
        rintro ⟨_, h, _⟩
        cases h
  | parsed value =>
    have hr := tryFrom_eq_ok_iff.mp h
    rw [hr.object, hr.clientIdPrefixesSupported, readOrDefault, Source.KeepsPrefixes]
    cases value.get ClientIdPrefixesSupported with
    | none => exact Except.exists_ok_iff.trans (ClientIdPrefixesSupported.default_append_iff _)
    | some x =>
      cases x with
      | ok given => exact Except.exists_ok_iff.trans (forall_mem_append_iff _ _)
      | error e =>
        refine iff_of_false ?_ id
        rintro ⟨_, h, _⟩
        cases h

end WalletMetadata

/-! ## A prefix that is added -/

namespace Sample
open scoped Reference

theorem isUrl_openid4vp : Reference.isUrl "openid4vp:".toList none = true := rfl

def walletEndpoint : AuthorizationEndpoint :=
  ⟨Reference.UrlText.mk "openid4vp:".toList none none isUrl_openid4vp⟩

def newMetadata : WalletMetadata.Source := .new walletEndpoint ⟨.empty⟩ ⟨[.vpToken]⟩ none

/-- The metadata a wallet makes, with a prefix added. -/
def x509Metadata : WalletMetadata :=
  (WalletMetadata.new walletEndpoint ⟨.empty⟩ ⟨[.vpToken]⟩ none).afterCalls
    [.addClientIdPrefixes [.x509SanDns]]

theorem prefixesAgree_iff_x509Metadata :
    x509Metadata.PrefixesAgree ↔ newMetadata.KeepsPrefixes [.addClientIdPrefixes [.x509SanDns]] :=
  @WalletMetadata.prefixesAgree_iff _ newMetadata _ rfl _

/-- The verifier does not see the prefix that the wallet supports. -/
theorem not_prefixesAgree_x509Metadata : ¬x509Metadata.PrefixesAgree := by
  intro h
  obtain ⟨given, hg, h⟩ := WalletMetadata.prefixesAgree_afterCalls_iff.mp h
  obtain rfl : .default = given := Except.ok.inj hg
  have hm : ClientIdPrefix.x509SanDns ∈ [ClientIdPrefix.preRegistered] := (h _).mpr (by decide)
  exact absurd hm (by decide)

end Sample
end OpenID4VP
