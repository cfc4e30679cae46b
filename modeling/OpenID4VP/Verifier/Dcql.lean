import OpenID4VP.Verifier.Postcondition

/-! # What a verifier checks of its queries

The ids of the credentials are distinct. Where a credential has claim sets its claims have ids,
which are distinct, too. What the claim sets and the credential sets refer to is not looked at. -/

namespace OpenID4VP

/-! ## Lists of ids -/

theorem length_dedup_eq_iff [DecidableEq α] {xs : List α} :
    xs.dedup.length = xs.length ↔ xs.Nodup := by
  rw [← List.dedup_eq_self]
  exact ⟨fun h => (List.dedup_sublist xs).eq_of_length h, congrArg List.length⟩

theorem exists_map_some {xs : List (Option α)} (h : none ∉ xs) :
    ∃ ys : List α, xs = ys.map some := by
  induction xs with
  | nil => exact ⟨[], rfl⟩
  | cons x xs ih =>
    rw [List.mem_cons, not_or] at h
    obtain ⟨y, rfl⟩ := Option.ne_none_iff_exists'.mp (Ne.symm h.1)
    obtain ⟨ys, rfl⟩ := ih h.2
    exact ⟨y :: ys, rfl⟩

/-! ## Queries -/

/-- The credential has claims, all of them with ids, no two of which are the same. -/
def DcqlCredential.Identified (cred : DcqlCredential) : Prop :=
  ∃ claims, cred.claims = some claims ∧ (∀ claim ∈ claims.toList, claim.id ≠ none) ∧
    (claims.toList.map DcqlClaim.id).Nodup

/-- What is checked of a query. -/
structure DCQL.Checked (query : DCQL) : Prop where
  credentialIds : (query.credentials.toList.map DcqlCredential.id).Nodup
  claimSets : ∀ cred ∈ query.credentials.toList, cred.claimSets ≠ none → cred.Identified

/-- No credential has two claims of one id. -/
def DCQL.ClaimIdsDistinct (query : DCQL) : Prop :=
  ∀ cred ∈ query.credentials.toList, ∀ claims, cred.claims = some claims →
    (claims.toList.filterMap DcqlClaim.id).Nodup

/-- Every name in a claim set is the id of a claim of the credential. -/
def DCQL.ClaimSetsResolve (query : DCQL) : Prop :=
  ∀ cred ∈ query.credentials.toList, ∀ sets, cred.claimSets = some sets →
    ∀ set ∈ sets.toList, ∀ s ∈ set.toList, ∃ claims, cred.claims = some claims ∧
      ∃ claim ∈ claims.toList, claim.id.map ID.value = some s

/-- Every name in an option of a credential set is the id of a credential. -/
def DCQL.CredentialSetsResolve (query : DCQL) : Prop :=
  ∀ sets, query.credentialSets = some sets → ∀ set ∈ sets.toList,
    ∀ names ∈ set.options.toList, ∀ s ∈ names.toList,
      ∃ cred ∈ query.credentials.toList, cred.id.value = s

namespace RequestBuilder

/-! ## The checks -/

theorem validateClaims_eq_ok_iff {claims : List DcqlClaim} :
    validateClaims claims = .ok () ↔
      (∀ claim ∈ claims, claim.id ≠ none) ∧ (claims.map DcqlClaim.id).Nodup := by
  rw [validateClaims, Except.bind_eq_ok_iff]
  simp only [ensure_eq_ok_iff, decide_eq_true_eq]
  rw [exists_congr fun ids => and_congr_left fun _ => Except.mapM_eq_ok_iff_map_some
    (g := DcqlClaim.id) fun claim id => by cases claim.id <;> simp]
  constructor
  · rintro ⟨ids, hm, hl⟩
    have hlen : claims.length = ids.length := by
      simpa using congrArg List.length hm
    rw [hlen, length_dedup_eq_iff] at hl
    refine ⟨fun claim hc hn => ?_, ?_⟩
    · have hid : claim.id ∈ ids.map some := hm ▸ List.mem_map_of_mem hc
      rw [hn] at hid
      obtain ⟨id, -, hid⟩ := List.mem_map.mp hid
      cases hid
    · rw [hm]
      exact hl.map (Option.some_injective ID)
  · rintro ⟨hs, hn⟩
    obtain ⟨ids, hm⟩ : ∃ ids : List ID, claims.map DcqlClaim.id = ids.map some := by
      refine exists_map_some fun hc => ?_
      obtain ⟨claim, hc, hid⟩ := List.mem_map.mp hc
      exact hs claim hc hid
    refine ⟨ids, hm, ?_⟩
    have hlen : claims.length = ids.length := by
      simpa using congrArg List.length hm
    rw [hlen, length_dedup_eq_iff]
    rw [hm] at hn
    exact hn.of_map

theorem validateCredential_eq_ok_iff {cred : DcqlCredential} :
    validateCredential cred = .ok () ↔ (cred.claimSets ≠ none → cred.Identified) := by
  rw [validateCredential, DcqlCredential.Identified]
  cases cred.claims <;> cases cred.claimSets <;> simp [validateClaims_eq_ok_iff]

theorem validateDcql_eq_ok_iff {query : DCQL} : validateDcql query = .ok () ↔ query.Checked := by
  have hc : query.credentials.toList.forM validateCredential = .ok () ↔
      ∀ cred ∈ query.credentials.toList, cred.claimSets ≠ none → cred.Identified := by
    rw [Except.forM_eq_ok_iff]
    exact forall₂_congr fun _ _ => validateCredential_eq_ok_iff
  rw [validateDcql, Except.seq_eq_ok_iff, ensure_eq_ok_iff, decide_eq_true_eq, hc,
    ← List.length_map DcqlCredential.id, length_dedup_eq_iff]
  exact ⟨fun ⟨h1, h2⟩ => ⟨h1, h2⟩, fun ⟨h1, h2⟩ => ⟨h1, h2⟩⟩

section
variable [SerdeJson] [SerdeJsonPath] [JsonSchema] [UrlCrate] [Base64Url] [FormUrlencoded]

/-- A query that is built into a request has been checked. -/
theorem checked_of_build {b : RequestBuilder σ} {m : WalletMetadata} {type : RequestType}
    {query : DCQL} {s s' : σ} {request : Url × Option String} (hq : b.dcql = some query)
    (h : b.build m type s = (.ok request, s')) : query.Checked := by
  obtain ⟨o, -, ho, -⟩ := build_eq_ok h
  obtain ⟨params, params', mode, he⟩ := requestObject_eq_ok_iff.mp ho
  have hi := he.query
  rw [hq] at hi
  generalize b.presentationDefinition = definition at hi
  cases hi with
  | dcql hv => exact validateDcql_eq_ok_iff.mp hv

end
end RequestBuilder

/-! ## Names without a thing, and one name for two -/

namespace Sample
open scoped Reference

def idA : ID := ⟨"a", rfl⟩

def claim (id : ID) (name : String) : DcqlClaim :=
  ⟨some id, .new (.string name), none⟩

def credential (id : ID) (claims : NonEmptyVec DcqlClaim)
    (claimSets : Option (NonEmptyVec (NonEmptyVec String))) : DcqlCredential where
  id := id
  format := .sdJwtVc
  «meta» := ⟨none, none, none⟩
  multiple := none
  claims := some claims
  claimSets := claimSets
  requireCryptographicHolderBinding := none
  trustedAuthorities := none

def twoClaims : NonEmptyVec DcqlClaim :=
  ⟨[claim idA "x", claim idA "y"], List.cons_ne_nil _ _⟩

/-- A credential with two claims `a`. -/
def passport : DcqlCredential := credential ⟨"passport", rfl⟩ twoClaims none

/-- A credential with a claim set of a claim `b` that is none. -/
def mdl : DcqlCredential :=
  credential ⟨"mdl", rfl⟩ (.new (claim idA "x")) (some (.new (.new "b")))

/-- The two, and a set with a credential that is none. -/
def danglingQuery : DCQL where
  credentials := ⟨[passport, mdl], List.cons_ne_nil _ _⟩
  credentialSets := some (.new ⟨.new (.new "other"), none⟩)

def danglingBuilder : RequestBuilder Unit :=
  (RequestBuilder.after verifier (calls .directPost)).withDcql danglingQuery

theorem build_danglingQuery : ∃ request,
    danglingBuilder.build walletMetadata .plain () = (.ok request, ()) :=
  ⟨_, rfl⟩

theorem checked_of_build_danglingQuery : danglingQuery.Checked := by
  obtain ⟨request, h⟩ := build_danglingQuery
  exact RequestBuilder.checked_of_build rfl h

/-- The request is built all the same. -/
theorem danglingQuery_is_built :
    (∃ request, danglingBuilder.dcql = some danglingQuery ∧
      danglingBuilder.build walletMetadata .plain () = (.ok request, ())) ∧
    ¬danglingQuery.ClaimIdsDistinct ∧ ¬danglingQuery.ClaimSetsResolve ∧
    ¬danglingQuery.CredentialSetsResolve := by
  obtain ⟨request, h⟩ := build_danglingQuery
  refine ⟨⟨request, rfl, h⟩, fun h => ?_, fun h => ?_, fun h => ?_⟩
  · have hn := h _ List.mem_cons_self _ rfl
    exact absurd hn (by decide)
  · obtain ⟨claims, hc, claim, hm, hs⟩ := h _ (List.mem_cons_of_mem _ List.mem_cons_self) _ rfl _
      List.mem_cons_self "b" List.mem_cons_self
    obtain rfl := Option.some.inj hc
    obtain rfl := List.mem_singleton.mp hm
    exact absurd hs (by decide)
  · obtain ⟨cred, hm, hs⟩ := h _ rfl _ List.mem_cons_self _ List.mem_cons_self "other"
      List.mem_cons_self
    rcases List.mem_cons.mp hm with rfl | hm
    · exact absurd hs (by decide)
    · obtain rfl := List.mem_singleton.mp hm
      exact absurd hs (by decide)

end Sample
end OpenID4VP
