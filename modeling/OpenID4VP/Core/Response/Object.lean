import OpenID4VP.Core.Response.RoundTrip

/-! # Responses as objects

In a token, and through the browser, a response is an object with its parameters as members. The
writer is derived, the reader takes the members one by one. They agree on a parameter that is
absent where the writer leaves it out: it writes the absent algorithm of transaction data as
`null`, which the reader refuses. -/

namespace OpenID4VP

/-! ## Writing -/

def TransactionDataResponse.members (d : TransactionDataResponse) : List (String × Json) :=
  member "transaction_data_hashes" d.transactionDataHashes ++
  nullableMember "transaction_data_hashes_alg" d.transactionDataHashesAlg

/-- A parameter that may be missing, with its name in the error of its reading. -/
def optionalParam (name : String) : Option (Except Anyhow α) → Except Anyhow (Option α)
  | some (.ok a) => return some a
  | some (.error e) => throw (.msg s!"Error getting {name}: {e.toString}")
  | none => return none

theorem optionalParam_map_ok (name : String) (f : α → β) (x : Option α) :
    optionalParam name (x.map fun a => .ok (f a)) = .ok (x.map f) := by
  cases x <;> rfl

section
variable [SerdeJsonPath] [UuidCrate] [SsiJwt]

namespace UnencodedAuthorizationResponse

def members (r : UnencodedAuthorizationResponse) : List (String × Json) :=
  member "vp_token" r.vpToken ++
  optionalMember "presentation_submission" r.presentationSubmission ++
  optionalMember "id_token" r.idToken ++
  optionalMember "state" r.state ++
  (r.transactionDataResponse.map TransactionDataResponse.members).getD []

instance : Serialize UnencodedAuthorizationResponse := ⟨fun r => .object r.members⟩

/-! ## Reading -/

def tryFromObject (value : UntypedObject) : Except Anyhow UnencodedAuthorizationResponse := do
  let vpToken ← parsingError (value.get VpToken)
  let presentationSubmission ←
    optionalParam "presentation_submission" (value.get PresentationSubmission)
  let idToken ← optionalParam "id_token" (value.get IdToken)
  let state ← optionalParam "state" (value.get State)
  let transactionDataHashes ←
    optionalParam "transaction_data_hashes" (value.get TransactionDataHashes)
  let transactionDataHashesAlg ←
    optionalParam "transaction_data_hashes_alg" (value.get TransactionDataHashesAlg)
  return {
    vpToken, presentationSubmission, idToken
    state := state.map State.value
    transactionDataResponse :=
      transactionDataHashes.map fun tdh => ⟨tdh, transactionDataHashesAlg⟩ }

/-! ## The members of a response -/

/-- The members with those that are left out. -/
def slots (r : UnencodedAuthorizationResponse) : List (String × Option Json) := [
  ("vp_token", some (toTree r.vpToken)),
  ("presentation_submission", r.presentationSubmission.map toTree),
  ("id_token", r.idToken.map toTree),
  ("state", r.state.map toTree),
  ("transaction_data_hashes",
    r.transactionDataResponse.map fun d => toTree d.transactionDataHashes),
  ("transaction_data_hashes_alg",
    r.transactionDataResponse.map fun d => (d.transactionDataHashesAlg.map toTree).getD .null)]

theorem members_eq_present (r : UnencodedAuthorizationResponse) :
    r.members = Members.present r.slots := by
  have hd : (r.transactionDataResponse.map TransactionDataResponse.members).getD [] =
      Members.present (r.slots.drop 4) := by
    rw [slots]
    rcases r.transactionDataResponse with _ | ⟨hashes, _ | alg⟩ <;> rfl
  rw [members, hd, member_eq_present]
  simp only [optionalMember_eq_present, ← Members.present_append]
  rfl

/-- The object a response is written as. -/
def object (r : UnencodedAuthorizationResponse) : UntypedObject := .ofMembers r.members

theorem fromTree_toTree (r : UnencodedAuthorizationResponse) :
    fromTree (toTree r) = some r.object := rfl

theorem get?_object (r : UnencodedAuthorizationResponse) (k : String) :
    r.object.get? k = (r.slots.lookup k).join.map Json.toValue := by
  rw [object, members_eq_present]
  refine JsonMap.get?_ofMembers_present ?_ k
  change ["vp_token", "presentation_submission", "id_token", "state", "transaction_data_hashes",
    "transaction_data_hashes_alg"].Nodup
  decide

theorem get_object [TypedParameter α] (r : UnencodedAuthorizationResponse) :
    r.object.get α = (r.slots.lookup (TypedParameter.key α)).join.map fun x =>
      TypedParameter.tryFrom x.toValue := by
  rw [UntypedObject.get, get?_object, Option.map_map]
  rfl

theorem get_vpToken (r : UnencodedAuthorizationResponse) :
    r.object.get VpToken = some (.ok r.vpToken) := by
  have h : r.object.get VpToken = some (fromValue (toTree r.vpToken).toValue) := get_object r
  rw [h, toValue_toTree, Option.some_inj, fromValue_eq_ok_iff, LawfulSerde.fromTree_toTree]

theorem get_presentationSubmission (r : UnencodedAuthorizationResponse) :
    r.object.get PresentationSubmission =
      r.presentationSubmission.map fun s => .ok s.normalize := by
  have h : r.object.get PresentationSubmission = (r.presentationSubmission.map toTree).map fun x =>
    fromValue x.toValue := get_object r
  rw [h, Option.map_map]
  congr 1
  funext s
  rw [Function.comp, toValue_toTree, fromValue_eq_ok_iff, PresentationSubmission.fromTree_toTree]

theorem get_idToken (r : UnencodedAuthorizationResponse) :
    r.object.get IdToken = r.idToken.map .ok := by
  have h : r.object.get IdToken = (r.idToken.map toTree).map fun x =>
    IdToken.tryFrom x.toValue := get_object r
  rw [h, Option.map_map]
  congr 1
  funext t
  exact t.tryFromString_jwt

theorem get_state (r : UnencodedAuthorizationResponse) :
    r.object.get State = r.state.map fun s => .ok ⟨s⟩ := by
  have h : r.object.get State = (r.state.map toTree).map fun x =>
    TypedParameter.tryFrom x.toValue := get_object r
  rw [h, Option.map_map]
  rfl

theorem get_transactionDataHashes (r : UnencodedAuthorizationResponse) :
    r.object.get TransactionDataHashes =
      r.transactionDataResponse.map fun d => .ok d.transactionDataHashes := by
  have h : r.object.get TransactionDataHashes =
    (r.transactionDataResponse.map fun d => toTree d.transactionDataHashes).map fun x =>
      TypedParameter.tryFrom x.toValue := get_object r
  rw [h, Option.map_map]
  congr 1
  funext d
  rw [Function.comp, toValue_toTree]
  refine TypedParameter.via_tryFrom_eq_ok_iff.mpr ⟨d.transactionDataHashes.hashes, ?_, rfl⟩
  exact LawfulSerde.fromTree_toTree d.transactionDataHashes.hashes

/-- The algorithm as it is read: absent, it is there as `null` and refused. -/
theorem get_transactionDataHashesAlg (r : UnencodedAuthorizationResponse) :
    r.object.get TransactionDataHashesAlg = r.transactionDataResponse.map fun d =>
      match d.transactionDataHashesAlg with
      | some alg => .ok alg
      | none => .error (.library "serde_json") := by
  have h : r.object.get TransactionDataHashesAlg = (r.transactionDataResponse.map fun d =>
    (d.transactionDataHashesAlg.map toTree).getD .null).map fun x =>
      TypedParameter.tryFrom x.toValue := get_object r
  rw [h, Option.map_map]
  congr 1
  funext d
  rcases d with ⟨hashes, _ | alg⟩
  · rfl
  · exact TypedParameter.via_tryFrom_eq_ok_iff.mpr
      ⟨alg.alg, LawfulSerde.fromTree_toTree alg.alg, rfl⟩

/-! ## Round trip -/

/-- The response is read back from the object it is written as. -/
def RoundTripsAsObject (r : UnencodedAuthorizationResponse) : Prop :=
  ∃ o r', fromValue (toTree r) = .ok o ∧ tryFromObject o = .ok r' ∧
    r'.vpToken = r.vpToken ∧ r'.presentationSubmission = r.presentationSubmission ∧
    r'.idToken = r.idToken ∧ r'.state = r.state ∧
    r'.transactionDataResponse = r.transactionDataResponse

/-- The transaction data, if there is any, names an algorithm. -/
def NamesAlg (r : UnencodedAuthorizationResponse) : Prop :=
  ∀ d, r.transactionDataResponse = some d → d.transactionDataHashesAlg.isSome = true

/-- What is read back, where anything is: everything but for the formats of the submission, which
are read as their names say. -/
theorem tryFromObject_object_eq_ok_iff {r r' : UnencodedAuthorizationResponse} :
    tryFromObject r.object = .ok r' ↔ r.NamesAlg ∧ r' = { r with
      presentationSubmission :=
        r.presentationSubmission.map PresentationSubmission.normalize } := by
  have hs := optionalParam_map_ok "presentation_submission" PresentationSubmission.normalize
    r.presentationSubmission
  have hi : optionalParam "id_token" (r.idToken.map .ok) = .ok (r.idToken.map id) :=
    optionalParam_map_ok "id_token" id r.idToken
  have hst := optionalParam_map_ok "state" State.mk r.state
  have hh := optionalParam_map_ok "transaction_data_hashes"
    TransactionDataResponse.transactionDataHashes r.transactionDataResponse
  rw [tryFromObject, get_vpToken, get_presentationSubmission, get_idToken, get_state,
    get_transactionDataHashes, get_transactionDataHashesAlg, hs, hi, hst, hh]
  obtain ⟨vpToken, submission, idToken, state, _ | ⟨hashes, _ | alg⟩⟩ := r
  case none =>
    refine Iff.trans ?_ (and_iff_right nofun).symm
    change Except.ok _ = _ ↔ _
    rw [Except.ok.injEq, Option.map_id, eq_comm, Option.map_map]
    simp [Function.comp_def]
  case some.none =>
    refine iff_of_false nofun fun h => ?_
    exact absurd (h.1 _ rfl) Bool.false_ne_true
  case some.some =>
    have hn : NamesAlg ⟨vpToken, submission, idToken, state, some ⟨hashes, some alg⟩⟩ := by
      intro d hd
      obtain rfl := Option.some.inj hd
      rfl
    refine Iff.trans ?_ (and_iff_right hn).symm
    change Except.ok _ = _ ↔ _
    rw [Except.ok.injEq, Option.map_id, eq_comm, Option.map_map]
    simp [Function.comp_def]

/-- A response is read back from its object exactly when its transaction data, if it has any, names
an algorithm, and the formats of its submission are those their names stand for. -/
theorem roundTripsAsObject_iff {r : UnencodedAuthorizationResponse} :
    r.RoundTripsAsObject ↔
      r.NamesAlg ∧ ∀ s, r.presentationSubmission = some s → s.Canonical := by
  rw [← PresentationSubmission.map_normalize_eq_iff]
  constructor
  · rintro ⟨o, r', ho, hr, -, hs, -⟩
    rw [fromValue_eq_ok_iff, fromTree_toTree, Option.some_inj] at ho
    subst ho
    obtain ⟨hn, rfl⟩ := tryFromObject_object_eq_ok_iff.mp hr
    exact ⟨hn, hs⟩
  · rintro ⟨hn, hs⟩
    refine ⟨r.object, r, fromValue_eq_ok_iff.mpr r.fromTree_toTree, ?_, rfl, rfl, rfl, rfl, rfl⟩
    exact tryFromObject_object_eq_ok_iff.mpr ⟨hn, by rw [hs]⟩

end UnencodedAuthorizationResponse
end

/-! ## Samples -/

namespace Sample
open scoped Reference

/-- A response with transaction data of the default algorithm, which it does not name. -/
def hashesResponse : UnencodedAuthorizationResponse where
  vpToken := ⟨[.string "string"]⟩
  presentationSubmission := none
  idToken := none
  state := some "some_state"
  transactionDataResponse := some ⟨⟨["hash1", "hash2"]⟩, none⟩

theorem not_roundTripsAsObject_hashesResponse : ¬hashesResponse.RoundTripsAsObject := by
  rintro ⟨o, r', ho, hr, -⟩
  rw [fromValue_eq_ok_iff, UnencodedAuthorizationResponse.fromTree_toTree, Option.some_inj] at ho
  subst ho
  have hn := (UnencodedAuthorizationResponse.tryFromObject_object_eq_ok_iff.mp hr).1
  exact absurd (hn _ rfl) Bool.false_ne_true

end Sample
end OpenID4VP
