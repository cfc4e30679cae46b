import OpenID4VP.Core.Response
import OpenID4VP.Crates.Reference

/-! # Responses as forms

A response written as a form is read back, but for two kinds of responses: those with a single
string as the presentation token, which stands in the form without its quotation marks and is no
JSON text of a string then, and those whose presentation submission has a registered format under
`other`, which is read back as the registered one. -/

namespace OpenID4VP

/-! ## Presentation tokens -/

namespace VpToken
variable [SerdeJson]

/-- The token is one string. -/
def IsString (t : VpToken) : Prop := ∃ s, t.items = [.string s]

omit [SerdeJson] in
/-- What is read as a token of one string has a string in it. -/
theorem IsString.hasString {t : VpToken} (ht : t.IsString) {x : Json} (h : fromTree x = some t) :
    Json.Text.hasString x = true := by
  obtain ⟨s, hs⟩ := ht
  cases x with
  | string _ => rfl
  | object ms =>
    obtain rfl : ⟨[.jsonObject (.ofMembers ms)]⟩ = t := Option.some.inj h
    simp at hs
  | array xs =>
    change ((xs.mapM fromTree).map mk : Option VpToken) = some t at h
    obtain ⟨items, hx, rfl⟩ := Option.map_eq_some_iff.mp h
    obtain rfl : items = [.string s] := hs
    obtain ⟨y, hy, he⟩ := exists_of_mem_mapM hx List.mem_cons_self
    obtain rfl := VpTokenItem.fromTree_eq_string_iff.mp he
    exact Json.Text.hasStringList_of_mem hy rfl
  | _ => exact nomatch h

theorem formatToString_of_isString {t : VpToken} {s : String} (ht : t.items = [.string s]) :
    t.formatToString.toList =
      ((Json.Text.quote s.toList).dropWhile (· == '"')).rdropWhile (· == '"') := by
  obtain ⟨items⟩ := t
  obtain rfl : items = [.string s] := ht
  change (trimMatches '"' (SerdeJson.print (.string s))).toList = _
  rw [SerdeJson.print_string, trimMatches, String.toList_ofList, String.toList_ofList]

theorem formatToString_of_not_isString {t : VpToken} (ht : ¬t.IsString) :
    t.formatToString = toJsonString t := by
  rw [formatToString]
  split
  · next s hs => exact absurd ⟨s, hs⟩ ht
  · rfl

/-- The text of a token is read as the token, unless it is one string. -/
theorem fromStr_formatToString_iff {t : VpToken} :
    fromStr t.formatToString = .ok t ↔ ¬t.IsString := by
  constructor
  · rintro h ⟨s, hs⟩
    obtain ⟨x, hx, ht⟩ := fromStr_eq_ok_iff.mp h
    have hq := SerdeJson.openQuote_of_parse _ x hx (IsString.hasString ⟨s, hs⟩ ht)
    rw [formatToString_of_isString hs] at hq
    exact Json.Text.not_openQuote_trim _ hq
  · intro ht
    rw [formatToString_of_not_isString ht, toJsonString, fromStr_print, fromValue_eq_ok_iff]
    exact LawfulSerde.fromTree_toTree t

end VpToken

/-! ## The pairs of a response -/

/-- A pair as a member of an object. -/
def pairMember (p : String × String) : String × Json := (p.1, .string p.2)

theorem map_optionalPair (k : String) (v : Option String) :
    (optionalPair k v).map pairMember = Members.present [(k, v.map toTree)] := by
  cases v <;> rfl

namespace JsonTransactionDataResponse

/-- The members of transaction data, if there is any, with those that are left out. -/
def slots (d : Option JsonTransactionDataResponse) : List (String × Option Json) :=
  [("transaction_data_hashes", d.map fun d => toTree d.transactionDataHashes),
    ("transaction_data_hashes_alg", d.bind fun d => d.transactionDataHashesAlg.map toTree)]

theorem map_pairs (d : Option JsonTransactionDataResponse) :
    ((d.map pairs).getD []).map pairMember = Members.present (slots d) := by
  cases d with
  | none => rfl
  | some d =>
    change pairMember _ :: (optionalPair _ d.transactionDataHashesAlg).map pairMember = _
    rw [map_optionalPair]
    rfl

theorem fromTree_slots (d : Option JsonTransactionDataResponse) :
    fromTree (.object (Members.present (slots d))) = d := by
  have hk : (Members.keys (slots d)).Nodup :=
    (by decide : ["transaction_data_hashes", "transaction_data_hashes_alg"].Nodup)
  change (structFields _ (.object (Members.present (slots d))) >>= fun f => _) = _
  rw [structFields_present _ hk]
  cases d with
  | none => rfl
  | some d =>
    have ha : (slotOf (slots (some d)) "transaction_data_hashes_alg").optional =
        some d.transactionDataHashesAlg := Slot.optional_ofOption d.transactionDataHashesAlg
    rw [Option.bind_eq_bind, Option.bind_some, ha]
    rfl

end JsonTransactionDataResponse

namespace JsonEncodedAuthorizationResponse

/-- The members of a response, with those that are left out. -/
def slots (r : JsonEncodedAuthorizationResponse) : List (String × Option Json) :=
  [("vp_token", some (toTree r.vpToken)),
    ("presentation_submission", r.presentationSubmission.map toTree),
    ("id_token", r.idToken.map toTree), ("state", r.state.map toTree)] ++
  JsonTransactionDataResponse.slots r.transactionDataResponse

theorem nodup_keys_slots (r : JsonEncodedAuthorizationResponse) : (Members.keys r.slots).Nodup :=
  (by decide : ["vp_token", "presentation_submission", "id_token", "state",
    "transaction_data_hashes", "transaction_data_hashes_alg"].Nodup)

theorem map_pairs (r : JsonEncodedAuthorizationResponse) :
    r.pairs.map pairMember = Members.present r.slots := by
  rw [pairs, List.map_append, List.map_append, List.map_append, List.map_append,
    map_optionalPair, map_optionalPair, map_optionalPair, JsonTransactionDataResponse.map_pairs]
  change Members.present [("vp_token", some (toTree r.vpToken))] ++ _ ++ _ ++ _ ++ _ = _
  simp only [← Members.present_append]
  rfl

theorem fromPairs_pairs (r : JsonEncodedAuthorizationResponse) : fromPairs r.pairs = some r := by
  have slot := memberSlot_present r.nodup_keys_slots
  have ht : takeNames ["vp_token", "presentation_submission", "id_token", "state"]
      (Members.present r.slots) =
      some (Members.present (JsonTransactionDataResponse.slots r.transactionDataResponse)) := by
    rw [takeNames_of_nodup _ (Members.nodup_keys_present r.nodup_keys_slots),
      Members.filter_present]
    rfl
  have hp : (memberSlot (Members.present r.slots) "presentation_submission").optional =
      some r.presentationSubmission := by
    rw [slot]
    exact Slot.optional_ofOption r.presentationSubmission
  have hi : (memberSlot (Members.present r.slots) "id_token").optional = some r.idToken := by
    rw [slot]
    exact Slot.optional_ofOption r.idToken
  have hs : (memberSlot (Members.present r.slots) "state").optional = some r.state := by
    rw [slot]
    exact Slot.optional_ofOption r.state
  change fromTree (.object (r.pairs.map pairMember)) = _
  rw [map_pairs]
  change (takeNames _ (Members.present r.slots) >>= fun rest => _) = _
  rw [ht, hp, hi, hs, Option.bind_eq_bind, Option.bind_some,
    JsonTransactionDataResponse.fromTree_slots]
  rfl

/-- A response with its parameters as members is not mistaken for a token. -/
theorem fromPairs_pairs_jwt (r : JsonEncodedAuthorizationResponse) :
    (fromPairs r.pairs : Option JwtAuthorizationResponse) = none := by
  change fromTree (.object (r.pairs.map pairMember)) = _
  rw [map_pairs]
  change (structFields _ (.object (Members.present r.slots)) >>= fun f => _) = _
  rw [structFields_present _ r.nodup_keys_slots]
  rfl

end JsonEncodedAuthorizationResponse

section
variable [SerdeJson] [SerdeJsonPath] [UuidCrate] [SsiJwt]

/-! ## Reading the form of a response -/

omit [SsiJwt] in
theorem mapM_fromStr_toJsonString (s : Option PresentationSubmission) :
    (s.map toJsonString).mapM fromStr = .ok (s.map PresentationSubmission.normalize) := by
  cases s with
  | none => rfl
  | some s =>
    have h : fromStr (toJsonString s) = .ok s.normalize := by
      rw [toJsonString, fromStr_print, fromValue_eq_ok_iff, PresentationSubmission.fromTree_toTree]
    change some <$> fromStr (toJsonString s) = _
    rw [h]
    rfl

omit [SerdeJson] [SerdeJsonPath] [UuidCrate] in
theorem mapM_tryFromString_jwt (t : Option IdToken) :
    ((t.map IdToken.jwt).mapM fun jwt => parsingError (some (IdToken.tryFromString jwt))) =
      .ok t := by
  cases t with
  | none => rfl
  | some t =>
    have h : parsingError (some (IdToken.tryFromString t.jwt)) = .ok t := by
      rw [parsingError_eq_ok_iff, IdToken.tryFromString_jwt]
    change some <$> parsingError (some (IdToken.tryFromString t.jwt)) = _
    rw [h]
    rfl

variable [FormUrlencoded]

namespace AuthorizationResponse

theorem fromXWwwFormUrlencoded_toString_pairs (r : JsonEncodedAuthorizationResponse) :
    fromXWwwFormUrlencoded (FormUrlencoded.toString r.pairs) =
      unencoded <$> UnencodedAuthorizationResponse.tryFrom r := by
  rw [fromXWwwFormUrlencoded, FormUrlencoded.parse_toString, r.fromPairs_pairs_jwt,
    r.fromPairs_pairs]
  rfl

/-- The form of the response is read back as a response with the same parameters. -/
def RoundTrips : AuthorizationResponse → Prop
  | unencoded r => ∃ body r', r.intoXWwwFormUrlencoded = .ok body ∧
    fromXWwwFormUrlencoded body = .ok (unencoded r') ∧
    r'.vpToken = r.vpToken ∧ r'.presentationSubmission = r.presentationSubmission ∧
    r'.idToken = r.idToken ∧ r'.state = r.state
  | jwt r => ∃ body, r.intoXWwwFormUrlencoded = .ok body ∧
    fromXWwwFormUrlencoded body = .ok (jwt r)

end AuthorizationResponse

theorem JwtAuthorizationResponse.roundTrips (r : JwtAuthorizationResponse) :
    (AuthorizationResponse.jwt r).RoundTrips := by
  refine ⟨_, rfl, ?_⟩
  rw [AuthorizationResponse.fromXWwwFormUrlencoded, FormUrlencoded.parse_toString]
  rfl

namespace UnencodedAuthorizationResponse
variable {r : UnencodedAuthorizationResponse}

/-- The members of a response without transaction data. -/
def encode (r : UnencodedAuthorizationResponse) : JsonEncodedAuthorizationResponse where
  vpToken := r.vpToken.formatToString
  presentationSubmission := r.presentationSubmission.map toJsonString
  idToken := r.idToken.map IdToken.jwt
  state := r.state
  transactionDataResponse := none

theorem intoXWwwFormUrlencoded_eq (h : r.transactionDataResponse = none) :
    r.intoXWwwFormUrlencoded = .ok (FormUrlencoded.toString r.encode.pairs) := by
  rw [intoXWwwFormUrlencoded, JsonEncodedAuthorizationResponse.tryFrom, h]
  rfl

omit [FormUrlencoded] in
/-- What is read from the members: the presentation token from its text, the formats of the
submission as their names say. -/
theorem tryFrom_encode_eq_ok_iff {r' : UnencodedAuthorizationResponse} :
    tryFrom r.encode = .ok r' ↔ fromStr r.vpToken.formatToString = .ok r'.vpToken ∧
      r' = { r with
        vpToken := r'.vpToken
        presentationSubmission := r.presentationSubmission.map PresentationSubmission.normalize
        transactionDataResponse := none } := by
  have hp := mapM_fromStr_toJsonString r.presentationSubmission
  have hi := mapM_tryFromString_jwt r.idToken
  rw [tryFrom, Except.bind_eq_ok_iff]
  change (∃ t, _ ∧ ((r.presentationSubmission.map toJsonString).mapM fromStr >>= fun s =>
    ((r.idToken.map IdToken.jwt).mapM fun jwt => parsingError (some (IdToken.tryFromString jwt)))
      >>= fun i => .ok (mk t s i r.state none)) = .ok r') ↔ _
  rw [hp, hi]
  constructor
  · rintro ⟨t, ht, h⟩
    obtain rfl := Except.ok.inj h
    exact ⟨Except.mapError_eq_ok_iff.mp ht, rfl⟩
  · rintro ⟨ht, h⟩
    exact ⟨r'.vpToken, Except.mapError_eq_ok_iff.mpr ht, congrArg Except.ok h.symm⟩

/-- A response without transaction data is read back from its form exactly when its presentation
token is not a single string and the formats of its submission are those their names stand for. -/
theorem unencoded_roundTrips_iff (h : r.transactionDataResponse = none) :
    (AuthorizationResponse.unencoded r).RoundTrips ↔
      ¬r.vpToken.IsString ∧ ∀ s, r.presentationSubmission = some s → s.Canonical := by
  rw [← VpToken.fromStr_formatToString_iff, ← PresentationSubmission.map_normalize_eq_iff]
  constructor
  · rintro ⟨body, r', hb, hr, ht, hp, -⟩
    obtain rfl := Except.ok.inj ((intoXWwwFormUrlencoded_eq h).symm.trans hb)
    rw [AuthorizationResponse.fromXWwwFormUrlencoded_toString_pairs, Except.map_eq_ok_iff] at hr
    obtain ⟨r'', hr, he⟩ := hr
    obtain rfl : r'' = r' := AuthorizationResponse.unencoded.inj he
    obtain ⟨hv, hr⟩ := tryFrom_encode_eq_ok_iff.mp hr
    refine ⟨ht ▸ hv, ?_⟩
    rw [hr] at hp
    exact hp
  · rintro ⟨hv, hp⟩
    refine ⟨_, r, intoXWwwFormUrlencoded_eq h, ?_, rfl, rfl, rfl, rfl⟩
    have hr : tryFrom r.encode = .ok r := by
      refine tryFrom_encode_eq_ok_iff.mpr ⟨hv, ?_⟩
      rw [hp, ← h]
    rw [AuthorizationResponse.fromXWwwFormUrlencoded_toString_pairs, hr]
    rfl

end UnencodedAuthorizationResponse

namespace AuthorizationResponse

def HasTransactionData : AuthorizationResponse → Prop
  | unencoded r => r.transactionDataResponse.isSome = true
  | jwt _ => False

/-- The presentation token is not a single string, and the formats of the presentation submission
are those their names stand for. -/
def Readable : AuthorizationResponse → Prop
  | unencoded r => ¬r.vpToken.IsString ∧ ∀ s, r.presentationSubmission = some s → s.Canonical
  | jwt _ => True

/-- Responses without transaction data are read back from their forms exactly when they are
readable, which those in a token always are. -/
theorem roundTrips_iff_readable {r : AuthorizationResponse} (h : ¬r.HasTransactionData) :
    r.RoundTrips ↔ r.Readable := by
  cases r with
  | unencoded r =>
    rw [HasTransactionData, Bool.not_eq_true, Option.isSome_eq_false_iff,
      Option.isNone_iff_eq_none] at h
    exact UnencodedAuthorizationResponse.unencoded_roundTrips_iff h
  | jwt r => exact iff_of_true r.roundTrips trivial

end AuthorizationResponse
end

/-! ## Samples -/

namespace Sample
open scoped Reference

/-- A response with a single string. -/
def stringResponse : AuthorizationResponse := .unencoded {
  vpToken := ⟨[.string "string"]⟩
  presentationSubmission := none
  idToken := none
  state := some "some_state"
  transactionDataResponse := none }

theorem roundTrips_iff_readable_stringResponse :
    stringResponse.RoundTrips ↔ stringResponse.Readable :=
  AuthorizationResponse.roundTrips_iff_readable nofun

theorem fromStr_formatToString_string :
    fromStr (VpToken.formatToString ⟨[.string "string"]⟩) =
      (.error (.library "serde_json") : Except Anyhow VpToken) := rfl

theorem not_roundTrips_stringResponse : ¬stringResponse.RoundTrips := by
  rintro ⟨body, r', hb, hr, -⟩
  obtain rfl := Except.ok.inj ((UnencodedAuthorizationResponse.intoXWwwFormUrlencoded_eq
    rfl).symm.trans hb)
  rw [AuthorizationResponse.fromXWwwFormUrlencoded_toString_pairs, Except.map_eq_ok_iff] at hr
  obtain ⟨r'', hr, -⟩ := hr
  have ht := (UnencodedAuthorizationResponse.tryFrom_encode_eq_ok_iff.mp hr).1
  exact nomatch fromStr_formatToString_string.symm.trans ht

end Sample
end OpenID4VP
