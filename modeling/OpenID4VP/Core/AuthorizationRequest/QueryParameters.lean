import OpenID4VP.Core.AuthorizationRequest.Completeness
import OpenID4VP.Core.AuthorizationRequest.Request

/-! # Requests from query parameters

A request can be read from a query (`fromQueryParams`), which looks for a request object first, and
from JSON (its instance of `Deserialize`), which tries a plain request first. `classification_iff`
says when the two agree, and `furtherParameters_iff` when parameters that are not those of a signed
request leave its reading alone. -/

namespace OpenID4VP

section
variable [UrlCrate]

/-! ## Reading signed requests -/

theorem RequestReference.fromTree_object {ms : List (String × Json)}
    (hn : (Members.keys ms).Nodup) :
    (fromTree (.object ms) : Option RequestReference) =
      (memberSlot ms "request_uri").required.bind fun uri =>
        (memberSlot ms "request_uri_method").optional.bind fun method => some ⟨uri, method⟩ := by
  change ((if namesOnce _ ms = true then some (memberSlot ms) else none) >>= fun f => _) = _
  rw [if_pos (namesOnce_of_nodup _ hn)]
  rfl

/-- The members but for the client id. -/
def UntypedObject.withoutClientId (o : UntypedObject) : List (String × Json) :=
  o.entries.filter fun m => m.1 ∉ ["client_id"]

namespace SignedAuthorizationRequest
variable {o : UntypedObject}

theorem fromTree_toJson (o : UntypedObject) :
    (fromTree o.toJson : Option SignedAuthorizationRequest) =
      (memberSlot o.entries "client_id").required.bind fun c =>
        (RequestIndirection.read o.withoutClientId).bind fun i => some ⟨c, i⟩ := by
  change (takeNames ["client_id"] o.entries >>= fun rest => _) = _
  rw [takeNames_of_nodup _ o.nodup_keys]
  rfl

omit [UrlCrate] in
theorem mem_withoutClientId {m : String × Json} :
    m ∈ o.withoutClientId ↔ o.get? m.1 = some m.2 ∧ m.1 ≠ "client_id" := by
  have hl : o.get? m.1 = some m.2 ↔ m ∈ o.entries := Members.lookup_eq_some_iff o.nodup_keys
  rw [hl, UntypedObject.withoutClientId, List.mem_filter, decide_eq_true_eq, List.mem_singleton]

/-- Members that are no request object alone are read as a reference to one. -/
theorem read_withoutClientId (h : ∀ jwt, o.withoutClientId ≠ [("request", .string jwt)]) :
    RequestIndirection.read o.withoutClientId =
      ((memberSlot o.entries "request_uri").required.bind fun uri =>
        (memberSlot o.entries "request_uri_method").optional.bind fun method =>
          some (.byReference ⟨uri, method⟩)) := by
  have hn : (Members.keys o.withoutClientId).Nodup := Members.nodup_keys_filter o.nodup_keys _
  have hs (k : String) (hk : k ≠ "client_id") :
      memberSlot o.withoutClientId k = memberSlot o.entries k :=
    memberSlot_filter (by simpa using hk) o.entries
  have hr : RequestIndirection.read o.withoutClientId =
      (fromTree (.object o.withoutClientId)).map .byReference := by
    unfold RequestIndirection.read
    split
    · next jwt he => exact absurd he (h jwt)
    · rfl
  rw [hr, RequestReference.fromTree_object hn, hs _ (by decide), hs _ (by decide)]
  cases ((memberSlot o.entries "request_uri").required : Option Url) with
  | none => rfl
  | some uri =>
    cases ((memberSlot o.entries "request_uri_method").optional :
      Option (Option HttpMethodForAuth)) <;> rfl

/-- A signed request has a request object, by value or by reference. -/
theorem containsKey_of_fromTree {r : SignedAuthorizationRequest}
    (h : fromTree o.toJson = some r) :
    (o.containsKey "request" || o.containsKey "request_uri") = true := by
  rw [fromTree_toJson] at h
  obtain ⟨c, -, h⟩ := Option.bind_eq_some_iff.mp h
  obtain ⟨i, hi, -⟩ := Option.bind_eq_some_iff.mp h
  rw [Bool.or_eq_true, JsonMap.containsKey, JsonMap.containsKey]
  by_cases hv : ∃ jwt, o.withoutClientId = [("request", .string jwt)]
  · obtain ⟨jwt, hv⟩ := hv
    have hm : ("request", Json.string jwt) ∈ o.withoutClientId := hv ▸ List.mem_cons_self
    exact .inl (by rw [(mem_withoutClientId.mp hm).1]; rfl)
  · rw [read_withoutClientId (not_exists.mp hv)] at hi
    obtain ⟨uri, hu, -⟩ := Option.bind_eq_some_iff.mp hi
    obtain ⟨x, hx, -⟩ := Slot.required_eq_some_iff.mp hu
    unfold memberSlot at hx
    split at hx
    · next y hy => exact .inr (by rw [JsonMap.get?, hy]; rfl)
    · cases hx

end SignedAuthorizationRequest
end

namespace AuthorizationRequest

/-! ## Parameters of a query -/

/-- The parameters of a signed request but for the client id. -/
inductive OwnParameters
  | byValue (request : String)
  | byReference (requestUri : String) (requestUriMethod : Option String)

namespace OwnParameters

/-- The names that no further parameter has. -/
def names : OwnParameters → List String
  | byValue _ => ["client_id", "request", "request_uri"]
  | byReference _ _ => ["client_id", "request", "request_uri", "request_uri_method"]

def pairs : OwnParameters → List (String × String)
  | byValue request => [("request", request)]
  | byReference uri method =>
    Members.present [("request_uri", some uri), ("request_uri_method", method)]

theorem keys_sublist (c : String) (own : OwnParameters) :
    (Members.keys (("client_id", c) :: own.pairs)).Sublist own.names := by
  obtain r | ⟨u, _ | m⟩ := own
  · exact .cons_cons _ (.cons_cons _ (.cons _ .slnil))
  · exact .cons_cons _ (.cons _ (.cons_cons _ (.cons _ .slnil)))
  · exact .cons_cons _ (.cons _ (.cons_cons _ (.cons_cons _ .slnil)))

theorem nodup_names (own : OwnParameters) : own.names.Nodup := by
  cases own <;> simp [names]

end OwnParameters

section
variable [FormUrlencoded]

/-- The object with these string members. -/
def stringMembers (ps : List (String × String)) : UntypedObject :=
  .ofMembers (ps.map fun p => (p.1, .string p.2))

/-- The request object, by value or by reference, that the members say there is. -/
def hasRequestObject (o : UntypedObject) : Bool :=
  o.containsKey "request" || o.containsKey "request_uri"

theorem queryMap_toString (ps : List (String × String)) :
    queryMap (FormUrlencoded.toString ps) = stringMembers ps := by
  rw [queryMap, FormUrlencoded.parse_toString, stringMembers]

theorem get?_queryMap (q k : String) :
    (queryMap q).get? k = ((FormUrlencoded.parse q).reverse.lookup k).map .string := by
  rw [queryMap, JsonMap.get?_ofMembers_last, ← List.map_reverse,
    Members.lookup_map fun _ => Json.string, Option.map_map]
  rfl

/-- The query is made of a client id, the own parameters of a signed request and further ones, in
any order. -/
structure Carries (query clientId : String) (own : OwnParameters)
    (further : List (String × String)) : Prop where
  perm : (FormUrlencoded.parse query).Perm (("client_id", clientId) :: own.pairs ++ further)
  apart : Members.Apart own.names further

variable {q c : String} {own : OwnParameters} {further : List (String × String)}

/-- Under the names of no further parameter, the map of the query has its own ones. -/
theorem Carries.get? (h : Carries q c own further) {k : String} (hk : k ∉ Members.keys further) :
    (queryMap q).get? k = ((("client_id", c) :: own.pairs).lookup k).map .string := by
  have hp : (FormUrlencoded.parse q).reverse.Perm (("client_id", c) :: own.pairs ++ further) :=
    (List.reverse_perm _).trans h.perm
  have hs := own.keys_sublist c
  rw [get?_queryMap, Members.lookup_of_perm_append hp (hs.nodup own.nodup_names)
    (h.apart.mono hs.subset) hk]

theorem Carries.slot_queryMap (h : Carries q c own further) {k : String} (hk : k ∈ own.names) :
    memberSlot (queryMap q).entries k =
      .ofOption (((("client_id", c) :: own.pairs).lookup k).map .string) := by
  rw [memberSlot_eq_ofOption, ← h.get? (h.apart.not_mem_keys hk), JsonMap.get?]

theorem Carries.hasRequestObject (h : Carries q c own further) :
    hasRequestObject (queryMap q) = true := by
  cases own with
  | byValue r =>
    have hr := h.get? (h.apart.not_mem_keys (k := "request") (by simp [OwnParameters.names]))
    rw [AuthorizationRequest.hasRequestObject, JsonMap.containsKey, hr]
    rfl
  | byReference u m =>
    have hu := h.get? (h.apart.not_mem_keys (k := "request_uri") (by simp [OwnParameters.names]))
    rw [AuthorizationRequest.hasRequestObject, Bool.or_comm, JsonMap.containsKey, hu]
    rfl

theorem Carries.containsKey_further (h : Carries q c own further) {p : String × String}
    (hp : p ∈ further) : (queryMap q).containsKey p.1 = true := by
  have hm : p ∈ (FormUrlencoded.parse q).reverse :=
    List.mem_reverse.mpr (h.perm.mem_iff.mpr (List.mem_append_right _ hp))
  rw [JsonMap.containsKey, get?_queryMap, Option.isSome_map, ← Option.not_isNone,
    Bool.not_eq_true', ← Bool.not_eq_true, Option.isNone_iff_eq_none,
    Members.lookup_eq_none_iff]
  exact fun hn => hn (List.mem_map_of_mem hm)

theorem Carries.withoutClientId_byValue {r : String} (h : Carries q c (.byValue r) []) :
    (queryMap q).withoutClientId = [("request", .string r)] := by
  rw [← List.perm_singleton, List.perm_ext_iff_of_nodup _ (List.nodup_singleton _)]
  · intro m
    obtain ⟨k, x⟩ := m
    have hl : (("client_id", c) :: (OwnParameters.byValue r).pairs).lookup k =
        if k = "client_id" then some c else if k = "request" then some r else none := by
      rw [Members.lookup_cons, OwnParameters.pairs, Members.lookup_cons, List.lookup_nil]
    rw [SignedAuthorizationRequest.mem_withoutClientId, h.get? List.not_mem_nil, hl,
      List.mem_singleton, Prod.mk.injEq]
    by_cases hc : k = "client_id"
    · simp [hc]
    · by_cases hk : k = "request" <;> simp [hc, hk, eq_comm]
  · exact (Members.nodup_keys_filter (queryMap q).nodup_keys _).of_map

end

section
variable [UrlCrate] [FormUrlencoded]

/-- The request object that the parameters say there is, if they can be read. -/
def OwnParameters.indirection : OwnParameters → Option RequestIndirection
  | byValue request => some (.byValue request)
  | byReference uri method => do
    let uri ← UrlCrate.parse uri
    let method ← method.mapM fun m => fromTree (.string m)
    return .byReference ⟨uri, method⟩

variable {q c : String} {own : OwnParameters} {further : List (String × String)}

theorem Carries.read_byReference {u : String} {m : Option String}
    (h : Carries q c (.byReference u m) further) :
    RequestIndirection.read (queryMap q).withoutClientId =
      (OwnParameters.byReference u m).indirection := by
  have hr (jwt : String) : (queryMap q).withoutClientId ≠ [("request", .string jwt)] := by
    intro he
    have hm := SignedAuthorizationRequest.mem_withoutClientId.mp (he ▸ List.mem_cons_self)
    rw [h.get? (h.apart.not_mem_keys (by simp [OwnParameters.names]))] at hm
    cases m <;> exact nomatch hm.1
  rw [SignedAuthorizationRequest.read_withoutClientId hr,
    h.slot_queryMap (by simp [OwnParameters.names]),
    h.slot_queryMap (by simp [OwnParameters.names])]
  cases m <;> rfl

/-- Further members keep a request object by value from being read. -/
theorem Carries.read_byValue {r : String} (h : Carries q c (.byValue r) further) :
    RequestIndirection.read (queryMap q).withoutClientId =
      if further = [] then some (.byValue r) else none := by
  split
  · next hf =>
    subst hf
    rw [h.withoutClientId_byValue]
    rfl
  next hf =>
  obtain ⟨p, hp⟩ := List.exists_mem_of_ne_nil _ hf
  have hr (jwt : String) : (queryMap q).withoutClientId ≠ [("request", .string jwt)] := by
    intro he
    obtain ⟨x, hx⟩ := Option.isSome_iff_exists.mp (h.containsKey_further hp)
    have hn : p.1 ≠ "client_id" := fun hc => h.apart p hp (hc ▸ List.mem_cons_self)
    have hm : (p.1, x) ∈ (queryMap q).withoutClientId :=
      SignedAuthorizationRequest.mem_withoutClientId.mpr ⟨hx, hn⟩
    rw [he, List.mem_singleton] at hm
    have hk : p.1 = "request" := congrArg Prod.fst hm
    exact h.apart p hp (hk ▸ List.mem_cons_of_mem _ List.mem_cons_self)
  rw [SignedAuthorizationRequest.read_withoutClientId hr,
    h.slot_queryMap (by simp [OwnParameters.names])]
  rfl

end

section
variable [SerdeJson] [SerdeJsonPath] [JsonSchema] [UrlCrate] [Base64Url] [FormUrlencoded]

/-! ## Classification -/

/-- What the form of an object is read as: the same request as the object, or none where the object
is none. -/
def ClassifiedAlike (ps : List (String × String)) : Prop :=
  (fromQueryParams (FormUrlencoded.toString ps)).toOption = fromTree (stringMembers ps).toJson

omit [FormUrlencoded] in
theorem fromTree_toJson (o : UntypedObject) :
    (fromTree o.toJson : Option AuthorizationRequest) =
      ((AuthorizationRequestObject.tryFrom o).toOption.map plain <|>
        (fromTree o.toJson).map signed) := by
  have ho : (fromTree o.toJson : Option UntypedObject) = some o :=
    congrArg some (JsonMap.ofMembers_entries o)
  change (((fromTree o.toJson : Option UntypedObject) >>= fun value =>
    (AuthorizationRequestObject.tryFrom value).toOption).map plain <|> _) = _
  rw [ho]
  rfl

/-- A query with a request object is read as a signed request only. -/
theorem toOption_fromQueryParams_signed {q : String} (h : hasRequestObject (queryMap q) = true) :
    (fromQueryParams q).toOption = (fromTree (queryMap q).toJson).map signed := by
  rw [hasRequestObject] at h
  rw [fromQueryParams, if_pos h]
  cases hv : (fromTree (queryMap q).toJson : Option SignedAuthorizationRequest) <;>
    rw [fromValue, hv] <;> rfl

theorem toOption_fromQueryParams_plain {q : String} (h : hasRequestObject (queryMap q) = false) :
    (fromQueryParams q).toOption =
      (AuthorizationRequestObject.tryFrom (queryMap q)).toOption.map plain := by
  rw [hasRequestObject] at h
  rw [fromQueryParams, if_neg (Bool.eq_false_iff.mp h)]
  cases AuthorizationRequestObject.tryFrom (queryMap q) <;> rfl

/-- The two readings agree on all objects but those with a request object that would be accepted as
plain requests without it. -/
theorem classification_iff (ps : List (String × String)) :
    ClassifiedAlike ps ↔ ¬(hasRequestObject (stringMembers ps) = true ∧
      AuthorizationRequestObject.Conforms (stringMembers ps) ∧
      (stringMembers ps).containsKey "client_metadata" = true) := by
  have hq := queryMap_toString ps
  rw [ClassifiedAlike, fromTree_toJson, ← AuthorizationRequestObject.accepted_iff]
  cases hr : hasRequestObject (stringMembers ps) with
  | true =>
    rw [toOption_fromQueryParams_signed (by rw [hq, hr]), hq]
    cases ht : AuthorizationRequestObject.tryFrom (stringMembers ps) with
    | ok o =>
      refine iff_of_false (fun h => ?_) (fun h => h ⟨rfl, o, rfl⟩)
      have h : ((fromTree (stringMembers ps).toJson).map signed) = some (plain o) := h
      obtain ⟨r, -, hr⟩ := Option.map_eq_some_iff.mp h
      exact nomatch hr
    | error e =>
      refine iff_of_true rfl ?_
      rintro ⟨-, o, ho⟩
      exact nomatch ho
  | false =>
    refine iff_of_true ?_ (fun h => Bool.false_ne_true h.1)
    have hn : (fromTree (stringMembers ps).toJson : Option SignedAuthorizationRequest) = none := by
      refine Option.eq_none_iff_forall_ne_some.mpr fun r h => ?_
      have hk := SignedAuthorizationRequest.containsKey_of_fromTree h
      exact Bool.false_ne_true (hr.symm.trans hk)
    rw [toOption_fromQueryParams_plain (by rw [hq, hr]), hq, hn]
    cases AuthorizationRequestObject.tryFrom (stringMembers ps) <;> rfl

/-! ## Further parameters -/

/-- The query is read as the signed request of its own parameters, and as `query₀` is read. -/
structure Unaffected (query query₀ clientId : String) (own : OwnParameters) : Prop where
  signed : ∀ i, own.indirection = some i → fromQueryParams query = .ok (.signed ⟨clientId, i⟩)
  same : (fromQueryParams query).toOption = (fromQueryParams query₀).toOption

variable {q c : String} {own : OwnParameters} {further : List (String × String)}

/-- What is read depends on the members that are not the client id. -/
theorem Carries.toOption_fromQueryParams (h : Carries q c own further) :
    (fromQueryParams q).toOption =
      (RequestIndirection.read (queryMap q).withoutClientId).map fun i => signed ⟨c, i⟩ := by
  have hc : (memberSlot (queryMap q).entries "client_id").required = some c := by
    rw [h.slot_queryMap (by cases own <;> simp [OwnParameters.names])]
    rfl
  rw [toOption_fromQueryParams_signed h.hasRequestObject,
    SignedAuthorizationRequest.fromTree_toJson, hc, Option.bind_some]
  cases RequestIndirection.read (queryMap q).withoutClientId <;> rfl

variable {q₀ : String}

/-- Further parameters do not matter to a request object by reference, and each of them does to one
by value. -/
theorem furtherParameters_iff (h : Carries q c own further) (h₀ : Carries q₀ c own []) :
    Unaffected q q₀ c own ↔ further = [] ∨ ∃ uri method, own = .byReference uri method := by
  have hq := h.toOption_fromQueryParams
  have hq₀ := h₀.toOption_fromQueryParams
  cases own with
  | byReference uri method =>
    rw [h.read_byReference] at hq
    rw [h₀.read_byReference] at hq₀
    refine iff_of_true ⟨fun i hi => ?_, hq.trans hq₀.symm⟩ (.inr ⟨uri, method, rfl⟩)
    rw [hi] at hq
    exact Except.toOption_eq_some_iff.mp hq
  | byValue r =>
    rw [h.read_byValue] at hq
    rw [h₀.read_byValue, if_pos rfl] at hq₀
    by_cases hf : further = []
    · rw [if_pos hf] at hq
      refine iff_of_true ⟨fun i hi => ?_, hq.trans hq₀.symm⟩ (.inl hf)
      cases hi
      exact Except.toOption_eq_some_iff.mp hq
    · rw [if_neg hf] at hq
      refine iff_of_false (fun hu => ?_) ?_
      · rw [hu.same, hq₀] at hq
        exact nomatch hq
      · rintro (h | ⟨_, _, h⟩)
        · exact hf h
        · cases h

end
end AuthorizationRequest

/-! ## A complete request with a request object -/

namespace Sample
open scoped Reference

/-- The members of a plain request, and a reference to a request object. -/
def requestMembers : List (String × String) :=
  [("client_id", "x509_san_dns:verifier.example"), ("client_metadata", "{}"), ("nonce", "n"),
    ("presentation_definition_uri", "https://verifier.example/definition"),
    ("response_mode", "direct_post"), ("response_type", "vp_token"),
    ("response_uri", "https://verifier.example/response"),
    ("request_uri", "https://verifier.example/request")]

theorem not_classifiedAlike_requestMembers :
    ¬AuthorizationRequest.ClassifiedAlike requestMembers := by
  intro h
  rw [AuthorizationRequest.ClassifiedAlike, AuthorizationRequest.toOption_fromQueryParams_signed,
    AuthorizationRequest.queryMap_toString] at h
  · exact nomatch h
  · rw [AuthorizationRequest.queryMap_toString]
    rfl

/-- A request by value. -/
def valueQuery : String := FormUrlencoded.toString [("client_id", "verifier"), ("request", "jwt")]

/-- A request by value, and a state. -/
def stateQuery : String := FormUrlencoded.toString
  [("client_id", "verifier"), ("request", "jwt"), ("state", "s")]

theorem carries_valueQuery :
    AuthorizationRequest.Carries valueQuery "verifier" (.byValue "jwt") [] where
  perm := by
    rw [valueQuery, FormUrlencoded.parse_toString]
    exact .refl _
  apart := List.forall_mem_nil _

theorem carries_stateQuery :
    AuthorizationRequest.Carries stateQuery "verifier" (.byValue "jwt") [("state", "s")] where
  perm := by
    rw [stateQuery, FormUrlencoded.parse_toString]
    exact .refl _
  apart := by simp [Members.Apart, AuthorizationRequest.OwnParameters.names]

theorem unaffected_stateQuery_iff :
    AuthorizationRequest.Unaffected stateQuery valueQuery "verifier" (.byValue "jwt") ↔
      [("state", "s")] = [] ∨ ∃ uri method,
        AuthorizationRequest.OwnParameters.byValue "jwt" = .byReference uri method :=
  AuthorizationRequest.furtherParameters_iff carries_stateQuery carries_valueQuery

theorem not_unaffected_stateQuery :
    AuthorizationRequest.Carries stateQuery "verifier" (.byValue "jwt") [("state", "s")] ∧
      AuthorizationRequest.Carries valueQuery "verifier" (.byValue "jwt") [] ∧
      ¬AuthorizationRequest.Unaffected stateQuery valueQuery "verifier" (.byValue "jwt") := by
  refine ⟨carries_stateQuery, carries_valueQuery, fun h => ?_⟩
  have hs := Except.toOption_eq_some_iff.mpr (h.signed _ rfl)
  rw [AuthorizationRequest.toOption_fromQueryParams_signed carries_stateQuery.hasRequestObject,
    stateQuery, AuthorizationRequest.queryMap_toString] at hs
  exact nomatch hs

end Sample
end OpenID4VP
