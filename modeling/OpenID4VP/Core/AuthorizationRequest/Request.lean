import OpenID4VP.Core.AuthorizationRequest.Object

/-! # Authorization requests

A request comes as a URL: its parameters are the form in the query. It is signed when it has a
request object by value (`request`) or by reference (`request_uri`), and plain otherwise. -/

namespace OpenID4VP

variable [UrlCrate]

structure RequestReference where
  requestUri : Url
  requestUriMethod : Option HttpMethodForAuth
  deriving DecidableEq

instance : Deserialize RequestReference := ⟨fun x => do
  let f ← structFields ["request_uri", "request_uri_method"] x
  return {
    requestUri := ← (f "request_uri").required
    requestUriMethod := ← (f "request_uri_method").optional }⟩

/-- A request object, passed by value or by reference. -/
inductive RequestIndirection
  | byValue (jwt : String)
  | byReference (reference : RequestReference)
  deriving DecidableEq

/-- The indirection in the members of a request that are not its own. A request object by value has
to be the only one of them. -/
def RequestIndirection.read (ms : List (String × Json)) : Option RequestIndirection :=
  match ms with
  | [("request", .string jwt)] => some (byValue jwt)
  | ms => (fromTree (.object ms)).map byReference

structure SignedAuthorizationRequest where
  clientId : String
  requestIndirection : RequestIndirection
  deriving DecidableEq

instance : Deserialize SignedAuthorizationRequest := ⟨fun
  | .object ms => do
    let rest ← takeNames ["client_id"] ms
    return {
      clientId := ← (memberSlot ms "client_id").required
      requestIndirection := ← RequestIndirection.read rest }
  | _ => none⟩

namespace SignedAuthorizationRequest

def methodName : HttpMethodForAuth → String
  | .get => "get"
  | .post => "post"

/-- The request as a form. -/
def pairs (r : SignedAuthorizationRequest) : List (String × String) :=
  ("client_id", r.clientId) :: match r.requestIndirection with
    | .byValue jwt => [("request", jwt)]
    | .byReference ⟨uri, none⟩ => [("request_uri", UrlCrate.toString uri)]
    | .byReference ⟨uri, some method⟩ =>
      [("request_uri", UrlCrate.toString uri), ("request_uri_method", methodName method)]

def intoUrl [FormUrlencoded] (r : SignedAuthorizationRequest) (authorizationEndpoint : Url) : Url :=
  UrlCrate.setQuery authorizationEndpoint (FormUrlencoded.toString r.pairs)

end SignedAuthorizationRequest

instance : NeverNull HttpMethodForAuth := ⟨fun m => by cases m <;> nofun⟩

namespace RequestIndirection

/-- The members of a request that an indirection adds. -/
def slots : RequestIndirection → List (String × Option Json)
  | byValue jwt => [("request", some (.string jwt))]
  | byReference r => [("request_uri", some (toTree r.requestUri)),
    ("request_uri_method", r.requestUriMethod.map toTree)]

theorem fromTree_slots (r : RequestReference) :
    fromTree (.object (Members.present (byReference r).slots)) = some r := by
  have hu : (slotOf (byReference r).slots "request_uri").required = some r.requestUri :=
    LawfulSerde.fromTree_toTree r.requestUri
  have hm : (slotOf (byReference r).slots "request_uri_method").optional =
      some r.requestUriMethod := Slot.optional_ofOption r.requestUriMethod
  have hn : (Members.keys (byReference r).slots).Nodup :=
    (by decide : ["request_uri", "request_uri_method"].Nodup)
  change (structFields _ _ >>= fun f => _) = _
  rw [structFields_present _ hn, Option.bind_eq_bind, Option.bind_some, hu, hm]
  rfl

/-- An indirection is read from the members it adds. -/
theorem read_slots (i : RequestIndirection) : read (Members.present i.slots) = some i := by
  cases i with
  | byValue jwt => rfl
  | byReference r =>
    have hr : read (Members.present (byReference r).slots) =
        (fromTree (.object (Members.present (byReference r).slots))).map byReference := by
      obtain ⟨uri, _ | method⟩ := r <;> rfl
    rw [hr, fromTree_slots]
    rfl

end RequestIndirection

namespace SignedAuthorizationRequest

/-- The object that the form of a request is read as. -/
def members (r : SignedAuthorizationRequest) : List (String × Json) :=
  ("client_id", .string r.clientId) :: Members.present r.requestIndirection.slots

theorem map_pairs (r : SignedAuthorizationRequest) :
    r.pairs.map (fun p => (p.1, Json.string p.2)) = r.members := by
  obtain ⟨clientId, jwt | ⟨uri, _ | _ | _⟩⟩ := r <;> rfl

theorem fromTree_members (r : SignedAuthorizationRequest) :
    fromTree (.object r.members) = some r := by
  have hc : (memberSlot r.members "client_id").required = some r.clientId := rfl
  have ht : takeNames ["client_id"] r.members =
      some (Members.present r.requestIndirection.slots) := by
    obtain ⟨clientId, jwt | ⟨uri, _ | _ | _⟩⟩ := r <;> rfl
  change (takeNames ["client_id"] r.members >>= fun rest => _) = _
  rw [ht, Option.bind_eq_bind, Option.bind_some, hc, RequestIndirection.read_slots]
  rfl

/-- The query of the request is read as its members. -/
theorem ofMembers_members (r : SignedAuthorizationRequest) :
    (JsonMap.ofMembers r.members).entries = r.members := by
  obtain ⟨clientId, jwt | ⟨uri, _ | _ | _⟩⟩ := r <;> rfl

theorem containsKey_members (r : SignedAuthorizationRequest) :
    ((JsonMap.ofMembers r.members).containsKey "request" ||
      (JsonMap.ofMembers r.members).containsKey "request_uri") = true := by
  obtain ⟨clientId, jwt | ⟨uri, _ | _ | _⟩⟩ := r <;> rfl

end SignedAuthorizationRequest

variable [SerdeJson] [SerdeJsonPath] [JsonSchema] [Base64Url] [FormUrlencoded]

namespace AuthorizationRequestObject

def intoUrl (o : AuthorizationRequestObject) (authorizationEndpoint : Url) : Url :=
  UrlCrate.setQuery authorizationEndpoint (FormUrlencoded.toString o.inner.flattenForForm)

end AuthorizationRequestObject

inductive AuthorizationRequest
  | plain (request : AuthorizationRequestObject)
  | signed (request : SignedAuthorizationRequest)

instance : Deserialize AuthorizationRequestObject :=
  ⟨fun x => do (AuthorizationRequestObject.tryFrom (← fromTree x)).toOption⟩

-- both variants are untagged, and the first one that can be read is taken
instance : Deserialize AuthorizationRequest := ⟨fun x =>
  (fromTree x).map .plain <|> (fromTree x).map .signed⟩

namespace AuthorizationRequest

/-- The parameters of a query. Of the pairs with one name the last one counts. -/
def queryMap (queryParams : String) : UntypedObject :=
  .ofMembers ((FormUrlencoded.parse queryParams).map fun p => (p.1, .string p.2))

def fromQueryParams (queryParams : String) : Except Error AuthorizationRequest :=
  let map := queryMap queryParams
  if map.containsKey "request" || map.containsKey "request_uri" then do
    return signed (← (fromValue map.toJson).mapError (Error.protocolInvalidReq
      "unable to parse Signed Authorization Request from query params" none).addSource)
  else do
    return plain (← AuthorizationRequestObject.tryFrom map)

def fromUrl (url authorizationEndpoint : Url) : Except Error AuthorizationRequest := do
  let query ← match UrlCrate.query url with
    | some query => pure query
    | none =>
      throw <| .protocolInvalidReq "missing query params in Authorization Request uri" none
  let fnd := UrlCrate.authority url
  let exp := UrlCrate.authority authorizationEndpoint
  ensure (fnd = exp) (.protocolInvalidReq ("unexpected authorization_endpoint authority, " ++
    s!"expected '{exp}', received '{fnd}'") none)
  let fnd := UrlCrate.path url
  let exp := UrlCrate.path authorizationEndpoint
  ensure (fnd = exp) (.protocolInvalidReq ("unexpected authorization_endpoint path, " ++
    s!"expected '{exp}', received '{fnd}'") none)
  fromQueryParams query

/-- A URL that was made from an endpoint is read as its form. -/
theorem fromUrl_setQuery (e : Url) (ps : List (String × String)) :
    fromUrl (UrlCrate.setQuery e (FormUrlencoded.toString ps)) e =
      fromQueryParams (FormUrlencoded.toString ps) := by
  have hq := UrlCrate.query_setQuery e _ (FormUrlencoded.isFormChar_toString ps)
  rw [fromUrl, hq, UrlCrate.authority_setQuery, UrlCrate.path_setQuery]
  simp [ensure]

/-- A signed request is read from its URL. -/
theorem fromUrl_intoUrl_signed (r : SignedAuthorizationRequest) (e : Url) :
    fromUrl (r.intoUrl e) e = .ok (.signed r) := by
  have hm : queryMap (FormUrlencoded.toString r.pairs) = .ofMembers r.members := by
    rw [queryMap, FormUrlencoded.parse_toString, r.map_pairs]
  have hv : fromValue (JsonMap.ofMembers r.members).toJson = .ok r := by
    rw [fromValue_eq_ok_iff, JsonMap.toJson, r.ofMembers_members, r.fromTree_members]
  rw [SignedAuthorizationRequest.intoUrl, fromUrl_setQuery, fromQueryParams, hm,
    if_pos r.containsKey_members, hv]
  rfl

end AuthorizationRequest
end OpenID4VP
