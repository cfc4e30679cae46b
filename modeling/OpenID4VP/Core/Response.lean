import OpenID4VP.Core.Response.Parameters
import OpenID4VP.Core.PresentationSubmission

/-! # Authorization responses

A response goes to the verifier as a form (`application/x-www-form-urlencoded`), either as the
text of a token or with its parameters as members, where those that are not strings stand as JSON
text. -/

namespace OpenID4VP

/-- A type read from the pairs of a form. -/
def fromPairs [Deserialize α] (ps : List (String × String)) : Option α :=
  fromTree (.object (ps.map fun p => (p.1, .string p.2)))

/-- A pair that is left out when it is absent. -/
def optionalPair (k : String) : Option String → List (String × String)
  | some v => [(k, v)]
  | none => []

/-! ## Transaction data -/

structure TransactionDataResponse where
  transactionDataHashes : TransactionDataHashes
  transactionDataHashesAlg : Option TransactionDataHashesAlg
  deriving DecidableEq

structure JsonTransactionDataResponse where
  transactionDataHashes : String
  transactionDataHashesAlg : Option String
  deriving DecidableEq

namespace JsonTransactionDataResponse

instance : Deserialize JsonTransactionDataResponse := ⟨fun x => do
  let f ← structFields ["transaction_data_hashes", "transaction_data_hashes_alg"] x
  return {
    transactionDataHashes := ← (f "transaction_data_hashes").required
    transactionDataHashesAlg := ← (f "transaction_data_hashes_alg").optional }⟩

def pairs (value : JsonTransactionDataResponse) : List (String × String) :=
  [("transaction_data_hashes", value.transactionDataHashes)] ++
  optionalPair "transaction_data_hashes_alg" value.transactionDataHashesAlg

def tryFrom [SerdeJson] (value : TransactionDataResponse) :
    Except Anyhow JsonTransactionDataResponse :=
  return {
    transactionDataHashes := toJsonString value.transactionDataHashes
    transactionDataHashesAlg := value.transactionDataHashesAlg.map fun alg => toJsonString alg.alg }

end JsonTransactionDataResponse

namespace TransactionDataResponse

def readAlg : Option String → Except Anyhow (Option TransactionDataHashesAlg)
  | some alg => do
    let hashAlg ← (HashAlgorithm.tryFrom alg).mapError fun _ =>
      .msg "failed to convert transaction_data_hashes_alg to HashAlgorithm"
    return some ⟨hashAlg⟩
  | none => return none

def tryFrom [SerdeJson] (value : JsonTransactionDataResponse) :
    Except Anyhow TransactionDataResponse := do
  let transactionDataHashes ← (fromStr value.transactionDataHashes).mapError fun _ =>
    .msg "failed to serialize transaction_data_hashes"
  return { transactionDataHashes
           transactionDataHashesAlg := ← readAlg value.transactionDataHashesAlg }

end TransactionDataResponse

/-! ## Responses with their parameters as members -/

structure JsonEncodedAuthorizationResponse where
  vpToken : String
  presentationSubmission : Option String
  idToken : Option String
  state : Option String
  transactionDataResponse : Option JsonTransactionDataResponse
  deriving DecidableEq

namespace JsonEncodedAuthorizationResponse

-- the members that no field takes are tried as transaction data
instance : Deserialize JsonEncodedAuthorizationResponse := ⟨fun
  | .object ms => do
    let rest ← takeNames ["vp_token", "presentation_submission", "id_token", "state"] ms
    return {
      vpToken := ← (memberSlot ms "vp_token").required
      presentationSubmission := ← (memberSlot ms "presentation_submission").optional
      idToken := ← (memberSlot ms "id_token").optional
      state := ← (memberSlot ms "state").optional
      transactionDataResponse := fromTree (.object rest) }
  | _ => none⟩

def pairs (value : JsonEncodedAuthorizationResponse) : List (String × String) :=
  [("vp_token", value.vpToken)] ++
  optionalPair "presentation_submission" value.presentationSubmission ++
  optionalPair "id_token" value.idToken ++
  optionalPair "state" value.state ++
  (value.transactionDataResponse.map JsonTransactionDataResponse.pairs).getD []

end JsonEncodedAuthorizationResponse

section
variable [SerdeJson] [SerdeJsonPath] [UuidCrate] [SsiJwt]

structure UnencodedAuthorizationResponse where
  vpToken : VpToken
  presentationSubmission : Option PresentationSubmission
  idToken : Option IdToken
  state : Option String
  transactionDataResponse : Option TransactionDataResponse

def UnencodedAuthorizationResponse.tryFrom (value : JsonEncodedAuthorizationResponse) :
    Except Anyhow UnencodedAuthorizationResponse := do
  let vpToken ← (fromStr value.vpToken).mapError fun _ => .msg "failed to decode vp token"
  let presentationSubmission ← value.presentationSubmission.mapM fromStr
  let idToken ← value.idToken.mapM fun jwt =>
    parsingError (some (IdToken.tryFromString jwt))
  let transactionDataResponse ← value.transactionDataResponse.mapM TransactionDataResponse.tryFrom
  return { vpToken, presentationSubmission, idToken, state := value.state, transactionDataResponse }

def JsonEncodedAuthorizationResponse.tryFrom (value : UnencodedAuthorizationResponse) :
    Except Anyhow JsonEncodedAuthorizationResponse := do
  return {
    vpToken := value.vpToken.formatToString
    presentationSubmission := value.presentationSubmission.map toJsonString
    idToken := value.idToken.map IdToken.jwt
    state := value.state
    transactionDataResponse :=
      ← value.transactionDataResponse.mapM JsonTransactionDataResponse.tryFrom }

/-- The response as a form. -/
def UnencodedAuthorizationResponse.intoXWwwFormUrlencoded [FormUrlencoded]
    (r : UnencodedAuthorizationResponse) : Except Anyhow String := do
  return FormUrlencoded.toString (← JsonEncodedAuthorizationResponse.tryFrom r).pairs

/-! ## Responses as a token -/

/-- A response in a JWT or a JWE. -/
structure JwtAuthorizationResponse where
  response : String
  deriving DecidableEq

namespace JwtAuthorizationResponse

instance : Deserialize JwtAuthorizationResponse := ⟨fun x => do
  let f ← structFields ["response"] x
  return { response := ← (f "response").required }⟩

def pairs (r : JwtAuthorizationResponse) : List (String × String) := [("response", r.response)]

/-- The response as a form. -/
def intoXWwwFormUrlencoded [FormUrlencoded] (r : JwtAuthorizationResponse) :
    Except Anyhow String :=
  return FormUrlencoded.toString r.pairs

end JwtAuthorizationResponse

/-- Where a verifier sends the user after a response was posted. -/
structure PostRedirection [UrlCrate] where
  redirectUri : Url

instance [UrlCrate] : Deserialize PostRedirection := ⟨fun x => do
  let f ← structFields ["redirect_uri"] x
  return { redirectUri := ← (f "redirect_uri").required }⟩

/-! ## Responses -/

inductive AuthorizationResponse
  | unencoded (r : UnencodedAuthorizationResponse)
  | jwt (r : JwtAuthorizationResponse)

/-- A response read from a form. The token is tried first. -/
def AuthorizationResponse.fromXWwwFormUrlencoded [FormUrlencoded] (body : String) :
    Except Anyhow AuthorizationResponse :=
  let ps := FormUrlencoded.parse body
  match fromPairs ps with
  | some r => return .jwt r
  | none =>
    match fromPairs ps with
    | some r => do return .unencoded (← UnencodedAuthorizationResponse.tryFrom r)
    | none => throw (.msg "failed to construct flat map")

end
end OpenID4VP
