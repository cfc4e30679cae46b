import OpenID4VP.Core.AuthorizationRequest.Parameters

/-! # Parameters of authorization responses -/

namespace OpenID4VP

/-! ## ID tokens -/

section
variable [SsiJwt]

structure IdTokenBody where
  issuer : String
  subject : String
  audience : String
  nonce : String
  subJwk : Option JWK
  issuedAt : Option Int64
  expirationTime : Int64
  other : Option JsonMap

namespace IdTokenBody

instance : Deserialize IdTokenBody := ⟨fun
  | .object ms => do
    let rest ← takeNames ["iss", "sub", "aud", "nonce", "sub_jwk", "iat", "exp"] ms
    return {
      issuer := ← (memberSlot ms "iss").required
      subject := ← (memberSlot ms "sub").required
      audience := ← (memberSlot ms "aud").required
      nonce := ← (memberSlot ms "nonce").required
      subJwk := ← (memberSlot ms "sub_jwk").optional
      issuedAt := ← (memberSlot ms "iat").optional
      expirationTime := ← (memberSlot ms "exp").required
      other := some (.ofMembers rest) }
  | _ => none⟩

/-- The claims of a token, whatever its signature. -/
def decodeUnverified (jwt : String) : Except Anyhow IdTokenBody :=
  match (SsiJwt.decodeUnverified jwt).bind fromTree with
  | some body => .ok body
  | none => .error (.library "ssi")

end IdTokenBody

/-- An ID token, kept as it was received next to the claims in it. -/
structure IdToken where
  raw : String
  parsed : IdTokenBody
  decoded : IdTokenBody.decodeUnverified raw = .ok parsed

namespace IdToken

def jwt (t : IdToken) : String := t.raw

def tryFromString (raw : String) : Except Anyhow IdToken :=
  match h : IdTokenBody.decodeUnverified raw with
  | .ok parsed => .ok ⟨raw, parsed, h⟩
  | .error e => .error e

def tryFrom : Json → Except Anyhow IdToken
  | .string raw => tryFromString raw
  | _ => .error (.msg "IdToken must be json string")

instance : TypedParameter IdToken := ⟨"id_token", tryFrom, fun t => .string t.raw⟩
instance : Deserialize IdToken := ⟨fun x => do (tryFromString (← fromTree x)).toOption⟩
instance : Serialize IdToken := ⟨fun t => toTree t.raw⟩

theorem tryFromString_jwt (t : IdToken) : tryFromString t.jwt = .ok t := by
  obtain ⟨raw, parsed, h⟩ := t
  rw [jwt, tryFromString]
  split
  · next parsed' h' =>
    obtain rfl : parsed = parsed' := Except.ok.inj (h.symm.trans h')
    rfl
  · next h' => exact nomatch h.symm.trans h'

instance : LawfulSerde IdToken :=
  ⟨fun t => by
    change (tryFromString t.jwt).toOption = some t
    rw [tryFromString_jwt]
    rfl⟩

end IdToken
end

/-! ## Presentation tokens -/

inductive VpTokenItem
  | string (s : String)
  | jsonObject (m : JsonMap)
  deriving DecidableEq

namespace VpTokenItem

instance : Deserialize VpTokenItem :=
  ⟨fun x => (fromTree x).map string <|> (fromTree x).map jsonObject⟩

instance : Serialize VpTokenItem := ⟨fun
  | string s => toTree s
  | jsonObject m => toTree m⟩

instance : WritesValues VpTokenItem := ⟨fun
  | string _ => rfl
  | jsonObject m => m.wf⟩

instance : LawfulSerde VpTokenItem :=
  ⟨fun
    | string _ => rfl
    | jsonObject m => by
      change (fromTree (toTree m)).map jsonObject = _
      rw [LawfulSerde.fromTree_toTree]
      rfl⟩

theorem fromTree_eq_string_iff {x : Json} {s : String} :
    fromTree x = some (string s) ↔ x = .string s := by
  constructor
  · intro h
    cases x with
    | string s' =>
      obtain rfl : s' = s := string.inj (Option.some.inj h)
      rfl
    | object ms => exact nomatch Option.some.inj h
    | _ => exact nomatch h
  · rintro rfl
    rfl

end VpTokenItem

structure VpToken where
  items : List VpTokenItem
  deriving DecidableEq

namespace VpToken

instance : Serialize VpToken := ⟨fun t => writeOneOrMany t.items⟩
instance : Deserialize VpToken := ⟨fun x => (readOneOrMany x).map mk⟩

instance : WritesValues VpToken := ⟨fun t => wellFormed_writeOneOrMany t.items⟩

instance : LawfulSerde VpToken :=
  ⟨fun t => by
    change (readOneOrMany (writeOneOrMany t.items)).map mk = some t
    rw [readOneOrMany_writeOneOrMany fun _ => rfl]
    rfl⟩

instance : TypedParameter VpToken := ⟨"vp_token", fromValue, toTree⟩

/-- The text of the token in a form. A string alone stands there without its quotation marks. -/
def formatToString [SerdeJson] (t : VpToken) : String :=
  let vpToken := toJsonString t
  match t.items with
  | [.string _] => trimMatches '"' vpToken
  | _ => vpToken

end VpToken

/-! ## Hashes of transaction data -/

structure TransactionDataHashes where
  hashes : List String
  deriving DecidableEq

instance : Deserialize TransactionDataHashes := ⟨fun x => (fromTree x).map .mk⟩
instance : Serialize TransactionDataHashes := ⟨fun h => toTree h.hashes⟩
instance : WritesValues TransactionDataHashes := ⟨fun h => WritesValues.wellFormed h.hashes⟩
instance : TypedParameter TransactionDataHashes :=
  .via "transaction_data_hashes" TransactionDataHashes.mk TransactionDataHashes.hashes

structure TransactionDataHashesAlg where
  alg : HashAlgorithm
  deriving DecidableEq

instance : Serialize TransactionDataHashesAlg := ⟨fun a => toTree a.alg⟩
instance : TypedParameter TransactionDataHashesAlg :=
  .via "transaction_data_hashes_alg" TransactionDataHashesAlg.mk TransactionDataHashesAlg.alg

end OpenID4VP
