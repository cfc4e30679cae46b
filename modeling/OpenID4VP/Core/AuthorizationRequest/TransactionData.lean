import OpenID4VP.Core.AuthorizationRequest.Object

/-! # Transaction data

An item of transaction data is a JSON document in Base64. What it says depends on its type: there
is one type that the crate knows, and every other item keeps its members as they are. -/

namespace OpenID4VP

/-! ## Contents by type -/

inductive DelegateSdJwtTransactionDataFormat
  | «open» | holderBinding
  deriving DecidableEq

instance : Deserialize DelegateSdJwtTransactionDataFormat :=
  ⟨bufferedUnitVariant [("dSD-JWT", .open), ("dSD-JWT+KB", .holderBinding)]⟩
instance : Serialize DelegateSdJwtTransactionDataFormat := ⟨fun
  | .open => .string "dSD-JWT"
  | .holderBinding => .string "dSD-JWT+KB"⟩
instance : LawfulSerde DelegateSdJwtTransactionDataFormat := ⟨fun f => by cases f <;> rfl⟩

structure DelegateSdJwtTransactionData where
  format : DelegateSdJwtTransactionDataFormat
  delegatePayloadDisclosure : String
  delegateDisclosures : Option (List String)
  deriving DecidableEq

namespace DelegateSdJwtTransactionData

def read (ms : List (String × Json)) : Option DelegateSdJwtTransactionData := do
  let f ← mapFields ["format", "delegate_payload_disclosure", "delegate_disclosures"] (.object ms)
  return {
    format := ← (f "format").required
    delegatePayloadDisclosure := ← (f "delegate_payload_disclosure").required
    delegateDisclosures := ← (f "delegate_disclosures").optional }

def write (d : DelegateSdJwtTransactionData) : List (String × Json) :=
  member "format" d.format ++
  member "delegate_payload_disclosure" d.delegatePayloadDisclosure ++
  optionalMember "delegate_disclosures" d.delegateDisclosures

end DelegateSdJwtTransactionData

inductive TransactionDataItemTypeContent
  | delegateSdJwt (d : DelegateSdJwtTransactionData)
  | unknown (type : String) (data : JsonMap)
  deriving DecidableEq

namespace TransactionDataItemTypeContent

def delegateSdJwtType : String := "delegate"

def type : TransactionDataItemTypeContent → String
  | delegateSdJwt _ => delegateSdJwtType
  | unknown type _ => type

/-- The tag of the known type. The contents have been buffered, where a variant may also be given
by its number. -/
def isDelegateTag : Json → Bool
  | .string s => s = delegateSdJwtType
  | .number (.posInt n) => n = 0
  | _ => false

def readDelegate (ms : List (String × Json)) : Option TransactionDataItemTypeContent := do
  let rest ← takeNames ["type"] ms
  if isDelegateTag (← ms.lookup "type") then
    return delegateSdJwt (← DelegateSdJwtTransactionData.read rest)
  else none

def readUnknown (ms : List (String × Json)) : Option TransactionDataItemTypeContent := do
  let rest ← takeNames ["type"] ms
  return unknown (← (memberSlot ms "type").required) (.ofMembers rest)

/-- The known type is tried first. -/
def read (ms : List (String × Json)) : Option TransactionDataItemTypeContent :=
  readDelegate ms <|> readUnknown ms

def write : TransactionDataItemTypeContent → List (String × Json)
  | delegateSdJwt d => member "type" delegateSdJwtType ++ d.write
  | unknown type data => member "type" type ++ data.entries

end TransactionDataItemTypeContent

/-! ## Items -/

structure TransactionDataItem where
  credentialIds : List String
  transactionDataHashesAlg : Option (List HashAlgorithm)
  content : TransactionDataItemTypeContent
  deriving DecidableEq

namespace TransactionDataItem

def type (item : TransactionDataItem) : String := item.content.type

instance : Deserialize TransactionDataItem := ⟨fun
  | .object ms => do
    let rest ← takeNames ["credential_ids", "transaction_data_hashes_alg"] ms
    return {
      credentialIds := ← (memberSlot ms "credential_ids").required
      transactionDataHashesAlg := ← (memberSlot ms "transaction_data_hashes_alg").optional
      content := ← TransactionDataItemTypeContent.read rest }
  | _ => none⟩

instance : Serialize TransactionDataItem := ⟨fun item => .object <|
  member "credential_ids" item.credentialIds ++
  nullableMember "transaction_data_hashes_alg" item.transactionDataHashesAlg ++
  item.content.write⟩

section
variable [SerdeJson] [Base64Url]

def fromBase64urlEncoded (encoded : String) : Except Error TransactionDataItem :=
  match Base64Url.decode encoded with
  | some jsonBytes => orInternal (fromSlice ⟨jsonBytes.toArray⟩)
  | none => throw <| .internal (.library "base64")

def intoBase64urlEncoded (item : TransactionDataItem) : Except Error String :=
  return Base64Url.encode (toJsonString item).toUTF8.data.toList

end
end TransactionDataItem

/-! ## The items of a request -/

variable [SerdeJson] [SerdeJsonPath] [JsonSchema] [UrlCrate] [Base64Url]

namespace AuthorizationRequestObject

def decodeTransactionDataItem (state : Option String) (item : String) :
    Except Error TransactionDataItem :=
  (TransactionDataItem.fromBase64urlEncoded item).mapError fun e =>
    .protocol .invalidTransactionData
      (some s!"The transaction data cannot be parsed: {e.toString}") state none

def getTransactionDataItems (o : AuthorizationRequestObject) :
    Except Error (Option (List TransactionDataItem)) :=
  match o.getTransactionData with
  | some td => do return some (← td.items.mapM (decodeTransactionDataItem o.state))
  | none => return none

end AuthorizationRequestObject
end OpenID4VP
