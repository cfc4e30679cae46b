import OpenID4VP.Lib.Serde
import OpenID4VP.Lib.Json.Text
import OpenID4VP.Lib.Form
import OpenID4VP.Lib.Split

/-! # Libraries the crate is built on

Each library is a class: the functions the code calls, and as laws the documented behaviour the
code relies on. -/

namespace OpenID4VP

/-- A character that the text of a form is made of. -/
def isFormChar (c : Char) : Bool :=
  c.isAlphanum || c ∈ ['*', '-', '.', '_', '+', '%', '=', '&']

/-- JSON text: documents are read as trees, and a printed tree is read back. A string is printed
with the escapes it needs, and outside of its strings a document has no backslash. -/
class SerdeJson where
  parse : String → Option Json
  print : Json → String
  parse_print : ∀ x, parse (print x) = some x
  print_string : ∀ s, print (.string s) = String.ofList (Json.Text.quote s.toList)
  openQuote_of_parse : ∀ s x, parse s = some x → Json.Text.hasString x = true →
    Json.Text.OpenQuote s.toList

/-- JSONPath queries, which select nodes of a value in document order. -/
class SerdeJsonPath where
  JsonPath : Type
  decEq : DecidableEq JsonPath
  parse : String → Option JsonPath
  toString : JsonPath → String
  parse_toString : ∀ p, parse (toString p) = some p
  query : JsonPath → Json → List Json
  /-- The path `$[i]`. -/
  index : Nat → JsonPath
  parse_index : ∀ i, parse ("$[" ++ Nat.repr i ++ "]") = some (index i)
  query_index : ∀ i xs, query (index i) (.array xs) = xs[i]?.toList

export SerdeJsonPath (JsonPath)

instance [SerdeJsonPath] : DecidableEq JsonPath := SerdeJsonPath.decEq
instance [SerdeJsonPath] : Deserialize JsonPath :=
  ⟨fun x => do SerdeJsonPath.parse (← fromTree x)⟩
instance [SerdeJsonPath] : Serialize JsonPath := ⟨fun p => toTree (SerdeJsonPath.toString p)⟩
instance [SerdeJsonPath] : LawfulSerde JsonPath :=
  ⟨fun p => SerdeJsonPath.parse_toString p⟩

/-- JSON Schema: which values compile as a schema, and which values a schema admits. -/
class JsonSchema where
  compiles : Json → Bool
  isValid : Json → Json → Bool

/-- Points in time and spans of time. The sum of the two may be out of range. -/
class TimeCrate where
  OffsetDateTime : Type
  Duration : Type
  add : OffsetDateTime → Duration → Option OffsetDateTime
  unixTimestamp : OffsetDateTime → Int64

export TimeCrate (OffsetDateTime Duration)

/-- Time in nanoseconds since the epoch. The timestamp of a point in time has its whole seconds, and
a sum is later by all the nanoseconds of the span. -/
class TimeNanoseconds [TimeCrate] where
  unixTimestampNanos : OffsetDateTime → Int
  wholeNanoseconds : Duration → Int
  toInt_unixTimestamp : ∀ t,
    (TimeCrate.unixTimestamp t).toInt = unixTimestampNanos t / 1000000000
  unixTimestampNanos_add : ∀ now d t, TimeCrate.add now d = some t →
    unixTimestampNanos t = unixTimestampNanos now + wholeNanoseconds d

class UuidCrate where
  Uuid : Type
  parse : String → Option Uuid
  toString : Uuid → String
  parse_toString : ∀ u, parse (toString u) = some u
  nil : Uuid

export UuidCrate (Uuid)

instance [UuidCrate] : Deserialize Uuid := ⟨fun x => do UuidCrate.parse (← fromTree x)⟩
instance [UuidCrate] : Serialize Uuid := ⟨fun u => toTree (UuidCrate.toString u)⟩
instance [UuidCrate] : LawfulSerde Uuid := ⟨fun u => UuidCrate.parse_toString u⟩

/-- The origin of a URL. Every reading of a URL without a host gives a new, unique one. -/
inductive Origin
  | tuple (scheme host : String) (port : UInt16)
  | unique

/-- URLs. A query made of the characters of a form is kept as it is set. -/
class UrlCrate where
  Url : Type
  decEq : DecidableEq Url
  parse : String → Option Url
  toString : Url → String
  parse_toString : ∀ u, parse (toString u) = some u
  authority : Url → String
  path : Url → String
  query : Url → Option String
  setQuery : Url → String → Url
  query_setQuery : ∀ u q, q.toList.all isFormChar = true → query (setQuery u q) = some q
  authority_setQuery : ∀ u q, authority (setQuery u q) = authority u
  path_setQuery : ∀ u q, path (setQuery u q) = path u
  origin : Url → Origin
  unicodeSerialization : Origin → String

export UrlCrate (Url)

instance [UrlCrate] : DecidableEq Url := UrlCrate.decEq
instance [UrlCrate] : Deserialize Url := ⟨fun x => do UrlCrate.parse (← fromTree x)⟩
instance [UrlCrate] : Serialize Url := ⟨fun u => toTree (UrlCrate.toString u)⟩
instance [UrlCrate] : LawfulSerde Url := ⟨fun u => UrlCrate.parse_toString u⟩
instance [UrlCrate] : WritesValues Url := ⟨fun _ => rfl⟩

/-- Fragments of URLs. A fragment made of the characters of a form is kept as it is set. -/
class UrlFragment [UrlCrate] where
  fragment : Url → Option String
  setFragment : Url → String → Url
  fragment_setFragment : ∀ u f, f.toList.all isFormChar = true →
    fragment (setFragment u f) = some f

/-- The schemes of URLs that have a host, with their ports. -/
def defaultPort (scheme : String) : Option UInt16 :=
  [("http", 80), ("https", 443), ("ws", 80), ("wss", 443), ("ftp", 21)].lookup scheme

/-- The parts of URLs that their origins are made of. A host is a domain in ASCII or an address, and
has a form in Unicode. A port is given if it is not that of the scheme. -/
class UrlParts [UrlCrate] where
  scheme : Url → String
  host : Url → String
  port : Url → Option UInt16
  unicodeHost : String → String

section
variable [UrlCrate] [UrlParts]
open UrlParts

def portOrKnownDefault (u : Url) : Option UInt16 := (port u).or (defaultPort (scheme u))

/-- The text `scheme://host:port`, with the host in Unicode. -/
def originText (scheme host : String) (port : Option UInt16) : String :=
  scheme ++ "://" ++ unicodeHost host ++
    match port with
    | some p => ":" ++ Nat.repr p.toNat
    | none => ""

/-- The URL that the origin of a URL is taken from: itself, or the one in the path of a `blob`
URL. -/
inductive OriginUrl : Url → Url → Prop
  | own (h : (defaultPort (scheme u)).isSome = true) : OriginUrl u u
  | blob (h : scheme u = "blob") (hp : UrlCrate.parse (UrlCrate.path u) = some v)
    (hv : OriginUrl v w) : OriginUrl u w

/-- Origins of URLs and their texts. The text of a scheme that has hosts, with the host of a URL, is
a URL of that host. -/
class UrlOrigins : Prop where
  origin_eq_tuple : ∀ u v p, OriginUrl u v → portOrKnownDefault v = some p →
    UrlCrate.origin u = .tuple (scheme v) (host v) p
  origin_eq_unique : ∀ u, (¬∃ v, OriginUrl u v) → UrlCrate.origin u = .unique
  unicodeSerialization_tuple : ∀ scheme host p,
    UrlCrate.unicodeSerialization (.tuple scheme host p) =
      originText scheme host (if defaultPort scheme = some p then none else some p)
  unicodeSerialization_unique : UrlCrate.unicodeSerialization .unique = "null"
  parse_null : UrlCrate.parse "null" = none
  parse_originText : ∀ u port, (defaultPort (scheme u)).isSome = true →
    ∃ v, UrlCrate.parse (originText (scheme u) (host u) port) = some v ∧ scheme v = scheme u ∧
      host v = host u ∧ portOrKnownDefault v = port.or (defaultPort (scheme u))

end

/-- Forms (`application/x-www-form-urlencoded`): lists of pairs as text. -/
class FormUrlencoded where
  toString : List (String × String) → String
  parse : String → List (String × String)
  parse_toString : ∀ ps, parse (toString ps) = ps
  isFormChar_toString : ∀ ps, (toString ps).toList.all isFormChar = true
  byteSerialize : String → String

/-- The bytes of a string are serialized as a component of a form. -/
class FormBytes [FormUrlencoded] : Prop where
  byteSerialize_eq : ∀ s, FormUrlencoded.byteSerialize s = String.ofList (Form.printComponent s)

/-- The texts that are URIs of HTTP requests. -/
class HttpCrate where
  isUri : String → Bool

/-- The text of a status code, with its reason if it has one. -/
class HttpStatus where
  statusText : UInt16 → String

/-- JSON web tokens: the parts of a token, the claims in it as they stand there, and keys. -/
class SsiJwt where
  /-- The header, the payload and the signature of a token, as its text has them. -/
  splitJws : String → Option (String × String × String)
  decodeUnverified : String → Option Json
  JWK : Type
  readJwk : Json → Option JWK

export SsiJwt (JWK)

instance [SsiJwt] : Deserialize JWK := ⟨SsiJwt.readJwk⟩

/-- Keys as `==` compares them, and the claims of tokens whose signature a key verifies. -/
class SsiKeys [SsiJwt] where
  sameKey : JWK → JWK → Bool
  decodeVerify : String → JWK → Option Json

/-- Decentralized identifiers: the texts that are one. -/
class SsiDids where
  isDid : String → Bool

/-- Base64 in the URL alphabet, without padding. -/
class Base64Url where
  encode : List UInt8 → String
  decode : String → Option (List UInt8)
  decode_encode : ∀ bs, decode (encode bs) = some bs

/-- No padding is written. -/
class Base64NoPad [Base64Url] : Prop where
  not_mem_encode : ∀ bs, '=' ∉ (Base64Url.encode bs).toList

/-- Every text of Base64 is the one that its bytes are written as, in letters, digits, `-` and
`_`. -/
class Base64Canonical [Base64Url] : Prop where
  encode_of_decode : ∀ s bs, Base64Url.decode s = some bs → Base64Url.encode bs = s
  isDigit_encode : ∀ bs, ∀ c ∈ (Base64Url.encode bs).toList,
    (c.isAlphanum || c == '-' || c == '_') = true

section
variable [SerdeJson] [Base64Url]

/-- The part of a token that is a JSON document: the bytes of its text in Base64. -/
def tokenPart (x : Json) : String := Base64Url.encode (SerdeJson.print x).toUTF8.data.toList

/-- The JSON document in a part of a token. -/
def readTokenPart (part : String) : Option Json := do
  let bytes ← Base64Url.decode part
  let text ← String.fromUTF8? ⟨bytes.toArray⟩
  SerdeJson.parse text

theorem readTokenPart_tokenPart (x : Json) : readTokenPart (tokenPart x) = some x := by
  have hu : String.fromUTF8? ⟨(SerdeJson.print x).toUTF8.data.toList.toArray⟩ =
      some (SerdeJson.print x) := dif_pos (SerdeJson.print x).isValidUTF8
  rw [readTokenPart, tokenPart, Base64Url.decode_encode, Option.bind_eq_bind, Option.bind_some,
    hu]
  exact SerdeJson.parse_print x

/-- A token in its compact form. -/
def compactToken (header claims : Json) (signature : List UInt8) : String :=
  tokenPart header ++ "." ++ tokenPart claims ++ "." ++ Base64Url.encode signature

/-- Compact tokens are split at their dots. They are decoded if their header can be read, which has
to name a registered algorithm. -/
class SsiJws [SsiJwt] where
  readsHeader : Json → Bool
  splitJws_compactToken : ∀ header claims signature,
    SsiJwt.splitJws (compactToken header claims signature) =
      some (tokenPart header, tokenPart claims, Base64Url.encode signature)
  decodeUnverified_compactToken : ∀ header claims signature,
    SsiJwt.decodeUnverified (compactToken header claims signature) =
      if readsHeader header then some claims else none

end

/-- A token is its three parts, with dots between them. -/
class SsiJwsParts [SsiJwt] : Prop where
  eq_of_splitJws : ∀ jwt h b s, SsiJwt.splitJws jwt = some (h, b, s) →
    jwt = h ++ "." ++ b ++ "." ++ s

/-- Certificates, and Base64 in the standard alphabet, with padding. -/
class X509Cert where
  Certificate : Type
  toDer : Certificate → Option (List UInt8)
  encodeStandard : List UInt8 → String

export X509Cert (Certificate)

class Sha256 where
  digest : List UInt8 → List UInt8

/-- A name in a certificate. -/
inductive GeneralName
  | dnsName (name : String)
  | other

def GeneralName.dns? : GeneralName → Option String
  | dnsName name => some name
  | other => none

/-- What is read in certificates: a certificate in its DER, the names in each of its extensions for
alternative names of the subject, if that can be read, and its key. The standard alphabet of Base64
is decoded without padding. -/
class X509Read [X509Cert] where
  fromDer : List UInt8 → Option Certificate
  subjectAltNames : Certificate → List (Option (List GeneralName))
  SubjectPublicKeyInfo : Type
  subjectPublicKeyInfo : Certificate → SubjectPublicKeyInfo
  decodeStandardNoPad : String → Option (List UInt8)

export X509Read (SubjectPublicKeyInfo)

section
variable [X509Cert] [X509Read]

/-- What is written of a certificate is read back. Base64 in the standard alphabet is read back
without the padding at its end. -/
class X509Codec : Prop where
  fromDer_toDer : ∀ certificate der, X509Cert.toDer certificate = some der →
    X509Read.fromDer der = some certificate
  decodeStandard_encodeStandard : ∀ bs,
    X509Read.decodeStandardNoPad (trimEndMatches '=' (X509Cert.encodeStandard bs)) = some bs

/-- Keys and signatures of the curve P-256. -/
class P256 where
  VerifyingKey : Type
  Signature : Type
  verifyingKey : SubjectPublicKeyInfo → Option VerifyingKey
  signature : List UInt8 → Option Signature
  verify : VerifyingKey → List UInt8 → Signature → Bool

end

end OpenID4VP
