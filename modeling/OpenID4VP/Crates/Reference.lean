import OpenID4VP.Crates
import OpenID4VP.Lib.Json.RoundTrip
import OpenID4VP.Lib.Form
import OpenID4VP.Lib.Base64

/-! # Reference implementations

Small implementations of the libraries that keep the laws, so that the laws are known to hold
together and results can be run on concrete inputs. They agree with the libraries on JSON text, on
the JSONPath queries made of indices (`$[0][1]`), on the schemas `true`, `false` and
`{"const": …}`, on hyphenated UUIDs, on URLs in their normal form with ASCII domains as hosts, on
forms of UTF-8 text, on Base64, on symmetric keys and, for what is read in a certificate and for
digests, on one certificate. -/

namespace OpenID4VP.Reference

/-! ## JSON -/

scoped instance serdeJson : SerdeJson where
  parse s := Json.Text.parse s.toList
  print x := String.ofList (Json.Text.print x)
  parse_print x := by simp [Json.Text.parse_print]
  print_string _ := rfl
  openQuote_of_parse _ _ := Json.Text.openQuote_of_parse

/-! ## JSONPath -/

/-- The indices of `[i][j]…`. -/
def indices : Nat → List Char → Option (List Nat)
  | _, [] => some []
  | n + 1, '[' :: cs => do
    let i ← Json.Text.readDigits (cs.takeWhile Char.isDigit)
    match cs.dropWhile Char.isDigit with
    | ']' :: cs => return i :: (← indices n cs)
    | _ => none
  | _, _ => none

def pathIndices (s : String) : Option (List Nat) :=
  match s.toList with
  | '$' :: cs => indices cs.length cs
  | _ => none

def select : List Nat → Json → List Json
  | [], x => [x]
  | i :: is, .array xs => match xs[i]? with
    | some x => select is x
    | none => []
  | _ :: _, _ => []

def indexText (i : Nat) : String := "$[" ++ Nat.repr i ++ "]"

theorem pathIndices_indexText (i : Nat) : pathIndices (indexText i) = some [i] := by
  have ht := Json.Text.takeWhile_append (p := Char.isDigit) (r := [']'])
    (Json.Text.isDigit_toDigits (n := i)) (by simp)
  have hd := Json.Text.dropWhile_append (p := Char.isDigit) (r := [']'])
    (Json.Text.isDigit_toDigits (n := i)) (by simp)
  simp only [pathIndices, indexText, Nat.repr, String.toList_append, String.toList_ofList]
  simp [indices, ht, hd, Json.Text.readDigits_toDigits]

scoped instance serdeJsonPath : SerdeJsonPath where
  JsonPath := { s : String // (pathIndices s).isSome = true }
  decEq := inferInstance
  parse s := if h : (pathIndices s).isSome = true then some ⟨s, h⟩ else none
  toString p := p.val
  parse_toString p := by simp [p.property]
  query p x := select ((pathIndices p.val).getD []) x
  index i := ⟨indexText i, by rw [pathIndices_indexText]; rfl⟩
  parse_index i := by
    have h := pathIndices_indexText i
    rw [indexText] at h
    simp [h, indexText]
  query_index i xs := by
    simp only [pathIndices_indexText, Option.getD_some, select]
    cases xs[i]? <;> rfl

/-! ## JSON Schema and UUIDs -/

scoped instance jsonSchema : JsonSchema where
  compiles
    | .bool _ | .object [("const", _)] => true
    | _ => false
  isValid
    | .bool b, _ => b
    | .object [("const", x)], y => x = y
    | _, _ => false

def isUuid (s : String) : Bool :=
  s.length == 36 && (s.toList.zipIdx.all fun (c, i) =>
    if i ∈ [8, 13, 18, 23] then c == '-' else c.isDigit || ('a' ≤ c && c ≤ 'f'))

scoped instance uuid : UuidCrate where
  Uuid := { s : String // isUuid s = true }
  parse s := if h : isUuid s = true then some ⟨s, h⟩ else none
  toString u := u.val
  parse_toString u := by simp [u.property]
  nil := ⟨"00000000-0000-0000-0000-000000000000", by decide⟩

/-! ## Forms, URLs and tokens -/

theorem isFormChar_of_form {c : Char} (h : Form.isFormChar c = true) : isFormChar c = true := by
  simp only [Form.isFormChar, Form.isComponentChar, Form.isUnreserved, isFormChar, Bool.or_eq_true,
    decide_eq_true_eq, List.mem_cons, List.not_mem_nil, or_false] at h ⊢
  tauto

scoped instance formUrlencoded : FormUrlencoded where
  toString ps := String.ofList (Form.print ps)
  parse s := Form.parse s.toList
  parse_toString ps := by rw [String.toList_ofList, Form.parse_print]
  isFormChar_toString ps := by
    rw [String.toList_ofList, List.all_eq_true]
    exact fun c hc => isFormChar_of_form (Form.isFormChar_print c hc)
  byteSerialize s := String.ofList (Form.printComponent s)

scoped instance formBytes : FormBytes := ⟨fun _ => rfl⟩

scoped instance base64Url : Base64Url where
  encode bs := String.ofList (Base64.print bs)
  decode s := Base64.read s.toList
  decode_encode bs := by rw [String.toList_ofList, Base64.read_print]

scoped instance base64NoPad : Base64NoPad := ⟨fun bs => by
  have h : '=' ∉ Base64.alphabet := by decide +kernel
  change '=' ∉ (String.ofList (Base64.print bs)).toList
  rw [String.toList_ofList]
  exact Base64.not_mem_print h bs⟩

def isSchemeChar (c : Char) : Bool := c.isAlphanum || c == '+' || c == '-' || c == '.'

/-- The text of a URL up to its query. -/
def isBase (cs : List Char) : Bool :=
  match splitList ':' cs with
  | some (scheme, rest) => !scheme.isEmpty && scheme.all isSchemeChar && '?' ∉ rest && '#' ∉ rest
  | none => false

/-- The signs that begin a query and a fragment are in no scheme and, here, not behind it. -/
theorem not_mem_base {cs : List Char} (h : isBase cs = true) : '?' ∉ cs ∧ '#' ∉ cs := by
  rw [isBase] at h
  split at h
  · next scheme rest hs =>
    obtain ⟨rfl, -⟩ := splitList_eq_some_iff.mp hs
    simp only [Bool.and_eq_true, List.all_eq_true, decide_eq_true_eq] at h
    obtain ⟨⟨⟨-, hsc⟩, hq⟩, hf⟩ := h
    have hs {c : Char} (hc : isSchemeChar c = false) : c ∉ scheme := by
      intro hm
      rw [hsc c hm] at hc
      cases hc
    simp only [List.mem_append, List.mem_cons, not_or]
    exact ⟨⟨hs (by decide), by decide, hq⟩, ⟨hs (by decide), by decide, hf⟩⟩
  · exact absurd h Bool.false_ne_true

/-- The text of a URL up to its fragment. -/
def isUrl (base : List Char) (query : Option (List Char)) : Bool :=
  isBase base && (query.getD []).all (· ≠ '#')

structure UrlText where
  base : List Char
  query : Option (List Char)
  fragment : Option (List Char)
  valid : isUrl base query = true
  deriving DecidableEq

namespace UrlText

/-- A URL from its text without a fragment, and the fragment. -/
def ofParts (cs : List Char) (fragment : Option (List Char)) : Option UrlText :=
  match splitList '?' cs with
  | some (base, query) =>
    if h : isUrl base (some query) = true then some ⟨base, some query, fragment, h⟩ else none
  | none => if h : isUrl cs none = true then some ⟨cs, none, fragment, h⟩ else none

def parse (cs : List Char) : Option UrlText :=
  match splitList '#' cs with
  | some (url, fragment) => ofParts url (some fragment)
  | none => ofParts cs none

def printUrl (u : UrlText) : List Char :=
  match u.query with
  | some query => u.base ++ '?' :: query
  | none => u.base

def print (u : UrlText) : List Char :=
  match u.fragment with
  | some fragment => u.printUrl ++ '#' :: fragment
  | none => u.printUrl

theorem isBase_base (u : UrlText) : isBase u.base = true := (Bool.and_eq_true_iff.mp u.valid).1

theorem ofParts_printUrl (u : UrlText) : ofParts u.printUrl u.fragment = some u := by
  have hq := (not_mem_base u.isBase_base).1
  obtain ⟨base, query, fragment, valid⟩ := u
  cases query with
  | some query =>
    rw [ofParts, printUrl, splitList_append hq]
    exact dif_pos valid
  | none =>
    rw [ofParts, printUrl, splitList_eq_none_iff.mpr hq]
    exact dif_pos valid

theorem hash_not_mem_printUrl (u : UrlText) : '#' ∉ u.printUrl := by
  have hb := (not_mem_base u.isBase_base).2
  obtain ⟨base, query, fragment, valid⟩ := u
  cases query with
  | some query =>
    have hq : '#' ∉ query := by
      intro hm
      have h := List.all_eq_true.mp (Bool.and_eq_true_iff.mp valid).2 '#' hm
      simp at h
    simp only [printUrl, List.mem_append, List.mem_cons, not_or]
    exact ⟨hb, by decide, hq⟩
  | none => exact hb

theorem parse_print (u : UrlText) : parse u.print = some u := by
  have hh := u.hash_not_mem_printUrl
  have hp := u.ofParts_printUrl
  rw [print]
  cases hf : u.fragment with
  | some fragment =>
    rw [parse, splitList_append hh]
    rwa [hf] at hp
  | none =>
    rw [parse, splitList_eq_none_iff.mpr hh]
    rwa [hf] at hp

/-- The scheme, the authority and the path of a URL. -/
def parts (u : UrlText) : List Char × List Char × List Char :=
  match splitList ':' u.base with
  | some (scheme, '/' :: '/' :: rest) =>
    (scheme, rest.takeWhile (· ≠ '/'), rest.dropWhile (· ≠ '/'))
  | some (scheme, rest) => (scheme, [], rest)
  | none => ([], [], [])

def scheme (u : UrlText) : String := String.ofList u.parts.1

def host (u : UrlText) : String := String.ofList (u.parts.2.1.takeWhile (· ≠ ':'))

def readPort (cs : List Char) : Option UInt16 := do
  let n ← Json.Text.readDigits cs
  if n < UInt16.size then some (.ofNat n) else none

def port (u : UrlText) : Option UInt16 := do
  let (_, digits) ← splitList ':' u.parts.2.1
  (readPort digits).filter fun p => defaultPort u.scheme ≠ some p

/-- The URL that the origin is taken from. The paths of `blob` URLs are shorter and shorter. -/
def originUrl : Nat → UrlText → Option UrlText
  | 0, _ => none
  | n + 1, u =>
    if (defaultPort u.scheme).isSome then some u
    else if u.scheme = "blob" then (parse u.parts.2.2).bind (originUrl n)
    else none

def origin (u : UrlText) : Origin :=
  match originUrl (u.base.length + 1) u with
  | some v => .tuple v.scheme v.host ((v.port.or (defaultPort v.scheme)).getD 0)
  | none => .unique

def unicodeSerialization : Origin → String
  | .tuple scheme host p =>
    scheme ++ "://" ++ host ++
      if defaultPort scheme = some p then "" else ":" ++ Nat.repr p.toNat
  | .unique => "null"

/-- A query, in which the sign that begins a fragment is escaped. -/
def escapeHash (cs : List Char) : List Char :=
  cs.flatMap fun c => if c = '#' then "%23".toList else [c]

theorem hash_not_mem_escapeHash (cs : List Char) : '#' ∉ escapeHash cs := by
  rw [escapeHash, List.mem_flatMap]
  rintro ⟨c, -, hc⟩
  split at hc
  · exact absurd hc (by decide)
  · next hne => exact hne (List.mem_singleton.mp hc).symm

theorem escapeHash_of_not_mem {cs : List Char} (h : '#' ∉ cs) : escapeHash cs = cs := by
  induction cs with
  | nil => rfl
  | cons c cs ih =>
    rw [List.mem_cons, not_or] at h
    have hc : escapeHash (c :: cs) = c :: escapeHash cs := by
      simp [escapeHash, Ne.symm h.1]
    rw [hc, ih h.2]

def setQuery (u : UrlText) (q : String) : UrlText where
  base := u.base
  query := some (escapeHash q.toList)
  fragment := u.fragment
  valid := by
    have h : ∀ c ∈ escapeHash q.toList, c ≠ '#' := by
      rintro c hc rfl
      exact hash_not_mem_escapeHash q.toList hc
    rw [isUrl, u.isBase_base]
    simpa using h

theorem query_setQuery (u : UrlText) (q : String) (h : q.toList.all isFormChar = true) :
    (u.setQuery q).query.map String.ofList = some q := by
  have hq : '#' ∉ q.toList := by
    intro hm
    exact absurd (List.all_eq_true.mp h '#' hm) (by decide)
  rw [setQuery, Option.map_some, escapeHash_of_not_mem hq, String.ofList_toList]

end UrlText

scoped instance urlCrate : UrlCrate where
  Url := UrlText
  decEq := inferInstance
  parse s := UrlText.parse s.toList
  toString u := String.ofList u.print
  parse_toString u := by rw [String.toList_ofList, UrlText.parse_print]
  authority u := String.ofList u.parts.2.1
  path u := String.ofList u.parts.2.2
  query u := u.query.map String.ofList
  setQuery u q := u.setQuery q
  query_setQuery := UrlText.query_setQuery
  authority_setQuery _ _ := rfl
  path_setQuery _ _ := rfl
  origin := UrlText.origin
  unicodeSerialization := UrlText.unicodeSerialization

scoped instance urlFragment : UrlFragment where
  fragment u := u.fragment.map String.ofList
  setFragment u f := { u with fragment := some f.toList }
  fragment_setFragment u f _ := by simp

scoped instance httpCrate : HttpCrate where
  isUri s := (UrlText.parse s.toList).isSome

scoped instance httpStatus : HttpStatus where
  statusText code := if code = 500 then "500 Internal Server Error" else Nat.repr code.toNat

/-- The parts of a token. -/
def splitToken (cs : List Char) : Option (List Char × List Char × List Char) := do
  let (header, rest) ← splitList '.' cs
  let (payload, signature) ← splitList '.' rest
  return (header, payload, signature)

theorem splitToken_append {as bs : List Char} (h : '.' ∉ as) (h' : '.' ∉ bs) (cs : List Char) :
    splitToken (as ++ '.' :: (bs ++ '.' :: cs)) = some (as, bs, cs) := by
  simp only [splitToken, splitList_append h, splitList_append h', Option.bind_eq_bind,
    Option.bind_some]
  rfl

def payloadTree (payload : List Char) : Option Json := do
  let bytes ← Base64.read payload
  let text ← String.fromUTF8? ⟨bytes.toArray⟩
  Json.Text.parse text.toList

scoped instance ssiJwt : SsiJwt where
  splitJws s := (splitToken s.toList).map fun (h, p, g) =>
    (String.ofList h, String.ofList p, String.ofList g)
  decodeUnverified s := (splitToken s.toList).bind fun (_, payload, _) => payloadTree payload
  JWK := List UInt8
  readJwk x := do
    let f ← mapFields ["kty", "k"] x
    let k : String ← (f "k").required
    if (f "kty").required = some "oct" then Base64.read k.toList else none

/-- The payload of a token with these claims. -/
def payload (claims : Json) : List Char :=
  Base64.print (String.ofList (Json.Text.print claims)).toUTF8.data.toList

theorem payloadTree_payload (claims : Json) : payloadTree (payload claims) = some claims := by
  rw [payloadTree, payload, Base64.read_print]
  simp only [Option.bind_eq_bind, Option.bind_some]
  rw [Form.fromUTF8?_toUTF8, Option.bind_some, String.toList_ofList, Json.Text.parse_print]

/-- The header `{"alg":"ES256"}`. -/
def header : List Char := "eyJhbGciOiJFUzI1NiJ9".toList

theorem dot_not_mem_payload (claims : Json) : '.' ∉ payload claims := by
  have h : '.' ∉ Base64.alphabet := by decide +kernel
  exact Base64.not_mem_print h _

theorem toList_compactToken (header claims : Json) (signature : List UInt8) :
    (compactToken header claims signature).toList =
      payload header ++ '.' :: (payload claims ++ '.' :: Base64.print signature) := by
  change (String.ofList (payload header) ++ "." ++ String.ofList (payload claims) ++ "." ++
    String.ofList (Base64.print signature)).toList = _
  simp

/-- Every header counts as one that can be read. -/
scoped instance ssiJws : SsiJws where
  readsHeader _ := true
  splitJws_compactToken header claims signature := by
    change (splitToken (compactToken header claims signature).toList).map _ = _
    rw [toList_compactToken, splitToken_append (dot_not_mem_payload header)
      (dot_not_mem_payload claims)]
    rfl
  decodeUnverified_compactToken header claims signature := by
    change (splitToken (compactToken header claims signature).toList).bind _ = _
    rw [toList_compactToken, splitToken_append (dot_not_mem_payload header)
      (dot_not_mem_payload claims)]
    exact payloadTree_payload claims

/-- No signature counts as one that can be verified. -/
scoped instance ssiKeys : SsiKeys where
  sameKey (a b : List UInt8) := a = b
  decodeVerify _ _ := none

/-- A digit of the standard alphabet. -/
def standardDigit (c : Char) : Char := if c = '-' then '+' else if c = '_' then '/' else c

/-- Certificates as the bytes of their DER. -/
scoped instance x509Cert : X509Cert where
  Certificate := List UInt8
  toDer := some
  encodeStandard bs :=
    let digits := (Base64.print bs).map standardDigit
    String.ofList (digits ++ List.replicate ((4 - digits.length % 4) % 4) '=')

/-- A digit of the URL alphabet. -/
def urlDigit (c : Char) : Char := if c = '+' then '-' else if c = '/' then '_' else c

def decodeStandard (s : String) : Option (List UInt8) := Base64.read (s.toList.map urlDigit)

/-- A certificate for `verifier.example`. -/
@[irreducible] def leafDer : List UInt8 := (decodeStandard <|
    "MIIBpTCCAUugAwIBAgIUZ0sUbVcHoWEWaz9DcIw3HNDv4mwwCgYIKoZIzj0EAwIw" ++
    "GzEZMBcGA1UEAwwQdmVyaWZpZXIuZXhhbXBsZTAeFw0yNjA3MjUxMzE3NTJaFw0z" ++
    "NjA3MjIxMzE3NTJaMBsxGTAXBgNVBAMMEHZlcmlmaWVyLmV4YW1wbGUwWTATBgcq" ++
    "hkjOPQIBBggqhkjOPQMBBwNCAAQfGeYeCA4RI9xmfml8yuB289vgYdplBUPDtlkR" ++
    "VX5n8ec6c150wgvBJD5etexGbiSrJtlZ5VKI2IuCo3eMlCgpo20wazAdBgNVHQ4E" ++
    "FgQU9uFMq/NqtsYpwU5bdoAAMmCgYGQwHwYDVR0jBBgwFoAU9uFMq/NqtsYpwU5b" ++
    "doAAMmCgYGQwGwYDVR0RBBQwEoIQdmVyaWZpZXIuZXhhbXBsZTAMBgNVHRMBAf8E" ++
    "AjAAMAoGCCqGSM49BAMCA0gAMEUCIQDm4xtRVAZeLVpXtBF+JmZA6G1EgT3hJoLM" ++
    "olfQxZzr/AIgN0aICEuoH4qkiU5n6zsYrRUGSjxg74hGubPQcUI901Y").getD []

scoped instance x509Read : X509Read where
  fromDer := some
  subjectAltNames (cert : List UInt8) :=
    if cert = leafDer then [some [.dnsName "verifier.example"]] else []
  SubjectPublicKeyInfo := List UInt8
  subjectPublicKeyInfo cert := cert
  decodeStandardNoPad := decodeStandard

scoped instance sha256 : Sha256 where
  digest bs :=
    if bs = leafDer then
      (Base64.read "IKC0DWzNRPtrEnSH-5lUfjr2qo2Jicub4x9z32rk_9Y".toList).getD []
    else []

/-- A token with these claims and no signature. -/
def token (claims : Json) : String := String.ofList (header ++ '.' :: (payload claims ++ ['.']))

theorem decodeUnverified_token (claims : Json) :
    SsiJwt.decodeUnverified (token claims) = some claims := by
  change (splitToken (token claims).toList).bind _ = _
  rw [token, String.toList_ofList, splitToken_append (by decide) (dot_not_mem_payload claims)]
  exact payloadTree_payload claims

end OpenID4VP.Reference
