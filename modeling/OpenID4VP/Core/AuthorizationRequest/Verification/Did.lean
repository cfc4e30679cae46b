import OpenID4VP.Core.AuthorizationRequest.Authentication
import OpenID4VP.Verifier.Client

/-! # Requests signed with keys of decentralized identifiers

The validation of a request by the verification method in the header of its token. The client id has
to be the identifier in the verification method, which the client of the verifier takes from it,
too. `agrees_iff` says when both take the same. -/

namespace OpenID4VP
namespace Did

section
variable [SerdeJson] [Base64Url] [SsiJwt]

def readHeaders (state : Option String) (requestJwt : String) : Except Error JsonMap := do
  let (headersB64, _, _) ← okOr (.internal (.library "ssi")) (SsiJwt.splitJws requestJwt)
  let headersJsonBytes ← okOr ((Error.protocolAccessDenied
    "jwt headers were not valid base64url" state).addSource (.library "base64"))
    (Base64Url.decode headersB64)
  Except.mapError (Error.protocolAccessDenied "jwt headers were not valid json" state).addSource
    (fromSlice ⟨headersJsonBytes.toArray⟩)

/-- The headers of a compact token are the members of its header. -/
theorem readHeaders_compactToken [SsiJws] (state : Option String) (ms : List (String × Json))
    (claims : Json) (signature : List UInt8) :
    readHeaders state (compactToken (.object ms) claims signature) = .ok (.ofMembers ms) := by
  have hu : String.fromUTF8? ⟨(SerdeJson.print (.object ms)).toUTF8.data.toList.toArray⟩ =
      some (SerdeJson.print (.object ms)) := Form.fromUTF8?_toUTF8 _
  rw [readHeaders, SsiJws.splitJws_compactToken, tokenPart]
  change (okOr _ (Base64Url.decode (Base64Url.encode _)) >>= fun bytes =>
    Except.mapError _ (fromSlice ⟨bytes.toArray⟩)) = _
  rw [Base64Url.decode_encode]
  have hs : (fromSlice ⟨(SerdeJson.print (.object ms)).toUTF8.data.toList.toArray⟩ :
      Except Anyhow JsonMap) = .ok (.ofMembers ms) := by
    rw [fromSlice, hu]
    exact fromStr_print _
  change Except.mapError _ (fromSlice _) = _
  rw [hs]
  rfl

end

section
variable [SerdeJsonPath] [JsonSchema] [UrlCrate]

/-- The identifier in a verification method, which has to be that of the client. -/
def matchDid (requestObject : AuthorizationRequestObject) (kid : String) :
    Except Error String := do
  let state := requestObject.state
  let clientId := requestObject.clientId
  let (did, _) ← okOr (.protocolAccessDenied
    s!"expected a DID verification method in 'kid' header, received '{kid}'" state)
    (splitOnce '#' kid)
  ensure (clientId.id = did) (.protocolAccessDenied
    s!"DIDs from 'kid' ({did}) and 'client_id' ({clientId.getFullId}) do not match" state)
  return did

def ensureTrusted (state : Option String) (trustedDids : Option (List String)) (did : String) :
    Except Error Unit :=
  match trustedDids with
  | some dids => ensure (dids.any (· = did)) <|
    -- the identifier is not put into this text
    .protocolAccessDenied "'client_id' (\x7bdid\x7d) is not in the list of trusted dids" state
  | none => return ()

/-- The error for a signature that is not the key's. -/
def signatureError (state : Option String) : Error :=
  (Error.protocolAccessDenied "request signature could not be verified" state).addSource
    (.library "ssi")

theorem matchDid_eq_ok_iff {o : AuthorizationRequestObject} {kid did : String} :
    matchDid o kid = .ok did ↔ ∃ f, splitOnce '#' kid = some (did, f) ∧ o.clientId.id = did := by
  simp only [matchDid, Except.bind_eq_ok_iff, okOr_eq_ok_iff, ensure_eq_ok_iff,
    decide_eq_true_eq, Except.pure_eq_ok_iff]
  constructor
  · rintro ⟨⟨did', f⟩, hs, -, hd, rfl⟩
    exact ⟨f, hs, hd⟩
  · rintro ⟨f, hs, hd⟩
    exact ⟨(did, f), hs, (), hd, rfl⟩

end

section
variable [SerdeJson] [SerdeJsonPath] [JsonSchema] [UrlCrate] [Base64Url] [SsiJwt]

/-- The key id of a token that is signed with one of these algorithms. -/
def readKid (walletMetadata : WalletMetadata) (state : Option String) (headers : JsonMap) :
    Except Error String := do
  let alg ← match ← okOr (.protocolAccessDenied "'alg' was missing from jwt headers" state)
      (headers.get? "alg") with
    | .string alg => pure alg
    | _ => throw (.protocolAccessDenied "'alg' header of jwt is not a string" state)
  let supportedAlgs ← orInternal <|
    parsingError (walletMetadata.object.get RequestObjectSigningAlgValuesSupported)
  ensure (supportedAlgs.values.contains alg)
    (.protocolAccessDenied s!"request was signed with unsupported algorithm: {alg}" state)
  match ← orInternal (okOr (.msg "'kid' was missing from jwt headers") (headers.get? "kid")) with
  | .string kid => return kid
  | _ => throw (.protocolAccessDenied s!"'kid' header of jwt is not a string: {alg}" state)

/-! ## The identifiers of the client and the wallet -/

/-- The identifier that the wallet finds in the token passes the comparison, and is that of the
client. -/
def Compared (c : DecentralizedIdentifierClient σ) (o : AuthorizationRequestObject)
    (jwt : String) : Prop :=
  ∃ headers kid, readHeaders o.state jwt = .ok headers ∧ headers.get? "kid" = some (.string kid) ∧
    matchDid o kid = .ok c.id.id

variable [SsiJws] {c : DecentralizedIdentifierClient σ} {o body : AuthorizationRequestObject}
  {jwt : String} {t t' : σ}

/-- The header of a client's token has an algorithm, and the client's verification method as the key
id. -/
theorem readHeaders_of_generateRequestObjectJwt
    (h : c.client.generateRequestObjectJwt body t = (.ok jwt, t')) (state : Option String) :
    ∃ headers, readHeaders state jwt = .ok headers ∧ headers.get? "kid" = some (.string c.vm) := by
  obtain ⟨header, t₁, hh, hj⟩ := Prog.bind_eq_ok_iff.mp h
  obtain ⟨algorithm, t₂, -, hh⟩ := Prog.bind_eq_ok_iff.mp hh
  obtain ⟨rfl, -⟩ := Prog.pure_eq_ok_iff.mp hh
  obtain ⟨signature, -, rfl⟩ := generateJwt_eq_ok_iff.mp hj
  refine ⟨_, readHeaders_compactToken state _ _ _, ?_⟩
  rfl

/-- The comparison is between the parts of the verification method before its first and before its
last `#`. -/
theorem compared_iff {f : String}
    (hj : c.client.generateRequestObjectJwt body t = (.ok jwt, t')) (ho : o.clientId = c.id)
    (hr : rsplitOnce '#' c.vm = some (c.id.id, f)) :
    Compared c o jwt ↔ c.vm.toList.count '#' = 1 := by
  obtain ⟨headers, hh, hk⟩ := readHeaders_of_generateRequestObjectJwt hj o.state
  have hm : Compared c o jwt ↔ matchDid o c.vm = .ok c.id.id := by
    constructor
    · rintro ⟨headers', kid, hh', hk', hm⟩
      obtain rfl := Except.ok.inj (hh.symm.trans hh')
      obtain rfl := Json.string.inj (Option.some.inj (hk.symm.trans hk'))
      exact hm
    · exact fun hm => ⟨headers, c.vm, hh, hk, hm⟩
  rw [hm, matchDid_eq_ok_iff, ho]
  cases hs : splitOnce '#' c.vm with
  | none =>
    have hn := splitOnce_eq_none_iff.mp hs
    rw [rsplitOnce_eq_none_iff.mpr hn] at hr
    exact nomatch hr
  | some p =>
    rw [← splitOnce_fst_eq_rsplitOnce_fst_iff hs hr]
    constructor
    · rintro ⟨g, hg, -⟩
      rw [Option.some.inj hg]
    · intro hp
      exact ⟨p.2, congrArg some (Prod.ext hp rfl), rfl⟩

end

/-! ## Validation -/

section
variable [SerdeJson] [SerdeJsonPath] [JsonSchema] [UrlCrate] [Base64Url] [SsiJwt] [SsiKeys]

def verifyWithResolver (walletMetadata : WalletMetadata)
    (requestObject : AuthorizationRequestObject) (requestJwt : String)
    (trustedDids : Option (List String)) (resolver : JWKResolver σ) : Prog σ Error Unit := do
  let state := requestObject.state
  let headers ← .ofExcept (readHeaders state requestJwt)
  let kid ← .ofExcept (readKid walletMetadata state headers)
  let did ← .ofExcept (matchDid requestObject kid)
  .ofExcept (ensureTrusted state trustedDids did)
  let jwk ← .mapError (Error.protocolAccessDenied
    "unable to resolve verification method from 'kid' header" state).addSource
    (resolver.fetchPublicJwk (some kid))
  let _ ← .ofExcept (okOr (signatureError state) (SsiKeys.decodeVerify requestJwt jwk))
  return ()

/-- Where the algorithm of the token is supported, the identifier of the client is trusted and its
key is found again, nothing but the signature is left to decide. -/
def SignatureDecides (c : DecentralizedIdentifierClient σ) (o : AuthorizationRequestObject)
    (jwt : String) (resolver : JWKResolver σ) : Prop :=
  ∀ headers alg walletMetadata supported trustedDids key s s',
    readHeaders o.state jwt = .ok headers → headers.get? "alg" = some (.string alg) →
    walletMetadata.object.get RequestObjectSigningAlgValuesSupported = some (.ok supported) →
    alg ∈ supported.values → (∀ dids, trustedDids = some dids → c.id.id ∈ dids) →
    resolver.fetchPublicJwk (some c.vm) s = (.ok key, s') →
    verifyWithResolver walletMetadata o jwt trustedDids resolver s =
      ((okOr (signatureError o.state) (SsiKeys.decodeVerify jwt key)).map fun _ => (), s')

/-- The wallet takes the identifier of the client from its tokens. -/
structure Agrees (c : DecentralizedIdentifierClient σ) (o : AuthorizationRequestObject)
    (jwt : String) (resolver : JWKResolver σ) : Prop where
  compared : Compared c o jwt
  signatureDecides : SignatureDecides c o jwt resolver

variable {c : DecentralizedIdentifierClient σ} {o body : AuthorizationRequestObject}
  {resolver : JWKResolver σ} {jwt vm : String}

omit [SerdeJson] [SerdeJsonPath] [JsonSchema] [UrlCrate] [Base64Url] in
/-- What a client is that was made for a verification method. -/
theorem new_eq_ok {signer : KeySigner σ} {s s' : σ}
    (h : DecentralizedIdentifierClient.new vm signer resolver s = (.ok c, s')) :
    c.vm = vm ∧ ∃ f, rsplitOnce '#' vm = some (c.id.id, f) := by
  obtain ⟨⟨id, f⟩, hr, h⟩ := Prog.ofExcept_bind_eq_ok_iff.mp h
  obtain ⟨jwk, s₁, -, h⟩ := Prog.bind_eq_ok_iff.mp h
  obtain ⟨signerJwk, s₂, -, h⟩ := Prog.bind_eq_ok_iff.mp h
  obtain ⟨-, -, h⟩ := Prog.ofExcept_bind_eq_ok_iff.mp h
  obtain ⟨c', hc, h⟩ := Prog.ofExcept_bind_eq_ok_iff.mp h
  obtain ⟨rfl, -⟩ := Prog.pure_eq_ok_iff.mp h
  have hn := ClientId.new_getFullId ⟨id, .decentralizedIdentifier⟩
  obtain rfl := Except.ok.inj (hn.symm.trans hc)
  exact ⟨rfl, f, okOr_eq_ok_iff.mp hr⟩

theorem signatureDecides [SsiJws] {t t' : σ}
    (hj : c.client.generateRequestObjectJwt body t = (.ok jwt, t'))
    (hc : Compared c o jwt) : SignatureDecides c o jwt resolver := by
  intro headers alg walletMetadata supported trustedDids key s s' hh ha hm hs ht hf
  obtain ⟨headers', hh', hk⟩ := readHeaders_of_generateRequestObjectJwt hj o.state
  obtain rfl := Except.ok.inj (hh.symm.trans hh')
  obtain ⟨headers', kid, hh', hk', hd⟩ := hc
  obtain rfl := Except.ok.inj (hh.symm.trans hh')
  obtain rfl := Json.string.inj (Option.some.inj (hk.symm.trans hk'))
  have hkid : readKid walletMetadata o.state headers = .ok c.vm := by
    have hr : readKid walletMetadata o.state headers =
        (ensure (supported.values.contains alg) (.protocolAccessDenied
          s!"request was signed with unsupported algorithm: {alg}" o.state) >>= fun _ =>
            pure c.vm) := by
      rw [readKid, ha, hk, hm]
      rfl
    rw [hr, ensure, if_pos (List.contains_iff_mem.mpr hs)]
    rfl
  have htrust : ensureTrusted o.state trustedDids c.id.id = .ok () := by
    cases trustedDids with
    | none => rfl
    | some dids => simpa [ensureTrusted] using ht dids rfl
  have hkey : Prog.mapError (Error.protocolAccessDenied
      "unable to resolve verification method from 'kid' header" o.state).addSource
      (resolver.fetchPublicJwk (some c.vm)) s = (.ok key, s') := Prog.mapError_eq_ok_iff.mpr hf
  rw [verifyWithResolver, hh, Prog.ofExcept_ok_bind, hkid, Prog.ofExcept_ok_bind, hd,
    Prog.ofExcept_ok_bind, htrust, Prog.ofExcept_ok_bind, Prog.bind_apply_ok hkey]
  cases SsiKeys.decodeVerify jwt key <;> rfl

/-- The wallet takes from the tokens of a client the identifier that the client has taken from its
verification method when that has one `#`, and does not when it has more. -/
theorem agrees_iff [SsiJws] {signer : KeySigner σ} {s s' t t' : σ}
    (hn : DecentralizedIdentifierClient.new vm signer resolver s = (.ok c, s'))
    (hj : c.client.generateRequestObjectJwt body t = (.ok jwt, t')) (ho : o.clientId = c.id) :
    Agrees c o jwt resolver ↔ vm.toList.count '#' = 1 := by
  obtain ⟨rfl, f, hr⟩ := new_eq_ok hn
  have hc := compared_iff hj ho hr
  exact ⟨fun h => hc.mp h.compared, fun h => ⟨hc.mpr h, signatureDecides hj (hc.mpr h)⟩⟩

end
end Did

/-! ## Verification methods with one fragment and with two -/

namespace Sample
open scoped Reference

def didSigner : KeySigner Unit := ⟨⟨pure "ES256", fun _ => pure [0]⟩, pure ([1] : List UInt8)⟩

def didResolver : JWKResolver Unit := ⟨fun _ => pure ([1] : List UInt8)⟩

def didClient (did vm : String) : DecentralizedIdentifierClient Unit :=
  ⟨⟨did, .decentralizedIdentifier⟩, vm, didSigner.toSigner⟩

def didRequest (did : String) : AuthorizationRequestObject :=
  request ⟨did, .decentralizedIdentifier⟩ (requestObject ("decentralized_identifier:" ++ did))

/-- A token of the client, signed with one byte. -/
def didToken (did vm : String) : String :=
  compactToken (.object [("alg", .string "ES256"), ("kid", .string vm),
    ("typ", .string mimeTypeOauthReqJwtShort)]) (toTree (didRequest did)) [0]

theorem generateRequestObjectJwt_didClient (did vm : String) :
    (didClient did vm).client.generateRequestObjectJwt (didRequest did) () =
      (.ok (didToken did vm), ()) :=
  Prog.bind_eq_ok_iff.mpr ⟨_, (), rfl, generateJwt_eq_ok_iff.mpr ⟨[0], rfl, rfl⟩⟩

theorem agrees_didClient :
    Did.Agrees (didClient "did:example:verifier" "did:example:verifier#key")
        (didRequest "did:example:verifier")
        (didToken "did:example:verifier" "did:example:verifier#key") didResolver ↔
      "did:example:verifier#key".toList.count '#' = 1 := by
  have hn : DecentralizedIdentifierClient.new "did:example:verifier#key" didSigner didResolver () =
      (.ok (didClient "did:example:verifier" "did:example:verifier#key"), ()) := rfl
  exact Did.agrees_iff hn (generateRequestObjectJwt_didClient _ _) rfl

/-- The client is known by more than the wallet takes from its key id. -/
theorem not_agrees_twoFragments :
    DecentralizedIdentifierClient.new "did:example:verifier#keys#1" didSigner didResolver () =
      (.ok (didClient "did:example:verifier#keys" "did:example:verifier#keys#1"), ()) ∧
    (didClient "did:example:verifier#keys"
      "did:example:verifier#keys#1").client.generateRequestObjectJwt
        (didRequest "did:example:verifier#keys") () =
          (.ok (didToken "did:example:verifier#keys" "did:example:verifier#keys#1"), ()) ∧
    ¬Did.Agrees (didClient "did:example:verifier#keys" "did:example:verifier#keys#1")
      (didRequest "did:example:verifier#keys")
      (didToken "did:example:verifier#keys" "did:example:verifier#keys#1") didResolver := by
  have hj := generateRequestObjectJwt_didClient "did:example:verifier#keys"
    "did:example:verifier#keys#1"
  have hr : rsplitOnce '#' "did:example:verifier#keys#1" =
    some ("did:example:verifier#keys", "1") := rfl
  refine ⟨rfl, hj, fun h => ?_⟩
  have hc := (Did.compared_iff hj rfl hr).mp h.compared
  exact absurd hc (by decide)

end Sample
end OpenID4VP
