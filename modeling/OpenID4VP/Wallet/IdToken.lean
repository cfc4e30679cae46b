import OpenID4VP.Core.Response.Parameters
import OpenID4VP.Crates.Reference
import OpenID4VP.Lib.Once
import OpenID4VP.Verifier.Client

/-! # ID tokens that a wallet generates

A wallet issues ID tokens about itself, under a DID. The claims of such a token are read as they
were given, unless a further claim takes the name of one of them. -/

namespace OpenID4VP

/-! ## Time -/

/-- A point in time and the one after a span are as many whole seconds apart as the span has, or one
more. -/
theorem toInt_unixTimestamp_add [TimeCrate] [TimeNanoseconds] {now t : OffsetDateTime}
    {d : Duration} (h : TimeCrate.add now d = some t) :
    let seconds := TimeNanoseconds.wholeNanoseconds d / 1000000000
    ((TimeCrate.unixTimestamp t).toInt = (TimeCrate.unixTimestamp now).toInt + seconds ∨
      (TimeCrate.unixTimestamp t).toInt = (TimeCrate.unixTimestamp now).toInt + seconds + 1) ∧
    (1000000000 ∣ TimeNanoseconds.wholeNanoseconds d →
      (TimeCrate.unixTimestamp t).toInt = (TimeCrate.unixTimestamp now).toInt + seconds) := by
  simp only [TimeNanoseconds.toInt_unixTimestamp, TimeNanoseconds.unixTimestampNanos_add now d t h]
  refine ⟨by omega, ?_⟩
  rintro ⟨k, hk⟩
  omega

/-! ## Claims -/

/-- An integer of 64 bits as a number. -/
def numberOfInt : Int → Number
  | .ofNat k => .posInt (.ofNat k)
  | .negSucc k => .negInt ⟨k % 2 ^ 63, Nat.mod_lt k (by decide)⟩

instance : Serialize Int64 := ⟨fun n => .number (numberOfInt n.toInt)⟩

instance : LawfulSerde Int64 := ⟨fun n => by
  have hr : Int64.ofInt n.toInt = n := Int64.ofInt_toInt n
  have hl : -2 ^ 63 ≤ n.toInt := n.le_toInt
  have hu : n.toInt < 2 ^ 63 := n.toInt_lt
  change fromTree (.number (numberOfInt n.toInt)) = _
  generalize n.toInt = i at hr hl hu
  cases i with
  | ofNat k =>
    have hu : k < 2 ^ 63 := Int.ofNat_lt.mp hu
    have hk : (UInt64.ofNat k).toNat = k := Nat.mod_eq_of_lt (by omega)
    change (if (UInt64.ofNat k).toNat < 2 ^ 63 then some (Int64.ofNat (UInt64.ofNat k).toNat)
      else none) = _
    rw [hk, if_pos hu, ← hr]
    rfl
  | negSucc k =>
    have hk : k % 2 ^ 63 = k := Nat.mod_eq_of_lt (by omega)
    change some (Int64.ofInt (.negSucc (k % 2 ^ 63))) = _
    rw [hk, hr]⟩

instance : NeverNull Int64 := ⟨nofun⟩

section
variable [SsiJwt]

namespace IdTokenBody

/-- The names of the claims that have a field. -/
def names : List String := ["iss", "sub", "aud", "nonce", "sub_jwk", "iat", "exp"]

/-- The claims that have no field. -/
def further (b : IdTokenBody) : JsonMap := b.other.getD .empty

variable [Serialize JWK]

instance : Serialize IdTokenBody := ⟨fun b => .object <|
  member "iss" b.issuer ++ member "sub" b.subject ++ member "aud" b.audience ++
  member "nonce" b.nonce ++ optionalMember "sub_jwk" b.subJwk ++ nullableMember "iat" b.issuedAt ++
  member "exp" b.expirationTime ++
  match b.other with
  | some m => m.entries
  | none => []⟩

/-- The claims that have a field, with the key that may be left out. -/
def slots (b : IdTokenBody) : List (String × Option Json) :=
  [("iss", some (toTree b.issuer)), ("sub", some (toTree b.subject)),
    ("aud", some (toTree b.audience)), ("nonce", some (toTree b.nonce)),
    ("sub_jwk", b.subJwk.map toTree), ("iat", some ((b.issuedAt.map toTree).getD .null)),
    ("exp", some (toTree b.expirationTime))]

/-- The body that is read where the further claims keep to names of their own. -/
def reread (b : IdTokenBody) : IdTokenBody := { b with other := some b.further }

theorem toTree_eq (b : IdTokenBody) :
    toTree b = .object (Members.present b.slots ++ b.further.entries) := by
  obtain ⟨iss, sub, aud, nonce, jwk, iat, exp, other⟩ := b
  cases jwk <;> cases iat <;> cases other <;> rfl

theorem nodup_keys_slots (b : IdTokenBody) : (Members.keys b.slots).Nodup :=
  (by decide : names.Nodup)

omit [Serialize JWK] in
theorem fromTree_eq_some_iff {ms : List (String × Json)} {b : IdTokenBody} :
    fromTree (.object ms) = some b ↔ ∃ rest, takeNames names ms = some rest ∧
      (memberSlot ms "iss").required = some b.issuer ∧
      (memberSlot ms "sub").required = some b.subject ∧
      (memberSlot ms "aud").required = some b.audience ∧
      (memberSlot ms "nonce").required = some b.nonce ∧
      (memberSlot ms "sub_jwk").optional = some b.subJwk ∧
      (memberSlot ms "iat").optional = some b.issuedAt ∧
      (memberSlot ms "exp").required = some b.expirationTime ∧
      b.other = some (.ofMembers rest) := by
  change (takeNames names ms >>= fun rest => _) = some b ↔ _
  simp only [Option.bind_eq_bind, Option.bind_eq_some_iff, Option.pure_def, Option.some.injEq]
  constructor
  · rintro ⟨rest, hr, _, h1, _, h2, _, h3, _, h4, _, h5, _, h6, _, h7, rfl⟩
    exact ⟨rest, hr, h1, h2, h3, h4, h5, h6, h7, rfl⟩
  · rintro ⟨rest, hr, h1, h2, h3, h4, h5, h6, h7, h8⟩
    refine ⟨rest, hr, _, h1, _, h2, _, h3, _, h4, _, h5, _, h6, _, h7, ?_⟩
    rw [← h8]

theorem filter_present_slots (b : IdTokenBody) :
    ((Members.present b.slots).filter fun m => m.1 ∉ names) = [] := by
  rw [Members.filter_present]
  rfl

/-- A claim that has to be there is found before the further ones. -/
theorem memberSlot_eq {b : IdTokenBody} {k : String} {x : Json}
    (h : b.slots.lookup k = some (some x)) :
    memberSlot (Members.present b.slots ++ b.further.entries) k = .given x := by
  rw [memberSlot_eq_given_iff, Members.lookup_append, Members.lookup_present b.nodup_keys_slots, h]
  rfl

/-- Whatever the further claims are, the others are read as they were given. -/
theorem fields_of_fromTree {b b' : IdTokenBody} (h : fromTree (toTree b) = some b') :
    b'.issuer = b.issuer ∧ b'.subject = b.subject ∧ b'.audience = b.audience ∧
      b'.nonce = b.nonce ∧ b'.issuedAt = b.issuedAt ∧ b'.expirationTime = b.expirationTime := by
  rw [toTree_eq, fromTree_eq_some_iff] at h
  obtain ⟨rest, -, h1, h2, h3, h4, -, h6, h7, -⟩ := h
  rw [memberSlot_eq rfl] at h1 h2 h3 h4 h6 h7
  have text : ∀ {s s' : String}, (Slot.given (toTree s)).required = some s' → s' = s :=
    fun h => (Option.some.inj h).symm
  have time : (Slot.given (toTree b.expirationTime)).required = some b.expirationTime :=
    LawfulSerde.fromTree_toTree _
  rw [Slot.optional_nullable] at h6
  rw [time] at h7
  exact ⟨text h1, text h2, text h3, text h4, (Option.some.inj h6).symm, (Option.some.inj h7).symm⟩

/-- The body is read as it was given exactly when no further claim takes the name of a claim with a
field. -/
theorem fromTree_toTree_iff {b : IdTokenBody} (hj : b.subJwk = none) :
    fromTree (toTree b) = some b.reread ↔ Members.Apart names b.further.entries := by
  rw [toTree_eq, fromTree_eq_some_iff]
  constructor
  · rintro ⟨rest, hr, -, -, -, -, -, -, -, ho⟩
    have ht : ((Members.present b.slots ++ b.further.entries).filter fun m => m.1 ∉ names) = rest :=
      takeNames_eq_some hr
    rw [List.filter_append, filter_present_slots, List.nil_append] at ht
    obtain rfl := ht
    rw [show b.further = _ from Option.some.inj ho]
    exact JsonMap.apart_ofMembers (Members.apart_filter _ _)
  · intro ha
    have hk : (Members.keys (Members.present b.slots)).Sublist names :=
      Members.keys_present_sublist b.slots
    have hd : (Members.keys (Members.present b.slots ++ b.further.entries)).Nodup :=
      Members.nodup_keys_append (Members.nodup_keys_present b.nodup_keys_slots) b.further.nodup_keys
        (ha.mono hk.subset)
    have hn : memberSlot (Members.present b.slots ++ b.further.entries) "sub_jwk" = .omitted := by
      rw [memberSlot_eq_ofOption, Members.lookup_append, Members.lookup_present b.nodup_keys_slots,
        Members.lookup_eq_none_iff.mpr (ha.not_mem_keys (by decide : "sub_jwk" ∈ names)), slots, hj]
      rfl
    refine ⟨_, takeNames_of_nodup _ hd, ?_⟩
    rw [List.filter_append, filter_present_slots, List.nil_append, Members.filter_of_apart ha,
      JsonMap.ofMembers_entries, hn]
    iterate 6 rw [memberSlot_eq rfl]
    exact ⟨rfl, rfl, rfl, rfl, congrArg some hj.symm, Slot.optional_nullable _,
      LawfulSerde.fromTree_toTree b.expirationTime, rfl⟩

end IdTokenBody

/-! ## Generation -/

/-- DIDs that a path, a query or a fragment may follow. -/
class SsiDidUrls where
  DIDURLBuf : Type
  toString : DIDURLBuf → String
  did : DIDURLBuf → String

export SsiDidUrls (DIDURLBuf)

section
variable [TimeCrate]

structure IdTokenParams where
  audience : String
  nonce : Nonce
  lifetime : Duration
  other : Option JsonMap

variable [Serialize JWK] [SsiDidUrls] [SerdeJson] [Base64Url]

def idTokenHeader (algorithm : String) (didUrl : DIDURLBuf) : Json :=
  .object [("alg", .string algorithm), ("kid", .string (SsiDidUrls.toString didUrl)),
    ("typ", .string "JWT")]

def idTokenBody (now expirationTime : OffsetDateTime) (didUrl : DIDURLBuf)
    (params : IdTokenParams) : IdTokenBody where
  issuer := SsiDidUrls.did didUrl
  subject := SsiDidUrls.did didUrl
  audience := params.audience
  nonce := params.nonce.value
  other := params.other
  expirationTime := TimeCrate.unixTimestamp expirationTime
  subJwk := none
  issuedAt := some (TimeCrate.unixTimestamp now)

def generateDidBasedIdToken (now : OffsetDateTime) (didUrl : DIDURLBuf) (params : IdTokenParams)
    (signer : Signer σ) : Prog σ Anyhow String := do
  -- the source panics where the sum is out of range
  let expirationTime ← .ofExcept <|
    okOr (.msg "resulting value is out of range") (TimeCrate.add now params.lifetime)
  let algorithm ← .mapError (.context "failed to retrieve signing algorithm") signer.alg
  generateJwt (idTokenHeader algorithm didUrl) (idTokenBody now expirationTime didUrl params) signer

variable {now : OffsetDateTime} {didUrl : DIDURLBuf} {params : IdTokenParams} {signer : Signer σ}
  {s s' : σ} {jwt : String}

/-- The token is a compact one, with the claims of the parameters and the DID. -/
theorem generateDidBasedIdToken_eq_ok
    (h : generateDidBasedIdToken now didUrl params signer s = (.ok jwt, s')) :
    ∃ expirationTime algorithm signature s₁,
      TimeCrate.add now params.lifetime = some expirationTime ∧
      signer.alg s = (.ok algorithm, s₁) ∧ jwt = compactToken (idTokenHeader algorithm didUrl)
        (toTree (idTokenBody now expirationTime didUrl params)) signature := by
  rw [generateDidBasedIdToken, Prog.ofExcept_bind_eq_ok_iff] at h
  obtain ⟨expirationTime, he, h⟩ := h
  obtain ⟨algorithm, s₁, ha, h⟩ := Prog.bind_eq_ok_iff.mp h
  obtain ⟨signature, -, rfl⟩ := generateJwt_eq_ok_iff.mp h
  exact ⟨expirationTime, algorithm, signature, s₁, okOr_eq_ok_iff.mp he,
    Prog.mapError_eq_ok_iff.mp ha, rfl⟩

variable [SsiJws]

namespace IdToken

omit [TimeCrate] [Serialize JWK] [SsiDidUrls] [SerdeJson] [Base64Url] [SsiJws] in
theorem tryFromString_eq_ok_iff {raw : String} {token : IdToken} :
    tryFromString raw = .ok token ↔ token.raw = raw := by
  constructor
  · intro h
    rw [tryFromString] at h
    split at h
    · cases h
      rfl
    · cases h
  · rintro rfl
    exact tryFromString_jwt token

omit [TimeCrate] [Serialize JWK] [SsiDidUrls] in
/-- A compact token is decoded when its header can be read and its claims are those of a body. -/
theorem decodeUnverified_compactToken {header claims : Json} {signature : List UInt8}
    {body : IdTokenBody} :
    IdTokenBody.decodeUnverified (compactToken header claims signature) = .ok body ↔
      SsiJws.readsHeader header = true ∧ fromTree claims = some body := by
  rw [IdTokenBody.decodeUnverified, SsiJws.decodeUnverified_compactToken]
  by_cases hr : SsiJws.readsHeader header = true
  · rw [if_pos hr, Option.bind_some, and_iff_right hr]
    cases (fromTree claims : Option IdTokenBody) <;> simp
  · rw [if_neg hr]
    exact iff_of_false nofun fun h => hr h.1

omit [TimeCrate] [SsiDidUrls] in
/-- A compact token of written claims is accepted with these claims exactly when its header can be
read and no further claim takes the name of a claim with a field. -/
theorem exists_tryFromString_compactToken_iff {header : Json} {signature : List UInt8}
    {b : IdTokenBody} (hk : b.subJwk = none) :
    (∃ token, tryFromString (compactToken header (toTree b) signature) = .ok token ∧
        token.parsed = b.reread) ↔
      SsiJws.readsHeader header = true ∧ Members.Apart IdTokenBody.names b.further.entries := by
  have hd : IdTokenBody.decodeUnverified (compactToken header (toTree b) signature) =
      .ok b.reread ↔ _ := decodeUnverified_compactToken
  rw [← IdTokenBody.fromTree_toTree_iff hk, ← hd]
  constructor
  · rintro ⟨token, ht, hp⟩
    rw [← hp, ← tryFromString_eq_ok_iff.mp ht]
    exact token.decoded
  · intro hd
    exact ⟨⟨_, _, hd⟩, tryFromString_eq_ok_iff.mpr rfl, rfl⟩

/-- A token that was generated is accepted with the claims that it was generated for exactly when
its header can be read and no further claim takes the name of a claim with a field. -/
theorem exists_tryFromString_iff_of_generate
    (h : generateDidBasedIdToken now didUrl params signer s = (.ok jwt, s')) :
    ∃ expirationTime algorithm s₁, TimeCrate.add now params.lifetime = some expirationTime ∧
      signer.alg s = (.ok algorithm, s₁) ∧
      ((∃ token, tryFromString jwt = .ok token ∧
          token.parsed = (idTokenBody now expirationTime didUrl params).reread) ↔
        SsiJws.readsHeader (idTokenHeader algorithm didUrl) = true ∧
          Members.Apart IdTokenBody.names (params.other.getD .empty).entries) := by
  obtain ⟨expirationTime, algorithm, signature, s₁, he, ha, rfl⟩ := generateDidBasedIdToken_eq_ok h
  exact ⟨expirationTime, algorithm, s₁, he, ha, exists_tryFromString_compactToken_iff rfl⟩

/-- Whatever the further claims are, a token that was generated and is accepted is one of the DID
about itself, with the nonce and the times of its parameters. -/
theorem parsed_of_generate (h : generateDidBasedIdToken now didUrl params signer s = (.ok jwt, s'))
    {token : IdToken} (ht : tryFromString jwt = .ok token) :
    token.parsed.issuer = SsiDidUrls.did didUrl ∧ token.parsed.subject = SsiDidUrls.did didUrl ∧
      token.parsed.audience = params.audience ∧ token.parsed.nonce = params.nonce.value ∧
      token.parsed.issuedAt = some (TimeCrate.unixTimestamp now) ∧
      ∃ t, TimeCrate.add now params.lifetime = some t ∧
        token.parsed.expirationTime = TimeCrate.unixTimestamp t := by
  obtain ⟨expirationTime, algorithm, signature, s₁, he, ha, rfl⟩ := generateDidBasedIdToken_eq_ok h
  have hd := token.decoded
  rw [tryFromString_eq_ok_iff.mp ht, decodeUnverified_compactToken] at hd
  obtain ⟨h1, h2, h3, h4, h5, h6⟩ := IdTokenBody.fields_of_fromTree hd.2
  exact ⟨h1, h2, h3, h4, h5, expirationTime, he, h6⟩

/-- Whatever the further claims are, a token that was generated and is accepted expires as many
whole seconds after its issuance as its lifetime has, or one more. -/
theorem lifetime_of_generate [TimeNanoseconds]
    (h : generateDidBasedIdToken now didUrl params signer s = (.ok jwt, s')) {token : IdToken}
    (ht : tryFromString jwt = .ok token) :
    ∃ issuedAt, token.parsed.issuedAt = some issuedAt ∧
      let seconds := TimeNanoseconds.wholeNanoseconds params.lifetime / 1000000000
      (token.parsed.expirationTime.toInt = issuedAt.toInt + seconds ∨
        token.parsed.expirationTime.toInt = issuedAt.toInt + seconds + 1) ∧
      (1000000000 ∣ TimeNanoseconds.wholeNanoseconds params.lifetime →
        token.parsed.expirationTime.toInt = issuedAt.toInt + seconds) := by
  obtain ⟨-, -, -, -, hi, t, ha, he⟩ := parsed_of_generate h ht
  refine ⟨TimeCrate.unixTimestamp now, hi, ?_⟩
  rw [he]
  exact toInt_unixTimestamp_add ha

end IdToken
end
end

/-! ## A token -/

namespace Sample
open scoped Reference

/-- The DID ends where a path, a query or a fragment begins. -/
scoped instance didUrls : SsiDidUrls where
  DIDURLBuf := String
  toString s := s
  did s := String.ofList (s.toList.takeWhile fun c => c ∉ ['/', '?', '#'])

scoped instance serializeJwk : Serialize JWK where
  toTree (k : List UInt8) :=
    .object [("kty", .string "oct"), ("k", .string (String.ofList (Base64.print k)))]

/-- The whole seconds of points in time whose years have four digits. -/
def InYears (n : Int) : Prop := -377705116800 ≤ n / 1000000000 ∧ n / 1000000000 ≤ 253402300799

instance (n : Int) : Decidable (InYears n) := inferInstanceAs (Decidable (_ ∧ _))

/-- Points in time are nanoseconds since the epoch, and spans are nanoseconds. -/
@[reducible] scoped instance time : TimeCrate where
  OffsetDateTime := { n : Int // InYears n }
  Duration := Int
  add now d := if h : InYears (now.val + d) then some ⟨now.val + d, h⟩ else none
  unixTimestamp t := .ofInt (t.val / 1000000000)

scoped instance timeNanoseconds : TimeNanoseconds where
  unixTimestampNanos t := t.val
  wholeNanoseconds d := d
  toInt_unixTimestamp := by
    rintro ⟨n, hl, hu⟩
    change (Int64.ofInt (n / 1000000000)).toInt = n / 1000000000
    exact Int64.toInt_ofInt_of_le (by omega) (by omega)
  unixTimestampNanos_add now d t h := by
    obtain ⟨_, h⟩ := Option.dite_none_right_eq_some.mp h
    cases h
    rfl

def signedAt : OffsetDateTime := ⟨1700000000000000000, by decide⟩

def idTokenParams : IdTokenParams where
  audience := "https://verifier.example"
  nonce := ⟨"nonce"⟩
  lifetime := (600000000000 : Int)
  other := some (JsonMap.empty.insert "sub_name" (.string "holder"))

def holderDid : String := "did:example:holder#key-1"

def holderSigner : Signer Unit := ⟨pure "ES256", fun _ => pure [0]⟩

theorem generateDidBasedIdToken_holder : ∃ jwt,
    generateDidBasedIdToken signedAt holderDid idTokenParams holderSigner () = (.ok jwt, ()) :=
  ⟨_, rfl⟩

theorem exists_tryFromString_holder : ∃ jwt token, IdToken.tryFromString jwt = .ok token ∧
    token.parsed.issuer = "did:example:holder" ∧ token.parsed.nonce = "nonce" := by
  obtain ⟨jwt, h⟩ := generateDidBasedIdToken_holder
  obtain ⟨t, algorithm, s, -, -, hi⟩ := IdToken.exists_tryFromString_iff_of_generate h
  obtain ⟨token, ht, hp⟩ := hi.mpr ⟨rfl, List.forall_mem_singleton.mpr (by decide)⟩
  refine ⟨jwt, token, ht, ?_⟩
  rw [hp]
  exact ⟨rfl, rfl⟩

theorem lifetime_holder : ∃ jwt token iat, IdToken.tryFromString jwt = .ok token ∧
    token.parsed.issuedAt = some iat ∧ token.parsed.expirationTime.toInt = iat.toInt + 600 := by
  obtain ⟨jwt, h⟩ := generateDidBasedIdToken_holder
  obtain ⟨token, ht⟩ : ∃ token, IdToken.tryFromString jwt = .ok token := by
    obtain ⟨t, algorithm, signature, s, -, -, rfl⟩ := generateDidBasedIdToken_eq_ok h
    obtain ⟨token, ht, -⟩ := IdToken.exists_tryFromString_compactToken_iff
      (b := idTokenBody signedAt t holderDid idTokenParams) rfl |>.mpr
        ⟨rfl, List.forall_mem_singleton.mpr (by decide)⟩
    exact ⟨token, ht⟩
  obtain ⟨iat, hi, -, he⟩ := IdToken.lifetime_of_generate h ht
  exact ⟨jwt, token, iat, ht, hi, he (by decide)⟩

end Sample
end OpenID4VP
