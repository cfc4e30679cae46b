import OpenID4VP.Core.AuthorizationRequest.Negotiation
import OpenID4VP.Core.Metadata.RoundTrip

/-! # Sharing formats

Two parties share a format when both list it with payloads that have a value in common. That does
not depend on which of them is the wallet, nor on the order in which anything is listed. -/

namespace OpenID4VP

/-- The lists have the same elements, in any order and any number of times. -/
def SameElements (xs ys : List α) : Prop := ∀ a, a ∈ xs ↔ a ∈ ys

theorem containsAny_congr [DecidableEq α] {xs xs' ys ys' : List α} (hx : SameElements xs xs')
    (hy : SameElements ys ys') : containsAny xs ys = containsAny xs' ys' := by
  rw [Bool.eq_iff_iff, containsAny_iff, containsAny_iff]
  exact exists_congr fun a => and_congr (hy a) (hx a)

/-! ## Payloads -/

namespace ClaimFormatPayload

/-- The payloads have the same values. -/
inductive SameValues : ClaimFormatPayload → ClaimFormatPayload → Prop
  | alg (h : SameElements xs ys) : SameValues (alg xs) (alg ys)
  | algValuesSupported (h : SameElements xs ys) :
    SameValues (algValuesSupported xs) (algValuesSupported ys)
  | proofType (h : SameElements xs ys) : SameValues (proofType xs) (proofType ys)
  | sdJwtAlgValues (hs : SameElements sd sd') (hk : SameElements kb kb') :
    SameValues (sdJwtAlgValues sd kb) (sdJwtAlgValues sd' kb')
  | json (h : v.same w = true) : SameValues (json v) (json w)

theorem SameValues.symm {p q : ClaimFormatPayload} (h : SameValues p q) : SameValues q p := by
  cases h with
  | alg h => exact .alg fun a => (h a).symm
  | algValuesSupported h => exact .algValuesSupported fun a => (h a).symm
  | proofType h => exact .proofType fun a => (h a).symm
  | sdJwtAlgValues hs hk => exact .sdJwtAlgValues (fun a => (hs a).symm) fun a => (hk a).symm
  | json h => exact .json (Value.same_equivalence.symm h)

/-- What payloads have in common depends on their values only. -/
theorem SameValues.contains_eq {p p' q q' : ClaimFormatPayload} (hp : SameValues p p')
    (hq : SameValues q q') : p.contains q = p'.contains q' := by
  cases hp with
  | alg h | algValuesSupported h | proofType h =>
    cases hq <;> first | exact containsAny_congr h ‹_› | rfl
  | sdJwtAlgValues hs hk =>
    cases hq with
    | sdJwtAlgValues hs' hk' =>
      rw [contains, containsAny_congr hs hs', containsAny_congr hk hk', contains]
    | _ => rfl
  | json h =>
    cases hq with
    | json h' =>
      have he := Value.same_equivalence
      exact Bool.eq_iff_iff.mpr ⟨fun hc => he.trans (he.symm h) (he.trans hc h'),
        fun hc => he.trans h (he.trans hc (he.symm h'))⟩
    | _ => rfl

end ClaimFormatPayload

/-! ## Maps -/

/-- The same formats, in any order, with payloads that have the same values. -/
def ClaimFormatMap.SameFormats (m m' : ClaimFormatMap) : Prop :=
  ∀ d, Option.Rel ClaimFormatPayload.SameValues (m.get? d) (m'.get? d)

namespace ClaimFormatMap
variable {m m' supported supported' : ClaimFormatMap}

theorem SameFormats.get? (h : m.SameFormats m') {d : ClaimFormatDesignation}
    {p : ClaimFormatPayload} (hd : m.get? d = some p) :
    ∃ p', m'.get? d = some p' ∧ p.SameValues p' := by
  have hr := h d
  rw [hd] at hr
  cases hd' : m'.get? d with
  | none =>
    rw [hd'] at hr
    cases hr
  | some p' =>
    rw [hd'] at hr
    cases hr with
    | some hs => exact ⟨p', rfl, hs⟩

theorem SameFormats.symm (h : m.SameFormats m') : m'.SameFormats m := by
  intro d
  have hr := h d
  cases hd : m.get? d <;> cases hd' : m'.get? d <;> rw [hd, hd'] at hr <;> cases hr
  · exact .none
  · next hs => exact .some hs.symm

theorem SameFormats.overlap (hm : m.SameFormats m') (hs : supported.SameFormats supported')
    (h : Overlap m supported) : Overlap m' supported' := by
  obtain ⟨d, p, q, hp, hq, hc⟩ := h
  obtain ⟨p', hp', hpp⟩ := hm.get? hp
  obtain ⟨q', hq', hqq⟩ := hs.get? hq
  exact ⟨d, p', q', hp', hq', (hqq.contains_eq hpp).symm.trans hc⟩

theorem overlap_congr (hm : m.SameFormats m') (hs : supported.SameFormats supported') :
    Overlap m supported ↔ Overlap m' supported' :=
  ⟨hm.overlap hs, hm.symm.overlap hs.symm⟩

end ClaimFormatMap

theorem Overlap.symm {fs gs : ClaimFormatMap} (h : Overlap fs gs) : Overlap gs fs := by
  obtain ⟨d, p, q, hp, hq, hc⟩ := h
  exact ⟨d, q, p, hq, hp, (ClaimFormatPayload.contains_comm p q).trans hc⟩

/-! ## Validation -/

/-- What an error tells the other party, but for its words. -/
def Error.code : Error → Option (ErrorType × Option String)
  | .protocol type _ state _ => some (type, state)
  | .internal _ => none

section
variable [SerdeJson] [UrlCrate]

/-- The formats of a wallet meet those of a verifier. -/
structure Meet (supported offered : ClaimFormatMap) (m : WalletMetadata)
    (metadata : ClientMetadata) : Prop where
  wallet : m.vpFormatsSupported = ⟨supported⟩
  verifier : metadata.object.get VpFormatsSupported = some (.ok ⟨offered⟩)

variable {supported offered : ClaimFormatMap} {m : WalletMetadata} {metadata : ClientMetadata}

theorem Meet.validate_eq_ok_iff (h : Meet supported offered m metadata) {state : Option String} :
    validateVpFormatsSupported metadata m state = .ok () ↔ Overlap offered supported := by
  rw [validateVpFormatsSupported_eq_ok_iff, h.verifier, h.wallet,
    parsingError_eq_ok_iff.mpr rfl]
  simp [Except.toOption]

/-- Formats that are refused are refused as such. -/
theorem Meet.code_of_not_overlap (h : Meet supported offered m metadata) {state : Option String}
    (hn : ¬Overlap offered supported) :
    (validateVpFormatsSupported metadata m state).mapError Error.code =
      .error (some (.vpFormatsNotSupported, state)) := by
  have ha := mt any_containsClaimFormatWithPayload_iff.mp hn
  rw [← h.wallet] at ha
  rw [validateVpFormatsSupported, h.verifier, parsingError_eq_ok_iff.mpr rfl]
  simp only [if_neg ha]
  split <;> rfl

theorem Meet.code_congr {supported' offered' : ClaimFormatMap} {m' : WalletMetadata}
    {metadata' : ClientMetadata} (h : Meet supported offered m metadata)
    (h' : Meet supported' offered' m' metadata') (hs : supported.SameFormats supported')
    (ho : offered.SameFormats offered') (state : Option String) :
    (validateVpFormatsSupported metadata m state).mapError Error.code =
      (validateVpFormatsSupported metadata' m' state).mapError Error.code := by
  have hc : Overlap offered supported ↔ Overlap offered' supported' :=
    ClaimFormatMap.overlap_congr ho hs
  by_cases hv : Overlap offered supported
  · rw [h.validate_eq_ok_iff.mpr hv, h'.validate_eq_ok_iff.mpr (hc.mp hv)]
  · rw [h.code_of_not_overlap hv, h'.code_of_not_overlap (mt hc.mpr hv)]

/-- Two parties accept each other's formats whichever of them is the wallet, and in whatever order
and however often anything is listed. -/
theorem validateVpFormatsSupported_symm_and_unordered {a b a' b' : ClaimFormatMap}
    {walletA walletB walletA' : WalletMetadata} {verifierA verifierB verifierB' : ClientMetadata}
    (h : Meet a b walletA verifierB) (hs : Meet b a walletB verifierA)
    (h' : Meet a' b' walletA' verifierB') (ha : a.SameFormats a') (hb : b.SameFormats b')
    (state state' : Option String) :
    (validateVpFormatsSupported verifierB walletA state = .ok () ↔
      validateVpFormatsSupported verifierA walletB state' = .ok ()) ∧
    (validateVpFormatsSupported verifierB walletA state).mapError Error.code =
      (validateVpFormatsSupported verifierB' walletA' state).mapError Error.code := by
  refine ⟨?_, h.code_congr h' ha hb state⟩
  rw [h.validate_eq_ok_iff, hs.validate_eq_ok_iff]
  exact ⟨Overlap.symm, Overlap.symm⟩

end

/-! ## Security methods -/

namespace ClaimFormatPayload

/-- The payload of the same shape that names this algorithm only. A payload of no known shape has
none. -/
def only (a : String) : ClaimFormatPayload → Option ClaimFormatPayload
  | alg _ => some (alg [a])
  | algValuesSupported _ => some (algValuesSupported [a])
  | proofType _ => some (proofType [a])
  | sdJwtAlgValues _ _ => some (sdJwtAlgValues [a] [a])
  | json _ => none

end ClaimFormatPayload

/-- An algorithm is supported as a security method when it is as the only one of a payload, but for
algorithms of both an SD-JWT and its key binding. -/
theorem supportsSecurityMethod_iff_contains_iff {v : VpFormatsSupported}
    {f : ClaimFormatDesignation} {a : String} {p q : ClaimFormatPayload}
    (hp : v.formats.get? f = some p) (hq : p.only a = some q) :
    (v.supportsSecurityMethod f a = true ↔ v.containsClaimFormatWithPayload f q = true) ↔
      ∀ sd kb, p = .sdJwtAlgValues sd kb → ¬(a ∈ sd ∧ a ∈ kb) := by
  rw [VpFormatsSupported.supportsSecurityMethod, VpFormatsSupported.containsClaimFormatWithPayload,
    hp]
  cases p with
  | json v => cases hq
  | alg xs | algValuesSupported xs | proofType xs =>
    obtain rfl := Option.some.inj hq
    simp [ClaimFormatPayload.contains, containsAny]
  | sdJwtAlgValues sd kb =>
    obtain rfl := Option.some.inj hq
    simp [ClaimFormatPayload.contains, containsAny]

namespace Sample
open scoped Reference

/-- The one format of the map, with its algorithms. -/
def sdJwtFormats (algs : List String) : ClaimFormatMap :=
  ClaimFormatMap.empty.insert .sdJwtVc (.sdJwtAlgValues algs algs)

def sdJwtWallet (algs : List String) : WalletMetadata :=
  .new ⟨endpoint⟩ ⟨sdJwtFormats algs⟩ ⟨[.vpToken]⟩ none

def sdJwtVerifier (algs : List String) : ClientMetadata :=
  ⟨(UntypedObject.insertParam .empty (VpFormatsSupported.mk (sdJwtFormats algs))).1⟩

theorem meet_sdJwt (algs algs' : List String) :
    Meet (sdJwtFormats algs) (sdJwtFormats algs') (sdJwtWallet algs) (sdJwtVerifier algs') where
  wallet := rfl
  verifier := by
    have hc : (sdJwtFormats algs').Canonical := by
      intro e he
      obtain rfl : e = (.sdJwtVc, .sdJwtAlgValues algs' algs') := List.mem_singleton.mp he
      exact ⟨rfl, trivial⟩
    rw [sdJwtVerifier, UntypedObject.get_insertParam_self]
    exact congrArg some (VpFormatsSupported.tryFrom_intoJson hc)

theorem validateVpFormatsSupported_sdJwt :
    (validateVpFormatsSupported (sdJwtVerifier ["ES256"]) (sdJwtWallet ["ES256", "ES384"]) none =
        .ok () ↔
      validateVpFormatsSupported (sdJwtVerifier ["ES256", "ES384"]) (sdJwtWallet ["ES256"]) none =
        .ok ()) ∧
    (validateVpFormatsSupported (sdJwtVerifier ["ES256"]) (sdJwtWallet ["ES256", "ES384"])
        none).mapError Error.code =
      (validateVpFormatsSupported (sdJwtVerifier ["ES256", "ES256"])
        (sdJwtWallet ["ES384", "ES256"]) none).mapError Error.code := by
  have h (algs algs' : List String) (ha : SameElements algs algs') :
      (sdJwtFormats algs).SameFormats (sdJwtFormats algs') := by
    intro d
    by_cases hd : d = .sdJwtVc
    · subst hd
      exact .some (.sdJwtAlgValues ha ha)
    · rw [sdJwtFormats, ClaimFormatMap.get?_insert_of_ne hd, sdJwtFormats,
        ClaimFormatMap.get?_insert_of_ne hd]
      exact .none
  refine validateVpFormatsSupported_symm_and_unordered (meet_sdJwt _ _) (meet_sdJwt _ _)
    (meet_sdJwt _ _) (h _ _ fun a => ?_) (h _ _ fun a => ?_) none none
  · simp [or_comm]
  · simp

theorem supportsSecurityMethod_iff_es384 :
    ((VpFormatsSupported.mk (sdJwtFormats ["ES256"])).supportsSecurityMethod .sdJwtVc "ES384" =
        true ↔
      (VpFormatsSupported.mk (sdJwtFormats ["ES256"])).containsClaimFormatWithPayload .sdJwtVc
        (.sdJwtAlgValues ["ES384"] ["ES384"]) = true) ↔
      ∀ sd kb, ClaimFormatPayload.sdJwtAlgValues ["ES256"] ["ES256"] = .sdJwtAlgValues sd kb →
        ¬("ES384" ∈ sd ∧ "ES384" ∈ kb) :=
  supportsSecurityMethod_iff_contains_iff rfl rfl

/-- An algorithm of the main format is not found. -/
theorem not_supportsSecurityMethod_es256 :
    ¬((VpFormatsSupported.mk (sdJwtFormats ["ES256"])).supportsSecurityMethod .sdJwtVc "ES256" =
        true ↔
      (VpFormatsSupported.mk (sdJwtFormats ["ES256"])).containsClaimFormatWithPayload .sdJwtVc
        (.sdJwtAlgValues ["ES256"] ["ES256"]) = true) :=
  fun h => Bool.false_ne_true (h.mpr rfl)

end Sample
end OpenID4VP
