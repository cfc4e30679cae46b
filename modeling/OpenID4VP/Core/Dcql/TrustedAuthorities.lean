import OpenID4VP.Core.Dcql.RoundTrip
import OpenID4VP.Crates.Reference

/-! # Trusted authorities

A trusted authority is read from a type and the texts of its values. `trustedAuthorityCodec` says
which are read, and that they are written as they were: a key identifier is kept with its text, and
its bytes are those of the text. -/

namespace OpenID4VP

section
variable [Base64Url]

namespace KeyIdentifier

/-- The text is that of a key identifier, with or without padding. -/
def IsText (encoded : String) : Prop :=
  ∃ bytes, bytes ≠ [] ∧ Base64Url.decode (trimEndMatches '=' encoded) = some bytes

omit [Base64Url] in
theorem ofBytes_eq_ok_iff {encoded : String} {bytes : List UInt8} {k : KeyIdentifier} :
    ofBytes encoded bytes = .ok k ↔ k.encoded = encoded ∧ k.bytes = bytes := by
  obtain ⟨e, bs, hne⟩ := k
  rw [ofBytes]
  split
  · rw [Except.pure_eq_ok_iff, KeyIdentifier.mk.injEq, eq_comm, eq_comm (a := bytes)]
  · next h =>
    refine iff_of_false Except.throw_ne_ok ?_
    rintro ⟨-, rfl⟩
    exact h hne

/-- A key identifier keeps its text, and has the bytes of it. -/
theorem fromBase64url_eq_ok_iff {encoded : String} {k : KeyIdentifier} :
    fromBase64url encoded = .ok k ↔
      k.encoded = encoded ∧ Base64Url.decode (trimEndMatches '=' encoded) = some k.bytes := by
  rw [fromBase64url]
  cases Base64Url.decode (trimEndMatches '=' encoded) with
  | none => exact iff_of_false Except.throw_ne_ok fun h => Option.some_ne_none _ h.2.symm
  | some bytes =>
    change ofBytes encoded bytes = .ok k ↔ _
    rw [ofBytes_eq_ok_iff, Option.some_inj, eq_comm (a := k.bytes)]

theorem exists_fromBase64url_iff {encoded : String} :
    (∃ k, fromBase64url encoded = .ok k) ↔ IsText encoded := by
  constructor
  · rintro ⟨k, hk⟩
    exact ⟨k.bytes, k.nonempty, (fromBase64url_eq_ok_iff.mp hk).2⟩
  · rintro ⟨bytes, hne, hb⟩
    exact ⟨⟨encoded, bytes, hne⟩, fromBase64url_eq_ok_iff.mpr ⟨rfl, hb⟩⟩

/-- A key identifier of some bytes is the one that is read from its text. -/
theorem fromBase64url_of_fromBytes [Base64NoPad] {bytes : List UInt8} {k : KeyIdentifier}
    (h : fromBytes bytes = .ok k) : fromBase64url k.encoded = .ok k := by
  obtain ⟨he, hb⟩ := ofBytes_eq_ok_iff.mp h
  have ht : trimEndMatches '=' k.encoded = k.encoded := by
    rw [he]
    exact trimEndMatches_of_not_mem (Base64NoPad.not_mem_encode bytes)
  refine fromBase64url_eq_ok_iff.mpr ⟨rfl, ?_⟩
  rw [ht, he, Base64Url.decode_encode, hb]

end KeyIdentifier

namespace TrustedAuthority

def keyIdentifiers : TrustedAuthority → List KeyIdentifier
  | aki values => values.toList
  | _ => []

/-- Well-formed authorities are read from what they are written as, and nothing else is read. -/
theorem fromRaw_eq_ok_iff {raw : RawTrustedAuthority} {a : TrustedAuthority} :
    fromRaw raw = .ok a ↔ a.intoRaw = raw ∧ a.WellFormed := by
  constructor
  · intro h
    obtain ⟨type, values⟩ := raw
    rw [fromRaw] at h
    split at h
    · next ht =>
      obtain rfl : type = "aki" := ht
      obtain ⟨ks, hks, h⟩ := Except.bind_eq_ok_iff.mp h
      obtain rfl := Except.pure_eq_ok_iff.mp h
      obtain ⟨hmap, hall⟩ := (NonEmptyVec.mapM_eq_ok_iff_map fun hk =>
        (KeyIdentifier.fromBase64url_eq_ok_iff.mp hk).1).mp hks
      exact ⟨congrArg (RawTrustedAuthority.mk "aki") hmap, hall⟩
    next h1 =>
    split at h
    · next ht =>
      obtain rfl : type = "etsi_tl" := ht
      obtain rfl := Except.pure_eq_ok_iff.mp h
      exact ⟨rfl, trivial⟩
    next h2 =>
    split at h
    · next ht =>
      obtain rfl : type = "openid_federation" := ht
      obtain rfl := Except.pure_eq_ok_iff.mp h
      exact ⟨rfl, trivial⟩
    next h3 =>
    obtain rfl := Except.pure_eq_ok_iff.mp h
    refine ⟨rfl, ?_⟩
    simp only [WellFormed, List.mem_cons, List.not_mem_nil, or_false, not_or]
    exact ⟨h1, h2, h3⟩
  · rintro ⟨rfl, hw⟩
    exact hw.fromRaw_intoRaw

theorem exists_fromRaw_iff {raw : RawTrustedAuthority} : (∃ a, fromRaw raw = .ok a) ↔
    raw.type ≠ "aki" ∨ ∀ v ∈ raw.values.toList, KeyIdentifier.IsText v := by
  by_cases ht : raw.type = "aki"
  · have hr : (∃ a, fromRaw raw = .ok a) ↔
        ∃ ks, raw.values.mapM KeyIdentifier.fromBase64url = .ok ks := by
      rw [fromRaw, if_pos ht]
      simp only [Except.bind_eq_ok_iff, Except.pure_eq_ok_iff]
      constructor
      · rintro ⟨_, ks, hks, -⟩
        exact ⟨ks, hks⟩
      · rintro ⟨ks, hks⟩
        exact ⟨_, ks, hks, rfl⟩
    rw [hr, NonEmptyVec.exists_mapM_eq_ok_iff, or_iff_right (not_not.mpr ht)]
    simp only [KeyIdentifier.exists_fromBase64url_iff]
  · refine iff_of_true ?_ (.inl ht)
    rw [fromRaw, if_neg ht]
    split
    · exact ⟨_, rfl⟩
    split <;> exact ⟨_, rfl⟩

/-- An authority of the type `aki` is read as one with a key identifier for each text. -/
theorem exists_aki_of_fromRaw {values : NonEmptyVec String} {a : TrustedAuthority}
    (h : fromRaw ⟨"aki", values⟩ = .ok a) :
    ∃ keys : NonEmptyVec KeyIdentifier, a = aki keys ∧ keys.map KeyIdentifier.encoded = values := by
  obtain ⟨hr, hw⟩ := fromRaw_eq_ok_iff.mp h
  cases a with
  | aki keys => exact ⟨keys, rfl, congrArg RawTrustedAuthority.values hr⟩
  | etsiTl | openidFederation => simp [intoRaw] at hr
  | other type values =>
    obtain rfl : type = "aki" := congrArg RawTrustedAuthority.type hr
    exact absurd List.mem_cons_self hw

/-- The bytes of the key identifiers of an authority that is read are those of their texts. -/
theorem decode_of_mem_keyIdentifiers {raw : RawTrustedAuthority} {a : TrustedAuthority}
    (h : fromRaw raw = .ok a) {k : KeyIdentifier} (hk : k ∈ a.keyIdentifiers) :
    Base64Url.decode (trimEndMatches '=' k.encoded) = some k.bytes := by
  have hw := (fromRaw_eq_ok_iff.mp h).2
  cases a with
  | aki values => exact (KeyIdentifier.fromBase64url_eq_ok_iff.mp (hw k hk)).2
  | _ => cases hk

end TrustedAuthority

/-- The types and values that are read as an authority, which is written as the same ones and has
the key identifiers of the texts; and the key identifiers of bytes, which are those that are read
from their texts. -/
theorem trustedAuthorityCodec [Base64NoPad] :
    (∀ type values, (∃ a, TrustedAuthority.fromRaw ⟨type, values⟩ = .ok a) ↔
      type ≠ "aki" ∨ ∀ v ∈ values.toList, KeyIdentifier.IsText v) ∧
    (∀ type values a, TrustedAuthority.fromRaw ⟨type, values⟩ = .ok a →
      a.intoRaw = ⟨type, values⟩ ∧
      (type = "aki" → ∃ keys : NonEmptyVec KeyIdentifier,
        a = .aki keys ∧ keys.map KeyIdentifier.encoded = values) ∧
      ∀ k ∈ a.keyIdentifiers,
        Base64Url.decode (trimEndMatches '=' k.encoded) = some k.bytes) ∧
    ∀ bytes, bytes ≠ [] → ∃ k, KeyIdentifier.fromBytes bytes = .ok k ∧
      KeyIdentifier.fromBase64url k.encoded = .ok k := by
  refine ⟨fun _ _ => TrustedAuthority.exists_fromRaw_iff, fun type values a h => ⟨?_, ?_, ?_⟩,
    fun bytes hne => ?_⟩
  · exact (TrustedAuthority.fromRaw_eq_ok_iff.mp h).1
  · rintro rfl
    exact TrustedAuthority.exists_aki_of_fromRaw h
  · exact fun _ => TrustedAuthority.decode_of_mem_keyIdentifiers h
  · have hk : KeyIdentifier.fromBytes bytes =
        .ok ⟨Base64Url.encode bytes, bytes, hne⟩ := KeyIdentifier.ofBytes_eq_ok_iff.mpr ⟨rfl, rfl⟩
    exact ⟨_, hk, KeyIdentifier.fromBase64url_of_fromBytes hk⟩

end

/-! ## Key identifiers with and without padding -/

namespace Sample
open scoped Reference

/-- The texts of two key identifiers. -/
def keyTexts : NonEmptyVec String := ⟨["AQI=", "AwQF"], List.cons_ne_nil _ _⟩

theorem intoRaw_padded : ∃ a, TrustedAuthority.fromRaw ⟨"aki", keyTexts⟩ = .ok a ∧
    a.intoRaw = ⟨"aki", keyTexts⟩ ∧ (∃ k k', a.keyIdentifiers = [k, k'] ∧
      k.encoded = "AQI=" ∧ k.bytes = [1, 2] ∧ k'.encoded = "AwQF" ∧ k'.bytes = [3, 4, 5]) ∧
    KeyIdentifier.fromBase64url (Base64Url.encode [1, 2]) =
      .ok ⟨"AQI", [1, 2], List.cons_ne_nil _ _⟩ := by
  obtain ⟨hread, hwrite, hbytes⟩ := trustedAuthorityCodec
  have h1 : Base64Url.decode (trimEndMatches '=' "AQI=") = some [1, 2] := rfl
  have h2 : Base64Url.decode (trimEndMatches '=' "AwQF") = some [3, 4, 5] := rfl
  have ht : ∀ v ∈ keyTexts.toList, KeyIdentifier.IsText v :=
    List.forall_mem_cons.mpr ⟨⟨_, List.cons_ne_nil _ _, h1⟩,
      List.forall_mem_singleton.mpr ⟨_, List.cons_ne_nil _ _, h2⟩⟩
  obtain ⟨a, ha⟩ := (hread "aki" keyTexts).mpr (.inr ht)
  obtain ⟨hraw, hkeys, hdecode⟩ := hwrite _ _ a ha
  obtain ⟨⟨keys, hne⟩, rfl, hk⟩ := hkeys rfl
  have hk : keys.map KeyIdentifier.encoded = ["AQI=", "AwQF"] :=
    congrArg NonEmptyVec.toList hk
  obtain ⟨k, _, rfl, he, hk⟩ := List.map_eq_cons_iff.mp hk
  obtain ⟨k', _, rfl, he', hk⟩ := List.map_eq_cons_iff.mp hk
  obtain rfl := List.map_eq_nil_iff.mp hk
  have hb : some [1, 2] = some k.bytes := h1.symm.trans (he ▸ hdecode k List.mem_cons_self)
  have hb' : some [3, 4, 5] = some k'.bytes :=
    h2.symm.trans (he' ▸ hdecode k' (List.mem_cons_of_mem k List.mem_cons_self))
  obtain ⟨l, hl, hl'⟩ := hbytes [1, 2] (List.cons_ne_nil _ _)
  cases hl
  exact ⟨_, ha, hraw, ⟨k, k', rfl, he, (Option.some.inj hb).symm, he',
    (Option.some.inj hb').symm⟩, hl'⟩

end Sample
end OpenID4VP
