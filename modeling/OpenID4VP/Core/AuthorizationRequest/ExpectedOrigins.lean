import OpenID4VP.Core.AuthorizationRequest.Parameters
import OpenID4VP.Crates.Reference.Origins

/-! # Expected origins

Expected origins are read from texts of URLs, and each is written as its own text. What is written
is read as the same origins if every URL has an origin with a host (`roundTripsOrigins_iff`): the
others have unique origins, whose text is that of no URL. -/

namespace OpenID4VP

/-- Origins that compare equal. A unique origin is not equal to one of another reading. -/
inductive Origin.SameAs : Origin → Origin → Prop
  | tuple : SameAs (.tuple scheme host port) (.tuple scheme host port)

section
variable [UrlCrate]

namespace ExpectedOrigins

/-- The origins are read back from what they are written as. -/
def RoundTrips (x : ExpectedOrigins) : Prop :=
  ∃ y : ExpectedOrigins, TypedParameter.tryFrom (TypedParameter.intoJson x) = .ok y ∧
    List.Forall₂ Origin.SameAs x.origins.toList y.origins.toList

variable [UrlParts]

/-- The text of a URL whose origin has a host. -/
def HasHost (s : String) : Prop := ∃ u v, UrlCrate.parse s = some u ∧ OriginUrl u v

/-- All texts in the value have hosts. -/
def HaveHosts (value : Json) : Prop :=
  ∀ texts : List String, value = .array (texts.map .string) → ∀ s ∈ texts, HasHost s

/-! ## One origin -/

omit [UrlParts] in
theorem parseOrigin_eq_ok_iff {s : String} {o : Origin} :
    parseOrigin s = .ok o ↔ ∃ u, UrlCrate.parse s = some u ∧ UrlCrate.origin u = o := by
  rw [parseOrigin]
  cases UrlCrate.parse s with
  | none => exact iff_of_false Except.throw_ne_ok fun ⟨_, h, _⟩ => Option.some_ne_none _ h.symm
  | some u => simp

theorem isSome_of_originUrl {u v : Url} (h : OriginUrl u v) :
    (defaultPort (UrlParts.scheme v)).isSome = true := by
  induction h with
  | own hs => exact hs
  | blob _ _ _ ih => exact ih

variable [UrlOrigins]

/-- An origin with a host is written as a URL of its scheme, host and port. -/
theorem parseOrigin_unicodeSerialization {u v : Url} (h : OriginUrl u v) :
    ∃ o, parseOrigin (UrlCrate.unicodeSerialization (UrlCrate.origin u)) = .ok o ∧
      (UrlCrate.origin u).SameAs o := by
  have hs := isSome_of_originUrl h
  obtain ⟨d, hd⟩ := Option.isSome_iff_exists.mp hs
  obtain ⟨p, hp⟩ : ∃ p, portOrKnownDefault v = some p := by
    rw [portOrKnownDefault, hd]
    cases UrlParts.port v with
    | none => exact ⟨d, rfl⟩
    | some p => exact ⟨p, rfl⟩
  obtain ⟨w, hw, hscheme, hhost, hport⟩ := UrlOrigins.parse_originText v
    (if defaultPort (UrlParts.scheme v) = some p then none else some p) hs
  have ho : OriginUrl w w := by
    refine .own ?_
    rw [hscheme, hs]
  have hpw : portOrKnownDefault w = some p := by
    rw [hport]
    split
    · next he => exact he
    · rfl
  rw [UrlOrigins.origin_eq_tuple u v p h hp, UrlOrigins.unicodeSerialization_tuple]
  refine ⟨_, parseOrigin_eq_ok_iff.mpr ⟨w, hw, UrlOrigins.origin_eq_tuple w w p ho hpw⟩, ?_⟩
  rw [hscheme, hhost]
  exact .tuple

/-- The text of a unique origin is not read. -/
theorem parseOrigin_unicodeSerialization_unique {o : Origin} :
    parseOrigin (UrlCrate.unicodeSerialization .unique) ≠ .ok o := by
  rw [UrlOrigins.unicodeSerialization_unique, parseOrigin, UrlOrigins.parse_null]
  exact Except.throw_ne_ok

theorem rereads_iff {s : String} {o : Origin} (h : parseOrigin s = .ok o) :
    (∃ o', parseOrigin (UrlCrate.unicodeSerialization o) = .ok o' ∧ o.SameAs o') ↔ HasHost s := by
  obtain ⟨u, hu, rfl⟩ := parseOrigin_eq_ok_iff.mp h
  constructor
  · rintro ⟨o', ho, -⟩
    by_contra hn
    have hv : ¬∃ v, OriginUrl u v := fun ⟨v, hv⟩ => hn ⟨u, v, hu, hv⟩
    rw [UrlOrigins.origin_eq_unique u hv] at ho
    exact parseOrigin_unicodeSerialization_unique ho
  · rintro ⟨u', v, hu', hv⟩
    obtain rfl := Option.some.inj (hu.symm.trans hu')
    exact parseOrigin_unicodeSerialization hv

/-! ## All origins -/

theorem rereadsAll_iff {texts : List String} {os : List Origin}
    (h : texts.mapM parseOrigin = .ok os) :
    (∃ os', (os.map UrlCrate.unicodeSerialization).mapM parseOrigin = .ok os' ∧
      List.Forall₂ Origin.SameAs os os') ↔ ∀ s ∈ texts, HasHost s := by
  induction texts generalizing os with
  | nil =>
    obtain rfl : [] = os := Except.ok.inj h
    exact iff_of_true ⟨[], rfl, .nil⟩ (List.forall_mem_nil _)
  | cons s texts ih =>
    obtain ⟨o, rest, ho, hrest, rfl⟩ := Except.mapM_cons_eq_ok_iff.mp h
    rw [List.forall_mem_cons, ← rereads_iff ho, ← ih hrest, List.map_cons]
    constructor
    · rintro ⟨os', hm, hs⟩
      obtain ⟨o', rest', ho', hrest', rfl⟩ := Except.mapM_cons_eq_ok_iff.mp hm
      obtain ⟨hso, hss⟩ := List.forall₂_cons.mp hs
      exact ⟨⟨o', ho', hso⟩, rest', hrest', hss⟩
    · rintro ⟨⟨o', ho', hso⟩, rest', hrest', hss⟩
      exact ⟨o' :: rest', Except.mapM_cons_eq_ok_iff.mpr ⟨o', rest', ho', hrest', rfl⟩,
        .cons hso hss⟩

omit [UrlParts] [UrlOrigins] in
theorem tryFrom_eq_ok_iff {value : Json} {x : ExpectedOrigins} :
    TypedParameter.tryFrom value = .ok x ↔ ∃ texts : List String,
      value = .array (texts.map .string) ∧ texts.mapM parseOrigin = .ok x.origins.toList := by
  have hread {urls : NonEmptyVec String} :
      fromValue value = .ok urls ↔ value = .array (urls.toList.map .string) := by
    rw [fromValue_eq_ok_iff, ← fromTree_list_eq_some_iff fromTree_eq_text_iff]
    change (fromTree value >>= fun texts => NonEmptyVec.ofList? texts) = some urls ↔ _
    simp [Option.bind_eq_some_iff, NonEmptyVec.ofList?_eq_some_iff]
  change (fromValue value >>= fun urls => NonEmptyVec.mapM parseOrigin urls >>= fun origins =>
    pure ⟨origins⟩) = .ok x ↔ _
  simp only [Except.bind_eq_ok_iff, Except.pure_eq_ok_iff, hread, NonEmptyVec.mapM_eq_ok_iff]
  constructor
  · rintro ⟨urls, hv, _, hm, rfl⟩
    exact ⟨urls.toList, hv, hm⟩
  · rintro ⟨texts, hv, hm⟩
    have hne : texts ≠ [] := by
      intro ht
      subst ht
      exact x.origins.nonempty (Except.ok.inj hm).symm
    exact ⟨⟨texts, hne⟩, hv, x.origins, hm, rfl⟩

omit [UrlCrate] [UrlParts] [UrlOrigins] in
theorem array_string_inj {as bs : List String}
    (h : Json.array (as.map .string) = .array (bs.map .string)) : as = bs :=
  List.map_injective_iff.mpr (fun _ _ => Json.string.inj) (Json.array.inj h)

omit [UrlParts] [UrlOrigins] in
/-- What is read from an array of texts is what they are read as. -/
theorem exists_tryFrom_array_iff {texts : List String} (h : texts ≠ []) {P : List Origin → Prop} :
    (∃ y : ExpectedOrigins, TypedParameter.tryFrom (.array (texts.map .string)) = .ok y ∧
      P y.origins.toList) ↔ ∃ os, texts.mapM parseOrigin = .ok os ∧ P os := by
  constructor
  · rintro ⟨y, hy, hp⟩
    obtain ⟨texts', he, hm⟩ := tryFrom_eq_ok_iff.mp hy
    obtain rfl := array_string_inj he
    exact ⟨_, hm, hp⟩
  · rintro ⟨os, hm, hp⟩
    have hne : os ≠ [] := fun ho => h (mapM_eq_ok_nil_iff.mp (ho ▸ hm))
    exact ⟨⟨⟨os, hne⟩⟩, tryFrom_eq_ok_iff.mpr ⟨texts, rfl, hm⟩, hp⟩

omit [UrlParts] [UrlOrigins] in
theorem intoJson_eq_array (x : ExpectedOrigins) : TypedParameter.intoJson x =
    .array ((x.origins.toList.map UrlCrate.unicodeSerialization).map .string) :=
  congrArg Json.array List.map_map.symm

/-- The origins of a value are read back exactly when all texts in it have hosts. -/
theorem roundTripsOrigins_iff {value : Json} {x : ExpectedOrigins}
    (h : TypedParameter.tryFrom value = .ok x) : x.RoundTrips ↔ HaveHosts value := by
  obtain ⟨texts, rfl, hm⟩ := tryFrom_eq_ok_iff.mp h
  have hne : x.origins.toList.map UrlCrate.unicodeSerialization ≠ [] := by
    rw [Ne, List.map_eq_nil_iff]
    exact x.origins.nonempty
  have hh : HaveHosts (.array (texts.map .string)) ↔ ∀ s ∈ texts, HasHost s := by
    constructor
    · exact fun hh => hh texts rfl
    · intro hh texts' he
      obtain rfl := array_string_inj he
      exact hh
  rw [RoundTrips, intoJson_eq_array, exists_tryFrom_array_iff hne, rereadsAll_iff hm, hh]

end ExpectedOrigins
end

/-! ## Origins with and without a host -/

namespace Sample
open scoped Reference

def webTexts : List String := ["https://verifier.example:8443", "http://verifier.example/login"]

def webOrigins : Json := .array (webTexts.map .string)

theorem haveHosts_webOrigins : ExpectedOrigins.HaveHosts webOrigins := by
  intro texts he s hs
  obtain rfl : webTexts = texts := ExpectedOrigins.array_string_inj he
  rcases List.mem_cons.mp hs with rfl | hs
  · exact ⟨_, _, rfl, .own rfl⟩
  · obtain rfl := List.mem_singleton.mp hs
    exact ⟨_, _, rfl, .own rfl⟩

theorem roundTrips_webOrigins : ∃ x : ExpectedOrigins,
    TypedParameter.tryFrom webOrigins = .ok x ∧ x.RoundTrips := by
  have hx : TypedParameter.tryFrom webOrigins = .ok (⟨⟨[.tuple "https" "verifier.example" 8443,
      .tuple "http" "verifier.example" 80], List.cons_ne_nil _ _⟩⟩ : ExpectedOrigins) :=
    ExpectedOrigins.tryFrom_eq_ok_iff.mpr ⟨webTexts, rfl, rfl⟩
  exact ⟨_, hx, (ExpectedOrigins.roundTripsOrigins_iff hx).mpr haveHosts_webOrigins⟩

/-- The origin of an app, which has no host. -/
def appOrigin : Json := .array [.string "android:apk-key-hash:4vJ1"]

theorem not_roundTrips_appOrigin : ∃ x : ExpectedOrigins,
    TypedParameter.tryFrom appOrigin = .ok x ∧ ¬x.RoundTrips := by
  have hx : TypedParameter.tryFrom appOrigin =
      .ok (⟨⟨[.unique], List.cons_ne_nil _ _⟩⟩ : ExpectedOrigins) :=
    ExpectedOrigins.tryFrom_eq_ok_iff.mpr ⟨["android:apk-key-hash:4vJ1"], rfl, rfl⟩
  refine ⟨_, hx, ?_⟩
  rintro ⟨y, hy, -⟩
  have he : (TypedParameter.tryFrom (.array [.string "null"]) : Except Anyhow ExpectedOrigins) =
      .error (.library "url") := rfl
  cases he.symm.trans hy

end Sample
end OpenID4VP
