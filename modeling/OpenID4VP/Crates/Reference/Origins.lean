import OpenID4VP.Crates.Reference

/-! # Origins of the reference URLs

The reference URLs keep the laws of origins: the text of an origin is read as a URL of the same
scheme, host and port, and the URL in the path of a URL is shorter than the URL. -/

namespace OpenID4VP.Reference
namespace UrlText

/-! ## The parts of a URL -/

theorem parts_eq_of_authority {u : UrlText} {scheme rest : List Char}
    (h : splitList ':' u.base = some (scheme, '/' :: '/' :: rest)) :
    u.parts = (scheme, rest.takeWhile (· ≠ '/'), rest.dropWhile (· ≠ '/')) := by
  rw [parts, h]
  rfl

theorem parts_eq_of_path {u : UrlText} {scheme rest : List Char}
    (h : splitList ':' u.base = some (scheme, rest)) (hr : ∀ r, rest ≠ '/' :: '/' :: r) :
    u.parts = (scheme, [], rest) := by
  rw [parts, h]
  split
  · next hs => cases hs; exact absurd rfl (hr _)
  · next hs => cases hs; rfl
  · next hs => cases hs

/-- Where a URL is cut into its parts. -/
theorem exists_parts (u : UrlText) : ∃ scheme rest, u.base = scheme ++ ':' :: rest ∧
    (scheme ≠ [] ∧ ∀ c ∈ scheme, isSchemeChar c = true) ∧ ('?' ∉ rest ∧ '#' ∉ rest) ∧
    (u.parts = (scheme, [], rest) ∨ ∃ r, rest = '/' :: '/' :: r ∧
      u.parts = (scheme, r.takeWhile (· ≠ '/'), r.dropWhile (· ≠ '/'))) := by
  have hb := u.isBase_base
  rw [isBase] at hb
  split at hb
  · next scheme rest hs =>
    simp only [Bool.and_eq_true, Bool.not_eq_true', List.isEmpty_eq_false_iff, List.all_eq_true,
      decide_eq_true_eq] at hb
    obtain ⟨⟨⟨hne, hsc⟩, hq⟩, hf⟩ := hb
    refine ⟨scheme, rest, (splitList_eq_some_iff.mp hs).1, ⟨hne, hsc⟩, ⟨hq, hf⟩, ?_⟩
    by_cases hr : ∃ r, rest = '/' :: '/' :: r
    · obtain ⟨r, rfl⟩ := hr
      exact .inr ⟨r, rfl, parts_eq_of_authority hs⟩
    · exact .inl (parts_eq_of_path hs fun r h => hr ⟨r, h⟩)
  · exact absurd hb Bool.false_ne_true

theorem path_length_lt (u : UrlText) : u.parts.2.2.length < u.base.length := by
  obtain ⟨scheme, rest, hs, -, -, hp⟩ := u.exists_parts
  have hb : rest.length < u.base.length := by
    rw [hs, List.length_append, List.length_cons]
    omega
  rcases hp with hp | ⟨r, rfl, hp⟩
  · rw [hp]
    exact hb
  · rw [hp]
    calc (r.dropWhile (· ≠ '/')).length
      _ ≤ r.length := (List.dropWhile_sublist _).length_le
      _ ≤ ('/' :: '/' :: r).length := Nat.le_add_right r.length 2
      _ < u.base.length := hb

theorem scheme_of_parts (u : UrlText) :
    u.parts.1 ≠ [] ∧ ∀ c ∈ u.parts.1, isSchemeChar c = true := by
  obtain ⟨scheme, rest, -, hs, -, hp | ⟨r, -, hp⟩⟩ := u.exists_parts
  · rwa [hp]
  · rwa [hp]

/-- The authority ends before the path, the query and the fragment. -/
theorem not_mem_authority (u : UrlText) :
    ∀ c ∈ u.parts.2.1, c ≠ '/' ∧ c ≠ '?' ∧ c ≠ '#' := by
  obtain ⟨scheme, rest, -, -, ⟨hq, hf⟩, hp | ⟨r, rfl, hp⟩⟩ := u.exists_parts
  · rw [hp]
    exact List.forall_mem_nil _
  · rw [hp]
    intro c hc
    have hm : c ∈ '/' :: '/' :: r :=
      List.mem_cons_of_mem _ (List.mem_cons_of_mem _ ((List.takeWhile_sublist _).subset hc))
    refine ⟨by simpa using List.mem_takeWhile_imp hc, ?_, ?_⟩
    · rintro rfl
      exact hq hm
    · rintro rfl
      exact hf hm

/-! ## Reading an authority -/

theorem base_length_le {cs : List Char} {v : UrlText} (h : parse cs = some v) :
    v.base.length ≤ cs.length := by
  have hp {cs : List Char} {f : Option (List Char)} (h : ofParts cs f = some v) :
      v.base.length ≤ cs.length := by
    rw [ofParts] at h
    split at h
    · next base query hs =>
      split at h
      · cases h
        rw [(splitList_eq_some_iff.mp hs).1, List.length_append]
        exact Nat.le_add_right _ _
      · cases h
    · split at h
      · cases h
        exact le_rfl
      · cases h
  rw [parse] at h
  split at h
  · next url fragment hs =>
    rw [(splitList_eq_some_iff.mp hs).1, List.length_append]
    exact Nat.le_add_right_of_le (hp h)
  · exact hp h

theorem exists_parse {scheme authority : List Char} (hne : scheme ≠ [])
    (hs : ∀ c ∈ scheme, isSchemeChar c = true)
    (ha : ∀ c ∈ authority, c ≠ '/' ∧ c ≠ '?' ∧ c ≠ '#') :
    ∃ v, parse (scheme ++ ':' :: '/' :: '/' :: authority) = some v ∧
      v.parts = (scheme, authority, []) := by
  have hn {c : Char} (hc : isSchemeChar c = false) : c ∉ scheme := by
    intro hm
    rw [hs c hm] at hc
    cases hc
  have hsplit := splitList_append (hn (c := ':') (by decide)) ('/' :: '/' :: authority)
  have hq : '?' ∉ '/' :: '/' :: authority := by
    simp only [List.mem_cons, not_or]
    exact ⟨by decide, by decide, fun hm => (ha _ hm).2.1 rfl⟩
  have hf : '#' ∉ '/' :: '/' :: authority := by
    simp only [List.mem_cons, not_or]
    exact ⟨by decide, by decide, fun hm => (ha _ hm).2.2 rfl⟩
  have hb : isBase (scheme ++ ':' :: '/' :: '/' :: authority) = true := by
    rw [isBase, hsplit]
    simp only [Bool.and_eq_true, Bool.not_eq_true', List.isEmpty_eq_false_iff, List.all_eq_true,
      decide_eq_true_eq]
    exact ⟨⟨⟨hne, hs⟩, hq⟩, hf⟩
  have hu : isUrl (scheme ++ ':' :: '/' :: '/' :: authority) none = true := by
    rw [isUrl, hb]
    rfl
  refine ⟨⟨_, none, none, hu⟩, parse_print ⟨_, none, none, hu⟩, ?_⟩
  rw [parts_eq_of_authority hsplit]
  have ht : authority.takeWhile (· ≠ '/') = authority :=
    List.takeWhile_eq_self_iff.mpr fun c hc => decide_eq_true (ha c hc).1
  have hd : authority.dropWhile (· ≠ '/') = [] :=
    List.dropWhile_eq_nil_iff.mpr fun c hc => decide_eq_true (ha c hc).1
  rw [ht, hd]

theorem readPort_toDigits (p : UInt16) : readPort (Nat.toDigits 10 p.toNat) = some p := by
  rw [readPort, Json.Text.readDigits_toDigits]
  change (if p.toNat < UInt16.size then some (UInt16.ofNat p.toNat) else none) = some p
  rw [if_pos p.toNat_lt, UInt16.ofNat_toNat]

/-- The characters of a port in an authority. -/
def portText : Option UInt16 → List Char
  | some p => ':' :: Nat.toDigits 10 p.toNat
  | none => []

theorem not_mem_portText (p : Option UInt16) :
    ∀ c ∈ portText p, c ≠ '/' ∧ c ≠ '?' ∧ c ≠ '#' := by
  have hd {n : Nat} {c : Char} (h : c.isDigit = false) : c ∉ Nat.toDigits 10 n := by
    intro hm
    rw [Json.Text.isDigit_toDigits c hm] at h
    cases h
  intro c hc
  cases p with
  | none => cases hc
  | some p =>
    rcases List.mem_cons.mp hc with rfl | hc
    · decide
    · refine ⟨?_, ?_, ?_⟩ <;> rintro rfl <;> exact hd (by decide) hc

/-- A host and a port are found again in the authority made of them. -/
theorem port_of_authority {v : UrlText} {host : List Char} {p : Option UInt16}
    (hh : ':' ∉ host) (hv : v.parts.2.1 = host ++ portText p) :
    v.host = String.ofList host ∧ v.port = p.filter fun p => defaultPort v.scheme ≠ some p := by
  have ht : ∀ c ∈ host, decide (c ≠ ':') = true := by
    intro c hc
    rw [decide_eq_true_iff]
    rintro rfl
    exact hh hc
  constructor
  · rw [UrlText.host, hv]
    refine congrArg String.ofList ?_
    refine Json.Text.takeWhile_append ht ?_
    cases p <;> simp [portText]
  · rw [port, hv]
    cases p with
    | none =>
      rw [portText, List.append_nil, splitList_eq_none_iff.mpr hh]
      rfl
    | some p =>
      rw [portText, splitList_append hh]
      change (readPort (Nat.toDigits 10 p.toNat)).filter _ = _
      rw [readPort_toDigits]

end UrlText

/-! ## Origins -/

scoped instance urlParts : UrlParts where
  scheme := UrlText.scheme
  host := UrlText.host
  port := UrlText.port
  unicodeHost host := host

theorem originUrl_eq_some_iff {n : Nat} {u v : UrlText} (h : u.base.length < n) :
    UrlText.originUrl n u = some v ↔ OriginUrl u v := by
  induction n generalizing u with
  | zero => exact absurd h (Nat.not_lt_zero _)
  | succ n ih =>
    have hlt {w : UrlText} (hw : UrlText.parse u.parts.2.2 = some w) : w.base.length < n := by
      have hp := u.path_length_lt
      have hl := UrlText.base_length_le hw
      omega
    have hpath : UrlCrate.parse (UrlCrate.path u) = UrlText.parse u.parts.2.2 :=
      congrArg UrlText.parse String.toList_ofList
    rw [UrlText.originUrl]
    constructor
    · intro ho
      split at ho
      · next hs =>
        cases ho
        exact .own hs
      · split at ho
        · next hb =>
          obtain ⟨w, hw, ho⟩ := Option.bind_eq_some_iff.mp ho
          exact .blob hb (hpath.trans hw) ((ih (hlt hw)).mp ho)
        · cases ho
    · intro ho
      cases ho with
      | own hs => exact if_pos hs
      | @blob _ w _ hb hw ho =>
        have hb : u.scheme = "blob" := hb
        have hn : ¬(defaultPort u.scheme).isSome = true := by
          rw [hb]
          decide
        have hw := hpath.symm.trans hw
        rw [if_neg hn, if_pos hb, hw]
        exact (ih (hlt hw)).mpr ho

/-- The text of a scheme and an authority. -/
theorem toList_originText (u : UrlText) (p : Option UInt16) :
    (originText u.scheme u.host p).toList =
      u.parts.1 ++ ':' :: '/' :: '/' ::
        (u.parts.2.1.takeWhile (· ≠ ':') ++ UrlText.portText p) := by
  unfold originText UrlText.scheme UrlText.host
  cases p with
  | none => simp [UrlParts.unicodeHost, UrlText.portText]
  | some p => simp [UrlParts.unicodeHost, UrlText.portText, Nat.repr]

/-- The text of an origin is read as a URL of its scheme, host and port. -/
theorem parse_originText (u : UrlText) (p : Option UInt16) :
    ∃ v : UrlText, UrlCrate.parse (originText u.scheme u.host p) = some v ∧
      v.scheme = u.scheme ∧ v.host = u.host ∧
      portOrKnownDefault v = p.or (defaultPort u.scheme) := by
  obtain ⟨hne, hsc⟩ := u.scheme_of_parts
  have hauthority : ∀ c ∈ u.parts.2.1.takeWhile (· ≠ ':') ++ UrlText.portText p,
      c ≠ '/' ∧ c ≠ '?' ∧ c ≠ '#' := by
    intro c hc
    rcases List.mem_append.mp hc with hc | hc
    · exact u.not_mem_authority c ((List.takeWhile_sublist _).subset hc)
    · exact UrlText.not_mem_portText p c hc
  have hcolon : ':' ∉ u.parts.2.1.takeWhile (· ≠ ':') := by
    intro hm
    have h := List.mem_takeWhile_imp hm
    simp at h
  obtain ⟨v, hv, hparts⟩ := UrlText.exists_parse hne hsc hauthority
  have hscheme : v.scheme = u.scheme := by rw [UrlText.scheme, hparts, UrlText.scheme]
  obtain ⟨hhost, hport⟩ := UrlText.port_of_authority hcolon (congrArg (·.2.1) hparts)
  refine ⟨v, ?_, hscheme, hhost, ?_⟩
  · change UrlText.parse (originText u.scheme u.host p).toList = some v
    rw [toList_originText, hv]
  · change v.port.or (defaultPort v.scheme) = _
    rw [hport, hscheme]
    cases p with
    | none => rfl
    | some p =>
      by_cases hd : defaultPort u.scheme = some p
      · rw [Option.filter_some_neg (by simpa using hd), hd]
        rfl
      · rw [Option.filter_some_pos (by simpa using hd)]

scoped instance urlOrigins : UrlOrigins where
  origin_eq_tuple u v p h hp := by
    have ho := (originUrl_eq_some_iff (Nat.lt_succ_self _)).mpr h
    change v.port.or (defaultPort v.scheme) = some p at hp
    change UrlText.origin u = .tuple v.scheme v.host p
    rw [UrlText.origin, ho]
    change Origin.tuple v.scheme v.host ((v.port.or (defaultPort v.scheme)).getD 0) = _
    rw [hp]
    rfl
  origin_eq_unique u h := by
    change UrlText.origin u = .unique
    rw [UrlText.origin]
    cases ho : UrlText.originUrl (u.base.length + 1) u with
    | none => rfl
    | some v => exact absurd ⟨v, (originUrl_eq_some_iff (Nat.lt_succ_self _)).mp ho⟩ h
  unicodeSerialization_tuple scheme host p := by
    change UrlText.unicodeSerialization (.tuple scheme host p) = _
    unfold UrlText.unicodeSerialization originText
    dsimp only
    split <;> rfl
  unicodeSerialization_unique := rfl
  parse_null := rfl
  parse_originText u p _ := parse_originText u p

end OpenID4VP.Reference
