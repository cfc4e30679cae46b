import OpenID4VP.Crates.Reference
import OpenID4VP.Lib.Split

/-! # Reference implementations for signatures

Base64 is canonical, tokens are put together from their parts, and certificates are read back. -/

namespace OpenID4VP.Reference

/-- What the digits of the alphabet have holds of all that is written. -/
theorem holds_of_mem_print (p : Char → Bool) (ha : Base64.alphabet.all p = true) {bs : List UInt8}
    {c : Char} (hc : c ∈ Base64.print bs) : p c = true :=
  List.all_eq_true.mp ha c (Base64.mem_alphabet_of_mem_print bs c hc)

scoped instance base64Canonical : Base64Canonical where
  encode_of_decode s bs h := by
    change String.ofList (Base64.print bs) = s
    rw [Base64.print_read h, String.ofList_toList]
  isDigit_encode bs c hc := by
    change c ∈ (String.ofList (Base64.print bs)).toList at hc
    rw [String.toList_ofList] at hc
    refine holds_of_mem_print (fun c => c.isAlphanum || c == '-' || c == '_') ?_ hc
    decide +kernel

scoped instance ssiJwsParts : SsiJwsParts where
  eq_of_splitJws jwt _ _ _ hs := by
    obtain ⟨⟨h, b, s⟩, ht, he⟩ := Option.map_eq_some_iff.mp hs
    cases he
    change splitToken jwt.toList = _ at ht
    simp only [splitToken, Option.bind_eq_bind, Option.bind_eq_some_iff, Option.pure_def,
      Option.some.injEq] at ht
    obtain ⟨⟨h, rest⟩, hh, ⟨b, s⟩, hb, ht⟩ := ht
    cases ht
    obtain ⟨hj, -⟩ := splitList_eq_some_iff.mp hh
    obtain ⟨rfl, -⟩ := splitList_eq_some_iff.mp hb
    refine String.toList_inj.mp ?_
    simp [hj]

theorem urlDigit_standardDigit {bs : List UInt8} {c : Char} (h : c ∈ Base64.print bs) :
    urlDigit (standardDigit c) = c := by
  refine beq_iff_eq.mp (holds_of_mem_print (fun c => urlDigit (standardDigit c) == c) ?_ h)
  decide +kernel

theorem standardDigit_ne {bs : List UInt8} {c : Char} (h : c ∈ Base64.print bs) :
    standardDigit c ≠ '=' := by
  refine bne_iff_ne.mp (holds_of_mem_print (fun c => standardDigit c != '=') ?_ h)
  decide +kernel

scoped instance x509Codec : X509Codec where
  fromDer_toDer _ _ h := h.symm
  decodeStandard_encodeStandard bs := by
    have hn : '=' ∉ (Base64.print bs).map standardDigit := by
      intro h
      obtain ⟨c, hc, he⟩ := List.mem_map.mp h
      exact standardDigit_ne hc he
    have hm : ((Base64.print bs).map standardDigit).map urlDigit = Base64.print bs := by
      rw [List.map_map]
      refine (List.map_congr_left fun c hc => ?_).trans (List.map_id _)
      exact urlDigit_standardDigit hc
    change decodeStandard (trimEndMatches '=' (String.ofList (_ ++ List.replicate _ '='))) = _
    rw [trimEndMatches_append_replicate hn, decodeStandard, String.toList_ofList, hm,
      Base64.read_print]

end OpenID4VP.Reference
