import OpenID4VP.Lib.Json.Text
import Mathlib.Data.List.TakeWhile
import Mathlib.Data.List.DropRight

/-! # Round trip of JSON text

Printed trees are read back (`parse_print`). Each reader is run on the text its printer produces,
followed by an arbitrary rest; a number needs the rest to start with something that does not
continue it (`Stop`). -/

namespace OpenID4VP.Json.Text

/-! ## Strings -/

private theorem hex4_control : ∀ n < 32,
    hex4 '0' '0' (hexDigit (n / 16)) (hexDigit n) = some n := by decide

private theorem parseString_control {n : Nat} (h : n < 32) (cs : List Char) :
    parseString ('\\' :: 'u' :: '0' :: '0' :: hexDigit (n / 16) :: hexDigit n :: cs) =
      (parseString cs).map fun p => (Char.ofNat n :: p.1, p.2) := by
  rw [parseString, hex4_control n h]
  simp only [Option.bind_eq_bind, Option.bind_some]
  rw [if_neg (by omega), if_neg (by omega)]
  cases parseString cs <;> rfl

private theorem parseString_escape {c d : Char} (h : simpleEscape d = some c) (hu : d ≠ 'u')
    (cs : List Char) :
    parseString ('\\' :: d :: cs) = (parseString cs).map fun p => (c :: p.1, p.2) := by
  rw [parseString]
  · simp only [h, Option.bind_eq_bind, Option.bind_some]
    cases parseString cs <;> rfl
  · intro _ _ _ _ _ hd
    exact absurd hd hu

private theorem parseString_plain {c : Char} (hq : c ≠ '"') (hb : c ≠ '\\') (h : ¬c.toNat < 32)
    (cs : List Char) :
    parseString (c :: cs) = (parseString cs).map fun p => (c :: p.1, p.2) := by
  rw [parseString]
  · rw [if_neg hq, if_neg (by simp [h, hb])]
    cases parseString cs <;> rfl
  · intro _ _ _ _ _ hc
    exact absurd hc hb
  · intro _ _ hc
    exact absurd hc hb

private theorem char_eq_of_toNat {c : Char} {n : Nat} (h : c.toNat = n) : Char.ofNat n = c := by
  rw [← h, Char.ofNat_toNat]

theorem parseString_escapeChar (c : Char) (cs : List Char) :
    parseString (escapeChar c ++ cs) = (parseString cs).map fun p => (c :: p.1, p.2) := by
  rw [escapeChar]
  split
  · next h => subst h; exact parseString_escape rfl (by decide) cs
  split
  · next h => subst h; exact parseString_escape rfl (by decide) cs
  split
  · next h => exact parseString_escape (by rw [← char_eq_of_toNat h]; rfl) (by decide) cs
  split
  · next h => exact parseString_escape (by rw [← char_eq_of_toNat h]; rfl) (by decide) cs
  split
  · next h => exact parseString_escape (by rw [← char_eq_of_toNat h]; rfl) (by decide) cs
  split
  · next h => exact parseString_escape (by rw [← char_eq_of_toNat h]; rfl) (by decide) cs
  split
  · next h => exact parseString_escape (by rw [← char_eq_of_toNat h]; rfl) (by decide) cs
  split
  · next h => simpa using parseString_control h cs
  · next hq hb _ _ _ _ _ h => exact parseString_plain hq hb h cs

theorem parseString_print (s r : List Char) : parseString (escape s ++ '"' :: r) = some (s, r) := by
  induction s with
  | nil => simp [escape, parseString]
  | cons c s ih =>
    rw [escape, List.flatMap_cons, List.append_assoc, parseString_escapeChar]
    simp only [escape] at ih
    rw [ih, Option.map_some]

/-! ## Numbers -/

theorem takeWhile_append {p : Char → Bool} {cs r : List Char} (h : ∀ c ∈ cs, p c = true)
    (hr : ∀ c ∈ r.head?, p c = false) : (cs ++ r).takeWhile p = cs := by
  rw [List.takeWhile_append_of_pos h]
  cases r with
  | nil => simp
  | cons c r => simp [hr c rfl]

theorem dropWhile_append {p : Char → Bool} {cs r : List Char} (h : ∀ c ∈ cs, p c = true)
    (hr : ∀ c ∈ r.head?, p c = false) : (cs ++ r).dropWhile p = r := by
  rw [List.dropWhile_append_of_pos h]
  cases r with
  | nil => simp
  | cons c r => simp [hr c rfl]

theorem isDigit_toDigits {n : Nat} : ∀ c ∈ Nat.toDigits 10 n, c.isDigit = true :=
  fun _ hc => Nat.isDigit_of_mem_toDigits (by decide) (by decide) hc

private theorem head_digitChar : ∀ n < 10, 0 < n → [Nat.digitChar n].head? ≠ some '0' := by
  decide

private theorem head_toDigits {n : Nat} (h : 0 < n) : (Nat.toDigits 10 n).head? ≠ some '0' := by
  induction n using Nat.strong_induction_on with
  | _ n ih =>
    by_cases hn : n < 10
    · rw [Nat.toDigits_of_lt_base hn]
      exact head_digitChar n hn h
    · have hlt : n / 10 < n := Nat.div_lt_self h (by decide)
      have hpos : 0 < n / 10 := Nat.div_pos (by omega) (by decide)
      rw [Nat.toDigits_of_base_le (by decide) (by omega), List.head?_append]
      have := ih _ hlt hpos
      cases hd : (Nat.toDigits 10 (n / 10)).head? with
      | none => exact absurd (List.head?_eq_none_iff.mp hd) Nat.toDigits_ne_nil
      | some c => simpa [hd] using this

/-- The digits of a number have no superfluous leading zero. -/
theorem toDigits_no_leading_zero (n : Nat) :
    ¬(1 < (Nat.toDigits 10 n).length ∧ (Nat.toDigits 10 n).head? = some '0') := by
  rintro ⟨hl, hz⟩
  rcases Nat.eq_zero_or_pos n with rfl | hn
  · simp [Nat.toDigits_zero] at hl
  · exact head_toDigits hn hz

theorem readDigits_toDigits (n : Nat) : readDigits (Nat.toDigits 10 n) = some n := by
  rw [readDigits, if_pos ⟨Nat.toDigits_ne_nil, List.all_eq_true.mpr isDigit_toDigits⟩,
    Nat.ofDigitChars_ten_toDigits]

theorem readExponent_printInt (e : Int) : readExponent (printInt e) = some e := by
  cases e with
  | ofNat n =>
    have hd := readDigits_toDigits n
    have hall := isDigit_toDigits (n := n)
    simp only [printInt]
    unfold readExponent
    split
    · next h => rw [h] at hall; exact absurd (hall '-' List.mem_cons_self) (by decide)
    · next h => rw [h] at hall; exact absurd (hall '+' List.mem_cons_self) (by decide)
    · rw [hd]; rfl
  | negSucc n =>
    simp only [printInt, readExponent, readDigits_toDigits]
    rfl

/-- A run of digits followed by something else is read as the integer part. -/
theorem readUnsigned_toDigits (neg : Bool) (n : Nat) :
    readUnsigned neg (Nat.toDigits 10 n) = some (integer neg n) := by
  have ht := takeWhile_append (r := []) (isDigit_toDigits (n := n)) (by simp)
  have hd := dropWhile_append (r := []) (isDigit_toDigits (n := n)) (by simp)
  rw [List.append_nil] at ht hd
  simp only [readUnsigned, ht, hd]
  rw [if_neg (by simpa [Nat.toDigits_ne_nil] using toDigits_no_leading_zero n),
    Nat.ofDigitChars_ten_toDigits]

theorem readUnsigned_float (neg : Bool) (digits : Nat) (exponent : Int) :
    readUnsigned neg (Nat.toDigits 10 digits ++ 'e' :: printInt exponent) =
      some (.float neg digits exponent) := by
  have ht := takeWhile_append (r := 'e' :: printInt exponent) (isDigit_toDigits (n := digits))
    (by simp)
  have hd := dropWhile_append (r := 'e' :: printInt exponent) (isDigit_toDigits (n := digits))
    (by simp)
  simp only [readUnsigned, ht, hd]
  rw [if_neg (by simpa [Nat.toDigits_ne_nil] using toDigits_no_leading_zero digits),
    if_pos (by decide), readExponent_printInt, Nat.ofDigitChars_ten_toDigits, Option.map_some]

private theorem readNumber_of_digit {c : Char} {cs : List Char} (h : c.isDigit = true) :
    readNumber (c :: cs) = readUnsigned false (c :: cs) := by
  rw [readNumber]
  rintro _ hc
  cases hc
  exact absurd h (by decide)

private theorem readNumber_append {n : Nat} (r : List Char) :
    readNumber (Nat.toDigits 10 n ++ r) = readUnsigned false (Nat.toDigits 10 n ++ r) := by
  have hall := isDigit_toDigits (n := n)
  cases h : Nat.toDigits 10 n with
  | nil => exact absurd h Nat.toDigits_ne_nil
  | cons c cs => exact readNumber_of_digit (hall c (h ▸ List.mem_cons_self))

theorem readNumber_printNumber (n : Number) : readNumber (printNumber n) = some n := by
  cases n with
  | posInt n =>
    rw [printNumber, ← List.append_nil (Nat.toDigits 10 n.toNat), readNumber_append,
      List.append_nil, readUnsigned_toDigits, integer, if_neg (by decide),
      if_pos n.toNat_lt, UInt64.ofNat_toNat]
  | negInt n =>
    rw [printNumber, readNumber, readUnsigned_toDigits, integer, if_pos rfl,
      dif_pos ⟨Nat.succ_pos _, n.isLt⟩]
    rfl
  | float neg digits exponent =>
    cases neg with
    | true => simpa [printNumber, readNumber] using readUnsigned_float true digits exponent
    | false =>
      simpa [printNumber, readNumber_append] using readUnsigned_float false digits exponent

theorem isNumberChar_of_isDigit {c : Char} (h : c.isDigit = true) : isNumberChar c = true := by
  simp [isNumberChar, h]

private theorem isNumberChar_toDigits {n : Nat} : ∀ c ∈ Nat.toDigits 10 n, isNumberChar c = true :=
  fun c hc => isNumberChar_of_isDigit (isDigit_toDigits c hc)

theorem isNumberChar_printNumber (n : Number) : ∀ c ∈ printNumber n, isNumberChar c = true := by
  have hint : ∀ e, ∀ c ∈ printInt e, isNumberChar c = true := by
    intro e
    cases e with
    | ofNat n => exact isNumberChar_toDigits
    | negSucc n => exact List.forall_mem_cons.mpr ⟨rfl, isNumberChar_toDigits⟩
  cases n with
  | posInt n => exact isNumberChar_toDigits
  | negInt n => exact List.forall_mem_cons.mpr ⟨rfl, isNumberChar_toDigits⟩
  | float neg digits exponent =>
    rw [printNumber, List.forall_mem_append, List.forall_mem_append, List.forall_mem_cons]
    exact ⟨by cases neg <;> simp; rfl, isNumberChar_toDigits, rfl, hint exponent⟩

/-- The first character of a number. -/
theorem printNumber_head (n : Number) :
    ∃ c cs, printNumber n = c :: cs ∧ (c.isDigit = true ∨ c = '-') := by
  have hdig : ∀ n r, ∃ c cs, Nat.toDigits 10 n ++ r = c :: cs ∧ (c.isDigit = true ∨ c = '-') := by
    intro n r
    cases h : Nat.toDigits 10 n with
    | nil => exact absurd h Nat.toDigits_ne_nil
    | cons c cs =>
      exact ⟨c, cs ++ r, rfl, .inl (isDigit_toDigits c (h ▸ List.mem_cons_self))⟩
  cases n with
  | posInt n => simpa [printNumber] using hdig n.toNat []
  | negInt n => exact ⟨_, _, rfl, .inr rfl⟩
  | float neg digits exponent =>
    cases neg with
    | true => exact ⟨_, _, rfl, .inr rfl⟩
    | false => exact hdig digits _

/-! ## Trees -/

/-- What may follow a printed value: nothing, or a character that does not continue a number. -/
def Stop (r : List Char) : Prop := ∀ c ∈ r.head?, isNumberChar c = false

theorem skipWs_cons {c : Char} (h : isWs c = false) (cs : List Char) :
    skipWs (c :: cs) = c :: cs := by
  simp [skipWs, h]

theorem isWs_of_isNumberChar {c : Char} (h : isNumberChar c = true) : isWs c = false := by
  rw [Bool.eq_false_iff]
  intro hw
  simp only [isWs, Bool.or_eq_true, beq_iff_eq] at hw
  rcases hw with ((rfl | rfl) | rfl) | rfl <;> exact absurd h (by decide)

/-- A printed value starts with a character of its own. -/
theorem print_head (x : Json) :
    ∃ c cs, print x = c :: cs ∧ isWs c = false ∧ c ≠ ']' ∧ c ≠ '}' := by
  match x with
  | .null => exact ⟨_, _, rfl, by decide⟩
  | .bool true => exact ⟨_, _, rfl, by decide⟩
  | .bool false => exact ⟨_, _, rfl, by decide⟩
  | .number n =>
    obtain ⟨c, cs, hp, hc⟩ := printNumber_head n
    have hn : isNumberChar c = true := isNumberChar_printNumber n c (hp ▸ List.mem_cons_self)
    refine ⟨c, cs, hp, isWs_of_isNumberChar hn, ?_, ?_⟩ <;>
      · rintro rfl
        exact absurd hn (by decide)
  | .string s => exact ⟨_, _, rfl, by decide⟩
  | .array [] => exact ⟨_, _, rfl, by decide⟩
  | .array (_ :: _) => exact ⟨_, _, rfl, by decide⟩
  | .object [] => exact ⟨_, _, rfl, by decide⟩
  | .object ((_, _) :: _) => exact ⟨_, _, rfl, by decide⟩

theorem length_print_pos (x : Json) : 0 < (print x).length := by
  obtain ⟨c, cs, h, -⟩ := print_head x
  simp [h]

theorem printElements_head (xs : List Json) :
    ∃ c cs, printElements xs = c :: cs ∧ isNumberChar c = false := by
  cases xs <;> exact ⟨_, _, rfl, by decide⟩

theorem printMembers_head (ms : List (String × Json)) :
    ∃ c cs, printMembers ms = c :: cs ∧ isNumberChar c = false := by
  rcases ms with _ | ⟨⟨_, _⟩, _⟩ <;> exact ⟨_, _, rfl, by decide⟩

private theorem stop_of_head {cs : List Char} (h : ∃ c cs', cs = c :: cs' ∧ isNumberChar c = false)
    (r : List Char) : Stop (cs ++ r) := by
  obtain ⟨c, cs', rfl, hc⟩ := h
  simpa [Stop] using hc

private theorem parseValue_number (n : Nat) (x : Number) {r : List Char} (hr : Stop r) :
    parseValue (n + 1) (printNumber x ++ r) = some (.number x, r) := by
  obtain ⟨c, cs, hp, hc⟩ := printNumber_head x
  have hn : ∀ c ∈ printNumber x, isNumberChar c = true := isNumberChar_printNumber x
  have hws : isWs c = false := isWs_of_isNumberChar (hn c (hp ▸ List.mem_cons_self))
  have hne : c ≠ 'n' ∧ c ≠ 't' ∧ c ≠ 'f' ∧ c ≠ '"' ∧ c ≠ '[' ∧ c ≠ '{' := by
    refine ⟨?_, ?_, ?_, ?_, ?_, ?_⟩ <;>
      · rintro rfl
        exact absurd hc (by decide)
  have hskip : skipWs (printNumber x ++ r) = printNumber x ++ r := by
    rw [hp, List.cons_append, skipWs_cons hws]
  rw [parseValue, hskip]
  split
  all_goals try
    · next h =>
      rw [hp, List.cons_append, List.cons.injEq] at h
      simp_all
  rw [takeWhile_append hn hr, dropWhile_append hn hr, readNumber_printNumber]
  rfl

mutual
/-- A printed value is read back, whatever follows it. -/
theorem parseValue_print : ∀ (x : Json) (n : Nat) (r : List Char), (print x).length ≤ n → Stop r →
    parseValue n (print x ++ r) = some (x, r)
  | x, 0, _, h, _ => absurd h (by have := length_print_pos x; omega)
  | .null, n + 1, r, _, _ => by simp [print, parseValue, skipWs_cons, isWs]
  | .bool true, n + 1, r, _, _ => by simp [print, parseValue, skipWs_cons, isWs]
  | .bool false, n + 1, r, _, _ => by simp [print, parseValue, skipWs_cons, isWs]
  | .number x, n + 1, r, _, hr => parseValue_number n x hr
  | .string s, n + 1, r, _, _ => by
    rw [print, quote, List.cons_append, parseValue, skipWs_cons (by decide), List.append_assoc]
    simp [parseString_print]
  | .array [], n + 1, r, _, _ => by simp [print, parseValue, skipWs_cons, isWs]
  | .array (x :: xs), n + 1, r, h, _ => by
    obtain ⟨c, cs, hp, hws, hc, -⟩ := print_head x
    have hs := parseElements_print x xs n r (by
      simp only [print, List.length_cons, List.length_append] at h
      omega)
    rw [print, List.cons_append, parseValue, skipWs_cons (by decide)]
    rw [hp, List.cons_append, List.cons_append] at hs ⊢
    simp only [skipWs_cons hws]
    split
    · next h => exact absurd (List.cons.inj h).1 hc
    · rw [hs]; rfl
  | .object [], n + 1, r, _, _ => by simp [print, parseValue, skipWs_cons, isWs]
  | .object ((k, x) :: ms), n + 1, r, h, _ => by
    have hs := parseMembers_print k x ms n r (by
      simp only [print, List.length_cons, List.length_append] at h ⊢
      omega)
    rw [print, List.cons_append, parseValue, skipWs_cons (by decide)]
    simp only [quote, List.cons_append] at hs ⊢
    simp only [skipWs_cons (c := '"') (by decide)]
    rw [hs]
    rfl

theorem parseElements_print : ∀ (x : Json) (xs : List Json) (n : Nat) (r : List Char),
    (print x).length + (printElements xs).length ≤ n →
    parseElements n (print x ++ printElements xs ++ r) = some (x :: xs, r)
  | x, _, 0, _, h => absurd h (by have := length_print_pos x; omega)
  | x, [], n + 1, r, h => by
    simp only [printElements, List.length_cons, List.length_nil] at h
    rw [parseElements, List.append_assoc,
      parseValue_print x n _ (by omega) (stop_of_head (printElements_head []) r)]
    simp [printElements, skipWs_cons, isWs]
  | x, y :: ys, n + 1, r, h => by
    simp only [printElements, List.length_cons, List.length_append] at h
    rw [parseElements, List.append_assoc,
      parseValue_print x n _ (by omega) (stop_of_head (printElements_head (y :: ys)) r)]
    have hs := parseElements_print y ys n r (by omega)
    simp only [List.append_assoc] at hs
    simp [printElements, skipWs_cons, isWs, hs]

theorem parseMembers_print : ∀ (k : String) (x : Json) (ms : List (String × Json)) (n : Nat)
    (r : List Char),
    (quote k.toList ++ ':' :: (print x ++ printMembers ms)).length ≤ n →
    parseMembers n (quote k.toList ++ ':' :: (print x ++ printMembers ms) ++ r) =
      some ((k, x) :: ms, r)
  | k, x, _, 0, _, h => absurd h (by simp [quote])
  | k, x, ms, n + 1, r, h => by
    simp only [quote, List.length_cons, List.length_append] at h
    have hx := parseValue_print x n (printMembers ms ++ r) (by omega)
      (stop_of_head (printMembers_head ms) r)
    rw [quote, List.cons_append, List.cons_append, parseMembers, skipWs_cons (by decide)]
    simp only [List.append_assoc, List.cons_append, List.nil_append, parseString_print,
      Option.bind_eq_bind, Option.bind_some, skipWs_cons (c := ':') (by decide), hx]
    match ms, h with
    | [], _ => simp [printMembers, skipWs_cons, isWs]
    | (l, y) :: ns, h =>
      simp only [printMembers, List.length_cons, List.length_append] at h
      have hs := parseMembers_print l y ns n r (by
        simp only [List.length_cons, List.length_append]
        omega)
      simp only [List.append_assoc, List.cons_append] at hs
      simp [printMembers, skipWs_cons, isWs, hs]
end

/-- A printed document is read back. -/
theorem parse_print (x : Json) : parse (print x) = some x := by
  have h := parseValue_print x ((print x).length + 1) [] (Nat.le_succ _) (by simp [Stop])
  rw [List.append_nil] at h
  rw [parse, h]
  rfl

/-! ## Quotation marks

Outside of its strings a document has no backslash, so a document that holds a string has a
quotation mark with no backslash before it. The escaped text of a string has none. -/

/-- `r` is what is left of `cs` after a part without a backslash. -/
def Reads (cs r : List Char) : Prop := ∃ p, cs = p ++ r ∧ '\\' ∉ p

theorem Reads.cons {c : Char} {cs r : List Char} (hc : c ≠ '\\') (h : Reads cs r) :
    Reads (c :: cs) r := by
  obtain ⟨p, rfl, hp⟩ := h
  exact ⟨c :: p, rfl, by simp [hp, hc.symm]⟩

theorem Reads.trans {cs ds r : List Char} (h : Reads cs ds) (h' : Reads ds r) : Reads cs r := by
  obtain ⟨p, rfl, hp⟩ := h
  obtain ⟨q, rfl, hq⟩ := h'
  exact ⟨p ++ q, by simp, by simp [hp, hq]⟩

theorem Reads.openQuote {cs ds : List Char} (h : Reads cs ds) (h' : OpenQuote ds) :
    OpenQuote cs := by
  obtain ⟨p, rfl, hp⟩ := h
  obtain ⟨q, r, rfl, hq⟩ := h'
  exact ⟨p ++ q, r, by simp, by simp [hp, hq]⟩

theorem Reads.skip {cs r : List Char} (h : Reads (skipWs cs) r) : Reads cs r := by
  refine Reads.trans ⟨cs.takeWhile isWs, (List.takeWhile_append_dropWhile).symm, fun hm => ?_⟩ h
  exact absurd (List.mem_takeWhile_imp hm) (by decide)

theorem Reads.of_skip {cs ds r : List Char} (hs : skipWs cs = ds) (h : Reads ds r) : Reads cs r :=
  Reads.skip (hs ▸ h)

theorem Reads.refl (r : List Char) : Reads r r := ⟨[], rfl, by simp⟩

theorem OpenQuote.of_skip {cs r : List Char} (hs : skipWs cs = '"' :: r) : OpenQuote cs :=
  (Reads.of_skip hs (Reads.refl _)).openQuote ⟨[], r, rfl, by simp⟩

theorem OpenQuote.of_skip_cons {c : Char} {cs ds : List Char} (hs : skipWs cs = c :: ds)
    (hc : c ≠ '\\') (h : OpenQuote ds) : OpenQuote cs :=
  (Reads.of_skip hs (Reads.cons hc (Reads.refl _))).openQuote h

mutual
theorem openQuote_or_reads : ∀ {n : Nat} {cs r : List Char} {x : Json},
    parseValue n cs = some (x, r) → OpenQuote cs ∨ hasString x = false ∧ Reads cs r
  | 0, _, _, _, h => by simp [parseValue] at h
  | n + 1, cs, r, x, h => by
    rw [parseValue] at h
    split at h
    · next hs =>
      obtain ⟨rfl, rfl⟩ : .null = x ∧ _ = r := by simpa using h
      exact .inr ⟨rfl, .of_skip hs ⟨['n', 'u', 'l', 'l'], rfl, by decide⟩⟩
    · next hs =>
      obtain ⟨rfl, rfl⟩ : .bool true = x ∧ _ = r := by simpa using h
      exact .inr ⟨rfl, .of_skip hs ⟨['t', 'r', 'u', 'e'], rfl, by decide⟩⟩
    · next hs =>
      obtain ⟨rfl, rfl⟩ : .bool false = x ∧ _ = r := by simpa using h
      exact .inr ⟨rfl, .of_skip hs ⟨['f', 'a', 'l', 's', 'e'], rfl, by decide⟩⟩
    · next hs => exact .inl (.of_skip hs)
    · next ds hs =>
      split at h
      · next hs' =>
        obtain ⟨rfl, rfl⟩ : .array [] = x ∧ _ = r := by simpa using h
        exact .inr ⟨rfl, .of_skip hs (.cons (by decide) (.of_skip hs' ⟨[']'], rfl, by decide⟩))⟩
      · cases he : parseElements n ds with
        | none => simp [he] at h
        | some p =>
          obtain ⟨xs, r'⟩ := p
          obtain ⟨rfl, rfl⟩ : .array xs = x ∧ r' = r := by simpa [he] using h
          rcases openQuote_or_reads_elements he with hq | ⟨hx, hr⟩
          · exact .inl (.of_skip_cons hs (by decide) hq)
          · exact .inr ⟨by rw [hasString, hx], .of_skip hs (.cons (by decide) hr)⟩
    · next ds hs =>
      split at h
      · next hs' =>
        obtain ⟨rfl, rfl⟩ : .object [] = x ∧ _ = r := by simpa using h
        exact .inr ⟨rfl, .of_skip hs (.cons (by decide) (.of_skip hs' ⟨['}'], rfl, by decide⟩))⟩
      · -- the first member opens its key
        cases n with
        | zero => simp [parseMembers] at h
        | succ n =>
          rw [parseMembers] at h
          split at h
          · next hs' => exact .inl (.of_skip_cons hs (by decide) (.of_skip hs'))
          · simp at h
    · cases hn : readNumber ((skipWs cs).takeWhile isNumberChar) with
      | none => simp [hn] at h
      | some m =>
        obtain ⟨rfl, rfl⟩ : .number m = x ∧ (skipWs cs).dropWhile isNumberChar = r := by
          simpa [hn] using h
        refine .inr ⟨rfl, .skip ⟨(skipWs cs).takeWhile isNumberChar,
          (List.takeWhile_append_dropWhile).symm, fun hm => ?_⟩⟩
        exact absurd (List.mem_takeWhile_imp hm) (by decide)

theorem openQuote_or_reads_elements : ∀ {n : Nat} {cs r : List Char} {xs : List Json},
    parseElements n cs = some (xs, r) → OpenQuote cs ∨ hasStringList xs = false ∧ Reads cs r
  | 0, _, _, _, h => by simp [parseElements] at h
  | n + 1, cs, r, xs, h => by
    rw [parseElements] at h
    cases hv : parseValue n cs with
    | none => simp [hv] at h
    | some p =>
      obtain ⟨x, ds⟩ := p
      simp only [hv, Option.bind_eq_bind, Option.bind_some] at h
      rcases openQuote_or_reads hv with hq | ⟨hx, hr⟩
      · exact .inl hq
      split at h
      · next es hs =>
        cases he : parseElements n es with
        | none => simp [he] at h
        | some p =>
          obtain ⟨ys, r'⟩ := p
          obtain ⟨rfl, rfl⟩ : x :: ys = xs ∧ r' = r := by simpa [he] using h
          rcases openQuote_or_reads_elements he with hq | ⟨hy, hr'⟩
          · exact .inl (hr.openQuote (.of_skip_cons hs (by decide) hq))
          · refine .inr ⟨by simp [hasStringList, hx, hy], hr.trans (.of_skip hs ?_)⟩
            exact .cons (by decide) hr'
      · next hs =>
        obtain ⟨rfl, rfl⟩ : [x] = xs ∧ _ = r := by simpa using h
        refine .inr ⟨by simp [hasStringList, hx], hr.trans (.of_skip hs ?_)⟩
        exact .cons (by decide) (.refl _)
      · simp at h
end

/-- A document that holds a string opens a string. -/
theorem openQuote_of_parse {cs : List Char} {x : Json} (h : parse cs = some x)
    (hx : hasString x = true) : OpenQuote cs := by
  rw [parse] at h
  cases hv : parseValue (cs.length + 1) cs with
  | none => simp [hv] at h
  | some p =>
    obtain ⟨y, r⟩ := p
    rcases openQuote_or_reads hv with hq | ⟨hy, -⟩
    · exact hq
    · simp only [hv, Option.bind_eq_bind, Option.bind_some, Option.ite_none_right_eq_some,
        Option.some.injEq] at h
      rw [h.2, hx] at hy
      exact absurd hy (by decide)

theorem hasStringList_of_mem {xs : List Json} {x : Json} (h : x ∈ xs)
    (hx : hasString x = true) : hasStringList xs = true := by
  induction xs with
  | nil => exact absurd h List.not_mem_nil
  | cons y ys ih =>
    rw [hasStringList, Bool.or_eq_true]
    rcases List.mem_cons.mp h with rfl | h
    · exact .inl hx
    · exact .inr (ih h)

theorem OpenQuote.append {as : List Char} (h : OpenQuote as) (bs : List Char) :
    OpenQuote (as ++ bs) := by
  obtain ⟨p, r, rfl, hp⟩ := h
  exact ⟨p, r ++ bs, by simp, hp⟩

theorem escapeChar_cases (c : Char) :
    (∃ cs, escapeChar c = '\\' :: cs) ∨ c ≠ '"' ∧ escapeChar c = [c] := by
  by_cases h : c = '"'
  · subst h
    exact .inl ⟨['"'], rfl⟩
  · rw [escapeChar, if_neg h]
    split_ifs <;> first | exact .inl ⟨_, rfl⟩ | exact .inr ⟨h, rfl⟩

/-- In the escaped text of a string every quotation mark follows a backslash. -/
theorem not_openQuote_escape (s : List Char) : ¬OpenQuote (escape s) := by
  induction s with
  | nil =>
    rintro ⟨p, r, h, -⟩
    simp [escape] at h
  | cons c s ih =>
    rintro ⟨p, r, h, hp⟩
    change escapeChar c ++ escape s = _ at h
    rcases escapeChar_cases c with ⟨cs, hc⟩ | ⟨hq, hc⟩
    · rw [hc] at h
      cases p with
      | nil => simp at h
      | cons d p =>
        obtain ⟨rfl, -⟩ : '\\' = d ∧ _ := by simpa using h
        exact hp List.mem_cons_self
    · rw [hc] at h
      cases p with
      | nil => exact hq (by simpa using (List.cons.inj h).1)
      | cons d p =>
        exact ih ⟨p, r, (List.cons.inj h).2, fun hm => hp (List.mem_cons_of_mem _ hm)⟩

/-- A string literal without the quotation marks around it has no open one. -/
theorem not_openQuote_trim (s : List Char) :
    ¬OpenQuote (((quote s).dropWhile (· == '"')).rdropWhile (· == '"')) := by
  have hq : (quote s).dropWhile (· == '"') = (escape s ++ ['"']).dropWhile (· == '"') := rfl
  intro h
  rw [hq] at h
  cases he : escape s with
  | nil =>
    rw [he] at h
    obtain ⟨p, r, hpr, -⟩ := h
    exact absurd hpr (by simp)
  | cons c cs =>
    have hc : (c == '"') = false := by
      rw [beq_eq_false_iff_ne]
      rintro rfl
      exact not_openQuote_escape s ⟨[], cs, he, by simp⟩
    rw [he, List.cons_append, List.dropWhile_cons_of_neg (by simp [hc]), ← List.cons_append, ← he,
      List.rdropWhile_concat_pos _ _ _ rfl] at h
    obtain ⟨rest, hr⟩ := List.rdropWhile_prefix (fun c => c == '"') (escape s)
    exact not_openQuote_escape s (hr ▸ h.append rest)

end OpenID4VP.Json.Text
