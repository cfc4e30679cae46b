import OpenID4VP.Lib.Split
import OpenID4VP.Lib.Utf8

/-! # Forms

Text of type `application/x-www-form-urlencoded`: a list of pairs of strings. The bytes of a string
that are not letters, digits or one of `*-._` are written as `%` with two hexadecimal digits, and a
space as `+`. `parse_print` says that a printed list is read back, and `parse_text_iff` which texts
are when they are put into a form without escapes. -/

namespace OpenID4VP.Form

/-! ## Bytes -/

def isUnreserved (c : Char) : Bool := c.isAlphanum || c ∈ ['*', '-', '.', '_']

def hexChar (n : Nat) : Char := if n < 10 then Char.ofNat (48 + n) else Char.ofNat (55 + n)

def hexValue (c : Char) : Option Nat :=
  if c.isDigit then some (c.toNat - 48)
  else if 'A' ≤ c ∧ c ≤ 'F' then some (c.toNat - 55)
  else if 'a' ≤ c ∧ c ≤ 'f' then some (c.toNat - 87)
  else none

def printByte (b : UInt8) : List Char :=
  if isUnreserved (Char.ofNat b.toNat) then [Char.ofNat b.toNat]
  else if b = 32 then ['+']
  else ['%', hexChar (b.toNat / 16), hexChar (b.toNat % 16)]

/-- The bytes of a component. What follows a `%` stands for itself if it is no byte. -/
def readBytes : List Char → List UInt8
  | [] => []
  | '%' :: a :: b :: cs => match hexValue a, hexValue b with
    | some x, some y => UInt8.ofNat (x * 16 + y) :: readBytes cs
    | _, _ => 37 :: readBytes (a :: b :: cs)
  | c :: cs => (if c = '+' then [32] else String.utf8EncodeChar c) ++ readBytes cs

theorem hexValue_hexChar : ∀ n < 16, hexValue (hexChar n) = some n := by decide

theorem readBytes_escape {n : Nat} (h : n < 256) (cs : List Char) :
    readBytes ('%' :: hexChar (n / 16) :: hexChar (n % 16) :: cs) =
      UInt8.ofNat n :: readBytes cs := by
  have hn : n / 16 * 16 + n % 16 = n := by omega
  rw [readBytes, hexValue_hexChar _ (by omega), hexValue_hexChar _ (by omega)]
  exact congrArg (fun n => UInt8.ofNat n :: readBytes cs) hn

theorem readBytes_cons {c : Char} (h : c ≠ '%') (cs : List Char) :
    readBytes (c :: cs) =
      (if c = '+' then [32] else String.utf8EncodeChar c) ++ readBytes cs := by
  rw [readBytes]
  exact fun _ _ _ he => absurd he h

/-- An unreserved character is its own byte, and no sign of the encoding. -/
theorem unreserved_byte : ∀ n < 256, isUnreserved (Char.ofNat n) = true →
    String.utf8EncodeChar (Char.ofNat n) = [UInt8.ofNat n] ∧ Char.ofNat n ≠ '%' ∧
      Char.ofNat n ≠ '+' := by
  decide +kernel

theorem readBytes_printByte (b : UInt8) (cs : List Char) :
    readBytes (printByte b ++ cs) = b :: readBytes cs := by
  have hb : b.toNat < 256 := b.toNat_lt
  rw [printByte]
  split
  · next h =>
    obtain ⟨he, hp, hq⟩ := unreserved_byte b.toNat hb h
    rw [List.singleton_append, readBytes_cons hp, if_neg hq, he, UInt8.ofNat_toNat]
    rfl
  · split
    · next h =>
      subst h
      rw [List.singleton_append, readBytes_cons (by decide), if_pos rfl]
      rfl
    · exact (readBytes_escape hb cs).trans (by rw [UInt8.ofNat_toNat])

theorem readBytes_flatMap (bs : List UInt8) : readBytes (bs.flatMap printByte) = bs := by
  induction bs with
  | nil => rfl
  | cons b bs ih => rw [List.flatMap_cons, readBytes_printByte, ih]

/-! ## Components -/

def printComponent (s : String) : List Char := s.toUTF8.data.toList.flatMap printByte

theorem toNat_lt_of_isUnreserved {c : Char} (h : isUnreserved c = true) : c.toNat < 0x80 := by
  rw [isUnreserved, Bool.or_eq_true, decide_eq_true_eq] at h
  rcases h with h | h
  · have hr : (decide (c.val ≥ 'A'.val ∧ c.val ≤ 'Z'.val) || (c.val ≥ 'a'.val && c.val ≤ 'z'.val) ||
      (c.val ≥ '0'.val && c.val ≤ '9'.val)) = true := h
    have hv : c.toNat = c.val.toNat := rfl
    simp only [Bool.or_eq_true, Bool.and_eq_true, decide_eq_true_eq, ge_iff_le,
      UInt32.le_iff_toNat_le] at hr
    simp at hr
    omega
  · simp only [List.mem_cons, List.not_mem_nil, or_false] at h
    rcases h with rfl | rfl | rfl | rfl <;> decide

/-- A string without characters to escape is its own component. -/
theorem printComponent_of_isUnreserved {s : String} (hs : s.toList.all isUnreserved = true) :
    printComponent s = s.toList := by
  have h := List.all_eq_true.mp hs
  have hc : ∀ c ∈ s.toList, (String.utf8EncodeChar c).flatMap printByte = [c] := by
    intro c hc
    have hlt := toNat_lt_of_isUnreserved (h c hc)
    have he : String.utf8EncodeChar c = [UInt8.ofNat c.toNat] := if_pos (Nat.le_of_lt_succ hlt)
    rw [he, List.flatMap_singleton, printByte, Utf8.toNat_ofNat (by omega), Char.ofNat_toNat,
      if_pos (h c hc)]
  rw [printComponent, Utf8.toUTF8_eq_flatMap, List.flatMap_assoc, List.flatMap_congr hc]
  simp

/-- The string of a component, with replacement characters where its bytes are no UTF-8. -/
def readComponent (cs : List Char) : String := Utf8.decodeLossy (readBytes cs)

theorem fromUTF8?_toUTF8 (s : String) :
    String.fromUTF8? ⟨s.toUTF8.data.toList.toArray⟩ = some s :=
  dif_pos s.isValidUTF8

theorem readComponent_printComponent (s : String) : readComponent (printComponent s) = s := by
  rw [readComponent, printComponent, readBytes_flatMap, Utf8.decodeLossy_toUTF8]

/-- The characters of a component. -/
def isComponentChar (c : Char) : Bool := isUnreserved c || c = '+' || c = '%'

theorem isComponentChar_hexChar : ∀ n < 16, isComponentChar (hexChar n) = true := by decide

theorem isComponentChar_printByte {b : UInt8} : ∀ c ∈ printByte b, isComponentChar c = true := by
  have hb : b.toNat < 256 := b.toNat_lt
  rw [printByte]
  split
  · next h => simp [isComponentChar, h]
  · split
    · simp [isComponentChar]
    · simp only [List.forall_mem_cons, List.not_mem_nil, false_implies, implies_true, and_true]
      exact ⟨rfl, isComponentChar_hexChar _ (by omega), isComponentChar_hexChar _ (by omega)⟩

theorem isComponentChar_printComponent {s : String} :
    ∀ c ∈ printComponent s, isComponentChar c = true := by
  intro c hc
  obtain ⟨b, -, hb⟩ := List.mem_flatMap.mp hc
  exact isComponentChar_printByte c hb

theorem not_mem_printComponent {s : String} {c : Char} (h : isComponentChar c = false) :
    c ∉ printComponent s := by
  intro hc
  rw [isComponentChar_printComponent c hc] at h
  exact absurd h.symm Bool.false_ne_true

/-! ## Text that is not escaped -/

def isHex (c : Char) : Bool := (hexValue c).isSome

/-- The text begins with an escaped byte. -/
def BeginsEscaped (cs : List Char) : Prop :=
  ∃ a b, ['%', a, b] <+: cs ∧ isHex a = true ∧ isHex b = true

/-- Text that stands for itself in a component: it has no sign for a space and no escaped byte. -/
structure Literal (cs : List Char) : Prop where
  plus : '+' ∉ cs
  escape : ∀ a b, ['%', a, b] <:+: cs → ¬(isHex a = true ∧ isHex b = true)

theorem literal_cons {c : Char} {cs : List Char} :
    Literal (c :: cs) ↔ (c ≠ '+' ∧ ¬BeginsEscaped (c :: cs)) ∧ Literal cs := by
  constructor
  · intro h
    refine ⟨⟨?_, fun ⟨a, b, hp, hx⟩ => h.escape a b hp.isInfix hx⟩, ?_, ?_⟩
    · rintro rfl
      exact h.plus List.mem_cons_self
    · exact fun hm => h.plus (List.mem_cons_of_mem c hm)
    · exact fun a b hi => h.escape a b (hi.trans (List.suffix_cons c cs).isInfix)
  · rintro ⟨⟨hc, hp⟩, h⟩
    refine ⟨List.not_mem_cons_of_ne_of_not_mem (Ne.symm hc) h.plus, fun a b hi hx => ?_⟩
    rcases List.infix_cons_iff.mp hi with hi | hi
    · exact hp ⟨a, b, hi, hx⟩
    · exact h.escape a b hi hx

theorem beginsEscaped_percent {a b : Char} {cs : List Char} :
    BeginsEscaped ('%' :: a :: b :: cs) ↔ isHex a = true ∧ isHex b = true := by
  simp [BeginsEscaped, List.cons_prefix_cons]

/-- A text begins with an escaped byte or with a character that is not part of one. -/
theorem component_induction {P : List Char → Prop} (nil : P [])
    (escape : ∀ a b cs, isHex a = true ∧ isHex b = true → P cs → P ('%' :: a :: b :: cs))
    (char : ∀ c cs, ¬BeginsEscaped (c :: cs) → P cs → P (c :: cs)) (cs : List Char) : P cs := by
  induction cs using readBytes.induct with
  | case1 => exact nil
  | case2 a b cs x y hy hx ih =>
    exact escape a b cs ⟨by rw [isHex, hx]; rfl, by rw [isHex, hy]; rfl⟩ ih
  | case3 a b cs hn ih =>
    refine char _ _ (fun h => ?_) ih
    obtain ⟨ha, hb⟩ := beginsEscaped_percent.mp h
    obtain ⟨x, hx⟩ := Option.isSome_iff_exists.mp ha
    obtain ⟨y, hy⟩ := Option.isSome_iff_exists.mp hb
    exact hn x y hx hy
  | case4 c cs hn ih =>
    refine char _ _ ?_ ih
    rintro ⟨a, b, ⟨rest, hp⟩, -⟩
    obtain ⟨hc, rfl⟩ := List.cons.inj hp
    exact hn a b rest hc.symm rfl

/-- The characters of a component. -/
def readChars (cs : List Char) : List Char := Utf8.run none (readBytes cs)

/-- An escaped byte is read as one character at most. -/
theorem length_readChars_escape {a b : Char} (h : isHex a = true ∧ isHex b = true)
    (cs : List Char) :
    (readChars ('%' :: a :: b :: cs)).length ≤ (readChars cs).length + 1 := by
  obtain ⟨x, hx⟩ := Option.isSome_iff_exists.mp h.1
  obtain ⟨y, hy⟩ := Option.isSome_iff_exists.mp h.2
  rw [readChars, readBytes, hx, hy]
  exact Utf8.length_run_cons_le _ _

/-- Any other character is read as itself, but for the sign of a space. -/
theorem readChars_cons {c : Char} {cs : List Char} (h : ¬BeginsEscaped (c :: cs)) :
    readChars (c :: cs) = (if c = '+' then ' ' else c) :: readChars cs := by
  have hr : readBytes (c :: cs) =
      String.utf8EncodeChar (if c = '+' then ' ' else c) ++ readBytes cs := by
    rw [readBytes.eq_def]
    split
    · next he => exact absurd he (List.cons_ne_nil _ _)
    · next a b rest he =>
      rw [he, beginsEscaped_percent] at h
      obtain ⟨rfl, rfl⟩ := List.cons.inj he
      split
      · next x y hx hy => exact absurd ⟨by rw [isHex, hx]; rfl, by rw [isHex, hy]; rfl⟩ h
      · rfl
    · next c' cs' hn he =>
      obtain ⟨rfl, rfl⟩ := List.cons.inj he
      split <;> rfl
  rw [readChars, hr, Utf8.run_encode, readChars]

theorem length_readChars_le (cs : List Char) : (readChars cs).length ≤ cs.length := by
  induction cs using component_induction with
  | nil => exact Nat.le_refl 0
  | escape a b cs h ih =>
    have hl := length_readChars_escape h cs
    simp only [List.length_cons]
    omega
  | char c cs h ih =>
    rw [readChars_cons h]
    exact Nat.succ_le_succ ih

/-- Just the literal texts are read as themselves. -/
theorem readChars_eq_self_iff {cs : List Char} : readChars cs = cs ↔ Literal cs := by
  induction cs using component_induction with
  | nil => exact iff_of_true rfl ⟨List.not_mem_nil, fun a b hi => absurd hi (by simp)⟩
  | escape a b cs h ih =>
    refine iff_of_false (fun he => ?_) fun hl => ?_
    · have hl := length_readChars_escape h cs
      have hr := length_readChars_le cs
      rw [he] at hl
      simp only [List.length_cons] at hl
      omega
    · exact (literal_cons.mp hl).1.2 (beginsEscaped_percent.mpr h)
  | char c cs h ih =>
    rw [readChars_cons h, List.cons.injEq, ih, literal_cons, and_iff_left h]
    refine and_congr_left fun _ => ?_
    split
    · next hc => simp [hc]
    · next hc => simp [hc]

/-! ## Pairs -/

def printPair (p : String × String) : List Char :=
  printComponent p.1 ++ '=' :: printComponent p.2

def readPair (cs : List Char) : String × String :=
  match splitList '=' cs with
  | some (k, v) => (readComponent k, readComponent v)
  | none => (readComponent cs, "")

theorem readPair_printPair (p : String × String) : readPair (printPair p) = p := by
  rw [readPair, printPair, splitList_append (not_mem_printComponent rfl)]
  simp only [readComponent_printComponent]

theorem ampersand_not_mem_printPair (p : String × String) : '&' ∉ printPair p := by
  rw [printPair, List.mem_append, List.mem_cons]
  rintro (h | h | h)
  · exact not_mem_printComponent rfl h
  · exact absurd h (by decide)
  · exact not_mem_printComponent rfl h

def print : List (String × String) → List Char
  | [] => []
  | [p] => printPair p
  | p :: ps => printPair p ++ '&' :: print ps

def parse (cs : List Char) : List (String × String) :=
  ((splitAll '&' cs).filter fun part => !part.isEmpty).map readPair

theorem parse_of_not_mem {cs : List Char} (h : '&' ∉ cs) (hne : cs ≠ []) :
    parse cs = [readPair cs] := by
  rw [parse, splitAll_of_not_mem h]
  simp [hne]

theorem parse_append {as : List Char} (h : '&' ∉ as) (hne : as ≠ []) (bs : List Char) :
    parse (as ++ '&' :: bs) = readPair as :: parse bs := by
  rw [parse, splitAll_append h]
  simp [hne, parse]

theorem parse_print (ps : List (String × String)) : parse (print ps) = ps := by
  have hne : ∀ p, printPair p ≠ [] := fun p => by simp [printPair]
  induction ps with
  | nil => rfl
  | cons p ps ih =>
    cases ps with
    | nil =>
      rw [print, parse_of_not_mem (ampersand_not_mem_printPair p) (hne p), readPair_printPair]
    | cons q qs =>
      rw [print, parse_append (ampersand_not_mem_printPair p) (hne p), readPair_printPair, ih]
      simp

theorem readPair_append (k : String) (cs : List Char) :
    readPair (printComponent k ++ '=' :: cs) = (k, String.ofList (readChars cs)) := by
  rw [readPair, splitList_append (not_mem_printComponent rfl)]
  simp only [readComponent_printComponent]
  rfl

/-- A pair with a text that was not escaped is read as that pair just when the text is literal and
ends no pair. -/
theorem parse_text_iff {k : String} {cs : List Char} :
    parse (printComponent k ++ '=' :: cs) = [(k, String.ofList cs)] ↔ '&' ∉ cs ∧ Literal cs := by
  have hk : '&' ∉ printComponent k := not_mem_printComponent rfl
  have hs {as : List Char} (h : '&' ∉ as) : '&' ∉ printComponent k ++ '=' :: as := by
    simp [hk, h]
  have hne (as : List Char) : printComponent k ++ '=' :: as ≠ [] := by simp
  by_cases hc : '&' ∈ cs
  · obtain ⟨as, bs, rfl, ha⟩ := List.eq_append_cons_of_mem hc
    refine iff_of_false (fun h => ?_) fun h => h.1 hc
    rw [← List.cons_append, ← List.append_assoc, parse_append (hs ha) (hne as), readPair_append]
      at h
    have he := String.ofList_inj.mp (Prod.mk.inj (List.cons.inj h).1).2
    have hl := length_readChars_le as
    rw [he, List.length_append, List.length_cons] at hl
    omega
  · rw [parse_of_not_mem (hs hc) (hne cs), readPair_append, and_iff_right hc,
      ← readChars_eq_self_iff]
    simp [String.ofList_inj]

/-- The characters that a form is made of. -/
def isFormChar (c : Char) : Bool := isComponentChar c || c = '=' || c = '&'

theorem isFormChar_printPair {p : String × String} : ∀ c ∈ printPair p, isFormChar c = true := by
  intro c hc
  rw [printPair, List.mem_append, List.mem_cons] at hc
  rcases hc with h | rfl | h
  · simp [isFormChar, isComponentChar_printComponent c h]
  · rfl
  · simp [isFormChar, isComponentChar_printComponent c h]

theorem isFormChar_print {ps : List (String × String)} : ∀ c ∈ print ps, isFormChar c = true := by
  induction ps with
  | nil => simp [print]
  | cons p ps ih =>
    cases ps with
    | nil => exact isFormChar_printPair
    | cons q qs =>
      intro c hc
      rw [print, List.mem_append, List.mem_cons] at hc
      · rcases hc with h | rfl | h
        · exact isFormChar_printPair c h
        · rfl
        · exact ih c h
      · simp

end OpenID4VP.Form
