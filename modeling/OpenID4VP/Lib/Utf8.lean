import Mathlib.Data.List.Basic

/-! # Lossy UTF-8

Bytes as text. The bytes of a character that is not completed, up to the one that does not go on
with it, and every byte that begins no character stand for one replacement character each.
`run_toUTF8` says that the bytes of a string are read as the string. -/

namespace OpenID4VP.Utf8

/-- What stands for bytes that are no character. -/
def replacement : Char := '\uFFFD'

/-- A character that has begun: the bits of it that are there, the bounds of its next byte, and how
many bytes come after that one. -/
structure Pending where
  bits : Nat
  low : Nat
  high : Nat
  missing : Nat
  low_le : 0x80 ≤ low
  high_lt : high < 0xC0

/-- The byte at the beginning of a character. The bounds of the next one leave out second encodings
of a character, surrogates and what is above the last character. -/
def start (b : Nat) : List Char × Option Pending :=
  if b < 0x80 then ([Char.ofNat b], none)
  else if b < 0xC2 then ([replacement], none)
  else if b < 0xE0 then ([], some ⟨b - 0xC0, 0x80, 0xBF, 0, by decide, by decide⟩)
  else if b < 0xF0 then ([], some ⟨b - 0xE0, if b = 0xE0 then 0xA0 else 0x80,
    if b = 0xED then 0x9F else 0xBF, 1, by split <;> decide, by split <;> decide⟩)
  else if b < 0xF5 then ([], some ⟨b - 0xF0, if b = 0xF0 then 0x90 else 0x80,
    if b = 0xF4 then 0x8F else 0xBF, 2, by split <;> decide, by split <;> decide⟩)
  else ([replacement], none)

/-- One byte: the characters that it completes or breaks off, and the one that is pending. -/
def step : Option Pending → Nat → List Char × Option Pending
  | none, b => start b
  | some p, b =>
    if p.low ≤ b ∧ b ≤ p.high then
      match p.missing with
      | 0 => ([Char.ofNat (p.bits * 64 + b % 64)], none)
      | n + 1 => ([], some ⟨p.bits * 64 + b % 64, 0x80, 0xBF, n, by decide, by decide⟩)
    else (replacement :: (start b).1, (start b).2)

def run : Option Pending → List UInt8 → List Char
  | none, [] => []
  | some _, [] => [replacement]
  | s, b :: bs => (step s b.toNat).1 ++ run (step s b.toNat).2 bs

/-- The text of the bytes. -/
def decodeLossy (bs : List UInt8) : String := String.ofList (run none bs)

theorem run_cons (s : Option Pending) (b : UInt8) (bs : List UInt8) :
    run s (b :: bs) = (step s b.toNat).1 ++ run (step s b.toNat).2 bs := by
  cases s <;> rfl

/-! ## Characters -/

section
variable {p : Pending} {n : Nat} {b : UInt8}

/-- The last byte of a character. -/
theorem run_last (hm : p.missing = 0) (h : p.low ≤ b.toNat ∧ b.toNat ≤ p.high)
    (bs : List UInt8) :
    run (some p) (b :: bs) = Char.ofNat (p.bits * 64 + b.toNat % 64) :: run none bs := by
  rw [run_cons, step, if_pos h, hm]
  rfl

/-- A byte of a character that is not the last one. -/
theorem run_next (hm : p.missing = n + 1) (h : p.low ≤ b.toNat ∧ b.toNat ≤ p.high)
    (bs : List UInt8) :
    run (some p) (b :: bs) =
      run (some ⟨p.bits * 64 + b.toNat % 64, 0x80, 0xBF, n, by decide, by decide⟩) bs := by
  rw [run_cons, step, if_pos h, hm]
  rfl

theorem toNat_ofNat {n : Nat} (h : n < 256) : (UInt8.ofNat n).toNat = n :=
  UInt8.toNat_ofNat_of_lt' h

theorem toNat_tail (n : Nat) : (UInt8.ofNat (n % 64 + 128)).toNat = n % 64 + 128 :=
  toNat_ofNat (by omega)

theorem tail_le (n : Nat) :
    0x80 ≤ (UInt8.ofNat (n % 64 + 128)).toNat ∧ (UInt8.ofNat (n % 64 + 128)).toNat ≤ 0xBF := by
  rw [toNat_tail]
  omega

theorem run_two (h : 0x7F < n) (h' : n ≤ 0x7FF) (bs : List UInt8) :
    run none (UInt8.ofNat (n / 64 % 32 + 192) :: UInt8.ofNat (n % 64 + 128) :: bs) =
      Char.ofNat n :: run none bs := by
  have hn : (n / 64 % 32 + 192 - 192) * 64 + (n % 64 + 128) % 64 = n := by omega
  rw [run_cons, toNat_ofNat (by omega), step, start, if_neg (by omega), if_neg (by omega),
    if_pos (by omega), List.nil_append, run_last rfl (tail_le n), toNat_tail, hn]

theorem run_three (h : 0x7FF < n) (h' : n ≤ 0xFFFF) (hs : n < 0xD800 ∨ 0xDFFF < n)
    (bs : List UInt8) :
    run none (UInt8.ofNat (n / 4096 % 16 + 224) :: UInt8.ofNat (n / 64 % 64 + 128) ::
      UInt8.ofNat (n % 64 + 128) :: bs) = Char.ofNat n :: run none bs := by
  have hb : (if n / 4096 % 16 + 224 = 0xE0 then 0xA0 else 0x80) ≤ n / 64 % 64 + 128 ∧
      n / 64 % 64 + 128 ≤ if n / 4096 % 16 + 224 = 0xED then 0x9F else 0xBF := by
    constructor <;> split <;> omega
  have hn : ((n / 4096 % 16 + 224 - 224) * 64 + (n / 64 % 64 + 128) % 64) * 64 +
      (n % 64 + 128) % 64 = n := by omega
  rw [run_cons, toNat_ofNat (by omega), step, start, if_neg (by omega), if_neg (by omega),
    if_neg (by omega), if_pos (by omega), List.nil_append,
    run_next rfl (by rwa [toNat_tail]), toNat_tail, run_last rfl (tail_le n), toNat_tail, hn]

theorem run_four (h : 0xFFFF < n) (h' : n < 0x110000) (bs : List UInt8) :
    run none (UInt8.ofNat (n / 262144 % 8 + 240) :: UInt8.ofNat (n / 4096 % 64 + 128) ::
      UInt8.ofNat (n / 64 % 64 + 128) :: UInt8.ofNat (n % 64 + 128) :: bs) =
        Char.ofNat n :: run none bs := by
  have hb : (if n / 262144 % 8 + 240 = 0xF0 then 0x90 else 0x80) ≤ n / 4096 % 64 + 128 ∧
      n / 4096 % 64 + 128 ≤ if n / 262144 % 8 + 240 = 0xF4 then 0x8F else 0xBF := by
    constructor <;> split <;> omega
  have hn : (((n / 262144 % 8 + 240 - 240) * 64 + (n / 4096 % 64 + 128) % 64) * 64 +
      (n / 64 % 64 + 128) % 64) * 64 + (n % 64 + 128) % 64 = n := by omega
  rw [run_cons, toNat_ofNat (by omega), step, start, if_neg (by omega), if_neg (by omega),
    if_neg (by omega), if_neg (by omega), if_pos (by omega), List.nil_append,
    run_next rfl (by rwa [toNat_tail]), toNat_tail, run_next rfl (tail_le (n / 64)), toNat_tail,
    run_last rfl (tail_le n), toNat_tail, hn]

end

/-- The bytes of a character are read as the character. -/
theorem run_encode (c : Char) (bs : List UInt8) :
    run none (String.utf8EncodeChar c ++ bs) = c :: run none bs := by
  have hc : c.toNat < 0xD800 ∨ 0xDFFF < c.toNat ∧ c.toNat < 0x110000 := c.valid
  have hn : c.val.toNat = c.toNat := rfl
  simp only [String.utf8EncodeChar, hn]
  split
  · rw [List.singleton_append, run_cons, toNat_ofNat (by omega), step, start, if_pos (by omega),
      Char.ofNat_toNat]
    rfl
  · split
    · exact (run_two (by omega) (by omega) bs).trans (by rw [Char.ofNat_toNat])
    · split
      · exact (run_three (by omega) (by omega) (by omega) bs).trans (by rw [Char.ofNat_toNat])
      · exact (run_four (by omega) (by omega) bs).trans (by rw [Char.ofNat_toNat])

theorem run_flatMap_encode (cs : List Char) :
    run none (cs.flatMap String.utf8EncodeChar) = cs := by
  induction cs with
  | nil => rfl
  | cons c cs ih => rw [List.flatMap_cons, run_encode, ih]

theorem toUTF8_eq_flatMap (s : String) :
    s.toUTF8.data.toList = s.toList.flatMap String.utf8EncodeChar := by
  conv => lhs; rw [← String.ofList_toList (s := s)]
  exact List.toList_data_toByteArray

/-- The bytes of a string are read as the string. -/
theorem decodeLossy_toUTF8 (s : String) : decodeLossy s.toUTF8.data.toList = s := by
  rw [decodeLossy, toUTF8_eq_flatMap, run_flatMap_encode, String.ofList_toList]

/-! ## Lengths -/

/-- A byte in the middle of a character begins none. -/
theorem start_of_tail {b : Nat} (h : 0x80 ≤ b ∧ b < 0xC0) : start b = ([replacement], none) := by
  rw [start, if_neg (by omega), if_pos (by omega)]

theorem run_none_cons (b : UInt8) (bs : List UInt8) :
    run none (b :: bs) = (start b.toNat).1 ++ run (start b.toNat).2 bs := run_cons none b bs

/-- A character that is pending is at most one character more. -/
theorem length_run_some_le (p : Pending) (bs : List UInt8) :
    (run (some p) bs).length ≤ (run none bs).length + 1 := by
  induction bs generalizing p with
  | nil => exact Nat.le_refl 1
  | cons b bs ih =>
    by_cases hb : p.low ≤ b.toNat ∧ b.toNat ≤ p.high
    · have ht : run none (b :: bs) = replacement :: run none bs := by
        have hl := p.low_le
        have hh := p.high_lt
        rw [run_none_cons, start_of_tail (by omega)]
        rfl
      rw [ht, List.length_cons]
      cases hm : p.missing with
      | zero =>
        rw [run_last hm hb, List.length_cons]
        omega
      | succ n =>
        rw [run_next hm hb]
        exact Nat.le_succ_of_le (ih _)
    · rw [run_cons, step, if_neg hb, run_none_cons]
      exact Nat.le_refl _

theorem start_cases (b : Nat) :
    (∃ c, start b = ([c], none)) ∨ ∃ p, start b = ([], some p) := by
  rw [start]
  split
  · exact .inl ⟨_, rfl⟩
  split
  · exact .inl ⟨_, rfl⟩
  split
  · exact .inr ⟨_, rfl⟩
  split
  · exact .inr ⟨_, rfl⟩
  split
  · exact .inr ⟨_, rfl⟩
  · exact .inl ⟨_, rfl⟩

/-- A byte is at most one character more. -/
theorem length_run_cons_le (b : UInt8) (bs : List UInt8) :
    (run none (b :: bs)).length ≤ (run none bs).length + 1 := by
  rw [run_none_cons]
  obtain ⟨c, hc⟩ | ⟨p, hp⟩ := start_cases b.toNat
  · rw [hc]
    exact Nat.le_refl _
  · rw [hp]
    exact length_run_some_le p bs

end OpenID4VP.Utf8
