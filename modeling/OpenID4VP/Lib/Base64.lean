/-! # Base64 in the URL alphabet, without padding

Three bytes are written as four digits of six bits, one or two bytes at the end as two or three
digits, the last of which has no bits left over. `read_print` says that what is written is read
back, and `print_read` that it is written so again. -/

namespace OpenID4VP.Base64

def alphabet : List Char :=
  "ABCDEFGHIJKLMNOPQRSTUVWXYZabcdefghijklmnopqrstuvwxyz0123456789-_".toList

def digit (n : Nat) : Char := alphabet.getD n '='

def value (c : Char) : Option Nat := alphabet.idxOf? c

theorem value_digit : ∀ n < 64, value (digit n) = some n := by decide +kernel

def print : List UInt8 → List Char
  | [] => []
  | [a] => [digit (a.toNat / 4), digit (a.toNat % 4 * 16)]
  | [a, b] =>
    [digit (a.toNat / 4), digit (a.toNat % 4 * 16 + b.toNat / 16), digit (b.toNat % 16 * 4)]
  | a :: b :: c :: bs =>
    digit (a.toNat / 4) :: digit (a.toNat % 4 * 16 + b.toNat / 16) ::
      digit (b.toNat % 16 * 4 + c.toNat / 64) :: digit (c.toNat % 64) :: print bs

def read : List Char → Option (List UInt8)
  | [] => some []
  | [_] => none
  | [p, q] => do
    let x ← value p
    let y ← value q
    if y % 16 = 0 then some [UInt8.ofNat (x * 4 + y / 16)] else none
  | [p, q, r] => do
    let x ← value p
    let y ← value q
    let z ← value r
    if z % 4 = 0 then some [UInt8.ofNat (x * 4 + y / 16), UInt8.ofNat (y % 16 * 16 + z / 4)]
    else none
  | p :: q :: r :: s :: cs => do
    let x ← value p
    let y ← value q
    let z ← value r
    let w ← value s
    return UInt8.ofNat (x * 4 + y / 16) :: UInt8.ofNat (y % 16 * 16 + z / 4) ::
      UInt8.ofNat (z % 4 * 64 + w) :: (← read cs)

theorem digit_mem {n : Nat} (h : n < 64) : digit n ∈ alphabet := by
  have hl : alphabet.length = 64 := by decide +kernel
  rw [← hl] at h
  rw [digit, List.getD_eq_getElem?_getD, List.getElem?_eq_getElem h]
  exact List.getElem_mem h

/-- What is written is made of the digits of the alphabet. -/
theorem mem_alphabet_of_mem_print : ∀ bs : List UInt8, ∀ d ∈ print bs, d ∈ alphabet
  | [] => by simp [print]
  | [a] => by
    have ha : a.toNat < 256 := a.toNat_lt
    simp only [print, List.forall_mem_cons]
    exact ⟨digit_mem (by omega), digit_mem (by omega), nofun⟩
  | [a, b] => by
    have ha : a.toNat < 256 := a.toNat_lt
    have hb : b.toNat < 256 := b.toNat_lt
    simp only [print, List.forall_mem_cons]
    exact ⟨digit_mem (by omega), digit_mem (by omega), digit_mem (by omega), nofun⟩
  | a :: b :: c :: bs => by
    have ha : a.toNat < 256 := a.toNat_lt
    have hb : b.toNat < 256 := b.toNat_lt
    have hc : c.toNat < 256 := c.toNat_lt
    simp only [print, List.forall_mem_cons]
    exact ⟨digit_mem (by omega), digit_mem (by omega), digit_mem (by omega),
      digit_mem (by omega), mem_alphabet_of_mem_print bs⟩

theorem not_mem_print {c : Char} (h : c ∉ alphabet) (bs : List UInt8) : c ∉ print bs :=
  fun hc => h (mem_alphabet_of_mem_print bs c hc)

/-- The byte that a number below 256 stands for. -/
theorem ofNat_eq {n : Nat} {b : UInt8} (h : n = b.toNat) : UInt8.ofNat n = b := by
  rw [h, UInt8.ofNat_toNat]

theorem read_print : ∀ bs : List UInt8, read (print bs) = some bs
  | [] => rfl
  | [a] => by
    have ha : a.toNat < 256 := a.toNat_lt
    have h : UInt8.ofNat (a.toNat / 4 * 4 + a.toNat % 4 * 16 / 16) = a := ofNat_eq (by omega)
    simp only [print, read, value_digit (a.toNat / 4) (by omega),
      value_digit (a.toNat % 4 * 16) (by omega), Option.bind_eq_bind, Option.bind_some, h]
    rw [if_pos (by omega)]
  | [a, b] => by
    have ha : a.toNat < 256 := a.toNat_lt
    have hb : b.toNat < 256 := b.toNat_lt
    have h1 : UInt8.ofNat (a.toNat / 4 * 4 + (a.toNat % 4 * 16 + b.toNat / 16) / 16) = a :=
      ofNat_eq (by omega)
    have h2 : UInt8.ofNat ((a.toNat % 4 * 16 + b.toNat / 16) % 16 * 16 +
        b.toNat % 16 * 4 / 4) = b := ofNat_eq (by omega)
    simp only [print, read, value_digit (a.toNat / 4) (by omega),
      value_digit (a.toNat % 4 * 16 + b.toNat / 16) (by omega),
      value_digit (b.toNat % 16 * 4) (by omega), Option.bind_eq_bind, Option.bind_some, h1, h2]
    rw [if_pos (by omega)]
  | a :: b :: c :: bs => by
    have ha : a.toNat < 256 := a.toNat_lt
    have hb : b.toNat < 256 := b.toNat_lt
    have hc : c.toNat < 256 := c.toNat_lt
    have h1 : UInt8.ofNat (a.toNat / 4 * 4 + (a.toNat % 4 * 16 + b.toNat / 16) / 16) = a :=
      ofNat_eq (by omega)
    have h2 : UInt8.ofNat ((a.toNat % 4 * 16 + b.toNat / 16) % 16 * 16 +
        (b.toNat % 16 * 4 + c.toNat / 64) / 4) = b := ofNat_eq (by omega)
    have h3 : UInt8.ofNat ((b.toNat % 16 * 4 + c.toNat / 64) % 4 * 64 + c.toNat % 64) = c :=
      ofNat_eq (by omega)
    simp only [print, read, value_digit (a.toNat / 4) (by omega),
      value_digit (a.toNat % 4 * 16 + b.toNat / 16) (by omega),
      value_digit (b.toNat % 16 * 4 + c.toNat / 64) (by omega),
      value_digit (c.toNat % 64) (by omega), Option.bind_eq_bind, Option.bind_some, h1, h2, h3,
      read_print bs]
    rfl

theorem digit_of_value {c : Char} {n : Nat} (h : value c = some n) : n < 64 ∧ digit n = c := by
  have hl : alphabet.length = 64 := by decide +kernel
  obtain ⟨hn, hc, -⟩ := List.idxOf?_eq_some_iff.mp h
  rw [digit, List.getD_eq_getElem?_getD, List.getElem?_eq_getElem hn]
  exact ⟨hl ▸ hn, hc⟩

theorem toNat_ofNat {n : Nat} (h : n < 256) : (UInt8.ofNat n).toNat = n := by
  rw [UInt8.toNat_ofNat', Nat.mod_eq_of_lt h]

/-- There is one text for some bytes. -/
theorem print_read : ∀ {cs : List Char} {bs : List UInt8}, read cs = some bs → print bs = cs
  | [], bs, h => by
    obtain rfl := Option.some.inj h
    rfl
  | [_], _, h => nomatch h
  | [p, q], bs, h => by
    simp only [read, Option.bind_eq_bind, Option.bind_eq_some_iff] at h
    obtain ⟨x, hx, y, hy, h⟩ := h
    obtain ⟨hx, rfl⟩ := digit_of_value hx
    obtain ⟨hy, rfl⟩ := digit_of_value hy
    split at h
    · next h0 =>
      obtain rfl := Option.some.inj h
      have h1 : (x * 4 + y / 16) / 4 = x := by omega
      have h2 : (x * 4 + y / 16) % 4 * 16 = y := by omega
      rw [print, toNat_ofNat (by omega), h1, h2]
    · cases h
  | [p, q, r], bs, h => by
    simp only [read, Option.bind_eq_bind, Option.bind_eq_some_iff] at h
    obtain ⟨x, hx, y, hy, z, hz, h⟩ := h
    obtain ⟨hx, rfl⟩ := digit_of_value hx
    obtain ⟨hy, rfl⟩ := digit_of_value hy
    obtain ⟨hz, rfl⟩ := digit_of_value hz
    split at h
    · next h0 =>
      obtain rfl := Option.some.inj h
      have h1 : (x * 4 + y / 16) / 4 = x := by omega
      have h2 : (x * 4 + y / 16) % 4 * 16 + (y % 16 * 16 + z / 4) / 16 = y := by omega
      have h3 : (y % 16 * 16 + z / 4) % 16 * 4 = z := by omega
      rw [print, toNat_ofNat (by omega), toNat_ofNat (by omega), h1, h2, h3]
    · cases h
  | p :: q :: r :: s :: cs, bs, h => by
    simp only [read, Option.bind_eq_bind, Option.bind_eq_some_iff, Option.pure_def] at h
    obtain ⟨x, hx, y, hy, z, hz, w, hw, bs', hbs, h⟩ := h
    obtain ⟨hx, rfl⟩ := digit_of_value hx
    obtain ⟨hy, rfl⟩ := digit_of_value hy
    obtain ⟨hz, rfl⟩ := digit_of_value hz
    obtain ⟨hw, rfl⟩ := digit_of_value hw
    obtain rfl := Option.some.inj h
    have h1 : (x * 4 + y / 16) / 4 = x := by omega
    have h2 : (x * 4 + y / 16) % 4 * 16 + (y % 16 * 16 + z / 4) / 16 = y := by omega
    have h3 : (y % 16 * 16 + z / 4) % 16 * 4 + (z % 4 * 64 + w) / 64 = z := by omega
    have h4 : (z % 4 * 64 + w) % 64 = w := by omega
    rw [print, toNat_ofNat (by omega), toNat_ofNat (by omega), toNat_ofNat (by omega), h1, h2, h3,
      h4, print_read hbs]
end OpenID4VP.Base64
