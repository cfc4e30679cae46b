import OpenID4VP.Lib.Serde

/-! # Fields that are given once

An object may have several members for a field. Which of them a struct is read from is said here of
their values in order: a required field is there once (`RequiredOf`), an optional one at most once
(`OptionalOf`), and each value is a tree of the field's type (`Reads`). -/

namespace OpenID4VP

namespace Members

variable {κ α : Type} [DecidableEq κ]

/-- The values of all members under a key. -/
def lookupAll (k : κ) (ms : List (κ × α)) : List α := (ms.filter fun m => m.1 = k).map Prod.snd

theorem lookupAll_cons (k k' : κ) (v : α) (ms : List (κ × α)) :
    lookupAll k ((k', v) :: ms) = if k' = k then v :: lookupAll k ms else lookupAll k ms := by
  rw [lookupAll, List.filter_cons]
  by_cases h : k' = k
  · rw [if_pos (decide_eq_true h), if_pos h]
    rfl
  · rw [if_neg (by simpa using h), if_neg h]
    rfl

theorem lookup_eq_head? (k : κ) (ms : List (κ × α)) : ms.lookup k = (lookupAll k ms).head? := by
  induction ms with
  | nil => rfl
  | cons m ms ih =>
    rw [lookup_cons, lookupAll_cons, ih]
    by_cases h : k = m.1
    · rw [if_pos h, if_pos h.symm]
      rfl
    · rw [if_neg h, if_neg (Ne.symm h)]

theorem lookupAll_eq_nil_iff {k : κ} {ms : List (κ × α)} : lookupAll k ms = [] ↔ k ∉ keys ms := by
  rw [← lookup_eq_none_iff, lookup_eq_head?, List.head?_eq_none_iff]

theorem lookupAll_eq_singleton_iff {k : κ} {v : α} {ms : List (κ × α)} :
    lookupAll k ms = [v] ↔ (lookupAll k ms).length ≤ 1 ∧ ms.lookup k = some v := by
  rw [lookup_eq_head?]
  generalize lookupAll k ms = vs
  match vs with
  | [] | [_] | _ :: _ :: _ => simp

/-- Under distinct keys there is at most one value. -/
theorem lookupAll_of_nodup {ms : List (κ × α)} (h : (keys ms).Nodup) (k : κ) :
    lookupAll k ms = (ms.lookup k).toList := by
  induction ms with
  | nil => rfl
  | cons m ms ih =>
    rw [keys, List.map_cons, List.nodup_cons] at h
    rw [lookup_cons, lookupAll_cons]
    by_cases hk : k = m.1
    · subst hk
      rw [if_pos rfl, if_pos rfl, lookupAll_eq_nil_iff.mpr h.1]
      rfl
    · rw [if_neg (Ne.symm hk), if_neg hk, ih h.2]

theorem lookupAll_filter_of_not_mem {names : List κ} {k : κ} (h : k ∉ names)
    (ms : List (κ × α)) : lookupAll k (ms.filter fun m => m.1 ∉ names) = lookupAll k ms := by
  induction ms with
  | nil => rfl
  | cons m ms ih =>
    obtain ⟨k', v⟩ := m
    by_cases hm : k' ∈ names
    · have hne : k' ≠ k := fun he => h (he ▸ hm)
      rw [filter_cons_of_mem hm, ih, lookupAll_cons, if_neg hne]
    · rw [filter_cons_of_not_mem hm, lookupAll_cons, lookupAll_cons, ih]

end Members

open Members

theorem namesOnce_iff {names : List String} {ms : List (String × Json)} :
    namesOnce names ms = true ↔ ∀ k ∈ names, (lookupAll k ms).length ≤ 1 := by
  simp only [namesOnce, List.all_eq_true, decide_eq_true_eq, lookupAll, List.length_map]
  rfl

theorem takeNames_eq_some_iff {names : List String} {ms rest : List (String × Json)} :
    takeNames names ms = some rest ↔
      (∀ k ∈ names, (lookupAll k ms).length ≤ 1) ∧ (ms.filter fun m => m.1 ∉ names) = rest := by
  rw [takeNames, ← namesOnce_iff]
  by_cases h : namesOnce names ms = true
  · rw [if_pos h, Option.some_inj, and_iff_right h]
  · rw [if_neg h]
    exact iff_of_false (Option.some_ne_none _ ·.symm) (h ·.1)

theorem memberSlot_eq_given_iff {ms : List (String × Json)} {k : String} {x : Json} :
    memberSlot ms k = .given x ↔ ms.lookup k = some x := by
  rw [memberSlot]
  cases ms.lookup k <;> simp

/-- The trees that a type is read from. -/
def Reads (α : Type) [Deserialize α] (R : Json → Prop) : Prop :=
  ∀ x, (∃ a : α, fromTree x = some a) ↔ R x

inductive IsText : Json → Prop
  | string (s : String) : IsText (.string s)

inductive IsArrayOf (R : Json → Prop) : Json → Prop
  | array (h : ∀ x ∈ xs, R x) : IsArrayOf R (.array xs)

/-- The values of a field that has to be there. -/
inductive RequiredOf (R : Json → Prop) : List Json → Prop
  | given (h : R x) : RequiredOf R [x]

/-- The values of a field that may be left out. -/
inductive OptionalOf (R : Json → Prop) : List Json → Prop
  | absent : OptionalOf R []
  | null : OptionalOf R [.null]
  | given (h : R x) : OptionalOf R [x]

/-! ## What is read -/

theorem reads_text : Reads String IsText := by
  intro x
  constructor
  · rintro ⟨s, hs⟩
    rw [fromTree_eq_text_iff] at hs
    exact hs ▸ .string s
  · rintro ⟨s⟩
    exact ⟨s, rfl⟩

theorem exists_mapM_eq_some_iff {f : α → Option β} {as : List α} :
    (∃ bs, as.mapM f = some bs) ↔ ∀ a ∈ as, ∃ b, f a = some b := by
  induction as with
  | nil => exact iff_of_true ⟨[], rfl⟩ (List.forall_mem_nil _)
  | cons a as ih =>
    rw [List.forall_mem_cons, ← ih]
    constructor
    · rintro ⟨_, h⟩
      obtain ⟨b, bs, hb, hbs, -⟩ := mapM_cons_eq_some_iff.mp h
      exact ⟨⟨b, hb⟩, bs, hbs⟩
    · rintro ⟨⟨b, hb⟩, bs, hbs⟩
      exact ⟨b :: bs, mapM_cons_eq_some_iff.mpr ⟨b, bs, hb, hbs, rfl⟩⟩

section
variable [Deserialize α] {R : Json → Prop}

theorem reads_list (h : Reads α R) : Reads (List α) (IsArrayOf R) := by
  intro x
  constructor
  · rintro ⟨as, has⟩
    obtain ⟨xs, rfl, hm⟩ := exists_of_fromTree_list has
    exact .array fun x hx => (h x).mp (exists_mapM_eq_some_iff.mp ⟨as, hm⟩ x hx)
  · rintro ⟨hxs⟩
    exact exists_mapM_eq_some_iff.mpr fun x hx => (h x).mpr (hxs x hx)

theorem exists_required_iff (h : Reads α R) (ms : List (String × Json)) (k : String) :
    ((lookupAll k ms).length ≤ 1 ∧ ∃ a : α, (memberSlot ms k).required = some a) ↔
      RequiredOf R (lookupAll k ms) := by
  rw [memberSlot_eq_ofOption, lookup_eq_head?]
  generalize lookupAll k ms = xs
  constructor
  · rintro ⟨hl, a, ha⟩
    obtain ⟨x, hx, hr⟩ := Slot.required_eq_some_iff.mp ha
    match xs with
    | [] => cases hx
    | [y] =>
      cases hx
      exact .given ((h x).mp ⟨a, hr⟩)
    | _ :: _ :: _ => exact absurd hl (by simp)
  · intro hr
    cases hr with
    | given hx => exact ⟨le_rfl, (h _).mpr hx⟩

theorem exists_optional_iff (h : Reads α R) (ms : List (String × Json)) (k : String) :
    ((lookupAll k ms).length ≤ 1 ∧ ∃ a : Option α, (memberSlot ms k).optional = some a) ↔
      OptionalOf R (lookupAll k ms) := by
  rw [memberSlot_eq_ofOption, lookup_eq_head?]
  generalize lookupAll k ms = xs
  constructor
  · rintro ⟨hl, a, ha⟩
    match xs with
    | [] => exact .absent
    | [x] =>
      by_cases hx : x = .null
      · exact hx ▸ .null
      · change (Slot.given x).optional = some a at ha
        rw [Slot.optional_given hx, Option.map_eq_some_iff] at ha
        obtain ⟨a, ha, -⟩ := ha
        exact .given ((h x).mp ⟨a, ha⟩)
    | _ :: _ :: _ => exact absurd hl (by simp)
  · intro ho
    cases ho with
    | absent => exact ⟨Nat.zero_le 1, none, rfl⟩
    | null => exact ⟨le_rfl, none, rfl⟩
    | @given x hx =>
      refine ⟨le_rfl, ?_⟩
      by_cases hn : x = .null
      · exact ⟨none, hn ▸ rfl⟩
      · obtain ⟨a, ha⟩ := (h x).mpr hx
        refine ⟨some a, ?_⟩
        change (Slot.given x).optional = _
        rw [Slot.optional_given hn, ha]
        rfl

end
end OpenID4VP
