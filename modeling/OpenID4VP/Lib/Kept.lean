import OpenID4VP.Lib.Serde

/-! # What is kept of a tree

A tree that has been read is not always written again as it was: members that no field has are
left out, and so are optional fields that are `null`, and what a struct has by position is written
by name. A relation between trees says what is kept, one for each type: `StructKept` for structs,
by the relations of their fields, and `ElementsKept` for arrays. -/

namespace OpenID4VP

/-- An array with an element, each of which is kept in its place. -/
inductive ElementsKept (kept : Json → Json → Prop) : Json → Json → Prop
  | array (hne : xs ≠ []) (h : List.Forall₂ kept xs ys) : ElementsKept kept (.array xs) (.array ys)

/-- A tree that a struct with these field names can be read from: an object without two members for
a field, or an array with no more elements than there are fields. -/
inductive StructTree (names : List String) : Json → Prop
  | object (h : namesOnce names ms = true) : StructTree names (.object ms)
  | array (h : xs.length ≤ names.length) : StructTree names (.array xs)

/-- What the tree of a struct has for a field, by its name or by its position. -/
def fieldAt (names : List String) (k : String) : Json → Option Json
  | .object ms => ms.lookup k
  | .array xs => xs[names.idxOf k]?
  | _ => none

/-- A field, with what is kept of its tree. -/
structure FieldRule where
  name : String
  isOptional : Bool
  kept : Json → Json → Prop

namespace FieldRule

def required (name : String) (kept : Json → Json → Prop) : FieldRule := ⟨name, false, kept⟩

def optional (name : String) (kept : Json → Json → Prop) : FieldRule := ⟨name, true, kept⟩

/-- What is there for the field is kept, if it is not `null`. -/
inductive Holds (r : FieldRule) : Option Json → Option Json → Prop
  | kept (h : r.kept x y) : Holds r (some x) (some y)
  | null (h : r.isOptional = true) : Holds r (some .null) none
  | absent (h : r.isOptional = true) : Holds r none none

end FieldRule

/-- An object that has of each field what is kept of it, and nothing else. -/
inductive StructKept (rules : List FieldRule) (x : Json) : Json → Prop
  | object (hx : StructTree (rules.map FieldRule.name) x)
    (hn : (Members.keys ms).Sublist (rules.map FieldRule.name))
    (h : ∀ r ∈ rules, r.Holds (fieldAt (rules.map FieldRule.name) r.name x) (ms.lookup r.name)) :
    StructKept rules x (.object ms)

/-! ## Lists -/

section
variable [Deserialize α] [Serialize α] {kept : Json → Json → Prop}

theorem forall₂_of_mapM {as : List α} {xs : List Json}
    (h : ∀ {x} {a : α}, fromTree x = some a → kept x (toTree a))
    (hx : xs.mapM fromTree = some as) : List.Forall₂ kept xs (as.map toTree) := by
  induction xs generalizing as with
  | nil =>
    obtain rfl : [] = as := Option.some.inj hx
    exact .nil
  | cons x xs ih =>
    obtain ⟨a, bs, ha, hbs, rfl⟩ := mapM_cons_eq_some_iff.mp hx
    exact .cons (h ha) (ih hbs)

end

/-! ## Structs -/

/-- The tree found at a field. -/
def Slot.tree? : Slot → Option Json
  | given x => some x
  | _ => none

theorem structTree_of_structFields {names : List String} {x : Json} {f : String → Slot}
    (h : structFields names x = some f) : StructTree names x := by
  cases x with
  | array xs =>
    rw [structFields] at h
    split at h
    · next hl => exact .array hl
    · cases h
  | object ms =>
    change (if namesOnce names ms = true then some (memberSlot ms) else none) = some f at h
    split at h
    · next hn => exact .object hn
    · cases h
  | _ => cases h

theorem tree?_of_structFields {names : List String} {x : Json} {f : String → Slot}
    (h : structFields names x = some f) (k : String) : (f k).tree? = fieldAt names k x := by
  cases x with
  | array xs =>
    rw [structFields] at h
    split at h
    · obtain rfl := Option.some.inj h
      change (elementSlot xs (names.idxOf k)).tree? = xs[names.idxOf k]?
      rw [elementSlot]
      cases xs[names.idxOf k]? <;> rfl
    · cases h
  | object ms =>
    change (if namesOnce names ms = true then some (memberSlot ms) else none) = some f at h
    split at h
    · obtain rfl := Option.some.inj h
      change (memberSlot ms k).tree? = ms.lookup k
      rw [memberSlot]
      cases ms.lookup k <;> rfl
    · cases h
  | _ => cases h

section
variable [Deserialize α] [Serialize α] {kept : Json → Json → Prop} {s : Slot} {k : String}

theorem FieldRule.holds_required {a : α}
    (h : ∀ {x} {a : α}, fromTree x = some a → kept x (toTree a)) (hs : s.required = some a) :
    (FieldRule.required k kept).Holds s.tree? (some (toTree a)) := by
  obtain ⟨x, rfl, hx⟩ := Slot.required_eq_some_iff.mp hs
  exact .kept (h hx)

theorem FieldRule.holds_optional {a : Option α}
    (h : ∀ {x} {a : α}, fromTree x = some a → kept x (toTree a)) (hs : s.optional = some a) :
    (FieldRule.optional k kept).Holds s.tree? (a.map toTree) := by
  cases a with
  | some a =>
    obtain ⟨x, rfl, -, hx⟩ := Slot.optional_eq_some hs
    exact .kept (h hx)
  | none =>
    cases s with
    | given x =>
      by_cases hx : x = .null
      · subst hx
        exact .null rfl
      · rw [Slot.optional_given hx, Option.map_eq_some_iff] at hs
        obtain ⟨_, -, hn⟩ := hs
        cases hn
    | omitted => exact .absent rfl
    | beyond => cases hs

end

/-- A struct is kept when its fields are. -/
theorem structKept_toTree [Serialize α] [WritesSlots α] {rules : List FieldRule} {x : Json}
    {f : String → Slot} {a : α} (hx : structFields (rules.map FieldRule.name) x = some f)
    (hk : Members.keys (slots a) = rules.map FieldRule.name)
    (h : ∀ r ∈ rules, r.Holds (f r.name).tree? ((slots a).lookup r.name).join) :
    StructKept rules x (toTree a) := by
  rw [WritesSlots.toTree_eq_present]
  refine .object (structTree_of_structFields hx) ?_ fun r hr => ?_
  · rw [← hk]
    exact Members.keys_present_sublist _
  · rw [← tree?_of_structFields hx, Members.lookup_present (WritesSlots.nodup_keys a)]
    exact h r hr

end OpenID4VP
