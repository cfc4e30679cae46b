import OpenID4VP.Lib.Members
import Mathlib.Algebra.Group.Nat.Defs

/-! # JSON trees

The syntax trees of JSON documents. A tree is what a document says: an object lists its members in
document order, repeated keys included. A *value* is a tree without repeated keys
(`Json.wellFormed`), which is what a reader that collects objects into maps produces
(`Json.toValue`, where the last of the members of one key stays). `JsonMap` is an object of that
kind, with the proof as a field. -/

namespace OpenID4VP

/-- A number: an unsigned 64-bit integer, a negative 64-bit integer (`negInt n` is `-(n + 1)`), or
a finite double, given by the decimal `± digits * 10 ^ exponent` that is printed for it. -/
inductive Number
  | posInt (n : UInt64)
  | negInt (n : Fin (2 ^ 63))
  | float (neg : Bool) (digits : Nat) (exponent : Int)
  deriving DecidableEq

inductive Json
  | null
  | bool (b : Bool)
  | number (n : Number)
  | string (s : String)
  | array (xs : List Json)
  | object (ms : List (String × Json))

namespace Json

/-! ## Equality -/

mutual
def beq : Json → Json → Bool
  | .null, .null => true
  | .bool b, .bool b' => b == b'
  | .number n, .number n' => n == n'
  | .string s, .string s' => s == s'
  | .array xs, .array ys => beqList xs ys
  | .object ms, .object ns => beqMembers ms ns
  | _, _ => false

def beqList : List Json → List Json → Bool
  | [], [] => true
  | x :: xs, y :: ys => beq x y && beqList xs ys
  | _, _ => false

def beqMembers : List (String × Json) → List (String × Json) → Bool
  | [], [] => true
  | (k, x) :: ms, (l, y) :: ns => k == l && beq x y && beqMembers ms ns
  | _, _ => false
end

mutual
theorem eq_of_beq : ∀ {x y : Json}, beq x y = true → x = y
  | .null, y, h | .bool _, y, h | .number _, y, h | .string _, y, h => by
    cases y <;> simp_all [beq]
  | .array xs, y, h => by
    cases y <;> simp only [beq, Bool.false_eq_true] at h
    rw [eq_of_beqList h]
  | .object ms, y, h => by
    cases y <;> simp only [beq, Bool.false_eq_true] at h
    rw [eq_of_beqMembers h]

theorem eq_of_beqList : ∀ {xs ys : List Json}, beqList xs ys = true → xs = ys
  | [], ys, h => by cases ys <;> simp_all [beqList]
  | x :: xs, ys, h => by
    cases ys <;> simp only [beqList, Bool.false_eq_true, Bool.and_eq_true] at h
    rw [eq_of_beq h.1, eq_of_beqList h.2]

theorem eq_of_beqMembers : ∀ {ms ns : List (String × Json)}, beqMembers ms ns = true → ms = ns
  | [], ns, h => by cases ns <;> simp_all [beqMembers]
  | (k, x) :: ms, ns, h => by
    rcases ns with _ | ⟨⟨l, y⟩, ns⟩ <;>
      simp only [beqMembers, Bool.false_eq_true, Bool.and_eq_true, beq_iff_eq] at h
    rw [h.1.1, eq_of_beq h.1.2, eq_of_beqMembers h.2]
end

mutual
theorem beq_self : ∀ x : Json, beq x x = true
  | .null => rfl
  | .bool _ | .number _ | .string _ => by simp [beq]
  | .array xs => by rw [beq, beqList_self xs]
  | .object ms => by rw [beq, beqMembers_self ms]

theorem beqList_self : ∀ xs : List Json, beqList xs xs = true
  | [] => rfl
  | x :: xs => by rw [beqList, beq_self x, beqList_self xs]; rfl

theorem beqMembers_self : ∀ ms : List (String × Json), beqMembers ms ms = true
  | [] => rfl
  | (k, x) :: ms => by rw [beqMembers, beq_self x, beqMembers_self ms]; simp
end

instance : DecidableEq Json := fun x y =>
  decidable_of_iff (beq x y = true) ⟨eq_of_beq, fun h => h ▸ beq_self x⟩

/-! ## Values -/

mutual
/-- No object of the tree repeats a key. -/
def wellFormed : Json → Bool
  | .array xs => wellFormedList xs
  | .object ms => decide (Members.keys ms).Nodup && wellFormedMembers ms
  | _ => true

def wellFormedList : List Json → Bool
  | [] => true
  | x :: xs => wellFormed x && wellFormedList xs

def wellFormedMembers : List (String × Json) → Bool
  | [] => true
  | (_, x) :: ms => wellFormed x && wellFormedMembers ms
end

mutual
/-- The value a tree is read as: of the members of one key the last one stays. -/
def toValue : Json → Json
  | .array xs => .array (toValueList xs)
  | .object ms => .object (Members.collect (toValueMembers ms))
  | x => x

def toValueList : List Json → List Json
  | [] => []
  | x :: xs => toValue x :: toValueList xs

def toValueMembers : List (String × Json) → List (String × Json)
  | [] => []
  | (k, x) :: ms => (k, toValue x) :: toValueMembers ms
end

theorem wellFormedList_iff {xs : List Json} :
    wellFormedList xs = true ↔ ∀ x ∈ xs, wellFormed x = true := by
  induction xs with
  | nil => simp [wellFormedList]
  | cons x xs ih => simp [wellFormedList, ih]

theorem wellFormedMembers_iff {ms : List (String × Json)} :
    wellFormedMembers ms = true ↔ ∀ m ∈ ms, wellFormed m.2 = true := by
  induction ms with
  | nil => simp [wellFormedMembers]
  | cons m ms ih => simp [wellFormedMembers, ih]

theorem wellFormed_object {ms : List (String × Json)} :
    wellFormed (.object ms) = true ↔
      (Members.keys ms).Nodup ∧ ∀ m ∈ ms, wellFormed m.2 = true := by
  simp [wellFormed, wellFormedMembers_iff]

mutual
theorem toValue_of_wellFormed : ∀ {x : Json}, wellFormed x = true → toValue x = x
  | .null, _ | .bool _, _ | .number _, _ | .string _, _ => rfl
  | .array xs, h => by
    rw [toValue, toValueList_of_wellFormed h]
  | .object ms, h => by
    obtain ⟨hn, hw⟩ := wellFormed_object.mp h
    rw [toValue, toValueMembers_of_wellFormed (wellFormedMembers_iff.mpr hw),
      Members.collect_of_nodup hn]

theorem toValueList_of_wellFormed : ∀ {xs : List Json}, wellFormedList xs = true →
    toValueList xs = xs
  | [], _ => rfl
  | x :: xs, h => by
    simp only [wellFormedList, Bool.and_eq_true] at h
    rw [toValueList, toValue_of_wellFormed h.1, toValueList_of_wellFormed h.2]

theorem toValueMembers_of_wellFormed : ∀ {ms : List (String × Json)},
    wellFormedMembers ms = true → toValueMembers ms = ms
  | [], _ => rfl
  | (k, x) :: ms, h => by
    simp only [wellFormedMembers, Bool.and_eq_true] at h
    rw [toValueMembers, toValue_of_wellFormed h.1, toValueMembers_of_wellFormed h.2]
end

theorem eq_null_of_toValue {x : Json} (h : x.toValue = .null) : x = .null := by
  cases x with
  | null => rfl
  | _ => cases h

theorem eq_string_of_toValue {x : Json} {s : String} (h : x.toValue = .string s) :
    x = .string s := by
  cases x with
  | string s' => exact h
  | _ => cases h

mutual
theorem toValue_wellFormed : ∀ x : Json, wellFormed (toValue x) = true
  | .null | .bool _ | .number _ | .string _ => rfl
  | .array xs => wellFormedList_iff.mpr (toValueList_wellFormed xs)
  | .object ms => wellFormed_object.mpr ⟨Members.nodup_keys_collect _, fun m hm =>
      toValueMembers_wellFormed ms m (Members.mem_collect hm)⟩

theorem toValueList_wellFormed : ∀ xs : List Json, ∀ x ∈ toValueList xs, wellFormed x = true
  | [] => by simp [toValueList]
  | x :: xs => by
    rw [toValueList, List.forall_mem_cons]
    exact ⟨toValue_wellFormed x, toValueList_wellFormed xs⟩

theorem toValueMembers_wellFormed : ∀ ms : List (String × Json),
    ∀ m ∈ toValueMembers ms, wellFormed m.2 = true
  | [] => by simp [toValueMembers]
  | (k, x) :: ms => by
    rw [toValueMembers, List.forall_mem_cons]
    exact ⟨toValue_wellFormed x, toValueMembers_wellFormed ms⟩
end

end Json

/-! ## Maps of values -/

/-- An object whose members are values under distinct keys. -/
@[ext] structure JsonMap where
  entries : List (String × Json)
  wf : (Json.object entries).wellFormed = true
  deriving DecidableEq

namespace JsonMap

def empty : JsonMap := ⟨[], rfl⟩

/-- The map a list of members is read as. -/
def ofMembers (ms : List (String × Json)) : JsonMap :=
  ⟨Members.collect (Json.toValueMembers ms), by
    simpa only [Json.toValue] using Json.toValue_wellFormed (.object ms)⟩

def toJson (m : JsonMap) : Json := .object m.entries

def get? (m : JsonMap) (k : String) : Option Json := m.entries.lookup k

def containsKey (m : JsonMap) (k : String) : Bool := (m.get? k).isSome

def insert (m : JsonMap) (k : String) (v : Json) : JsonMap where
  entries := Members.insert k v.toValue m.entries
  wf := by
    obtain ⟨hn, hw⟩ := Json.wellFormed_object.mp m.wf
    refine Json.wellFormed_object.mpr ⟨Members.nodup_keys_insert hn, fun x hx => ?_⟩
    rcases Members.mem_insert hx with rfl | hx
    · exact Json.toValue_wellFormed v
    · exact hw x hx

def erase (m : JsonMap) (k : String) : JsonMap where
  entries := Members.erase k m.entries
  wf := by
    obtain ⟨hn, hw⟩ := Json.wellFormed_object.mp m.wf
    refine Json.wellFormed_object.mpr ⟨?_, fun x hx => hw x (List.mem_of_mem_filter hx)⟩
    exact hn.sublist (List.filter_sublist.map _)

theorem nodup_keys (m : JsonMap) : (Members.keys m.entries).Nodup :=
  (Json.wellFormed_object.mp m.wf).1

/-- A map is the map its own members are read as. -/
@[simp] theorem ofMembers_entries (m : JsonMap) : ofMembers m.entries = m := by
  apply JsonMap.ext
  obtain ⟨hn, hw⟩ := Json.wellFormed_object.mp m.wf
  change Members.collect (Json.toValueMembers m.entries) = m.entries
  rw [Json.toValueMembers_of_wellFormed (Json.wellFormedMembers_iff.mpr hw),
    Members.collect_of_nodup hn]

theorem toValueMembers_eq_map (ms : List (String × Json)) :
    Json.toValueMembers ms = ms.map fun m => (m.1, m.2.toValue) := by
  induction ms with
  | nil => rfl
  | cons m ms ih => rw [Json.toValueMembers, ih, List.map_cons]

/-- The keys of the map are keys of the members. -/
theorem apart_ofMembers {names : List String} {ms : List (String × Json)}
    (h : Members.Apart names ms) : Members.Apart names (ofMembers ms).entries := by
  intro m hm
  have hm : m ∈ Json.toValueMembers ms := Members.mem_collect hm
  rw [toValueMembers_eq_map] at hm
  obtain ⟨m', hm', rfl⟩ := List.mem_map.mp hm
  exact h m' hm'

/-- Of the members under one key the last one is there, as a value. -/
theorem get?_ofMembers_last (ms : List (String × Json)) (k : String) :
    (ofMembers ms).get? k = (ms.reverse.lookup k).map Json.toValue := by
  change (Members.collect (Json.toValueMembers ms)).lookup k = _
  rw [toValueMembers_eq_map, Members.lookup_collect, ← List.map_reverse,
    Members.lookup_map fun _ => Json.toValue]

/-- Members under distinct keys are all there, as values. -/
theorem get?_ofMembers {ms : List (String × Json)} (h : (Members.keys ms).Nodup) (k : String) :
    (ofMembers ms).get? k = (ms.lookup k).map Json.toValue := by
  change (Members.collect (Json.toValueMembers ms)).lookup k = _
  rw [toValueMembers_eq_map, Members.collect_of_nodup, Members.lookup_map fun _ => Json.toValue]
  rw [Members.keys_map fun _ => Json.toValue]
  exact h

theorem get?_ofMembers_present {slots : List (String × Option Json)}
    (h : (Members.keys slots).Nodup) (k : String) :
    (ofMembers (Members.present slots)).get? k = (slots.lookup k).join.map Json.toValue := by
  rw [get?_ofMembers (Members.nodup_keys_present h), Members.lookup_present h]

@[simp] theorem get?_insert_self (m : JsonMap) (k : String) (v : Json) :
    (m.insert k v).get? k = some v.toValue :=
  Members.lookup_insert_self k v.toValue m.entries

theorem get?_insert_of_ne {k k' : String} (h : k' ≠ k) (m : JsonMap) (v : Json) :
    (m.insert k v).get? k' = m.get? k' :=
  Members.lookup_insert_of_ne h v.toValue m.entries

@[simp] theorem get?_erase_self (m : JsonMap) (k : String) : (m.erase k).get? k = none :=
  Members.lookup_erase_self k m.entries

theorem get?_erase_of_ne {k k' : String} (h : k' ≠ k) (m : JsonMap) :
    (m.erase k).get? k' = m.get? k' :=
  Members.lookup_erase_of_ne h m.entries

end JsonMap
end OpenID4VP
