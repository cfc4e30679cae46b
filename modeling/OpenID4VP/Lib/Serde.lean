import OpenID4VP.Lib.Json.Tree

/-! # Reading and writing typed values

`Deserialize` reads a type from a JSON tree, `Serialize` writes it as one. The readers are those
that a field-by-field derivation gives: a struct is read from an object (by name, other members
are skipped, a name given twice is refused) or from an array (by position), an enumeration from
its name. `structFields` finds the fields, and a `Slot` says what was found at one of them. -/

namespace OpenID4VP

class Deserialize (α : Type) where
  fromTree : Json → Option α

class Serialize (α : Type) where
  toTree : α → Json

export Deserialize (fromTree)
export Serialize (toTree)

/-- What is written is read back. -/
class LawfulSerde (α : Type) [Deserialize α] [Serialize α] : Prop where
  fromTree_toTree : ∀ a : α, fromTree (toTree a) = some a

attribute [simp] LawfulSerde.fromTree_toTree

/-- A JSON value: a tree without repeated keys. -/
structure Value where
  tree : Json
  wf : tree.wellFormed = true
  deriving DecidableEq

instance : Deserialize Value := ⟨fun x => some ⟨x.toValue, x.toValue_wellFormed⟩⟩
instance : Serialize Value := ⟨Value.tree⟩
instance : LawfulSerde Value := ⟨fun ⟨x, h⟩ => by
  simp [fromTree, toTree, Json.toValue_of_wellFormed h]⟩

instance : Deserialize String := ⟨fun | .string s => some s | _ => none⟩
instance : Serialize String := ⟨.string⟩
instance : LawfulSerde String := ⟨fun _ => rfl⟩

theorem fromTree_eq_text_iff {x : Json} {s : String} : fromTree x = some s ↔ x = .string s := by
  constructor
  · intro h
    cases x with
    | string s' => exact congrArg Json.string (Option.some.inj h)
    | _ => cases h
  · rintro rfl
    rfl

instance : Deserialize Bool := ⟨fun | .bool b => some b | _ => none⟩
instance : Serialize Bool := ⟨.bool⟩
instance : LawfulSerde Bool := ⟨fun _ => rfl⟩

instance : Deserialize UInt64 := ⟨fun | .number (.posInt n) => some n | _ => none⟩
instance : Serialize UInt64 := ⟨fun n => .number (.posInt n)⟩
instance : LawfulSerde UInt64 := ⟨fun _ => rfl⟩

instance : Deserialize Int64 := ⟨fun
  | .number (.posInt n) => if n.toNat < 2 ^ 63 then some (.ofNat n.toNat) else none
  | .number (.negInt n) => some (.ofInt (.negSucc n))
  | _ => none⟩

instance : Deserialize JsonMap := ⟨fun | .object ms => some (.ofMembers ms) | _ => none⟩
instance : Serialize JsonMap := ⟨JsonMap.toJson⟩
instance : LawfulSerde JsonMap := ⟨fun m => by simp [fromTree, toTree, JsonMap.toJson]⟩

theorem mapM_map_eq_map {f : β → Option γ} {g : α → β} {h : α → γ} {xs : List α}
    (hx : ∀ x ∈ xs, f (g x) = some (h x)) : (xs.map g).mapM f = some (xs.map h) := by
  induction xs with
  | nil => rfl
  | cons x xs ih =>
    rw [List.forall_mem_cons] at hx
    simp [List.mapM_cons, hx.1, ih hx.2]

/-- A traversal has the result of the first element and those of the others. -/
theorem mapM_cons_eq_some_iff {f : α → Option β} {a : α} {as : List α} {bs : List β} :
    (a :: as).mapM f = some bs ↔ ∃ b bs', f a = some b ∧ as.mapM f = some bs' ∧ b :: bs' = bs := by
  rw [List.mapM_cons]
  simp only [Option.bind_eq_bind, Option.bind_eq_some_iff, Option.pure_def, Option.some.injEq,
    exists_and_left]

theorem exists_of_mem_mapM {f : α → Option β} {xs : List α} {ys : List β} {y : β}
    (h : xs.mapM f = some ys) (hy : y ∈ ys) : ∃ x ∈ xs, f x = some y := by
  induction xs generalizing ys with
  | nil =>
    obtain rfl : [] = ys := Option.some.inj h
    exact absurd hy List.not_mem_nil
  | cons x xs ih =>
    obtain ⟨z, zs, hz, hzs, rfl⟩ := mapM_cons_eq_some_iff.mp h
    rcases List.mem_cons.mp hy with rfl | hy
    · exact ⟨x, List.mem_cons_self, hz⟩
    · obtain ⟨x', hx', he⟩ := ih hzs hy
      exact ⟨x', List.mem_cons_of_mem _ hx', he⟩

theorem exists_of_mapM_eq_some {f : α → Option β} {xs : List α} {ys : List β}
    (h : xs.mapM f = some ys) {x : α} (hx : x ∈ xs) : ∃ y ∈ ys, f x = some y := by
  induction xs generalizing ys with
  | nil => cases hx
  | cons x' xs ih =>
    obtain ⟨y, ys, hy, hys, rfl⟩ := mapM_cons_eq_some_iff.mp h
    rcases List.mem_cons.mp hx with rfl | hx
    · exact ⟨y, List.mem_cons_self, hy⟩
    · obtain ⟨y', hy', he⟩ := ih hys hx
      exact ⟨y', List.mem_cons_of_mem _ hy', he⟩

instance [Deserialize α] : Deserialize (List α) :=
  ⟨fun | .array xs => xs.mapM fromTree | _ => none⟩
instance [Serialize α] : Serialize (List α) := ⟨fun xs => .array (xs.map toTree)⟩
/-- A list is read back if its elements are. -/
theorem fromTree_toTree_list [Deserialize α] [Serialize α] {as : List α}
    (h : ∀ a ∈ as, fromTree (toTree a) = some a) : fromTree (toTree as) = some as := by
  change (as.map toTree).mapM fromTree = some as
  simpa using mapM_map_eq_map (h := id) h

/-- What is read as a list has the elements' trees in it. -/
theorem exists_of_fromTree_list [Deserialize α] {x : Json} {as : List α}
    (h : fromTree x = some as) : ∃ xs, x = .array xs ∧ xs.mapM fromTree = some as := by
  cases x with
  | array xs => exact ⟨xs, rfl, h⟩
  | _ => cases h

/-- Elements that have one tree each make lists that have one tree each. -/
theorem fromTree_list_eq_some_iff [Deserialize α] {tree : α → Json}
    (h : ∀ {y} {a : α}, fromTree y = some a ↔ y = tree a) {x : Json} {as : List α} :
    fromTree x = some as ↔ x = .array (as.map tree) := by
  constructor
  · intro hx
    obtain ⟨xs, rfl, hm⟩ := exists_of_fromTree_list hx
    rw [Json.array.injEq]
    clear hx
    induction xs generalizing as with
    | nil =>
      obtain rfl : [] = as := Option.some.inj hm
      rfl
    | cons y ys ih =>
      obtain ⟨a, bs, ha, hbs, rfl⟩ := mapM_cons_eq_some_iff.mp hm
      rw [List.map_cons, h.mp ha, ih hbs]
  · rintro rfl
    change (as.map tree).mapM fromTree = some as
    simpa using mapM_map_eq_map (h := id) fun a _ => h.mpr rfl

instance [Deserialize α] [Serialize α] [LawfulSerde α] : LawfulSerde (List α) :=
  ⟨fun _ => fromTree_toTree_list fun a _ => LawfulSerde.fromTree_toTree a⟩

/-- One item alone, or an array of items. -/
def readOneOrMany [Deserialize α] (x : Json) : Option (List α) :=
  (fromTree x).map (fun a => [a]) <|> fromTree x

/-- A list of one item is written as the item alone. -/
def writeOneOrMany [Serialize α] : List α → Json
  | [a] => toTree a
  | as => toTree as

/-- Lists are read back when no array is read as an item. -/
theorem readOneOrMany_writeOneOrMany [Deserialize α] [Serialize α] [LawfulSerde α]
    (h : ∀ xs, (fromTree (.array xs) : Option α) = none) (as : List α) :
    readOneOrMany (writeOneOrMany as) = some as := by
  have many (as : List α) : readOneOrMany (toTree as) = some as := by
    have hn : (fromTree (toTree as) : Option α) = none := h _
    rw [readOneOrMany, hn, LawfulSerde.fromTree_toTree]
    rfl
  match as with
  | [a] => rw [writeOneOrMany, readOneOrMany, LawfulSerde.fromTree_toTree]; rfl
  | [] => exact many []
  | a :: b :: as => exact many (a :: b :: as)

/-- The name of a variant without contents, alone or as the only key of an object. -/
def unitVariant (variants : List (String × α)) : Json → Option α
  | .string s => variants.lookup s
  | .object [(k, .null)] => variants.lookup k
  | _ => none

/-- The name of a variant in contents that have been buffered, where an empty object is nothing,
too. -/
def bufferedUnitVariant (variants : List (String × α)) : Json → Option α
  | .object [(k, .object [])] => variants.lookup k
  | x => unitVariant variants x

/-! ## Structs -/

/-- What the reader of a struct finds for a field: its tree, or nothing, because the object has no
such member or because the array ends before it. -/
inductive Slot
  | given (x : Json)
  | omitted
  | beyond

namespace Slot

def required [Deserialize α] : Slot → Option α
  | given x => fromTree x
  | _ => none

/-- An optional field. Absence from an object reads as `none`, the end of an array does not. -/
def optionalWith (read : Json → Option α) : Slot → Option (Option α)
  | given .null => some none
  | given x => (read x).map some
  | omitted => some none
  | beyond => none

def optional [Deserialize α] : Slot → Option (Option α) := optionalWith fromTree

/-- An optional field that is also absent when an array ends before it. -/
def optionalOrNone [Deserialize α] : Slot → Option (Option α)
  | beyond => some none
  | s => s.optional

/-- A field with a default for its absence. -/
def orDefault [Deserialize α] (d : α) : Slot → Option α
  | given x => fromTree x
  | _ => some d

end Slot

/-- Every one of the names is given at most once. -/
def namesOnce (names : List String) (ms : List (String × α)) : Bool :=
  names.all fun k => (ms.filter fun m => m.1 == k).length ≤ 1

/-- The members but for those of the given names, each of which is given at most once. -/
def takeNames (names : List String) (ms : List (String × Json)) : Option (List (String × Json)) :=
  if namesOnce names ms then some (ms.filter fun m => m.1 ∉ names) else none

def memberSlot (ms : List (String × Json)) (k : String) : Slot :=
  match ms.lookup k with
  | some x => .given x
  | none => .omitted

def elementSlot (xs : List Json) (i : Nat) : Slot :=
  match xs[i]? with
  | some x => .given x
  | none => .beyond

/-- The fields of a struct that is read from objects only. -/
def mapFields (names : List String) : Json → Option (String → Slot)
  | .object ms => if namesOnce names ms then some (memberSlot ms) else none
  | _ => none

/-- The fields of a struct with these field names, in the order of its declaration. -/
def structFields (names : List String) : Json → Option (String → Slot)
  | .array xs =>
    if xs.length ≤ names.length then some fun k => elementSlot xs (names.idxOf k) else none
  | x => mapFields names x

/-- A field that is always written. -/
def member [Serialize α] (k : String) (a : α) : List (String × Json) := [(k, toTree a)]

/-- A field that is not written when it is absent. -/
def optionalMember [Serialize α] (k : String) : Option α → List (String × Json)
  | some a => member k a
  | none => []

/-- A field that is written as `null` when it is absent. -/
def nullableMember [Serialize α] (k : String) : Option α → List (String × Json)
  | some a => member k a
  | none => [(k, .null)]

theorem member_eq_present [Serialize α] (k : String) (a : α) :
    member k a = Members.present [(k, some (toTree a))] := rfl

theorem optionalMember_eq_present [Serialize α] (k : String) (a : Option α) :
    optionalMember k a = Members.present [(k, a.map toTree)] := by
  cases a <;> rfl

theorem nullableMember_eq_present [Serialize α] (k : String) (a : Option α) :
    nullableMember k a = Members.present [(k, some ((a.map toTree).getD .null))] := by
  cases a <;> rfl

theorem nullableMember_eq [Serialize α] (k : String) (a : Option α) :
    nullableMember k a = [(k, (a.map toTree).getD .null)] := by
  cases a <;> rfl

/-- A field that is not written when it has a value it is then read as. -/
theorem skippedMember_eq_present [Serialize α] (k : String) (skip : Bool) (a : α) :
    (if skip then [] else member k a) =
      Members.present [(k, if skip then none else some (toTree a))] := by
  cases skip <;> rfl

/-! ## What is read at a field -/

namespace Slot
variable [Deserialize α] {s : Slot} {a d : α}

theorem required_eq_some_iff : s.required = some a ↔ ∃ x, s = .given x ∧ fromTree x = some a := by
  cases s <;> simp [required]

theorem orDefault_eq_some (h : s.orDefault d = some a) :
    (∃ x, s = .given x ∧ fromTree x = some a) ∨ a = d := by
  cases s with
  | given x => exact .inl ⟨x, rfl, h⟩
  | omitted | beyond => exact .inr (Option.some.inj h).symm

omit [Deserialize α] in
theorem optionalWith_given {read : Json → Option α} {x : Json} (hx : x ≠ .null) :
    (given x).optionalWith read = (read x).map some := by
  rw [optionalWith]
  exact hx

theorem optional_given {x : Json} (hx : x ≠ .null) :
    (given x).optional = (fromTree x).map (some : α → Option α) :=
  optionalWith_given hx

omit [Deserialize α] in
theorem optionalWith_eq_some {read : Json → Option α}
    (h : s.optionalWith read = some (some a)) :
    ∃ x, s = .given x ∧ x ≠ .null ∧ read x = some a := by
  cases s with
  | given x =>
    by_cases hx : x = .null
    · subst hx
      cases h
    · rw [optionalWith_given hx, Option.map_eq_some_iff] at h
      obtain ⟨a', ha, he⟩ := h
      exact ⟨x, rfl, hx, ha.trans he⟩
  | omitted | beyond => cases h

theorem optional_eq_some (h : s.optional = some (some a)) :
    ∃ x, s = .given x ∧ x ≠ .null ∧ fromTree x = some a :=
  optionalWith_eq_some h

end Slot

/-- The elements of a list that is read from a value are read from values. -/
theorem exists_of_mem_fromTree_list [Deserialize α] {x : Json} {as : List α} {a : α}
    (hx : x.wellFormed = true) (h : fromTree x = some as) (ha : a ∈ as) :
    ∃ y, y.wellFormed = true ∧ fromTree y = some a := by
  obtain ⟨xs, rfl, h⟩ := exists_of_fromTree_list h
  obtain ⟨y, hy, he⟩ := exists_of_mem_mapM h ha
  exact ⟨y, Json.wellFormedList_iff.mp hx y hy, he⟩

/-- What a struct of a value has at its fields are values. -/
theorem wellFormed_of_given {names : List String} {x y : Json} {f : String → Slot} {k : String}
    (h : structFields names x = some f) (hx : x.wellFormed = true) (hy : f k = .given y) :
    y.wellFormed = true := by
  cases x with
  | array xs =>
    rw [structFields] at h
    split at h
    · obtain rfl := Option.some.inj h
      change elementSlot xs (names.idxOf k) = .given y at hy
      unfold elementSlot at hy
      split at hy
      · next z hz =>
        obtain rfl := Slot.given.inj hy
        exact Json.wellFormedList_iff.mp hx _ (List.mem_of_getElem? hz)
      · cases hy
    · cases h
  | object ms =>
    rw [structFields, mapFields] at h
    · split at h
      · obtain rfl := Option.some.inj h
        unfold memberSlot at hy
        split at hy
        · next z hz =>
          obtain rfl := Slot.given.inj hy
          exact (Json.wellFormed_object.mp hx).2 _ (Members.mem_of_lookup_eq_some hz)
        · cases hy
      · cases h
    · nofun
  | _ => cases h

/-! ## Trees of typed values -/

/-- What is written is a value: no object repeats a key. -/
class WritesValues (α : Type) [Serialize α] : Prop where
  wellFormed : ∀ a : α, (toTree a).wellFormed = true

/-- A value keeps the trees that are written. -/
@[simp] theorem toValue_toTree [Serialize α] [WritesValues α] (a : α) :
    (toTree a).toValue = toTree a :=
  Json.toValue_of_wellFormed (WritesValues.wellFormed a)

instance : WritesValues Value := ⟨Value.wf⟩
instance : WritesValues String := ⟨fun _ => rfl⟩
instance : WritesValues Bool := ⟨fun _ => rfl⟩
instance : WritesValues UInt64 := ⟨fun _ => rfl⟩
instance : WritesValues JsonMap := ⟨JsonMap.wf⟩

theorem wellFormed_toTree_list [Serialize α] {as : List α}
    (h : ∀ a ∈ as, (toTree a).wellFormed = true) : (toTree as).wellFormed = true := by
  change Json.wellFormedList (as.map toTree) = true
  rw [Json.wellFormedList_iff]
  intro x hx
  obtain ⟨a, ha, rfl⟩ := List.mem_map.mp hx
  exact h a ha

instance [Serialize α] [WritesValues α] : WritesValues (List α) :=
  ⟨fun _ => wellFormed_toTree_list fun a _ => WritesValues.wellFormed a⟩

theorem wellFormed_writeOneOrMany [Serialize α] [WritesValues α] (as : List α) :
    (writeOneOrMany as).wellFormed = true := by
  match as with
  | [a] => exact WritesValues.wellFormed a
  | [] => rfl
  | a :: b :: as => exact WritesValues.wellFormed (a :: b :: as)

/-- A member that is written says that the field is there. -/
class NeverNull (α : Type) [Serialize α] : Prop where
  toTree_ne_null : ∀ a : α, toTree a ≠ .null

instance : NeverNull String := ⟨nofun⟩
instance : NeverNull Bool := ⟨nofun⟩
instance : NeverNull UInt64 := ⟨nofun⟩
instance : NeverNull JsonMap := ⟨nofun⟩
instance [Serialize α] : NeverNull (List α) := ⟨nofun⟩

/-! ## Structs that are read back

A struct is written as the members of its slots that have a value. Its reader finds the value of a
slot at the field of that name, and then only the fields are left to be read back. -/

/-- What is found at a field that may have been left out. -/
def Slot.ofOption : Option Json → Slot
  | some x => given x
  | none => omitted

def slotOf (slots : List (String × Option Json)) (k : String) : Slot :=
  .ofOption (slots.lookup k).join

theorem memberSlot_eq_ofOption (ms : List (String × Json)) (k : String) :
    memberSlot ms k = .ofOption (ms.lookup k) := by
  rw [memberSlot]
  cases ms.lookup k <;> rfl

theorem namesOnce_of_nodup (names : List String) {ms : List (String × Json)}
    (h : (Members.keys ms).Nodup) : namesOnce names ms = true := by
  rw [namesOnce, List.all_eq_true]
  intro k _
  have hf : (ms.filter fun m => m.1 == k).length = (Members.keys ms).count k := by
    rw [List.count_eq_countP, Members.keys, List.countP_map, List.countP_eq_length_filter]
    rfl
  rw [hf, decide_eq_true_eq]
  exact List.nodup_iff_count_le_one.mp h k

theorem memberSlot_filter {names : List String} {k : String} (h : k ∉ names)
    (ms : List (String × Json)) :
    memberSlot (ms.filter fun m => m.1 ∉ names) k = memberSlot ms k := by
  rw [memberSlot, Members.lookup_filter_of_not_mem h, memberSlot]

theorem memberSlot_append {ms ns : List (String × Json)} {k : String}
    (h : k ∉ Members.keys ms) : memberSlot (ms ++ ns) k = memberSlot ns k := by
  rw [memberSlot, Members.lookup_append, Members.lookup_eq_none_iff.mpr h, Option.none_or]
  rfl

theorem takeNames_of_nodup (names : List String) {ms : List (String × Json)}
    (h : (Members.keys ms).Nodup) :
    takeNames names ms = some (ms.filter fun m => m.1 ∉ names) :=
  if_pos (namesOnce_of_nodup names h)

theorem takeNames_eq_some {names : List String} {ms rest : List (String × Json)}
    (h : takeNames names ms = some rest) : (ms.filter fun m => m.1 ∉ names) = rest := by
  rw [takeNames] at h
  split at h
  · exact Option.some.inj h
  · cases h

theorem memberSlot_present {slots : List (String × Option Json)} (h : (Members.keys slots).Nodup)
    (k : String) : memberSlot (Members.present slots) k = slotOf slots k := by
  rw [memberSlot, Members.lookup_present h, slotOf]
  cases (slots.lookup k).join <;> rfl

theorem mapFields_present (names : List String) {slots : List (String × Option Json)}
    (h : (Members.keys slots).Nodup) :
    mapFields names (.object (Members.present slots)) = some (slotOf slots) := by
  rw [mapFields, if_pos (namesOnce_of_nodup names (Members.nodup_keys_present h))]
  exact congrArg some (funext (memberSlot_present h))

/-- The fields of a struct that is written as an object are its slots. -/
theorem structFields_present (names : List String) {slots : List (String × Option Json)}
    (h : (Members.keys slots).Nodup) :
    structFields names (.object (Members.present slots)) = some (slotOf slots) :=
  mapFields_present names h

theorem wellFormed_present {slots : List (String × Option Json)} (h : (Members.keys slots).Nodup)
    (hx : ∀ s ∈ slots, ∀ x ∈ s.2, x.wellFormed = true) :
    (Json.object (Members.present slots)).wellFormed = true := by
  refine Json.wellFormed_object.mpr ⟨Members.nodup_keys_present h, fun m hm => ?_⟩
  obtain ⟨s, hs, hm⟩ := List.mem_filterMap.mp hm
  obtain ⟨x, hx', rfl⟩ := Option.map_eq_some_iff.mp hm
  exact hx s hs x hx'

/-- A struct that is written as an object, by its slots. -/
class WritesSlots (α : Type) [Serialize α] where
  slots : α → List (String × Option Json)
  nodup_keys : ∀ a, (Members.keys (slots a)).Nodup
  toTree_eq_present : ∀ a, toTree a = .object (Members.present (slots a))

export WritesSlots (slots)

section
variable [Serialize α] [WritesSlots α]

instance : NeverNull α := ⟨fun a h => by
  rw [WritesSlots.toTree_eq_present] at h
  cases h⟩

theorem structFields_toTree (names : List String) (a : α) :
    structFields names (toTree a) = some (slotOf (slots a)) := by
  rw [WritesSlots.toTree_eq_present, structFields_present names (WritesSlots.nodup_keys a)]

theorem wellFormed_toTree {a : α} (h : ∀ s ∈ slots a, ∀ x ∈ s.2, x.wellFormed = true) :
    (toTree a).wellFormed = true := by
  rw [WritesSlots.toTree_eq_present]
  exact wellFormed_present (WritesSlots.nodup_keys a) h

end

theorem wellFormed_of_mem_map_toTree [Serialize α] [WritesValues α] {a : Option α} {x : Json}
    (h : x ∈ a.map toTree) : x.wellFormed = true := by
  obtain ⟨a, -, rfl⟩ := Option.map_eq_some_iff.mp h
  exact WritesValues.wellFormed a

theorem wellFormed_of_mem_some_toTree [Serialize α] [WritesValues α] {a : α} {x : Json}
    (h : x ∈ some (toTree a)) : x.wellFormed = true :=
  wellFormed_of_mem_map_toTree (a := some a) h

section
variable [Deserialize α] [Serialize α]

/-- An optional field is read as what its contents are read as. -/
theorem Slot.optional_ofOption_map [NeverNull α] {a : Option α} {f : α → α}
    (h : ∀ a' ∈ a, fromTree (toTree a') = some (f a')) :
    (Slot.ofOption (a.map toTree)).optional = some (a.map f) := by
  cases a with
  | none => rfl
  | some a =>
    rw [Option.map_some, ofOption, optional_given (NeverNull.toTree_ne_null a), h a rfl]
    rfl

theorem Slot.optional_ofOption_of [NeverNull α] {a : Option α}
    (h : ∀ a' ∈ a, fromTree (toTree a') = some a') :
    (Slot.ofOption (a.map toTree)).optional = some a := by
  rw [optional_ofOption_map (f := id) h, Option.map_id]
  rfl

theorem Slot.optional_ofOption [LawfulSerde α] [NeverNull α] (a : Option α) :
    (Slot.ofOption (a.map toTree)).optional = some a :=
  optional_ofOption_of fun a' _ => LawfulSerde.fromTree_toTree a'

/-- An optional field that is written as `null` when it is absent is read back. -/
theorem Slot.optional_nullable [LawfulSerde α] [NeverNull α] (a : Option α) :
    (Slot.given ((a.map toTree).getD .null)).optional = some a := by
  cases a with
  | none => rfl
  | some a => exact optional_ofOption (some a)

/-- A field that is skipped at its default is read as what its contents are read as. -/
theorem Slot.orDefault_ofOption_skip {a d : α} {skip : Bool} (hs : skip = true → a = d)
    (h : fromTree (toTree a) = some a) :
    (Slot.ofOption (if skip then none else some (toTree a))).orDefault d = some a := by
  cases skip with
  | true => exact congrArg some (hs rfl).symm
  | false => exact h

end

end OpenID4VP
