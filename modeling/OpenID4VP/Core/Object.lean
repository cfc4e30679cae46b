import OpenID4VP.Crates
import OpenID4VP.Core.Error

/-! # Untyped objects and typed parameters

An untyped object is a map of JSON values. A typed parameter is a type with a key and a reading of
JSON values: `get` reads the member under the key. -/

namespace OpenID4VP

/-! ## Reading values and text -/

def fromValue [Deserialize α] (x : Json) : Except Anyhow α :=
  match fromTree x with
  | some a => .ok a
  | none => .error (.library "serde_json")

@[simp] theorem fromValue_eq_ok_iff [Deserialize α] {x : Json} {a : α} :
    fromValue x = .ok a ↔ fromTree x = some a := by
  rw [fromValue]
  split <;> simp_all

section
variable [SerdeJson]

def fromStr [Deserialize α] (s : String) : Except Anyhow α :=
  match SerdeJson.parse s with
  | some x => fromValue x
  | none => .error (.library "serde_json")

theorem fromStr_eq_ok_iff [Deserialize α] {s : String} {a : α} :
    fromStr s = .ok a ↔ ∃ x, SerdeJson.parse s = some x ∧ fromTree x = some a := by
  rw [fromStr]
  cases SerdeJson.parse s <;> simp

/-- The value in the bytes of a JSON document. -/
def fromSlice [Deserialize α] (bytes : ByteArray) : Except Anyhow α :=
  match String.fromUTF8? bytes with
  | some s => fromStr s
  | none => .error (.library "serde_json")

/-- The text of a typed value. -/
def toJsonString [Serialize α] (a : α) : String := SerdeJson.print (toTree a)

/-- The text of a tree is read as the tree itself is. -/
@[simp] theorem fromStr_print [Deserialize α] (x : Json) :
    (fromStr (SerdeJson.print x) : Except Anyhow α) = fromValue x := by
  rw [fromStr, SerdeJson.parse_print]

/-- A string is read as JSON text, any other value as it is. -/
def fromStringOrValue [Deserialize α] : Json → Except Anyhow α
  | .string s => fromStr s
  | x => fromValue x

end

/-! ## Typed parameters -/

class TypedParameter (α : Type) where
  key : String
  tryFrom : Json → Except Anyhow α
  intoJson : α → Json

/-- A reading that may be missing, as one that may fail. -/
def parsingError [TypedParameter α] : Option (Except Anyhow α) → Except Anyhow α
  | none => .error (.msg s!"'{TypedParameter.key α}' is missing")
  | some x => withContext s!"'{TypedParameter.key α}' could not be parsed" x

@[simp] theorem parsingError_eq_ok_iff [TypedParameter α] {x : Option (Except Anyhow α)} {a : α} :
    parsingError x = .ok a ↔ x = some (.ok a) := by
  cases x <;> simp [parsingError]

/-- A parameter that is read and written through another type. -/
@[reducible] def TypedParameter.via [Deserialize β] [Serialize β] (key : String) (wrap : β → α)
    (raw : α → β) : TypedParameter α where
  key := key
  tryFrom x := (fromValue x).map wrap
  intoJson a := toTree (raw a)

theorem TypedParameter.via_tryFrom_eq_ok_iff [Deserialize β] [Serialize β] {key : String}
    {wrap : β → α} {raw : α → β} {x : Json} {a : α} :
    (TypedParameter.via key wrap raw).tryFrom x = .ok a ↔
      ∃ b, fromTree x = some b ∧ wrap b = a := by
  change wrap <$> (fromValue x : Except Anyhow β) = .ok a ↔ _
  rw [Except.map_eq_ok_iff]
  simp only [fromValue_eq_ok_iff]

/-- What is written through a lawful type is read back from the value it is stored as. -/
theorem TypedParameter.via_tryFrom_toTree [Deserialize β] [Serialize β] [LawfulSerde β]
    [WritesValues β] {key : String} {wrap : β → α} {raw : α → β} (b : β) :
    (TypedParameter.via key wrap raw).tryFrom (toTree b).toValue = .ok (wrap b) :=
  via_tryFrom_eq_ok_iff.mpr ⟨b, by rw [toValue_toTree, LawfulSerde.fromTree_toTree], rfl⟩

abbrev UntypedObject := JsonMap

namespace UntypedObject

def getOrDefault (o : UntypedObject) [TypedParameter α] (default : α) : Except Anyhow α :=
  match o.get? (TypedParameter.key α) with
  | some x => TypedParameter.tryFrom x
  | none => .ok default

def get (o : UntypedObject) (α : Type) [TypedParameter α] : Option (Except Anyhow α) :=
  (o.get? (TypedParameter.key α)).map TypedParameter.tryFrom

theorem getOrDefault_eq_get (o : UntypedObject) [TypedParameter α] (default : α) :
    o.getOrDefault default = (o.get α).getD (.ok default) := by
  rw [getOrDefault, get]
  cases o.get? (TypedParameter.key α) <;> rfl

theorem get_eq_none_iff {o : UntypedObject} [TypedParameter α] :
    o.get α = none ↔ o.containsKey (TypedParameter.key α) = false := by
  rw [get, Option.map_eq_none_iff, JsonMap.containsKey, Option.isSome_eq_false_iff,
    Option.isNone_iff_eq_none]

theorem get_eq_some_iff {o : UntypedObject} [TypedParameter α] {x : Except Anyhow α} :
    o.get α = some x ↔
      ∃ v, o.get? (TypedParameter.key α) = some v ∧ TypedParameter.tryFrom v = x := by
  rw [get, Option.map_eq_some_iff]

/-- Insert a parameter. Also returns the reading of the one that was there. -/
def insertParam [TypedParameter α] (o : UntypedObject) (a : α) :
    UntypedObject × Option (Except Anyhow α) :=
  (o.insert (TypedParameter.key α) (TypedParameter.intoJson a), o.get α)

section
variable [TypedParameter α] [TypedParameter β]

theorem get?_insertParam_of_ne {k : String} (h : k ≠ TypedParameter.key α) (o : UntypedObject)
    (a : α) : (o.insertParam a).1.get? k = o.get? k :=
  JsonMap.get?_insert_of_ne h o _

@[simp] theorem get_insertParam_self (o : UntypedObject) (a : α) :
    (o.insertParam a).1.get α =
      some (TypedParameter.tryFrom (TypedParameter.intoJson a).toValue) := by
  rw [insertParam, get, JsonMap.get?_insert_self]
  rfl

@[simp] theorem getOrDefault_insertParam_self (o : UntypedObject) (a default : α) :
    (o.insertParam a).1.getOrDefault default =
      TypedParameter.tryFrom (TypedParameter.intoJson a).toValue := by
  have h : (o.insertParam a).1.get? (TypedParameter.key α) =
      some (TypedParameter.intoJson a).toValue := JsonMap.get?_insert_self o _ _
  rw [getOrDefault, h]

/-- The other parameters are as they were. -/
theorem get_insertParam_of_ne (h : TypedParameter.key β ≠ TypedParameter.key α)
    (o : UntypedObject) (a : α) : (o.insertParam a).1.get β = o.get β := by
  rw [get, get?_insertParam_of_ne h, get]

theorem getOrDefault_insertParam_of_ne (h : TypedParameter.key β ≠ TypedParameter.key α)
    (o : UntypedObject) (a : α) (default : β) :
    (o.insertParam a).1.getOrDefault default = o.getOrDefault default := by
  rw [getOrDefault, get?_insertParam_of_ne h, getOrDefault]

end

/-- Remove a parameter. -/
def removeParam (o : UntypedObject) (α : Type) [TypedParameter α] : UntypedObject :=
  o.erase (TypedParameter.key α)

@[simp] theorem get_removeParam_self (o : UntypedObject) (α : Type) [TypedParameter α] :
    (o.removeParam α).get α = none := by
  rw [removeParam, get, JsonMap.get?_erase_self]
  rfl

theorem get_removeParam_of_ne [TypedParameter α] [TypedParameter β]
    (h : TypedParameter.key β ≠ TypedParameter.key α) (o : UntypedObject) :
    (o.removeParam α).get β = o.get β := by
  rw [removeParam, get, JsonMap.get?_erase_of_ne h, get]

/-- A member in a form: strings as they are, other values as JSON text. -/
def formText [SerdeJson] : Json → String
  | .string s => s
  | x => SerdeJson.print x

/-- The members of the object as a form, in the order of their keys. -/
def flattenForForm [SerdeJson] (o : UntypedObject) : List (String × String) :=
  Members.sort (o.entries.map fun m => (m.1, formText m.2))

end UntypedObject
end OpenID4VP
