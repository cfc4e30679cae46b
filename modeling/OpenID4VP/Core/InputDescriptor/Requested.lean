import Mathlib.Data.List.Infix
import OpenID4VP.Core.InputDescriptor.Evaluation
import OpenID4VP.Lib.Split

/-! # What a wallet is asked for

A wallet shows its holder the values that the fields select in a credential, and looks for
credentials by the types that the filters name. The values shown decide whether a credential
matches, and no type that a filter admits is missing from the hint. -/

namespace OpenID4VP

section
variable [SerdeJsonPath] [JsonSchema]

/-! ## Requested fields -/

section
variable [UuidCrate]

structure RequestedField where
  id : Uuid
  inputDescriptorId : String
  name : Option String
  required : Bool
  retained : Bool
  purpose : Option String
  rawFields : List Json

/-- `newV4` makes the ids. -/
def ConstraintsField.requestedFields (newV4 : StateM σ Uuid) (inputDescriptorId : String)
    (value : Json) (field : ConstraintsField) : StateM σ RequestedField := do
  let rawFields := field.path.toList.flatMap fun path => SerdeJsonPath.query path value
  return {
    id := ← newV4
    name := field.name
    required := field.isRequired
    retained := field.intentToRetain
    purpose := field.purpose
    inputDescriptorId
    rawFields }

def InputDescriptor.requestedFields (newV4 : StateM σ Uuid) (value : Json)
    (desc : InputDescriptor) : StateM σ (List RequestedField) :=
  desc.constraints.fields.mapM (ConstraintsField.requestedFields newV4 desc.id value)

def PresentationDefinition.requestedFields (newV4 : StateM σ Uuid) (credential : Json)
    (d : PresentationDefinition) : StateM σ (List RequestedField) := do
  return (← d.inputDescriptors.mapM (InputDescriptor.requestedFields newV4 credential)).flatten

variable {newV4 : StateM σ Uuid} {value : Json} {s : σ}

omit [SerdeJsonPath] [JsonSchema] [UuidCrate] in
/-- A traversal that shows of each element what `h` says of it. -/
theorem map_mapM_run {f : α → StateM σ β} {g : β → γ} {h : α → γ}
    (hf : ∀ a s, g ((f a).run s).1 = h a) (xs : List α) (s : σ) :
    ((xs.mapM f).run s).1.map g = xs.map h := by
  induction xs generalizing s with
  | nil => rfl
  | cons x xs ih =>
    rw [List.mapM_cons, List.map_cons, ← hf x s, ← ih ((f x).run s).2]
    rfl

theorem InputDescriptor.rawFields_requestedFields (desc : InputDescriptor) (s : σ) :
    ((desc.requestedFields newV4 value).run s).1.map RequestedField.rawFields =
      desc.constraints.fields.map fun field => field.selected value :=
  map_mapM_run (fun _ _ => rfl) _ s

/-- The fields show the values that they select, in their order. -/
theorem PresentationDefinition.rawFields_requestedFields (d : PresentationDefinition) :
    ((d.requestedFields newV4 value).run s).1.map RequestedField.rawFields =
      (d.inputDescriptors.flatMap fun desc => desc.constraints.fields).map fun field =>
        field.selected value := by
  change (List.flatten ((d.inputDescriptors.mapM
    (InputDescriptor.requestedFields newV4 value)).run s).1).map _ = _
  rw [List.map_flatten, map_mapM_run fun desc s => desc.rawFields_requestedFields s,
    List.map_flatMap, List.flatMap_def]

/-- What is shown of a credential decides how it is evaluated: a credential of which the same is
shown matches when this one does, and has the same results in every field. -/
theorem PresentationDefinition.evaluated_eq_of_requestedFields_eq {d : PresentationDefinition}
    {credential credential' : Json} {s s' : σ}
    (h : ((d.requestedFields newV4 credential).run s).1.map RequestedField.rawFields =
      ((d.requestedFields newV4 credential').run s').1.map RequestedField.rawFields) :
    d.isCredentialMatch credential = d.isCredentialMatch credential' ∧
      ∀ desc ∈ d.inputDescriptors,
        desc.constraints.matches credential = desc.constraints.matches credential' ∧
        ∀ field ∈ desc.constraints.fields, field.query credential = field.query credential' := by
  rw [rawFields_requestedFields, rawFields_requestedFields, List.map_inj_left] at h
  have hs {desc : InputDescriptor} (hd : desc ∈ d.inputDescriptors) {field : ConstraintsField}
      (hf : field ∈ desc.constraints.fields) :
      field.selected credential = field.selected credential' :=
    h field (List.mem_flatMap.mpr ⟨desc, hd, hf⟩)
  have hp {desc : InputDescriptor} (hd : desc ∈ d.inputDescriptors) {field : ConstraintsField}
      (hf : field ∈ desc.constraints.fields) :
      field.HasPassing credential ↔ field.HasPassing credential' := by
    rw [ConstraintsField.HasPassing, ConstraintsField.HasPassing, hs hd hf]
  refine ⟨?_, fun desc hd => ⟨?_, fun field hf => ?_⟩⟩
  · rw [Bool.eq_iff_iff, isCredentialMatch_iff, isCredentialMatch_iff]
    exact forall₂_congr fun desc hd => forall₂_congr fun field hf =>
      imp_congr_right fun _ => imp_congr_right fun _ => hp hd hf
  · rw [Bool.eq_iff_iff, Constraints.matches_iff_hasPassing, Constraints.matches_iff_hasPassing]
    exact forall₂_congr fun field hf => imp_congr_right fun _ => hp hd hf
  · rw [ConstraintsField.query_eq, ConstraintsField.query_eq, hs hd hf]

end

/-! ## Types of credentials -/

abbrev CredentialType := String

/-- The member of an object. -/
def Json.member? (k : String) : Json → Option Json
  | .object ms => ms.lookup k
  | _ => none

def Json.asStr? : Json → Option String
  | .string s => some s
  | _ => none

/-- The alternatives of a pattern such as `^(a|b)$`. -/
def patternTypes (pattern : String) : List CredentialType :=
  let trimmed := trimEndMatches '$' (trimStartMatches '^' pattern)
  let inner := trimEndMatches ')' (trimStartMatches '(' trimmed)
  (splitAll '|' inner.toList).map String.ofList

/-- The types that a filter names as its constant, as a constant or an enumeration of elements, or
as a pattern. -/
def filterTypes (filter : Json) : List CredentialType :=
  ((filter.member? "const").bind Json.asStr?).toList ++
  (((filter.member? "contains").bind (Json.member? "const")).bind Json.asStr?).toList ++
  (match (filter.member? "contains").bind (Json.member? "enum") with
    | some (.array values) => values.filterMap Json.asStr?
    | _ => []) ++
  (((filter.member? "pattern").bind Json.asStr?).map patternTypes).getD []

/-- Some path mentions a type. -/
def ConstraintsField.mentionsType (field : ConstraintsField) : Bool :=
  field.path.toList.any fun path =>
    "type".toList <:+: (SerdeJsonPath.toString path).toList

def ConstraintsField.credentialTypesHint (field : ConstraintsField) : List CredentialType :=
  if field.mentionsType then
    (field.filter.map fun filter => filterTypes filter.raw.tree).getD []
  else []

def InputDescriptor.credentialTypesHint (desc : InputDescriptor) : List CredentialType :=
  desc.constraints.fields.flatMap ConstraintsField.credentialTypesHint

def PresentationDefinition.credentialTypesHint (d : PresentationDefinition) :
    List CredentialType :=
  d.inputDescriptors.flatMap InputDescriptor.credentialTypesHint

omit [SerdeJsonPath] [JsonSchema] in
theorem not_mem_intercalate {c d : Char} {names : List String} (hd : c ≠ d)
    (h : ∀ name ∈ names, c ∉ name.toList) : c ∉ [d].intercalate (names.map String.toList) := by
  induction names with
  | nil => simp
  | cons name names ih =>
    rw [List.forall_mem_cons] at h
    cases names with
    | nil => simpa using h.1
    | cons name' names =>
      rw [List.map_cons, List.map_cons, List.intercalate_cons_cons]
      simpa [h.1, hd] using ih h.2

/-- The pattern `^(a|b)$` of some names. -/
def alternatives (names : List String) : String :=
  String.ofList ('^' :: '(' :: (['|'].intercalate (names.map String.toList) ++ [')', '$']))

omit [SerdeJsonPath] [JsonSchema] in
theorem patternTypes_alternatives {names : List String} (hn : names ≠ [])
    (h : ∀ name ∈ names, name.toList.all Char.isAlphanum = true) :
    patternTypes (alternatives names) = names := by
  have not_mem {c : Char} (hc : c.isAlphanum = false) : ∀ name ∈ names, c ∉ name.toList := by
    intro name hm hmem
    rw [List.all_eq_true.mp (h name hm) c hmem] at hc
    cases hc
  have hb : ∀ name ∈ names, '|' ∉ name.toList := not_mem (by decide)
  have ho : ∀ name ∈ names, '(' ∉ name.toList := not_mem (by decide)
  have hc : ∀ name ∈ names, ')' ∉ name.toList := not_mem (by decide)
  have ho' := not_mem_intercalate (d := '|') (by decide) ho
  have hc' := not_mem_intercalate (d := '|') (by decide) hc
  have hs : splitAll '|' (['|'].intercalate (names.map String.toList)) =
      names.map String.toList := splitAll_intercalate (by simpa using hn) (by simpa using hb)
  rw [alternatives]
  generalize ['|'].intercalate (names.map String.toList) = inner at ho' hc' hs ⊢
  have h1 : trimStartMatches '^' (String.ofList ('^' :: '(' :: (inner ++ [')', '$']))) =
      String.ofList ('(' :: (inner ++ [')', '$'])) := by
    simp [trimStartMatches, List.dropWhile]
  have h2 : trimEndMatches '$' (String.ofList ('(' :: (inner ++ [')', '$']))) =
      String.ofList ('(' :: (inner ++ [')'])) := by
    have he : '(' :: (inner ++ [')', '$']) = ('(' :: (inner ++ [')'])) ++ ['$'] := by simp
    rw [trimEndMatches, String.toList_ofList, he, List.rdropWhile_concat_pos _ _ _ rfl,
      ← List.cons_append, List.rdropWhile_concat_neg _ _ _ (by decide)]
  have h3 : trimStartMatches '(' (String.ofList ('(' :: (inner ++ [')']))) =
      String.ofList (inner ++ [')']) := by
    rw [trimStartMatches, String.toList_ofList, List.dropWhile_cons_of_pos rfl,
      List.dropWhile_eq_self_iff.mpr]
    intro hl hh
    have hm : '(' ∈ inner ++ [')'] := eq_of_beq hh ▸ List.getElem_mem hl
    simp [ho'] at hm
  have h4 : trimEndMatches ')' (String.ofList (inner ++ [')'])) = String.ofList inner := by
    rw [trimEndMatches, String.toList_ofList, List.rdropWhile_concat_pos _ _ _ rfl,
      List.rdropWhile_eq_self_iff.mpr]
    intro hn hh
    exact hc' (eq_of_beq hh ▸ List.getLast_mem hn)
  rw [patternTypes, h1, h2, h3, h4, String.toList_ofList, hs, List.map_map]
  simp

/-! ### Keywords of filters -/

/-- The members of a schema without a reference in place of them and without a draft of its own. -/
def PlainSchema (ms : List (String × Json)) : Prop :=
  ms.lookup "$ref" = none ∧ ms.lookup "$schema" = none

/-- What the keywords that name a type ask for. -/
class JsonSchemaKeywords : Prop where
  const {ms : List (String × Json)} {s : String} {x : Json} : PlainSchema ms →
    ms.lookup "const" = some (.string s) →
    JsonSchema.isValid (.object ms) x = true → x = .string s
  enum {ms : List (String × Json)} {ss : List String} {x : Json} : PlainSchema ms →
    ms.lookup "enum" = some (.array (ss.map .string)) →
    JsonSchema.isValid (.object ms) x = true → ∃ s ∈ ss, x = .string s
  arrays {ms : List (String × Json)} {x : Json} : PlainSchema ms →
    ms.lookup "type" = some (.string "array") →
    JsonSchema.isValid (.object ms) x = true → ∃ xs, x = .array xs
  pattern {ms : List (String × Json)} {names : List String} {x : Json} : PlainSchema ms →
    ms.lookup "type" = some (.string "string") →
    ms.lookup "pattern" = some (.string (alternatives names)) → names ≠ [] →
    (∀ name ∈ names, name.toList.all Char.isAlphanum = true) →
    JsonSchema.isValid (.object ms) x = true → ∃ name ∈ names, x = .string name
  contains {ms : List (String × Json)} {xs : List Json} {y : Json} : PlainSchema ms →
    ms.lookup "contains" = some y →
    JsonSchema.isValid (.object ms) (.array xs) = true → ∃ x ∈ xs, JsonSchema.isValid y x = true

/-- The filter asks for one of these types, alone or in an array of types. -/
inductive NamesTypes : Json → List CredentialType → Prop
  | const (hp : PlainSchema ms) (h : ms.lookup "const" = some (.string t)) :
    NamesTypes (.object ms) [t]
  | pattern (hp : PlainSchema ms) (ht : ms.lookup "type" = some (.string "string"))
    (h : ms.lookup "pattern" = some (.string (alternatives ts))) (hn : ts ≠ [])
    (ha : ∀ t ∈ ts, t.toList.all Char.isAlphanum = true) : NamesTypes (.object ms) ts
  | containsConst (hp : PlainSchema ms) (ht : ms.lookup "type" = some (.string "array"))
    (h : ms.lookup "contains" = some (.object ns)) (hq : PlainSchema ns)
    (hc : ns.lookup "const" = some (.string t)) : NamesTypes (.object ms) [t]
  | containsEnum (hp : PlainSchema ms) (ht : ms.lookup "type" = some (.string "array"))
    (h : ms.lookup "contains" = some (.object ns)) (hq : PlainSchema ns)
    (he : ns.lookup "enum" = some (.array (ts.map .string))) : NamesTypes (.object ms) ts

/-- The value is the type or an array with it. -/
inductive HasType (t : CredentialType) : Json → Prop
  | alone : HasType t (.string t)
  | among (h : .string t ∈ xs) : HasType t (.array xs)

namespace NamesTypes
variable {filter x : Json} {ts : List CredentialType}

omit [SerdeJsonPath] in
theorem exists_hasType [JsonSchemaKeywords] (h : NamesTypes filter ts)
    (hx : JsonSchema.isValid filter x = true) : ∃ t ∈ ts, HasType t x := by
  cases h with
  | const hp h =>
    obtain rfl := JsonSchemaKeywords.const hp h hx
    exact ⟨_, List.mem_singleton_self _, .alone⟩
  | pattern hp ht h hn ha =>
    obtain ⟨t, hm, rfl⟩ := JsonSchemaKeywords.pattern hp ht h hn ha hx
    exact ⟨t, hm, .alone⟩
  | containsConst hp ht h hq hc =>
    obtain ⟨xs, rfl⟩ := JsonSchemaKeywords.arrays hp ht hx
    obtain ⟨y, hy, hv⟩ := JsonSchemaKeywords.contains hp h hx
    obtain rfl := JsonSchemaKeywords.const hq hc hv
    exact ⟨_, List.mem_singleton_self _, .among hy⟩
  | containsEnum hp ht h hq he =>
    obtain ⟨xs, rfl⟩ := JsonSchemaKeywords.arrays hp ht hx
    obtain ⟨y, hy, hv⟩ := JsonSchemaKeywords.contains hp h hx
    obtain ⟨t, ht, rfl⟩ := JsonSchemaKeywords.enum hq he hv
    exact ⟨t, ht, .among hy⟩

omit [SerdeJsonPath] [JsonSchema] in
theorem subset_filterTypes (h : NamesTypes filter ts) : ts ⊆ filterTypes filter := by
  intro t ht
  simp only [filterTypes, List.mem_append]
  cases h with
  | const _ h =>
    obtain rfl := List.mem_singleton.mp ht
    refine .inl (.inl (.inl ?_))
    simp [Json.member?, h, Json.asStr?]
  | pattern _ _ h hn ha =>
    refine .inr ?_
    simpa [Json.member?, h, Json.asStr?, patternTypes_alternatives hn ha] using ht
  | containsConst _ _ h _ hc =>
    obtain rfl := List.mem_singleton.mp ht
    refine .inl (.inl (.inr ?_))
    simp [Json.member?, h, hc, Json.asStr?]
  | containsEnum _ _ h _ he =>
    refine .inl (.inr ?_)
    simp only [Json.member?, h, Option.bind_some, he, List.mem_filterMap, List.mem_map]
    exact ⟨.string t, ⟨t, ht, rfl⟩, rfl⟩

end NamesTypes

/-- A credential that matches a descriptor has a type of the hint where a required field of the
descriptor asks for types. -/
theorem InputDescriptor.exists_hint_of_matches [JsonSchemaKeywords] {desc : InputDescriptor}
    {field : ConstraintsField} {filter : CompiledJsonSchema} {ts : List CredentialType}
    {credential : Json} (hf : field ∈ desc.constraints.fields) (hr : field.isRequired = true)
    (hm : field.mentionsType = true) (hs : field.filter = some filter)
    (ht : NamesTypes filter.raw.tree ts) (h : desc.constraints.matches credential = true) :
    ∃ t ∈ desc.credentialTypesHint, ∃ x ∈ field.selected credential, HasType t x := by
  obtain ⟨x, hx, hp⟩ := Constraints.matches_iff_hasPassing.mp h field hf hr
  rw [ConstraintsField.passes, hs] at hp
  obtain ⟨t, htt, hxt⟩ := ht.exists_hasType hp
  refine ⟨t, List.mem_flatMap.mpr ⟨field, hf, ?_⟩, x, hx, hxt⟩
  rw [ConstraintsField.credentialTypesHint, if_pos hm, hs]
  exact ht.subset_filterTypes htt

end

/-! ## A descriptor with a type -/

namespace Sample.TypePaths
open scoped Reference

theorem toString_ne_type (p : Reference.serdeJsonPath.JsonPath) :
    Reference.serdeJsonPath.toString p ≠ "$.type" := by
  intro h
  have hp : (Reference.pathIndices "$.type").isSome = true := h ▸ p.property
  exact Bool.false_ne_true hp

/-- The paths made of indices, and the path `$.type`. -/
scoped instance typePaths : SerdeJsonPath where
  JsonPath := Option Reference.serdeJsonPath.JsonPath
  decEq := inferInstance
  parse s := if s = "$.type" then some none else (Reference.serdeJsonPath.parse s).map some
  toString
    | some p => Reference.serdeJsonPath.toString p
    | none => "$.type"
  parse_toString
    | some p => by
      dsimp only
      rw [if_neg (toString_ne_type p), Reference.serdeJsonPath.parse_toString]
      rfl
    | none => if_pos rfl
  query
    | some p, x => Reference.serdeJsonPath.query p x
    | none, x => (x.member? "type").toList
  index i := some (Reference.serdeJsonPath.index i)
  parse_index i := by
    have hn : "$[" ++ Nat.repr i ++ "]" ≠ "$.type" :=
      toString_ne_type (Reference.serdeJsonPath.index i)
    rw [if_neg hn, Reference.serdeJsonPath.parse_index]
    rfl
  query_index i xs := Reference.serdeJsonPath.query_index i xs

/-- The reference schemas have one keyword at most. -/
theorem eq_const_of_isValid {ms : List (String × Json)} {x : Json}
    (h : JsonSchema.isValid (.object ms) x = true) : ms = [("const", x)] := by
  simp only [JsonSchema.isValid] at h
  split at h
  · next he => cases he
  · next he =>
    cases he
    rw [of_decide_eq_true h]
  · cases h

scoped instance jsonSchemaKeywords : JsonSchemaKeywords where
  const _ h hx := by
    rw [eq_const_of_isValid hx] at h
    exact Option.some.inj h
  enum _ h hx := by
    rw [eq_const_of_isValid hx] at h
    cases h
  arrays _ h hx := by
    rw [eq_const_of_isValid hx] at h
    cases h
  pattern _ h _ _ _ hx := by
    rw [eq_const_of_isValid hx] at h
    cases h
  contains _ h hx := by
    rw [eq_const_of_isValid hx] at h
    cases h

/-- The type of the credential has to be `"a"`. -/
def typeField : ConstraintsField where
  id := none
  name := none
  purpose := none
  path := .new none
  «optional» := none
  filter := some constA
  predicate := none
  intentToRetain := false

def typeDescriptor : InputDescriptor := .new "id" ⟨[typeField], none⟩

def typedCredential : Json := .object [("type", .string "a")]

theorem exists_hint_typeDescriptor :
    ∃ t ∈ typeDescriptor.credentialTypesHint, ∃ x ∈ typeField.selected typedCredential,
      HasType t x :=
  typeDescriptor.exists_hint_of_matches List.mem_cons_self rfl (by decide) rfl
    (.const ⟨rfl, rfl⟩ rfl) (by decide)

/-- Ids from a list of them. -/
def supply : StateM (List Uuid) Uuid := modifyGet fun
  | [] => (UuidCrate.nil, [])
  | u :: us => (u, us)

/-- What is not shown of a credential makes no difference. -/
theorem evaluated_eq_typeDescriptor : ∃ credential, credential ≠ typedCredential ∧
    (PresentationDefinition.new "definition" typeDescriptor).isCredentialMatch credential =
      (PresentationDefinition.new "definition" typeDescriptor).isCredentialMatch
        typedCredential := by
  have h : ((((PresentationDefinition.new "definition" typeDescriptor).requestedFields supply
      (.object [("name", .string "b"), ("type", .string "a")])).run []).1.map
        RequestedField.rawFields) =
      (((PresentationDefinition.new "definition" typeDescriptor).requestedFields supply
        typedCredential).run []).1.map RequestedField.rawFields := rfl
  exact ⟨.object [("name", .string "b"), ("type", .string "a")], by decide,
    (PresentationDefinition.evaluated_eq_of_requestedFields_eq h).1⟩

end Sample.TypePaths
end OpenID4VP
