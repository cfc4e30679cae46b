import OpenID4VP.Core.PresentationDefinition

/-! # Round trips of submission requirements

A requirement is written with its fields and, beside them, the members of its property set. It is
read back when these have other names, so that they are left for the property set again. -/

namespace OpenID4VP

/-! ## Property sets -/

namespace SubmissionRequirementObject

/-- There is a property set, and its members have other names than the fields. -/
def Apart (names : List String) (o : SubmissionRequirementObject) : Prop :=
  ∃ m, o.propertySet = some m ∧ Members.Apart ("name" :: "purpose" :: names) m.entries

theorem Apart.mono {names names' : List String} {o : SubmissionRequirementObject}
    (h : o.Apart names) (hs : names' ⊆ names) : o.Apart names' := by
  obtain ⟨m, hm, ha⟩ := h
  exact ⟨m, hm, ha.mono (List.cons_subset_cons _ (List.cons_subset_cons _ hs))⟩

/-- No group is left in the property set, by which the requirement would be read as one about this
group. -/
def NoGroup (o : SubmissionRequirementObject) : Prop :=
  ∀ m ∈ o.propertySet, ∀ g, m.get? "from" ≠ some (.string g)

end SubmissionRequirementObject

namespace SubmissionRequirement

mutual
/-- The property sets are apart from the fields, and there is no group in those of the nested
requirements. -/
def Canonical : SubmissionRequirement → Prop
  | .all base => CanonicalBase ["rule"] base
  | .pick (.mk base _ _ _) => CanonicalBase ["count", "min", "max", "rule"] base

/-- `names` are the fields that are not of the base. -/
def CanonicalBase (names : List String) : SubmissionRequirementBase → Prop
  | .from _ o => o.Apart ("from" :: names)
  | .fromNested rs o => o.Apart ("from_nested" :: names) ∧ o.NoGroup ∧ CanonicalList rs

def CanonicalList : List SubmissionRequirement → Prop
  | [] => True
  | r :: rs => r.Canonical ∧ CanonicalList rs
end

/-! ## Written requirements -/

theorem writeObject_eq {o : SubmissionRequirementObject} {m : JsonMap}
    (h : o.propertySet = some m) :
    writeObject o = ("name", (o.name.map toTree).getD .null) ::
      ("purpose", (o.purpose.map toTree).getD .null) :: m.entries := by
  rw [writeObject, nullableMember_eq, nullableMember_eq, h]
  rfl

theorem nodup_keys_writeObject {names : List String} {o : SubmissionRequirementObject}
    (h : o.Apart names) : (Members.keys (writeObject o)).Nodup := by
  obtain ⟨m, hm, ha⟩ := h
  rw [writeObject_eq hm]
  have hn : Members.Apart ["name", "purpose"] m.entries :=
    ha.mono (List.cons_subset_cons _ (List.cons_subset_cons _ (List.nil_subset _)))
  change (Members.keys ([_, _] ++ m.entries)).Nodup
  exact Members.nodup_keys_append (by decide : ["name", "purpose"].Nodup) m.nodup_keys hn

theorem apart_writeObject {names : List String} {o : SubmissionRequirementObject}
    (h : o.Apart names) (hn : "name" ∉ names) (hp : "purpose" ∉ names) :
    Members.Apart names (writeObject o) := by
  obtain ⟨m, hm, ha⟩ := h
  rw [writeObject_eq hm, Members.apart_cons, Members.apart_cons]
  exact ⟨hn, hp, ha.mono fun k hk => List.mem_cons_of_mem _ (List.mem_cons_of_mem _ hk)⟩

/-- The object is read back from its members. -/
theorem readObject_writeObject {names : List String} {o : SubmissionRequirementObject}
    (h : o.Apart names) : readObject (writeObject o) = some o := by
  have hd := nodup_keys_writeObject h
  obtain ⟨m, hm, ha⟩ := h
  have ha : Members.Apart ["name", "purpose"] m.entries :=
    ha.mono (List.cons_subset_cons _ (List.cons_subset_cons _ (List.nil_subset _)))
  have ht : takeNames ["name", "purpose"] (writeObject o) = some m.entries := by
    rw [takeNames_of_nodup _ hd, writeObject_eq hm, Members.filter_cons_of_mem (by decide),
      Members.filter_cons_of_mem (by decide), Members.filter_of_apart ha]
  have hn : (memberSlot (writeObject o) "name").optional = some o.name := by
    rw [writeObject_eq hm]
    exact Slot.optional_nullable o.name
  have hp : (memberSlot (writeObject o) "purpose").optional = some o.purpose := by
    rw [writeObject_eq hm]
    exact Slot.optional_nullable o.purpose
  rw [readObject, ht, hn, hp]
  simp only [Option.bind_eq_bind, Option.bind_some, JsonMap.ofMembers_entries, ← hm]
  rfl

/-! ## Written bases -/

theorem apart_cons_writeObject {k : String} {names : List String}
    {o : SubmissionRequirementObject} (h : o.Apart (k :: names)) (hk : k ∉ ["name", "purpose"]) :
    Members.Apart [k] (writeObject o) := by
  simp only [List.mem_cons, List.not_mem_nil, or_false, not_or] at hk
  exact apart_writeObject (h.mono (List.cons_subset_cons _ (List.nil_subset _)))
    (by simpa using Ne.symm hk.1) (by simpa using Ne.symm hk.2)

theorem nodup_keys_cons_writeObject {k : String} {x : Json} {names : List String}
    {o : SubmissionRequirementObject} (h : o.Apart (k :: names)) (hk : k ∉ ["name", "purpose"]) :
    (Members.keys ((k, x) :: writeObject o)).Nodup :=
  List.nodup_cons.mpr ⟨(apart_cons_writeObject h hk).not_mem_keys List.mem_cons_self,
    nodup_keys_writeObject h⟩

/-- The field of a base is taken from its members. -/
theorem takeNames_cons_writeObject {k : String} {x : Json} {names : List String}
    {o : SubmissionRequirementObject} (h : o.Apart (k :: names)) (hk : k ∉ ["name", "purpose"]) :
    takeNames [k] ((k, x) :: writeObject o) = some (writeObject o) := by
  rw [takeNames_of_nodup _ (nodup_keys_cons_writeObject h hk),
    Members.filter_cons_of_mem List.mem_cons_self,
    Members.filter_of_apart (apart_cons_writeObject h hk)]

theorem nodup_keys_writeBase {names : List String} {base : SubmissionRequirementBase}
    (h : CanonicalBase names base) : (Members.keys (writeBase base)).Nodup := by
  cases base with
  | «from» g o => exact nodup_keys_cons_writeObject h (by decide)
  | fromNested rs o => exact nodup_keys_cons_writeObject h.1 (by decide)

/-- The names of the fields of a base. -/
def baseNames : List String := ["from", "from_nested", "name", "purpose"]

theorem apart_writeBase {names : List String} {base : SubmissionRequirementBase}
    (h : CanonicalBase names base) (hn : ∀ k ∈ baseNames, k ∉ names) :
    Members.Apart names (writeBase base) := by
  simp only [baseNames, List.forall_mem_cons] at hn
  obtain ⟨hf, hfn, hna, hp, -⟩ := hn
  cases base with
  | «from» g o =>
    rw [writeBase, Members.apart_cons]
    exact ⟨hf, apart_writeObject (h.mono (List.subset_cons_self _ _)) hna hp⟩
  | fromNested rs o =>
    rw [writeBase, Members.apart_cons]
    exact ⟨hfn, apart_writeObject (h.1.mono (List.subset_cons_self _ _)) hna hp⟩

theorem readFrom_writeBase {names : List String} {g : GroupId} {o : SubmissionRequirementObject}
    (h : CanonicalBase names (.from g o)) :
    readFrom (writeBase (.from g o)) = some (.from g o) := by
  have ho : o.Apart ("from" :: names) := h
  have ht : takeNames ["from"] (writeBase (.from g o)) = some (writeObject o) :=
    takeNames_cons_writeObject ho (by decide)
  have hg : (memberSlot (writeBase (.from g o)) "from").required = some g := rfl
  rw [readFrom, ht, hg, Option.bind_eq_bind, Option.bind_some, Option.bind_eq_bind,
    Option.bind_some, readObject_writeObject ho]
  rfl

/-- Only a string is read as a group. -/
theorem readFrom_eq_none {ms : List (String × Json)}
    (h : ∀ g, ms.lookup "from" ≠ some (.string g)) : readFrom ms = none := by
  have hg : ((memberSlot ms "from").required : Option GroupId) = none := by
    rw [memberSlot]
    split
    · next x hx =>
      cases x with
      | string g => exact absurd hx (h g)
      | _ => rfl
    · rfl
  rw [readFrom, hg]
  cases takeNames ["from"] ms <;> rfl

theorem readFrom_writeBase_nested {names : List String} {rs : List SubmissionRequirement}
    {o : SubmissionRequirementObject} (h : CanonicalBase names (.fromNested rs o)) :
    readFrom (writeBase (.fromNested rs o)) = none := by
  obtain ⟨⟨m, hm, -⟩, hg, -⟩ := h
  refine readFrom_eq_none fun g => ?_
  rw [writeBase, writeObject_eq hm]
  exact hg m hm g

theorem readFromNested_writeBase {names : List String} {rs : List SubmissionRequirement}
    {o : SubmissionRequirementObject} {nested : List (String × Option (List SubmissionRequirement))}
    (h : CanonicalBase names (.fromNested rs o))
    (hn : (nested.lookup "from_nested").join = some rs) :
    readFromNested (writeBase (.fromNested rs o)) nested = some (.fromNested rs o) := by
  have ho : o.Apart ("from_nested" :: names) := h.1
  have ht : takeNames ["from_nested"] (writeBase (.fromNested rs o)) = some (writeObject o) :=
    takeNames_cons_writeObject ho (by decide)
  rw [readFromNested, ht, hn, Option.bind_eq_bind, Option.bind_some, Option.bind_eq_bind,
    Option.bind_some, readObject_writeObject ho]
  rfl

/-- The nested requirements of the base, if it has any. -/
def NestedRead (nested : List (String × Option (List SubmissionRequirement))) :
    SubmissionRequirementBase → Prop
  | .from _ _ => True
  | .fromNested rs _ => (nested.lookup "from_nested").join = some rs

/-- A base is read back if its nested requirements are. -/
theorem readBase_writeBase {names : List String} {base : SubmissionRequirementBase}
    {nested : List (String × Option (List SubmissionRequirement))}
    (h : CanonicalBase names base) (hn : NestedRead nested base) :
    readBase (writeBase base) nested = some base := by
  rw [readBase]
  cases base with
  | «from» g o => rw [readFrom_writeBase h]; rfl
  | fromNested rs o => rw [readFrom_writeBase_nested h, readFromNested_writeBase h hn]; rfl

/-! ## Requirements are read back -/

theorem readTagged_all {buffered : Bool} {base : SubmissionRequirementBase}
    {nested : List (String × Option (List SubmissionRequirement))}
    (h : CanonicalBase ["rule"] base) (hn : NestedRead nested base) :
    readTagged buffered (("rule", .string "all") :: writeBase base) nested = some (.all base) := by
  have ha : Members.Apart ["rule"] (writeBase base) := apart_writeBase h (by decide)
  have hd : (Members.keys (("rule", .string "all") :: writeBase base)).Nodup :=
    List.nodup_cons.mpr ⟨ha.not_mem_keys (by decide), nodup_keys_writeBase h⟩
  have ht : takeNames ["rule"] (("rule", .string "all") :: writeBase base) =
      some (writeBase base) := by
    rw [takeNames_of_nodup _ hd, Members.filter_cons_of_mem (by decide),
      Members.filter_of_apart ha]
  rw [readTagged, ht, List.lookup_cons_self]
  change (readBase (writeBase base) nested >>= fun base => some (all base)) = _
  rw [readBase_writeBase h hn]
  rfl

/-- How many are picked, as members. -/
def writeBounds (count min max : Option UInt64) : List (String × Json) :=
  nullableMember "count" count ++ nullableMember "min" min ++ nullableMember "max" max

theorem writeBounds_eq (count min max : Option UInt64) :
    writeBounds count min max = [("count", (count.map toTree).getD .null),
      ("min", (min.map toTree).getD .null), ("max", (max.map toTree).getD .null)] := by
  rw [writeBounds, nullableMember_eq, nullableMember_eq, nullableMember_eq]
  rfl

theorem apart_writeBounds {names : List String} (h : ∀ k ∈ ["count", "min", "max"], k ∉ names)
    (count min max : Option UInt64) : Members.Apart names (writeBounds count min max) := by
  simp only [List.forall_mem_cons] at h
  rw [writeBounds_eq, Members.apart_cons, Members.apart_cons, Members.apart_cons]
  exact ⟨h.1, h.2.1, h.2.2.1, List.forall_mem_nil _⟩

theorem nodup_keys_pick {names : List String} {base : SubmissionRequirementBase}
    (h : CanonicalBase names base) (ha : Members.Apart ["count", "min", "max"] (writeBase base))
    (count min max : Option UInt64) :
    (Members.keys (writeBase base ++ writeBounds count min max)).Nodup := by
  have hk : Members.keys (writeBounds count min max) = ["count", "min", "max"] := by
    rw [writeBounds_eq]
    rfl
  refine Members.nodup_keys_append (nodup_keys_writeBase h) ?_ ?_
  · rw [hk]
    decide
  · rw [← hk] at ha
    exact ha.symm

theorem readTagged_pick {buffered : Bool} {base : SubmissionRequirementBase}
    {count min max : Option UInt64}
    {nested : List (String × Option (List SubmissionRequirement))}
    (h : CanonicalBase ["count", "min", "max", "rule"] base) (hn : NestedRead nested base) :
    readTagged buffered
      (("rule", .string "pick") :: (writeBase base ++ writeBounds count min max)) nested =
      some (.pick (.mk base count min max)) := by
  have ha : Members.Apart ["count", "min", "max", "rule"] (writeBase base) :=
    apart_writeBase h (by decide)
  have hb : Members.Apart ["count", "min", "max"] (writeBase base) := ha.mono (by decide)
  have hr : Members.Apart ["rule"] (writeBase base ++ writeBounds count min max) :=
    (ha.mono (by decide)).append (apart_writeBounds (by decide) count min max)
  have hd := nodup_keys_pick h hb count min max
  have ht : takeNames ["rule"]
      (("rule", .string "pick") :: (writeBase base ++ writeBounds count min max)) =
      some (writeBase base ++ writeBounds count min max) := by
    have hd' : (Members.keys (("rule", Json.string "pick") ::
        (writeBase base ++ writeBounds count min max))).Nodup :=
      List.nodup_cons.mpr ⟨hr.not_mem_keys (by decide), hd⟩
    rw [takeNames_of_nodup _ hd', Members.filter_cons_of_mem (by decide),
      Members.filter_of_apart hr]
  have ht' : takeNames ["count", "min", "max"] (writeBase base ++ writeBounds count min max) =
      some (writeBase base) := by
    rw [takeNames_of_nodup _ hd, List.filter_append, Members.filter_of_apart hb, writeBounds_eq,
      Members.filter_cons_of_mem (by decide), Members.filter_cons_of_mem (by decide),
      Members.filter_cons_of_mem (by decide), List.filter_nil, List.append_nil]
  have slot {k : String} (hk : k ∈ ["count", "min", "max"]) :
      memberSlot (writeBase base ++ writeBounds count min max) k =
        memberSlot (writeBounds count min max) k :=
    memberSlot_append (hb.not_mem_keys hk)
  have hc : (memberSlot (writeBase base ++ writeBounds count min max) "count").optional =
      some count := by
    rw [slot (by decide), writeBounds_eq]
    exact Slot.optional_nullable count
  have hmin : (memberSlot (writeBase base ++ writeBounds count min max) "min").optional =
      some min := by
    rw [slot (by decide), writeBounds_eq]
    exact Slot.optional_nullable min
  have hmax : (memberSlot (writeBase base ++ writeBounds count min max) "max").optional =
      some max := by
    rw [slot (by decide), writeBounds_eq]
    exact Slot.optional_nullable max
  rw [readTagged, ht, List.lookup_cons_self]
  change (takeNames ["count", "min", "max"] _ >>= fun rest' => _) = _
  rw [ht', hc, hmin, hmax, Option.bind_eq_bind, Option.bind_some, readBase_writeBase h hn]
  rfl

/-- The contents of a member, read as nested requirements. -/
def readMember : Json → Option (List SubmissionRequirement)
  | .array xs => readElements xs
  | _ => none

theorem readMembers_eq_map (ms : List (String × Json)) :
    readMembers ms = ms.map fun m => (m.1, readMember m.2) := by
  induction ms with
  | nil => rfl
  | cons m ms ih =>
    obtain ⟨k, x⟩ := m
    cases x <;> simp [readMembers, readMember, ih]

theorem lookup_readMembers (k : String) (ms : List (String × Json)) :
    (readMembers ms).lookup k = (ms.lookup k).map readMember := by
  rw [readMembers_eq_map, Members.lookup_map fun _ => readMember]

mutual
/-- A canonical requirement is read back from what it is written as. -/
theorem read_write {buffered : Bool} :
    ∀ {r : SubmissionRequirement}, r.Canonical → read buffered (write r) = some r
  | .all base, h => readTagged_all h (nestedRead_write h fun rs o he => by subst he; rfl)
  | .pick (.mk base count min max), h => by
    rw [write, List.append_assoc, List.append_assoc, ← List.append_assoc (nullableMember _ count)]
    exact readTagged_pick h (nestedRead_write h fun rs o he => by subst he; rfl)

theorem nestedRead_write {names : List String} {ms : List (String × Json)} :
    ∀ {base : SubmissionRequirementBase}, CanonicalBase names base →
      (∀ rs o, base = .fromNested rs o →
        ms.lookup "from_nested" = some (.array (writeList rs))) → NestedRead (readMembers ms) base
  | .from _ _, _, _ => trivial
  | .fromNested rs o, h, hl => by
    rw [NestedRead, lookup_readMembers, hl rs o rfl]
    exact readElements_writeList h.2.2

theorem readElements_writeList :
    ∀ {rs : List SubmissionRequirement}, CanonicalList rs → readElements (writeList rs) = some rs
  | [], _ => rfl
  | r :: rs, h => by
    rw [writeList, readElements, read_write h.1, readElements_writeList h.2]
    rfl
end

/-! ## Written requirements are values -/

theorem wellFormed_nullableMember [Serialize α] [WritesValues α] (k : String) (a : Option α) :
    ∀ m ∈ nullableMember k a, m.2.wellFormed = true := by
  cases a with
  | none => exact fun m hm => List.mem_singleton.mp hm ▸ rfl
  | some a => exact fun m hm => List.mem_singleton.mp hm ▸ WritesValues.wellFormed a

theorem wellFormed_writeObject (o : SubmissionRequirementObject) :
    ∀ m ∈ writeObject o, m.2.wellFormed = true := by
  intro m hm
  rw [writeObject, List.mem_append, List.mem_append] at hm
  rcases hm with (hm | hm) | hm
  · exact wellFormed_nullableMember _ _ m hm
  · exact wellFormed_nullableMember _ _ m hm
  · split at hm
    · next ps _ => exact (Json.wellFormed_object.mp ps.wf).2 m hm
    · cases hm

theorem wellFormed_writeBounds (count min max : Option UInt64) :
    ∀ m ∈ writeBounds count min max, m.2.wellFormed = true := by
  intro m hm
  rw [writeBounds, List.mem_append, List.mem_append] at hm
  rcases hm with (hm | hm) | hm <;> exact wellFormed_nullableMember _ _ m hm

theorem wellFormed_tagged {rule : String} {ms : List (String × Json)}
    (ha : Members.Apart ["rule"] ms) (hd : (Members.keys ms).Nodup)
    (h : ∀ m ∈ ms, m.2.wellFormed = true) :
    (Json.object (("rule", .string rule) :: ms)).wellFormed = true :=
  Json.wellFormed_object.mpr ⟨List.nodup_cons.mpr ⟨ha.not_mem_keys List.mem_cons_self, hd⟩,
    List.forall_mem_cons.mpr ⟨rfl, h⟩⟩

mutual
theorem Canonical.wellFormed_write :
    ∀ {r : SubmissionRequirement}, r.Canonical → (write r).wellFormed = true
  | .all base, h => by
    rw [write]
    exact wellFormed_tagged (apart_writeBase h (by decide)) (nodup_keys_writeBase h)
      (wellFormed_writeBase h)
  | .pick (.mk base count min max), h => by
    have ha : Members.Apart ["count", "min", "max", "rule"] (writeBase base) :=
      apart_writeBase h (by decide)
    have hr : Members.Apart ["rule"] (writeBase base ++ writeBounds count min max) :=
      (ha.mono (by decide)).append (apart_writeBounds (by decide) count min max)
    rw [write, List.append_assoc, List.append_assoc, ← List.append_assoc (nullableMember _ count)]
    refine wellFormed_tagged hr (nodup_keys_pick h (ha.mono (by decide)) count min max) ?_
    intro m hm
    exact (List.mem_append.mp hm).elim (wellFormed_writeBase h m) (wellFormed_writeBounds _ _ _ m)

theorem wellFormed_writeBase {names : List String} :
    ∀ {base : SubmissionRequirementBase}, CanonicalBase names base →
      ∀ m ∈ writeBase base, m.2.wellFormed = true
  | .from g o, _ => by
    rw [writeBase, List.forall_mem_cons]
    exact ⟨rfl, wellFormed_writeObject o⟩
  | .fromNested rs o, h => by
    rw [writeBase, List.forall_mem_cons]
    exact ⟨wellFormed_writeList h.2.2, wellFormed_writeObject o⟩

theorem wellFormed_writeList :
    ∀ {rs : List SubmissionRequirement}, CanonicalList rs →
      Json.wellFormedList (writeList rs) = true
  | [], _ => rfl
  | r :: rs, h => by
    rw [writeList, Json.wellFormedList, Bool.and_eq_true]
    exact ⟨Canonical.wellFormed_write h.1, wellFormed_writeList h.2⟩
end

/-! ## Whatever is read from a value is canonical -/

theorem readObject_eq_some_iff {ms : List (String × Json)} {o : SubmissionRequirementObject} :
    readObject ms = some o ↔ ∃ rest name purpose, takeNames ["name", "purpose"] ms = some rest ∧
      (memberSlot ms "name").optional = some name ∧
      (memberSlot ms "purpose").optional = some purpose ∧
      o = ⟨name, purpose, some (.ofMembers rest)⟩ := by
  simp only [readObject, Option.bind_eq_bind, Option.bind_eq_some_iff, Option.pure_def,
    Option.some.injEq]
  constructor
  · rintro ⟨rest, hr, name, hn, purpose, hp, rfl⟩
    exact ⟨rest, name, purpose, hr, hn, hp, rfl⟩
  · rintro ⟨rest, name, purpose, hr, hn, hp, rfl⟩
    exact ⟨rest, hr, name, hn, purpose, hp, rfl⟩

theorem apart_of_readObject {names : List String} {ms : List (String × Json)}
    {o : SubmissionRequirementObject} (h : readObject ms = some o)
    (ha : Members.Apart names ms) : o.Apart names := by
  obtain ⟨rest, name, purpose, hr, -, -, rfl⟩ := readObject_eq_some_iff.mp h
  obtain rfl := takeNames_eq_some hr
  refine ⟨_, rfl, JsonMap.apart_ofMembers ?_⟩
  exact Members.apart_append.mpr ⟨Members.apart_filter _ ms, ha.filter _⟩

/-- An object is still read when other members are taken from it. -/
theorem exists_readObject_filter (names : List String) {ms : List (String × Json)}
    {name purpose : Option String} (hd : (Members.keys ms).Nodup) (hn : "name" ∉ names)
    (hp : "purpose" ∉ names) (h : (memberSlot ms "name").optional = some name)
    (h' : (memberSlot ms "purpose").optional = some purpose) :
    ∃ o, readObject (ms.filter fun m => m.1 ∉ names) = some o := by
  refine ⟨_, readObject_eq_some_iff.mpr ⟨_, name, purpose,
    takeNames_of_nodup _ (Members.nodup_keys_filter hd _), ?_, ?_, rfl⟩⟩
  · rw [memberSlot_filter hn, h]
  · rw [memberSlot_filter hp, h']

/-- If a group were left in the property set, the requirement would be about this group. -/
theorem noGroup_of_readFrom_eq_none {ms : List (String × Json)} {o : SubmissionRequirementObject}
    (hd : (Members.keys ms).Nodup) (hf : readFrom ms = none)
    (h : readObject (ms.filter fun m => m.1 ∉ ["from_nested"]) = some o) : o.NoGroup := by
  obtain ⟨rest, name, purpose, hr, hn, hp, rfl⟩ := readObject_eq_some_iff.mp h
  obtain rfl := takeNames_eq_some hr
  rintro m hm g hg
  obtain rfl := Option.some.inj hm
  rw [JsonMap.get?_ofMembers (Members.nodup_keys_filter (Members.nodup_keys_filter hd _) _)] at hg
  obtain ⟨x, hx, hs⟩ := Option.map_eq_some_iff.mp hg
  obtain rfl := Json.eq_string_of_toValue hs
  rw [Members.lookup_filter_of_not_mem (by decide),
    Members.lookup_filter_of_not_mem (by decide)] at hx
  rw [memberSlot_filter (by decide)] at hn hp
  obtain ⟨o, ho⟩ := exists_readObject_filter ["from"] hd (by decide) (by decide) hn hp
  have hg : (memberSlot ms "from").required = some g := by
    rw [memberSlot, hx]
    rfl
  rw [readFrom, takeNames_of_nodup _ hd, hg, Option.bind_eq_bind, Option.bind_some,
    Option.bind_eq_bind, Option.bind_some, ho] at hf
  cases hf

theorem canonicalBase_of_readBase {names : List String} {ms : List (String × Json)}
    {nested : List (String × Option (List SubmissionRequirement))}
    {base : SubmissionRequirementBase} (hd : (Members.keys ms).Nodup)
    (ha : Members.Apart names ms)
    (hn : ∀ rs, (nested.lookup "from_nested").join = some rs → CanonicalList rs)
    (h : readBase ms nested = some base) : CanonicalBase names base := by
  have apart (k : String) : Members.Apart (k :: names) (ms.filter fun m => m.1 ∉ [k]) :=
    Members.apart_append.mpr ⟨Members.apart_filter [k] ms, ha.filter _⟩
  rw [readBase] at h
  cases hf : readFrom ms with
  | some base' =>
    rw [hf] at h
    obtain rfl : base' = base := Option.some.inj h
    simp only [readFrom, Option.bind_eq_bind, Option.bind_eq_some_iff, Option.pure_def,
      Option.some.injEq] at hf
    obtain ⟨rest, hr, g, -, o, ho, rfl⟩ := hf
    obtain rfl := takeNames_eq_some hr
    exact apart_of_readObject ho (apart "from")
  | none =>
    rw [hf] at h
    change readFromNested ms nested = some base at h
    simp only [readFromNested, Option.bind_eq_bind, Option.bind_eq_some_iff, Option.pure_def,
      Option.some.injEq] at h
    obtain ⟨rest, hr, rs, hrs, o, ho, rfl⟩ := h
    obtain rfl := takeNames_eq_some hr
    exact ⟨apart_of_readObject ho (apart "from_nested"), noGroup_of_readFrom_eq_none hd hf ho,
      hn rs hrs⟩

theorem canonical_of_readTagged {buffered : Bool} {ms : List (String × Json)}
    {nested : List (String × Option (List SubmissionRequirement))} {r : SubmissionRequirement}
    (hd : (Members.keys ms).Nodup)
    (hn : ∀ rs, (nested.lookup "from_nested").join = some rs → CanonicalList rs)
    (h : readTagged buffered ms nested = some r) : r.Canonical := by
  rw [readTagged] at h
  obtain ⟨rest, hr, h⟩ := Option.bind_eq_some_iff.mp h
  obtain rfl := takeNames_eq_some hr
  have ha : Members.Apart ["rule"] (ms.filter fun m => m.1 ∉ ["rule"]) :=
    Members.apart_filter _ ms
  have hd' := Members.nodup_keys_filter hd fun m => m.1 ∉ ["rule"]
  obtain ⟨x, -, h⟩ := Option.bind_eq_some_iff.mp h
  obtain ⟨rule, -, h⟩ := Option.bind_eq_some_iff.mp h
  cases rule with
  | all =>
    obtain ⟨base, hb, h⟩ := Option.bind_eq_some_iff.mp h
    obtain rfl := Option.some.inj h
    exact canonicalBase_of_readBase hd' ha hn hb
  | pick =>
    obtain ⟨rest', hr', h⟩ := Option.bind_eq_some_iff.mp h
    obtain rfl := takeNames_eq_some hr'
    obtain ⟨base, hb, h⟩ := Option.bind_eq_some_iff.mp h
    obtain ⟨count, -, h⟩ := Option.bind_eq_some_iff.mp h
    obtain ⟨min, -, h⟩ := Option.bind_eq_some_iff.mp h
    obtain ⟨max, -, h⟩ := Option.bind_eq_some_iff.mp h
    obtain rfl := Option.some.inj h
    refine canonicalBase_of_readBase (Members.nodup_keys_filter hd' _) ?_ hn hb
    have hb := Members.apart_filter ["count", "min", "max"] (ms.filter fun m => m.1 ∉ ["rule"])
    exact Members.apart_append.mpr ⟨hb, ha.filter _⟩

mutual
/-- A requirement that is read from a value is canonical. -/
theorem canonical_of_read {buffered : Bool} :
    ∀ {x : Json} {r : SubmissionRequirement}, x.wellFormed = true → read buffered x = some r →
      r.Canonical
  | .object ms, r, hx, h => by
    obtain ⟨hd, hw⟩ := Json.wellFormed_object.mp hx
    refine canonical_of_readTagged hd (fun rs hrs => ?_) h
    have hm := Members.mem_of_lookup_eq_some (Option.join_eq_some_iff.mp hrs)
    exact canonicalList_of_readMembers (Json.wellFormedMembers_iff.mpr hw) hm
  | .null, _, _, h | .bool _, _, _, h | .number _, _, _, h | .string _, _, _, h
  | .array _, _, _, h => by cases h

theorem canonicalList_of_readMembers :
    ∀ {ms : List (String × Json)} {k : String} {rs : List SubmissionRequirement},
      Json.wellFormedMembers ms = true → (k, some rs) ∈ readMembers ms → CanonicalList rs
  | (_, .array xs) :: ms, k, rs, hw, hm => by
    simp only [Json.wellFormedMembers, Bool.and_eq_true] at hw
    rw [readMembers] at hm
    rcases List.mem_cons.mp hm with he | hm
    · exact canonicalList_of_readElements hw.1 (Prod.mk.inj he).2.symm
    · exact canonicalList_of_readMembers hw.2 hm
  | (_, .null) :: ms, _, _, hw, hm | (_, .bool _) :: ms, _, _, hw, hm
  | (_, .number _) :: ms, _, _, hw, hm | (_, .string _) :: ms, _, _, hw, hm
  | (_, .object _) :: ms, _, _, hw, hm => by
    simp only [Json.wellFormedMembers, Bool.and_eq_true] at hw
    simp only [readMembers, List.mem_cons, Prod.mk.injEq, reduceCtorEq, and_false,
      false_or] at hm
    exact canonicalList_of_readMembers hw.2 hm

theorem canonicalList_of_readElements :
    ∀ {xs : List Json} {rs : List SubmissionRequirement}, Json.wellFormedList xs = true →
      readElements xs = some rs → CanonicalList rs
  | [], rs, _, h => by
    obtain rfl := Option.some.inj h
    trivial
  | x :: xs, rs, hw, h => by
    simp only [Json.wellFormedList, Bool.and_eq_true] at hw
    simp only [readElements, Option.bind_eq_bind, Option.bind_eq_some_iff, Option.pure_def,
      Option.some.injEq] at h
    obtain ⟨r, hr, rs, hrs, rfl⟩ := h
    exact ⟨canonical_of_read hw.1 hr, canonicalList_of_readElements hw.2 hrs⟩
end

end SubmissionRequirement
end OpenID4VP
