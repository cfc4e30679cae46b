import OpenID4VP.Lib.Serde
import OpenID4VP.Lib.Prog

/-! # Utilities -/

namespace OpenID4VP

structure NonEmptyVec (α : Type) where
  toList : List α
  nonempty : toList ≠ []
  deriving DecidableEq

namespace NonEmptyVec

def new (a : α) : NonEmptyVec α := ⟨[a], by simp⟩

def ofList? : List α → Option (NonEmptyVec α)
  | [] => none
  | a :: as => some ⟨a :: as, by simp⟩

def map (f : α → β) (v : NonEmptyVec α) : NonEmptyVec β :=
  ⟨v.toList.map f, by simpa using v.nonempty⟩

@[simp] theorem map_id (v : NonEmptyVec α) : v.map id = v := by
  simp [map]

def mapM [Monad m] (f : α → m β) : NonEmptyVec α → m (NonEmptyVec β)
  | ⟨a :: as, _⟩ => do return ⟨(← f a) :: (← as.mapM f), by simp⟩

@[simp] theorem ofList?_toList (v : NonEmptyVec α) : ofList? v.toList = some v := by
  obtain ⟨_ | ⟨a, as⟩, h⟩ := v
  · exact absurd rfl h
  · rfl

theorem ofList?_eq_some_iff {as : List α} {v : NonEmptyVec α} :
    ofList? as = some v ↔ as = v.toList := by
  constructor
  · intro h
    cases as with
    | nil => cases h
    | cons a as =>
      obtain rfl := Option.some.inj h
      rfl
  · rintro rfl
    exact ofList?_toList v

theorem map_eq_self {f : α → α} {v : NonEmptyVec α} (h : ∀ a ∈ v.toList, f a = a) :
    v.map f = v := by
  obtain ⟨as, hne⟩ := v
  rw [map, NonEmptyVec.mk.injEq, List.map_congr_left h, List.map_id']

end NonEmptyVec

instance [Deserialize α] : Deserialize (NonEmptyVec α) :=
  ⟨fun x => do NonEmptyVec.ofList? (← fromTree x)⟩
instance [Serialize α] : Serialize (NonEmptyVec α) := ⟨fun v => toTree v.toList⟩
instance [Deserialize α] [Serialize α] [LawfulSerde α] : LawfulSerde (NonEmptyVec α) :=
  ⟨fun v => by
    change (do NonEmptyVec.ofList? (← fromTree (toTree v.toList))) = _
    simp⟩

instance [Serialize α] [WritesValues α] : WritesValues (NonEmptyVec α) :=
  ⟨fun v => WritesValues.wellFormed v.toList⟩
instance [Serialize α] : NeverNull (NonEmptyVec α) := ⟨nofun⟩

/-- The vector is read as what its elements are read as. -/
theorem NonEmptyVec.fromTree_toTree_map [Deserialize α] [Serialize α] {f : α → α}
    {v : NonEmptyVec α} (h : ∀ a ∈ v.toList, fromTree (toTree a) = some (f a)) :
    fromTree (toTree v) = some (v.map f) := by
  have hl : (v.toList.map toTree).mapM fromTree = some (v.map f).toList := mapM_map_eq_map h
  change ((v.toList.map toTree).mapM fromTree >>= fun as => NonEmptyVec.ofList? as) = _
  rw [hl]
  exact NonEmptyVec.ofList?_toList _

/-- The vector is read back if its elements are. -/
theorem NonEmptyVec.fromTree_toTree_of [Deserialize α] [Serialize α] {v : NonEmptyVec α}
    (h : ∀ a ∈ v.toList, fromTree (toTree a) = some a) : fromTree (toTree v) = some v := by
  rw [fromTree_toTree_map (f := id) h, NonEmptyVec.map_id]

theorem mapM_map_eq_self {f : β → Except ε α} {g : α → β} {as : List α}
    (h : ∀ a ∈ as, f (g a) = .ok a) : (as.map g).mapM f = .ok as := by
  induction as with
  | nil => rfl
  | cons a as ih =>
    rw [List.forall_mem_cons] at h
    rw [List.map_cons, List.mapM_cons, h.1, ih h.2]
    rfl

/-- A traversal has a result exactly when every element has one. -/
theorem exists_mapM_eq_ok_iff {f : α → Except ε β} {as : List α} :
    (∃ bs, as.mapM f = .ok bs) ↔ ∀ a ∈ as, ∃ b, f a = .ok b := by
  induction as with
  | nil => exact iff_of_true ⟨[], rfl⟩ nofun
  | cons a as ih =>
    rw [List.forall_mem_cons, ← ih]
    constructor
    · rintro ⟨_, h⟩
      obtain ⟨b, bs, hb, hbs, -⟩ := Except.mapM_cons_eq_ok_iff.mp h
      exact ⟨⟨b, hb⟩, bs, hbs⟩
    · rintro ⟨⟨b, hb⟩, bs, hbs⟩
      exact ⟨b :: bs, Except.mapM_cons_eq_ok_iff.mpr ⟨b, bs, hb, hbs, rfl⟩⟩

theorem mapM_eq_ok_nil_iff {f : α → Except ε β} {as : List α} :
    as.mapM f = .ok [] ↔ as = [] := by
  cases as with
  | nil => exact iff_of_true rfl rfl
  | cons a as =>
    refine iff_of_false (fun h => ?_) (List.cons_ne_nil a as)
    obtain ⟨b, bs, -, -, hb⟩ := Except.mapM_cons_eq_ok_iff.mp h
    exact List.cons_ne_nil b bs hb

/-- Where an element says what it was read from, a traversal has read the elements that are read
from what they say. -/
theorem mapM_eq_ok_iff_map {f : β → Except ε α} {g : α → β} (h : ∀ {b a}, f b = .ok a → g a = b)
    {as : List α} {bs : List β} :
    bs.mapM f = .ok as ↔ as.map g = bs ∧ ∀ a ∈ as, f (g a) = .ok a := by
  constructor
  · intro hm
    induction bs generalizing as with
    | nil =>
      obtain rfl : [] = as := Except.ok.inj hm
      exact ⟨rfl, nofun⟩
    | cons b bs ih =>
      obtain ⟨a, as', ha, has, rfl⟩ := Except.mapM_cons_eq_ok_iff.mp hm
      obtain ⟨hmap, hall⟩ := ih has
      rw [List.map_cons, hmap, h ha, List.forall_mem_cons, h ha]
      exact ⟨rfl, ha, hall⟩
  · rintro ⟨rfl, hall⟩
    exact mapM_map_eq_self hall

theorem NonEmptyVec.mapM_eq_ok_iff {f : α → Except ε β} {v : NonEmptyVec α} {w : NonEmptyVec β} :
    v.mapM f = .ok w ↔ v.toList.mapM f = .ok w.toList := by
  obtain ⟨_ | ⟨a, as⟩, hne⟩ := v
  · exact absurd rfl hne
  obtain ⟨bs, hw⟩ := w
  simp only [NonEmptyVec.mapM, List.mapM_cons, Except.bind_eq_ok_iff, Except.pure_eq_ok_iff,
    NonEmptyVec.mk.injEq]

theorem NonEmptyVec.exists_mapM_eq_ok_iff {f : α → Except ε β} {v : NonEmptyVec α} :
    (∃ w, v.mapM f = .ok w) ↔ ∀ a ∈ v.toList, ∃ b, f a = .ok b := by
  rw [← OpenID4VP.exists_mapM_eq_ok_iff]
  constructor
  · intro h
    obtain ⟨w, hw⟩ := h
    exact ⟨w.toList, NonEmptyVec.mapM_eq_ok_iff.mp hw⟩
  · intro h
    obtain ⟨bs, hbs⟩ := h
    have hne : bs ≠ [] := fun hb => v.nonempty (mapM_eq_ok_nil_iff.mp (hb ▸ hbs))
    exact ⟨⟨bs, hne⟩, NonEmptyVec.mapM_eq_ok_iff.mpr hbs⟩

/-- Elements that are read from what they are mapped to are found again. -/
theorem NonEmptyVec.mapM_map_eq_self {f : β → Except ε α} {g : α → β} {v : NonEmptyVec α}
    (h : ∀ a ∈ v.toList, f (g a) = .ok a) : (v.map g).mapM f = .ok v :=
  NonEmptyVec.mapM_eq_ok_iff.mpr (OpenID4VP.mapM_map_eq_self h)

theorem NonEmptyVec.mapM_eq_ok_iff_map {f : β → Except ε α} {g : α → β}
    (h : ∀ {b a}, f b = .ok a → g a = b) {v : NonEmptyVec β} {w : NonEmptyVec α} :
    v.mapM f = .ok w ↔ w.map g = v ∧ ∀ a ∈ w.toList, f (g a) = .ok a := by
  rw [NonEmptyVec.mapM_eq_ok_iff, OpenID4VP.mapM_eq_ok_iff_map h]
  obtain ⟨bs, hne⟩ := v
  rw [NonEmptyVec.map, NonEmptyVec.mk.injEq]

/-- Some element of `small` is in `large`. -/
def containsAny [DecidableEq α] (large small : List α) : Bool := small.any fun a => a ∈ large

end OpenID4VP
