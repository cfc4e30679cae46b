import Mathlib.Data.List.Sort

/-! # Members of an object

An object is the list of its members, each a key with a value. `insert` replaces the value of a
key in place or appends a new member, `collect` reads a list of pairs as a map (a later pair
replaces an earlier one of the same key), and `sort` lists the members in key order. A list whose
keys are distinct is a map, and then only `lookup` tells lists apart (`lookup_perm`). -/

namespace OpenID4VP.Members

variable {κ α β : Type} [DecidableEq κ]

def keys (ms : List (κ × α)) : List κ := ms.map Prod.fst

def insert (k : κ) (v : α) : List (κ × α) → List (κ × α)
  | [] => [(k, v)]
  | (k', v') :: ms => if k' = k then (k, v) :: ms else (k', v') :: insert k v ms

def erase (k : κ) (ms : List (κ × α)) : List (κ × α) :=
  ms.filter fun m => m.1 ≠ k

/-- The map a list of pairs builds up, the first pair inserted first. -/
def collect (ms : List (κ × α)) : List (κ × α) :=
  ms.foldl (fun acc m => insert m.1 m.2 acc) []

/-- The members in the order of their keys. -/
def sort (ms : List (String × α)) : List (String × α) :=
  ms.insertionSort fun a b => a.1 ≤ b.1

/-! ## Lookup -/

theorem lookup_cons (k k' : κ) (v : α) (ms : List (κ × α)) :
    List.lookup k ((k', v) :: ms) = if k = k' then some v else ms.lookup k := by
  rw [List.lookup_cons]
  split <;> simp_all

theorem lookup_eq_none_iff {k : κ} {ms : List (κ × α)} :
    ms.lookup k = none ↔ k ∉ keys ms := by
  induction ms with
  | nil => simp [keys]
  | cons m ms ih =>
    rw [lookup_cons]
    split <;> simp_all [keys]

theorem mem_of_lookup_eq_some {k : κ} {v : α} {ms : List (κ × α)}
    (h : ms.lookup k = some v) : (k, v) ∈ ms := by
  induction ms with
  | nil => simp at h
  | cons m ms ih =>
    obtain ⟨k', v'⟩ := m
    rw [lookup_cons] at h
    split at h
    · next hk => cases h; exact hk ▸ List.mem_cons_self
    · exact List.mem_cons_of_mem _ (ih h)

theorem lookup_eq_some_iff {k : κ} {v : α} {ms : List (κ × α)} (h : (keys ms).Nodup) :
    ms.lookup k = some v ↔ (k, v) ∈ ms := by
  refine ⟨mem_of_lookup_eq_some, fun hm => ?_⟩
  induction ms with
  | nil => simp at hm
  | cons m ms ih =>
    simp only [keys, List.map_cons, List.nodup_cons] at h
    rw [lookup_cons]
    rcases List.mem_cons.mp hm with rfl | hm
    · simp
    · have hne : k ≠ m.1 := by
        rintro rfl
        exact h.1 (List.mem_map.mpr ⟨_, hm, rfl⟩)
      rw [if_neg hne]
      exact ih h.2 hm

/-- Lists of distinct keys with the same members are the same map. -/
theorem lookup_perm {ms ms' : List (κ × α)} (h : ms.Perm ms') (hn : (keys ms).Nodup)
    (k : κ) : ms.lookup k = ms'.lookup k := by
  have hn' : (keys ms').Nodup := ((h.map Prod.fst).nodup_iff).mp hn
  apply Option.ext
  intro v
  rw [lookup_eq_some_iff hn, lookup_eq_some_iff hn', h.mem_iff]

theorem lookup_map (f : κ → α → β) (k : κ) (ms : List (κ × α)) :
    (ms.map fun m => (m.1, f m.1 m.2)).lookup k = (ms.lookup k).map (f k) := by
  induction ms with
  | nil => rfl
  | cons m ms ih =>
    rw [List.map_cons, lookup_cons, lookup_cons, ih]
    split <;> simp_all

omit [DecidableEq κ] in
theorem keys_map (f : κ → α → β) (ms : List (κ × α)) :
    keys (ms.map fun m => (m.1, f m.1 m.2)) = keys ms := by
  rw [keys, List.map_map]
  rfl

/-! ## Members that may be left out -/

/-- The members of the keys that have a value. -/
def present (slots : List (κ × Option α)) : List (κ × α) :=
  slots.filterMap fun s => s.2.map fun v => (s.1, v)

omit [DecidableEq κ] in
theorem present_append (slots slots' : List (κ × Option α)) :
    present (slots ++ slots') = present slots ++ present slots' :=
  List.filterMap_append

omit [DecidableEq κ] in
theorem present_cons (k : κ) (v : Option α) (slots : List (κ × Option α)) :
    present ((k, v) :: slots) = (v.map fun v => (k, v)).toList ++ present slots := by
  cases v <;> rfl

omit [DecidableEq κ] in
theorem keys_present_sublist (slots : List (κ × Option α)) :
    (keys (present slots)).Sublist (keys slots) := by
  induction slots with
  | nil => exact .slnil
  | cons s slots ih =>
    obtain ⟨k, _ | v⟩ := s
    · exact ih.cons k
    · exact ih.cons_cons k

omit [DecidableEq κ] in
theorem nodup_keys_present {slots : List (κ × Option α)} (h : (keys slots).Nodup) :
    (keys (present slots)).Nodup :=
  h.sublist (keys_present_sublist slots)

/-- What is found under a key is the value of its slot. -/
theorem lookup_present {slots : List (κ × Option α)} (h : (keys slots).Nodup) (k : κ) :
    (present slots).lookup k = (slots.lookup k).join := by
  induction slots with
  | nil => rfl
  | cons s slots ih =>
    obtain ⟨k', v⟩ := s
    rw [keys, List.map_cons, List.nodup_cons] at h
    rw [present_cons, lookup_cons]
    split
    · next hk =>
      subst hk
      cases v with
      | none =>
        have hn : k ∉ keys (present slots) := fun hm => h.1 ((keys_present_sublist slots).subset hm)
        exact lookup_eq_none_iff.mpr hn
      | some v => exact List.lookup_cons_self
    · next hk =>
      cases v with
      | none => exact ih h.2
      | some v =>
        rw [Option.map_some, Option.toList_some, List.singleton_append, lookup_cons, if_neg hk]
        exact ih h.2

/-! ## Members of other names -/

/-- No member has one of the names. -/
def Apart (names : List κ) (ms : List (κ × α)) : Prop := ∀ m ∈ ms, m.1 ∉ names

omit [DecidableEq κ] in
theorem Apart.mono {names names' : List κ} {ms : List (κ × α)} (h : Apart names ms)
    (hs : names' ⊆ names) : Apart names' ms := fun m hm hn => h m hm (hs hn)

omit [DecidableEq κ] in
theorem Apart.not_mem_keys {names : List κ} {ms : List (κ × α)} {k : κ} (h : Apart names ms)
    (hk : k ∈ names) : k ∉ keys ms := by
  intro hn
  obtain ⟨m, hm, rfl⟩ := List.mem_map.mp hn
  exact h m hm hk

omit [DecidableEq κ] in
theorem apart_cons {names : List κ} {m : κ × α} {ms : List (κ × α)} :
    Apart names (m :: ms) ↔ m.1 ∉ names ∧ Apart names ms := List.forall_mem_cons

omit [DecidableEq κ] in
theorem Apart.append {names : List κ} {ms ns : List (κ × α)} (hm : Apart names ms)
    (hn : Apart names ns) : Apart names (ms ++ ns) :=
  fun m h => (List.mem_append.mp h).elim (hm m) (hn m)

omit [DecidableEq κ] in
theorem Apart.symm {ms : List (κ × α)} {ns : List (κ × β)} (h : Apart (keys ms) ns) :
    Apart (keys ns) ms := by
  intro m hm hn
  obtain ⟨n, hn, he⟩ := List.mem_map.mp hn
  exact h n hn (he ▸ List.mem_map_of_mem hm)

omit [DecidableEq κ] in
theorem apart_append {names names' : List κ} {ms : List (κ × α)} :
    Apart (names ++ names') ms ↔ Apart names ms ∧ Apart names' ms := by
  simp only [Apart, List.mem_append, not_or, ← forall_and]

omit [DecidableEq κ] in
theorem Apart.filter {names : List κ} {ms : List (κ × α)} (h : Apart names ms)
    (p : κ × α → Bool) : Apart names (ms.filter p) := fun m hm => h m (List.mem_of_mem_filter hm)

omit [DecidableEq κ] in
theorem nodup_keys_filter {ms : List (κ × α)} (h : (keys ms).Nodup) (p : κ × α → Bool) :
    (keys (ms.filter p)).Nodup := h.sublist (List.filter_sublist.map _)

omit [DecidableEq κ] in
/-- Members are under distinct keys when those of two lists are and have no key in common. -/
theorem nodup_keys_append {ms ns : List (κ × α)} (hm : (keys ms).Nodup) (hn : (keys ns).Nodup)
    (h : Apart (keys ms) ns) : (keys (ms ++ ns)).Nodup := by
  rw [keys, List.map_append]
  refine hm.append hn fun k hk hk' => ?_
  obtain ⟨n, hn, rfl⟩ := List.mem_map.mp hk'
  exact h n hn hk

theorem filter_of_apart {names : List κ} {ms : List (κ × α)} (h : Apart names ms) :
    (ms.filter fun m => m.1 ∉ names) = ms :=
  List.filter_eq_self.mpr fun m hm => decide_eq_true (h m hm)

theorem filter_cons_of_mem {names : List κ} {k : κ} (h : k ∈ names) (v : α) (ms : List (κ × α)) :
    (((k, v) :: ms).filter fun m => m.1 ∉ names) = ms.filter fun m => m.1 ∉ names :=
  List.filter_cons_of_neg (by simpa using h)

theorem filter_cons_of_not_mem {names : List κ} {k : κ} (h : k ∉ names) (v : α)
    (ms : List (κ × α)) :
    (((k, v) :: ms).filter fun m => m.1 ∉ names) = (k, v) :: ms.filter fun m => m.1 ∉ names :=
  List.filter_cons_of_pos (decide_eq_true h)

theorem apart_filter (names : List κ) (ms : List (κ × α)) :
    Apart names (ms.filter fun m => m.1 ∉ names) :=
  fun _ hm => of_decide_eq_true (List.mem_filter.mp hm).2

theorem lookup_filter_of_not_mem {names : List κ} {k : κ} (h : k ∉ names) (ms : List (κ × α)) :
    (ms.filter fun m => m.1 ∉ names).lookup k = ms.lookup k := by
  induction ms with
  | nil => rfl
  | cons m ms ih =>
    rw [List.filter_cons, lookup_cons]
    split
    · rw [lookup_cons, ih]
    · next hm =>
      have hk : m.1 ∈ names := by simpa using hm
      have hne : k ≠ m.1 := fun he => h (he ▸ hk)
      rw [ih, if_neg hne]

/-- Neither the order nor members under other keys matter to a lookup. -/
theorem lookup_of_perm_append {ms own further : List (κ × α)} (h : ms.Perm (own ++ further))
    (hn : (keys own).Nodup) (ha : Apart (keys own) further) {k : κ} (hk : k ∉ keys further) :
    ms.lookup k = own.lookup k := by
  have hf : (further.filter fun m => m.1 ∉ keys further) = [] := by
    rw [List.filter_eq_nil_iff]
    intro m hm hd
    exact of_decide_eq_true hd (List.mem_map_of_mem hm)
  have hp : (ms.filter fun m => m.1 ∉ keys further).Perm own := by
    have hp := h.filter fun m => decide (m.1 ∉ keys further)
    rwa [List.filter_append, hf, List.append_nil, filter_of_apart ha.symm] at hp
  rw [← lookup_filter_of_not_mem hk ms]
  exact (lookup_perm hp.symm hn k).symm

theorem filter_present (names : List κ) (slots : List (κ × Option α)) :
    ((present slots).filter fun m => m.1 ∉ names) =
      present (slots.filter fun s => s.1 ∉ names) := by
  induction slots with
  | nil => rfl
  | cons s slots ih =>
    obtain ⟨k, v⟩ := s
    by_cases hk : k ∈ names
    · rw [filter_cons_of_mem hk, ← ih, present_cons]
      cases v with
      | none => rfl
      | some v => exact filter_cons_of_mem hk v _
    · rw [filter_cons_of_not_mem hk, present_cons, present_cons, ← ih]
      cases v with
      | none => rfl
      | some v => exact filter_cons_of_not_mem hk v _

/-! ## Insertion and removal -/

@[simp] theorem lookup_insert_self (k : κ) (v : α) (ms : List (κ × α)) :
    (insert k v ms).lookup k = some v := by
  induction ms with
  | nil => simp [insert]
  | cons m ms ih =>
    rw [insert]
    split
    · simp
    · rw [lookup_cons, if_neg (by simp_all [eq_comm]), ih]

theorem lookup_insert_of_ne {k k' : κ} (h : k' ≠ k) (v : α) (ms : List (κ × α)) :
    (insert k v ms).lookup k' = ms.lookup k' := by
  induction ms with
  | nil => simp [insert, lookup_cons, h]
  | cons m ms ih =>
    rw [insert]
    split
    · rw [lookup_cons, lookup_cons, if_neg h, if_neg (by simp_all)]
    · rw [lookup_cons, lookup_cons, ih]

theorem lookup_erase_self (k : κ) (ms : List (κ × α)) : (erase k ms).lookup k = none := by
  rw [lookup_eq_none_iff, keys, erase]
  intro h
  obtain ⟨m, hm, rfl⟩ := List.mem_map.mp h
  exact of_decide_eq_true (List.mem_filter.mp hm).2 rfl

theorem lookup_erase_of_ne {k k' : κ} (h : k' ≠ k) (ms : List (κ × α)) :
    (erase k ms).lookup k' = ms.lookup k' := by
  rw [erase]
  induction ms with
  | nil => rfl
  | cons m ms ih =>
    rw [List.filter_cons, lookup_cons]
    split
    · rw [lookup_cons, ih]
    · next hm =>
      have hk : m.1 = k := by simpa using hm
      rw [ih, if_neg (hk ▸ h)]

theorem mem_keys_insert {k k' : κ} {v : α} {ms : List (κ × α)} :
    k' ∈ keys (insert k v ms) ↔ k' = k ∨ k' ∈ keys ms := by
  induction ms with
  | nil => simp [insert, keys]
  | cons m ms ih =>
    simp only [keys] at ih ⊢
    rw [insert]
    split
    · simp_all
    · simp only [List.map_cons, List.mem_cons, ih]
      tauto

theorem nodup_keys_insert {k : κ} {v : α} {ms : List (κ × α)} (h : (keys ms).Nodup) :
    (keys (insert k v ms)).Nodup := by
  induction ms with
  | nil => simp [insert, keys]
  | cons m ms ih =>
    simp only [keys, List.map_cons, List.nodup_cons] at h
    rw [insert]
    split
    · next hk => subst hk; simpa [keys] using h
    · next hk =>
      simp only [keys, List.map_cons, List.nodup_cons]
      refine ⟨fun hm => ?_, ih h.2⟩
      rcases mem_keys_insert.mp hm with hm | hm
      · exact hk hm
      · exact h.1 hm

theorem insert_of_not_mem {k : κ} {v : α} {ms : List (κ × α)} (h : k ∉ keys ms) :
    insert k v ms = ms ++ [(k, v)] := by
  induction ms with
  | nil => rfl
  | cons m ms ih =>
    simp only [keys, List.map_cons, List.mem_cons, not_or] at h
    rw [insert, if_neg (Ne.symm h.1), ih h.2, List.cons_append]

theorem mem_insert {k : κ} {v : α} {ms : List (κ × α)} {m : κ × α}
    (h : m ∈ insert k v ms) : m = (k, v) ∨ m ∈ ms := by
  induction ms with
  | nil => simpa [insert] using h
  | cons m' ms ih =>
    rw [insert] at h
    split at h
    · rcases List.mem_cons.mp h with h | h
      · exact .inl h
      · exact .inr (List.mem_cons_of_mem _ h)
    · rcases List.mem_cons.mp h with h | h
      · exact .inr (h ▸ List.mem_cons_self)
      · exact (ih h).imp_right (List.mem_cons_of_mem _)

/-! ## Collecting and sorting -/

theorem foldl_insert_of_nodup {acc ms : List (κ × α)} (h : (keys (acc ++ ms)).Nodup) :
    ms.foldl (fun acc m => insert m.1 m.2 acc) acc = acc ++ ms := by
  induction ms generalizing acc with
  | nil => simp
  | cons m ms ih =>
    have hm : m.1 ∉ keys acc := by
      simp only [keys, List.map_append, List.map_cons] at h
      have := List.disjoint_of_nodup_append h
      exact fun hmem => this hmem List.mem_cons_self
    rw [List.foldl_cons, insert_of_not_mem hm, ih (by simpa using h)]
    simp

/-- A list of distinct keys is already the map it builds up. -/
theorem collect_of_nodup {ms : List (κ × α)} (h : (keys ms).Nodup) : collect ms = ms := by
  rw [collect, foldl_insert_of_nodup (by simpa using h), List.nil_append]

theorem nodup_keys_foldl_insert {acc : List (κ × α)} (ms : List (κ × α))
    (h : (keys acc).Nodup) :
    (keys (ms.foldl (fun acc m => insert m.1 m.2 acc) acc)).Nodup := by
  induction ms generalizing acc with
  | nil => exact h
  | cons m ms ih => exact ih (nodup_keys_insert h)

theorem nodup_keys_collect (ms : List (κ × α)) : (keys (collect ms)).Nodup :=
  nodup_keys_foldl_insert ms (by simp [keys])

theorem mem_collect {ms : List (κ × α)} {m : κ × α} (h : m ∈ collect ms) : m ∈ ms := by
  have aux : ∀ (ms acc : List (κ × α)),
      m ∈ ms.foldl (fun acc m => insert m.1 m.2 acc) acc → m ∈ acc ∨ m ∈ ms := by
    intro ms
    induction ms with
    | nil => exact fun acc h => .inl h
    | cons m' ms ih =>
      intro acc h
      rcases ih _ h with h | h
      · rcases mem_insert h with h | h
        · exact .inr (h ▸ List.mem_cons_self)
        · exact .inl h
      · exact .inr (List.mem_cons_of_mem _ h)
  simpa using aux ms [] h

theorem lookup_append (k : κ) (ms ns : List (κ × α)) :
    (ms ++ ns).lookup k = (ms.lookup k).or (ns.lookup k) := by
  induction ms with
  | nil => rfl
  | cons m ms ih =>
    rw [List.cons_append, lookup_cons, lookup_cons, ih]
    split <;> rfl

theorem lookup_foldl_insert (k : κ) (ms acc : List (κ × α)) :
    (ms.foldl (fun acc m => insert m.1 m.2 acc) acc).lookup k =
      (ms.reverse.lookup k).or (acc.lookup k) := by
  induction ms generalizing acc with
  | nil => rfl
  | cons m ms ih =>
    rw [List.foldl_cons, ih, List.reverse_cons, lookup_append, lookup_cons]
    by_cases h : k = m.1
    · subst h
      cases ms.reverse.lookup m.1 <;> simp
    · rw [lookup_insert_of_ne h, if_neg h]
      simp

/-- The last pair of a key is the one that stays. -/
theorem lookup_collect (k : κ) (ms : List (κ × α)) :
    (collect ms).lookup k = ms.reverse.lookup k := by
  rw [collect, lookup_foldl_insert]
  simp

theorem sort_perm (ms : List (String × α)) : (sort ms).Perm ms :=
  List.perm_insertionSort _ ms

theorem nodup_keys_sort {ms : List (String × α)} (h : (keys ms).Nodup) : (keys (sort ms)).Nodup :=
  (((sort_perm ms).map Prod.fst).nodup_iff).mpr h

theorem lookup_sort {ms : List (String × α)} (h : (keys ms).Nodup) (k : String) :
    (sort ms).lookup k = ms.lookup k :=
  lookup_perm (sort_perm ms) (nodup_keys_sort h) k

end OpenID4VP.Members
