import Mathlib.Data.List.DropRight

/-! # Splitting and trimming strings -/

namespace OpenID4VP

/-- The parts of a list before and after the first `c` in it. -/
def splitList [DecidableEq α] (c : α) : List α → Option (List α × List α)
  | [] => none
  | d :: ds => if d = c then some ([], ds) else (splitList c ds).map fun p => (d :: p.1, p.2)

theorem splitList_append [DecidableEq α] {c : α} {as : List α} (h : c ∉ as) (bs : List α) :
    splitList c (as ++ c :: bs) = some (as, bs) := by
  induction as with
  | nil => simp [splitList]
  | cons a as ih =>
    simp only [List.mem_cons, not_or] at h
    rw [List.cons_append, splitList, if_neg (Ne.symm h.1), ih h.2]
    rfl

theorem splitList_eq_none_iff [DecidableEq α] {c : α} {cs : List α} :
    splitList c cs = none ↔ c ∉ cs := by
  induction cs with
  | nil => simp [splitList]
  | cons d ds ih =>
    rw [splitList]
    split
    · next h => simp [h]
    · next h => simp [ih, Ne.symm h]

theorem splitList_eq_some_iff [DecidableEq α] {c : α} {cs as bs : List α} :
    splitList c cs = some (as, bs) ↔ cs = as ++ c :: bs ∧ c ∉ as := by
  constructor
  · intro h
    induction cs generalizing as with
    | nil => simp [splitList] at h
    | cons d ds ih =>
      rw [splitList] at h
      split at h
      · next hd =>
        obtain ⟨rfl, rfl⟩ : [] = as ∧ ds = bs := by simpa using h
        simp [hd]
      · next hd =>
        simp only [Option.map_eq_some_iff, Prod.mk.injEq] at h
        obtain ⟨⟨as', bs'⟩, hs, rfl, rfl⟩ := h
        obtain ⟨rfl, hn⟩ := ih hs
        simp [hn, Ne.symm hd]
  · rintro ⟨rfl, h⟩
    exact splitList_append h bs

/-- The parts of a list between all the `c`s in it. -/
def splitAll [DecidableEq α] (c : α) : List α → List (List α)
  | [] => [[]]
  | d :: ds =>
    if d = c then [] :: splitAll c ds
    else match splitAll c ds with
      | [] => [[d]]
      | p :: ps => (d :: p) :: ps

theorem splitAll_of_not_mem [DecidableEq α] {c : α} {as : List α} (h : c ∉ as) :
    splitAll c as = [as] := by
  induction as with
  | nil => rfl
  | cons a as ih =>
    simp only [List.mem_cons, not_or] at h
    rw [splitAll, if_neg (Ne.symm h.1), ih h.2]

theorem splitAll_append [DecidableEq α] {c : α} {as : List α} (h : c ∉ as) (bs : List α) :
    splitAll c (as ++ c :: bs) = as :: splitAll c bs := by
  induction as with
  | nil => simp [splitAll]
  | cons a as ih =>
    simp only [List.mem_cons, not_or] at h
    rw [List.cons_append, splitAll, if_neg (Ne.symm h.1), ih h.2]

/-- The parts that were put together with `c`s between them. -/
theorem splitAll_intercalate [DecidableEq α] {c : α} {ps : List (List α)} (hn : ps ≠ [])
    (h : ∀ p ∈ ps, c ∉ p) : splitAll c ([c].intercalate ps) = ps := by
  induction ps with
  | nil => exact absurd rfl hn
  | cons p ps ih =>
    rw [List.forall_mem_cons] at h
    cases ps with
    | nil => rw [List.intercalate_singleton, splitAll_of_not_mem h.1]
    | cons q qs =>
      rw [List.intercalate_cons_cons, List.append_assoc, List.singleton_append,
        splitAll_append h.1, ih (List.cons_ne_nil q qs) h.2]

/-- The parts of a string before and after the first `c` in it. -/
def splitOnce (c : Char) (s : String) : Option (String × String) :=
  (splitList c s.toList).map fun p => (String.ofList p.1, String.ofList p.2)

theorem splitOnce_eq_none_iff {c : Char} {s : String} : splitOnce c s = none ↔ c ∉ s.toList := by
  rw [splitOnce, Option.map_eq_none_iff, splitList_eq_none_iff]

theorem splitOnce_eq_some_iff {c : Char} {s a b : String} :
    splitOnce c s = some (a, b) ↔ s.toList = a.toList ++ c :: b.toList ∧ c ∉ a.toList := by
  rw [splitOnce, Option.map_eq_some_iff]
  constructor
  · rintro ⟨⟨as, bs⟩, h, he⟩
    obtain ⟨rfl, rfl⟩ : String.ofList as = a ∧ String.ofList bs = b := by simpa using he
    rw [String.toList_ofList, String.toList_ofList]
    exact splitList_eq_some_iff.mp h
  · intro h
    refine ⟨(a.toList, b.toList), splitList_eq_some_iff.mpr h, ?_⟩
    simp

/-- The parts of a string before and after the last `c` in it. -/
def rsplitOnce (c : Char) (s : String) : Option (String × String) :=
  (splitList c s.toList.reverse).map fun p =>
    (String.ofList p.2.reverse, String.ofList p.1.reverse)

theorem rsplitOnce_eq_none_iff {c : Char} {s : String} :
    rsplitOnce c s = none ↔ c ∉ s.toList := by
  rw [rsplitOnce, Option.map_eq_none_iff, splitList_eq_none_iff, List.mem_reverse]

theorem rsplitOnce_eq_some_iff {c : Char} {s a b : String} :
    rsplitOnce c s = some (a, b) ↔ s.toList = a.toList ++ c :: b.toList ∧ c ∉ b.toList := by
  rw [rsplitOnce, Option.map_eq_some_iff]
  constructor
  · rintro ⟨⟨bs, as⟩, h, he⟩
    obtain ⟨rfl, rfl⟩ : String.ofList as.reverse = a ∧ String.ofList bs.reverse = b := by
      simpa using he
    obtain ⟨hs, hn⟩ := splitList_eq_some_iff.mp h
    rw [List.reverse_eq_iff] at hs
    simp [hs, hn]
  · rintro ⟨hs, hn⟩
    refine ⟨(b.toList.reverse, a.toList.reverse), splitList_eq_some_iff.mpr ⟨?_, ?_⟩, ?_⟩
    · simp [hs]
    · simpa using hn
    · simp

/-- The parts before the first and before the last `c` are the same when there is one `c` only. -/
theorem splitOnce_fst_eq_rsplitOnce_fst_iff {c : Char} {s a b a' b' : String}
    (h : splitOnce c s = some (a, b)) (h' : rsplitOnce c s = some (a', b')) :
    a = a' ↔ s.toList.count c = 1 := by
  obtain ⟨hs, ha⟩ := splitOnce_eq_some_iff.mp h
  obtain ⟨hs', hb⟩ := rsplitOnce_eq_some_iff.mp h'
  constructor
  · rintro rfl
    have hn : a.toList.count c = 0 := List.count_eq_zero.mpr ha
    have hn' : b'.toList.count c = 0 := List.count_eq_zero.mpr hb
    rw [hs', List.count_append, List.count_cons_self, hn, hn']
  · intro hc
    rw [hs', List.count_append, List.count_cons_self] at hc
    have ha' : c ∉ a'.toList := List.count_eq_zero.mp (by omega)
    have he := splitOnce_eq_some_iff.mpr ⟨hs', ha'⟩
    rw [h] at he
    exact (Prod.mk.inj (Option.some.inj he)).1

/-- The string after a prefix. -/
def stripPrefix (p s : String) : Option String :=
  (p.toList.isPrefixOf? s.toList).map String.ofList

theorem stripPrefix_eq_some_iff {p s rest : String} :
    stripPrefix p s = some rest ↔ s = p ++ rest := by
  rw [stripPrefix, Option.map_eq_some_iff]
  constructor
  · rintro ⟨cs, h, rfl⟩
    apply String.toList_inj.mp
    rw [String.toList_append, String.toList_ofList]
    exact (List.isPrefixOf?_eq_some_iff_append_eq.mp h).symm
  · rintro rfl
    exact ⟨rest.toList, List.isPrefixOf?_eq_some_iff_append_eq.mpr (by simp), by simp⟩

theorem stripPrefix_append (p rest : String) : stripPrefix p (p ++ rest) = some rest :=
  stripPrefix_eq_some_iff.mpr rfl

/-- The string without the `c`s at its end. -/
def trimEndMatches (c : Char) (s : String) : String := String.ofList (s.toList.rdropWhile (· == c))

theorem trimEndMatches_of_not_mem {c : Char} {s : String} (h : c ∉ s.toList) :
    trimEndMatches c s = s := by
  have hr : s.toList.rdropWhile (· == c) = s.toList := by
    rw [List.rdropWhile_eq_self_iff]
    intro hne hc
    exact h (eq_of_beq hc ▸ List.getLast_mem hne)
  rw [trimEndMatches, hr, String.ofList_toList]

theorem trimEndMatches_append_replicate {c : Char} {cs : List Char} (h : c ∉ cs) (n : Nat) :
    trimEndMatches c (String.ofList (cs ++ List.replicate n c)) = String.ofList cs := by
  induction n with
  | zero =>
    rw [List.replicate_zero, List.append_nil]
    exact trimEndMatches_of_not_mem (by rwa [String.toList_ofList])
  | succ n ih =>
    have hd := List.rdropWhile_concat_pos (· == c) (cs ++ List.replicate n c) c (beq_self_eq_true c)
    rw [← ih, List.replicate_succ', ← List.append_assoc, trimEndMatches, trimEndMatches,
      String.toList_ofList, String.toList_ofList, hd]

/-- The string without the `c`s at its start. -/
def trimStartMatches (c : Char) (s : String) : String := String.ofList (s.toList.dropWhile (· == c))

/-- The string without the `c`s at its start and its end. -/
def trimMatches (c : Char) (s : String) : String :=
  String.ofList ((s.toList.dropWhile (· == c)).rdropWhile (· == c))

end OpenID4VP
