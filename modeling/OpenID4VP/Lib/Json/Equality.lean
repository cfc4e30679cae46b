import OpenID4VP.Lib.Serde

/-! # Equality of values

Values are equal as maps: the order of the members of an object does not count, and a zero has no
sign. On values the relation is an equivalence (`Value.same_equivalence`). -/

namespace OpenID4VP

def Number.same : Number → Number → Bool
  | .float neg digits exponent, .float neg' digits' exponent' =>
    (neg == neg' && digits == digits' && exponent == exponent') || (digits == 0 && digits' == 0)
  | n, n' => n == n'

theorem Number.same_refl (n : Number) : n.same n = true := by
  cases n <;> simp [same]

theorem Number.same_symm {n n' : Number} (h : n.same n' = true) : n'.same n = true := by
  cases n <;> cases n' <;> simp only [same, Bool.or_eq_true, Bool.and_eq_true, beq_iff_eq] at h ⊢
  case float.float =>
    rcases h with ⟨⟨rfl, rfl⟩, rfl⟩ | ⟨h, h'⟩
    · exact .inl ⟨⟨rfl, rfl⟩, rfl⟩
    · exact .inr ⟨h', h⟩
  all_goals exact h.symm

theorem Number.same_trans {n n' n'' : Number} (h : n.same n' = true) (h' : n'.same n'' = true) :
    n.same n'' = true := by
  cases n <;> cases n' <;> cases n'' <;>
    simp only [same, Bool.or_eq_true, Bool.and_eq_true, beq_iff_eq, reduceCtorEq] at h h' ⊢
  case float.float.float =>
    rcases h with ⟨⟨rfl, rfl⟩, rfl⟩ | ⟨h, hd⟩
    · exact h'
    · rcases h' with ⟨⟨-, rfl⟩, -⟩ | ⟨-, h'⟩
      · exact .inr ⟨h, hd⟩
      · exact .inr ⟨h, h'⟩
  all_goals exact h.trans h'

namespace Json

mutual
def same : Json → Json → Bool
  | .null, .null => true
  | .bool b, .bool b' => b == b'
  | .number n, .number n' => n.same n'
  | .string s, .string s' => s == s'
  | .array xs, .array ys => sameList xs ys
  | .object ms, .object ns => ms.length == ns.length && sameMembers ms ns
  | _, _ => false

def sameList : List Json → List Json → Bool
  | [], [] => true
  | x :: xs, y :: ys => same x y && sameList xs ys
  | _, _ => false

/-- Every member has one with its key and its value on the other side. -/
def sameMembers : List (String × Json) → List (String × Json) → Bool
  | [], _ => true
  | (k, x) :: ms, ns => (match ns.lookup k with
    | some y => same x y
    | none => false) && sameMembers ms ns
end

theorem sameMembers_iff {ms ns : List (String × Json)} :
    sameMembers ms ns = true ↔
      ∀ m ∈ ms, ∃ y, ns.lookup m.1 = some y ∧ same m.2 y = true := by
  induction ms with
  | nil => simp [sameMembers]
  | cons m ms ih =>
    rw [sameMembers, Bool.and_eq_true, ih, List.forall_mem_cons]
    refine and_congr_left fun _ => ?_
    cases ns.lookup m.1 <;> simp

/-- The objects have the same keys, with the same values. -/
def Agree (ms ns : List (String × Json)) : Prop :=
  ∀ k, Option.Rel (fun x y => same x y = true) (ms.lookup k) (ns.lookup k)

theorem Agree.mem_keys_iff {ms ns : List (String × Json)} (h : Agree ms ns) (k : String) :
    k ∈ Members.keys ms ↔ k ∈ Members.keys ns := by
  rw [← not_iff_not, ← Members.lookup_eq_none_iff, ← Members.lookup_eq_none_iff]
  have hk := h k
  cases hm : ms.lookup k <;> cases hn : ns.lookup k <;> rw [hm, hn] at hk <;> simp <;> cases hk

theorem same_object_iff {ms ns : List (String × Json)} (hm : (Members.keys ms).Nodup)
    (hn : (Members.keys ns).Nodup) :
    same (.object ms) (.object ns) = true ↔ Agree ms ns := by
  rw [same, Bool.and_eq_true, beq_iff_eq, sameMembers_iff]
  constructor
  · rintro ⟨hl, h⟩ k
    have hsub : Members.keys ms ⊆ Members.keys ns := by
      intro k hk
      obtain ⟨m, hm, rfl⟩ := List.mem_map.mp hk
      obtain ⟨y, hy, -⟩ := h m hm
      exact List.mem_map.mpr ⟨_, Members.mem_of_lookup_eq_some hy, rfl⟩
    have hp : (Members.keys ms).Perm (Members.keys ns) :=
      (List.subperm_of_subset hm hsub).perm_of_length_le (by simp [Members.keys, hl])
    cases hk : ms.lookup k with
    | some x =>
      obtain ⟨y, hy, hs⟩ := h (k, x) (Members.mem_of_lookup_eq_some hk)
      rw [hy]
      exact .some hs
    | none =>
      have hk' : ns.lookup k = none := by
        rw [Members.lookup_eq_none_iff] at hk ⊢
        exact fun h => hk (hp.mem_iff.mpr h)
      rw [hk']
      exact .none
  · intro h
    have hp : (Members.keys ms).Perm (Members.keys ns) :=
      (List.perm_ext_iff_of_nodup hm hn).mpr h.mem_keys_iff
    refine ⟨by simpa [Members.keys] using hp.length_eq, fun m hmem => ?_⟩
    have hk := h m.1
    rw [(Members.lookup_eq_some_iff hm).mpr hmem] at hk
    cases hy : ns.lookup m.1 with
    | none =>
      rw [hy] at hk
      cases hk
    | some y =>
      rw [hy] at hk
      cases hk with
      | some hs => exact ⟨y, rfl, hs⟩

/-! ## Symmetry -/

mutual
theorem same_symm : ∀ {x y : Json}, wellFormed x = true → wellFormed y = true →
    same x y = true → same y x = true
  | .null, y, _, _, h => by cases y <;> simp [same] at h ⊢
  | .bool _, y, _, _, h => by
    cases y <;> simp only [same, Bool.false_eq_true, beq_iff_eq] at h ⊢
    exact h.symm
  | .number _, y, _, _, h => by
    cases y <;> simp only [same, Bool.false_eq_true] at h ⊢
    exact Number.same_symm h
  | .string _, y, _, _, h => by
    cases y <;> simp only [same, Bool.false_eq_true, beq_iff_eq] at h ⊢
    exact h.symm
  | .array xs, y, hx, hy, h => by
    cases y <;> simp only [same, Bool.false_eq_true] at h ⊢
    exact sameList_symm hx hy h
  | .object ms, y, hx, hy, h => by
    cases y with
    | object ns =>
      obtain ⟨hm, hwm⟩ := wellFormed_object.mp hx
      obtain ⟨hn, hwn⟩ := wellFormed_object.mp hy
      have ha := (same_object_iff hm hn).mp h
      refine (same_object_iff hn hm).mpr fun k => ?_
      have hk := ha k
      cases hlm : ms.lookup k <;> cases hln : ns.lookup k <;> rw [hlm, hln] at hk
      · exact .none
      · cases hk
      · cases hk
      · cases hk with
        | some hs =>
          have hmem := Members.mem_of_lookup_eq_some hlm
          have hmem' := Members.mem_of_lookup_eq_some hln
          exact .some (same_symm_members ms _ hmem (hwm _ hmem) (hwn _ hmem') hs)
    | _ => simp [same] at h

theorem sameList_symm : ∀ {xs ys : List Json}, wellFormedList xs = true →
    wellFormedList ys = true → sameList xs ys = true → sameList ys xs = true
  | [], ys, _, _, h => by cases ys <;> simp [sameList] at h ⊢
  | x :: xs, ys, hx, hy, h => by
    cases ys with
    | nil => simp [sameList] at h
    | cons y ys =>
      simp only [sameList, wellFormedList, Bool.and_eq_true] at h hx hy ⊢
      exact ⟨same_symm hx.1 hy.1 h.1, sameList_symm hx.2 hy.2 h.2⟩

theorem same_symm_members : ∀ ms : List (String × Json), ∀ m ∈ ms, ∀ {y : Json},
    wellFormed m.2 = true → wellFormed y = true → same m.2 y = true → same y m.2 = true
  | [] => by simp
  | (k, x) :: ms => by
    rw [List.forall_mem_cons]
    exact ⟨fun hx hy h => same_symm hx hy h, same_symm_members ms⟩
end

/-! ## Transitivity -/

mutual
theorem same_trans : ∀ {x y z : Json}, wellFormed x = true → wellFormed y = true →
    wellFormed z = true → same x y = true → same y z = true → same x z = true
  | .null, y, z, _, _, _, h, h' => by
    cases y <;> simp only [same, Bool.false_eq_true] at h
    exact h'
  | .bool _, y, z, _, _, _, h, h' => by
    cases y <;> simp only [same, Bool.false_eq_true, beq_iff_eq] at h
    exact h ▸ h'
  | .number _, y, z, _, _, _, h, h' => by
    cases y <;> simp only [same, Bool.false_eq_true] at h
    cases z <;> simp only [same, Bool.false_eq_true] at h' ⊢
    exact Number.same_trans h h'
  | .string _, y, z, _, _, _, h, h' => by
    cases y <;> simp only [same, Bool.false_eq_true, beq_iff_eq] at h
    exact h ▸ h'
  | .array xs, y, z, hx, hy, hz, h, h' => by
    cases y <;> simp only [same, Bool.false_eq_true] at h
    cases z <;> simp only [same, Bool.false_eq_true] at h' ⊢
    exact sameList_trans hx hy hz h h'
  | .object ms, y, z, hx, hy, hz, h, h' => by
    cases y <;> simp only [same, Bool.false_eq_true] at h
    next ns =>
      cases z <;> simp only [same, Bool.false_eq_true] at h'
      next ls =>
        obtain ⟨hm, hwm⟩ := wellFormed_object.mp hx
        obtain ⟨hn, hwn⟩ := wellFormed_object.mp hy
        obtain ⟨hl, hwl⟩ := wellFormed_object.mp hz
        have ha := (same_object_iff hm hn).mp (by rw [same]; exact h)
        have ha' := (same_object_iff hn hl).mp (by rw [same]; exact h')
        refine (same_object_iff hm hl).mpr fun k => ?_
        have hk := ha k
        have hk' := ha' k
        cases hlm : ms.lookup k <;> cases hln : ns.lookup k <;> cases hll : ls.lookup k <;>
          rw [hlm, hln] at hk <;> rw [hln, hll] at hk' <;> cases hk <;> cases hk'
        case none.none.none => exact .none
        case some.some.some hs hs' =>
          have hmem := Members.mem_of_lookup_eq_some hlm
          exact .some (same_trans_members ms _ hmem (hwm _ hmem)
            (hwn _ (Members.mem_of_lookup_eq_some hln)) (hwl _ (Members.mem_of_lookup_eq_some hll))
            hs hs')

theorem sameList_trans : ∀ {xs ys zs : List Json}, wellFormedList xs = true →
    wellFormedList ys = true → wellFormedList zs = true → sameList xs ys = true →
    sameList ys zs = true → sameList xs zs = true
  | [], ys, zs, _, _, _, h, h' => by
    cases ys <;> simp only [sameList, Bool.false_eq_true] at h
    exact h'
  | x :: xs, ys, zs, hx, hy, hz, h, h' => by
    cases ys with
    | nil => simp [sameList] at h
    | cons y ys =>
      cases zs with
      | nil => simp [sameList] at h'
      | cons z zs =>
        simp only [sameList, wellFormedList, Bool.and_eq_true] at h h' hx hy hz ⊢
        exact ⟨same_trans hx.1 hy.1 hz.1 h.1 h'.1, sameList_trans hx.2 hy.2 hz.2 h.2 h'.2⟩

theorem same_trans_members : ∀ ms : List (String × Json), ∀ m ∈ ms, ∀ {y z : Json},
    wellFormed m.2 = true → wellFormed y = true → wellFormed z = true → same m.2 y = true →
    same y z = true → same m.2 z = true
  | [] => by simp
  | (k, x) :: ms => by
    rw [List.forall_mem_cons]
    exact ⟨fun hx hy hz h h' => same_trans hx hy hz h h', same_trans_members ms⟩
end

/-! ## Reflexivity -/

mutual
theorem same_refl : ∀ {x : Json}, wellFormed x = true → same x x = true
  | .null, _ | .bool _, _ | .string _, _ => by simp [same]
  | .number n, _ => n.same_refl
  | .array xs, h => (sameList_refl h : sameList xs xs = true)
  | .object ms, h => by
    obtain ⟨hn, hw⟩ := wellFormed_object.mp h
    refine (same_object_iff hn hn).mpr fun k => ?_
    cases hk : ms.lookup k with
    | none => exact .none
    | some x =>
      have hmem := Members.mem_of_lookup_eq_some hk
      exact .some (same_refl_members ms _ hmem (hw _ hmem))

theorem sameList_refl : ∀ {xs : List Json}, wellFormedList xs = true → sameList xs xs = true
  | [], _ => rfl
  | x :: xs, h => by
    simp only [sameList, wellFormedList, Bool.and_eq_true] at h ⊢
    exact ⟨same_refl h.1, sameList_refl h.2⟩

theorem same_refl_members : ∀ ms : List (String × Json), ∀ m ∈ ms,
    wellFormed m.2 = true → same m.2 m.2 = true
  | [] => by simp
  | (k, x) :: ms => by
    rw [List.forall_mem_cons]
    exact ⟨fun h => same_refl h, same_refl_members ms⟩
end

end Json

/-! ## Values -/

def Value.same (v w : Value) : Bool := v.tree.same w.tree

theorem Value.same_equivalence : Equivalence fun v w : Value => v.same w = true where
  refl v := Json.same_refl v.wf
  symm {v w} := Json.same_symm v.wf w.wf
  trans {v w u} := Json.same_trans v.wf w.wf u.wf

theorem Value.same_comm (v w : Value) : v.same w = w.same v :=
  Bool.eq_iff_iff.mpr ⟨same_equivalence.symm, same_equivalence.symm⟩

end OpenID4VP
