import Mathlib.Data.List.Basic
import Mathlib.Data.List.Perm.Basic
import Mathlib.Data.List.Flatten
import Mathlib.Tactic.Common

/-! # Forests in growing lists

A list of nodes grows at its end, and every node holds the indices of its children, which are in
the list before it. What was added is a forest when each new index is once a root or a child of a
new node. `Forest` is kept by the three ways to grow one: nothing is added, a node is added over
all the roots, and two forests stand one after the other. -/

namespace OpenID4VP

/-! ## The one place of an element -/

/-- What stands once in all the lists together stands once in one of them, and in no other. -/
theorem exists_unique_of_count_flatMap [DecidableEq β] {f : α → List β} {xs : List α} {b : β}
    (h : (xs.flatMap f).count b = 1) : ∃ (j : Nat) (x : α), xs[j]? = some x ∧ (f x).count b = 1 ∧
      ∀ (j' : Nat) (x' : α), xs[j']? = some x' → j' ≠ j → b ∉ f x' := by
  induction xs with
  | nil => exact absurd h (by simp)
  | cons y ys ih =>
    rw [List.flatMap_cons, List.count_append] at h
    by_cases hy : (f y).count b = 0
    · rw [hy, Nat.zero_add] at h
      obtain ⟨j, x, hx, hc, hu⟩ := ih h
      refine ⟨j + 1, x, hx, hc, ?_⟩
      intro j' x' hx' hne
      cases j' with
      | zero =>
        obtain rfl : y = x' := Option.some.inj hx'
        exact List.count_eq_zero.mp hy
      | succ j' => exact hu j' x' hx' (by omega)
    · have hs : (ys.flatMap f).count b = 0 := by omega
      refine ⟨0, y, rfl, by omega, ?_⟩
      intro j' x' hx' hne
      cases j' with
      | zero => exact absurd rfl hne
      | succ j' =>
        intro hb
        have hm : b ∈ ys.flatMap f := List.mem_flatMap.mpr ⟨x', List.mem_of_getElem? hx', hb⟩
        exact List.count_eq_zero.mp hs hm

/-! ## Forests -/

/-- The nodes `new` are added to a list of `n` nodes. Every new index is once a root or a child, and
children stand before their parents. -/
structure Forest (children : ν → List Nat) (n : Nat) (roots : List Nat) (new : List ν) : Prop where
  perm : (roots ++ new.flatMap children).Perm (List.range' n new.length)
  lt : ∀ {j : Nat} {node i}, new[j]? = some node → i ∈ children node → i < n + j

namespace Forest
variable {children : ν → List Nat} {n : Nat} {roots : List Nat} {new : List ν}

theorem refl : Forest children n [] [] := ⟨.refl _, by simp⟩

/-- A node over all the roots. -/
theorem push (h : Forest children n roots new) {node : ν} (hr : (children node).Perm roots) :
    Forest children n [n + new.length] (new ++ [node]) where
  perm := by
    have hp : (new.flatMap children ++ children node).Perm (List.range' n new.length) :=
      ((List.perm_append_comm.trans (hr.append_right _)).trans h.perm)
    rw [List.flatMap_append, List.flatMap_singleton, List.length_append, List.length_singleton,
      List.range'_concat, Nat.one_mul]
    exact List.perm_append_comm.trans (hp.append_right _)
  lt := by
    intro j node' i hj hi
    rcases Nat.lt_or_ge j new.length with hlt | hge
    · rw [List.getElem?_append_left hlt] at hj
      exact h.lt hj hi
    · rw [List.getElem?_append_right hge, List.getElem?_singleton] at hj
      split at hj
      · next hz =>
        obtain rfl := Option.some.inj hj
        have hroot : i ∈ roots := hr.mem_iff.mp hi
        have hm := h.perm.mem_iff.mp (List.mem_append_left _ hroot)
        rw [List.mem_range'_1] at hm
        omega
      · cases hj

/-- One forest after the other. -/
theorem append (h : Forest children n roots new) {roots' : List Nat} {new' : List ν}
    (h' : Forest children (n + new.length) roots' new') :
    Forest children n (roots ++ roots') (new ++ new') where
  perm := by
    rw [List.perm_iff_count]
    intro i
    have hi := h.perm.count_eq i
    have hi' := h'.perm.count_eq i
    rw [List.count_append] at hi hi'
    rw [List.length_append, ← List.range'_append_1, List.flatMap_append, List.count_append,
      List.count_append, List.count_append, List.count_append]
    omega
  lt := by
    intro j node i hj hi
    rcases Nat.lt_or_ge j new.length with hlt | hge
    · rw [List.getElem?_append_left hlt] at hj
      exact h.lt hj hi
    · rw [List.getElem?_append_right hge] at hj
      have hb := h'.lt hj hi
      omega

/-! ## The place of an index -/

theorem mem_roots (h : Forest children n roots new) {i : Nat} (hi : i ∈ roots) :
    n ≤ i ∧ i < n + new.length :=
  List.mem_range'_1.mp (h.perm.mem_iff.mp (List.mem_append_left _ hi))

theorem nodup_roots (h : Forest children n roots new) : roots.Nodup :=
  (List.nodup_append.mp (h.perm.nodup_iff.mpr List.nodup_range')).1

/-- A root is no child of a new node. -/
theorem not_mem_children (h : Forest children n roots new) {i : Nat} (hi : i ∈ roots) {node : ν}
    (hn : node ∈ new) : i ∉ children node := by
  intro hc
  have hd := (List.nodup_append.mp (h.perm.nodup_iff.mpr List.nodup_range')).2.2
  exact hd i hi i (List.mem_flatMap.mpr ⟨node, hn, hc⟩) rfl

/-- A new index that is no root is once a child of one new node, and of no other. -/
theorem exists_parent (h : Forest children n roots new) {i : Nat} (hn : n ≤ i)
    (hl : i < n + new.length) (hi : i ∉ roots) : ∃ (j : Nat) (node : ν), new[j]? = some node ∧
      i < n + j ∧ (children node).count i = 1 ∧
      ∀ (j' : Nat) (node' : ν), new[j']? = some node' → j' ≠ j → i ∉ children node' := by
  have hone : (roots ++ new.flatMap children).count i = 1 := by
    have hm : i ∈ List.range' n new.length := List.mem_range'_1.mpr ⟨hn, hl⟩
    rw [h.perm.count_eq, List.Nodup.count List.nodup_range', if_pos hm]
  rw [List.count_append, List.count_eq_zero.mpr hi, Nat.zero_add] at hone
  obtain ⟨j, node, hj, hc, hu⟩ := exists_unique_of_count_flatMap hone
  have hm : i ∈ children node := List.count_pos_iff.mp (by omega)
  exact ⟨j, node, hj, h.lt hj hm, hc, hu⟩

end Forest
end OpenID4VP
