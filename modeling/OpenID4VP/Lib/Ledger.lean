import OpenID4VP.Lib.Calls

/-! # Tokens that are good for one time

A state may issue tokens, and may accept each of them once. What the books of a state say about
single calls is carried along every run of calls. Where tokens that are accepted are spent, no token
is accepted in two calls, and where only those are accepted that were issued, each one that is
accepted has been issued before. Neither needs the other. -/

namespace OpenID4VP

/-! ## Occurrences in a list -/

/-- Elements that are read as one value, where no value is read twice, are one element. -/
theorem eq_of_nodup_filterMap {f : α → Option τ} {xs : List α} {a b : α} {x : τ}
    (h : (xs.filterMap f).Nodup) (ha : a ∈ xs) (hb : b ∈ xs) (hfa : f a = some x)
    (hfb : f b = some x) : a = b := by
  induction xs with
  | nil => exact absurd ha List.not_mem_nil
  | cons y ys ih =>
    rcases List.mem_cons.mp ha with rfl | hay
    · rcases List.mem_cons.mp hb with rfl | hby
      · rfl
      · rw [List.filterMap_cons_some hfa, List.nodup_cons] at h
        exact absurd (List.mem_filterMap.mpr ⟨b, hby, hfb⟩) h.1
    · rcases List.mem_cons.mp hb with rfl | hby
      · rw [List.filterMap_cons_some hfb, List.nodup_cons] at h
        exact absurd (List.mem_filterMap.mpr ⟨a, hay, hfa⟩) h.1
      · refine ih (h.sublist ?_) hay hby
        exact (List.sublist_cons_self y ys).filterMap f

/-- An element that is not in the second part of a list cuts the first part. -/
theorem append_cons_eq_append {a : α} {xs ys xs' ys' : List α} (h : xs ++ a :: ys = xs' ++ ys')
    (ha : a ∉ ys') : ∃ zs, xs' = xs ++ a :: zs ∧ ys = zs ++ ys' := by
  rcases List.append_eq_append_iff.mp h with ⟨zs, hx, hy⟩ | ⟨zs, hx, hy⟩
  · cases zs with
    | nil => exact absurd (hy.subst List.mem_cons_self : a ∈ [] ++ ys') ha
    | cons z zs =>
      obtain ⟨rfl, rfl⟩ := List.cons_eq_cons.mp hy
      exact ⟨zs, hx, rfl⟩
  · rw [hy] at ha
    exact absurd (List.mem_append_right zs List.mem_cons_self) ha

/-- An element that is not before the last one of a list is the last one. -/
theorem append_cons_eq_concat {a b : α} {xs ys : List α} (zs : List α)
    (h : xs ++ a :: ys = zs ++ [b])
    (ha : a ∉ zs) : xs = zs ∧ a = b ∧ ys = [] := by
  rcases List.append_eq_append_iff.mp h with ⟨ws, rfl, hy⟩ | ⟨ws, rfl, hb⟩
  · cases ws with
    | nil =>
      obtain ⟨hab, hy⟩ := List.cons_eq_cons.mp hy
      exact ⟨(List.append_nil xs).symm, hab, hy⟩
    | cons w ws =>
      obtain ⟨rfl, -⟩ := List.cons_eq_cons.mp hy
      exact absurd (List.mem_append_right _ List.mem_cons_self) ha
  · cases ws with
    | nil =>
      obtain ⟨hab, hy⟩ := List.cons_eq_cons.mp hb
      exact ⟨List.append_nil zs, hab.symm, hy.symm⟩
    | cons w ws => exact absurd (List.cons_eq_cons.mp hb).2.symm (by simp)

/-! ## Tokens of calls -/

namespace Calls
variable {ι : Interface} {ω τ : Type}

/-- Which calls issue a token and which accept one. -/
structure Tokens (ι : Interface) (τ : Type) where
  issues : ι.Call → Option τ
  accepts : ι.Call → Option τ

/-! ### Tokens that are spent -/

/-- Every state has tokens that are spent. A call among these operations accepts a token only if it
is not spent, and spends it. -/
structure Spending (h : Handler ι ω) (tokens : Tokens ι τ) (ops : ι.Op → Prop) where
  spent : ω → τ → Prop
  spent_call : ∀ op s x, ops op → spent s x → spent (h op s).2 x
  accepts_call : ∀ op s x, ops op → tokens.accepts ⟨op, (h op s).1⟩ = some x →
    ¬spent s x ∧ spent (h op s).2 x

variable {h : Handler ι ω} {tokens : Tokens ι τ} {ops : ι.Op → Prop} {s s' : ω} {t : List ι.Call}

namespace Spending

/-- A token that is spent is not accepted any more. -/
theorem not_mem_of_spent (S : Spending h tokens ops) (ha : Answered h s t s')
    (ho : ∀ c ∈ t, ops c.op) {x : τ} (hx : S.spent s x) : x ∉ t.filterMap tokens.accepts := by
  induction ha with
  | nil => exact List.not_mem_nil
  | @cons op s s' cs _ ih =>
    rw [List.forall_mem_cons] at ho
    have hcs := ih ho.2 (S.spent_call _ _ x ho.1 hx)
    cases hc : tokens.accepts ⟨op, (h op s).1⟩ with
    | none => rwa [List.filterMap_cons_none hc]
    | some y =>
      rw [List.filterMap_cons_some hc, List.mem_cons, not_or]
      refine ⟨?_, hcs⟩
      rintro rfl
      exact (S.accepts_call _ _ x ho.1 hc).1 hx

/-- No token is accepted twice. -/
theorem nodup_accepts (S : Spending h tokens ops) (ha : Answered h s t s')
    (ho : ∀ c ∈ t, ops c.op) : (t.filterMap tokens.accepts).Nodup := by
  induction ha with
  | nil => exact List.nodup_nil
  | @cons op s s' cs hcs ih =>
    rw [List.forall_mem_cons] at ho
    cases hc : tokens.accepts ⟨op, (h op s).1⟩ with
    | none =>
      rw [List.filterMap_cons_none hc]
      exact ih ho.2
    | some x =>
      have hx := (S.accepts_call _ _ x ho.1 hc).2
      rw [List.filterMap_cons_some hc, List.nodup_cons]
      exact ⟨S.not_mem_of_spent hcs ho.2 hx, ih ho.2⟩

end Spending

/-! ### Tokens that are issued -/

/-- Every state has tokens that were issued. A call among these operations accepts only such a
token, and one that is new in a state is issued by the call before. -/
structure Issuing (h : Handler ι ω) (tokens : Tokens ι τ) (ops : ι.Op → Prop) where
  issued : ω → τ → Prop
  issued_call : ∀ op s x, ops op → issued (h op s).2 x →
    issued s x ∨ tokens.issues ⟨op, (h op s).1⟩ = some x
  accepts_call : ∀ op s x, ops op → tokens.accepts ⟨op, (h op s).1⟩ = some x → issued s x

namespace Issuing

/-- A token that is accepted was issued at first, or a call before has issued it. -/
theorem issued_before (I : Issuing h tokens ops) {before after : List ι.Call} {c : ι.Call}
    (ha : Answered h s (before ++ c :: after) s') (ho : ∀ c' ∈ before ++ c :: after, ops c'.op)
    {x : τ} (hx : tokens.accepts c = some x) :
    I.issued s x ∨ ∃ c' ∈ before, tokens.issues c' = some x := by
  induction before generalizing s with
  | nil =>
    cases ha with
    | cons => exact .inl (I.accepts_call _ _ x (ho _ List.mem_cons_self) hx)
  | cons b before ih =>
    rw [List.cons_append, List.forall_mem_cons] at ho
    rw [List.cons_append] at ha
    cases ha with
    | cons ha =>
      rcases ih ha ho.2 with hi | ⟨c', hc, hi⟩
      · rcases I.issued_call _ _ x ho.1 hi with hi | hi
        · exact .inl hi
        · exact .inr ⟨_, List.mem_cons_self, hi⟩
      · exact .inr ⟨c', List.mem_cons_of_mem _ hc, hi⟩

end Issuing
end Calls
end OpenID4VP
