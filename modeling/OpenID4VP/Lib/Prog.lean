/-! # Fallible programs

Success rules for computations that may fail (`Except`) and for programs that may also change a
state (`Prog`). A program that fails keeps the state it has reached: the effects made before the
failure stay. The rules are stated for success, so that a run can be taken apart step by step with
`obtain` and no caller ever unfolds a bind. -/

namespace OpenID4VP

/-! ## Computations that may fail -/

@[simp] theorem Except.bind_eq_ok_iff {x : Except ε α} {f : α → Except ε β} {b : β} :
    (x >>= f) = .ok b ↔ ∃ a, x = .ok a ∧ f a = .ok b := by
  cases x <;> simp [bind, Except.bind]

theorem Except.seq_eq_ok_iff {x : Except ε Unit} {y : Except ε α} {b : α} :
    (x >>= fun _ => y) = .ok b ↔ x = .ok () ∧ y = .ok b := by
  rw [Except.bind_eq_ok_iff]
  exact ⟨fun ⟨_, h⟩ => h, fun h => ⟨(), h⟩⟩

@[simp] theorem Except.pure_eq_ok_iff {a b : α} : (pure a : Except ε α) = .ok b ↔ a = b := by
  simp [pure, Except.pure]

@[simp] theorem Except.throw_ne_ok {e : ε} {a : α} : ¬(throw e : Except ε α) = .ok a := by
  simp [throw, throwThe, MonadExceptOf.throw]

@[simp] theorem Except.map_eq_ok_iff {x : Except ε α} {f : α → β} {b : β} :
    (f <$> x) = .ok b ↔ ∃ a, x = .ok a ∧ f a = b := by
  cases x <;> simp [Functor.map, Except.map]

@[simp] theorem Except.mapError_eq_ok_iff {x : Except ε α} {f : ε → ε'} {a : α} :
    x.mapError f = .ok a ↔ x = .ok a := by
  cases x with
  | ok b =>
    change Except.ok b = .ok a ↔ Except.ok b = .ok a
    rw [Except.ok.injEq, Except.ok.injEq]
  | error e => exact ⟨nofun, nofun⟩

/-- A computation fails where its first part fails, or else where the rest does. -/
theorem Except.bind_eq_error_iff {x : Except ε α} {f : α → Except ε β} {e : ε} :
    (x >>= f) = .error e ↔ x = .error e ∨ ∃ a, x = .ok a ∧ f a = .error e := by
  cases x <;> simp [bind, Except.bind]

@[simp] theorem Except.map_eq_error_iff {x : Except ε α} {f : α → β} {e : ε} :
    (f <$> x) = .error e ↔ x = .error e := by
  cases x <;> simp [Functor.map, Except.map]

theorem Except.mapError_eq_error_iff {x : Except ε α} {f : ε → ε'} {e : ε'} :
    x.mapError f = .error e ↔ ∃ e', x = .error e' ∧ f e' = e := by
  cases x with
  | ok a =>
    have hm : (Except.ok a).mapError f = .ok a := rfl
    simp [hm]
  | error e₁ =>
    have hm : (Except.error e₁ : Except ε α).mapError f = .error (f e₁) := rfl
    simp [hm]

@[simp] theorem Except.pure_ne_error {a : α} {e : ε} : ¬(pure a : Except ε α) = .error e := by
  simp [pure, Except.pure]

@[simp] theorem Except.throw_eq_error_iff {e e' : ε} :
    (throw e : Except ε α) = .error e' ↔ e = e' := by
  simp [throw, throwThe, MonadExceptOf.throw]

theorem Except.toOption_eq_some_iff {x : Except ε α} {a : α} :
    x.toOption = some a ↔ x = .ok a := by
  cases x <;> simp [Except.toOption]

theorem Except.exists_ok_iff {a : α} {P : α → Prop} :
    (∃ b, (Except.ok a : Except ε α) = .ok b ∧ P b) ↔ P a :=
  ⟨fun ⟨_, h, hp⟩ => Except.ok.inj h ▸ hp, fun hp => ⟨a, rfl, hp⟩⟩

/-- A traversal for its effects succeeds exactly when every step does. -/
theorem Except.forM_eq_ok_iff {xs : List α} {f : α → Except ε PUnit} :
    xs.forM f = .ok ⟨⟩ ↔ ∀ x ∈ xs, f x = .ok ⟨⟩ := by
  induction xs with
  | nil => simp [List.forM, pure, Except.pure]
  | cons x xs ih =>
    change (f x >>= fun _ => xs.forM f) = _ ↔ _
    rw [Except.bind_eq_ok_iff, List.forall_mem_cons, ← ih]
    exact ⟨fun ⟨_, h1, h2⟩ => ⟨h1, h2⟩, fun ⟨h1, h2⟩ => ⟨_, h1, h2⟩⟩

/-- A traversal has the result of the first element and those of the others. -/
theorem Except.mapM_cons_eq_ok_iff {f : α → Except ε β} {a : α} {as : List α} {bs : List β} :
    (a :: as).mapM f = .ok bs ↔ ∃ b bs', f a = .ok b ∧ as.mapM f = .ok bs' ∧ b :: bs' = bs := by
  rw [List.mapM_cons]
  simp only [Except.bind_eq_ok_iff, Except.pure_eq_ok_iff, exists_and_left]

/-- A traversal fails with the error of an element. -/
theorem Except.exists_of_mapM_eq_error {f : α → Except ε β} {xs : List α} {e : ε}
    (h : xs.mapM f = .error e) : ∃ x ∈ xs, f x = .error e := by
  induction xs with
  | nil => cases h
  | cons x xs ih =>
    rw [List.mapM_cons] at h
    cases hx : f x with
    | error e' =>
      rw [hx] at h
      cases h
      exact ⟨x, List.mem_cons_self, hx⟩
    | ok b =>
      rw [hx] at h
      cases hs : xs.mapM f with
      | error e' =>
        rw [hs] at h
        cases h
        obtain ⟨y, hy, he⟩ := ih hs
        exact ⟨y, List.mem_cons_of_mem x hy, he⟩
      | ok bs =>
        rw [hs] at h
        cases h

/-- What the errors of the elements are turned into makes no difference to success. -/
theorem Except.mapM_mapError_eq_ok_iff {f : α → Except ε β} {g : ε → ε'} {xs : List α}
    {bs : List β} : xs.mapM (fun x => (f x).mapError g) = .ok bs ↔ xs.mapM f = .ok bs := by
  induction xs generalizing bs with
  | nil => rw [List.mapM_nil, List.mapM_nil, Except.pure_eq_ok_iff, Except.pure_eq_ok_iff]
  | cons x xs ih =>
    rw [List.mapM_cons, List.mapM_cons]
    simp only [Except.bind_eq_ok_iff, Except.mapError_eq_ok_iff, Except.pure_eq_ok_iff, ih]

/-- A traversal that fails where an option is empty collects the contents of the options. -/
theorem Except.mapM_eq_ok_iff_map_some {f : α → Except ε β} {g : α → Option β}
    (h : ∀ a b, f a = .ok b ↔ g a = some b) {xs : List α} {ys : List β} :
    xs.mapM f = .ok ys ↔ xs.map g = ys.map some := by
  induction xs generalizing ys with
  | nil => cases ys <;> simp
  | cons x xs ih =>
    rw [Except.mapM_cons_eq_ok_iff, List.map_cons]
    simp only [h, ih]
    constructor
    · rintro ⟨y, ys, hy, hys, rfl⟩
      rw [hy, hys, List.map_cons]
    · intro hm
      cases ys with
      | nil => cases hm
      | cons y ys =>
        rw [List.map_cons, List.cons.injEq] at hm
        exact ⟨y, ys, hm.1, hm.2, rfl⟩

/-! ## Programs -/

/-- A program over states `ω` that fails with `ε` or returns an `α`. -/
def Prog (ω ε α : Type) : Type := ω → Except ε α × ω

namespace Prog
variable {ω ε α β : Type}

instance : Monad (Prog ω ε) where
  pure a := fun s => (.ok a, s)
  bind x f := fun s => match x s with
    | (.ok a, s') => f a s'
    | (.error e, s') => (.error e, s')

instance : MonadExceptOf ε (Prog ω ε) where
  throw e := fun s => (.error e, s)
  tryCatch x f := fun s => match x s with
    | (.ok a, s') => (.ok a, s')
    | (.error e, s') => f e s'

/-- A computation that leaves the state alone. -/
def ofExcept (x : Except ε α) : Prog ω ε α := fun s => (x, s)

/-- Run `x` for its outcome: a failure of `x` becomes a value. -/
def attempt (x : Prog ω ε α) : Prog ω ε' (Except ε α) := fun s => (.ok (x s).1, (x s).2)

/-- The program with its errors turned into others. -/
def mapError (f : ε → ε') (x : Prog ω ε α) : Prog ω ε' α := fun s =>
  ((x s).1.mapError f, (x s).2)

@[simp] theorem pure_apply {a : α} {s : ω} : (pure a : Prog ω ε α) s = (.ok a, s) := rfl

@[simp] theorem throw_apply {e : ε} {s : ω} : (throw e : Prog ω ε α) s = (.error e, s) := rfl

@[simp] theorem ofExcept_apply {x : Except ε α} {s : ω} :
    (ofExcept x : Prog ω ε α) s = (x, s) := rfl

theorem attempt_eq_iff {x : Prog ω ε α} {s s' : ω} {outcome : Except ε α} :
    (attempt x : Prog ω ε' (Except ε α)) s = (.ok outcome, s') ↔ x s = (outcome, s') := by
  simp [attempt, Prod.ext_iff]

@[simp] theorem mapError_eq_ok_iff {f : ε → ε'} {x : Prog ω ε α} {s s' : ω} {a : α} :
    mapError f x s = (.ok a, s') ↔ x s = (.ok a, s') := by
  simp [mapError, Prod.ext_iff]

theorem bind_apply {x : Prog ω ε α} {f : α → Prog ω ε β} {s : ω} :
    (x >>= f) s = match x s with
      | (.ok a, s') => f a s'
      | (.error e, s') => (.error e, s') := rfl

theorem bind_pure_id (x : Prog ω ε α) : (x >>= fun a => pure (id a)) = x := by
  funext s
  rw [bind_apply]
  rcases x s with ⟨_ | _, _⟩ <;> rfl

theorem bind_bind (x : Prog ω ε α) (f : α → Prog ω ε β) (g : β → Prog ω ε γ) :
    (x >>= f) >>= g = x >>= fun a => f a >>= g := by
  funext s
  simp only [bind_apply]
  rcases x s with ⟨_ | _, _⟩ <;> rfl

/-- Programs go on alike when they do from where the first part succeeds. -/
theorem bind_congr {x : Prog ω ε α} {f g : α → Prog ω ε β}
    (h : ∀ s a s', x s = (.ok a, s') → f a s' = g a s') : (x >>= f) = (x >>= g) := by
  funext s
  rw [bind_apply, bind_apply]
  rcases hx : x s with ⟨_ | a, s'⟩
  · rfl
  · exact h s a s' hx

theorem mapError_bind {f : ε → ε'} {x : Prog ω ε α} {g : α → Prog ω ε β} :
    mapError f (x >>= g) = mapError f x >>= fun a => mapError f (g a) := by
  funext s
  rw [mapError, bind_apply, bind_apply, mapError]
  rcases x s with ⟨_ | _, _⟩ <;> rfl

/-- Programs with other errors go on alike when they do with each value. -/
theorem mapError_bind_congr {f : ε → ε'} {x : Prog ω ε α} {g : α → Prog ω ε β}
    {g' : α → Prog ω ε' β} (h : ∀ a, g' a = mapError f (g a)) :
    (mapError f x >>= g') = mapError f (x >>= g) := by
  rw [mapError_bind]
  exact congrArg (mapError f x >>= ·) (funext h)

instance : LawfulMonad (Prog ω ε) :=
  .mk' _ (fun x => bind_pure_id x) (fun _ _ => rfl) fun x f g => bind_bind x f g

@[simp] theorem ofExcept_ok_bind {a : α} {f : α → Prog ω ε β} :
    (ofExcept (.ok a) >>= f) = f a := rfl

theorem state_ofExcept_bind_pure {x : Except ε α} {f : α → β} {s : ω} :
    ((ofExcept x >>= fun a => pure (f a)) s).2 = s := by
  cases x <;> rfl

/-- A step that does not touch the state at the end leaves it as it is there. -/
theorem state_bind_ofExcept {x : Prog ω ε α} {f : α → Except ε β} {s : ω} :
    ((x >>= fun a => ofExcept (f a)) s).2 = (x s).2 := by
  rw [bind_apply]
  rcases x s with ⟨_ | _, _⟩ <;> rfl

theorem bind_apply_ok {x : Prog ω ε α} {f : α → Prog ω ε β} {s s' : ω} {a : α}
    (h : x s = (.ok a, s')) : (x >>= f) s = f a s' := by
  rw [bind_apply, h]

/-- A sequence succeeds exactly when its first part does and the rest succeeds from there. -/
theorem bind_eq_ok_iff {x : Prog ω ε α} {f : α → Prog ω ε β} {s s' : ω} {b : β} :
    (x >>= f) s = (.ok b, s') ↔ ∃ a s₁, x s = (.ok a, s₁) ∧ f a s₁ = (.ok b, s') := by
  rw [bind_apply]
  rcases x s with ⟨_ | a, s₁⟩
  · simp
  · refine ⟨fun h => ⟨a, s₁, rfl, h⟩, fun ⟨_, _, h, h'⟩ => ?_⟩
    cases h
    exact h'

@[simp] theorem pure_eq_ok_iff {a b : α} {s s' : ω} :
    (pure a : Prog ω ε α) s = (.ok b, s') ↔ a = b ∧ s = s' := by
  simp

theorem ofExcept_bind_eq_ok_iff {x : Except ε α} {f : α → Prog ω ε β} {s s' : ω} {b : β} :
    (ofExcept x >>= f) s = (.ok b, s') ↔ ∃ a, x = .ok a ∧ f a s = (.ok b, s') := by
  rw [bind_apply, ofExcept_apply]
  cases x <;> simp

/-! ### Programs that succeed from everywhere -/

/-- The program succeeds from every state once it succeeds from one. -/
def Uniform (x : Prog ω ε α) : Prop :=
  ∀ s a s', x s = (.ok a, s') → ∀ t, ∃ b t', x t = (.ok b, t')

theorem uniform_pure {a : α} : Uniform (pure a : Prog ω ε α) := fun _ _ _ _ t => ⟨a, t, rfl⟩

theorem uniform_throw {e : ε} : Uniform (throw e : Prog ω ε α) := fun _ _ _ h => by cases h

theorem uniform_ofExcept_bind {x : Except ε α} {f : α → Prog ω ε β} (h : ∀ a, Uniform (f a)) :
    Uniform (ofExcept x >>= f) := by
  intro s b s' hs t
  obtain ⟨a, rfl, hf⟩ := ofExcept_bind_eq_ok_iff.mp hs
  exact h a s b s' hf t

/-- The program may go on with any value of the first part. -/
theorem Uniform.bind {x : Prog ω ε α} {f : α → Prog ω ε β} (hx : Uniform x)
    (hf : ∀ a s b s', f a s = (.ok b, s') → ∀ a' t, ∃ b' t', f a' t = (.ok b', t')) :
    Uniform (x >>= f) := by
  intro s b s' hs t
  obtain ⟨a, s₁, ha, hb⟩ := bind_eq_ok_iff.mp hs
  obtain ⟨a', t₁, ha'⟩ := hx s a s₁ ha t
  rw [bind_apply_ok ha']
  exact hf a s₁ b s' hb a' t₁

end Prog

/-! ## Recorded calls -/

/-- A state, and the list of the calls that were made on it. -/
structure Recorded (σ κ : Type) where
  state : σ
  log : List κ

/-- Run a method on the state and record the call with its outcome. -/
def record (call : Except ε α → κ) (method : Prog σ ε α) : Prog (Recorded σ κ) ε α := fun w =>
  let (outcome, state) := method w.state
  (outcome, ⟨state, w.log ++ [call outcome]⟩)

theorem record_apply {call : Except ε α → κ} {method : Prog σ ε α} {w : Recorded σ κ} :
    record call method w =
      ((method w.state).1, ⟨(method w.state).2, w.log ++ [call (method w.state).1]⟩) := rfl

/-- The call that a recorded method has returned from is in the log, with its outcome. -/
theorem mem_log_of_record {call : Except ε α → κ} {method : Prog σ ε α} {w w' : Recorded σ κ}
    {outcome : Except ε α} (h : record call method w = (outcome, w')) : call outcome ∈ w'.log := by
  rw [record_apply, Prod.mk.injEq] at h
  obtain ⟨rfl, rfl⟩ := h
  exact List.mem_append_right _ List.mem_cons_self

/-! ## Growing lists -/

/-- The list has grown at its end, by elements that look like `ys` through `f`. -/
def Grows (f : β → γ) (s s' : List β) (ys : List γ) : Prop :=
  ∃ new, s' = s ++ new ∧ new.map f = ys

namespace Grows

theorem refl {f : β → γ} {s : List β} : Grows f s s [] := ⟨[], by simp⟩

theorem push {f : β → γ} {s : List β} {b : β} : Grows f s (s ++ [b]) [f b] := ⟨[b], by simp⟩

theorem trans {f : β → γ} {s s' s'' : List β} {ys zs : List γ} (h : Grows f s s' ys)
    (h' : Grows f s' s'' zs) : Grows f s s'' (ys ++ zs) := by
  obtain ⟨new, rfl, rfl⟩ := h
  obtain ⟨new', rfl, rfl⟩ := h'
  exact ⟨new ++ new', by simp⟩

theorem eq_of_nil {f : β → γ} {s s' : List β} (h : Grows f s s' []) : s' = s := by
  obtain ⟨new, rfl, h⟩ := h
  rw [List.map_eq_nil_iff.mp h, List.append_nil]

/-- What a list has grown to from nothing. -/
theorem map_eq {f : β → γ} {s' : List β} {ys : List γ} (h : Grows f [] s' ys) :
    s'.map f = ys := by
  obtain ⟨new, rfl, rfl⟩ := h
  simp

end Grows

namespace Prog
variable {ε α β γ : Type}

/-- Wherever it starts, the program adds to the list what `x` gives, or fails as `x` does. -/
structure Appends (x : Except ε (List γ)) (p : Prog (List γ) ε α) : Prop where
  ok : x = .ok new → ∀ s, ∃ a, p s = (.ok a, s ++ new)
  error : x = .error e → ∀ s, ∃ s', p s = (.error e, s')

namespace Appends
variable {x y : Except ε (List γ)} {p : Prog (List γ) ε α} {q : α → Prog (List γ) ε β}

theorem «pure» {a : α} : Appends (.ok []) (Pure.pure a : Prog (List γ) ε α) where
  ok h s := by
    cases h
    exact ⟨a, by simp⟩
  error h := by cases h

theorem «throw» {e : ε} : Appends (.error e) (MonadExcept.throw e : Prog (List γ) ε α) where
  ok h := by cases h
  error h s := by
    cases h
    exact ⟨s, rfl⟩

/-- A program that goes on with whatever was returned adds the one and then the other. -/
theorem bind (hp : Appends x p) (hq : ∀ a, Appends y (q a)) :
    Appends (do return (← x) ++ (← y)) (p >>= q) where
  ok h s := by
    obtain ⟨xs, hx, h⟩ := Except.bind_eq_ok_iff.mp h
    obtain ⟨ys, hy, h⟩ := Except.bind_eq_ok_iff.mp h
    obtain rfl := Except.pure_eq_ok_iff.mp h
    obtain ⟨a, ha⟩ := hp.ok hx s
    obtain ⟨b, hb⟩ := (hq a).ok hy (s ++ xs)
    exact ⟨b, by rw [bind_apply_ok ha, hb, List.append_assoc]⟩
  error h s := by
    rcases Except.bind_eq_error_iff.mp h with hx | ⟨xs, hx, h⟩
    · obtain ⟨s', hs⟩ := hp.error hx s
      exact ⟨s', by rw [bind_apply, hs]⟩
    · obtain ⟨a, ha⟩ := hp.ok hx s
      rcases Except.bind_eq_error_iff.mp h with hy | ⟨ys, -, h⟩
      · obtain ⟨s', hs⟩ := (hq a).error hy (s ++ xs)
        exact ⟨s', by rw [bind_apply_ok ha, hs]⟩
      · cases h

/-- What is returned at the end makes no difference. -/
theorem bind_pure (hp : Appends x p) {f : α → β} :
    Appends x (p >>= fun a => Pure.pure (f a)) where
  ok h s := by
    obtain ⟨a, ha⟩ := hp.ok h s
    exact ⟨f a, by rw [bind_apply_ok ha, pure_apply]⟩
  error h s := by
    obtain ⟨s', hs⟩ := hp.error h s
    exact ⟨s', by rw [bind_apply, hs]⟩

theorem ofExcept_bind {z : Except ε α} {f : α → Except ε (List γ)}
    (h : ∀ a, z = .ok a → Appends (f a) (q a)) : Appends (z >>= f) (Prog.ofExcept z >>= q) := by
  cases z with
  | ok a => exact h a rfl
  | error e => exact .throw

end Appends
end Prog
end OpenID4VP
