import Mathlib.Logic.Function.Basic
import OpenID4VP.Lib.Prog

/-! # Programs that make calls

A program over an interface makes calls, one after the other, and goes on with their answers. Alone
on a state it runs to its end (`run`). Side by side with others it waits at every call, and the
others change the state meanwhile (`Pool`). What it has called and been answered is a trace of the
program either way, so what is shown of the traces of a program holds of it under every schedule. -/

namespace OpenID4VP

/-- Operations, each with the type of its answers. -/
structure Interface where
  Op : Type
  Answer : Op → Type

/-- A call with its answer. -/
structure Interface.Call (ι : Interface) where
  op : ι.Op
  answer : ι.Answer op

/-- A program that calls the operations of an interface, and fails with `ε` or returns an `α`. -/
inductive Calls (ι : Interface) (ε α : Type)
  | done (outcome : Except ε α)
  | call (op : ι.Op) (next : ι.Answer op → Calls ι ε α)

namespace Calls
variable {ι : Interface} {ε ε' α β : Type}

def bind : Calls ι ε α → (α → Calls ι ε β) → Calls ι ε β
  | done (.ok a), f => f a
  | done (.error e), _ => done (.error e)
  | call op next, f => call op fun answer => (next answer).bind f

instance : Monad (Calls ι ε) where
  pure a := done (.ok a)
  bind := bind

/-- Run `p` for its outcome: a failure of `p` becomes a value. -/
def attempt : Calls ι ε α → Calls ι ε' (Except ε α)
  | done outcome => done (.ok outcome)
  | call op next => call op fun answer => (next answer).attempt

/-- The program with its errors turned into others. -/
def mapError (f : ε → ε') : Calls ι ε α → Calls ι ε' α
  | done outcome => done (outcome.mapError f)
  | call op next => call op fun answer => (next answer).mapError f

/-! ## Traces -/

/-- The program makes these calls, is given these answers, and has come to `q` then. -/
inductive Reaches : Calls ι ε α → List ι.Call → Calls ι ε α → Prop
  | refl : Reaches p [] p
  | call {next : ι.Answer op → Calls ι ε α} (h : Reaches (next answer) t q) :
    Reaches (call op next) (⟨op, answer⟩ :: t) q

/-- The program makes these calls and has the outcome after the last one. -/
def Finishes (p : Calls ι ε α) (t : List ι.Call) (outcome : Except ε α) : Prop :=
  p.Reaches t (done outcome)

/-- The program makes these calls, and may make more. -/
def Does (p : Calls ι ε α) (t : List ι.Call) : Prop := ∃ q, p.Reaches t q

variable {p p' q : Calls ι ε α} {t t' : List ι.Call} {x y : Except ε α}

theorem Reaches.trans (h : p.Reaches t p') (h' : p'.Reaches t' q) : p.Reaches (t ++ t') q := by
  induction h with
  | refl => exact h'
  | call _ ih => exact .call (ih h')

/-- One more call. -/
theorem Reaches.concat {op : ι.Op} {next : ι.Answer op → Calls ι ε α}
    (h : p.Reaches t (.call op next)) (answer : ι.Answer op) :
    p.Reaches (t ++ [⟨op, answer⟩]) (next answer) :=
  h.trans (.call .refl)

theorem reaches_done_iff : (done x).Reaches t q ↔ t = [] ∧ q = done x := by
  constructor
  · intro h
    cases h
    exact ⟨rfl, rfl⟩
  · rintro ⟨rfl, rfl⟩
    exact .refl

/-- The calls and their answers determine what a program has come to. -/
theorem Reaches.eq (h : p.Reaches t q) (h' : p.Reaches t p') : q = p' := by
  induction h with
  | refl =>
    cases h'
    rfl
  | call _ ih =>
    cases h' with
    | call h' => exact ih h'

theorem Finishes.does (h : p.Finishes t x) : p.Does t := ⟨_, h⟩

theorem does_nil : p.Does [] := ⟨p, .refl⟩

@[simp] theorem finishes_done_iff : (done x).Finishes t y ↔ t = [] ∧ x = y := by
  rw [Finishes, reaches_done_iff, done.injEq, eq_comm (a := y)]

@[simp] theorem finishes_pure_iff {a : α} : (pure a : Calls ι ε α).Finishes t y ↔
    t = [] ∧ .ok a = y :=
  finishes_done_iff

theorem finishes_call_iff {op : ι.Op} {next : ι.Answer op → Calls ι ε α} :
    (call op next).Finishes t x ↔ ∃ answer t', t = ⟨op, answer⟩ :: t' ∧
      (next answer).Finishes t' x := by
  constructor
  · intro h
    cases h with
    | call h => exact ⟨_, _, rfl, h⟩
  · rintro ⟨answer, t', rfl, h⟩
    exact .call h

@[simp] theorem does_done_iff : (done x).Does t ↔ t = [] := by
  constructor
  · rintro ⟨q, h⟩
    exact (reaches_done_iff.mp h).1
  · rintro rfl
    exact does_nil

theorem does_call_iff {op : ι.Op} {next : ι.Answer op → Calls ι ε α} :
    (call op next).Does t ↔ t = [] ∨ ∃ answer t', t = ⟨op, answer⟩ :: t' ∧
      (next answer).Does t' := by
  constructor
  · rintro ⟨q, h⟩
    cases h with
    | refl => exact .inl rfl
    | call h => exact .inr ⟨_, _, rfl, q, h⟩
  · rintro (rfl | ⟨answer, t', rfl, q, h⟩)
    · exact does_nil
    · exact ⟨q, .call h⟩

theorem call_bind {op : ι.Op} {next : ι.Answer op → Calls ι ε α} {f : α → Calls ι ε β} :
    (call op next >>= f) = call op fun answer => next answer >>= f := rfl

theorem done_ok_bind {a : α} {f : α → Calls ι ε β} : (done (.ok a) >>= f) = f a := rfl

theorem done_error_bind {e : ε} {f : α → Calls ι ε β} :
    (done (.error e) >>= f) = done (.error e) := rfl

/-- A first call, and what the program does with its answer. -/
theorem reaches_cons_iff {c : ι.Call} : p.Reaches (c :: t) q ↔
    ∃ next, p = call c.op next ∧ (next c.answer).Reaches t q := by
  constructor
  · intro h
    cases h with
    | call h => exact ⟨_, rfl, h⟩
  · rintro ⟨next, rfl, h⟩
    exact .call h

/-- Parts that make no call are one. -/
theorem done_bind_done {f : α → Except ε β} :
    (done x >>= fun a => done (f a) : Calls ι ε β) = done (x >>= f) := by
  cases x <;> rfl

/-- A sequence succeeds with the calls of its first part and then those of the rest. -/
theorem finishes_bind_iff {f : α → Calls ι ε β} {b : β} :
    (p >>= f).Finishes t (.ok b) ↔ ∃ a t₁ t₂, t = t₁ ++ t₂ ∧ p.Finishes t₁ (.ok a) ∧
      (f a).Finishes t₂ (.ok b) := by
  induction p generalizing t with
  | done outcome =>
    cases outcome with
    | ok a =>
      rw [done_ok_bind]
      constructor
      · intro h
        exact ⟨a, [], t, rfl, .refl, h⟩
      · rintro ⟨a', t₁, t₂, rfl, h, h'⟩
        obtain ⟨rfl, ha⟩ := finishes_done_iff.mp h
        cases ha
        exact h'
    | error e =>
      rw [done_error_bind]
      constructor
      · intro h
        cases (finishes_done_iff.mp h).2
      · rintro ⟨a, t₁, t₂, -, h, -⟩
        cases (finishes_done_iff.mp h).2
  | call op next ih =>
    rw [call_bind, finishes_call_iff]
    constructor
    · rintro ⟨answer, t', rfl, h⟩
      obtain ⟨a, t₁, t₂, rfl, h₁, h₂⟩ := (ih answer).mp h
      exact ⟨a, _, t₂, rfl, finishes_call_iff.mpr ⟨answer, t₁, rfl, h₁⟩, h₂⟩
    · rintro ⟨a, t₁, t₂, rfl, h₁, h₂⟩
      obtain ⟨answer, t', rfl, h₁'⟩ := finishes_call_iff.mp h₁
      exact ⟨answer, _, rfl, (ih answer).mpr ⟨a, t', t₂, rfl, h₁', h₂⟩⟩

/-- A first part that makes no call. -/
theorem finishes_done_bind_iff {f : α → Calls ι ε β} {b : β} :
    (done x >>= f).Finishes t (.ok b) ↔ ∃ a, x = .ok a ∧ (f a).Finishes t (.ok b) := by
  cases x with
  | ok a => rw [done_ok_bind, Except.exists_ok_iff]
  | error e =>
    rw [done_error_bind, finishes_done_iff]
    constructor
    · rintro ⟨-, he⟩
      cases he
    · rintro ⟨a, ha, -⟩
      cases ha

/-- A last part that makes no call. -/
theorem finishes_bind_done_iff {f : α → Except ε β} {b : β} :
    (p >>= fun a => done (f a)).Finishes t (.ok b) ↔ ∃ a, p.Finishes t (.ok a) ∧ f a = .ok b := by
  rw [finishes_bind_iff]
  constructor
  · rintro ⟨a, t₁, t₂, rfl, h, hf⟩
    obtain ⟨rfl, hb⟩ := finishes_done_iff.mp hf
    exact ⟨a, by rwa [List.append_nil], hb⟩
  · rintro ⟨a, h, hf⟩
    exact ⟨a, t, [], (List.append_nil t).symm, h, finishes_done_iff.mpr ⟨rfl, hf⟩⟩

/-- What a sequence has done up to now: a part of its first part, or all of it and then a part of
the rest. -/
theorem does_bind {f : α → Calls ι ε β} (h : (p >>= f).Does t) :
    p.Does t ∨ ∃ a t₁ t₂, t = t₁ ++ t₂ ∧ p.Finishes t₁ (.ok a) ∧ (f a).Does t₂ := by
  induction p generalizing t with
  | done outcome =>
    cases outcome with
    | ok a => exact .inr ⟨a, [], t, rfl, .refl, h⟩
    | error e =>
      obtain rfl := does_done_iff.mp h
      exact .inl does_nil
  | call op next ih =>
    rcases does_call_iff.mp h with rfl | ⟨answer, t', rfl, hn⟩
    · exact .inl does_nil
    · rcases ih answer hn with h | ⟨a, t₁, t₂, rfl, h₁, h₂⟩
      · exact .inl (does_call_iff.mpr (.inr ⟨answer, t', rfl, h⟩))
      · exact .inr ⟨a, _, t₂, rfl, finishes_call_iff.mpr ⟨answer, t₁, rfl, h₁⟩, h₂⟩

theorem does_done_bind {f : α → Calls ι ε β} (h : (done x >>= f).Does t) :
    t = [] ∨ ∃ a, x = .ok a ∧ (f a).Does t := by
  cases x with
  | ok a => exact .inr ⟨a, rfl, h⟩
  | error e => exact .inl (does_done_iff.mp h)

theorem does_bind_done {f : α → Except ε β} (h : (p >>= fun a => done (f a)).Does t) :
    p.Does t := by
  rcases does_bind h with hp | ⟨a, t₁, t₂, rfl, hp, hf⟩
  · exact hp
  · obtain rfl := does_done_iff.mp hf
    rw [List.append_nil]
    exact hp.does

theorem finishes_attempt_iff {outcome : Except ε α} :
    (p.attempt : Calls ι ε' (Except ε α)).Finishes t (.ok outcome) ↔ p.Finishes t outcome := by
  induction p generalizing t with
  | done x => rw [attempt, finishes_done_iff, finishes_done_iff, Except.ok.injEq]
  | call op next ih => simp only [attempt, finishes_call_iff, ih]

theorem does_attempt_iff : (p.attempt : Calls ι ε' (Except ε α)).Does t ↔ p.Does t := by
  induction p generalizing t with
  | done x => rw [attempt, does_done_iff, does_done_iff]
  | call op next ih => simp only [attempt, does_call_iff, ih]

theorem finishes_mapError_iff {f : ε → ε'} {a : α} :
    (p.mapError f).Finishes t (.ok a) ↔ p.Finishes t (.ok a) := by
  induction p generalizing t with
  | done x => rw [mapError, finishes_done_iff, finishes_done_iff, Except.mapError_eq_ok_iff]
  | call op next ih => simp only [mapError, finishes_call_iff, ih]

theorem does_mapError_iff {f : ε → ε'} : (p.mapError f).Does t ↔ p.Does t := by
  induction p generalizing t with
  | done x => rw [mapError, does_done_iff, does_done_iff]
  | call op next ih => simp only [mapError, does_call_iff, ih]

/-! ## What a program may call -/

/-- Whatever the answers are, the program calls these operations only. -/
inductive Only (allowed : ι.Op → Prop) : Calls ι ε α → Prop
  | done {x : Except ε α} : Only allowed (done x)
  | call {op : ι.Op} {next : ι.Answer op → Calls ι ε α} (ho : allowed op)
    (hn : ∀ answer, Only allowed (next answer)) : Only allowed (call op next)

section
variable {allowed : ι.Op → Prop}

theorem Only.bind {f : α → Calls ι ε β} (hp : p.Only allowed) (hf : ∀ a, (f a).Only allowed) :
    (p >>= f).Only allowed := by
  induction hp with
  | @done x =>
    cases x with
    | ok a => exact hf a
    | error e => exact .done
  | call ho _ ih => exact .call ho ih

theorem Only.attempt (hp : p.Only allowed) :
    (p.attempt : Calls ι ε' (Except ε α)).Only allowed := by
  induction hp with
  | done => exact .done
  | call ho _ ih => exact .call ho ih

theorem Only.mapError {f : ε → ε'} (hp : p.Only allowed) : (p.mapError f).Only allowed := by
  induction hp with
  | done => exact .done
  | call ho _ ih => exact .call ho ih

theorem Only.of_does (hp : p.Only allowed) (h : p.Does t) : ∀ c ∈ t, allowed c.op := by
  induction hp generalizing t with
  | done =>
    obtain rfl := does_done_iff.mp h
    exact List.forall_mem_nil _
  | call ho _ ih =>
    rcases does_call_iff.mp h with rfl | ⟨answer, t', rfl, hn⟩
    · exact List.forall_mem_nil _
    · exact List.forall_mem_cons.mpr ⟨ho, ih answer hn⟩

end

/-! ## Programs that run alone -/

/-- What answers the calls, on a state. -/
abbrev Handler (ι : Interface) (ω : Type) : Type := (op : ι.Op) → ω → ι.Answer op × ω

variable {ω : Type} (h : Handler ι ω)

def run : Calls ι ε α → Prog ω ε α
  | done outcome => .ofExcept outcome
  | call op next => fun s => run (next (h op s).1) (h op s).2

/-- The calls were answered one after the other, from the first state to the last. -/
inductive Answered : ω → List ι.Call → ω → Prop
  | nil : Answered s [] s
  | cons {cs : List ι.Call} (hc : Answered (h op s).2 cs s') :
    Answered s (⟨op, (h op s).1⟩ :: cs) s'

variable {h} {s s' s'' : ω}

theorem run_bind (p : Calls ι ε α) (f : α → Calls ι ε β) :
    (p >>= f).run h = p.run h >>= fun a => (f a).run h := by
  funext s
  induction p generalizing s with
  | done outcome => cases outcome <;> rfl
  | call op next ih => exact ih (h op s).1 (h op s).2

theorem run_attempt (p : Calls ι ε α) :
    (p.attempt : Calls ι ε' (Except ε α)).run h = .attempt (p.run h) := by
  funext s
  induction p generalizing s with
  | done outcome => rfl
  | call op next ih => exact ih (h op s).1 (h op s).2

theorem run_mapError (f : ε → ε') (p : Calls ι ε α) :
    (p.mapError f).run h = .mapError f (p.run h) := by
  funext s
  induction p generalizing s with
  | done outcome => rfl
  | call op next ih => exact ih (h op s).1 (h op s).2

/-- A program that runs alone finishes with the calls that are answered on the way. -/
theorem run_eq_iff {s : ω} : p.run h s = (x, s') ↔ ∃ t, p.Finishes t x ∧ Answered h s t s' := by
  induction p generalizing s with
  | done outcome =>
    rw [run, Prog.ofExcept_apply, Prod.mk.injEq]
    constructor
    · rintro ⟨rfl, rfl⟩
      exact ⟨[], .refl, .nil⟩
    · rintro ⟨t, hf, ha⟩
      obtain ⟨rfl, rfl⟩ := finishes_done_iff.mp hf
      cases ha
      exact ⟨rfl, rfl⟩
  | call op next ih =>
    rw [run, ih]
    constructor
    · rintro ⟨t, hf, ha⟩
      exact ⟨_, finishes_call_iff.mpr ⟨_, t, rfl, hf⟩, .cons ha⟩
    · rintro ⟨t, hf, ha⟩
      obtain ⟨answer, t', rfl, hn⟩ := finishes_call_iff.mp hf
      cases ha with
      | cons ha => exact ⟨t', hn, ha⟩

theorem Answered.trans (h₁ : Answered h s t s') (h₂ : Answered h s' t' s'') :
    Answered h s (t ++ t') s'' := by
  induction h₁ with
  | nil => exact h₂
  | cons _ ih => exact .cons (ih h₂)

/-- Each call was answered in some state. -/
theorem Answered.exists_of_mem (ha : Answered h s t s') {c : ι.Call} (hc : c ∈ t) :
    ∃ s₁, c.answer = (h c.op s₁).1 := by
  induction ha with
  | nil => exact absurd hc List.not_mem_nil
  | @cons op s _ _ _ ih =>
    rcases List.mem_cons.mp hc with rfl | hc
    · exact ⟨s, rfl⟩
    · exact ih hc

/-! ## Programs that run side by side -/

/-- Programs under keys, on one state. -/
structure Pool (ι : Interface) (ω κ ε α : Type) where
  progs : κ → Calls ι ε α
  state : ω

namespace Pool
variable {κ : Type} [DecidableEq κ] {P P' : Pool ι ω κ ε α}

variable (h) in
/-- The pool after the program under `k`, which calls `op`, has been answered. -/
def advance (P : Pool ι ω κ ε α) (k : κ) (op : ι.Op) (next : ι.Answer op → Calls ι ε α) :
    Pool ι ω κ ε α where
  progs := Function.update P.progs k (next (h op P.state).1)
  state := (h op P.state).2

variable (h) in
/-- The calls of a pool, each with the key of the program that made it: at every step some program
that waits at a call is answered. -/
inductive Steps (P : Pool ι ω κ ε α) : List (κ × ι.Call) → Pool ι ω κ ε α → Prop
  | refl : Steps P [] P
  | concat {cs : List (κ × ι.Call)} {next : ι.Answer op → Calls ι ε α} (hs : Steps P cs Q)
    (hk : Q.progs k = .call op next) :
    Steps P (cs ++ [(k, ⟨op, (h op Q.state).1⟩)]) (Q.advance h k op next)

/-- The calls of one program. -/
def callsOf (k : κ) (t : List (κ × ι.Call)) : List ι.Call :=
  t.filterMap fun c => if c.1 = k then some c.2 else none

theorem callsOf_nil (k : κ) : callsOf k ([] : List (κ × ι.Call)) = [] := rfl

theorem callsOf_append (k : κ) (t t' : List (κ × ι.Call)) :
    callsOf k (t ++ t') = callsOf k t ++ callsOf k t' := List.filterMap_append

theorem callsOf_cons_self (k : κ) (c : ι.Call) (t : List (κ × ι.Call)) :
    callsOf k ((k, c) :: t) = c :: callsOf k t := by
  simp [callsOf]

theorem callsOf_cons_of_ne {k k' : κ} (hk : k' ≠ k) (c : ι.Call) (t : List (κ × ι.Call)) :
    callsOf k ((k', c) :: t) = callsOf k t := by
  simp [callsOf, hk]

theorem mem_callsOf {k : κ} {c : ι.Call} {t : List (κ × ι.Call)} :
    c ∈ callsOf k t ↔ (k, c) ∈ t := by
  simp [callsOf, List.mem_filterMap, ite_eq_iff]

/-- What a program calls before and after one of its calls. -/
theorem callsOf_append_cons (k : κ) (c : ι.Call) (before after : List (κ × ι.Call)) :
    callsOf k (before ++ (k, c) :: after) = callsOf k before ++ c :: callsOf k after := by
  rw [callsOf_append, callsOf_cons_self]

theorem advance_progs_self {k : κ} {op : ι.Op} {next : ι.Answer op → Calls ι ε α} :
    (P.advance h k op next).progs k = next (h op P.state).1 := Function.update_self ..

theorem advance_progs_of_ne {k k' : κ} {op : ι.Op} {next : ι.Answer op → Calls ι ε α}
    (hk : k ≠ k') : (P.advance h k' op next).progs k = P.progs k := Function.update_of_ne hk ..

variable {t : List (κ × ι.Call)}

/-- Whatever the schedule, each program goes on along its own trace. -/
theorem Steps.reaches (hs : P.Steps h t P') (k : κ) :
    (P.progs k).Reaches (callsOf k t) (P'.progs k) := by
  induction hs with
  | refl => exact .refl
  | @concat op Q k' _ next _ hk ih =>
    rw [callsOf_append]
    by_cases hkk : k' = k
    · subst hkk
      rw [callsOf_cons_self, advance_progs_self]
      rw [hk] at ih
      exact ih.concat _
    · rw [callsOf_cons_of_ne hkk, callsOf_nil, List.append_nil, advance_progs_of_ne (Ne.symm hkk)]
      exact ih

/-- All calls together are answered on the one state. -/
theorem Steps.answered (hs : P.Steps h t P') :
    Answered h P.state (t.map Prod.snd) P'.state := by
  induction hs with
  | refl => exact .nil
  | concat _ _ ih =>
    rw [List.map_append]
    exact ih.trans (.cons .nil)

theorem Steps.exists_of_mem_callsOf (hs : P.Steps h t P') {k : κ} {c : ι.Call}
    (hc : c ∈ callsOf k t) : ∃ s, c.answer = (h c.op s).1 :=
  hs.answered.exists_of_mem (List.mem_map_of_mem (f := Prod.snd) (mem_callsOf.mp hc))

theorem Steps.does (hs : P.Steps h t P') (k : κ) : (P.progs k).Does (callsOf k t) :=
  ⟨_, hs.reaches k⟩

/-- A program is done exactly when it has made the calls it finishes with. -/
theorem Steps.progs_eq_done_iff (hs : P.Steps h t P') {k : κ} {x : Except ε α} :
    P'.progs k = .done x ↔ (P.progs k).Finishes (callsOf k t) x := by
  constructor
  · intro hk
    rw [Finishes, ← hk]
    exact hs.reaches k
  · intro hf
    exact (hs.reaches k).eq hf

theorem Steps.trans {t' : List (κ × ι.Call)} {P'' : Pool ι ω κ ε α} (hs : P.Steps h t P')
    (hs' : P'.Steps h t' P'') : P.Steps h (t ++ t') P'' := by
  induction hs' with
  | refl => rwa [List.append_nil]
  | concat _ hk ih =>
    rw [← List.append_assoc]
    exact .concat ih hk

/-- A schedule is a trace of each program, the traces put together in any order and answered in this
order. -/
theorem steps_iff : P.Steps h t P' ↔
    (∀ k, (P.progs k).Reaches (callsOf k t) (P'.progs k)) ∧
      Answered h P.state (t.map Prod.snd) P'.state := by
  constructor
  · intro hs
    exact ⟨hs.reaches, hs.answered⟩
  rintro ⟨hr, ha⟩
  induction t generalizing P with
  | nil =>
    obtain ⟨progs, state⟩ := P
    obtain ⟨progs', state'⟩ := P'
    obtain rfl : progs' = progs := funext fun k => (hr k).eq .refl
    cases ha
    exact .refl
  | cons c t ih =>
    obtain ⟨k, op, answer⟩ := c
    rw [List.map_cons] at ha
    cases ha with
    | cons ha =>
      have hk := hr k
      rw [callsOf_cons_self, reaches_cons_iff] at hk
      obtain ⟨next, hp, hn⟩ := hk
      refine (Steps.concat .refl hp).trans (ih (P := P.advance h k op next) ?_ ha)
      intro k'
      by_cases hk : k' = k
      · subst hk
        rwa [advance_progs_self]
      · have hr' := hr k'
        rw [callsOf_cons_of_ne (Ne.symm hk)] at hr'
        rwa [advance_progs_of_ne hk]

theorem callsOf_map_self (k : κ) (cs : List ι.Call) : callsOf k (cs.map (k, ·)) = cs := by
  induction cs with
  | nil => rfl
  | cons c cs ih => rw [List.map_cons, callsOf_cons_self, ih]

theorem callsOf_map_of_ne {k k' : κ} (hk : k' ≠ k) (cs : List ι.Call) :
    callsOf k (cs.map (k', ·)) = [] := by
  induction cs with
  | nil => rfl
  | cons c cs ih => rw [List.map_cons, callsOf_cons_of_ne hk, ih]

/-- One program may run alone to its end. -/
theorem exists_steps_of_run {k : κ} {x : Except ε α}
    (hr : (P.progs k).run h P.state = (x, s')) :
    ∃ t, P.Steps h t ⟨Function.update P.progs k (.done x), s'⟩ := by
  obtain ⟨cs, hf, ha⟩ := run_eq_iff.mp hr
  refine ⟨cs.map (k, ·), steps_iff.mpr ⟨fun k' => ?_, ?_⟩⟩
  · change (P.progs k').Reaches _ (Function.update P.progs k (.done x) k')
    by_cases hk : k = k'
    · subst hk
      rw [callsOf_map_self, Function.update_self]
      exact hf
    · rw [callsOf_map_of_ne hk, Function.update_of_ne (Ne.symm hk)]
      exact .refl
  · rw [List.map_map]
    exact (List.map_id cs).symm ▸ ha

end Pool
end Calls
end OpenID4VP
