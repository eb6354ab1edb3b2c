import Mathlib.Data.List.Basic

/-!
# Computations that ask questions and may fail

A program that talks to a service is a tree: it is done, with a result or an error, or
it asks a question and goes on with the answer. What it does for every answer is all
there is to know of it, so a statement about the tree is one about every service.

- `eval`: the result, with a service that answers each question by a function.
- `eval_bind`: the result of a sequence, from those of its parts.
- `Asks`: what all the questions are like.
-/

/-- Questions `Q`, answers `A`, errors `ε`, results `α`. -/
inductive Dialogue (Q A ε α : Type) where
  | done (result : Except ε α)
  | ask (question : Q) (next : A → Dialogue Q A ε α)

namespace Except

variable {ε α β : Type}

/-- A sequence that succeeds had a first part that did. What a longer run is known
to have passed is read off by this, one part at a time. -/
theorem bind_eq_ok {x : Except ε α} {f : α → Except ε β} {b : β} :
    x >>= f = .ok b ↔ ∃ a, x = .ok a ∧ f a = .ok b := by
  cases x with
  | error e => exact ⟨nofun, fun ⟨a, h, _⟩ => nomatch h⟩
  | ok a =>
    constructor
    · intro h
      exact ⟨a, rfl, h⟩
    · rintro ⟨a', h, hf⟩
      cases h
      exact hf

@[simp] theorem bind_ok (a : α) (f : α → Except ε β) :
    ((.ok a : Except ε α) >>= f) = f a := rfl

end Except

namespace Dialogue

variable {Q A ε α β γ : Type}

/-- Go on with the result, if there is one. -/
def bind : Dialogue Q A ε α → (α → Dialogue Q A ε β) → Dialogue Q A ε β
  | done (.ok a), f => f a
  | done (.error e), _ => done (.error e)
  | ask q next, f => ask q fun answer => (next answer).bind f

instance : Monad (Dialogue Q A ε) where
  pure a := done (.ok a)
  bind := bind

theorem bind_done (d : Dialogue Q A ε α) : d.bind (fun a => done (.ok a)) = d := by
  induction d with
  | done result => cases result <;> rfl
  | ask q next ih => exact congrArg (ask q) (funext ih)

theorem bind_bind (d : Dialogue Q A ε α) (f : α → Dialogue Q A ε β) (g : β → Dialogue Q A ε γ) :
    (d.bind f).bind g = d.bind fun a => (f a).bind g := by
  induction d with
  | done result => cases result <;> rfl
  | ask q next ih => exact congrArg (ask q) (funext ih)

instance : LawfulMonad (Dialogue Q A ε) := LawfulMonad.mk' _ bind_done (fun _ _ => rfl) bind_bind

/-- One question. -/
def query (q : Q) : Dialogue Q A ε A := ask q fun answer => done (.ok answer)

def fail (e : ε) : Dialogue Q A ε α := done (.error e)

/-- The result with a service that answers by `answers`. -/
def eval (answers : Q → A) : Dialogue Q A ε α → Except ε α
  | done result => result
  | ask q next => (next (answers q)).eval answers

/-! ## Sequences -/

@[simp] theorem done_ok_bind (a : α) (f : α → Dialogue Q A ε β) :
    (done (.ok a) : Dialogue Q A ε α) >>= f = f a := rfl

@[simp] theorem done_error_bind (e : ε) (f : α → Dialogue Q A ε β) :
    (done (.error e) : Dialogue Q A ε α) >>= f = done (.error e) := rfl

variable (answers : Q → A)

@[simp] theorem eval_done (result : Except ε α) :
    (done result : Dialogue Q A ε α).eval answers = result := rfl

@[simp] theorem eval_pure (a : α) :
    (pure a : Dialogue Q A ε α).eval answers = .ok a := rfl

@[simp] theorem eval_fail (e : ε) :
    (fail e : Dialogue Q A ε α).eval answers = .error e := rfl

/-- The result of a sequence is that of its parts, both with the same service: a run
never depends on when a question is asked, only on the answer to it. -/
@[simp] theorem eval_bind (d : Dialogue Q A ε α) (f : α → Dialogue Q A ε β) :
    (d >>= f).eval answers = d.eval answers >>= fun a => (f a).eval answers := by
  induction d with
  | done result => cases result <;> rfl
  | ask q next ih => exact ih (answers q)

@[simp] theorem eval_map (f : α → β) (d : Dialogue Q A ε α) :
    (f <$> d).eval answers = d.eval answers >>= fun a => .ok (f a) := by
  rw [← bind_pure_comp, eval_bind]
  rfl

/-! ## The questions -/

/-- Whatever is answered, all questions are as `p` says. -/
inductive Asks (p : Q → Prop) : Dialogue Q A ε α → Prop
  | done (result : Except ε α) : Asks p (done result)
  | ask {question : Q} {next : A → Dialogue Q A ε α} : p question →
    (∀ answer, Asks p (next answer)) → Asks p (ask question next)

section Asks

variable {p : Q → Prop} {d : Dialogue Q A ε α} {f : α → Dialogue Q A ε β}

theorem asks_query {question : Q} (h : p question) : (query question : Dialogue Q A ε A).Asks p :=
  .ask h fun _ => .done _

/-- The questions of a sequence are those of its parts. The second part is asked of
for every result, since it is not known here what the first is answered. -/
theorem Asks.bind (hd : d.Asks p) (hf : ∀ a, (f a).Asks p) : (d >>= f).Asks p := by
  induction hd with
  | done result =>
    cases result with
    | ok a => exact hf a
    | error e => exact .done _
  | ask hq _ ih => exact .ask hq ih

/-- What follows a check may rely on it: where the check fails nothing more is
asked, so the rest need only behave for results that passed. -/
theorem asks_done_bind {result : Except ε α} (hf : ∀ a, result = .ok a → (f a).Asks p) :
    ((done result : Dialogue Q A ε α) >>= f).Asks p := by
  cases result with
  | ok a => exact hf a rfl
  | error e => exact .done _

end Asks

end Dialogue
