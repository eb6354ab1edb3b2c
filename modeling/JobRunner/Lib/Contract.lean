import JobRunner.Lib.Dialogue

/-!
# Contracts of dialogues

A contract says which questions a computation may ask and with which errors it may end.
Whether one is kept is a property of the tree, and so holds whatever is answered.

- `Contract`, `Meets`: the contract, and a computation that keeps it.
- `Meets.bind`, `meets_done_bind`: the rules for a sequence.
- `Meets.asks`, `Meets.error_of_eval`: what is known of its questions and of its errors.
-/

namespace Dialogue

/-- The questions and the errors that are allowed. -/
structure Contract (Q ε : Type) where
  asks : Q → Prop
  fails : ε → Prop

variable {Q A ε α β : Type}

/-- Whatever is answered, the computation keeps the contract. -/
inductive Meets (c : Contract Q ε) : Dialogue Q A ε α → Prop
  | ok (a : α) : Meets c (done (.ok a))
  | error {e : ε} : c.fails e → Meets c (done (.error e))
  | ask {question : Q} {next : A → Dialogue Q A ε α} : c.asks question →
    (∀ answer, Meets c (next answer)) → Meets c (ask question next)

variable {c : Contract Q ε} {d : Dialogue Q A ε α} {f : α → Dialogue Q A ε β}

theorem meets_query {question : Q} (h : c.asks question) :
    (query question : Dialogue Q A ε A).Meets c :=
  .ask h fun answer => .ok answer

theorem meets_done {result : Except ε α} (h : ∀ e, result = .error e → c.fails e) :
    (done result : Dialogue Q A ε α).Meets c := by
  cases result with
  | ok a => exact .ok a
  | error e => exact .error (h e rfl)

/-- A sequence keeps the contract when its parts do, whatever the first of them
hands on. By induction on the first part, which ends in the second or in an error it
may have. -/
theorem Meets.bind (hd : d.Meets c) (hf : ∀ a, (f a).Meets c) : (d >>= f).Meets c := by
  induction hd with
  | ok a => exact hf a
  | error he => exact .error he
  | ask hq _ ih => exact .ask hq ih

/-- What follows a check may rely on it, and the errors of the check are of the
contract themselves: a check asks nothing, so this is all it can do. -/
theorem meets_done_bind {result : Except ε α} (herror : ∀ e, result = .error e → c.fails e)
    (hf : ∀ a, result = .ok a → (f a).Meets c) :
    ((done result : Dialogue Q A ε α) >>= f).Meets c := by
  cases result with
  | ok a => exact hf a rfl
  | error e => exact .error (herror e rfl)

/-- A bound on the questions may be widened. -/
theorem Asks.mono {p p' : Q → Prop} (h : d.Asks p) (hp : ∀ question, p question → p' question) :
    d.Asks p' := by
  induction h with
  | done result => exact .done result
  | ask hq _ ih => exact .ask (hp _ hq) ih

/-- Half of a contract that is kept: the questions are those it allows. -/
theorem Meets.asks (h : d.Meets c) : d.Asks c.asks := by
  induction h with
  | ok a => exact .done _
  | error he => exact .done _
  | ask hq _ ih => exact .ask hq ih

/-- The other half: an error of a run is one of the contract, whatever service was
asked. -/
theorem Meets.error_of_eval (h : d.Meets c) {answers : Q → A} {e : ε}
    (heval : d.eval answers = .error e) : c.fails e := by
  induction h with
  | ok a => cases heval
  | error he =>
    cases heval
    exact he
  | ask _ _ ih => exact ih _ heval

end Dialogue
