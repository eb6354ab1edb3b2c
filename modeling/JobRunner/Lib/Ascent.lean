import JobRunner.Lib.Contract

/-!
# Dialogues that ask in order

Some computations ask each question at most once, in a fixed order, and fail only over the
answer they have just been given. Then an error tells how far the computation came.

- `Ascends`: the order, by a rank of the questions, and the question an error is about.
- `Ascends.bind`, `Ascends.mono`: the rules.
- `Checks`: one question and a check of its answer; `Checks.ascends_bind`: its rule.
- `Ascends.rank_about`, `Ascends.rank_lt`: an error is about a question that was asked.
- `Ascends.advance`: with another answer to that question alone, the computation comes at
  least as far.
- `Asks.eval_congr`: only the answers to the questions count.
-/

namespace Dialogue

variable {Q A ε α β : Type}

/-- The questions have ascending ranks, from `lo` on and below `hi`. An error is about the
question that was asked last, which is `last` at the start. -/
inductive Ascends (rank : Q → Nat) (about : ε → Q) :
    Option Q → Nat → Nat → Dialogue Q A ε α → Prop
  | ok {last : Option Q} {lo hi : Nat} (a : α) : Ascends rank about last lo hi (done (.ok a))
  | error {lo hi : Nat} {e : ε} {question : Q} : about e = question →
    Ascends rank about (some question) lo hi (done (.error e))
  | ask {last : Option Q} {lo hi : Nat} {question : Q} {next : A → Dialogue Q A ε α} :
    lo ≤ rank question → rank question < hi →
    (∀ answer, Ascends rank about (some question) (rank question + 1) hi (next answer)) →
    Ascends rank about last lo hi (ask question next)

variable {rank : Q → Nat} {about : ε → Q} {last : Option Q} {lo lo' mid hi hi' : Nat}
  {d : Dialogue Q A ε α} {f : α → Dialogue Q A ε β} {answers answers' : Q → A} {e e' : ε}

theorem Ascends.mono (h : Ascends rank about last lo hi d) (hlo : lo' ≤ lo) (hhi : hi ≤ hi') :
    Ascends rank about last lo' hi' d := by
  induction h generalizing lo' with
  | ok a => exact .ok a
  | error he => exact .error he
  | ask hle hlt _ ih =>
    exact .ask (Nat.le_trans hlo hle) (Nat.lt_of_lt_of_le hlt hhi)
      fun answer => ih answer (Nat.le_refl _) hhi

/-- A computation that blames no earlier question may follow any. -/
theorem Ascends.after (h : Ascends rank about none lo hi d) (last : Option Q) :
    Ascends rank about last lo hi d := by
  cases h with
  | ok a => exact .ok a
  | ask hle hlt hnext => exact .ask hle hlt hnext

/-- Questions that ascend are followed by questions that ascend from there on. The
second part may blame nothing of the first, which is what the `none` says. -/
theorem Ascends.bind (hd : Ascends rank about last lo mid d) (hlo : lo ≤ mid) (hhi : mid ≤ hi)
    (hf : ∀ a, Ascends rank about none mid hi (f a)) :
    Ascends rank about last lo hi (d >>= f) := by
  induction hd with
  | ok a => exact ((hf a).after _).mono hlo (Nat.le_refl _)
  | error he => exact .error he
  | ask hle hlt _ ih =>
    exact .ask hle (Nat.lt_of_lt_of_le hlt hhi) fun answer => ih answer hlt hhi hf

/-! ## One question, and a check of its answer -/

/-- Nothing is asked, and an error is about `question`. -/
inductive Settled (about : ε → Q) (question : Q) : Dialogue Q A ε α → Prop
  | ok (a : α) : Settled about question (done (.ok a))
  | error {e : ε} : about e = question → Settled about question (done (.error e))

/-- This question is asked, and an error is about it. -/
inductive Checks (about : ε → Q) (question : Q) : Dialogue Q A ε α → Prop
  | ask {next : A → Dialogue Q A ε α} : (∀ answer, Settled about question (next answer)) →
    Checks about question (ask question next)

theorem checks_query (question : Q) :
    Checks about question (query question : Dialogue Q A ε A) :=
  .ask fun answer => .ok answer

theorem Checks.bind {question : Q} (h : Checks about question d)
    (hf : ∀ a, Settled about question (f a)) : Checks about question (d >>= f) := by
  cases h with
  | @ask next hnext =>
    refine .ask fun answer => ?_
    show Settled about question ((next answer).bind f)
    have hsettled := hnext answer
    generalize next answer = rest at hsettled
    cases hsettled with
    | ok a => exact hf a
    | error he => exact .error he

/-- A check at the head of what is left to ask. Its errors are about its own
question, so the range may begin there. -/
theorem Checks.ascends_bind {question : Q} (h : Checks about question d)
    (hlo : lo ≤ rank question) (hhi : rank question < hi)
    (hf : ∀ a, Ascends rank about none (rank question + 1) hi (f a)) :
    Ascends rank about last lo hi (d >>= f) := by
  cases h with
  | @ask next hnext =>
    refine .ask hlo hhi fun answer => ?_
    show Ascends rank about (some question) (rank question + 1) hi ((next answer).bind f)
    have hsettled := hnext answer
    generalize next answer = rest at hsettled
    cases hsettled with
    | ok a => exact (hf a).after _
    | error he => exact .error he

/-! ## Errors -/

/-- An error is about the last question before the computation, or about one in its
range, and so about no earlier one. -/
theorem Ascends.rank_about (h : Ascends rank about last lo hi d)
    (heval : d.eval answers = .error e) : last = some (about e) ∨ lo ≤ rank (about e) := by
  induction h with
  | ok a => cases heval
  | error he =>
    cases heval
    rw [he]
    exact .inl rfl
  | @ask last lo hi question next hle hlt _ ih =>
    right
    rcases ih _ heval with hlast | hrank
    · cases hlast
      exact hle
    · omega

theorem Ascends.rank_lt (h : Ascends rank about last lo hi d)
    (heval : d.eval answers = .error e) : last = some (about e) ∨ rank (about e) < hi := by
  induction h with
  | ok a => cases heval
  | error he =>
    cases heval
    rw [he]
    exact .inl rfl
  | ask hle hlt _ ih =>
    right
    rcases ih _ heval with hlast | hrank
    · cases hlast
      exact hlt
    · exact hrank

/-- All questions have ranks in the range. -/
theorem Ascends.asks (h : Ascends rank about last lo hi d) :
    d.Asks fun question => lo ≤ rank question ∧ rank question < hi := by
  induction h with
  | ok a => exact .done _
  | error he => exact .done _
  | ask hle hlt _ ih =>
    refine .ask ⟨hle, hlt⟩ fun answer => (ih answer).mono fun question hquestion => ?_
    exact ⟨by omega, hquestion.2⟩

/-- **Errors move on.** If one answer is changed, the one that an error was about,
then the next error is about a later question, or about that answer again. Up to
that question both runs are answered alike. -/
theorem Ascends.advance (h : Ascends rank about last lo hi d)
    (heval : d.eval answers = .error e) (heval' : d.eval answers' = .error e')
    (hagree : ∀ question, question ≠ about e → answers' question = answers question) :
    about e' = about e ∨ rank (about e) < rank (about e') := by
  induction h with
  | ok a => cases heval
  | error he =>
    cases heval
    cases heval'
    exact .inl rfl
  | @ask last lo hi question next hle hlt hnext ih =>
    by_cases hquestion : question = about e
    · -- the computation has come this far with either answer
      rcases (hnext (answers' question)).rank_about heval' with hsame | hlater
      · rw [← hquestion]
        exact .inl (Option.some.inj hsame).symm
      · rw [← hquestion]
        exact .inr hlater
    · rw [eval, hagree question hquestion] at heval'
      exact ih _ heval heval'

/-- Only the answers to its questions count. Two services that agree on these give
the same result. -/
theorem Asks.eval_congr {p : Q → Prop} (h : d.Asks p)
    (hagree : ∀ question, p question → answers question = answers' question) :
    d.eval answers = d.eval answers' := by
  induction h with
  | done result => rfl
  | ask hp _ ih =>
    rw [eval, eval, hagree _ hp]
    exact ih _

end Dialogue
