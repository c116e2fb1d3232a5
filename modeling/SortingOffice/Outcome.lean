import SortingOffice.Fault

/-!
# Outcomes

A request may change a state and answers with a value or a fault. What was done before a fault stays
done, so the state belongs to the outcome either way.

* `Outcome`: the answer with the state behind it.
* `Outcome.guarded`: a change behind a check.
* `Outcome.map`: the outcome with its answer changed.
* `Outcome.ask`: the outcome with a question about the state behind it.
-/

namespace SortingOffice

/-- What a request leaves: its answer or its fault, and the state. -/
structure Outcome (σ α : Type) where
  answer : Except Fault α
  state : σ

namespace Outcome

variable {σ α β : Type}

/-- A change of `s` behind a check. If the check fails, nothing is changed. -/
def guarded (s : σ) (check : Except Fault β) (change : β → Outcome σ α) : Outcome σ α :=
  match check with
  | .error fault => ⟨.error fault, s⟩
  | .ok b => change b

/-- The outcome with another answer, if it is no fault. -/
def map (f : α → β) (out : Outcome σ α) : Outcome σ β := ⟨out.answer.map f, out.state⟩

/-- The outcome with a question about the new state behind it. The state stays as it is, also if the
question fails. -/
def ask (out : Outcome σ α) (question : σ → α → Except Fault β) : Outcome σ β :=
  ⟨out.answer.bind (question out.state), out.state⟩

@[simp] theorem guarded_error (s : σ) (fault : Fault) (change : β → Outcome σ α) :
    guarded s (.error fault) change = ⟨.error fault, s⟩ := rfl

@[simp] theorem guarded_ok (s : σ) (b : β) (change : β → Outcome σ α) :
    guarded s (.ok b) change = change b := rfl

@[simp] theorem state_map (f : α → β) (out : Outcome σ α) : (out.map f).state = out.state := rfl

@[simp] theorem answer_map (f : α → β) (out : Outcome σ α) :
    (out.map f).answer = out.answer.map f := rfl

@[simp] theorem state_ask (out : Outcome σ α) (question : σ → α → Except Fault β) :
    (out.ask question).state = out.state := rfl

@[simp] theorem answer_ask (out : Outcome σ α) (question : σ → α → Except Fault β) :
    (out.ask question).answer = out.answer.bind (question out.state) := rfl

end Outcome

end SortingOffice
