import SolidityAudit.Analysis.Session
import SolidityAudit.Proofs.Analysis.Alone

/-!
# What sessions perform

A session performs a job by handing each request to the collaborator that answers it. Whatever the
outside says to the collaborators, the job goes on as a call that goes on alone
(`Session.ends_of_perform`). So what holds of calls alone holds of the calls of a session, and
performing a call changes nothing of the session but its store.
-/

namespace SolidityAudit

namespace Script

variable {Q : Type} {A : Q → Type} {α β : Type}

/-- A script ends with a result for some answers to its requests. -/
inductive MayEnd : Script Q A α → α → Prop
  | done (a : α) : MayEnd (.done a) a
  | ask {q : Q} {next : A q → Script Q A α} {a : α} (x : A q) (h : MayEnd (next x) a) :
    MayEnd (.ask q next) a

lemma mayEnd_done {a b : α} : MayEnd (.done a : Script Q A α) b ↔ b = a := by
  constructor
  · intro h
    cases h
    rfl
  · rintro rfl
    exact .done b

/-- One script after the other ends as the second does after the first. -/
lemma mayEnd_bind {x : Script Q A α} {f : α → Script Q A β} {b : β} (h : MayEnd (x >>= f) b) :
    ∃ a, MayEnd x a ∧ MayEnd (f a) b := by
  induction x with
  | done a => exact ⟨a, .done a, h⟩
  | ask q next ih =>
    cases h with
    | ask y h =>
      obtain ⟨a, hx, hf⟩ := ih y h
      exact ⟨a, .ask y hx, hf⟩

end Script

namespace Session

open Service

variable {s : Session} {st st₁ st' : Store} {x : Except Fault Value}

/-- An exchange with the outside leaves the store alone. -/
lemma store_eq_of_lift {α : Type} {y : Script Outside.Request Outside.Answer α} {a : α}
    (h : ((liftM y : Worker α).run st).MayEnd (a, st')) : st' = st := by
  obtain ⟨b, -, hb⟩ := Script.mayEnd_bind h
  exact congrArg Prod.snd (Script.mayEnd_done.mp hb)

/-- What the answer to a request has to do with the store before and after it. -/
def Answered (st : Store) : (q : Request) → Answer q → Store → Prop
  | .load, found, st' => found = st ∧ st' = st
  | .save stored, _, st' => st' = stored
  | _, _, st' => st' = st

lemma answered_of_answer {q : Request} {a : Answer q}
    (h : ((s.answer q).run st).MayEnd (a, st')) : Answered st q a st' := by
  cases q with
  | load => exact Prod.mk.inj (Script.mayEnd_done.mp h)
  | save stored => exact congrArg Prod.snd (Script.mayEnd_done.mp h)
  | log | now | summarize | anchor | deploy | verify | status => exact store_eq_of_lift h

/-- A job that is performed takes its turns one after the other. -/
lemma exists_turn {job : Rest} (h : ((job.run s.answer).run st).MayEnd (x, st')) :
    ∃ st₁ r, Turn st job st₁ r ∧ Ends st₁ r x st' := by
  induction job generalizing st with
  | done y =>
    obtain ⟨rfl, rfl⟩ := Prod.mk.inj (Script.mayEnd_done.mp h)
    exact ⟨st', .done x, .ended st' x, .ended st' x⟩
  | ask q next ih =>
    obtain ⟨⟨a, st₁⟩, hanswer, hrest⟩ := Script.mayEnd_bind h
    obtain ⟨st₂, r, hturn, hends⟩ := ih a hrest
    have hanswered := answered_of_answer hanswer
    cases q with
    | log level text =>
      obtain rfl : st₁ = st := hanswered
      exact ⟨st₂, r, .log level text next hturn, hends⟩
    | now =>
      obtain rfl : st₁ = st := hanswered
      exact ⟨st₂, r, .now next a hturn, hends⟩
    | load =>
      obtain ⟨rfl, rfl⟩ := hanswered
      exact ⟨st₂, r, .load next hturn, hends⟩
    | save stored =>
      obtain rfl : st₁ = stored := hanswered
      exact ⟨st₂, r, .save st₁ next hturn, hends⟩
    | summarize | anchor | deploy | verify | status =>
      -- the turn ends here, and the next one begins with the answer
      obtain rfl : st₁ = st := hanswered
      exact ⟨st₁, _, .waiting st₁ _ next rfl, .turn (.answered rfl a) hturn hends⟩

lemma ends_of_turn {job r : Rest} (ht : Turn st job st₁ r) (h : Ends st₁ r x st') :
    Ends st job x st' := by
  cases job with
  | done y =>
    obtain ⟨rfl, rfl⟩ := turn_done.mp ht
    exact h
  | ask q next =>
    cases hq : q.waits with
    | true =>
      obtain ⟨rfl, rfl⟩ := (turn_waiting hq).mp ht
      exact h
    | false => exact .turn (.begins hq) ht h

/-- A job that a session performs goes on alone until it ends, and only the store may change. -/
theorem ends_of_perform {job : Job Value} {s' : Session} (h : (s.perform job).MayEnd (x, s')) :
    Ends s.store job.run x s'.store ∧ s' = { s with store := s'.store } := by
  obtain ⟨⟨y, st⟩, hrun, hend⟩ := Script.mayEnd_bind h
  obtain ⟨rfl, rfl⟩ := Prod.mk.inj (Script.mayEnd_done.mp hend)
  obtain ⟨st₁, r, hturn, hends⟩ := exists_turn hrun
  exact ⟨ends_of_turn hturn hends, rfl⟩

end Session

end SolidityAudit
