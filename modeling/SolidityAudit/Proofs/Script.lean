import SolidityAudit.Script

/-!
# Scripts one after the other

Putting scripts one after the other obeys the laws of a monad, so that programs made of scripts can
be taken apart.
-/

namespace SolidityAudit.Script

variable {Q : Type} {A : Q → Type} {α β γ : Type}

theorem bind_done (x : Script Q A α) : x.bind .done = x := by
  induction x with
  | done a => rfl
  | ask q next ih => exact congrArg (Script.ask q) (funext ih)

theorem bind_bind (x : Script Q A α) (f : α → Script Q A β) (g : β → Script Q A γ) :
    (x.bind f).bind g = x.bind fun a => (f a).bind g := by
  induction x with
  | done a => rfl
  | ask q next ih => exact congrArg (Script.ask q) (funext ih)

instance : LawfulMonad (Script Q A) :=
  LawfulMonad.mk' _ bind_done (fun _ _ => rfl) bind_bind

/-- Scripts one after the other go through one after the other. -/
theorem run_bind {m : Type → Type} [Monad m] [LawfulMonad m] (answer : (q : Q) → m (A q))
    (x : Script Q A α) (f : α → Script Q A β) :
    (x.bind f).run answer = x.run answer >>= fun a => (f a).run answer := by
  induction x with
  | done a =>
    show (f a).run answer = pure a >>= fun a => (f a).run answer
    rw [pure_bind]
  | ask q next ih =>
    show (answer q >>= fun a => ((next a).bind f).run answer) =
      (answer q >>= fun a => (next a).run answer) >>= fun a => (f a).run answer
    rw [LawfulMonad.bind_assoc]
    exact bind_congr ih

end SolidityAudit.Script
