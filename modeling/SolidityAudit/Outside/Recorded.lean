import SolidityAudit.Outside.Files

/-!
# A recorded outside

Scripts run against answers that are given beforehand. What the outside is asked for goes into a
history, in order.
-/

namespace SolidityAudit.Outside

/-- Answers that are given out one after the other, and the fault when none is left. -/
structure Queue (α : Type) where
  items : List (Except Fault α)
  exhausted : Fault

/-- The next answer, and the queue after it. -/
def Queue.next {α : Type} (q : Queue α) : Except Fault α × Queue α :=
  match q.items with
  | [] => (.error q.exhausted, q)
  | item :: rest => (item, { q with items := rest })

/-- A world whose answers are known. -/
structure Recorded where
  clock : Instant
  environment : List (String × String)
  files : Files
  replies : Queue Value
  receipts : Queue Value
  pages : Queue ServerReply
  outputs : Queue Value
  compilers : List String
  nonce : Int
  gasPrice : Int
  account : Except Fault String
  /-- what has been asked for -/
  history : List Request

namespace Recorded

/-- The recorded answer to a request. -/
def reply : (r : Request) → StateM Recorded (Answer r)
  | .log .. | .print .. | .write .. => pure ()
  | .clock => return (← get).clock
  | .environment name => return (← get).environment.lookup name
  | .kindOf path => return (← get).files.kindOf path
  | .fileContent path => return (← get).files.read path
  | .makeFolder path =>
    modifyGet fun w =>
      let (files, made) := w.files.makeFolder path
      (made, { w with files })
  | .saveFile path content =>
    modifyGet fun w =>
      match w.files.write? path content with
      | some files => (true, { w with files })
      | none => (false, w)
  | .openChat .. => return .ok ()
  | .chat _ => modifyGet fun w => (w.replies.next.1, { w with replies := w.replies.next.2 })
  | .openNode .. => return .ok ()
  | .retry .. => return .ok ()
  | .useKey _ => return (← get).account
  | .fetch .. => modifyGet fun w => (w.pages.next.1, { w with pages := w.pages.next.2 })
  | .transactionCount _ => return .ok (← get).nonce
  | .gasPrice => return .ok (← get).gasPrice
  | .construct .. => return .ok ()
  | .sign transaction _ => return .ok transaction
  | .send signed => return .ok signed
  | .awaitReceipt .. =>
    modifyGet fun w => (w.receipts.next.1, { w with receipts := w.receipts.next.2 })
  | .compilers => return .ok (← get).compilers
  | .installCompiler _ => return .ok ()
  | .selectCompiler _ => return .ok ()
  | .compile .. => modifyGet fun w => (w.outputs.next.1, { w with outputs := w.outputs.next.2 })

/-- The answer to a request, which is added to the history. -/
def answer (r : Request) : StateM Recorded (Answer r) := do
  modify fun w => { w with history := w.history ++ [r] }
  reply r

/-- The outcome of a program in a recorded world, and the world after it. -/
def run {α : Type} (w : Recorded) (x : Action α) : Except Fault α × Recorded :=
  StateT.run (m := Id) (Script.run answer x.run) w

end Recorded

end SolidityAudit.Outside
