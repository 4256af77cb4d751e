/-!
# Scripts

A script is a program as a tree: it ends with a result, or it asks for something and goes on with
the answer. The type of the answer depends on the request. A script does nothing by itself;
`Script.run` lets it go through in a monad that answers the requests.
-/

namespace SolidityAudit

/-- A program that asks requests of `Q`; the answer to `q` is of type `A q`. -/
inductive Script (Q : Type) (A : Q → Type) (α : Type) : Type
  | done (result : α)
  | ask (request : Q) (next : A request → Script Q A α)

namespace Script

variable {Q : Type} {A : Q → Type} {α β : Type}

/-- One script after the other. -/
def bind : Script Q A α → (α → Script Q A β) → Script Q A β
  | done a, f => f a
  | ask q next, f => ask q fun x => (next x).bind f

instance : Monad (Script Q A) where
  pure := done
  bind := bind

/-- The script of one request. -/
def request (q : Q) : Script Q A (A q) := ask q done

/-- The script with its requests answered one after the other. -/
def run {m : Type → Type} [Monad m] (answer : (q : Q) → m (A q)) : Script Q A α → m α
  | done a => pure a
  | ask q next => answer q >>= fun x => (next x).run answer

end Script

end SolidityAudit
