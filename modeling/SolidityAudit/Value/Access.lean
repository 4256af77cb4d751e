import SolidityAudit.Fault

/-!
# Taking values apart

What can be asked of a value of unknown shape, and the fault when its kind does not allow it.
-/

namespace SolidityAudit.Value

/-- The value under a key; the key must be there. -/
def item (key : String) : Value → Except Fault Value
  | object fields =>
    match fieldOf key fields with
    | some v => .ok v
    | none => .error (.missingKey (.str key))
  | list _ => .error (.badPlace .list .str)
  | str _ => .error (.badPlace .str .str)
  | v => .error (.notIndexable v.kind)

/-- The value under a key, or another one if the key is not there. -/
def getD (v : Value) (key : String) (default : Value) : Except Fault Value :=
  match v with
  | object fields => .ok ((fieldOf key fields).getD default)
  | _ => .error (.noAttribute v.kind "get")

/-- The value under a key, or null if the key is not there. -/
def get (v : Value) (key : String) : Except Fault Value :=
  v.getD key .null

/-- The fields of an object; `access` is the part that is asked for. -/
def fields (access : String) : Value → Except Fault (List (String × Value))
  | object fields => .ok fields
  | v => .error (.noAttribute v.kind access)

/-- The items of a list, the characters of a text, or the keys of an object. -/
def iterate : Value → Except Fault (List Value)
  | list items => .ok items
  | str s => .ok (s.toList.map fun c => .str (String.singleton c))
  | object fields => .ok (fields.map fun f => .str f.1)
  | v => .error (.notIterable v.kind)

/-- The number of items, characters or fields. -/
def length : Value → Except Fault Nat
  | list items => .ok items.length
  | str s => .ok s.length
  | object fields => .ok fields.length
  | v => .error (.noLength v.kind)

/-- The order of a number and an integer; `none` for an undefined number. -/
def compareInt (symbol : String) (v : Value) (n : Int) : Except Fault (Option Ordering) :=
  match v.integer?, v with
  | some m, _ => .ok (some (compare m n))
  | none, float x => .ok (x.compareRatio n 1)
  | none, _ => .error (.noOrder symbol v.kind .int)

/-- Whether a number is greater than an integer. -/
def exceeds (v : Value) (n : Int) : Except Fault Bool := do
  return (← v.compareInt ">" n) == some .gt

/-- Whether a number is at least an integer. -/
def atLeast (v : Value) (n : Int) : Except Fault Bool := do
  let order ← v.compareInt ">=" n
  return order == some .gt || order == some .eq

end SolidityAudit.Value
