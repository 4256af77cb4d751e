import SolidityAudit.Number.Double

/-!
# Dynamic values

The data that comes in from outside without a fixed shape: model replies, ledger answers, compiler
output, configuration settings and syntax trees. An object keeps its keys in the order in which they
were given.
-/

namespace SolidityAudit

/-- A value of a data format. -/
inductive Value
  | null
  | bool (b : Bool)
  | int (n : Int)
  | float (x : Double)
  | str (s : String)
  | list (items : List Value)
  | object (fields : List (String × Value))
deriving Inhabited, Repr

/-- The kind of a value. -/
inductive Kind
  | null | bool | int | float | str | list | object
deriving DecidableEq, Repr

namespace Kind

/-- The name that messages give to a kind. -/
def name : Kind → String
  | null => "NoneType"
  | bool => "bool"
  | int => "int"
  | float => "float"
  | str => "str"
  | list => "list"
  | object => "dict"

end Kind

/-- The value that a key of an ordered list of fields has first. -/
def fieldOf (key : String) (fields : List (String × Value)) : Option Value :=
  fields.lookup key

/-- The fields after a key has been set: in its old place if it was there, else at the end. -/
def setField (key : String) (v : Value) : List (String × Value) → List (String × Value)
  | [] => [(key, v)]
  | (k, w) :: rest => if k = key then (k, v) :: rest else (k, w) :: setField key v rest

namespace Value

/-- The kind of a value. -/
def kind : Value → Kind
  | null => .null
  | bool _ => .bool
  | int _ => .int
  | float _ => .float
  | str _ => .str
  | list _ => .list
  | object _ => .object

/-- Everything but null, false, zero and what is empty. -/
def truthy : Value → Bool
  | null => false
  | bool b => b
  | int n => n != 0
  | float x => !x.isZero
  | str s => s != ""
  | list items => !items.isEmpty
  | object fields => !fields.isEmpty

/-- The value, or another one in place of an empty value. -/
def orElse (v other : Value) : Value :=
  if v.truthy then v else other

/-- The integer that a value counts as, booleans included. -/
def integer? : Value → Option Int
  | bool b => some (if b then 1 else 0)
  | int n => some n
  | _ => none

/-- Numbers of different kinds are the same when their values are. -/
def sameNumber (v w : Value) : Bool :=
  match v.integer?, w.integer?, v, w with
  | some a, some b, _, _ => a == b
  | some a, none, _, float y => y.compareRatio a 1 == some .eq
  | none, some b, float x, _ => x.compareRatio b 1 == some .eq
  | none, none, float x, float y => x.compare? y == some .eq
  | _, _, _, _ => false

mutual

/-- Equality of values: numbers by value, objects without regard to the order of their keys. -/
def same : Value → Value → Bool
  | null, null => true
  | str s, str t => s == t
  | list xs, list ys => sameItems xs ys
  | object xs, object ys => xs.length == ys.length && sameFields xs ys
  | v, w => sameNumber v w

/-- Equality of lists, item by item. -/
def sameItems : List Value → List Value → Bool
  | [], [] => true
  | x :: xs, y :: ys => same x y && sameItems xs ys
  | _, _ => false

/-- Whether the other fields hold the same value under each key. -/
def sameFields : List (String × Value) → List (String × Value) → Bool
  | [], _ => true
  | (k, v) :: rest, ys =>
    (match fieldOf k ys with
      | some w => same v w
      | none => false) && sameFields rest ys

end

/-- The text of a text value. -/
def text? : Value → Option String
  | str s => some s
  | _ => none

end Value

end SolidityAudit
