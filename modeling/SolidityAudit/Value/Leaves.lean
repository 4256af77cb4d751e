import SolidityAudit.Value

/-!
# Leaves, and integers that are too long

An integer is turned into digits, and digits into an integer, only up to a number of digits. A value
is written or shown only if every integer in it keeps to that number.
-/

namespace SolidityAudit

/-- The most digits that an integer may have where it is written or read. -/
def digitLimit : Nat := 4300

namespace Value

mutual

/-- The names, numbers and texts of a value from the first to the last, keys included. -/
def leaves : Value → List Value
  | .list items => leavesOfItems items
  | .object fields => leavesOfFields fields
  | v => [v]

/-- The leaves of the items of a list. -/
def leavesOfItems : List Value → List Value
  | [] => []
  | v :: rest => leaves v ++ leavesOfItems rest

/-- The leaves of the fields of an object, each key before its value. -/
def leavesOfFields : List (String × Value) → List Value
  | [] => []
  | (k, v) :: rest => .str k :: leaves v ++ leavesOfFields rest

end

/-- An integer with more digits than are written. -/
def isLong : Value → Bool
  | .int n => digitLimit < (Nat.toDigits 10 n.natAbs).length
  | _ => false

/-- Whether there is an integer in the value with more digits than are written. -/
def hasLong (v : Value) : Bool := v.leaves.any isLong

end Value

end SolidityAudit
