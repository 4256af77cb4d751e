import SolidityAudit.Value

/-!
# Sorted keys

The order of keys does not count in some texts of a value; they hold it with its keys in ascending
order of code points, at every depth.
-/

namespace SolidityAudit.Value

/-- The order of characters by code points, from the first on. -/
def charsLe : List Char → List Char → Bool
  | [], _ => true
  | _ :: _, [] => false
  | c :: s, d :: t => c.toNat < d.toNat || (c == d && charsLe s t)

/-- The order of texts by code points. -/
def codePointsLe (s t : String) : Bool := charsLe s.toList t.toList

/-- The fields with a new one in its place by key. -/
def insertSorted (k : String) (v : Value) : List (String × Value) → List (String × Value)
  | [] => [(k, v)]
  | (l, w) :: rest =>
    if codePointsLe k l then (k, v) :: (l, w) :: rest else (l, w) :: insertSorted k v rest

mutual

/-- The value with the keys of its objects in ascending order at every depth. -/
def sortKeys : Value → Value
  | .list items => .list (sortItems items)
  | .object fields => .object (sortFields fields)
  | v => v

/-- The items of a list with sorted keys. -/
def sortItems : List Value → List Value
  | [] => []
  | v :: rest => sortKeys v :: sortItems rest

/-- The fields of an object in the order of their keys. -/
def sortFields : List (String × Value) → List (String × Value)
  | [] => []
  | (k, v) :: rest => insertSorted k (sortKeys v) (sortFields rest)

end

end SolidityAudit.Value
