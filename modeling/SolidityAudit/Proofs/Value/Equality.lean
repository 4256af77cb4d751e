import SolidityAudit.Value

/-!
# Equal values

Whether two values are the same in every part can be computed, so what is read from a text can be
checked against what it should be.
-/

namespace SolidityAudit.Value

mutual

/-- Values of one kind are compared part by part. -/
def decEq (v w : Value) : Decidable (v = w) :=
  match v with
  | .null =>
    match w with
    | .null => isTrue rfl
    | .bool _ | .int _ | .float _ | .str _ | .list _ | .object _ => isFalse nofun
  | .bool a =>
    match w with
    | .bool b => decidable_of_iff (a = b) ⟨congrArg Value.bool, Value.bool.inj⟩
    | .null | .int _ | .float _ | .str _ | .list _ | .object _ => isFalse nofun
  | .int m =>
    match w with
    | .int n => decidable_of_iff (m = n) ⟨congrArg Value.int, Value.int.inj⟩
    | .null | .bool _ | .float _ | .str _ | .list _ | .object _ => isFalse nofun
  | .float x =>
    match w with
    | .float y => decidable_of_iff (x = y) ⟨congrArg Value.float, Value.float.inj⟩
    | .null | .bool _ | .int _ | .str _ | .list _ | .object _ => isFalse nofun
  | .str s =>
    match w with
    | .str t => decidable_of_iff (s = t) ⟨congrArg Value.str, Value.str.inj⟩
    | .null | .bool _ | .int _ | .float _ | .list _ | .object _ => isFalse nofun
  | .list xs =>
    match w with
    | .list ys =>
      match decEqItems xs ys with
      | isTrue h => isTrue (congrArg Value.list h)
      | isFalse h => isFalse fun e => h (Value.list.inj e)
    | .null | .bool _ | .int _ | .float _ | .str _ | .object _ => isFalse nofun
  | .object fs =>
    match w with
    | .object gs =>
      match decEqFields fs gs with
      | isTrue h => isTrue (congrArg Value.object h)
      | isFalse h => isFalse fun e => h (Value.object.inj e)
    | .null | .bool _ | .int _ | .float _ | .str _ | .list _ => isFalse nofun

/-- Items are compared one by one. -/
def decEqItems (xs ys : List Value) : Decidable (xs = ys) :=
  match xs, ys with
  | [], [] => isTrue rfl
  | [], _ :: _ | _ :: _, [] => isFalse nofun
  | x :: xs, y :: ys =>
    match decEq x y, decEqItems xs ys with
    | isTrue h, isTrue hrest => isTrue (by rw [h, hrest])
    | isFalse h, _ => isFalse fun e => h (List.cons.inj e).1
    | _, isFalse hrest => isFalse fun e => hrest (List.cons.inj e).2

/-- Fields are compared one by one, each by its key and its value. -/
def decEqFields (fs gs : List (String × Value)) : Decidable (fs = gs) :=
  match fs, gs with
  | [], [] => isTrue rfl
  | [], _ :: _ | _ :: _, [] => isFalse nofun
  | (k, v) :: fs, (l, w) :: gs =>
    match inferInstanceAs (Decidable (k = l)), decEq v w, decEqFields fs gs with
    | isTrue hkey, isTrue h, isTrue hrest => isTrue (by rw [hkey, h, hrest])
    | isFalse hkey, _, _ => isFalse fun e => hkey (Prod.mk.inj (List.cons.inj e).1).1
    | _, isFalse h, _ => isFalse fun e => h (Prod.mk.inj (List.cons.inj e).1).2
    | _, _, isFalse hrest => isFalse fun e => hrest (List.cons.inj e).2

end

instance : DecidableEq Value := decEq

end SolidityAudit.Value
