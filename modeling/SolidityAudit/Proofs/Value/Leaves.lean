import Mathlib.Algebra.Order.Ring.Nat
import SolidityAudit.Proofs.Value.Sorted
import SolidityAudit.Value.Leaves

/-!
# Integers that can be written

A value can be written when each of its parts can (`hasLong_list`, `hasLong_object`), whatever the
order of its keys is (`hasLong_sortKeys`).
-/

namespace SolidityAudit.Value

/-! ## Leaves -/

lemma leaves_list (items : List Value) : (Value.list items).leaves = items.flatMap leaves := by
  rw [leaves]
  induction items with
  | nil => rfl
  | cons v rest ih => rw [leavesOfItems, ih, List.flatMap_cons]

lemma leaves_object (fields : List (String × Value)) :
    (Value.object fields).leaves = fields.flatMap fun f => .str f.1 :: f.2.leaves := by
  rw [leaves]
  induction fields with
  | nil => rfl
  | cons f rest ih => rw [leavesOfFields, ih, List.flatMap_cons]

/-! ## Long integers -/

@[simp] lemma hasLong_null : Value.null.hasLong = false := rfl

@[simp] lemma hasLong_bool (b : Bool) : (Value.bool b).hasLong = false := rfl

@[simp] lemma hasLong_float (x : Double) : (Value.float x).hasLong = false := rfl

@[simp] lemma hasLong_str (s : String) : (Value.str s).hasLong = false := rfl

@[simp] lemma hasLong_list (items : List Value) :
    (Value.list items).hasLong = items.any hasLong := by
  rw [hasLong, leaves_list, List.any_flatMap]
  rfl

@[simp] lemma hasLong_object (fields : List (String × Value)) :
    (Value.object fields).hasLong = fields.any fun f => f.2.hasLong := by
  rw [hasLong, leaves_object, List.any_flatMap]
  rfl

lemma hasLong_eq_false_iff {v : Value} : v.hasLong = false ↔ ∀ w ∈ v.leaves, w.isLong = false := by
  simp [hasLong]

lemma hasLong_int {n : Int} : (Value.int n).hasLong = true ↔ 10 ^ digitLimit ≤ n.natAbs := by
  have hlength : (Nat.toDigits 10 n.natAbs).length ≤ digitLimit ↔ n.natAbs < 10 ^ digitLimit :=
    Nat.length_toDigits_le_iff (by decide) (by decide)
  simpa [hasLong, leaves, isLong] using not_congr hlength

/-- What stands under a key can be written if the whole object can. -/
lemma hasLong_of_fieldOf {key : String} {fields : List (String × Value)} {v : Value}
    (h : (Value.object fields).hasLong = false) (hv : fieldOf key fields = some v) :
    v.hasLong = false := by
  obtain ⟨before, after, rfl, -⟩ := List.lookup_eq_some_iff.mp hv
  rw [hasLong_object, List.any_eq_false] at h
  exact eq_false_of_ne_true (h (key, v) (by simp))

mutual

/-- The order of the keys does not count. -/
lemma hasLong_sortKeys : (v : Value) → v.sortKeys.hasLong = v.hasLong
  | .null | .bool _ | .int _ | .float _ | .str _ => rfl
  | .list items => by rw [sortKeys, hasLong_list, hasLong_list, any_sortItems items]
  | .object fields => by
    rw [sortKeys, hasLong_object, hasLong_object, (sortFields_perm fields).any_eq,
      any_sortField fields]

lemma any_sortItems : (items : List Value) → (sortItems items).any hasLong = items.any hasLong
  | [] => rfl
  | v :: rest => by
    rw [sortItems, List.any_cons, List.any_cons, hasLong_sortKeys v, any_sortItems rest]

lemma any_sortField : (fields : List (String × Value)) →
    ((fields.map sortField).any fun f => f.2.hasLong) = fields.any fun f => f.2.hasLong
  | [] => rfl
  | (k, v) :: rest => by
    rw [List.map_cons, List.any_cons, List.any_cons, any_sortField rest, sortField,
      hasLong_sortKeys v]

end

end SolidityAudit.Value
