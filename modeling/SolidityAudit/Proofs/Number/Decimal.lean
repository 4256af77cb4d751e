import Mathlib.Tactic.Lemma
import SolidityAudit.Number.Decimal

/-!
# Decimal numbers that cannot be had

When a value stands for no decimal number, or the number leaves the arithmetic, the fault is never a
failure that the program reports itself.
-/

namespace SolidityAudit

/-! ## Faults that nobody reports -/

/-- An outcome that is no failure of the program's own. -/
inductive Unreported {α : Type} : Except Fault α → Prop
  | ok (a : α) : Unreported (.ok a)
  | error {f : Fault} (h : f.family? = none) : Unreported (.error f)

lemma Unreported.bind {α β : Type} {x : Except Fault α} {f : α → Except Fault β}
    (hx : Unreported x) (hf : ∀ a, Unreported (f a)) : Unreported (x >>= f) := by
  cases hx with
  | ok a => exact hf a
  | error h => exact .error h

namespace Decimal

lemma unreported_ofParts (negative : Bool) (coefficient : Nat) (exponent : Int) :
    Unreported (ofParts negative coefficient exponent) := by
  unfold ofParts
  split
  · exact .error rfl
  · exact .ok _

lemma unreported_read (s : String) : Unreported (read s) := by
  unfold read
  dsimp only
  split
  · exact .ok _
  · exact .error rfl
  · split
    · exact .error rfl
    · exact unreported_ofParts ..

lemma unreported_integerPart (part : DecimalPart) (v : Value) :
    Unreported (integerPart part v) := by
  unfold integerPart
  split
  · exact .error rfl
  · split
    · exact .error rfl
    · exact .ok _

lemma unreported_digitsPart (v : Value) : Unreported (digitsPart v) := by
  unfold digitsPart
  split
  · rename_i items
    -- digit by digit, whatever has been read before
    generalize (0 : Nat) = n
    induction items generalizing n with
    | nil => exact .ok n
    | cons v items ih =>
      rw [List.foldlM_cons]
      refine .bind (.bind (unreported_integerPart ..) fun digit => ?_) ih
      split
      · exact .error rfl
      · exact .ok _
  · exact .error rfl

lemma unreported_ofList (items : List Value) : Unreported (ofList items) := by
  unfold ofList
  split
  · rename_i sign digits last
    refine .bind ?_ fun negative => ?_
    · refine .bind (unreported_integerPart ..) fun n => ?_
      split
      · exact .ok _
      · exact .ok _
      · exact .error rfl
    · unfold ofLastPart
      split
      · exact .bind (unreported_digitsPart _) fun _ => .ok _
      · exact .bind (unreported_digitsPart _) fun _ => .ok _
      · exact .bind (unreported_digitsPart _) fun _ => .ok _
      · exact .error rfl
      · exact .bind (unreported_integerPart ..) fun _ =>
          .bind (unreported_digitsPart _) fun _ => unreported_ofParts ..
  · exact .error rfl

lemma unreported_ofValue (v : Value) : Unreported (ofValue v) := by
  cases v with
  | bool b => exact .ok _
  | int n => exact .ok _
  | float x => exact .ok _
  | str s => exact unreported_read s
  | list items => exact unreported_ofList items
  | null => exact .error rfl
  | object fields => exact .error rfl

lemma unreported_movePoint (places : Nat) (d : Decimal) : Unreported (d.movePoint places) := by
  cases d with
  | finite negative coefficient exponent =>
    unfold movePoint round
    dsimp only
    generalize dropZeros _ _ _ = shown
    split
    · exact .ok _
    · split
      · exact .error rfl
      · exact .ok _
  | infinite negative => exact .ok _
  | undefined negative mark => exact .ok _
  | signalling => exact .error rfl

end Decimal

end SolidityAudit
