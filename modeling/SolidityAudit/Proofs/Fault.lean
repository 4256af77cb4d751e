import Mathlib.Data.List.Forall2
import Mathlib.Tactic.Lemma
import SolidityAudit.Fault

/-!
# Operations that may fail

What the outcome of operations one after the other says about each of them.
-/

namespace SolidityAudit

variable {ε α β : Type} {f : α → Except ε β} {e e' : ε}

lemma bind_eq_ok_iff {x : Except ε α} {b : β} :
    x >>= f = .ok b ↔ ∃ a, x = .ok a ∧ f a = .ok b := by
  cases x with
  | error e => exact iff_of_false nofun (by simp)
  | ok a => exact ⟨fun h => ⟨a, rfl, h⟩, fun ⟨_, ha, h⟩ => Except.ok.inj ha ▸ h⟩

lemma bind_eq_error_iff {x : Except ε α} :
    x >>= f = .error e ↔ x = .error e ∨ ∃ a, x = .ok a ∧ f a = .error e := by
  cases x with
  | error e' =>
    constructor
    · intro h
      exact .inl (congrArg Except.error (Except.error.inj h))
    · rintro (h | ⟨a, ha, -⟩)
      · exact congrArg Except.error (Except.error.inj h)
      · cases ha
  | ok a =>
    constructor
    · intro h
      exact .inr ⟨a, rfl, h⟩
    · rintro (h | ⟨b, hb, h⟩)
      · cases h
      · exact Except.ok.inj hb ▸ h

/-- A last step that cannot fail leaves the fault as it is. -/
lemma bind_pure_eq_error_iff {x : Except ε α} {g : α → β} :
    (x >>= fun a => pure (g a)) = .error e ↔ x = .error e := by
  rw [bind_eq_error_iff]
  refine ⟨fun h => h.elim id ?_, .inl⟩
  rintro ⟨a, -, ⟨⟩⟩

lemma map_ok_injective : Function.Injective (List.map (Except.ok : α → Except Fault α)) :=
  List.map_injective_iff.mpr fun _ _ => Except.ok.inj

/-- A list is read item by item. -/
lemma mapM_eq_ok_iff {xs : List α} {ys : List β} :
    xs.mapM f = .ok ys ↔ List.Forall₂ (fun x y => f x = .ok y) xs ys := by
  induction xs generalizing ys with
  | nil =>
    rw [List.forall₂_nil_left_iff]
    exact ⟨fun h => (Except.ok.inj h).symm, fun h => h ▸ rfl⟩
  | cons x xs ih =>
    simp only [List.mapM_cons, bind_eq_ok_iff, List.forall₂_cons_left_iff, ih]
    constructor
    · rintro ⟨y, hy, ys, hys, ⟨⟩⟩
      exact ⟨y, ys, hy, hys, rfl⟩
    · rintro ⟨y, ys, hy, hys, rfl⟩
      exact ⟨y, hy, ys, hys, rfl⟩

/-- Items that fail in one way only make the list fail in this way. -/
lemma mapM_eq_error_iff {xs : List α} (h : ∀ x ∈ xs, ∀ e', f x = .error e' → e' = e) :
    xs.mapM f = .error e' ↔ e' = e ∧ ∃ x ∈ xs, f x = .error e := by
  induction xs with
  | nil => exact iff_of_false nofun (by simp)
  | cons x xs ih =>
    have hxs := ih fun y hy => h y (List.mem_cons_of_mem x hy)
    rw [List.mapM_cons]
    cases hx : f x with
    | error e'' =>
      obtain rfl := h x List.mem_cons_self e'' hx
      constructor
      · intro herror
        exact ⟨(Except.error.inj herror).symm, x, List.mem_cons_self, hx⟩
      · rintro ⟨rfl, -⟩
        rfl
    | ok y =>
      have hrest : (∃ z ∈ x :: xs, f z = .error e) ↔ ∃ z ∈ xs, f z = .error e := by
        rw [List.exists_mem_cons_iff, hx]
        exact or_iff_right nofun
      rw [hrest, ← hxs, bind_eq_error_iff]
      constructor
      · rintro (herror | ⟨y', hy', herror⟩)
        · cases herror
        · rcases bind_eq_error_iff.mp herror with herror | ⟨ys, -, herror⟩
          · exact herror
          · cases herror
      · intro herror
        exact .inr ⟨y, rfl, by rw [herror]; rfl⟩

end SolidityAudit
