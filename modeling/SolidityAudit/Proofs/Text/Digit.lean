import Mathlib.Tactic.Lemma

/-!
# Numbers in a text

The digits of a number end where a text does not go on with a digit, so a number at the front of a
text can be read off, and what follows it too (`Text.toDigits_append_inj`).
-/

namespace SolidityAudit.Text

variable {n m : Nat} {front rest rest' : List Char}

/-- A text does not go on with a digit. -/
def NoDigit (rest : List Char) : Prop := ∀ c ∈ rest.head?, c.isDigit = false

lemma noDigit_append (h : front.head?.any (fun c => !c.isDigit) = true) (rest : List Char) :
    NoDigit (front ++ rest) := by
  cases front with
  | nil => cases h
  | cons c front =>
    intro d hd
    rw [← Option.some_inj.mp hd]
    simpa using h

lemma isDigit_of_mem_toDigits {c : Char} (h : c ∈ Nat.toDigits 10 n) : c.isDigit = true :=
  Nat.isDigit_of_mem_toDigits (by omega) (by omega) h

lemma digitChar_ne_zero : ∀ d < 10, 0 < d → d.digitChar ≠ '0' := by decide

/-- Only zero is written with a zero in front. -/
lemma toDigits_head (hn : 0 < n) : ∃ c cs, Nat.toDigits 10 n = c :: cs ∧ c ≠ '0' := by
  induction n using Nat.strongRecOn with
  | ind n ih =>
    by_cases hsmall : n < 10
    · exact ⟨n.digitChar, [], Nat.toDigits_of_lt_base hsmall, digitChar_ne_zero n hsmall hn⟩
    · obtain ⟨c, cs, hdigits, hc⟩ := ih (n / 10) (by omega) (by omega)
      refine ⟨c, cs ++ [(n % 10).digitChar], ?_, hc⟩
      rw [Nat.toDigits_eq_if (by omega), if_neg hsmall, hdigits, List.cons_append]

/-- The digits of a number end where a text does not go on with a digit. -/
lemma takeWhile_toDigits (hrest : NoDigit rest) :
    (Nat.toDigits 10 n ++ rest).takeWhile Char.isDigit = Nat.toDigits 10 n := by
  rw [List.takeWhile_append_of_pos fun c => isDigit_of_mem_toDigits]
  cases rest with
  | nil => exact List.append_nil _
  | cons c rest => rw [List.takeWhile_cons_of_neg (by simp [hrest c rfl]), List.append_nil]

/-- Different numbers have different digits. -/
lemma toDigits_inj (h : Nat.toDigits 10 n = Nat.toDigits 10 m) : n = m := by
  have hnumber := congrArg (fun digits => Nat.ofDigitChars 10 digits 0) h
  simpa only [Nat.ofDigitChars_ten_toDigits] using hnumber

/-- A number at the front of a text can be read off. -/
theorem toDigits_append_inj (hrest : NoDigit rest) (hrest' : NoDigit rest')
    (h : Nat.toDigits 10 n ++ rest = Nat.toDigits 10 m ++ rest') : n = m ∧ rest = rest' := by
  have hdigits : Nat.toDigits 10 n = Nat.toDigits 10 m := by
    rw [← takeWhile_toDigits hrest, h, takeWhile_toDigits hrest']
  rw [hdigits] at h
  exact ⟨toDigits_inj hdigits, List.append_cancel_left h⟩

/-- A text that does not go on with a digit does not begin with a number. -/
lemma ne_toDigits_append (hrest : NoDigit rest) : rest ≠ Nat.toDigits 10 n ++ rest' := by
  rintro rfl
  obtain ⟨c, cs, hdigits⟩ := List.exists_cons_of_ne_nil (Nat.toDigits_ne_nil (n := n) (b := 10))
  have hc := isDigit_of_mem_toDigits (n := n) (hdigits ▸ List.mem_cons_self : c ∈ _)
  rw [hdigits] at hrest
  rw [hrest c rfl] at hc
  cases hc

end SolidityAudit.Text
