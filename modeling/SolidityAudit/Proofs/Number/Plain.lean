import Mathlib.Algebra.Order.Field.Rat
import Mathlib.Tactic.FieldSimp
import Mathlib.Tactic.Ring
import SolidityAudit.Number.Decimal
import SolidityAudit.Proofs.Text.Digit

/-!
# Numbers in plain digits

A plain numeral is a sign, the digits of a whole number, and the digits of a fraction if there is
one; nothing in it is superfluous (`Numeral`). A decimal number without zeros at the end of its
coefficient is shown as the plain numeral of its value, wherever its point is
(`Decimal.plain_of_normal`). A number of few digits is brought into this form without a loss
(`Decimal.round_exact`).
-/

namespace SolidityAudit

/-! ## Numerals -/

/-- A number in plain digits: no zero stands in front of the whole part without need, or at the end
of the fraction. -/
structure Numeral where
  negative : Bool
  whole : List Char
  fraction : List Char
  digits : ∀ c ∈ whole ++ fraction, c.isDigit = true
  whole_ne_nil : whole ≠ []
  whole_head : whole = ['0'] ∨ whole.head? ≠ some '0'
  fraction_last : fraction.getLast? ≠ some '0'

namespace Numeral

/-- A number as text. Without a fraction there is no point. -/
def text (t : Numeral) : String :=
  (if t.negative then "-" else "") ++
    String.ofList (t.whole ++ if t.fraction = [] then [] else '.' :: t.fraction)

/-- The number that is written. -/
def value (t : Numeral) : ℚ :=
  (if t.negative then -1 else 1) * Nat.ofDigitChars 10 (t.whole ++ t.fraction) 0 /
    10 ^ t.fraction.length

end Numeral

/-! ## Digits and zeros -/

section Digits

variable {n k : Nat}

lemma toList_toString (n : Nat) : (toString n).toList = Nat.toDigits 10 n :=
  Nat.toList_repr

lemma head?_toDigits (hn : n ≠ 0) : (Nat.toDigits 10 n).head? ≠ some '0' := by
  obtain ⟨c, cs, hdigits, hc⟩ := Text.toDigits_head (Nat.pos_of_ne_zero hn)
  rw [hdigits]
  simpa using hc

lemma getLast?_toDigits (hn : n % 10 ≠ 0) : (Nat.toDigits 10 n).getLast? ≠ some '0' := by
  have hlast : (Nat.toDigits 10 n).getLast? = some (n % 10).digitChar := by
    rw [Nat.toDigits_eq_if (by decide)]
    split
    · rename_i hsmall
      rw [Nat.mod_eq_of_lt hsmall, List.getLast?_singleton]
    · rw [List.getLast?_concat]
  rw [hlast]
  simpa using Text.digitChar_ne_zero (n % 10) (by omega) (by omega)

/-- Zeros in front of digits do not count. -/
lemma ofDigitChars_zeros_append (k : Nat) (digits : List Char) :
    Nat.ofDigitChars 10 (List.replicate k '0' ++ digits) 0 = Nat.ofDigitChars 10 digits 0 := by
  induction k with
  | zero => rfl
  | succ k ih =>
    rw [List.replicate_succ, List.cons_append, Nat.ofDigitChars_cons]
    exact ih

/-- Zeros behind digits count as powers of ten. -/
lemma ofDigitChars_append_zeros (k : Nat) (digits : List Char) :
    Nat.ofDigitChars 10 (digits ++ List.replicate k '0') 0 =
      Nat.ofDigitChars 10 digits 0 * 10 ^ k := by
  induction k with
  | zero => simp
  | succ k ih =>
    have hzero (m : Nat) : Nat.ofDigitChars 10 ['0'] m = 10 * m := rfl
    rw [List.replicate_succ', ← List.append_assoc, Nat.ofDigitChars_append, hzero, ih]
    ring

end Digits

namespace Decimal

variable {n m : Nat} {e : Int}

/-- The value of a finite number. -/
def valueOf (negative : Bool) (m : Nat) (e : Int) : ℚ :=
  (if negative then -1 else 1) * m * 10 ^ e

/-- A coefficient and an exponent without superfluous zeros. -/
def Normal (m : Nat) (e : Int) : Prop :=
  m % 10 ≠ 0 ∨ m = 0 ∧ e = 0

/-! ## Plain digits -/

lemma isDigit_of_mem_zeros {c : Char} {k : Nat} (h : c ∈ List.replicate k '0') :
    c.isDigit = true := by
  rw [(List.mem_replicate.mp h).2]
  rfl

/-- A whole number is shown with its zeros. -/
lemma plain_of_nonneg (h : Normal m e) (he : 0 ≤ e) (negative : Bool) :
    ∃ t : Numeral, (finite negative m e).plain = t.text ∧ t.negative = negative ∧
      t.value = valueOf negative m e := by
  obtain ⟨k, rfl⟩ := Int.eq_ofNat_of_zero_le he
  have hzeros : (if m = 0 then 0 else (k : Int).toNat) = k := by
    rcases h with hm | ⟨-, hk⟩
    · rw [if_neg (by rintro rfl; exact hm rfl), Int.toNat_natCast]
    · obtain rfl : k = 0 := by omega
      simp
  have hdigits : ∀ c ∈ Nat.toDigits 10 m ++ List.replicate k '0' ++ [], c.isDigit = true := by
    simp only [List.append_nil, List.forall_mem_append]
    exact ⟨fun c => Text.isDigit_of_mem_toDigits, fun c => isDigit_of_mem_zeros⟩
  have hhead : Nat.toDigits 10 m ++ List.replicate k '0' = ['0'] ∨
      (Nat.toDigits 10 m ++ List.replicate k '0').head? ≠ some '0' := by
    by_cases hm : m = 0
    · left
      rw [if_pos hm] at hzeros
      rw [hm, ← hzeros]
      rfl
    · right
      rw [List.head?_append_of_ne_nil _ Nat.toDigits_ne_nil]
      exact head?_toDigits hm
  refine ⟨⟨negative, _, [], hdigits, List.append_ne_nil_of_left_ne_nil Nat.toDigits_ne_nil _, hhead,
    nofun⟩, ?_, rfl, ?_⟩
  · rw [plain, plainDigits, if_pos he, hzeros, toList_toString, Numeral.text, if_pos rfl,
      List.append_nil]
  · rw [Numeral.value, valueOf, List.append_nil, ofDigitChars_append_zeros,
      Nat.ofDigitChars_ten_toDigits, zpow_natCast]
    simp

/-- Digits with zeros in front of them, so that a whole part remains in front of the places of the
fraction. -/
def padded (places : Nat) (digits : List Char) : List Char :=
  List.replicate (places + 1 - digits.length) '0' ++ digits

section Padded

variable {places : Nat} {digits : List Char}

lemma lt_length_padded : places < (padded places digits).length := by
  rw [padded, List.length_append, List.length_replicate]
  omega

lemma isDigit_of_mem_padded (h : ∀ c ∈ digits, c.isDigit = true) :
    ∀ c ∈ padded places digits, c.isDigit = true := by
  rw [padded, List.forall_mem_append]
  exact ⟨fun c => isDigit_of_mem_zeros, h⟩

/-- The whole part is a zero that was put there, or begins as the digits do. -/
lemma whole_padded (h : digits.head? ≠ some '0') :
    (padded places digits).take ((padded places digits).length - places) = ['0'] ∨
      ((padded places digits).take ((padded places digits).length - places)).head? ≠ some '0' := by
  by_cases hshort : digits.length ≤ places
  · left
    have hzeros : places + 1 - digits.length = (places - digits.length) + 1 := by omega
    have hone : (padded places digits).length - places = 1 := by
      rw [padded, List.length_append, List.length_replicate]
      omega
    rw [hone, padded, hzeros]
    rfl
  · right
    have hsame : padded places digits = digits := by
      have hzeros : places + 1 - digits.length = 0 := by omega
      rw [padded, hzeros, List.replicate_zero, List.nil_append]
    have hlt : places < (padded places digits).length := lt_length_padded
    rw [List.head?_take, if_neg (by omega), hsame]
    exact h

/-- The fraction ends as the digits do. -/
lemma fraction_padded (hplaces : 0 < places) (hne : digits ≠ []) (h : digits.getLast? ≠ some '0') :
    ((padded places digits).drop ((padded places digits).length - places)).getLast? ≠ some '0' := by
  have hlt : places < (padded places digits).length := lt_length_padded
  rw [List.getLast?_drop, if_neg (by omega), padded, List.getLast?_append_of_ne_nil _ hne]
  exact h

end Padded

/-- A number with a fraction is shown with a zero in front of its point if it has no other digits
there. -/
lemma plain_of_neg (hm : m % 10 ≠ 0) (he : e < 0) (negative : Bool) :
    ∃ t : Numeral, (finite negative m e).plain = t.text ∧ t.negative = negative ∧
      t.value = valueOf negative m e := by
  obtain ⟨places, rfl, hplaces⟩ : ∃ p : Nat, e = -p ∧ 0 < p := ⟨(-e).toNat, by omega, by omega⟩
  obtain ⟨shown, hshown⟩ : ∃ shown, padded places (Nat.toDigits 10 m) = shown := ⟨_, rfl⟩
  have hlength : places < shown.length := hshown ▸ lt_length_padded
  have hdigits : ∀ c ∈ shown.take (shown.length - places) ++ shown.drop (shown.length - places),
      c.isDigit = true := by
    rw [List.take_append_drop, ← hshown]
    exact isDigit_of_mem_padded fun c => Text.isDigit_of_mem_toDigits
  have hwhole : shown.take (shown.length - places) ≠ [] := by
    rw [← List.length_pos_iff, List.length_take]
    omega
  have hhead : shown.take (shown.length - places) = ['0'] ∨
      (shown.take (shown.length - places)).head? ≠ some '0' := by
    rw [← hshown]
    exact whole_padded (head?_toDigits (by rintro rfl; exact hm rfl))
  have hlast : (shown.drop (shown.length - places)).getLast? ≠ some '0' := by
    rw [← hshown]
    exact fraction_padded hplaces Nat.toDigits_ne_nil (getLast?_toDigits hm)
  have hfraction : (shown.drop (shown.length - places)).length = places := by
    rw [List.length_drop]
    omega
  refine ⟨⟨negative, _, _, hdigits, hwhole, hhead, hlast⟩, ?_, rfl, ?_⟩
  · have hpoint : shown.drop (shown.length - places) ≠ [] := by
      rw [← List.length_pos_iff]
      omega
    rw [plain, plainDigits, if_neg (Int.not_le.mpr he), toList_toString, neg_neg, Int.toNat_natCast]
    unfold padded at hshown
    simp only [hshown]
    rw [Numeral.text, if_neg hpoint]
  · have hvalue : Nat.ofDigitChars 10 shown 0 = m := by
      rw [← hshown, padded, ofDigitChars_zeros_append, Nat.ofDigitChars_ten_toDigits]
    rw [Numeral.value, valueOf]
    simp only [List.take_append_drop, hvalue, hfraction]
    rw [zpow_neg, zpow_natCast, div_eq_mul_inv]

/-- A number without superfluous zeros is shown as the plain numeral of its value. -/
theorem plain_of_normal (h : Normal m e) (negative : Bool) :
    ∃ t : Numeral, (finite negative m e).plain = t.text ∧ t.negative = negative ∧
      t.value = valueOf negative m e := by
  by_cases he : 0 ≤ e
  · exact plain_of_nonneg h he negative
  · rcases h with hm | ⟨-, hzero⟩
    · exact plain_of_neg hm (by omega) negative
    · omega

/-! ## Rounding that drops nothing -/

lemma roundHalfEven_one (n : Nat) : roundHalfEven n 1 = n := by
  unfold roundHalfEven
  simp [Nat.mod_one]

/-- Zeros at the end of a coefficient go into the exponent, one at each step. -/
lemma dropZeros_spec (steps n : Nat) (e : Int) :
    ∃ m k : Nat, dropZeros steps n e = (m, e + k) ∧ n = m * 10 ^ k ∧
      (m % 10 ≠ 0 ∨ k = steps) := by
  induction steps generalizing n e with
  | zero => exact ⟨n, 0, by simp [dropZeros], by simp, .inr rfl⟩
  | succ steps ih =>
    rw [dropZeros]
    by_cases hn : n % 10 = 0
    · obtain ⟨m, k, hdrop, hvalue, hend⟩ := ih (n / 10) (e + 1)
      rw [if_pos hn, hdrop]
      refine ⟨m, k + 1, by rw [Nat.cast_succ]; ring_nf, ?_, by omega⟩
      rw [pow_succ, ← mul_assoc, ← hvalue]
      omega
    · rw [if_neg hn]
      exact ⟨n, 0, by simp, by simp, .inl hn⟩

lemma width_le_iff {k : Nat} (hk : 0 < k) : width n ≤ k ↔ n < 10 ^ k := by
  unfold width
  by_cases hn : n = 0
  · rw [if_pos hn, hn]
    exact iff_of_true (Nat.zero_le k) (Nat.pow_pos (by decide))
  · rw [if_neg hn, ← String.length_toList, toList_toString]
    exact Nat.length_toDigits_le_iff (by decide) hk

/-- As many steps as there are digits bring a number into its form without superfluous zeros. -/
lemma dropZeros_width (hn : n ≠ 0) (e : Int) :
    ∃ m k : Nat, dropZeros (width n) n e = (m, e + k) ∧ n = m * 10 ^ k ∧ m % 10 ≠ 0 := by
  obtain ⟨m, k, hdrop, hvalue, hend⟩ := dropZeros_spec (width n) n e
  refine ⟨m, k, hdrop, hvalue, ?_⟩
  rcases hend with hm | hk
  · exact hm
  · -- then the number would have more digits than its width
    have hm : 0 < m := by
      by_contra hzero
      rw [Nat.eq_zero_of_not_pos hzero, Nat.zero_mul] at hvalue
      exact hn hvalue
    have hwidth : 0 < width n := by
      unfold width
      rw [if_neg hn, ← String.length_toList, toList_toString]
      exact List.length_pos_iff.mpr Nat.toDigits_ne_nil
    have hlt : n < 10 ^ width n := (width_le_iff hwidth).mp (Nat.le_refl _)
    have hle : 10 ^ k ≤ n := by
      rw [hvalue]
      exact Nat.le_mul_of_pos_left _ hm
    rw [hk] at hle
    omega

/-- A number of few digits is kept exactly, without superfluous zeros. -/
theorem round_exact (hn : n < 10 ^ digitCount) (hleast : leastExponent ≤ e) (he : e ≤ 0)
    (negative : Bool) :
    ∃ m e', round negative n e = .ok (finite negative m e') ∧ Normal m e' ∧
      valueOf negative m e' = valueOf negative n e := by
  have hdrop : (max ((width n : Int) - digitCount) (leastExponent - e)).toNat = 0 := by
    have := (width_le_iff (by decide)).mpr hn
    omega
  have hround : round negative n e =
      if (dropZeros (width n) n e).1 = 0 then .ok (.finite negative 0 0)
      else if greatestExponent <
          (dropZeros (width n) n e).2 + width (dropZeros (width n) n e).1 - 1 then
        .error (.decimal .overflow)
      else .ok (.finite negative (dropZeros (width n) n e).1 (dropZeros (width n) n e).2) := by
    have hkept : roundHalfEven n (Nat.pow 10 0) = n := roundHalfEven_one n
    unfold round
    simp only [hdrop, Nat.zero_min, Nat.lt_irrefl, if_false, hkept, Int.natCast_zero, add_zero]
  by_cases hzero : n = 0
  · refine ⟨0, 0, ?_, .inr ⟨rfl, rfl⟩, by simp [valueOf, hzero]⟩
    rw [hround, hzero]
    rfl
  · obtain ⟨m, k, hdigits, hvalue, hm⟩ := dropZeros_width hzero e
    have hne : m ≠ 0 := by rintro rfl; exact hm rfl
    refine ⟨m, e + k, ?_, .inl hm, ?_⟩
    · have hfits : ¬ greatestExponent < e + k + width m - 1 := by
        have hpower : 0 < 10 ^ k := Nat.pow_pos (by decide)
        have hmle : m ≤ n := by
          rw [hvalue]
          exact Nat.le_mul_of_pos_right m hpower
        have hwidth := (width_le_iff (by decide)).mpr (Nat.lt_of_le_of_lt hmle hn)
        have hk : 10 ^ k < 10 ^ digitCount := by
          refine Nat.lt_of_le_of_lt ?_ hn
          rw [hvalue]
          exact Nat.le_mul_of_pos_left _ (Nat.pos_of_ne_zero hne)
        have hkle := (Nat.pow_lt_pow_iff_right (by decide)).mp hk
        unfold digitCount at hwidth hkle
        unfold greatestExponent
        omega
      rw [hround, hdigits]
      dsimp only
      rw [if_neg hne, if_neg hfits]
    · rw [valueOf, valueOf, hvalue, zpow_add₀ (by decide), zpow_natCast]
      push_cast
      ring

end Decimal

end SolidityAudit
