import Mathlib.Tactic.Ring
import SolidityAudit.Number.Double

/-!
# The size of rounded numbers

A quotient that is not too large is rounded to a finite number, a nearest one among those with some
number of binary places (`Double.ofQuotient_nearest`). So rounding never crosses a number with fewer
places (`Nearest.le_mantissa`, `Nearest.mantissa_le`), and the mean of small numbers can be computed
without running out of the range.
-/

namespace SolidityAudit

/-- A quotient differs from the number to which it is rounded by at most one half. -/
lemma roundHalfEven_near (num : Nat) {den : Nat} (hden : 0 < den) :
    2 * (roundHalfEven num den * den) ≤ 2 * num + den ∧
      2 * num ≤ 2 * (roundHalfEven num den * den) + den := by
  have hsplit : num / den * den + num % den = num := Nat.div_add_mod' num den
  have hmod : num % den < den := Nat.mod_lt num hden
  have hnext : (num / den + 1) * den = num / den * den + den := Nat.succ_mul ..
  unfold roundHalfEven
  dsimp only
  split_ifs <;> omega

/-- A quotient is rounded to a number from which it differs by less than one half. -/
lemma roundHalfEven_eq {num den q : Nat} (habove : 2 * num < 2 * (q * den) + den)
    (hbelow : 2 * (q * den) < 2 * num + den) : roundHalfEven num den = q := by
  have hden : 0 < den := by omega
  obtain ⟨hle, hge⟩ := roundHalfEven_near num hden
  generalize roundHalfEven num den = r at hle hge
  rcases Nat.lt_trichotomy r q with hlt | heq | hgt
  · have := Nat.mul_le_mul_right den (Nat.succ_le_of_lt hlt)
    rw [Nat.succ_mul] at this
    omega
  · exact heq
  · have := Nat.mul_le_mul_right den (Nat.succ_le_of_lt hgt)
    rw [Nat.succ_mul] at this
    omega

/-! ## Numbers with some binary places -/

/-- `m / 2 ^ places` is a nearest number to `num / den` among those with so many binary places: it
differs by at most one half in the last of them. -/
structure Nearest (m places num den : Nat) : Prop where
  le : 2 * (m * den) ≤ 2 * (num * 2 ^ places) + den
  ge : 2 * (num * 2 ^ places) ≤ 2 * (m * den) + den

namespace Nearest

variable {m places num den : Nat}

lemma zero : Nearest 0 places 0 den := by
  constructor <;> omega

/-- Rounding the quotient of the last place gives a nearest number. -/
lemma of_round (num places : Nat) (hden : 0 < den) :
    Nearest (roundHalfEven (num * 2 ^ places) den) places num den :=
  ⟨(roundHalfEven_near _ hden).1, (roundHalfEven_near _ hden).2⟩

/-- A nearest number that ends in a zero is a nearest one without it. -/
lemma of_double (h : Nearest (2 * m) (places + 1) num den) : Nearest m places num den := by
  obtain ⟨hle, hge⟩ := h
  have hm : 2 * m * den = 2 * (m * den) := Nat.mul_assoc ..
  have hnum : num * 2 ^ (places + 1) = 2 * (num * 2 ^ places) := by ring
  rw [hm, hnum] at hle hge
  constructor <;> omega

/-- A factor of both sides of the quotient does not matter. -/
lemma of_mul_right {c : Nat} (hc : 0 < c) (h : Nearest m places (num * c) (den * c)) :
    Nearest m places num den := by
  obtain ⟨hle, hge⟩ := h
  constructor
  · refine Nat.le_of_mul_le_mul_right (c := c) ?_ hc
    calc 2 * (m * den) * c = 2 * (m * (den * c)) := by ring
      _ ≤ 2 * (num * c * 2 ^ places) + den * c := hle
      _ = (2 * (num * 2 ^ places) + den) * c := by ring
  · refine Nat.le_of_mul_le_mul_right (c := c) ?_ hc
    calc 2 * (num * 2 ^ places) * c = 2 * (num * c * 2 ^ places) := by ring
      _ ≤ 2 * (m * (den * c)) + den * c := hge
      _ = (2 * (m * den) + den) * c := by ring

variable {c j i : Nat}

/-- What is not below a number with fewer places is not rounded below it. -/
lemma le_mantissa (h : Nearest m places num den) (hplaces : places = j + i) (hden : 0 < den)
    (hc : c * den ≤ num * 2 ^ j) : c * 2 ^ i ≤ m := by
  subst hplaces
  have hscaled : c * 2 ^ i * den ≤ num * 2 ^ (j + i) := by
    calc c * 2 ^ i * den = c * den * 2 ^ i := by ring
      _ ≤ num * 2 ^ j * 2 ^ i := Nat.mul_le_mul_right _ hc
      _ = num * 2 ^ (j + i) := by rw [Nat.pow_add, Nat.mul_assoc]
  have hnear := h.ge
  -- less than one unit of the last place lies between the two
  by_contra hlt
  have : (m + 1) * den ≤ c * 2 ^ i * den := Nat.mul_le_mul_right den (by omega)
  rw [Nat.succ_mul] at this
  omega

/-- What is not above a number with fewer places is not rounded above it. -/
lemma mantissa_le (h : Nearest m places num den) (hplaces : places = j + i) (hden : 0 < den)
    (hc : num * 2 ^ j ≤ c * den) : m ≤ c * 2 ^ i := by
  subst hplaces
  have hscaled : num * 2 ^ (j + i) ≤ c * 2 ^ i * den := by
    calc num * 2 ^ (j + i) = num * 2 ^ j * 2 ^ i := by rw [Nat.pow_add, Nat.mul_assoc]
      _ ≤ c * den * 2 ^ i := Nat.mul_le_mul_right _ hc
      _ = c * 2 ^ i * den := by ring
  have hnear := h.le
  by_contra hlt
  have : (c * 2 ^ i + 1) * den ≤ m * den := Nat.mul_le_mul_right den (by omega)
  rw [Nat.succ_mul] at this
  omega

end Nearest

namespace Double

/-- A quotient other than zero is rounded to the mantissa that belongs to its exponent, unless this
carries. -/
lemma ofQuotient_eq {num den m : Nat} {e : Int} (hnum : num ≠ 0)
    (hexponent : exponentOf num den = e)
    (hround : roundHalfEven (num * Nat.pow 2 (-e).toNat) (den * Nat.pow 2 e.toNat) = m)
    (hm : m ≠ Nat.pow 2 53) (he : e ≤ greatestExponent) (negative : Bool) :
    ofQuotient negative num den = finite negative m e := by
  rw [ofQuotient, if_neg hnum, hexponent]
  dsimp only
  rw [hround, if_neg hm]
  dsimp only
  rw [if_neg (by omega)]

/-- A number with a fraction times an integer is a quotient by a power of two. -/
lemma scale_neg (negative : Bool) (m places k : Nat) :
    (finite negative m (-places)).scale k = ofQuotient negative (m * k) (Nat.pow 2 places) := by
  have hwhole : (-(places : Int)).toNat = 0 := by omega
  rw [scale, hwhole, neg_neg, Int.toNat_natCast]
  exact congrArg (ofQuotient negative · _) (Nat.mul_one (m * k))

/-- The exponent of a quotient below `2 ^ k`. -/
lemma exponentOf_le {num den k : Nat} (hnum : num ≠ 0) (h : num < 2 ^ k * den) :
    exponentOf num den ≤ max leastExponent (k - 52) := by
  have hden : den < 2 ^ (den.log2 + 1) := Nat.lt_log2_self
  have hlog : num.log2 < k + den.log2 + 1 := by
    rw [Nat.log2_lt hnum]
    calc num < 2 ^ k * den := h
      _ ≤ 2 ^ k * 2 ^ (den.log2 + 1) := Nat.mul_le_mul_left _ hden.le
      _ = 2 ^ (k + den.log2 + 1) := by ring
  unfold exponentOf
  dsimp only
  split_ifs <;> omega

/-- A quotient below `2 ^ k` is rounded to a finite number with at least `51 - k` binary places,
a nearest one among the numbers with so many places. -/
theorem ofQuotient_nearest {num den k : Nat} (hk : k ≤ 51) (h : num < 2 ^ k * den)
    (negative : Bool) :
    ∃ m places : Nat, ofQuotient negative num den = finite negative m (-places) ∧
      51 ≤ places + k ∧ Nearest m places num den := by
  have hden : 0 < den := Nat.pos_of_mul_pos_left (Nat.zero_lt_of_lt h)
  by_cases hnum : num = 0
  · refine ⟨0, 1074, by rw [ofQuotient, if_pos hnum]; rfl, by omega, ?_⟩
    rw [hnum]
    exact Nearest.zero
  have hexponent : exponentOf num den ≤ max leastExponent (k - 52) := exponentOf_le hnum h
  unfold leastExponent at hexponent
  obtain ⟨places, he⟩ : ∃ places : Nat, exponentOf num den = -(places + 1 : Nat) :=
    ⟨(-exponentOf num den).toNat - 1, by omega⟩
  have hplaces : 51 ≤ places + k := by omega
  have hround := Nearest.of_round num (places + 1) hden
  have hpow : den * Nat.pow 2 (-(places + 1 : Nat) : Int).toNat = den := by
    rw [show (-(places + 1 : Nat) : Int).toNat = 0 by omega]
    exact Nat.mul_one den
  rw [ofQuotient, if_neg hnum, he]
  dsimp only
  rw [hpow, neg_neg, Int.toNat_natCast]
  change Nearest (roundHalfEven (num * Nat.pow 2 (places + 1)) den) _ _ _ at hround
  generalize roundHalfEven (num * Nat.pow 2 (places + 1)) den = m at hround
  by_cases hcarry : m = Nat.pow 2 53
  · -- the carry takes one place away and makes the mantissa half as large
    have hnext : (-(places + 1 : Nat) + 1 : Int) = -(places : Int) := by omega
    have hrange : ¬ (-(places : Int)) > greatestExponent := by unfold greatestExponent; omega
    rw [if_pos hcarry]
    dsimp only
    rw [hnext, if_neg hrange]
    rw [hcarry] at hround
    exact ⟨Nat.pow 2 52, places, rfl, hplaces, Nearest.of_double hround⟩
  · have hrange : ¬ (-(places + 1 : Nat) : Int) > greatestExponent := by
      unfold greatestExponent; omega
    rw [if_neg hcarry]
    dsimp only
    rw [if_neg hrange]
    exact ⟨m, places + 1, rfl, by omega, hround⟩

end Double

end SolidityAudit
