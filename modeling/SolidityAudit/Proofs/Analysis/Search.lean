import Mathlib.Order.Bounds.Basic
import SolidityAudit.Proofs.Analysis.Store
import SolidityAudit.Proofs.Number.Double

/-!
# The search for a free number

A new analysis gets the reading of the clock, in milliseconds, as its number. While the id of a
number is taken, the next number is tried. The search as such has no bound (`Search`). But different
numbers have different ids, and a store has only so many, so the search ends, and at the least free
number (`newId_isLeast`).

The clock keeps an instant in seconds, as a binary fraction that need not be exact. For the instants
from November 2004 to January 2038 the reading in milliseconds is exact all the same
(`numberOf_natCast`).
-/

namespace SolidityAudit.Service

variable {s : Store} {n m m' k k' : Nat}

/-- The search from a number on: after so many numbers whose ids are taken it ends at a number whose
id is free. -/
inductive Search (s : Store) : Nat → Nat → Nat → Prop
  | free {n : Nat} (h : s.contains (idOf n) = false) : Search s n 0 n
  | taken {n k m : Nat} (h : s.contains (idOf n) = true) (next : Search s (n + 1) k m) :
    Search s n (k + 1) m

/-- The search goes in one way only. -/
lemma Search.unique (h : Search s n k m) (h' : Search s n k' m') : k' = k ∧ m' = m := by
  induction h generalizing k' with
  | free hfree =>
    cases h' with
    | free => exact ⟨rfl, rfl⟩
    | taken htaken => exact absurd (htaken.symm.trans hfree) (by decide)
  | taken htaken _ ih =>
    cases h' with
    | free hfree => exact absurd (htaken.symm.trans hfree) (by decide)
    | taken _ next =>
      obtain ⟨rfl, rfl⟩ := ih next
      exact ⟨rfl, rfl⟩

/-- The search ends at the least number from the first one on whose id is free. -/
lemma Search.isLeast (h : Search s n k m) :
    IsLeast {j : Nat | n ≤ j ∧ s.contains (idOf j) = false} m := by
  induction h with
  | free hfree => exact ⟨⟨Nat.le_refl _, hfree⟩, fun j hj => hj.1⟩
  | @taken n k m htaken _ ih =>
    obtain ⟨⟨hle, hfree⟩, hleast⟩ := ih
    refine ⟨⟨by omega, hfree⟩, ?_⟩
    rintro j ⟨hj, hjfree⟩
    have hne : j ≠ n := by
      rintro rfl
      exact absurd (htaken.symm.trans hjfree) (by decide)
    exact hleast ⟨by omega, hjfree⟩

/-- The search passes the numbers whose ids are taken. -/
lemma search_of_taken (htaken : ∀ j < k, s.contains (idOf (n + j : Nat)) = true)
    (hfree : s.contains (idOf (n + k : Nat)) = false) : Search s n k (n + k) := by
  induction k generalizing n with
  | zero => exact .free hfree
  | succ k ih =>
    have hshift (j : Nat) : n + 1 + j = n + (j + 1) := by omega
    have hnext : Search s (n + 1) k (n + 1 + k) := by
      refine ih ?_ ?_
      · intro j hj
        rw [hshift]
        exact htaken (j + 1) (by omega)
      · rwa [hshift]
    rw [hshift] at hnext
    exact .taken (htaken 0 (by omega)) hnext

/-- From any reading of the clock on, the search for a free number passes at most as many numbers as
there are analyses, and ends in one way only. The new id is that of the number at its end, the least
one whose id is not in the store. -/
theorem newId_isLeast (s : Store) (ms : Nat) :
    ∃ bumps m, Search s ms bumps m ∧ bumps ≤ s.count ∧
      (∀ bumps' m', Search s ms bumps' m' → bumps' = bumps ∧ m' = m) ∧
      newId s ms = "analysis-" ++ toString m ∧
      IsLeast {j : Nat | ms ≤ j ∧ s.contains ("analysis-" ++ toString j) = false} m := by
  obtain ⟨k, hk, hid, hfree, htaken⟩ := newId_spec s ms
  have hcast (j : Nat) : (ms : Int) + j = (ms + j : Nat) := by omega
  simp only [hcast] at hid hfree htaken
  have hsearch : Search s ms k (ms + k) := search_of_taken htaken hfree
  exact ⟨k, ms + k, hsearch, hk, fun _ _ h => hsearch.unique h, hid, hsearch.isLeast⟩

/-! ## The reading of the clock -/

section Clock

open Double

lemma log2_eq {n k : Nat} (hle : 2 ^ k ≤ n) (hlt : n < 2 ^ (k + 1)) : n.log2 = k :=
  (Nat.log2_eq_iff (by have := Nat.two_pow_pos k; omega)).mpr ⟨hle, hlt⟩

/-- An instant is kept in seconds as a multiple of `2 ^ -22`, at most half of it away. -/
lemma ofRatio_seconds (hn : 2 ^ 40 < n) (hn' : n < 2 ^ 31 * 1000) :
    ∃ m : Nat, ofRatio n 1000 = finite false m (-22) ∧
      2 * (m * 1000) ≤ 2 * (n * 2 ^ 22) + 1000 ∧ 2 * (n * 2 ^ 22) ≤ 2 * (m * 1000) + 1000 := by
  have hexponent : exponentOf n 1000 = -22 := by
    have hlog : n.log2 = 40 := log2_eq (by omega) (by omega)
    have hlog' : (1000 : Nat).log2 = 9 := by decide
    have hsmall : n * 2 ^ 21 < 2 ^ 52 * (1000 * 2 ^ 0) := by omega
    unfold exponentOf
    rw [hlog, hlog']
    show max leastExponent (if n * 2 ^ 21 < 2 ^ 52 * (1000 * 2 ^ 0) then (-21 - 1 : Int) else -21) =
      -22
    rw [if_pos hsmall]
    rfl
  obtain ⟨hle, hge⟩ := roundHalfEven_near (n * 2 ^ 22) (by decide : 0 < 1000)
  refine ⟨_, ofQuotient_eq (by omega) hexponent rfl ?_ (by decide) false, hle, hge⟩
  show roundHalfEven (n * 2 ^ 22) 1000 ≠ 2 ^ 53
  omega

/-- A thousand times the seconds are the milliseconds again. -/
lemma scale_seconds (hn : 2 ^ 40 < n) (hn' : n < 2 ^ 31 * 1000)
    (hle : 2 * (m * 1000) ≤ 2 * (n * 2 ^ 22) + 1000)
    (hge : 2 * (n * 2 ^ 22) ≤ 2 * (m * 1000) + 1000) :
    (finite false m (-22)).scale 1000 = finite false (n * 2 ^ 12) (-12) := by
  have hexponent : exponentOf (m * 1000) (2 ^ 22) = -12 := by
    have hlog : (m * 1000).log2 = 62 := log2_eq (by omega) (by omega)
    have hlog' : (2 ^ 22 : Nat).log2 = 22 := by decide
    have hlarge : ¬ m * 1000 * 2 ^ 12 < 2 ^ 52 * (2 ^ 22 * 2 ^ 0) := by omega
    unfold exponentOf
    rw [hlog, hlog']
    show max leastExponent (if m * 1000 * 2 ^ 12 < 2 ^ 52 * (2 ^ 22 * 2 ^ 0) then (-12 - 1 : Int)
      else -12) = -12
    rw [if_neg hlarge]
    rfl
  have hscale : (finite false m (-22)).scale 1000 = ofQuotient false (m * 1000) (2 ^ 22) :=
    scale_neg false m 22 1000
  rw [hscale]
  refine ofQuotient_eq (by omega) hexponent (roundHalfEven_eq ?_ ?_) ?_ (by decide) false
  · show 2 * (m * 1000 * 2 ^ 12) < 2 * (n * 2 ^ 12 * (2 ^ 22 * 2 ^ 0)) + 2 ^ 22 * 2 ^ 0
    omega
  · show 2 * (n * 2 ^ 12 * (2 ^ 22 * 2 ^ 0)) < 2 * (m * 1000 * 2 ^ 12) + 2 ^ 22 * 2 ^ 0
    omega
  · show n * 2 ^ 12 ≠ 2 ^ 53
    omega

/-- From November 2004 to January 2038 the clock is read to the millisecond. -/
theorem numberOf_natCast (hn : 2 ^ 40 < n) (hn' : n < 2 ^ 31 * 1000) : numberOf n = n := by
  obtain ⟨m, hseconds, hle, hge⟩ := ofRatio_seconds hn hn'
  rw [numberOf, hseconds, scale_seconds hn hn' hle hge]
  show (((n * 2 ^ 12 : Nat) : Int) * 1).tdiv (2 ^ 12) = n
  rw [Int.mul_one, Int.natCast_mul]
  exact Int.mul_tdiv_cancel _ (by decide)

end Clock

end SolidityAudit.Service
