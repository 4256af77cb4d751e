import Mathlib.Algebra.Order.BigOperators.Group.List
import SolidityAudit.Analysis.Store
import SolidityAudit.Proofs.Number.Double

/-!
# The numbers of a store

The mean of the risk scores and the count of the high ones are computed from scores that may be
anything. When they are numbers from 0 to 100, as those of an audit are, both can be told
(`averageRiskScore_of_rated`, `highRiskCount_of_rated`).

The mean is computed in binary and rounded twice, before and after one half is added. Neither
rounding crosses a number with few places, and there is one between a mean below a half and the half
when the scores are fewer than `2 ^ 40`. So the average is the exact mean rounded half up
(`averageRiskScore_halfUp`).
-/

namespace SolidityAudit

lemma Value.atLeast_int (m n : Int) : (Value.int m).atLeast n = .ok (decide (n ≤ m)) := by
  show Except.ok (some (compare m n) == some .gt || some (compare m n) == some .eq) = _
  rcases lt_trichotomy m n with hlt | heq | hgt
  · rw [compare_lt_iff_lt.mpr hlt, decide_eq_false hlt.not_ge]
    rfl
  · rw [compare_eq_iff_eq.mpr heq, decide_eq_true heq.ge]
    rfl
  · rw [compare_gt_iff_gt.mpr hgt, decide_eq_true hgt.le]
    rfl

namespace Store

/-- The risk scores of the analyses in a store, in their order, when all of them are numbers. -/
def Rated (s : Store) (scores : List Nat) : Prop :=
  s.all.map (·.riskScore) = scores.map fun n : Nat => .int n

/-! ## The mean -/

lemma foldlM_addScores (scores : List Nat) (n : Int) :
    (scores.map fun k : Nat => Value.int k).foldlM addScores (.int n) =
      .ok (.int (n + scores.sum)) := by
  induction scores generalizing n with
  | nil =>
    rw [List.map_nil, List.foldlM_nil, List.sum_nil]
    simp only [Nat.cast_zero, add_zero]
    rfl
  | cons k scores ih =>
    rw [List.map_cons, List.foldlM_cons]
    have hadd : addScores (.int n) (.int k) = .ok (.int (n + k)) := rfl
    rw [hadd]
    have hrest := ih (n + k)
    rw [List.sum_cons, Nat.cast_add, ← add_assoc]
    exact hrest

lemma integerPart_finite (m places : Nat) :
    integerPart (.finite false m (-places)) = .ok (m / 2 ^ places : Nat) := by
  have hwhole : (-(places : Int)).toNat = 0 := by omega
  have htruncate : (Double.finite false m (-places)).truncate? =
      some (((m : Int) * 1).tdiv (2 ^ places : Nat)) := by
    unfold Double.truncate? Double.ratio?
    dsimp only
    rw [hwhole, neg_neg, Int.toNat_natCast]
    rfl
  unfold integerPart
  rw [htruncate, Int.mul_one]
  rfl

/-- A mean of at most 100 is rounded to a nearest number with at least 44 binary places. -/
lemma divideScore_nearest {sum count : Nat} (h : sum ≤ 100 * count) (hcount : 0 < count) :
    ∃ m places : Nat, divideScore (.int sum) count = .ok (.finite false m (-places)) ∧
      44 ≤ places ∧ Nearest m places sum count := by
  obtain ⟨m, places, hmean, hplaces, hnear⟩ := Double.ofQuotient_nearest (k := 7) (by omega)
    (show sum < 2 ^ 7 * count by omega) false
  have hratio : Double.ofRatio sum count = .finite false m (-places) := by
    rw [Double.ofRatio, Int.natAbs_natCast, decide_eq_false (by omega)]
    exact hmean
  refine ⟨m, places, ?_, by omega, hnear⟩
  simp only [divideScore, Value.integer?]
  rw [hratio]

/-- So is such a number with one half added. -/
lemma add_half_nearest {m places : Nat} (hm : m ≤ 100 * 2 ^ places) :
    ∃ k more : Nat, (Double.finite false m (-places)).add half = .finite false k (-more) ∧
      44 ≤ more ∧ Nearest k more (2 * m + 2 ^ places) (2 * 2 ^ places) := by
  have hhalf : half = .finite false (Nat.pow 2 52) (-53) := rfl
  have hwhole : (-(places : Int)).toNat = 0 := by omega
  have hne : ¬ (m = 0 ∧ Nat.pow 2 52 = 0) := fun h => absurd h.2 (by decide)
  -- the sum of the two fractions
  have hsum : (Double.finite false m (-places)).add half =
      Double.ofRatio ((m * 2 ^ 53 + 2 ^ 52 * 2 ^ places : Nat) : Int) (2 ^ places * 2 ^ 53) := by
    rw [hhalf]
    unfold Double.add Double.ratio?
    dsimp only
    rw [if_neg hne, hwhole]
    simp
  have hnum : m * 2 ^ 53 + 2 ^ 52 * 2 ^ places = (2 * m + 2 ^ places) * 2 ^ 52 := by ring
  have hden : 2 ^ places * 2 ^ 53 = 2 * 2 ^ places * 2 ^ 52 := by ring
  rw [hnum, hden] at hsum
  have hpos : 0 < 2 ^ places := Nat.two_pow_pos _
  obtain ⟨k, more, hround, hmore, hnear⟩ := Double.ofQuotient_nearest (k := 7) (by omega)
    (show (2 * m + 2 ^ places) * 2 ^ 52 < 2 ^ 7 * (2 * 2 ^ places * 2 ^ 52) by omega) false
  refine ⟨k, more, hsum.trans ?_, by omega, hnear.of_mul_right (Nat.two_pow_pos 52)⟩
  rw [Double.ofRatio, Int.natAbs_natCast, decide_eq_false (Int.not_lt.mpr (Int.natCast_nonneg _))]
  exact hround

/-- The average of scores up to 100 is the integer part of a number that comes from the mean by
rounding twice, before and after one half is added. -/
lemma averageRiskScore_rounded {s : Store} {scores : List Nat} (h : s.Rated scores)
    (hscores : ∀ n ∈ scores, n ≤ 100) (hcount : 0 < s.count) :
    ∃ m places k more : Nat, s.averageRiskScore = .ok (k / 2 ^ more : Nat) ∧
      44 ≤ places ∧ 44 ≤ more ∧ Nearest m places scores.sum s.count ∧
      Nearest k more (2 * m + 2 ^ places) (2 * 2 ^ places) := by
  have hlength : scores.length = s.count := by
    have := congrArg List.length h
    rw [List.length_map, List.length_map, all, List.length_map] at this
    exact this.symm
  have hsum : scores.sum ≤ 100 * s.count := by
    have := List.sum_le_card_nsmul scores 100 hscores
    rw [hlength] at this
    exact this.trans (Nat.mul_comm _ _).le
  obtain ⟨m, places, hdivide, hplaces, hmean⟩ := divideScore_nearest hsum hcount
  have hm : m ≤ 100 * 2 ^ places := by
    refine hmean.mantissa_le (Nat.zero_add places).symm hcount ?_
    rwa [Nat.pow_zero, Nat.mul_one]
  obtain ⟨k, more, hadd, hmore, hround⟩ := add_half_nearest hm
  refine ⟨m, places, k, more, ?_, hplaces, hmore, hmean, hround⟩
  have hfold := foldlM_addScores scores 0
  rw [Int.zero_add] at hfold
  have hnonempty : s.entries.isEmpty = false := by
    simpa [count, List.length_pos_iff] using hcount
  rw [averageRiskScore, hnonempty, if_neg Bool.false_ne_true, h, hfold]
  show (divideScore (.int scores.sum) s.count >>= fun mean => integerPart (mean.add half)) = _
  rw [hdivide]
  show integerPart ((Double.finite false m (-places)).add half) = _
  rw [hadd, integerPart_finite]

/-- The mean of scores up to 100 can be told. -/
theorem averageRiskScore_of_rated {s : Store} {scores : List Nat} (h : s.Rated scores)
    (hscores : ∀ n ∈ scores, n ≤ 100) : ∃ average, s.averageRiskScore = .ok average := by
  rcases Nat.eq_zero_or_pos s.count with hempty | hcount
  · refine ⟨0, ?_⟩
    rw [averageRiskScore, List.eq_nil_of_length_eq_zero hempty]
    rfl
  · obtain ⟨m, places, k, more, haverage, -⟩ := averageRiskScore_rounded h hscores hcount
    exact ⟨_, haverage⟩

/-! ## The mean rounded half up -/

section Rounding

variable {sum count m k places more q : Nat}

/-- A mean that is at least `q - 1 / 2` gives at least `q` after both roundings. -/
lemma le_of_rounded (hmean : Nearest m places sum count)
    (hround : Nearest k more (2 * m + 2 ^ places) (2 * 2 ^ places)) (hplaces : 1 ≤ places)
    (hcount : 0 < count) (hq : q * (2 * count) ≤ 2 * sum + count) : q * 2 ^ more ≤ k := by
  obtain ⟨i, rfl⟩ := Nat.exists_eq_add_of_le hplaces
  have hpow : 2 ^ (1 + i) = 2 * 2 ^ i := pow_add ..
  have hm : (2 * q - 1) * 2 ^ i ≤ m := by
    refine hmean.le_mantissa rfl hcount ?_
    have hdouble : 2 * q * count = q * (2 * count) := by ring
    rw [Nat.sub_mul]
    omega
  have hden : 0 < 2 * 2 ^ (1 + i) := Nat.mul_pos Nat.two_pos (Nat.two_pow_pos _)
  refine hround.le_mantissa (Nat.zero_add more).symm hden ?_
  have hdouble : q * (2 * (2 * 2 ^ i)) = 2 * (2 * q * 2 ^ i) := by ring
  rw [Nat.sub_mul] at hm
  rw [hpow]
  omega

/-- A mean below `q + 1 / 2` of fewer than `2 ^ 40` scores gives less than `q + 1`: between the two
there is a number with 41 places, and no rounding crosses it. -/
lemma lt_of_rounded (hmean : Nearest m places sum count)
    (hround : Nearest k more (2 * m + 2 ^ places) (2 * 2 ^ places)) (hplaces : 41 ≤ places)
    (hmore : 41 ≤ more) (hcount : 0 < count) (hbound : count < 2 ^ 40)
    (hq : 2 * sum + count < (q + 1) * (2 * count)) : k < (q + 1) * 2 ^ more := by
  obtain ⟨i, rfl⟩ := Nat.exists_eq_add_of_le hplaces
  obtain ⟨j, rfl⟩ := Nat.exists_eq_add_of_le hmore
  have hpow : 2 ^ (41 + i) = 2 ^ 41 * 2 ^ i := pow_add ..
  have hm : m ≤ ((2 * q + 1) * 2 ^ 40 - 1) * 2 ^ i := by
    refine hmean.mantissa_le rfl hcount ?_
    have hright : (q + 1) * (2 * count) = 2 * (q * count) + 2 * count := by ring
    have hleft : (2 * q + 1) * 2 ^ 40 * count = 2 ^ 41 * (q * count) + 2 ^ 40 * count := by ring
    rw [Nat.sub_mul]
    omega
  have hk : k ≤ ((q + 1) * 2 ^ 41 - 1) * 2 ^ j := by
    refine hround.mantissa_le rfl (Nat.mul_pos Nat.two_pos (Nat.two_pow_pos _)) ?_
    have hleft : (2 * q + 1) * 2 ^ 40 * 2 ^ i = 2 ^ 41 * (q * 2 ^ i) + 2 ^ 40 * 2 ^ i := by ring
    have hright : (q + 1) * 2 ^ 41 * (2 * (2 ^ 41 * 2 ^ i)) =
        2 ^ 83 * (q * 2 ^ i) + 2 ^ 83 * 2 ^ i := by ring
    rw [Nat.sub_mul] at hm ⊢
    rw [hpow]
    omega
  have hone : 0 < 2 ^ j := Nat.two_pow_pos j
  calc k ≤ ((q + 1) * 2 ^ 41 - 1) * 2 ^ j := hk
    _ < (q + 1) * 2 ^ 41 * 2 ^ j := Nat.mul_lt_mul_of_pos_right (by omega) hone
    _ = (q + 1) * 2 ^ (41 + j) := by rw [pow_add, Nat.mul_assoc]

end Rounding

/-- The average of fewer than `2 ^ 40` scores up to 100 is their exact mean rounded half up. -/
theorem averageRiskScore_halfUp {s : Store} {scores : List Nat} (h : s.Rated scores)
    (hscores : ∀ n ∈ scores, n ≤ 100) (hcount : 0 < s.count) (hbound : s.count < 2 ^ 40) :
    s.averageRiskScore = .ok ((2 * scores.sum + s.count) / (2 * s.count) : Nat) := by
  obtain ⟨m, places, k, more, haverage, hplaces, hmore, hmean, hround⟩ :=
    averageRiskScore_rounded h hscores hcount
  have hdouble : 0 < 2 * s.count := by omega
  have hlow : (2 * scores.sum + s.count) / (2 * s.count) * 2 ^ more ≤ k :=
    le_of_rounded hmean hround (by omega) hcount (Nat.div_mul_le_self _ _)
  have hhigh : k < ((2 * scores.sum + s.count) / (2 * s.count) + 1) * 2 ^ more :=
    lt_of_rounded hmean hround (by omega) (by omega) hcount hbound
      (Nat.lt_mul_of_div_lt (Nat.lt_succ_self _) hdouble)
  rw [haverage, Nat.div_eq_of_lt_le hlow hhigh]

/-- A store with one analysis for each of some scores. -/
def ofScores (scores : List Nat) : Store :=
  ⟨scores.zipIdx.map fun (n, i) => (toString i, { (default : StoredAnalysis) with
    id := toString i, riskScore := .int n })⟩

lemma rated_ofScores (scores : List Nat) : (ofScores scores).Rated scores := by
  unfold Rated all ofScores
  conv_rhs => rw [← List.zipIdx_map_fst 0 scores]
  rw [List.map_map, List.map_map, List.map_map]
  rfl

/-- The mean of 8 and 17 lies halfway between two integers, and is rounded to the greater one. -/
theorem eightAndSeventeen_halfUp :
    (ofScores [8, 17]).Rated [8, 17] ∧ (∀ n ∈ [8, 17], n ≤ 100) ∧ 0 < (ofScores [8, 17]).count ∧
      (ofScores [8, 17]).count < 2 ^ 40 ∧ (ofScores [8, 17]).averageRiskScore = .ok 13 :=
  ⟨rated_ofScores _, by decide, by decide, by decide,
    averageRiskScore_halfUp (rated_ofScores _) (by decide) (by decide) (by decide)⟩

/-! ## The high scores -/

/-- A test that always has an answer filters as the answers do. -/
lemma filterAuxM_ok {α : Type} {p : α → Except Fault Bool} {q : α → Bool} (l kept : List α)
    (h : ∀ a ∈ l, p a = .ok (q a)) :
    l.filterAuxM p kept = .ok ((l.filter q).reverse ++ kept) := by
  induction l generalizing kept with
  | nil => rfl
  | cons a l ih =>
    rw [List.filterAuxM, h a List.mem_cons_self]
    have hrest := ih (cond (q a) (a :: kept) kept) fun b hb => h b (List.mem_cons_of_mem a hb)
    refine hrest.trans ?_
    cases hq : q a with
    | true => rw [List.filter_cons_of_pos hq, List.reverse_cons, cond_true, List.append_assoc]; rfl
    | false => rw [List.filter_cons_of_neg (by simp [hq]), cond_false]

/-- Whether the risk score of a record is a high one. -/
def isHigh (a : StoredAnalysis) : Bool :=
  match a.riskScore with
  | .int n => highRisk ≤ n
  | _ => false

/-- The count of the high scores can be told. -/
theorem highRiskCount_of_rated {s : Store} {scores : List Nat} (h : s.Rated scores) :
    s.highRiskCount = .ok (s.all.countP isHigh) := by
  have htest : ∀ a ∈ s.all, a.riskScore.atLeast highRisk = .ok (isHigh a) := by
    intro a ha
    have hmem : a.riskScore ∈ scores.map fun n : Nat => Value.int n :=
      h ▸ List.mem_map.mpr ⟨a, ha, rfl⟩
    obtain ⟨n, -, hn⟩ := List.mem_map.mp hmem
    rw [isHigh, ← hn]
    exact Value.atLeast_int n highRisk
  rw [highRiskCount, List.filterM, filterAuxM_ok s.all [] htest, List.countP_eq_length_filter]
  show Except.ok _ = _
  rw [List.append_nil, List.reverse_reverse]

end Store

end SolidityAudit
