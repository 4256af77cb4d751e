import SolidityAudit.Proofs.Solidity.Derivation

/-!
# Charts of beginnings

What the chart holds about some tokens does not depend on the tokens that follow: the readings over
a beginning of a token list are those over the whole list that stay within the beginning, in the
same order (`phrases_append`).
-/

namespace SolidityAudit.Solidity

namespace Outcome

/-- The readings that take at most some tokens. -/
def upTo (n : Nat) (a : Outcome) : List Reading :=
  a.readings.filter (·.taken ≤ n)

variable {n : Nat} {a b a' b' : Outcome}

lemma or_upTo (ha : a'.readings = a.upTo n) (hb : b'.readings = b.upTo n) :
    (a'.or b').readings = (a.or b).upTo n := by
  simp only [Outcome.or, upTo, ha, hb, List.filter_append, List.filter_filter]
  congr 1
  refine List.filter_congr fun r _ => ?_
  by_cases hr : r.taken ≤ n
  · -- a reading within the beginning has its length among all readings or among those within
    have hany : (a.readings.filter fun q => decide (q.taken ≤ n)).any (·.taken == r.taken) =
        a.readings.any (·.taken == r.taken) := by
      rw [List.any_filter]
      refine List.any_congr rfl fun q => ?_
      by_cases hq : q.taken = r.taken
      · simp [hq, hr]
      · simp [hq]
    simp [hr, hany]
  · simp [hr]

lemma foldl_or_upTo {next next' : Reading → Outcome} {qs : List Reading} {done done' : Outcome}
    (hdone : done'.readings = done.upTo n)
    (hwithin : ∀ q ∈ qs, q.taken ≤ n → (next' q).readings = (next q).upTo n)
    (hbeyond : ∀ q ∈ qs, n < q.taken → (next q).upTo n = []) :
    ((qs.filter (·.taken ≤ n)).foldl (fun done q => done.or (next' q)) done').readings =
      (qs.foldl (fun done q => done.or (next q)) done).upTo n := by
  induction qs generalizing done done' with
  | nil => exact hdone
  | cons q qs ih =>
    have hwithin' := fun p hp => hwithin p (List.mem_cons_of_mem q hp)
    have hbeyond' := fun p hp => hbeyond p (List.mem_cons_of_mem q hp)
    rw [List.foldl_cons]
    by_cases hq : q.taken ≤ n
    · rw [List.filter_cons_of_pos (by simpa using hq), List.foldl_cons]
      exact ih (or_upTo hdone (hwithin q List.mem_cons_self hq)) hwithin' hbeyond'
    · -- what comes after a reading beyond the beginning adds nothing within it
      rw [List.filter_cons_of_neg (by simpa using hq)]
      refine ih ?_ hwithin' hbeyond'
      have hnone : (failed 0).readings = (next q).upTo n :=
        (hbeyond q List.mem_cons_self (by omega)).symm
      rw [← or_upTo hdone hnone]
      simp [Outcome.or, failed]

lemma bind_upTo {next next' : Reading → Outcome} (ha : a'.readings = a.upTo n)
    (hwithin : ∀ q ∈ a.readings, q.taken ≤ n → (next' q).readings = (next q).upTo n)
    (hbeyond : ∀ q ∈ a.readings, n < q.taken → (next q).upTo n = []) :
    (a'.bind next').readings = (a.bind next).upTo n := by
  rw [Outcome.bind, Outcome.bind, ha]
  exact foldl_or_upTo rfl hwithin hbeyond

end Outcome

/-! ## Rows of a beginning -/

/-- The rows of a beginning of some tokens hold what the rows of all tokens hold within it. -/
structure PrefixRows (n : Nat) (tokens : List Token) (rows rows' : List Row) : Prop where
  le : n ≤ tokens.length
  sound : SoundRows tokens rows
  readings : ∀ k ≤ n, ∀ c, (phrases rows' k c).readings = (phrases rows k c).upTo (n - k)

section Rows

variable {n : Nat} {tokens : List Token} {rows rows' : List Row}

lemma readings_upTo (h : PrefixRows n tokens rows rows') (f : Form) {k : Nat} (hk : k ≤ n) :
    (f.readings (tokens.take n) rows' k).readings = (f.readings tokens rows k).upTo n := by
  induction f generalizing k with
  | nothing => simp [Form.readings, Outcome.upTo, hk]
  | token t =>
    rw [Form.readings, Form.readings]
    by_cases hlt : k < n
    · rw [List.getElem?_take_of_lt hlt]
      cases tokens[k]? with
      | none => rfl
      | some found =>
        dsimp only
        split_ifs
        · simp [Outcome.upTo, Nat.succ_le_of_lt hlt]
        · rfl
    · -- at the end of the beginning, the next token lies beyond
      obtain rfl : k = n := by omega
      rw [List.getElem?_take_eq_none (Nat.le_refl k)]
      cases tokens[k]? with
      | none => rfl
      | some found =>
        dsimp only
        split_ifs
        · simp [Outcome.upTo, Outcome.failed]
        · rfl
  | part c =>
    rw [Form.readings, Form.readings, Outcome.wrap, Outcome.upTo, Outcome.wrap, h.readings k hk c,
      Outcome.upTo, List.filter_map]
    refine congrArg _ (List.filter_congr fun r _ => ?_)
    simp only [Function.comp_apply, decide_eq_decide]
    omega
  | both f g ihf ihg =>
    rw [Form.readings, Form.readings]
    refine Outcome.bind_upTo (ihf hk) (fun q _ hq => ?_) fun q hq hlt => ?_
    · dsimp only
      rw [ihg hq, Outcome.upTo, Outcome.upTo, List.filter_map]
      rfl
    · -- what comes after a reading beyond the beginning lies beyond it as well
      have hqle := (derives_of_reading h.sound f (Nat.le_trans hk h.le) hq).2.1
      rw [Outcome.upTo, List.filter_eq_nil_iff]
      intro r hr
      obtain ⟨s, hs, rfl⟩ := List.mem_map.mp hr
      have hle := (derives_of_reading h.sound g hqle hs).1
      simp only [decide_eq_true_eq]
      omega
  | either f g ihf ihg => exact Outcome.or_upTo (ihf hk) (ihg hk)

lemma repetitions_upTo (h : PrefixRows n tokens rows rows') (self c : Category) :
    (repetitions rows' self c).readings = (repetitions rows self c).upTo n := by
  rw [repetitions, repetitions]
  refine Outcome.or_upTo (Outcome.bind_upTo ?_ (fun q _ hq => ?_) fun q _ hlt => ?_) rfl
  · exact h.readings 0 (Nat.zero_le n) c
  · dsimp only
    rw [h.readings q.taken hq self, Outcome.upTo, Outcome.upTo, List.filter_map]
    congr 1
    refine List.filter_congr fun r _ => ?_
    simp only [Function.comp_apply, decide_eq_decide]
    omega
  · rw [Outcome.upTo, List.filter_eq_nil_iff]
    intro r hr
    obtain ⟨s, -, rfl⟩ := List.mem_map.mp hr
    simp only [decide_eq_true_eq]
    omega

lemma outcome_upTo (h : PrefixRows n tokens rows rows') (c : Category) :
    (c.outcome (tokens.take n) rows').readings = (c.outcome tokens rows).upTo n := by
  rw [Category.outcome, Category.outcome]
  cases c.rule with
  | form f => exact readings_upTo h f (Nat.zero_le n)
  | repeated d => exact repetitions_upTo h c d

end Rows

/-! ## Charts -/

lemma prefixRows_fillRow {n : Nat} {tokens : List Token} {later later' : List Row}
    (hle : n ≤ tokens.length)
    (hsound : ∀ cs, SoundRows tokens (fillRow tokens later cs :: later))
    (hlater : ∀ k < n, ∀ c, (phrases later' k c).readings = (phrases later k c).upTo (n - (k + 1)))
    (cs : List Category) :
    PrefixRows n tokens (fillRow tokens later cs :: later)
      (fillRow (tokens.take n) later' cs :: later') := by
  induction cs with
  | nil =>
    refine ⟨hle, hsound [], fun k hk c => ?_⟩
    cases k with
    | zero => rfl
    | succ k => exact hlater k hk c
  | cons d cs ih =>
    refine ⟨hle, hsound (d :: cs), fun k hk c => ?_⟩
    cases k with
    | zero =>
      show (Row.find (fillRow (tokens.take n) later' (d :: cs)) c).readings =
        (Row.find (fillRow tokens later (d :: cs)) c).upTo (n - 0)
      rw [fillRow, fillRow, find_cons, find_cons]
      split_ifs with hc
      · subst hc
        exact outcome_upTo ih c
      · exact ih.readings 0 (Nat.zero_le n) c
    | succ k => exact hlater k hk c

/-- The chart of some tokens is their row before the rows of the later suffixes. -/
lemma chart_eq (tokens : List Token) :
    chart tokens = fillRow tokens (chart tokens).tail Category.everyCategory
      :: (chart tokens).tail := by
  cases tokens <;> rfl

/-- Every part of the first row of a chart holds derivations. -/
lemma soundRows_chart (tokens : List Token) (cs : List Category) :
    SoundRows tokens (fillRow tokens (chart tokens).tail cs :: (chart tokens).tail) := by
  refine soundRows_fillRow (fun k c r hr => ?_) cs
  have hrow : r ∈ (phrases (chart tokens) (k + 1) c).readings := by
    rw [chart_eq]
    exact hr
  exact derives_of_phrase tokens (k + 1) c r hrow

lemma prefixRows_chart (ts us : List Token) :
    PrefixRows ts.length (ts ++ us) (chart (ts ++ us)) (chart ts) := by
  induction ts with
  | nil =>
    rw [List.nil_append, chart_eq us]
    exact prefixRows_fillRow (Nat.zero_le _) (soundRows_chart us)
      (fun k hk => absurd hk (Nat.not_lt_zero k)) _
  | cons t ts ih =>
    have htake : ((t :: ts) ++ us).take (t :: ts).length = t :: ts := List.take_left
    have hle : (t :: ts).length ≤ (t :: ts ++ us).length := by simp
    have hlater : ∀ k < (t :: ts).length, ∀ c, (phrases (chart ts) k c).readings =
        (phrases (chart (ts ++ us)) k c).upTo ((t :: ts).length - (k + 1)) := by
      intro k hk c
      rw [List.length_cons, Nat.add_sub_add_right]
      exact ih.readings k (Nat.lt_succ_iff.mp hk) c
    have hchart := prefixRows_fillRow hle (soundRows_chart (t :: (ts ++ us))) hlater
      Category.everyCategory
    rwa [htake] at hchart

/-- The phrases over a beginning of some tokens are those over all of them that stay within it. -/
theorem phrases_append (ts us : List Token) (c : Category) :
    (phrases (chart ts) 0 c).readings = (phrases (chart (ts ++ us)) 0 c).upTo ts.length :=
  (prefixRows_chart ts us).readings 0 (Nat.zero_le _) c

end SolidityAudit.Solidity
