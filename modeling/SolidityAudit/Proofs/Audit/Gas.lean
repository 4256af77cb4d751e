import SolidityAudit.Audit.Gas
import SolidityAudit.Proofs.Audit.Surroundings
import SolidityAudit.Proofs.Text.Count
import SolidityAudit.Proofs.Text.Separator

/-!
# Findings and gas counts

The rules of an audit and the counts of a gas report have patterns of their own. They agree on what
both of them see: what some rules require begins like something that is counted
(`Rule.occurs_of_required`), and what occurs is counted. So a finding about a call or a loop never
goes with a count of zero (`GasReport.counts_of_findings`).

Loops and calls are both counted by words in front of an opening parenthesis. So their counts are
numbers of parentheses (`GasReport.counts_of_parentheses`), and the way of the search through the
text does not matter.

No pattern takes a semicolon. So the counts of two sources with a semicolon between them add up, and
since more of everything means no lower risk and no fewer recommendations, the report on both is no
better than that on either (`GasReport.report_of_joined`).
-/

namespace SolidityAudit

open Pattern

namespace Rule

variable {r : Rule} {cs : List Char} {facts : ContractFacts}

/-- A pattern occurs where a rule applies, if something begins with it that the rule requires. -/
lemma occurs_of_required {p : Pattern} {front steps : List Step}
    (happlies : r.applies cs facts = true)
    (hrequired : [steps] ∈ r.required) (hfront : front ∈ p) (hbegins : front <+: steps) :
    p.occurs cs = true :=
  occurs_of_prefix hfront hbegins ((applies_iff.mp happlies).1 _ hrequired)

/-- Money that leaves by a call leaves by an external call. -/
lemma externalCall_of_reentrancy (h : reentrancy.applies cs facts = true) :
    GasCounts.externalCall.occurs cs = true := by
  refine occurs_of_required h (List.mem_cons_of_mem _ (List.mem_singleton_self _))
    List.mem_cons_self ?_
  simp only [List.append_assoc, List.prefix_append]

/-- A call whose result is dropped is an external call. -/
lemma externalCall_of_uncheckedCall (h : uncheckedCall.applies cs facts = true) :
    GasCounts.externalCall.occurs cs = true := by
  refine occurs_of_required h (List.mem_singleton_self _) List.mem_cons_self ?_
  simp only [List.append_assoc, List.prefix_append]

/-- A loop without a way out has a head. -/
lemma loopHead_of_denialOfService (h : denialOfService.applies cs facts = true) :
    GasCounts.loopHead.occurs cs = true := by
  refine occurs_of_required h (List.mem_singleton_self _) List.mem_cons_self ?_
  simp only [List.append_assoc, List.prefix_append_right_inj, List.prefix_append]

end Rule

/-- Where the rules find money that leaves by a call or a call that nobody checks, the gas report
counts an external call, and where they find a loop without a way out, it counts a loop. -/
theorem GasReport.counts_of_findings (source : String) (facts : ContractFacts) :
    (Rule.reentrancy.applies source.toList facts = true ∨
        Rule.uncheckedCall.applies source.toList facts = true →
      1 ≤ (ofSource source).counts.externalCalls) ∧
    (Rule.denialOfService.applies source.toList facts = true →
      1 ≤ (ofSource source).counts.loops) := by
  constructor
  · intro h
    have hcall : GasCounts.externalCall.occurs source.toList = true := by
      rcases h with hreentrancy | hunchecked
      · exact Rule.externalCall_of_reentrancy hreentrancy
      · exact Rule.externalCall_of_uncheckedCall hunchecked
    exact (count_pos_iff rfl).mpr hcall
  · intro h
    have hloop := Rule.loopHead_of_denialOfService h
    exact (count_pos_iff rfl).mpr hloop

/-- A loop with a call in it whose result is dropped, and something that is assigned behind it. -/
def payingLoop : String := "for (;;) \x7b a.call(b); \x7d paid = 1"

/-- The three rules find the call and the loop, and both are counted. -/
theorem payingLoop_counted :
    Rule.reentrancy.applies payingLoop.toList default = true ∧
      Rule.uncheckedCall.applies payingLoop.toList default = true ∧
      Rule.denialOfService.applies payingLoop.toList default = true ∧
      1 ≤ (GasReport.ofSource payingLoop).counts.externalCalls ∧
      1 ≤ (GasReport.ofSource payingLoop).counts.loops := by
  have hreentrancy : Rule.reentrancy.applies payingLoop.toList default = true := by
    decide +kernel
  have hunchecked : Rule.uncheckedCall.applies payingLoop.toList default = true := by
    decide +kernel
  have hloop : Rule.denialOfService.applies payingLoop.toList default = true := by
    decide +kernel
  obtain ⟨hcalls, hloops⟩ := GasReport.counts_of_findings payingLoop default
  exact ⟨hreentrancy, hunchecked, hloop, hcalls (.inl hreentrancy), hloops hloop⟩

/-! ## Counts by places -/

namespace GasCounts

lemma loopHead_eq : loopHead = wordsBefore '(' blanks ["for", "while"] := rfl

lemma externalCall_eq :
    externalCall = wordsBefore '(' [] [".call", ".delegatecall", ".staticcall"] := rfl

lemma not_mem_of_takes_blanks {b : List Char} (h : TakesInTurn blanks b) : '(' ∉ b := by
  intro hmem
  have hblank := takesInTurn_single.mp h '(' hmem
  exact absurd hblank (by decide)

/-- A word in front of any number of blanks ends the text without the blanks at its end. -/
lemma exists_takes_blanks_iff {w t : List Char} (hne : w ≠ [])
    (hkept : w.any Text.isBlank = false) :
    (∃ b, TakesInTurn blanks b ∧ w ++ b <:+ t) ↔ w <:+ Text.stripRight Text.isBlank t := by
  have hnone (c : Char) (hc : c ∈ w) : Text.isBlank c = false :=
    Bool.eq_false_iff.mpr (List.any_eq_false.mp hkept c hc)
  rw [Text.suffix_stripRight_iff hne hnone]
  refine exists_congr fun b => and_congr_left fun _ => ?_
  exact takesInTurn_single

end GasCounts

/-- The loops of a gas report are the opening parentheses with `for` or `while` in front of them and
of any blanks, and its external calls are those right behind one of the words for calls. -/
theorem GasReport.counts_of_parentheses (source : String) :
    (ofSource source).counts.loops =
      Nat.count (fun i => source.toList[i]? = some '(' ∧
        ("for".toList <:+ Text.stripRight Text.isBlank (source.toList.take i) ∨
          "while".toList <:+ Text.stripRight Text.isBlank (source.toList.take i)))
        source.toList.length ∧
    (ofSource source).counts.externalCalls =
      Nat.count (fun i => source.toList[i]? = some '(' ∧
        (".call".toList <:+ source.toList.take i ∨ ".delegatecall".toList <:+ source.toList.take i ∨
          ".staticcall".toList <:+ source.toList.take i))
        source.toList.length := by
  constructor
  · show GasCounts.loopHead.count source.toList = _
    rw [GasCounts.loopHead_eq]
    refine count_wordsBefore (fun b => GasCounts.not_mem_of_takes_blanks) (by decide) _ fun i => ?_
    refine and_congr_right fun _ => ?_
    rw [List.exists_mem_cons_iff, List.exists_mem_cons_iff,
      GasCounts.exists_takes_blanks_iff (by decide) rfl,
      GasCounts.exists_takes_blanks_iff (by decide) rfl]
    simp only [List.not_mem_nil, false_and, exists_false, or_false]
  · show GasCounts.externalCall.count source.toList = _
    rw [GasCounts.externalCall_eq]
    refine count_wordsBefore ?_ (by decide) _ fun i => ?_
    · rintro b rfl
      simp
    · refine and_congr_right fun _ => ?_
      simp [TakesInTurn]

/-! ## Sources one after the other -/

namespace GasRisk

/-- The place of a risk in the ascending order. -/
def rank : GasRisk → Nat
  | low => 0
  | medium => 1
  | high => 2

instance : LE GasRisk := ⟨fun r s => r.rank ≤ s.rank⟩

instance (r s : GasRisk) : Decidable (r ≤ s) := inferInstanceAs (Decidable (r.rank ≤ s.rank))

end GasRisk

namespace GasCounts

variable {c d : GasCounts}

instance : LE GasCounts :=
  ⟨fun c d => c.loops ≤ d.loops ∧ c.externalCalls ≤ d.externalCalls ∧
    c.storageOperations ≤ d.storageOperations⟩

/-- Everything that may be recommended, in the order of the reports. -/
def everyRecommendation : List String :=
  ["Consider limiting loop iterations to prevent gas limit issues",
   "Review external calls for reentrancy protection",
   "Optimize storage operations to reduce gas costs",
   "Comprehensive gas optimization review recommended"]

lemma nodup_everyRecommendation : everyRecommendation.Nodup := by decide

/-- More of everything never lowers the risk. -/
lemma risk_mono (h : c ≤ d) : c.risk ≤ d.risk := by
  obtain ⟨hloops, hcalls, -⟩ := h
  unfold risk
  split_ifs <;> first | omega | decide

/-- A high risk stays high with more of everything. -/
lemma high_of_le (h : c ≤ d) (hhigh : c.risk = .high) : d.risk = .high := by
  have hrisk := risk_mono h
  rw [hhigh] at hrisk
  cases hd : d.risk with
  | high => rfl
  | low => exact absurd (hd ▸ hrisk) (by decide)
  | medium => exact absurd (hd ▸ hrisk) (by decide)

/-- What is recommended under a condition is recommended under a weaker one. -/
lemma recommended_sublist {P Q : Prop} [Decidable P] [Decidable Q] (h : P → Q) (text : String) :
    (if P then [text] else []).Sublist (if Q then [text] else []) := by
  by_cases hP : P
  · rw [if_pos hP, if_pos (h hP)]
  · rw [if_neg hP]
    exact List.nil_sublist _

/-- What is recommended stays recommended with more of everything. -/
lemma recommendations_mono (h : c ≤ d) : c.recommendations.Sublist d.recommendations := by
  obtain ⟨hloops, hcalls, hstorage⟩ := id h
  have hloop := recommended_sublist (P := 1 < c.loops) (Q := 1 < d.loops) (by omega)
  have hcall := recommended_sublist (P := 2 < c.externalCalls) (Q := 2 < d.externalCalls) (by omega)
  have hstore := recommended_sublist (P := 5 < c.storageOperations) (Q := 5 < d.storageOperations)
    (by omega)
  exact (((hloop _).append (hcall _)).append (hstore _)).append
    (recommended_sublist (high_of_le h) _)

/-- Recommendations keep their order. -/
lemma recommendations_sublist (c : GasCounts) : c.recommendations.Sublist everyRecommendation := by
  have hpart {P : Prop} [Decidable P] (text : String) : (if P then [text] else []).Sublist [text] :=
    recommended_sublist (fun _ => trivial) text
  exact (((hpart _).append (hpart _)).append (hpart _)).append (hpart _)

end GasCounts

/-- A semicolon between two sources is taken by none of the patterns that are counted. -/
lemma GasReport.counts_append (s t : String) :
    (ofSource (s ++ ";" ++ t)).counts.loops =
      (ofSource s).counts.loops + (ofSource t).counts.loops ∧
    (ofSource (s ++ ";" ++ t)).counts.externalCalls =
      (ofSource s).counts.externalCalls + (ofSource t).counts.externalCalls ∧
    (ofSource (s ++ ";" ++ t)).counts.storageOperations =
      (ofSource s).counts.storageOperations + (ofSource t).counts.storageOperations := by
  have htext : (s ++ ";" ++ t).toList = s.toList ++ ';' :: t.toList := by
    rw [String.toList_append, String.toList_append, List.append_assoc]
    rfl
  have hcount {p : Pattern} (hempty : p.occurs [] = false) (havoids : p.avoids ';' = true) :
      p.count (s ++ ";" ++ t).toList = p.count s.toList + p.count t.toList := by
    rw [htext]
    exact count_append hempty havoids s.toList t.toList
  exact ⟨hcount (p := GasCounts.loopHead) rfl rfl, hcount (p := GasCounts.externalCall) rfl rfl,
    hcount (p := GasCounts.storageOperation) rfl rfl⟩

/-- The counts of two sources with a semicolon between them are the sums of their counts. The risk
is no lower than that of either, and all that is recommended for either is recommended, each text
once and in the order of all recommendations. -/
theorem GasReport.report_of_joined (s t : String) :
    (ofSource (s ++ ";" ++ t)).counts.loops =
      (ofSource s).counts.loops + (ofSource t).counts.loops ∧
    (ofSource (s ++ ";" ++ t)).counts.externalCalls =
      (ofSource s).counts.externalCalls + (ofSource t).counts.externalCalls ∧
    (ofSource (s ++ ";" ++ t)).counts.storageOperations =
      (ofSource s).counts.storageOperations + (ofSource t).counts.storageOperations ∧
    (ofSource s).risk ≤ (ofSource (s ++ ";" ++ t)).risk ∧
    (ofSource t).risk ≤ (ofSource (s ++ ";" ++ t)).risk ∧
    (ofSource s).recommendations.Sublist (ofSource (s ++ ";" ++ t)).recommendations ∧
    (ofSource t).recommendations.Sublist (ofSource (s ++ ";" ++ t)).recommendations ∧
    (ofSource (s ++ ";" ++ t)).recommendations.Nodup ∧
    (ofSource (s ++ ";" ++ t)).recommendations.Sublist GasCounts.everyRecommendation := by
  obtain ⟨hloops, hcalls, hstorage⟩ := counts_append s t
  have hfirst : (ofSource s).counts ≤ (ofSource (s ++ ";" ++ t)).counts := by
    refine ⟨?_, ?_, ?_⟩ <;> omega
  have hsecond : (ofSource t).counts ≤ (ofSource (s ++ ";" ++ t)).counts := by
    refine ⟨?_, ?_, ?_⟩ <;> omega
  have hsublist := GasCounts.recommendations_sublist (ofSource (s ++ ";" ++ t)).counts
  exact ⟨hloops, hcalls, hstorage, GasCounts.risk_mono hfirst, GasCounts.risk_mono hsecond,
    GasCounts.recommendations_mono hfirst, GasCounts.recommendations_mono hsecond,
    hsublist.nodup GasCounts.nodup_everyRecommendation, hsublist⟩

end SolidityAudit
