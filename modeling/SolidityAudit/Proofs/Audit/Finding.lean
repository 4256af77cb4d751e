import SolidityAudit.Proofs.Audit.Surroundings
import SolidityAudit.Proofs.Text.Line
import SolidityAudit.Proofs.Text.Place

/-!
# What the rules find

The standard rules are given by patterns, and a pattern that may skip any number of characters can
be taken in many ways. Here is what six of them look for, said without patterns. Calls and loops are
judged by the first bracket that closes behind them, and by no later one (`AssignsBehindCall`,
`DropsResult`, `RunsOverBlock`). Randomness, time and arithmetic are judged line by line
(`judged_by_line`).
-/

namespace SolidityAudit.Rule

open Pattern Text

variable {r : Rule} {cs : List Char}

/-- A rule without a condition on the facts is about patterns alone. -/
lemma applies_iff_of_anyContract (hcondition : r.condition = anyContract) (cs : List Char)
    (facts : ContractFacts) :
    r.applies cs facts = true ↔
      (∀ p ∈ r.required, p.occurs cs = true) ∧ ∀ p ∈ r.forbidden, p.occurs cs = false := by
  rw [applies_iff, hcondition]
  simp only [anyContract, and_true]

/-! ## Calls -/

/-- Something is assigned behind the block of a call: behind the first closing brace after `.call(`,
and with no other closing brace in between, an equals sign stands in front of a word. -/
def AssignsBehindCall (cs : List Char) : Prop :=
  ∃ call, StandsAt ".call(" cs call ∧ ∃ brace, FirstFrom '\x7d' cs (call + 6) brace ∧
    ∃ equals, brace < equals ∧ '\x7d' ∉ cs.extract (brace + 1) equals ∧ cs[equals]? = some '=' ∧
      FollowedBy isWord cs (equals + 1)

/-- The result of a call is dropped: the first closing parenthesis after `.call(` stands in front of
a semicolon. -/
def DropsResult (cs : List Char) : Prop :=
  ∃ call, StandsAt ".call(" cs call ∧ ∃ close, FirstFrom ')' cs (call + 6) close ∧
    FollowedBy (· == ';') cs (close + 1)

/-- The words with which money leaves. -/
def paymentWords : List String := [".call(", ".transfer(", ".send("]

/-- A call, the first closing brace behind it, and an assignment in front of the next one. -/
def assignmentBehindCall : List Step :=
  literal ".call(" ++ (noneOf '\x7d' ++ ([.one (· == '\x7d')] ++
    (noneOf '\x7d' ++ ([.one (· == '=')] ++ (blanks ++ ([.one isWord] ++ [.many isWord]))))))

lemma reentrancy_required :
    reentrancy.required = [paymentWords.map literal, [assignmentBehindCall]] := rfl

lemma occurs_assignmentBehindCall :
    occurs [assignmentBehindCall] cs = true ↔ AssignsBehindCall cs := by
  have hword : TakesInTurn [.many isWord] [] := takesInTurn_single.mpr (by simp [Step.Takes])
  rw [occurs_iff_spans]
  unfold assignmentBehindCall AssignsBehindCall
  simp only [exists_spans_literal_append, exists_spans_upTo_append, exists_spans_within_append,
    exists_spans_blanks_end hword]
  rfl

/-- An assignment behind a call needs a call, so it also needs one of the words. -/
lemma occurs_paymentWords_of_assignmentBehindCall (h : occurs [assignmentBehindCall] cs = true) :
    Pattern.occurs (paymentWords.map literal) cs = true := by
  have hcall : literal ".call(" ∈ paymentWords.map literal := List.mem_cons_self
  exact occurs_of_prefix hcall (List.prefix_append _ _) h

/-- The rule about reentrancy applies exactly to the sources that assign something behind the block
of a call. The second pattern it requires implies the first, so a source without a call is never
reported, whatever other words with which money leaves it holds. -/
theorem reentrancy_applies_iff (source : String) (facts : ContractFacts) :
    (reentrancy.applies source.toList facts = true ↔ AssignsBehindCall source.toList) ∧
    (∃ first second, reentrancy.required = [first, second] ∧
      ∀ cs : List Char, second.occurs cs = true → first.occurs cs = true) ∧
    ((∀ i, ¬ StandsAt ".call(" source.toList i) →
      reentrancy.applies source.toList facts = false) := by
  have happlies :
      reentrancy.applies source.toList facts = true ↔ AssignsBehindCall source.toList := by
    rw [applies_iff_of_anyContract rfl, reentrancy_required, List.forall_mem_cons,
      List.forall_mem_singleton, ← occurs_assignmentBehindCall]
    constructor
    · intro h
      exact h.1.2
    · intro h
      exact ⟨⟨occurs_paymentWords_of_assignmentBehindCall h, h⟩, by simp [reentrancy]⟩
  refine ⟨happlies, ?_, ?_⟩
  · exact ⟨_, _, reentrancy_required, fun cs => occurs_paymentWords_of_assignmentBehindCall⟩
  · intro hnone
    rw [Bool.eq_false_iff]
    intro h
    obtain ⟨call, hcall, -⟩ := happlies.mp h
    exact hnone call hcall

/-- Money that leaves twice, without a call, and an assignment behind each payment. -/
def paysWithoutCall : String := "to.transfer(a); \x7d paid = a; to.send(b); \x7d paid = b;"

/-- Without a call, the payments are not reported. -/
theorem paysWithoutCall_not_applies :
    (∀ i, ¬ StandsAt ".call(" paysWithoutCall.toList i) ∧
      reentrancy.applies paysWithoutCall.toList default = false := by
  have hnone : ∀ i, ¬ StandsAt ".call(" paysWithoutCall.toList i := by
    intro i hi
    have hoccurs : Pattern.occurs ([".call("].map literal) paysWithoutCall.toList = true :=
      occurs_map_literal.mpr ⟨".call(", List.mem_singleton_self _, i, hi⟩
    exact absurd hoccurs (by decide +kernel)
  exact ⟨hnone, (reentrancy_applies_iff paysWithoutCall default).2.2 hnone⟩

/-- Nothing tells a comparison from an assignment. -/
example : reentrancy.applies "a.call(b) \x7d c == d".toList default = true := by decide +kernel

/-- A call whose first closing parenthesis stands in front of a semicolon. -/
def droppedResult : List Step :=
  literal ".call(" ++ (noneOf ')' ++ ([.one (· == ')')] ++ (blanks ++ ([.one (· == ';')] ++ []))))

lemma uncheckedCall_required : uncheckedCall.required = [[droppedResult]] := rfl

lemma occurs_droppedResult : occurs [droppedResult] cs = true ↔ DropsResult cs := by
  have hend : TakesInTurn [] [] := rfl
  rw [occurs_iff_spans]
  unfold droppedResult DropsResult
  simp only [exists_spans_literal_append, exists_spans_upTo_append, exists_spans_blanks_end hend]
  rfl

/-! ## Loops -/

/-- A loop runs over a block: behind `for`, blanks and an opening parenthesis, a brace opens in
front of the first one that closes. -/
def RunsOverBlock (cs : List Char) : Prop :=
  ∃ loop, StandsAt "for" cs loop ∧ ∃ head, BlankUpTo cs (loop + 3) head ∧ cs[head]? = some '(' ∧
    ∃ close, FirstFrom '\x7d' cs (head + 1) close ∧ '\x7b' ∈ cs.extract (head + 1) close

/-- The words with which a loop or a function is left. -/
def exitWords : List String := ["break;", "return;"]

/-- The head of a loop, and a block behind it. -/
def blockBehindLoop : List Step :=
  literal "for" ++ (blanks ++ ([.one (· == '(')] ++
    (noneOf '\x7d' ++ ([.one (· == '\x7b')] ++ (noneOf '\x7d' ++ ([.one (· == '\x7d')] ++ []))))))

lemma denialOfService_required : denialOfService.required = [[blockBehindLoop]] := rfl

lemma denialOfService_forbidden : denialOfService.forbidden = [exitWords.map literal] := rfl

lemma occurs_blockBehindLoop : occurs [blockBehindLoop] cs = true ↔ RunsOverBlock cs := by
  have hend : TakesInTurn [] [] := rfl
  have hne : '\x7b' ≠ '\x7d' := by decide
  rw [occurs_iff_spans]
  unfold blockBehindLoop RunsOverBlock
  simp only [exists_spans_literal_append, exists_spans_blanks_append, exists_spans_within_append,
    exists_spans_upTo_end hend]
  -- the pattern passes over two parts of the block, which are one part in front of the brace
  simp only [exists_firstFrom_around hne]
  rfl

lemma not_occurs_exitWords :
    Pattern.occurs (exitWords.map literal) cs = false ↔
      (∀ i, ¬ StandsAt "break;" cs i) ∧ ∀ i, ¬ StandsAt "return;" cs i := by
  rw [← Bool.not_eq_true, occurs_map_literal]
  simp [exitWords]

/-- The rule about unchecked calls applies exactly to the sources that drop the result of a call,
and the rule about denial of service to those that run a loop over a block and hold no word,
anywhere, with which a loop or a function is left. -/
theorem brackets_close_first (source : String) (facts : ContractFacts) :
    (uncheckedCall.applies source.toList facts = true ↔ DropsResult source.toList) ∧
    (denialOfService.applies source.toList facts = true ↔
      (∀ i, ¬ StandsAt "break;" source.toList i) ∧ (∀ i, ¬ StandsAt "return;" source.toList i) ∧
        RunsOverBlock source.toList) := by
  constructor
  · rw [applies_iff_of_anyContract rfl, uncheckedCall_required, List.forall_mem_singleton,
      occurs_droppedResult]
    exact and_iff_left (by simp [uncheckedCall])
  · rw [applies_iff_of_anyContract rfl, denialOfService_required, denialOfService_forbidden,
      List.forall_mem_singleton, List.forall_mem_singleton, occurs_blockBehindLoop,
      not_occurs_exitWords]
    rw [and_comm, and_assoc]

/-! ## Lines -/

/-- The words that tell of randomness from the block. -/
def randomnessPhrases : List (List String) :=
  [["block.timestamp"], ["block.difficulty"], ["block.number", "random"]]

/-- The words that tell of a requirement on the time of the block. -/
def timePhrases : List (List String) :=
  [["block.timestamp", "require"], ["block.number", "require"]]

/-- The words that tell of a guard against overflow, in the two places in which they are looked
for. -/
def guardPhrases : List (List (List String)) :=
  [[["SafeMath"], ["using", "for", "uint"]], [["pragma solidity", "0.8"]]]

lemma weakRandomness_required :
    weakRandomness.required = [randomnessPhrases.map (phrase anyCase)] := rfl

lemma timeDependence_required : timeDependence.required = [timePhrases.map (phrase anyCase)] := rfl

lemma overflow_required :
    overflow.required = [[[.one fun c => c == '+' || c == '-' || c == '*' || c == '/']]] := rfl

lemma overflow_forbidden :
    overflow.forbidden = guardPhrases.map fun phrases => phrases.map (phrase literal) := rfl

/-- Three rules judge a source line by line. Two of them look, in either case, for words on some
line, and the third is silenced by words on any line. Words of which one must stand behind the other
count on the same line only. -/
theorem judged_by_line (source : String) (facts : ContractFacts) :
    (weakRandomness.applies source.toList facts = true ↔
      ∃ line ∈ lines source.toList, "block.timestamp".toList <:+: line.map foldCase ∨
        "block.difficulty".toList <:+: line.map foldCase ∨
        InTurn ["block.number", "random"] (line.map foldCase)) ∧
    (timeDependence.applies source.toList facts = true ↔
      ∃ line ∈ lines source.toList, InTurn ["block.timestamp", "require"] (line.map foldCase) ∨
        InTurn ["block.number", "require"] (line.map foldCase)) ∧
    (overflow.applies source.toList facts = true ↔
      (∃ c ∈ source.toList, c ∈ ['+', '-', '*', '/']) ∧
      ∀ line ∈ lines source.toList, ¬ "SafeMath".toList <:+: line ∧
        ¬ InTurn ["using", "for", "uint"] line ∧ ¬ InTurn ["pragma solidity", "0.8"] line) := by
  refine ⟨?_, ?_, ?_⟩
  · rw [applies_iff_of_anyContract rfl, weakRandomness_required, List.forall_mem_singleton,
      occurs_map_phrase_anyCase rfl]
    simp [randomnessPhrases, weakRandomness, inTurn_single]
  · rw [applies_iff_of_anyContract rfl, timeDependence_required, List.forall_mem_singleton,
      occurs_map_phrase_anyCase rfl]
    simp [timePhrases, timeDependence]
  · rw [applies_iff_of_anyContract rfl, overflow_required, overflow_forbidden,
      List.forall_mem_singleton, occurs_one]
    simp only [guardPhrases, List.forall_mem_map, List.forall_mem_cons, ← Bool.not_eq_true]
    rw [occurs_map_phrase_literal (by decide), occurs_map_phrase_literal (by decide)]
    simp [inTurn_single, or_assoc, and_assoc, imp_and, forall_and]

/-- Letters beyond ASCII stand for letters of the words. -/
example : weakRandomness.applies "Bloc\u212a.Time\u017ftamp".toList default = true := by
  decide +kernel

end SolidityAudit.Rule
