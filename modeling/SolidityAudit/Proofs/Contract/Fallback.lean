import SolidityAudit.Proofs.Audit.Verdict
import SolidityAudit.Proofs.Contract.Append
import SolidityAudit.Proofs.Solidity.Nesting

/-!
# Sources that the grammar does not accept

A source without facts of its own gets a cautious record: no declarations, the highest complexity,
and a name that is looked up in the text (`cautious_fallback`). An audit by that record sees no
function, so it cannot find one that nobody controls. Sources with crossed or open brackets always
end here (`fallback_of_not_wellNested`).
-/

namespace SolidityAudit.ContractFacts

open Solidity (WellNested tokenList)

/-- The text has the word behind `contract` and a gap. -/
def Names (source w : String) : Prop :=
  (w ≠ "" ∧ ∀ c ∈ w.toList, Text.isWord c = true) ∧
  ∃ first gap rest, source = first ++ "contract" ++ gap ++ w ++ rest ∧
    gap ≠ "" ∧ ∀ c ∈ gap.toList, Text.isBlank c = true

/-- Nothing is known but a name, and that is taken from the text if there is one. -/
structure Cautious (source : String) (f : ContractFacts) : Prop where
  functions : f.functions = []
  events : f.events = []
  modifiers : f.modifiers = []
  stateVariables : f.stateVariables = []
  imports : f.imports = []
  complexity : f.complexity = .high
  name : (∃ w, Names source w ∧ f.name = .str w) ∨
    (∀ w, ¬ Names source w) ∧ f.name = .str fallbackName

/-! ## The record -/

lemma takes_contractWord {u : List Char} :
    contractWord.Takes u ↔
      ∃ gap, u = "contract".toList ++ gap ∧ gap ≠ [] ∧ ∀ c ∈ gap, Text.isBlank c = true := by
  rw [contractWord, Pattern.takes_single, Pattern.takesInTurn_append]
  constructor
  · intro h
    obtain ⟨v, gap, rfl, hv, hgap⟩ := h
    obtain rfl := Pattern.takesInTurn_literal.mp hv
    exact ⟨gap, rfl, Pattern.takesInTurn_some.mp hgap⟩
  · intro h
    obtain ⟨gap, rfl, hgap⟩ := h
    exact ⟨_, gap, rfl, Pattern.takesInTurn_literal.mpr rfl, Pattern.takesInTurn_some.mpr hgap⟩

/-- A text names its contract if a name can be captured in it. -/
lemma names_iff {source w : String} :
    Names source w ↔ ∃ first u rest, source.toList = first ++ (u ++ (w.toList ++ rest)) ∧
      contractWord.Takes u ∧ Pattern.Takes [Pattern.word1] w.toList := by
  have hword : Pattern.Takes [Pattern.word1] w.toList ↔
      w ≠ "" ∧ ∀ c ∈ w.toList, Text.isWord c = true := by
    rw [Pattern.takes_single, Pattern.word1, Pattern.takesInTurn_some, Ne, Ne,
      String.toList_eq_nil_iff]
  rw [hword]
  constructor
  · intro h
    obtain ⟨hw, first, gap, rest, rfl, hgap, hblank⟩ := h
    have hne : gap.toList ≠ [] := fun hnil => hgap (String.toList_eq_nil_iff.mp hnil)
    refine ⟨first.toList, _, rest.toList, ?_, takes_contractWord.mpr ⟨_, rfl, hne, hblank⟩, hw⟩
    simp only [String.toList_append, List.append_assoc]
  · intro h
    obtain ⟨first, u, rest, hsource, hu, hw⟩ := h
    obtain ⟨gap, rfl, hne, hblank⟩ := takes_contractWord.mp hu
    refine ⟨hw, String.ofList first, String.ofList gap, String.ofList rest, ?_, ?_, ?_⟩
    · apply String.toList_injective
      simp only [hsource, String.toList_append, String.toList_ofList, List.append_assoc]
    · intro hnil
      apply hne
      rw [← String.toList_ofList (l := gap), hnil]
      rfl
    · rwa [String.toList_ofList]

lemma fallback_name (source : String) :
    (fallback (some source)).name = .str
      (((Pattern.capture? contractWord [Pattern.word1] [[]] source.toList).map String.ofList).getD
        fallbackName) :=
  rfl

/-- The record of a source that is not accepted is cautious. -/
theorem cautious_fallback (source : String) : Cautious source (fallback (some source)) := by
  refine ⟨rfl, rfl, rfl, rfl, rfl, rfl, ?_⟩
  rw [fallback_name]
  cases hcapture : Pattern.capture? contractWord [Pattern.word1] [[]] source.toList with
  | some found =>
    left
    obtain ⟨first, u, w, rest, hsource, hu, hfound, -⟩ := Pattern.capture?_sound hcapture
    refine ⟨String.ofList found, names_iff.mpr ⟨first, u, w ++ rest, ?_, hu, ?_⟩, rfl⟩
    · rw [String.toList_ofList, hsource]
    · rwa [String.toList_ofList]
  | none =>
    right
    refine ⟨?_, rfl⟩
    intro w hnames
    -- a name in the text would have been captured
    obtain ⟨first, u, rest, hsource, hu, hw⟩ := names_iff.mp hnames
    have hnothing : Pattern.Takes [[]] [] := ⟨[], List.mem_singleton_self _, rfl⟩
    obtain ⟨v, hv⟩ := Pattern.exists_capture? hu hw hnothing first rest
    rw [List.nil_append, ← hsource, hcapture] at hv
    simp at hv

/-- A source that the grammar refuses gets this record. -/
lemma parseOrFallback_of_refused {source : String}
    (h : ∀ items, Solidity.readSource source ≠ .ok items) :
    parseOrFallback (some source) = fallback (some source) := by
  unfold parseOrFallback
  cases hparse : parse (some source) with
  | ok f =>
    obtain ⟨items, hitems, -⟩ := parse_eq_ok.mp hparse
    exact absurd hitems (h items)
  | error e => rfl

/-! ## Crossed and open brackets -/

/-- A source whose brackets are crossed or left open has the cautious record in place of its facts,
and its audit takes access control for granted. -/
theorem fallback_of_not_wellNested {source : String} (h : ¬ WellNested (tokenList source)) :
    parseOrFallback (some source) = fallback (some source) ∧
    Cautious source (parseOrFallback (some source)) ∧
    (∀ i ∈ (audit source (parseOrFallback (some source))).issues, i.type ≠ .str "Access Control") ∧
    .str "Access control implemented" ∈
      (audit source (parseOrFallback (some source))).passedChecks := by
  have hfallback : parseOrFallback (some source) = fallback (some source) :=
    parseOrFallback_of_refused fun items hitems => h (Solidity.wellNested_of_readSource hitems)
  rw [hfallback]
  have hpublic : (fallback (some source)).hasPublicFunction = false := rfl
  have hsilent := Rule.accessControl_not_applies hpublic source.toList
  exact ⟨rfl, cautious_fallback source, Rule.accessControl_unreported_iff.mpr hsilent,
    Rule.accessControl_passed_iff.mpr hsilent⟩

/-- A contract with a public function that is not closed. -/
def openContract : String := "contract A \x7b function f() public \x7b\x7d"

/-- The name of the contract is known, and nobody asks about its function. -/
theorem openContract_fallback :
    ¬ WellNested (tokenList openContract) ∧
      (parseOrFallback (some openContract)).name = .str "A" ∧
      .str "Access control implemented" ∈ (audit openContract
        (parseOrFallback (some openContract))).passedChecks := by
  have hnested : ¬ WellNested (tokenList openContract) := by
    decide +kernel
  obtain ⟨hfallback, -, -, hpassed⟩ := fallback_of_not_wellNested hnested
  have hcapture : Pattern.capture? contractWord [Pattern.word1] [[]]
      openContract.toList = some ['A'] := by decide +kernel
  refine ⟨hnested, ?_, hpassed⟩
  rw [hfallback, fallback_name, hcapture]
  rfl

end SolidityAudit.ContractFacts
