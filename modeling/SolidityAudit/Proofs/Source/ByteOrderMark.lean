import SolidityAudit.Proofs.Contract.Fallback
import SolidityAudit.Proofs.Outside.Recorded

/-!
# Files with a byte-order mark

The mark in front of a file is taken as a character of its text (`textOf_marked`). The grammar knows
no such character, so a marked source is never accepted, and its audit goes by the cautious record.
The patterns of the rules do not care, so the one finding that a mark can hide is the one about
access control (`marked_file_audit`).
-/

namespace SolidityAudit.Source

open Outside (Recorded)
open Outside.Recorded (factsOf reportOf written)
open Text

/-! ## The text of a marked file -/

/-- The mark stays in front of the text. -/
lemma textOf_marked (s : String) :
    textOf (byteOrderMark ++ Utf8.encode s) = "\uFEFF" ++ textOf (Utf8.encode s) := by
  rw [encode_mark, textOf_encode, textOf_encode]
  apply String.toList_injective
  simp only [String.toList_append, String.toList_ofList]
  rfl

lemma mark_append_ne (text : String) : "\uFEFF" ++ text ≠ text := by
  intro hsame
  have hlength := congrArg String.length hsame
  rw [String.length_append] at hlength
  have hmark : "\uFEFF".length = 1 := by decide
  omega

/-! ## The audit of a marked file -/

/-- No token begins with the mark. -/
lemma readSource_marked (text : String) (items : List Solidity.Tree) :
    Solidity.readSource ("\uFEFF" ++ text) ≠ .ok items := by
  intro hitems
  obtain ⟨ts, hts, -⟩ := Solidity.readSource_eq_ok.mp hitems
  rw [Solidity.tokensOf, String.toList_append] at hts
  cases hts

lemma factsOf_marked (text : String) :
    factsOf ("\uFEFF" ++ text) = ContractFacts.fallback (some ("\uFEFF" ++ text)) :=
  ContractFacts.parseOrFallback_of_refused (readSource_marked text)

/-- No finding about a text begins with the mark. -/
lemma applies_marked {r : Rule} (h : r ∈ Rule.textual) (text : String)
    (facts facts' : ContractFacts) :
    r.applies ("\uFEFF" ++ text).toList facts = r.applies text.toList facts' := by
  have hbegin : ∀ r ∈ Rule.textual, ∀ p ∈ r.required ++ r.forbidden,
      p.mayBegin '\ufeff' = false := by
    decide
  rw [Rule.applies_of_textual h _ facts facts', String.toList_append]
  exact Rule.applies_cons (hbegin r h) text.toList facts'

/-- The report of a marked text is the report of the text, unless the mark hides something. -/
lemma reportOf_marked_iff (text : String) :
    reportOf ("\uFEFF" ++ text) = reportOf text ↔
      ∀ i ∈ (reportOf text).issues, i.type ≠ .str "Access Control" := by
  have hsilent : Rule.accessControl.applies ("\uFEFF" ++ text).toList
      (factsOf ("\uFEFF" ++ text)) = false := by
    rw [factsOf_marked]
    exact Rule.accessControl_not_applies rfl _
  constructor
  · intro hreport
    rw [← hreport]
    exact Rule.accessControl_unreported_iff.mpr hsilent
  · intro hnone
    have hplain : Rule.accessControl.applies text.toList (factsOf text) = false :=
      Rule.accessControl_unreported_iff.mp hnone
    apply RuleTable.audit_congr
    intro r hr
    rcases Rule.mem_standard.mp hr with rfl | htextual
    · rw [hsilent, hplain]
    · exact applies_marked htextual text _ _

variable {w w' : Recorded} {path path' s : String}

/-- A file with a mark and one without never have the same text. The audits of the two agree on the
report exactly when there is nothing to say about access control, and on the complexity exactly
when it is high. -/
theorem marked_file_audit (hplain : w.Holds path (Utf8.encode s))
    (hmarked : w'.Holds path' (byteOrderMark ++ Utf8.encode s)) :
    ∃ text,
      (∃ asked, w.run (read path) = (.ok text, w.noting asked)) ∧
      (∃ asked, w'.run (read path') = (.ok ("\uFEFF" ++ text), w'.noting asked)) ∧
      "\uFEFF" ++ text ≠ text ∧
      (∀ c, ∃ asked, w.run (Command.runAudit c path true false) =
        (.ok 0, w.noting (asked ++ [written text]))) ∧
      (∀ c, ∃ asked, w'.run (Command.runAudit c path' true false) =
        (.ok 0, w'.noting (asked ++ [written ("\uFEFF" ++ text)]))) ∧
      (reportOf ("\uFEFF" ++ text) = reportOf text ↔
        ∀ i ∈ (reportOf text).issues, i.type ≠ .str "Access Control") ∧
      ((factsOf ("\uFEFF" ++ text)).complexity = (factsOf text).complexity ↔
        (factsOf text).complexity = .high) := by
  refine ⟨textOf (Utf8.encode s), Recorded.run_read hplain, ?_, mark_append_ne _,
    fun c => Recorded.runAudit_written c hplain, ?_, reportOf_marked_iff _, ?_⟩
  · rw [← textOf_marked]
    exact Recorded.run_read hmarked
  · intro c
    rw [← textOf_marked]
    exact Recorded.runAudit_written c hmarked
  · have hhigh : (factsOf ("\uFEFF" ++ textOf (Utf8.encode s))).complexity = .high := by
      rw [factsOf_marked]
      rfl
    rw [hhigh]
    exact eq_comm

/-! ## One contract with and without a mark -/

/-- A world with one contract file. -/
def oneFile (octets : List UInt8) : Recorded where
  clock := 1700000000000
  environment := []
  files := { entries := [(["work", "a.sol"], some octets)], working := ["work"] }
  replies := ⟨[], .noFile ""⟩
  receipts := ⟨[], .noFile ""⟩
  pages := ⟨[], .noFile ""⟩
  outputs := ⟨[], .noFile ""⟩
  compilers := []
  nonce := 7
  gasPrice := 10
  account := .ok "0x1"
  history := []

lemma oneFile_holds (octets : List UInt8) : (oneFile octets).Holds "a.sol" octets := by
  have hpath : Path.ofText "a.sol" = ⟨"", ["a.sol"]⟩ := by decide +kernel
  constructor
  · rw [hpath]
    rfl
  · rw [hpath]
    decide +kernel
  · rw [hpath]
    rfl

/-- A contract with a public function that anyone can call. -/
def openToAll : String := "contract A \x7b function f() public \x7b\x7d \x7d"

lemma openToAll_audit :
    (∃ i ∈ (reportOf (textOf (Utf8.encode openToAll))).issues, i.type = .str "Access Control") ∧
      (factsOf (textOf (Utf8.encode openToAll))).complexity = .low := by
  have htext : textOf (Utf8.encode openToAll) = openToAll := by
    rw [textOf_encode]
    decide +kernel
  rw [htext]
  refine ⟨Rule.accessControl_reported_iff.mpr ?_, ?_⟩ <;> decide +kernel

/-- The finding about access control is lost with the mark. -/
theorem openToAll_marked :
    (oneFile (Utf8.encode openToAll)).Holds "a.sol" (Utf8.encode openToAll) ∧
    (oneFile (byteOrderMark ++ Utf8.encode openToAll)).Holds "a.sol"
      (byteOrderMark ++ Utf8.encode openToAll) ∧
    ∃ text asked, (oneFile (byteOrderMark ++ Utf8.encode openToAll)).run (read "a.sol") =
        (.ok ("\uFEFF" ++ text),
          (oneFile (byteOrderMark ++ Utf8.encode openToAll)).noting asked) ∧
      (reportOf ("\uFEFF" ++ text) = reportOf text ↔
        ∀ i ∈ (reportOf text).issues, i.type ≠ .str "Access Control") := by
  obtain ⟨text, -, ⟨asked, hread⟩, -, -, -, hreport, -⟩ :=
    marked_file_audit (oneFile_holds (Utf8.encode openToAll))
      (oneFile_holds (byteOrderMark ++ Utf8.encode openToAll))
  exact ⟨oneFile_holds _, oneFile_holds _, text, asked, hread, hreport⟩

/-- The two files give different texts, different reports and different complexities. -/
theorem openToAll_audited_apart :
    ((oneFile (byteOrderMark ++ Utf8.encode openToAll)).run (read "a.sol")).1.toOption ≠
      ((oneFile (Utf8.encode openToAll)).run (read "a.sol")).1.toOption ∧
    reportOf (textOf (byteOrderMark ++ Utf8.encode openToAll)) ≠
      reportOf (textOf (Utf8.encode openToAll)) ∧
    (factsOf (textOf (byteOrderMark ++ Utf8.encode openToAll))).complexity ≠
      (factsOf (textOf (Utf8.encode openToAll))).complexity := by
  obtain ⟨⟨i, hi, htype⟩, hlow⟩ := openToAll_audit
  obtain ⟨asked, hplain⟩ := Recorded.run_read (oneFile_holds (Utf8.encode openToAll))
  obtain ⟨asked', hmarked⟩ :=
    Recorded.run_read (oneFile_holds (byteOrderMark ++ Utf8.encode openToAll))
  rw [hplain, hmarked, textOf_marked]
  refine ⟨?_, ?_, ?_⟩
  · intro hsame
    exact mark_append_ne _ (Option.some.inj hsame)
  · intro hsame
    exact (reportOf_marked_iff _).mp hsame i hi htype
  · rw [factsOf_marked, hlow]
    decide

end SolidityAudit.Source
