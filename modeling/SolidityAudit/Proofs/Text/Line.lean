import Mathlib.Data.List.Infix
import SolidityAudit.Proofs.Text.Pattern

/-!
# Words on one line

A text is cut into lines at its line breaks. Words with anything but a line break between them are
found where some line holds them one after the other (`Pattern.occurs_phrase`), however many of them
a line holds and whichever of these a search takes first. Case is ignored by folding each character
to the letter that it may stand for, so one lemma covers words in both senses.
-/

namespace SolidityAudit

namespace Text

variable {c : Char} {w cs line : List Char}

/-- The parts of a text between its line breaks. -/
def lines (cs : List Char) : List (List Char) := cs.splitOn '\n'

/-- The words stand in the text one after the other. -/
def InTurn : List String → List Char → Prop
  | [], _ => True
  | word :: words, cs => ∃ before after, cs = before ++ (word.toList ++ after) ∧ InTurn words after

/-- The character for which a character stands when case is ignored: besides the capitals of ASCII,
the long s stands for s, the kelvin sign for k, and the dotted capital and the dotless small i for
i. -/
def foldCase (c : Char) : Char :=
  if c = '\u017f' then 's'
  else if c = '\u212a' then 'k'
  else if c = '\u0130' ∨ c = '\u0131' then 'i'
  else c.toLower

lemma inTurn_single {word : String} : InTurn [word] cs ↔ word.toList <:+: cs := by
  constructor
  · intro h
    obtain ⟨before, after, rfl, -⟩ := h
    exact ⟨before, after, List.append_assoc _ _ _⟩
  · intro h
    obtain ⟨before, after, rfl⟩ := h
    exact ⟨before, after, List.append_assoc _ _ _, trivial⟩

lemma InTurn.append_left {words : List String} (h : InTurn words cs) (before : List Char) :
    InTurn words (before ++ cs) := by
  cases words with
  | nil => trivial
  | cons word words =>
    obtain ⟨u, v, rfl, hv⟩ := h
    exact ⟨before ++ u, v, (List.append_assoc _ _ _).symm, hv⟩

/-! ## Lines -/

/-- A word without the character stands on one side of it. -/
lemma infix_append_cons_iff {a b : List Char} (hc : c ∉ w) :
    w <:+: a ++ c :: b ↔ w <:+: a ∨ w <:+: b := by
  constructor
  · intro h
    rcases List.infix_append_iff.mp h with ha | hb | ⟨u, v, rfl, hu, hv⟩
    · exact .inl ha
    · rcases List.infix_cons_iff.mp hb with hb | hb
      · rcases List.prefix_cons_iff.mp hb with rfl | ⟨v, rfl, -⟩
        · exact .inl (List.nil_infix)
        · simp at hc
      · exact .inr hb
    · -- the part behind would begin with the character
      rcases List.prefix_cons_iff.mp hv with rfl | ⟨v, rfl, -⟩
      · rw [List.append_nil]
        exact .inl hu.isInfix
      · simp at hc
  · intro h
    rcases h with ha | hb
    · exact ha.trans (List.infix_append' [] a (c :: b))
    · exact hb.trans (List.suffix_append_of_suffix (List.suffix_cons c b)).isInfix

lemma lines_of_not_mem (h : '\n' ∉ cs) : lines cs = [cs] :=
  List.splitOn_eq_singleton h

lemma lines_append (a b : List Char) : lines (a ++ '\n' :: b) = lines a ++ lines b :=
  List.splitOn_append_cons_self a b

/-- What holds of a text of one line, and of a text with one line more in front, holds of all. -/
lemma lines_induction {P : List Char → Prop} (last : ∀ line, '\n' ∉ line → P line)
    (more : ∀ line rest, '\n' ∉ line → P rest → P (line ++ '\n' :: rest)) (cs : List Char) :
    P cs := by
  induction hlength : cs.length using Nat.strong_induction_on generalizing cs with
  | _ n ih =>
    by_cases hbreak : '\n' ∈ cs
    · obtain ⟨line, rest, rfl, hline⟩ := List.eq_append_cons_of_mem hbreak
      rw [List.length_append, List.length_cons] at hlength
      exact more line rest hline (ih rest.length (by omega) rest rfl)
    · exact last cs hbreak

/-- No line holds a line break. -/
lemma not_mem_of_mem_lines (h : line ∈ lines cs) : '\n' ∉ line := by
  induction cs using lines_induction with
  | last cs hcs =>
    rw [lines_of_not_mem hcs, List.mem_singleton] at h
    exact h ▸ hcs
  | more first rest hfirst ih =>
    rw [lines_append, lines_of_not_mem hfirst, List.singleton_append, List.mem_cons] at h
    rcases h with rfl | h
    · exact hfirst
    · exact ih h

/-- A word without a line break stands in a text if it stands in one of its lines. -/
theorem infix_iff_lines (hw : '\n' ∉ w) : w <:+: cs ↔ ∃ line ∈ lines cs, w <:+: line := by
  induction cs using lines_induction with
  | last cs hcs =>
    rw [lines_of_not_mem hcs]
    simp
  | more first rest hfirst ih =>
    rw [infix_append_cons_iff hw, ih, lines_append, lines_of_not_mem hfirst]
    simp

/-! ## Case -/

/-- A character is met as a letter of ASCII, in either case, exactly if it stands for the letter. -/
lemma sameLetter_iff {letter : Char} (hletter : letter.toNat < 128) :
    Pattern.sameLetter letter c = true ↔ foldCase c = letter := by
  -- the four characters beyond ASCII are no capitals, and none of them is the letter itself
  have hbeyond (d : Char) (hd : 128 ≤ d.toNat) : letter ≠ d := by
    rintro rfl
    omega
  have hlong := hbeyond '\u017f' (by decide)
  have hkelvin := hbeyond '\u212a' (by decide)
  have hdotted := hbeyond '\u0130' (by decide)
  have hdotless := hbeyond '\u0131' (by decide)
  unfold Pattern.sameLetter foldCase
  simp only [Bool.or_eq_true, Bool.and_eq_true, beq_iff_eq]
  split_ifs with hs hk hi
  · subst hs
    simp [hlong, eq_comm]
  · subst hk
    simp [hkelvin, eq_comm]
  · rcases hi with rfl | rfl
    · simp [hdotted, eq_comm]
    · simp [hdotless, eq_comm]
  · simp only [hs, hk, not_or.mp hi, and_false, or_false]

end Text

namespace Pattern

open Text

variable {letters : String → List Step} {fold : Char → Char} {words : List String}
  {phrases : List (List String)} {steps : List Step} {cs line : List Char}

/-! ## Words -/

/-- The steps for a word take what the word becomes when characters are folded, and the word has no
line break. -/
def Reads (letters : String → List Step) (fold : Char → Char) (word : String) : Prop :=
  '\n' ∉ word.toList ∧ ∀ w, TakesInTurn (letters word) w ↔ w.map fold = word.toList

lemma reads_literal {word : String} (h : '\n' ∉ word.toList) : Reads literal id word := by
  refine ⟨h, fun w => ?_⟩
  rw [takesInTurn_literal, List.map_id]

/-- Steps for characters, one for each character of a word. -/
lemma takesInTurn_map_one {accepts : Char → Char → Bool} {ls w : List Char}
    (h : ∀ l ∈ ls, ∀ c, accepts l c = true ↔ fold c = l) :
    TakesInTurn (ls.map fun l => .one (accepts l)) w ↔ w.map fold = ls := by
  induction ls generalizing w with
  | nil =>
    rw [List.map_nil, List.map_eq_nil_iff]
    rfl
  | cons l ls ih =>
    rw [List.map_cons, TakesInTurn]
    have hl := h l List.mem_cons_self
    have hls (v : List Char) : TakesInTurn (ls.map fun l => .one (accepts l)) v ↔ v.map fold = ls :=
      ih fun m hm => h m (List.mem_cons_of_mem l hm)
    constructor
    · intro htakes
      obtain ⟨u, v, rfl, ⟨c, hc, rfl⟩, hv⟩ := htakes
      rw [List.singleton_append, List.map_cons, (hl c).mp hc, (hls v).mp hv]
    · intro hmap
      obtain ⟨c, v, rfl, hc, hv⟩ := List.map_eq_cons_iff.mp hmap
      exact ⟨[c], v, rfl, ⟨c, (hl c).mpr hc, rfl⟩, (hls v).mpr hv⟩

/-- A character of ASCII, the line break apart. -/
def isPlain (c : Char) : Bool := c != '\n' && c.toNat < 128

lemma reads_anyCase {word : String} (h : word.toList.all isPlain = true) :
    Reads anyCase foldCase word := by
  have hplain (l : Char) (hl : l ∈ word.toList) : l ≠ '\n' ∧ l.toNat < 128 := by
    simpa [isPlain] using List.all_eq_true.mp h l hl
  refine ⟨fun hbreak => (hplain _ hbreak).1 rfl, fun w => takesInTurn_map_one fun l hl c => ?_⟩
  exact sameLetter_iff (hplain l hl).2

/-! ## Words one after the other -/

/-- Words, each behind anything on the line. -/
def eachOnLine (letters : String → List Step) (words : List String) : List Step :=
  words.flatMap fun word => onLine ++ letters word

/-- A word, and others behind it on the line. -/
def phrase (letters : String → List Step) : List String → List Step
  | [] => []
  | word :: words => letters word ++ eachOnLine letters words

/-- What stands in front of steps does not decide whether they occur, if they may skip it. -/
lemma occurs_many_append {accepts : Char → Bool} :
    occurs [[.many accepts] ++ steps] cs = true ↔ occurs [steps] cs = true := by
  simp only [occurs_iff, takes_single, takesInTurn_append, takesInTurn_single]
  constructor
  · intro h
    obtain ⟨-, hpart, u, v, rfl, -, hv⟩ := h
    exact ⟨v, (List.suffix_append u v).isInfix.trans hpart, hv⟩
  · intro h
    obtain ⟨w, hpart, hw⟩ := h
    refine ⟨w, hpart, [], w, rfl, ?_, hw⟩
    simp [Step.Takes]

lemma occurs_phrase_iff_eachOnLine :
    occurs [phrase letters words] cs = true ↔ occurs [eachOnLine letters words] cs = true := by
  cases words with
  | nil => rfl
  | cons word words =>
    show _ ↔ occurs [onLine ++ letters word ++ eachOnLine letters words] cs = true
    rw [List.append_assoc]
    exact occurs_many_append.symm

section Lines

variable (hfold : fold '\n' = '\n') (hwords : ∀ word ∈ words, Reads letters fold word)
include hwords

/-- A line begins with words, each behind anything, if it holds them one after the other. -/
lemma exists_takes_eachOnLine_iff (hline : '\n' ∉ line) :
    (∃ w, w <+: line ∧ TakesInTurn (eachOnLine letters words) w) ↔
      InTurn words (line.map fold) := by
  induction words generalizing line with
  | nil => exact iff_of_true ⟨[], List.nil_prefix, rfl⟩ trivial
  | cons word words ih =>
    obtain ⟨-, hreads⟩ := hwords word List.mem_cons_self
    have hbehind := fun m hm => hwords m (List.mem_cons_of_mem word hm)
    constructor
    · intro h
      obtain ⟨w, ⟨rest, rfl⟩, hw⟩ := h
      obtain ⟨u, v, rfl, hu, hv⟩ := takesInTurn_append.mp hw
      obtain ⟨x, y, rfl, hx, hy⟩ := takesInTurn_append.mp hu
      rw [List.append_assoc (x ++ y)] at hline ⊢
      have hrest : '\n' ∉ v ++ rest := fun hmem => hline (List.mem_append_right _ hmem)
      refine ⟨x.map fold, (v ++ rest).map fold, ?_, ?_⟩
      · rw [← (hreads y).mp hy, List.map_append, List.map_append, List.append_assoc]
      · exact (ih hbehind hrest).mp ⟨v, List.prefix_append v rest, hv⟩
    · intro h
      obtain ⟨before, after, hmap, hafter⟩ := h
      obtain ⟨x, l, rfl, rfl, hl⟩ := List.map_eq_append_iff.mp hmap
      obtain ⟨y, z, rfl, hy, rfl⟩ := List.map_eq_append_iff.mp hl
      have hgap : '\n' ∉ x := fun hmem => hline (List.mem_append_left _ hmem)
      have hrest : '\n' ∉ z := fun hmem =>
        hline (List.mem_append_right _ (List.mem_append_right _ hmem))
      obtain ⟨w, ⟨rest, rfl⟩, hw⟩ := (ih hbehind hrest).mpr hafter
      refine ⟨x ++ y ++ w, ⟨rest, by simp⟩, takesInTurn_append.mpr ⟨x ++ y, w, rfl, ?_, hw⟩⟩
      exact takesInTurn_append.mpr ⟨x, y, rfl, takesInTurn_noneOf.mpr hgap, (hreads y).mpr hy⟩

include hfold

/-- Words with anything on the line between them take no line break. -/
lemma not_mem_of_takes_eachOnLine {w : List Char} (h : TakesInTurn (eachOnLine letters words) w) :
    '\n' ∉ w := by
  induction words generalizing w with
  | nil =>
    obtain rfl := h
    simp
  | cons word words ih =>
    obtain ⟨hbreak, hreads⟩ := hwords word List.mem_cons_self
    obtain ⟨u, v, rfl, hu, hv⟩ := takesInTurn_append.mp h
    obtain ⟨x, y, rfl, hx, hy⟩ := takesInTurn_append.mp hu
    have hrest := ih (fun m hm => hwords m (List.mem_cons_of_mem word hm)) hv
    intro hmem
    rcases List.mem_append.mp hmem with hmem | hmem
    · rcases List.mem_append.mp hmem with hmem | hmem
      · exact takesInTurn_noneOf.mp hx hmem
      · apply hbreak
        rw [← (hreads y).mp hy, ← hfold]
        exact List.mem_map_of_mem hmem
    · exact hrest hmem

/-- Words with anything on the line between them occur where some line holds them one after the
other. -/
theorem occurs_phrase :
    occurs [phrase letters words] cs = true ↔ ∃ line ∈ lines cs, InTurn words (line.map fold) := by
  rw [occurs_phrase_iff_eachOnLine, occurs_iff]
  simp only [takes_single]
  constructor
  · intro h
    obtain ⟨w, hpart, hw⟩ := h
    have hbreak := not_mem_of_takes_eachOnLine hfold hwords hw
    obtain ⟨line, hline, before, after, rfl⟩ := (infix_iff_lines hbreak).mp hpart
    have hnone := not_mem_of_mem_lines hline
    rw [List.append_assoc] at hline hnone
    have hrest : '\n' ∉ w ++ after := fun hmem => hnone (List.mem_append_right _ hmem)
    refine ⟨_, hline, ?_⟩
    rw [List.map_append]
    apply InTurn.append_left
    exact (exists_takes_eachOnLine_iff hwords hrest).mp ⟨w, List.prefix_append w after, hw⟩
  · intro h
    obtain ⟨line, hline, hturn⟩ := h
    have hbreak := not_mem_of_mem_lines hline
    obtain ⟨w, hpart, hw⟩ := (exists_takes_eachOnLine_iff hwords hbreak).mpr hturn
    have hfree := not_mem_of_takes_eachOnLine hfold hwords hw
    exact ⟨w, (infix_iff_lines hfree).mpr ⟨line, hline, hpart.isInfix⟩, hw⟩

end Lines

/-- Alternatives of such words occur where some line holds the words of one of them. -/
theorem occurs_map_phrase (hfold : fold '\n' = '\n')
    (hphrases : ∀ words ∈ phrases, ∀ word ∈ words, Reads letters fold word) :
    Pattern.occurs (phrases.map (phrase letters)) cs = true ↔
      ∃ line ∈ lines cs, ∃ words ∈ phrases, InTurn words (line.map fold) := by
  rw [occurs_iff_exists_mem]
  simp only [List.mem_map, exists_exists_and_eq_and]
  constructor
  · intro h
    obtain ⟨words, hmem, h⟩ := h
    obtain ⟨line, hline, hturn⟩ := (occurs_phrase hfold (hphrases words hmem)).mp h
    exact ⟨line, hline, words, hmem, hturn⟩
  · intro h
    obtain ⟨line, hline, words, hmem, hturn⟩ := h
    exact ⟨words, hmem, (occurs_phrase hfold (hphrases words hmem)).mpr ⟨line, hline, hturn⟩⟩

/-- Words as they are. -/
theorem occurs_map_phrase_literal
    (hphrases : ∀ words ∈ phrases, ∀ word ∈ words, '\n' ∉ word.toList) :
    Pattern.occurs (phrases.map (phrase literal)) cs = true ↔
      ∃ line ∈ lines cs, ∃ words ∈ phrases, InTurn words line := by
  have hreads : ∀ words ∈ phrases, ∀ word ∈ words, Reads literal id word :=
    fun words hwords word hword => reads_literal (hphrases words hwords word hword)
  rw [occurs_map_phrase rfl hreads]
  simp only [List.map_id]

/-- Words in either case, looked for where case has been folded. -/
theorem occurs_map_phrase_anyCase
    (hphrases : (phrases.flatten.all fun word => word.toList.all isPlain) = true) :
    Pattern.occurs (phrases.map (phrase anyCase)) cs = true ↔
      ∃ line ∈ lines cs, ∃ words ∈ phrases, InTurn words (line.map foldCase) := by
  have hreads : ∀ words ∈ phrases, ∀ word ∈ words, Reads anyCase foldCase word := by
    intro words hwords word hword
    have hmem := List.mem_flatten.mpr ⟨words, hwords, hword⟩
    exact reads_anyCase (List.all_eq_true.mp hphrases word hmem)
  exact occurs_map_phrase rfl hreads

end Pattern

end SolidityAudit
