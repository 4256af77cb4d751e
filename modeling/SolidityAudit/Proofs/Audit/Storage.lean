import SolidityAudit.Audit.Gas
import SolidityAudit.Proofs.Text.Count

/-!
# Counts of storage operations

The word for storage is counted together with the name of a variable behind it, and the whole name
is passed over. So a name that ends with this word, or with the word for mappings, may hide the
declaration that begins there, unless its own declaration is hidden in the same way. Whether a place
is hidden depends on what stands in front of it (`GasCounts.endsInName`), and the count is the
number of declarations that are not (`GasReport.counts_of_declarations`).
-/

namespace SolidityAudit

namespace Text

variable {c : Char}

/-- The code points of the blanks. -/
def blankCodes : List Nat :=
  [0x09, 0x0A, 0x0B, 0x0C, 0x0D, 0x1C, 0x1D, 0x1E, 0x1F, 0x20, 0x85, 0xA0, 0x1680, 0x2000, 0x2001,
   0x2002, 0x2003, 0x2004, 0x2005, 0x2006, 0x2007, 0x2008, 0x2009, 0x200A, 0x2028, 0x2029, 0x202F,
   0x205F, 0x3000]

lemma not_isWord_of_isBlank (h : isBlank c = true) : isWord c = false := by
  have hcodes : ∀ n ∈ blankCodes, isWord (Char.ofNat n) = false := by decide +kernel
  have hmem : c.toNat ∈ blankCodes := by
    simp only [isBlank, blankRanges, inRanges, List.any_cons, List.any_nil] at h
    simp only [blankCodes, List.mem_cons, List.not_mem_nil, or_false]
    split at h
    · simp at h
      omega
    · simp at h
      omega
  have hself := hcodes _ hmem
  rwa [Char.ofNat_toNat] at hself

end Text

namespace GasCounts

open Pattern

/-- The word for storage with blanks behind it, in front of the name of a variable. -/
def IsHead (t : List Char) : Prop :=
  ∃ b, b ≠ [] ∧ (∀ c ∈ b, Text.isBlank c = true) ∧ t = "storage".toList ++ b

/-- A variable in storage or a mapping is declared at the front of a text. -/
def Declares (t : List Char) : Prop :=
  (∃ head name, IsHead head ∧ name ≠ [] ∧ (∀ c ∈ name, Text.isWord c = true) ∧
    head ++ name <+: t) ∨
  ∃ b, (∀ c ∈ b, Text.isBlank c = true) ∧ "mapping".toList ++ b ++ ['('] <+: t

/-- Whether a text ends within the name of a variable in storage: there is the word for storage in
front of it, and this word does not stand within such a name itself. -/
def endsInName (t : List Char) : Bool :=
  let front := Text.stripRight Text.isWord t
  let word := Text.stripRight Text.isBlank front
  if word.length < front.length ∧ "storage".toList <:+ word then
    !endsInName (word.take (word.length - 7))
  else false
termination_by t.length
decreasing_by
  have hfront : (Text.stripRight Text.isWord t).length ≤ t.length :=
    (List.rdropWhile_prefix _ _).length_le
  have hword : (Text.stripRight Text.isBlank (Text.stripRight Text.isWord t)).length <
      (Text.stripRight Text.isWord t).length := by
    rename_i h
    exact h.1
  rw [List.length_take]
  exact (Nat.min_le_right ..).trans_lt (hword.trans_le hfront)

variable {t x y b u w head name cs rest : List Char} {c : Char}

/-! ## The names that are passed over -/

lemma IsHead.ne_nil (h : IsHead head) : head ≠ [] := by
  obtain ⟨b, -, -, rfl⟩ := h
  simp

lemma IsHead.isBlank_getLast? (h : IsHead head) (hc : c ∈ head.getLast?) :
    Text.isBlank c = true := by
  obtain ⟨b, hbne, hb, rfl⟩ := h
  rw [List.getLast?_append_of_ne_nil _ hbne] at hc
  exact hb c (List.mem_of_getLast? hc)

/-- No declaration begins with a blank. -/
lemma not_letter_of_isBlank (h : Text.isBlank c = true) : ¬ (c = 's' ∨ c = 'm') := by
  rintro (rfl | rfl)
  · exact absurd h (by decide)
  · exact absurd h (by decide)

lemma IsHead.not_letter_of_mem_tail (h : IsHead head) (hc : c ∈ head.tail) :
    ¬ (c = 's' ∨ c = 'm') := by
  obtain ⟨b, hbne, hb, rfl⟩ := h
  rcases List.mem_append.mp (show c ∈ "torage".toList ++ b from hc) with hc | hc
  · have hletters : "torage".toList.all (fun c => ¬ (c = 's' ∨ c = 'm')) = true := by decide
    simpa using List.all_eq_true.mp hletters c hc
  · exact not_letter_of_isBlank (hb c hc)

lemma isWord_of_mem_storage (h : c ∈ "storage".toList) : Text.isWord c = true := by
  have hletters : "storage".toList.all Text.isWord = true := by decide
  exact List.all_eq_true.mp hletters c h

lemma IsHead.not_mem_parenthesis (h : IsHead head) : '(' ∉ head := by
  obtain ⟨b, hbne, hb, rfl⟩ := h
  intro hmem
  rcases List.mem_append.mp hmem with hmem | hmem
  · exact absurd hmem (by decide)
  · exact absurd (hb _ hmem) (by decide)

lemma endsInName_iff : endsInName t = true ↔ ∃ y head u, IsHead head ∧
    (∀ c ∈ u, Text.isWord c = true) ∧ endsInName y = false ∧ t = y ++ head ++ u := by
  rw [endsInName]
  constructor
  · intro h
    split at h
    · rename_i hword
      obtain ⟨hlength, y, hy⟩ := hword
      obtain ⟨u, hu, huword⟩ := Text.exists_stripRight Text.isWord t
      obtain ⟨b, hb, hblank⟩ := Text.exists_stripRight Text.isBlank (Text.stripRight Text.isWord t)
      rw [← hy, List.length_append, show "storage".toList.length = 7 from rfl,
        Nat.add_sub_cancel, List.take_left, Bool.not_eq_true'] at h
      have hbne : b ≠ [] := by
        rintro rfl
        rw [List.append_nil] at hb
        rw [← hb] at hlength
        exact absurd hlength (lt_irrefl _)
      refine ⟨y, "storage".toList ++ b, u, ⟨b, hbne, hblank, rfl⟩, huword, h, ?_⟩
      rw [← List.append_assoc, hy, ← hb, ← hu]
    · cases h
  · rintro ⟨y, head, u, hhead, hu, hy, rfl⟩
    have hfront : Text.stripRight Text.isWord (y ++ head ++ u) = y ++ head := by
      refine Text.stripRight_append hu fun c hc => ?_
      rw [List.getLast?_append_of_ne_nil _ hhead.ne_nil] at hc
      exact Text.not_isWord_of_isBlank (hhead.isBlank_getLast? hc)
    obtain ⟨b, hbne, hb, rfl⟩ := hhead
    have hword : Text.stripRight Text.isBlank (y ++ ("storage".toList ++ b)) =
        y ++ "storage".toList := by
      rw [← List.append_assoc]
      refine Text.stripRight_append hb fun c hc => ?_
      rw [List.getLast?_append_of_ne_nil _ (by decide)] at hc
      obtain rfl := Option.some.inj hc
      rfl
    rw [hfront, hword, if_pos]
    · rw [List.length_append, show "storage".toList.length = 7 from rfl, Nat.add_sub_cancel,
        List.take_left, hy]
      rfl
    · refine ⟨?_, List.suffix_append ..⟩
      have hpos := List.length_pos_iff.mpr hbne
      have hlength : (y ++ "storage".toList ++ b).length =
          (y ++ "storage".toList).length + b.length := List.length_append
      rw [← List.append_assoc, hlength]
      omega

lemma endsInName_nil : endsInName [] = false := by
  rw [Bool.eq_false_iff, Ne, endsInName_iff]
  rintro ⟨y, head, u, hhead, -, -, h⟩
  have hnil := (List.append_eq_nil_iff.mp (List.append_eq_nil_iff.mp h.symm).1).2
  exact hhead.ne_nil hnil

lemma endsInName_concat_of_isWord (hc : Text.isWord c = true) :
    endsInName (x ++ [c]) = endsInName x := by
  have hstrip : Text.stripRight Text.isWord (x ++ [c]) = Text.stripRight Text.isWord x :=
    List.rdropWhile_concat_pos _ _ _ hc
  rw [endsInName, hstrip, ← endsInName]

/-- A text that ends with another character ends in a name only if a head ends there. -/
lemma exists_head_of_endsInName_concat (hc : Text.isWord c = false)
    (h : endsInName (x ++ [c]) = true) :
    ∃ y head, IsHead head ∧ endsInName y = false ∧ x ++ [c] = y ++ head := by
  obtain ⟨y, head, u, hhead, hu, hy, ht⟩ := endsInName_iff.mp h
  rcases List.eq_nil_or_concat' u with rfl | ⟨v, d, rfl⟩
  · exact ⟨y, head, hhead, hy, by rw [ht, List.append_nil]⟩
  · rw [← List.append_assoc] at ht
    obtain ⟨-, hcd⟩ := List.append_inj' ht rfl
    rw [List.singleton_inj.mp hcd, hu d (by simp)] at hc
    cases hc

/-! ## What is taken off a text -/

lemma takesInTurn_variable : TakesInTurn (literal "storage" ++ blanks1 ++ word1) w ↔
    ∃ head name, IsHead head ∧ name ≠ [] ∧ (∀ c ∈ name, Text.isWord c = true) ∧
      w = head ++ name := by
  constructor
  · intro h
    obtain ⟨v, name, rfl, hv, hname⟩ := takesInTurn_append.mp h
    obtain ⟨s, b, rfl, hs, hb⟩ := takesInTurn_append.mp hv
    obtain ⟨hbne, hb⟩ := takesInTurn_some.mp hb
    obtain ⟨hne, hname⟩ := takesInTurn_some.mp hname
    obtain rfl := takesInTurn_literal.mp hs
    exact ⟨_, name, ⟨b, hbne, hb, rfl⟩, hne, hname, rfl⟩
  · intro h
    obtain ⟨head, name, ⟨b, hbne, hb, rfl⟩, hne, hname, rfl⟩ := h
    have hword : TakesInTurn (literal "storage") "storage".toList := takesInTurn_literal.mpr rfl
    have hblanks : TakesInTurn blanks1 b := takesInTurn_some.mpr ⟨hbne, hb⟩
    have hlast : TakesInTurn word1 name := takesInTurn_some.mpr ⟨hne, hname⟩
    exact takesInTurn_append.mpr ⟨_, name, rfl,
      takesInTurn_append.mpr ⟨_, b, rfl, hword, hblanks⟩, hlast⟩

lemma takesInTurn_mapping : TakesInTurn (literal "mapping" ++ blanks ++ literal "(") w ↔
    ∃ b, (∀ c ∈ b, Text.isBlank c = true) ∧ w = "mapping".toList ++ b ++ ['('] := by
  constructor
  · intro h
    obtain ⟨v, d, rfl, hv, hd⟩ := takesInTurn_append.mp h
    obtain ⟨s, b, rfl, hs, hb⟩ := takesInTurn_append.mp hv
    obtain rfl := takesInTurn_literal.mp hs
    obtain rfl := takesInTurn_literal.mp hd
    exact ⟨b, takesInTurn_single.mp hb, rfl⟩
  · intro h
    obtain ⟨b, hb, rfl⟩ := h
    have hword : TakesInTurn (literal "mapping") "mapping".toList := takesInTurn_literal.mpr rfl
    have hblanks : TakesInTurn blanks b := takesInTurn_single.mpr hb
    exact takesInTurn_append.mpr ⟨_, _, rfl, takesInTurn_append.mpr ⟨_, b, rfl, hword, hblanks⟩,
      takesInTurn_literal.mpr rfl⟩

lemma takes_storageOperation : storageOperation.Takes w ↔
    TakesInTurn (literal "storage" ++ blanks1 ++ word1) w ∨
      TakesInTurn (literal "mapping" ++ blanks ++ literal "(") w := by
  simp [Takes, storageOperation]

lemma declares_iff : Declares t ↔ (storageOperation.rest? t).isSome = true := by
  rw [isSome_rest?]
  simp only [takes_storageOperation, takesInTurn_variable, takesInTurn_mapping]
  constructor
  · rintro (⟨head, name, hhead, hne, hname, h⟩ | ⟨b, hb, h⟩)
    · exact ⟨_, h, .inl ⟨head, name, hhead, hne, hname, rfl⟩⟩
    · exact ⟨_, h, .inr ⟨b, hb, rfl⟩⟩
  · rintro ⟨w, h, ⟨head, name, hhead, hne, hname, rfl⟩ | ⟨b, hb, rfl⟩⟩
    · exact .inl ⟨head, name, hhead, hne, hname, h⟩
    · exact .inr ⟨b, hb, h⟩

instance : DecidablePred Declares := fun _ => decidable_of_iff _ declares_iff.symm

/-- A declaration begins with one of two letters. -/
lemma Declares.head? (h : Declares (c :: t)) : c = 's' ∨ c = 'm' := by
  obtain ⟨head, name, ⟨b, -, -, rfl⟩, -, -, hprefix⟩ | ⟨b, -, hprefix⟩ := h
  · exact .inl (List.cons_prefix_cons.mp hprefix).1.symm
  · exact .inr (List.cons_prefix_cons.mp hprefix).1.symm

/-- What is taken off a text is a declaration with its whole name, or the head of a mapping. -/
lemma rest?_storageOperation (h : storageOperation.rest? cs = some rest) :
    (∃ head name, IsHead head ∧ name ≠ [] ∧ (∀ c ∈ name, Text.isWord c = true) ∧
      cs = head ++ name ++ rest ∧ ∀ c ∈ rest.head?, Text.isWord c = false) ∨
    ∃ b, (∀ c ∈ b, Text.isBlank c = true) ∧ cs = "mapping".toList ++ b ++ ['('] ++ rest := by
  obtain ⟨w, rfl, hw⟩ := mem_ends.mp (List.mem_of_head? h)
  rcases takes_storageOperation.mp hw with hvariable | hmapping
  · left
    have hmem : rest ∈ endsOfSteps (literal "storage" ++ blanks1 ++ word1) (w ++ rest) :=
      mem_endsOfSteps.mpr ⟨w, rfl, hvariable⟩
    -- the first alternative takes something, so what it prefers is what is left
    have hfirst : (endsOfSteps (literal "storage" ++ blanks1 ++ word1) (w ++ rest)).head? =
        some rest := by
      rw [rest?, ends, storageOperation, List.flatMap_cons, List.head?_append] at h
      cases hends : endsOfSteps (literal "storage" ++ blanks1 ++ word1) (w ++ rest) with
      | nil =>
        rw [hends] at hmem
        cases hmem
      | cons first later =>
        rw [hends] at h
        exact h
    obtain ⟨head, name, hhead, hne, hname, rfl⟩ := takesInTurn_variable.mp hvariable
    have hsteps : literal "storage" ++ blanks1 ++ word1 =
        (literal "storage" ++ blanks1 ++ [.one Text.isWord]) ++ [.many Text.isWord] := rfl
    rw [hsteps] at hfirst
    exact ⟨head, name, hhead, hne, hname, rfl, not_accepts_of_head?_endsOfSteps hfirst⟩
  · obtain ⟨b, hb, rfl⟩ := takesInTurn_mapping.mp hmapping
    exact .inr ⟨b, hb, rfl⟩

/-! ## The places that are counted -/

/-- A search that has come to a place has passed over no declaration that should count: what begins
here does not begin in a name, and a head that reaches beyond the place does. -/
structure Free (x cs : List Char) : Prop where
  here : ∀ c ∈ cs.head?, Text.isWord c = true → endsInName x = false
  across : ∀ {y v v' c rest}, v ≠ [] → x = y ++ v → cs = v' ++ c :: rest →
    Text.isWord c = true → IsHead (v ++ v') → endsInName y = true

lemma free_nil (cs : List Char) : Free [] cs where
  here _ _ _ := endsInName_nil
  across hne hx := absurd (List.append_eq_nil_iff.mp hx.symm).2 hne

/-- Where nothing is declared, the search goes on with the next character. -/
lemma Free.skip (h : Free x (c :: cs)) (hnone : ¬ Declares (c :: cs)) : Free (x ++ [c]) cs := by
  have hacross {y v v' d rest} (hne : v ≠ []) (hx : x ++ [c] = y ++ v) (hcs : cs = v' ++ d :: rest)
      (hd : Text.isWord d = true) (hhead : IsHead (v ++ v')) : endsInName y = true := by
    obtain ⟨v, e, rfl⟩ : ∃ u e, v = u ++ [e] := (List.eq_nil_or_concat' v).resolve_left hne
    rw [← List.append_assoc] at hx
    obtain ⟨rfl, hce⟩ := List.append_inj' hx rfl
    obtain rfl := List.singleton_inj.mp hce
    rw [List.append_assoc, List.singleton_append] at hhead
    by_cases hv : v = []
    · subst hv
      refine absurd (.inl ⟨c :: v', [d], hhead, List.cons_ne_nil _ _, ?_, ?_⟩) hnone
      · simpa using hd
      · rw [hcs]
        exact ⟨rest, by simp⟩
    · exact h.across hv rfl (by rw [hcs]; rfl) hd hhead
  refine ⟨fun d hd hword => ?_, hacross⟩
  by_cases hc : Text.isWord c = true
  · rw [endsInName_concat_of_isWord hc]
    exact h.here c rfl hc
  · rw [Bool.eq_false_iff]
    intro hname
    obtain ⟨y, head, hhead, hy, hx⟩ := exists_head_of_endsInName_concat (by simpa using hc) hname
    obtain ⟨rest, rfl⟩ : ∃ rest, cs = d :: rest := List.head?_eq_some_iff.mp hd
    have hwhole : IsHead (head ++ []) := by rwa [List.append_nil]
    have hy' := hacross hhead.ne_nil hx rfl hword hwhole
    rw [hy] at hy'
    cases hy'

/-- Parts that end one text end with one character. -/
lemma getLast?_eq_of_append_eq {x y v w : List Char} (h : x ++ v = y ++ w) (hv : v ≠ [])
    (hw : w ≠ []) : v.getLast? = w.getLast? := by
  have hlast := congrArg List.getLast? h
  rwa [List.getLast?_append_of_ne_nil _ hv, List.getLast?_append_of_ne_nil _ hw] at hlast

/-- Between a letter and another character, a head is cut behind its word. -/
lemma IsHead.eq_storage {v v' : List Char} (h : IsHead (v ++ c :: v'))
    (hlast : ∀ d ∈ v.getLast?, Text.isWord d = true) (hc : Text.isWord c = false) :
    v = "storage".toList := by
  obtain ⟨b, -, hb, h⟩ := h
  rcases List.append_eq_append_iff.mp h with ⟨u, hu, hcu⟩ | ⟨u, rfl, rfl⟩
  · cases u with
    | nil => rw [hu, List.append_nil]
    | cons d u =>
      obtain ⟨rfl, -⟩ := List.cons.inj hcu
      rw [isWord_of_mem_storage (by simp [hu])] at hc
      cases hc
  · rcases List.eq_nil_or_concat' u with rfl | ⟨u, d, rfl⟩
    · rw [List.append_nil]
    · have hword := hlast d (by rw [← List.append_assoc, List.getLast?_concat]; rfl)
      rw [Text.not_isWord_of_isBlank (hb d (by simp))] at hword
      cases hword

/-- The word of a head that stands behind another head stands in the name. -/
lemma IsHead.exists_of_append_eq (h : IsHead head) (hname : ∀ c ∈ name, Text.isWord c = true)
    (heq : x ++ head ++ name = y ++ "storage".toList) :
    ∃ u, (∀ c ∈ u, Text.isWord c = true) ∧ y = x ++ head ++ u := by
  rcases List.append_eq_append_iff.mp heq with ⟨u, hu, rfl⟩ | ⟨u, hu, hletters⟩
  · exact ⟨u, fun c hc => hname c (List.mem_append_left _ hc), hu⟩
  · rcases List.eq_nil_or_concat' u with rfl | ⟨u, d, rfl⟩
    · exact ⟨[], by simp, by rw [List.append_nil, hu, List.append_nil]⟩
    · -- a blank of the head would be one of the letters
      have hlast := getLast?_eq_of_append_eq hu h.ne_nil (by simp)
      have hblank : Text.isBlank d = true := h.isBlank_getLast? (by simp [hlast])
      have hnone := Text.not_isWord_of_isBlank hblank
      rw [isWord_of_mem_storage (by simp [hletters])] at hnone
      cases hnone

/-- A head at the place to which a search has come does not stand in a name. -/
lemma Free.not_endsInName (h : Free x (head ++ name ++ rest)) (hhead : IsHead head) :
    endsInName x = false := by
  obtain ⟨b, -, -, rfl⟩ := hhead
  exact h.here 's' rfl (by decide)

/-- Behind the whole name of a variable, a head that reaches further stands in that name. -/
lemma Free.behind_variable (h : Free x (head ++ name ++ rest)) (hhead : IsHead head)
    (hne : name ≠ []) (hname : ∀ c ∈ name, Text.isWord c = true)
    (hrest : ∀ c ∈ rest.head?, Text.isWord c = false) : Free (x ++ (head ++ name)) rest where
  here c hc hword := by
    rw [hrest c hc] at hword
    cases hword
  across := by
    intro y v v' c later hv hx hcs hword hlong
    obtain ⟨d, v', rfl⟩ : ∃ d w, v' = d :: w := by
      refine List.exists_cons_of_ne_nil ?_
      rintro rfl
      rw [hrest c (by rw [hcs]; rfl)] at hword
      cases hword
    rw [← List.append_assoc] at hx
    have hlast : ∀ e ∈ v.getLast?, Text.isWord e = true := by
      intro e he
      rw [← getLast?_eq_of_append_eq hx hne hv] at he
      exact hname e (List.mem_of_getLast? he)
    obtain rfl := hlong.eq_storage hlast (hrest d (by rw [hcs]; rfl))
    obtain ⟨u, hu, rfl⟩ := hhead.exists_of_append_eq hname hx
    exact endsInName_iff.mpr ⟨x, head, u, hhead, hu, h.not_endsInName hhead, rfl⟩

/-- No name goes on behind a parenthesis. -/
lemma free_concat_parenthesis (x cs : List Char) : Free (x ++ ['(']) cs where
  here _ _ _ := by
    rw [Bool.eq_false_iff]
    intro hname
    obtain ⟨y, head, hhead, -, hx⟩ := exists_head_of_endsInName_concat (by decide) hname
    have hlast := getLast?_eq_of_append_eq hx (List.cons_ne_nil _ _) hhead.ne_nil
    exact hhead.not_mem_parenthesis (List.mem_of_getLast? hlast.symm)
  across := by
    intro y v v' c later hv hx hcs hword hlong
    have hlast := getLast?_eq_of_append_eq hx (List.cons_ne_nil _ _) hv
    exact absurd (List.mem_append_left _ (List.mem_of_getLast? hlast.symm))
      hlong.not_mem_parenthesis

/-- A place that is counted: a declaration begins there, and it does not begin in a name. -/
def IsCounted (x cs : List Char) (i : Nat) : Prop :=
  Declares (cs.drop i) ∧ endsInName (x ++ cs.take i) = false

instance (x cs : List Char) : DecidablePred (IsCounted x cs) :=
  fun _ => inferInstanceAs (Decidable (_ ∧ _))

lemma isCounted_append (x w cs : List Char) (i : Nat) :
    IsCounted x (w ++ cs) (w.length + i) ↔ IsCounted (x ++ w) cs i := by
  unfold IsCounted
  rw [List.drop_length_add_append, List.take_length_add_append, List.append_assoc]

lemma isCounted_cons (x : List Char) (c : Char) (cs : List Char) (i : Nat) :
    IsCounted x (c :: cs) (i + 1) ↔ IsCounted (x ++ [c]) cs i := by
  rw [Nat.add_comm]
  exact isCounted_append x [c] cs i

/-- In what is taken off a text at once, only the first place is counted. -/
lemma count_isCounted (hw : w ≠ []) (hfirst : IsCounted x (w ++ rest) 0)
    (hinside : ∀ i, 0 < i → i < w.length → ¬ IsCounted x (w ++ rest) i) :
    Nat.count (IsCounted x (w ++ rest)) (w ++ rest).length =
      1 + Nat.count (IsCounted (x ++ w) rest) rest.length := by
  have hbehind : Nat.count (fun i => IsCounted x (w ++ rest) (w.length + i)) rest.length =
      Nat.count (IsCounted (x ++ w) rest) rest.length := by
    simp only [isCounted_append]
  have hwhole : Nat.count (IsCounted x (w ++ rest)) w.length = 1 := by
    obtain ⟨k, hk⟩ : ∃ k, w.length = k + 1 :=
      Nat.exists_eq_succ_of_ne_zero (by simpa using hw)
    rw [hk, Nat.count_succ', if_pos hfirst,
      Nat.count_of_forall_not fun i hi => hinside (i + 1) (by omega) (by omega)]
  rw [List.length_append, Nat.count_add, hwhole, hbehind]

/-- A declaration behind the first character of a word begins with one of its characters. -/
lemma Declares.exists_mem_tail {i : Nat} (h : Declares ((w ++ rest).drop i)) (hpos : 0 < i)
    (hi : i < w.length) : ∃ c ∈ w.tail, c = 's' ∨ c = 'm' := by
  obtain ⟨j, rfl⟩ : ∃ j, i = j + 1 := Nat.exists_eq_succ_of_ne_zero hpos.ne'
  cases w with
  | nil => simp at hi
  | cons a w =>
    have hj : j < w.length := by simpa using hi
    rw [List.cons_append, List.drop_succ_cons, List.drop_append_of_le_length hj.le,
      List.drop_eq_getElem_cons hj] at h
    exact ⟨w[j], List.getElem_mem hj, h.head?⟩

/-- Within a declaration with its whole name, nothing else is counted. -/
lemma not_isCounted_in_variable (hhead : IsHead head) (hname : ∀ c ∈ name, Text.isWord c = true)
    (hx : endsInName x = false) {i : Nat} (hpos : 0 < i) (hi : i < (head ++ name).length) :
    ¬ IsCounted x (head ++ name ++ rest) i := by
  rintro ⟨hdeclares, hnone⟩
  by_cases hin : i < head.length
  · rw [List.append_assoc] at hdeclares
    obtain ⟨c, hc, hletter⟩ := hdeclares.exists_mem_tail hpos hin
    exact hhead.not_letter_of_mem_tail hc hletter
  · have htake : (head ++ name ++ rest).take i = head ++ name.take (i - head.length) := by
      rw [List.take_append_of_le_length hi.le, List.take_append, List.take_of_length_le (by omega)]
    have hwithin : endsInName (x ++ (head ++ name ++ rest).take i) = true := by
      rw [htake, ← List.append_assoc]
      exact endsInName_iff.mpr
        ⟨x, head, _, hhead, fun c hc => hname c (List.mem_of_mem_take hc), hx, rfl⟩
    rw [hnone] at hwithin
    cases hwithin

lemma not_isCounted_in_mapping (hb : ∀ c ∈ b, Text.isBlank c = true) {i : Nat} (hpos : 0 < i)
    (hi : i < ("mapping".toList ++ b ++ ['(']).length) :
    ¬ IsCounted x ("mapping".toList ++ b ++ ['('] ++ rest) i := by
  rintro ⟨hdeclares, -⟩
  obtain ⟨c, hc, hletter⟩ := hdeclares.exists_mem_tail hpos hi
  have hc : c ∈ "apping".toList ++ b ++ ['('] := hc
  rw [List.append_assoc, List.mem_append, List.mem_append] at hc
  rcases hc with hc | hc | hc
  · have hletters : "apping".toList.all (fun c => ¬ (c = 's' ∨ c = 'm')) = true := by decide
    exact absurd hletter (by simpa using List.all_eq_true.mp hletters c hc)
  · exact not_letter_of_isBlank (hb c hc) hletter
  · obtain rfl := List.mem_singleton.mp hc
    exact absurd hletter (by decide)

/-- What is counted from a place on at which the search has come. -/
theorem count_of_free (h : Free x cs) :
    storageOperation.count cs = Nat.count (IsCounted x cs) cs.length := by
  -- by the length of the text, as the count goes on behind all that is taken at once
  induction hlength : cs.length using Nat.strong_induction_on generalizing x cs with
  | _ n ih =>
    subst hlength
    cases hrest : storageOperation.rest? cs with
    | none =>
      cases cs with
      | nil => rfl
      | cons c cs =>
        have hnone : ¬ Declares (c :: cs) := by
          rw [declares_iff, hrest]
          simp
        have hshift : Nat.count (fun i => IsCounted x (c :: cs) (i + 1)) cs.length =
            Nat.count (IsCounted (x ++ [c]) cs) cs.length := by
          simp only [isCounted_cons]
        rw [count_cons_of_none hrest, List.length_cons, Nat.count_succ', hshift,
          if_neg fun hcounted => hnone hcounted.1, ih _ (by simp) (h.skip hnone) rfl]
        rfl
    | some rest =>
      have hempty : ¬ storageOperation.Takes [] := by
        rw [takes_storageOperation, takesInTurn_variable, takesInTurn_mapping]
        simp
      obtain ⟨w, -, -, hcount⟩ := count_of_rest hempty hrest
      rw [hcount]
      rcases rest?_storageOperation hrest with
        ⟨head, name, hhead, hne, hname, rfl, hbehind⟩ | ⟨b, hb, rfl⟩
      · have hx := h.not_endsInName hhead
        have hfirst : IsCounted x (head ++ name ++ rest) 0 :=
          ⟨.inl ⟨head, name, hhead, hne, hname, List.prefix_append ..⟩, by simpa using hx⟩
        rw [count_isCounted (by simp [hne]) hfirst
            fun i => not_isCounted_in_variable hhead hname hx,
          ih _ ?_ (h.behind_variable hhead hne hname hbehind) rfl]
        have hpos := List.length_pos_iff.mpr hne
        rw [List.length_append, List.length_append]
        omega
      · have hx : endsInName x = false := h.here 'm' rfl (by decide)
        have hfirst : IsCounted x ("mapping".toList ++ b ++ ['('] ++ rest) 0 :=
          ⟨.inr ⟨b, hb, List.prefix_append ..⟩, by simpa using hx⟩
        rw [count_isCounted (by simp) hfirst fun i => not_isCounted_in_mapping hb,
          ← List.append_assoc, ih _ ?_ (free_concat_parenthesis _ rest) rfl]
        have hpos : 0 < ("mapping".toList ++ b ++ ['(']).length := by simp
        rw [List.length_append]
        omega

end GasCounts

/-- The storage operations of a gas report are the places at which a variable in storage or a
mapping is declared, but for those within the name of the variable that is declared in front of
them. -/
theorem GasReport.counts_of_declarations (source : String) :
    (ofSource source).counts.storageOperations =
      Nat.count (fun i => GasCounts.Declares (source.toList.drop i) ∧
        GasCounts.endsInName (source.toList.take i) = false) source.toList.length :=
  GasCounts.count_of_free (GasCounts.free_nil source.toList)

/-- The second word is taken as a name, and so is the mapping behind the third. -/
example : (GasReport.ofSource "storage storage storage mapping(").counts.storageOperations = 2 := by
  decide +kernel

end SolidityAudit
