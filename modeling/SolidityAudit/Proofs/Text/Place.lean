import Mathlib.Data.List.Infix
import SolidityAudit.Proofs.Text.Pattern

/-!
# Places in a text

The places of a text are counted from zero, and the part from a place `i` up to a place `j` holds
the characters at the places `k` with `i ≤ k < j`. Steps of a pattern take a text from one place up
to another (`Pattern.Spans`), and steps one after the other share the place between them
(`Pattern.spans_append`). So what a search finds, with all its ways of going back, can be said by
places alone: where a word stands, which character comes first, what follows behind blanks.
-/

namespace SolidityAudit

namespace Text

variable {c : Char} {cs : List Char} {i j k : Nat}

/-- The word stands in the text from the place on. -/
def StandsAt (word : String) (cs : List Char) (i : Nat) : Prop :=
  i + word.toList.length ≤ cs.length ∧ cs.extract i (i + word.toList.length) = word.toList

/-- The place `j` is the first one from `i` on at which the character stands. -/
def FirstFrom (c : Char) (cs : List Char) (i j : Nat) : Prop :=
  i ≤ j ∧ cs[j]? = some c ∧ c ∉ cs.extract i j

/-- Nothing but blanks stands from the place `i` up to the place `j`. -/
def BlankUpTo (cs : List Char) (i j : Nat) : Prop :=
  i ≤ j ∧ ∀ c ∈ cs.extract i j, isBlank c = true

/-- A character of the class follows from the place on, behind any number of blanks. -/
def FollowedBy (accepts : Char → Bool) (cs : List Char) (i : Nat) : Prop :=
  ∃ j c, BlankUpTo cs i j ∧ cs[j]? = some c ∧ accepts c = true

/-! ## Parts of a text -/

lemma mem_extract : c ∈ cs.extract i j ↔ ∃ k, i ≤ k ∧ k < j ∧ cs[k]? = some c := by
  rw [List.mem_iff_getElem?]
  constructor
  · intro h
    obtain ⟨n, hn⟩ := h
    have hlt : n < j - i := by
      by_contra hge
      rw [List.getElem?_take, if_neg hge] at hn
      cases hn
    rw [List.getElem?_take_of_lt hlt, List.getElem?_drop] at hn
    exact ⟨i + n, by omega, by omega, hn⟩
  · intro h
    obtain ⟨k, hik, hkj, hk⟩ := h
    refine ⟨k - i, ?_⟩
    rw [List.getElem?_take_of_lt (by omega), List.getElem?_drop]
    rwa [show i + (k - i) = k by omega]

/-- A part of a text, cut at a place within. -/
lemma extract_append (hik : i ≤ k) (hkj : k ≤ j) :
    cs.extract i k ++ cs.extract k j = cs.extract i j := by
  have hlength : j - i = (k - i) + (j - k) := by omega
  show _ = (cs.drop i).take (j - i)
  rw [hlength, List.take_add, List.drop_drop, Nat.add_sub_cancel' hik]

lemma length_extract (hj : j ≤ cs.length) : (cs.extract i j).length = j - i := by
  rw [List.length_take, List.length_drop]
  omega

lemma extract_succ (h : cs[i]? = some c) : cs.extract i (i + 1) = [c] := by
  obtain ⟨hi, rfl⟩ := List.getElem?_eq_some_iff.mp h
  show (cs.drop i).take (i + 1 - i) = [cs[i]]
  rw [Nat.add_sub_cancel_left, List.drop_eq_getElem_cons hi]
  rfl

/-- A part of a text stands in it. -/
lemma extract_infix (cs : List Char) (i j : Nat) : cs.extract i j <:+: cs :=
  (List.take_prefix _ _).isInfix.trans (List.drop_suffix i cs).isInfix

/-- What stands in a text is the part between two places. -/
lemma exists_extract {w : List Char} (h : w <:+: cs) :
    ∃ i j, i ≤ j ∧ j ≤ cs.length ∧ cs.extract i j = w := by
  obtain ⟨before, after, rfl⟩ := h
  refine ⟨before.length, before.length + w.length, by omega, ?_, ?_⟩
  · rw [List.length_append, List.length_append]
    omega
  · show ((before ++ w ++ after).drop before.length).take (before.length + w.length - before.length)
      = w
    rw [List.append_assoc, List.drop_left, Nat.add_sub_cancel_left, List.take_left]

/-- A character that is not the stop stands in front of the first stop. What is passed over before
the character and what is passed over behind it make up all that stands in front of the stop. -/
lemma exists_firstFrom_around {stop : Char} (hne : c ≠ stop) :
    (∃ a, i ≤ a ∧ stop ∉ cs.extract i a ∧ cs[a]? = some c ∧ ∃ k, FirstFrom stop cs (a + 1) k) ↔
      ∃ k, FirstFrom stop cs i k ∧ c ∈ cs.extract i k := by
  constructor
  · intro h
    obtain ⟨a, hia, hbefore, ha, k, hak, hk, hbehind⟩ := h
    refine ⟨k, ⟨by omega, hk, ?_⟩, mem_extract.mpr ⟨a, hia, hak, ha⟩⟩
    intro hstop
    obtain ⟨n, hin, hnk, hn⟩ := mem_extract.mp hstop
    rcases Nat.lt_trichotomy n a with hlt | rfl | hgt
    · exact hbefore (mem_extract.mpr ⟨n, hin, hlt, hn⟩)
    · rw [ha] at hn
      exact hne (Option.some.inj hn)
    · exact hbehind (mem_extract.mpr ⟨n, hgt, hnk, hn⟩)
  · intro h
    obtain ⟨k, ⟨hik, hk, hfree⟩, hc⟩ := h
    obtain ⟨a, hia, hak, ha⟩ := mem_extract.mp hc
    have hpart (m n : Nat) (hm : i ≤ m) (hn : n ≤ k) : stop ∉ cs.extract m n := by
      intro hstop
      obtain ⟨p, hmp, hpn, hp⟩ := mem_extract.mp hstop
      exact hfree (mem_extract.mpr ⟨p, by omega, by omega, hp⟩)
    exact ⟨a, hia, hpart i a (le_refl i) (by omega), ha, k, hak, hk, hpart _ k (by omega) le_rfl⟩

end Text

namespace Pattern

open Text

variable {accepts : Char → Bool} {steps steps' : List Step} {cs : List Char} {i j : Nat}

/-- The steps take the text from the place `i` up to the place `j`. -/
def Spans (steps : List Step) (cs : List Char) (i j : Nat) : Prop :=
  i ≤ j ∧ j ≤ cs.length ∧ TakesInTurn steps (cs.extract i j)

/-- Steps occur in a text if they take it from some place up to another. -/
theorem occurs_iff_spans : occurs [steps] cs = true ↔ ∃ i j, Spans steps cs i j := by
  rw [occurs_iff]
  constructor
  · intro h
    obtain ⟨w, hpart, hw⟩ := h
    obtain ⟨i, j, hij, hj, rfl⟩ := exists_extract hpart
    exact ⟨i, j, hij, hj, takes_single.mp hw⟩
  · intro h
    obtain ⟨i, j, -, -, hw⟩ := h
    exact ⟨cs.extract i j, extract_infix cs i j, takes_single.mpr hw⟩

/-- Steps one after the other share a place: where the first end, the others begin. -/
theorem spans_append :
    Spans (steps ++ steps') cs i j ↔ ∃ k, Spans steps cs i k ∧ Spans steps' cs k j := by
  constructor
  · intro h
    obtain ⟨hij, hj, hw⟩ := h
    obtain ⟨u, v, huv, hu, hv⟩ := takesInTurn_append.mp hw
    have hlength : u.length + v.length = j - i := by
      rw [← List.length_append, ← huv, length_extract hj]
    -- the place between is as far behind `i` as the first word is long
    have hcut : cs.extract i (i + u.length) ++ cs.extract (i + u.length) j = u ++ v := by
      rw [extract_append (by omega) (by omega), huv]
    have hfirst : (cs.extract i (i + u.length)).length = u.length := by
      rw [length_extract (by omega)]
      omega
    obtain ⟨hleft, hright⟩ := List.append_inj hcut hfirst
    refine ⟨i + u.length, ⟨by omega, by omega, ?_⟩, by omega, hj, ?_⟩
    · rwa [hleft]
    · rwa [hright]
  · intro h
    obtain ⟨k, ⟨hik, -, hu⟩, hkj, hj, hv⟩ := h
    refine ⟨by omega, hj, takesInTurn_append.mpr ?_⟩
    exact ⟨_, _, (extract_append hik hkj).symm, hu, hv⟩

/-! ## Single steps -/

lemma spans_literal {word : String} :
    Spans (literal word) cs i j ↔ StandsAt word cs i ∧ j = i + word.toList.length := by
  unfold Spans
  rw [takesInTurn_literal]
  constructor
  · intro h
    obtain ⟨hij, hj, hw⟩ := h
    have hlength : word.toList.length = j - i := by rw [← hw, length_extract hj]
    have hend : j = i + word.toList.length := by omega
    subst hend
    exact ⟨⟨hj, hw⟩, rfl⟩
  · intro h
    obtain ⟨⟨hj, hw⟩, rfl⟩ := h
    exact ⟨by omega, hj, hw⟩

/-- Words that are alternatives occur where one of them stands. -/
lemma occurs_map_literal {words : List String} :
    Pattern.occurs (words.map literal) cs = true ↔ ∃ word ∈ words, ∃ i, StandsAt word cs i := by
  rw [occurs_iff_exists_mem]
  simp only [List.mem_map, exists_exists_and_eq_and, occurs_iff_spans, spans_literal,
    exists_and_left, exists_eq, and_true]

lemma spans_one :
    Spans [.one accepts] cs i j ↔ (∃ c, cs[i]? = some c ∧ accepts c = true) ∧ j = i + 1 := by
  unfold Spans
  rw [takesInTurn_single]
  constructor
  · intro h
    obtain ⟨hij, hj, c, hc, hw⟩ := h
    have hlength : 1 = j - i := by rw [← length_extract hj, hw, List.length_singleton]
    have hend : j = i + 1 := by omega
    subst hend
    have hi : cs[i]? = some cs[i] := List.getElem?_eq_getElem (by omega)
    rw [extract_succ hi, List.cons.injEq] at hw
    exact ⟨⟨c, hw.1 ▸ hi, hc⟩, rfl⟩
  · intro h
    obtain ⟨⟨c, hi, hc⟩, rfl⟩ := h
    obtain ⟨hlt, -⟩ := List.getElem?_eq_some_iff.mp hi
    exact ⟨by omega, hlt, c, hc, extract_succ hi⟩

/-- One character of a class occurs where the text holds one. -/
lemma occurs_one : occurs [[.one accepts]] cs = true ↔ ∃ c ∈ cs, accepts c = true := by
  simp only [occurs_iff_spans, spans_one, exists_and_left, exists_eq, and_true,
    List.mem_iff_getElem?]
  constructor
  · intro h
    obtain ⟨i, c, hi, hc⟩ := h
    exact ⟨c, ⟨i, hi⟩, hc⟩
  · intro h
    obtain ⟨c, ⟨i, hi⟩, hc⟩ := h
    exact ⟨i, c, hi, hc⟩

/-! ## Steps one after the other

From a place on, the first steps say where the others begin. What may stand in front of a character
makes the difference, so one lemma covers a run up to a stop and a run of blanks.
-/

lemma exists_spans_append :
    (∃ j, Spans (steps ++ steps') cs i j) ↔ ∃ k, Spans steps cs i k ∧ ∃ j, Spans steps' cs k j := by
  simp only [spans_append]
  rw [exists_comm]
  simp only [exists_and_left]

lemma exists_spans_literal_append {word : String} :
    (∃ j, Spans (literal word ++ steps) cs i j) ↔
      StandsAt word cs i ∧ ∃ j, Spans steps cs (i + word.toList.length) j := by
  rw [exists_spans_append]
  simp only [spans_literal, and_assoc, exists_eq_left, exists_and_left]

lemma exists_spans_front_append {front : List Step} :
    (∃ j, Spans (front ++ ([.one accepts] ++ steps)) cs i j) ↔
      ∃ k, i ≤ k ∧ TakesInTurn front (cs.extract i k) ∧
        (∃ c, cs[k]? = some c ∧ accepts c = true) ∧ ∃ j, Spans steps cs (k + 1) j := by
  rw [exists_spans_append]
  refine exists_congr fun k => ?_
  rw [exists_spans_append]
  simp only [spans_one, and_assoc, exists_eq_left, exists_and_left]
  constructor
  · intro h
    obtain ⟨⟨hik, -, hfront⟩, hk, h⟩ := h
    exact ⟨hik, hfront, hk, h⟩
  · intro h
    obtain ⟨hik, hfront, ⟨c, hk, hc⟩, h⟩ := h
    have hlt : k < cs.length := (List.getElem?_eq_some_iff.mp hk).1
    exact ⟨⟨hik, by omega, hfront⟩, ⟨c, hk, hc⟩, h⟩

/-- A character in front of the next stop. -/
lemma exists_spans_within_append {c stop : Char} :
    (∃ j, Spans (noneOf stop ++ ([.one (· == c)] ++ steps)) cs i j) ↔
      ∃ k, i ≤ k ∧ stop ∉ cs.extract i k ∧ cs[k]? = some c ∧ ∃ j, Spans steps cs (k + 1) j := by
  rw [exists_spans_front_append]
  simp only [takesInTurn_noneOf, beq_iff_eq, exists_eq_right]

/-- Everything up to a stop and the stop itself: only the first stop can be meant, as none is passed
over. -/
lemma exists_spans_upTo_append {stop : Char} :
    (∃ j, Spans (noneOf stop ++ ([.one (· == stop)] ++ steps)) cs i j) ↔
      ∃ k, FirstFrom stop cs i k ∧ ∃ j, Spans steps cs (k + 1) j := by
  rw [exists_spans_within_append]
  refine exists_congr fun k => ?_
  unfold FirstFrom
  tauto

/-- A character behind any number of blanks. -/
lemma exists_spans_blanks_append {c : Char} :
    (∃ j, Spans (blanks ++ ([.one (· == c)] ++ steps)) cs i j) ↔
      ∃ k, BlankUpTo cs i k ∧ cs[k]? = some c ∧ ∃ j, Spans steps cs (k + 1) j := by
  unfold blanks BlankUpTo
  rw [exists_spans_front_append]
  simp only [takesInTurn_single, Step.Takes, beq_iff_eq, exists_eq_right, and_assoc]

/-! ## Steps at the end -/

/-- Steps that may take nothing have an end from every place on. -/
lemma exists_spans_of_takes_nil (hempty : TakesInTurn steps []) (hi : i ≤ cs.length) :
    ∃ j, Spans steps cs i j := by
  refine ⟨i, le_refl i, hi, ?_⟩
  rwa [show cs.extract i i = [] by simp]

lemma exists_spans_blanks_end (hempty : TakesInTurn steps []) :
    (∃ j, Spans (blanks ++ ([.one accepts] ++ steps)) cs i j) ↔ FollowedBy accepts cs i := by
  unfold blanks FollowedBy BlankUpTo
  rw [exists_spans_front_append]
  simp only [takesInTurn_single, Step.Takes]
  refine exists_congr fun k => ?_
  constructor
  · intro h
    obtain ⟨hik, hblank, ⟨c, hk, hc⟩, -⟩ := h
    exact ⟨c, ⟨hik, hblank⟩, hk, hc⟩
  · intro h
    obtain ⟨c, ⟨hik, hblank⟩, hk, hc⟩ := h
    have hlt : k < cs.length := (List.getElem?_eq_some_iff.mp hk).1
    exact ⟨hik, hblank, ⟨c, hk, hc⟩, exists_spans_of_takes_nil hempty hlt⟩

lemma exists_spans_upTo_end {stop : Char} (hempty : TakesInTurn steps []) :
    (∃ j, Spans (noneOf stop ++ ([.one (· == stop)] ++ steps)) cs i j) ↔
      ∃ k, FirstFrom stop cs i k := by
  rw [exists_spans_upTo_append]
  refine exists_congr fun k => and_iff_left_of_imp fun h => ?_
  exact exists_spans_of_takes_nil hempty (List.getElem?_eq_some_iff.mp h.2.1).1

end Pattern

end SolidityAudit
