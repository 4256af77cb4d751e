import Mathlib.Data.List.DropRight
import Mathlib.Data.Nat.Count
import SolidityAudit.Proofs.Text.Pattern

/-!
# Counting occurrences

A count takes the first occurrence that it meets and goes on behind it, so in general it passes over
occurrences that begin inside of others. If each word of a pattern ends with a stop and holds none
before (`Pattern.StopsAt`), then of two occurrences with different ends one stands behind the other.
Nothing is passed over, and the count is the number of places at which a word ends
(`Pattern.count_eq_count_ends`).
-/

namespace SolidityAudit

namespace Pattern

variable {p : Pattern} {stop c : Char} {cs rest t w x : List Char} {i : Nat}

/-- Every word of the pattern ends with the stop and holds it nowhere else. -/
def StopsAt (p : Pattern) (stop : Char) : Prop :=
  ∀ w, p.Takes w → ∃ u, w = u ++ [stop] ∧ stop ∉ u

/-- A word of the pattern ends with the character at the place. -/
def EndsAt (p : Pattern) (cs : List Char) (i : Nat) : Prop :=
  ∃ w, p.Takes w ∧ w <:+ cs.take (i + 1)

/-! ## One occurrence after the other -/

lemma countAfter_eq_count (skip : Nat) : p.countAfter skip cs = p.count (cs.drop skip) := by
  induction cs generalizing skip with
  | nil => cases skip <;> rfl
  | cons c cs ih =>
    cases skip with
    | zero => rfl
    | succ skip => exact ih skip

/-- Where no word begins, the count goes on behind the character. -/
lemma count_cons_of_none (h : p.rest? (c :: cs) = none) : p.count (c :: cs) = p.count cs := by
  rw [count, countAfter, h]
  rfl

/-- Where a word begins, it counts once, and the count goes on behind a word. -/
lemma count_of_rest (hempty : ¬ p.Takes []) (h : p.rest? cs = some rest) :
    ∃ w, cs = w ++ rest ∧ p.Takes w ∧ p.count cs = 1 + p.count rest := by
  obtain ⟨w, hcs, hw⟩ := mem_ends.mp (List.mem_of_head? h)
  refine ⟨w, hcs, hw, ?_⟩
  cases w with
  | nil => exact absurd hw hempty
  | cons c w =>
    subst hcs
    show p.countAfter 0 (c :: (w ++ rest)) = _
    rw [List.cons_append] at h
    rw [countAfter, h]
    show 1 + p.countAfter _ _ = _
    rw [countAfter_eq_count, List.length_append, Nat.add_sub_cancel, List.drop_left]

/-! ## Where words end -/

lemma StopsAt.not_takes_nil (hstop : p.StopsAt stop) : ¬ p.Takes [] := by
  intro h
  obtain ⟨u, hu, -⟩ := hstop [] h
  simp at hu

/-- A word that ends behind a stop begins behind it. -/
lemma StopsAt.suffix_iff (hstop : p.StopsAt stop) (hw : p.Takes w) (ht : t ≠ []) :
    w <:+ x ++ stop :: t ↔ w <:+ t := by
  constructor
  · intro h
    obtain ⟨u, rfl, hu⟩ := hstop w hw
    -- a longer word would hold the stop before its end
    have hlong : ¬ stop :: t <:+ u ++ [stop] := by
      intro hsuffix
      obtain ⟨y, hy⟩ := hsuffix
      rw [← List.dropLast_append_getLast ht, ← List.cons_append, ← List.append_assoc] at hy
      obtain ⟨rfl, -⟩ := List.append_inj' hy rfl
      exact hu (by simp)
    rcases List.suffix_or_suffix_of_suffix h (List.suffix_append x (stop :: t)) with hshort | h
    · rcases List.suffix_cons_iff.mp hshort with heq | hshort
      · exact absurd (heq ▸ List.suffix_rfl) hlong
      · exact hshort
    · exact absurd h hlong
  · intro h
    exact h.trans ((List.suffix_cons stop t).trans (List.suffix_append x _))

/-- No word ends in front of the stop. -/
lemma StopsAt.not_endsAt (hstop : p.StopsAt stop) (hfree : stop ∉ cs.take (i + 1)) :
    ¬ p.EndsAt cs i := by
  intro h
  obtain ⟨w, hw, hsuffix⟩ := h
  obtain ⟨u, rfl, -⟩ := hstop w hw
  exact hfree (hsuffix.subset (by simp))

/-- Behind a word that ends with the stop, words end where they end in the rest. -/
lemma StopsAt.endsAt_append (hstop : p.StopsAt stop) (x : List Char) (hi : i < rest.length) :
    p.EndsAt (x ++ [stop] ++ rest) (x.length + 1 + i) ↔ p.EndsAt rest i := by
  have htake : (x ++ [stop] ++ rest).take (x.length + 1 + i + 1) =
      x ++ stop :: rest.take (i + 1) := by
    rw [show x.length + 1 + i + 1 = (x ++ [stop]).length + (i + 1) by simp; omega,
      List.take_length_add_append, List.append_assoc]
    rfl
  have hne : rest.take (i + 1) ≠ [] := by
    intro hnil
    have hlength := congrArg List.length hnil
    rw [List.length_take, List.length_nil] at hlength
    omega
  unfold EndsAt
  rw [htake]
  exact exists_congr fun w => and_congr_right fun hw => hstop.suffix_iff hw hne

/-- Where no word begins, words end where they end behind the character. -/
lemma endsAt_cons (hnone : ∀ w, w <+: c :: cs → ¬ p.Takes w) :
    p.EndsAt (c :: cs) (i + 1) ↔ p.EndsAt cs i := by
  unfold EndsAt
  rw [List.take_succ_cons]
  refine exists_congr fun w => and_congr_right fun hw => ?_
  rw [List.suffix_cons_iff]
  refine or_iff_right fun heq => hnone w ?_ hw
  exact heq ▸ List.cons_prefix_cons.mpr ⟨rfl, List.take_prefix _ _⟩

/-- Where no word begins, none ends with the first character. -/
lemma StopsAt.not_endsAt_zero (hstop : p.StopsAt stop) (hnone : ∀ w, w <+: c :: cs → ¬ p.Takes w) :
    ¬ p.EndsAt (c :: cs) 0 := by
  intro h
  obtain ⟨w, hw, hsuffix⟩ := h
  rcases List.suffix_cons_iff.mp hsuffix with rfl | hnil
  · exact hnone _ (List.cons_prefix_cons.mpr ⟨rfl, List.nil_prefix⟩) hw
  · exact hstop.not_takes_nil (List.suffix_nil.mp hnil ▸ hw)

/-- The count of a pattern whose words end with a stop is the number of places at which a word
ends. -/
theorem count_eq_count_ends (hstop : p.StopsAt stop) (ends : Nat → Prop) [DecidablePred ends]
    (hends : ∀ i < cs.length, ends i ↔ p.EndsAt cs i) : p.count cs = Nat.count ends cs.length := by
  -- by the length of the text, as the count goes on behind a whole word
  induction hlength : cs.length using Nat.strong_induction_on generalizing cs ends with
  | _ n ih =>
    cases hrest : p.rest? cs with
    | some rest =>
      obtain ⟨w, rfl, hw, hcount⟩ := count_of_rest hstop.not_takes_nil hrest
      obtain ⟨u, rfl, hu⟩ := hstop w hw
      have hn : n = u.length + 1 + rest.length := by
        rw [← hlength, List.length_append, List.length_append, List.length_singleton]
      have hbefore : Nat.count ends u.length = 0 := by
        refine Nat.count_of_forall_not fun i hi hends' => ?_
        refine hstop.not_endsAt ?_ ((hends i (by omega)).mp hends')
        rw [List.append_assoc, List.take_append_of_le_length (by omega)]
        exact fun hmem => hu (List.mem_of_mem_take hmem)
      have hhere : ends u.length := by
        refine (hends u.length (by omega)).mpr ⟨u ++ [stop], hw, ?_⟩
        rw [List.take_left' (by simp)]
      have hbehind : p.count rest = Nat.count (fun i => ends (u.length + 1 + i)) rest.length := by
        refine ih rest.length (by omega) _ (fun i hi => ?_) rfl
        rw [hends _ (by omega), hstop.endsAt_append u hi]
      rw [hcount, hn, Nat.count_add, Nat.count_succ, hbefore, if_pos hhere, hbehind]
    | none =>
      have hnone : ∀ w, w <+: cs → ¬ p.Takes w := by
        intro w hprefix hw
        have hsome := isSome_rest?.mpr ⟨w, hprefix, hw⟩
        rw [hrest] at hsome
        cases hsome
      cases cs with
      | nil =>
        rw [← hlength]
        rfl
      | cons c cs =>
        have hfirst : ¬ ends 0 := by
          rw [hends 0 (by simp)]
          exact hstop.not_endsAt_zero hnone
        have hbehind : p.count cs = Nat.count (fun i => ends (i + 1)) cs.length := by
          rw [List.length_cons] at hlength hends
          refine ih cs.length (by omega) _ (fun i hi => ?_) rfl
          rw [hends _ (by omega), endsAt_cons hnone]
        rw [count_cons_of_none hrest, hbehind, ← hlength, List.length_cons, Nat.count_succ',
          if_neg hfirst, Nat.add_zero]

/-! ## Words in front of a stop -/

section WordsBefore

variable {gap : List Step} {words : List String}

/-- One of the words, what the gap takes, and the stop. -/
def wordsBefore (stop : Char) (gap : List Step) (words : List String) : Pattern :=
  words.map fun word => literal word ++ (gap ++ [.one (· == stop)])

lemma takes_wordsBefore :
    (wordsBefore stop gap words).Takes w ↔
      ∃ word ∈ words, ∃ b, TakesInTurn gap b ∧ w = word.toList ++ b ++ [stop] := by
  unfold Takes wordsBefore
  simp only [List.mem_map, exists_exists_and_eq_and]
  refine exists_congr fun word => and_congr_right fun _ => ?_
  rw [takesInTurn_append]
  constructor
  · intro h
    obtain ⟨u, v, rfl, hu, hv⟩ := h
    obtain ⟨b, d, rfl, hb, hd⟩ := takesInTurn_append.mp hv
    obtain ⟨c, hc, rfl⟩ := takesInTurn_single.mp hd
    rw [takesInTurn_literal.mp hu, beq_iff_eq.mp hc, ← List.append_assoc]
    exact ⟨b, hb, rfl⟩
  · intro h
    obtain ⟨b, hb, rfl⟩ := h
    have hstop : TakesInTurn [.one (· == stop)] [stop] :=
      takesInTurn_single.mpr ⟨stop, beq_self_eq_true stop, rfl⟩
    refine ⟨word.toList, b ++ [stop], List.append_assoc _ _ _, takesInTurn_literal.mpr rfl, ?_⟩
    exact takesInTurn_append.mpr ⟨b, [stop], rfl, hb, hstop⟩

/-- Words end with the stop, if neither they nor the gap hold it. -/
lemma stopsAt_wordsBefore (hgap : ∀ b, TakesInTurn gap b → stop ∉ b)
    (hwords : ∀ word ∈ words, stop ∉ word.toList) : (wordsBefore stop gap words).StopsAt stop := by
  intro w hw
  obtain ⟨word, hword, b, hb, rfl⟩ := takes_wordsBefore.mp hw
  refine ⟨word.toList ++ b, rfl, fun hmem => ?_⟩
  rcases List.mem_append.mp hmem with hmem | hmem
  · exact hwords word hword hmem
  · exact hgap b hb hmem

/-- Words end where the stop stands, with one of them and a gap right in front. -/
lemma endsAt_wordsBefore (hi : i < cs.length) :
    (wordsBefore stop gap words).EndsAt cs i ↔ cs[i]? = some stop ∧
      ∃ word ∈ words, ∃ b, TakesInTurn gap b ∧ word.toList ++ b <:+ cs.take i := by
  unfold EndsAt
  rw [List.take_add_one, List.getElem?_eq_getElem hi, Option.toList_some]
  simp only [takes_wordsBefore, List.suffix_concat_iff]
  constructor
  · intro h
    obtain ⟨w, ⟨word, hword, b, hb, rfl⟩, hnil | ⟨t, ht, hsuffix⟩⟩ := h
    · simp at hnil
    · obtain ⟨rfl, hstop⟩ := List.append_inj' ht rfl
      rw [List.singleton_inj.mp hstop]
      exact ⟨rfl, word, hword, b, hb, hsuffix⟩
  · intro h
    obtain ⟨hstop, word, hword, b, hb, hsuffix⟩ := h
    rw [Option.some.inj hstop]
    exact ⟨_, ⟨word, hword, b, hb, rfl⟩, .inr ⟨_, rfl, hsuffix⟩⟩

/-- Words in front of a stop are counted where the stop stands behind one of them. -/
theorem count_wordsBefore (hgap : ∀ b, TakesInTurn gap b → stop ∉ b)
    (hwords : ∀ word ∈ words, stop ∉ word.toList) (ends : Nat → Prop) [DecidablePred ends]
    (hends : ∀ i, ends i ↔ cs[i]? = some stop ∧
      ∃ word ∈ words, ∃ b, TakesInTurn gap b ∧ word.toList ++ b <:+ cs.take i) :
    (wordsBefore stop gap words).count cs = Nat.count ends cs.length := by
  refine count_eq_count_ends (stopsAt_wordsBefore hgap hwords) ends fun i hi => ?_
  rw [hends, endsAt_wordsBefore hi]

end WordsBefore

end Pattern

namespace Text

variable {drop : Char → Bool} {c : Char} {v w t : List Char}

/-- A word that begins with a character to be kept stands at the front of what is left, if it stands
behind a run of characters that are dropped. -/
lemma prefix_dropWhile_iff (hc : drop c = false) :
    c :: v <+: t.dropWhile drop ↔ ∃ b, (∀ d ∈ b, drop d = true) ∧ b ++ c :: v <+: t := by
  induction t with
  | nil => simp
  | cons d t ih =>
    rw [List.dropWhile_cons]
    by_cases hd : drop d = true
    · rw [if_pos hd, ih]
      constructor
      · intro h
        obtain ⟨b, hb, hprefix⟩ := h
        exact ⟨d :: b, List.forall_mem_cons.mpr ⟨hd, hb⟩, List.cons_prefix_cons.mpr ⟨rfl, hprefix⟩⟩
      · intro h
        obtain ⟨b, hb, hprefix⟩ := h
        cases b with
        | nil =>
          obtain ⟨rfl, -⟩ := List.cons_prefix_cons.mp hprefix
          rw [hc] at hd
          cases hd
        | cons e b =>
          obtain ⟨-, hprefix⟩ := List.cons_prefix_cons.mp hprefix
          exact ⟨b, (List.forall_mem_cons.mp hb).2, hprefix⟩
    · rw [if_neg hd]
      constructor
      · intro h
        exact ⟨[], by simp, h⟩
      · intro h
        obtain ⟨b, hb, hprefix⟩ := h
        cases b with
        | nil => exact hprefix
        | cons e b =>
          obtain ⟨rfl, -⟩ := List.cons_prefix_cons.mp hprefix
          exact absurd (hb e List.mem_cons_self) hd

/-- A word of characters to be kept ends a stripped text, if nothing but characters that are dropped
stands behind it in the text. -/
theorem suffix_stripRight_iff (hne : w ≠ []) (hkept : ∀ c ∈ w, drop c = false) :
    w <:+ stripRight drop t ↔ ∃ b, (∀ d ∈ b, drop d = true) ∧ w ++ b <:+ t := by
  obtain ⟨v, c, rfl⟩ : ∃ v c, w = v ++ [c] := ⟨_, _, (List.dropLast_append_getLast hne).symm⟩
  rw [stripRight, ← List.reverse_prefix, List.reverse_reverse, List.reverse_concat,
    prefix_dropWhile_iff (hkept c (by simp))]
  constructor
  · intro h
    obtain ⟨b, hb, hprefix⟩ := h
    refine ⟨b.reverse, fun d hd => hb d (List.mem_reverse.mp hd), List.reverse_prefix.mp ?_⟩
    simpa using hprefix
  · intro h
    obtain ⟨b, hb, hsuffix⟩ := h
    refine ⟨b.reverse, fun d hd => hb d (List.mem_reverse.mp hd), ?_⟩
    simpa using List.reverse_prefix.mpr hsuffix

/-- What is stripped off the right end is all that is dropped there. -/
lemma stripRight_append {drop : Char → Bool} (hw : ∀ c ∈ w, drop c = true)
    (ht : ∀ c ∈ t.getLast?, drop c = false) : stripRight drop (t ++ w) = t := by
  rw [stripRight, List.reverse_append, List.dropWhile_append_of_pos (by simpa using hw)]
  have hkept : t.reverse.dropWhile drop = t.reverse := by
    cases hreverse : t.reverse with
    | nil => rfl
    | cons c v =>
      rw [← List.head?_reverse, hreverse] at ht
      rw [List.dropWhile_cons_of_neg (by simp [ht c rfl])]
  rw [hkept, List.reverse_reverse]

lemma exists_stripRight (drop : Char → Bool) (t : List Char) :
    ∃ w, t = stripRight drop t ++ w ∧ ∀ c ∈ w, drop c = true :=
  ⟨t.rtakeWhile drop, List.rdropWhile_append_rtakeWhile.symm, fun _ => List.mem_rtakeWhile_imp⟩

end Text

end SolidityAudit
