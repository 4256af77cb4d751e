import SolidityAudit.Proofs.Text.Count

/-!
# Patterns and separators

If no step of a pattern takes a character, then that character separates: in front of it a pattern
has the same ways, in the same order of preference, as in front of the end of the text
(`Pattern.ends_append`). So the search never crosses it, and the count of two texts with the
character between them is the sum of their counts (`Pattern.count_append`).
-/

namespace SolidityAudit

variable {sep : Char}

namespace Step

/-- The step never takes the character. -/
def avoids (sep : Char) : Step → Bool
  | one accepts | many accepts | few accepts => !accepts sep
  | maybe literal => !literal.contains sep

lemma shortestFirst_append {accepts : Char → Bool} (h : accepts sep = false) (cs t : List Char) :
    shortestFirst accepts (cs ++ sep :: t) = (shortestFirst accepts cs).map (· ++ sep :: t) := by
  induction cs with
  | nil =>
    show (sep :: t) :: (if accepts sep = true then _ else []) = _
    rw [if_neg (by simp [h])]
    rfl
  | cons c cs ih =>
    rw [List.cons_append, shortestFirst, shortestFirst, List.map_cons, ih]
    by_cases hc : accepts c = true
    · rw [if_pos hc, if_pos hc]
      rfl
    · rw [if_neg hc, if_neg hc]
      rfl

lemma afterLiteral_append {literal : List Char} (h : sep ∉ literal) (cs t : List Char) :
    afterLiteral literal (cs ++ sep :: t) = (afterLiteral literal cs).map (· ++ sep :: t) := by
  induction literal generalizing cs with
  | nil => rfl
  | cons l ls ih =>
    rw [List.mem_cons, not_or] at h
    cases cs with
    | nil =>
      show (if l = sep then _ else none) = _
      rw [if_neg (Ne.symm h.1)]
      rfl
    | cons c cs =>
      rw [List.cons_append, afterLiteral, afterLiteral, ih h.2]
      split
      · rfl
      · rfl

/-- In front of the separator a step has the ways that it has in front of the end. -/
lemma ends_append {step : Step} (h : step.avoids sep = true) (cs t : List Char) :
    step.ends (cs ++ sep :: t) = (step.ends cs).map (· ++ sep :: t) := by
  cases step with
  | one accepts =>
    have hsep : accepts sep = false := by simpa [avoids] using h
    cases cs with
    | nil =>
      show (if accepts sep = true then _ else []) = _
      rw [if_neg (by simp [hsep])]
      rfl
    | cons c cs =>
      rw [List.cons_append, ends, ends]
      split
      · rfl
      · rfl
  | many accepts =>
    have hsep : accepts sep = false := by simpa [avoids] using h
    rw [ends, ends, longestFirst, longestFirst, shortestFirst_append hsep, List.map_reverse]
  | few accepts =>
    have hsep : accepts sep = false := by simpa [avoids] using h
    exact shortestFirst_append hsep cs t
  | maybe literal =>
    have hsep : sep ∉ literal := by simpa [avoids] using h
    rw [ends, ends, afterLiteral_append hsep, List.map_append]
    cases afterLiteral literal cs with
    | none => rfl
    | some rest => rfl

end Step

namespace Pattern

variable {p : Pattern}

/-- No step of the pattern ever takes the character. -/
def avoids (p : Pattern) (sep : Char) : Bool :=
  p.all fun steps => steps.all (Step.avoids sep)

lemma endsOfSteps_append {steps : List Step} (h : steps.all (Step.avoids sep) = true)
    (cs t : List Char) :
    endsOfSteps steps (cs ++ sep :: t) = (endsOfSteps steps cs).map (· ++ sep :: t) := by
  induction steps generalizing cs with
  | nil => rfl
  | cons step steps ih =>
    rw [List.all_cons, Bool.and_eq_true] at h
    rw [endsOfSteps, endsOfSteps, Step.ends_append h.1, List.flatMap_map, List.map_flatMap]
    congr 1
    funext middle
    exact ih h.2 middle

/-- In front of the separator a pattern has the ways that it has in front of the end, in the same
order. -/
theorem ends_append (h : p.avoids sep = true) (cs t : List Char) :
    p.ends (cs ++ sep :: t) = (p.ends cs).map (· ++ sep :: t) := by
  rw [ends, ends, List.map_flatMap]
  refine List.flatMap_congr fun steps hsteps => ?_
  exact endsOfSteps_append (List.all_eq_true.mp h steps hsteps) cs t

lemma rest?_append (h : p.avoids sep = true) (cs t : List Char) :
    p.rest? (cs ++ sep :: t) = (p.rest? cs).map (· ++ sep :: t) := by
  rw [rest?, rest?, ends_append h, List.head?_map]

/-- The count of two texts with a separator between them is the sum of the counts. -/
theorem count_append (hempty : p.occurs [] = false) (h : p.avoids sep = true) (cs t : List Char) :
    p.count (cs ++ sep :: t) = p.count cs + p.count t := by
  have hnil : ¬ p.Takes [] := by
    intro htakes
    rw [occurs_iff.mpr ⟨[], List.nil_infix, htakes⟩] at hempty
    cases hempty
  -- by the length of the first text, as the count goes on behind a whole word
  induction hlength : cs.length using Nat.strong_induction_on generalizing cs with
  | _ n ih =>
    have hseam := rest?_append h cs t
    cases hrest : p.rest? cs with
    | some rest =>
      rw [hrest, Option.map_some] at hseam
      obtain ⟨w, hw, hword, hcount⟩ := count_of_rest hnil hrest
      obtain ⟨-, -, -, hcount'⟩ := count_of_rest hnil hseam
      have hpos : w ≠ [] := fun hempty => hnil (hempty ▸ hword)
      have hshort : rest.length < n := by
        have hpos' := List.length_pos_iff.mpr hpos
        rw [← hlength, hw, List.length_append]
        omega
      rw [hcount', hcount, ih rest.length hshort rest rfl, Nat.add_assoc]
    | none =>
      rw [hrest, Option.map_none] at hseam
      cases cs with
      | nil =>
        have hzero : p.count [] = 0 := rfl
        rw [hzero, Nat.zero_add]
        exact count_cons_of_none hseam
      | cons c cs =>
        rw [List.length_cons] at hlength
        rw [List.cons_append] at hseam ⊢
        rw [count_cons_of_none hrest, count_cons_of_none hseam]
        exact ih cs.length (by omega) cs rfl

end Pattern

end SolidityAudit
