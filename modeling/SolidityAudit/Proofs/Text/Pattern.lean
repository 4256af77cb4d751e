import Mathlib.Data.List.Infix
import SolidityAudit.Text.Pattern

/-!
# The words of a pattern

A pattern looks at nothing but the characters that it takes, so it stands for a set of words
(`Pattern.Takes`). What is left of a text after the pattern is what follows one of its words
(`Pattern.mem_ends`), and the pattern occurs in a text if and only if one of its words stands
somewhere in it (`Pattern.occurs_iff`). The order of preference decides which word is taken, and
never whether there is one.
-/

namespace SolidityAudit

/-! ## The words of a step -/

namespace Step

/-- The words that a step takes. -/
def Takes : Step → List Char → Prop
  | one accepts, w => ∃ c, accepts c = true ∧ w = [c]
  | many accepts, w | few accepts, w => ∀ c ∈ w, accepts c = true
  | maybe literal, w => w = literal ∨ w = []

lemma mem_shortestFirst {accepts : Char → Bool} {cs rest : List Char} :
    rest ∈ shortestFirst accepts cs ↔ ∃ w, cs = w ++ rest ∧ ∀ c ∈ w, accepts c = true := by
  induction cs with
  | nil =>
    rw [shortestFirst, List.mem_singleton]
    constructor
    · rintro rfl
      exact ⟨[], rfl, by simp⟩
    · rintro ⟨w, hw, -⟩
      exact (List.append_eq_nil_iff.mp hw.symm).2
  | cons c cs ih =>
    rw [shortestFirst, List.mem_cons]
    constructor
    · rintro (rfl | hrest)
      · exact ⟨[], rfl, by simp⟩
      · by_cases hc : accepts c = true
        · rw [if_pos hc] at hrest
          obtain ⟨w, rfl, hw⟩ := ih.mp hrest
          refine ⟨c :: w, rfl, ?_⟩
          intro d hd
          rcases List.mem_cons.mp hd with rfl | hd
          · exact hc
          · exact hw d hd
        · rw [if_neg hc] at hrest
          simp at hrest
    · rintro ⟨w, hcs, hw⟩
      cases w with
      | nil => exact .inl hcs.symm
      | cons d w =>
        obtain ⟨rfl, htail⟩ := List.cons.inj hcs
        right
        rw [if_pos (hw c List.mem_cons_self)]
        exact ih.mpr ⟨w, htail, fun d hd => hw d (List.mem_cons_of_mem c hd)⟩

/-- The longest run is what a greedy step prefers. -/
lemma getLast?_shortestFirst (accepts : Char → Bool) (cs : List Char) :
    (shortestFirst accepts cs).getLast? = some (cs.dropWhile accepts) := by
  induction cs with
  | nil => rfl
  | cons c cs ih =>
    rw [shortestFirst, List.dropWhile_cons]
    by_cases hc : accepts c = true
    · rw [if_pos hc, if_pos hc, List.getLast?_cons, ih]
      rfl
    · rw [if_neg hc, if_neg hc]
      rfl

lemma afterLiteral_eq_some {literal cs rest : List Char} :
    afterLiteral literal cs = some rest ↔ cs = literal ++ rest := by
  induction literal generalizing cs with
  | nil => rw [afterLiteral, Option.some_inj, List.nil_append]
  | cons l ls ih =>
    cases cs with
    | nil => simp [afterLiteral]
    | cons c cs =>
      rw [afterLiteral, List.cons_append, List.cons.injEq, eq_comm (a := c)]
      by_cases hc : l = c
      · rw [if_pos hc, ih]
        simp [hc]
      · simp [hc]

/-- What is left after a step is what follows one of its words. -/
lemma mem_ends {step : Step} {cs rest : List Char} :
    rest ∈ step.ends cs ↔ ∃ w, cs = w ++ rest ∧ step.Takes w := by
  cases step with
  | one accepts =>
    cases cs with
    | nil =>
      constructor
      · intro h
        simp [ends] at h
      · rintro ⟨w, hw, c, -, rfl⟩
        simp at hw
    | cons c cs =>
      rw [ends]
      constructor
      · intro h
        by_cases hc : accepts c = true
        · rw [if_pos hc, List.mem_singleton] at h
          subst h
          exact ⟨[c], rfl, c, hc, rfl⟩
        · simp [hc] at h
      · rintro ⟨w, hw, d, hd, rfl⟩
        obtain ⟨rfl, rfl⟩ := List.cons.inj hw
        rw [if_pos hd]
        exact List.mem_singleton_self _
  | many accepts =>
    rw [ends, longestFirst, List.mem_reverse]
    exact mem_shortestFirst
  | few accepts => exact mem_shortestFirst
  | maybe literal =>
    rw [ends, List.mem_append, Option.mem_toList, List.mem_singleton]
    constructor
    · rintro (h | rfl)
      · exact ⟨literal, afterLiteral_eq_some.mp h, .inl rfl⟩
      · exact ⟨[], rfl, .inr rfl⟩
    · rintro ⟨w, hw, rfl | rfl⟩
      · exact .inl (afterLiteral_eq_some.mpr hw)
      · exact .inr hw.symm

end Step

/-! ## The words of a pattern -/

namespace Pattern

/-- The words that steps take one after the other. -/
def TakesInTurn : List Step → List Char → Prop
  | [], w => w = []
  | step :: steps, w => ∃ u v, w = u ++ v ∧ step.Takes u ∧ TakesInTurn steps v

/-- The words of a pattern. -/
def Takes (p : Pattern) (w : List Char) : Prop := ∃ steps ∈ p, TakesInTurn steps w

lemma takesInTurn_append {steps steps' : List Step} {w : List Char} :
    TakesInTurn (steps ++ steps') w ↔
      ∃ u v, w = u ++ v ∧ TakesInTurn steps u ∧ TakesInTurn steps' v := by
  induction steps generalizing w with
  | nil =>
    constructor
    · intro h
      exact ⟨[], w, rfl, rfl, h⟩
    · rintro ⟨u, v, rfl, rfl, h⟩
      exact h
  | cons step steps ih =>
    rw [List.cons_append, TakesInTurn]
    constructor
    · rintro ⟨u, v, rfl, hu, hv⟩
      obtain ⟨x, y, rfl, hx, hy⟩ := ih.mp hv
      exact ⟨u ++ x, y, (List.append_assoc u x y).symm, ⟨u, x, rfl, hu, hx⟩, hy⟩
    · rintro ⟨u, v, rfl, ⟨x, y, rfl, hx, hy⟩, hv⟩
      exact ⟨x, y ++ v, List.append_assoc x y v, hx, ih.mpr ⟨y, v, rfl, hy, hv⟩⟩

/-- The characters of a literal take the literal. -/
lemma takesInTurn_literal {s : String} {w : List Char} :
    TakesInTurn (literal s) w ↔ w = s.toList := by
  unfold literal
  induction s.toList generalizing w with
  | nil => rfl
  | cons l ls ih =>
    rw [List.map_cons, TakesInTurn]
    constructor
    · rintro ⟨u, v, rfl, ⟨c, hc, rfl⟩, hv⟩
      rw [ih.mp hv, beq_iff_eq.mp hc]
      rfl
    · rintro rfl
      exact ⟨[l], ls, rfl, ⟨l, beq_self_eq_true l, rfl⟩, ih.mpr rfl⟩

/-- One step takes its words. -/
lemma takesInTurn_single {step : Step} {w : List Char} :
    TakesInTurn [step] w ↔ step.Takes w := by
  constructor
  · rintro ⟨u, v, rfl, hu, rfl⟩
    rw [List.append_nil]
    exact hu
  · intro h
    exact ⟨w, [], (List.append_nil w).symm, h, rfl⟩

/-- Any number of characters other than the given one takes the words without it. -/
lemma takesInTurn_noneOf {stop : Char} {w : List Char} :
    TakesInTurn (noneOf stop) w ↔ stop ∉ w := by
  unfold noneOf
  rw [takesInTurn_single, Step.Takes]
  simp only [bne_iff_ne]
  exact List.forall_mem_ne'

/-- A pattern without alternatives takes the words of its steps. -/
lemma takes_single {steps : List Step} {w : List Char} :
    Takes [steps] w ↔ TakesInTurn steps w := by
  rw [Takes, List.exists_mem_cons_iff]
  simp

/-- One character of a class and then any number takes the words of the class, the empty one
apart. -/
lemma takesInTurn_some {accepts : Char → Bool} {w : List Char} :
    TakesInTurn [.one accepts, .many accepts] w ↔ w ≠ [] ∧ ∀ c ∈ w, accepts c = true := by
  constructor
  · intro h
    obtain ⟨u, v, rfl, ⟨c, hc, rfl⟩, hv⟩ := h
    have hmany : ∀ d ∈ v, accepts d = true := takesInTurn_single.mp hv
    refine ⟨List.cons_ne_nil c v, ?_⟩
    intro d hd
    rcases List.mem_cons.mp hd with rfl | hd
    · exact hc
    · exact hmany d hd
  · intro h
    obtain ⟨hne, hw⟩ := h
    obtain ⟨c, v, rfl⟩ := List.exists_cons_of_ne_nil hne
    have hmany : TakesInTurn [.many accepts] v :=
      takesInTurn_single.mpr fun d hd => hw d (List.mem_cons_of_mem c hd)
    exact ⟨[c], v, rfl, ⟨c, hw c List.mem_cons_self, rfl⟩, hmany⟩

lemma mem_endsOfSteps {steps : List Step} {cs rest : List Char} :
    rest ∈ endsOfSteps steps cs ↔ ∃ w, cs = w ++ rest ∧ TakesInTurn steps w := by
  induction steps generalizing cs with
  | nil =>
    rw [endsOfSteps, List.mem_singleton]
    constructor
    · rintro rfl
      exact ⟨[], rfl, rfl⟩
    · rintro ⟨w, rfl, rfl⟩
      rfl
  | cons step steps ih =>
    rw [endsOfSteps, List.mem_flatMap]
    constructor
    · rintro ⟨middle, hmiddle, hrest⟩
      obtain ⟨u, rfl, hu⟩ := Step.mem_ends.mp hmiddle
      obtain ⟨v, rfl, hv⟩ := ih.mp hrest
      exact ⟨u ++ v, (List.append_assoc u v rest).symm, u, v, rfl, hu, hv⟩
    · rintro ⟨w, rfl, u, v, rfl, hu, hv⟩
      refine ⟨v ++ rest, ?_, ih.mpr ⟨v, rfl, hv⟩⟩
      exact Step.mem_ends.mpr ⟨u, List.append_assoc u v rest, hu⟩

lemma endsOfSteps_steps_append (steps steps' : List Step) (cs : List Char) :
    endsOfSteps (steps ++ steps') cs = (endsOfSteps steps cs).flatMap (endsOfSteps steps') := by
  induction steps generalizing cs with
  | nil => simp [endsOfSteps]
  | cons step steps ih =>
    rw [List.cons_append, endsOfSteps, endsOfSteps, List.flatMap_assoc]
    exact List.flatMap_congr fun middle _ => ih middle

/-- A greedy step at the end takes all that it can. -/
lemma not_accepts_of_head?_endsOfSteps {steps : List Step} {accepts : Char → Bool}
    {cs rest : List Char} (h : (endsOfSteps (steps ++ [.many accepts]) cs).head? = some rest) :
    ∀ c ∈ rest.head?, accepts c = false := by
  have hgreedy (middle : List Char) :
      (endsOfSteps [.many accepts] middle).head? = some (middle.dropWhile accepts) := by
    have hends : endsOfSteps [.many accepts] middle = (Step.many accepts).ends middle := by
      simp [endsOfSteps]
    rw [hends, Step.ends, Step.longestFirst, List.head?_reverse, Step.getLast?_shortestFirst]
  rw [endsOfSteps_steps_append] at h
  cases hmiddle : endsOfSteps steps cs with
  | nil =>
    rw [hmiddle] at h
    cases h
  | cons middle later =>
    rw [hmiddle, List.flatMap_cons, List.head?_append, hgreedy, Option.some_or] at h
    obtain rfl := Option.some.inj h
    intro c hc
    have hnot := List.head?_dropWhile_not accepts middle
    rw [Option.mem_def.mp hc] at hnot
    simpa using hnot

/-- What is left after a pattern is what follows one of its words. -/
theorem mem_ends {p : Pattern} {cs rest : List Char} :
    rest ∈ p.ends cs ↔ ∃ w, cs = w ++ rest ∧ p.Takes w := by
  rw [ends, List.mem_flatMap]
  constructor
  · rintro ⟨steps, hsteps, hrest⟩
    obtain ⟨w, hw, htakes⟩ := mem_endsOfSteps.mp hrest
    exact ⟨w, hw, steps, hsteps, htakes⟩
  · rintro ⟨w, hw, steps, hsteps, htakes⟩
    exact ⟨steps, hsteps, mem_endsOfSteps.mpr ⟨w, hw, htakes⟩⟩

/-- A text starts with a word of the pattern if something is left after the pattern. -/
lemma isSome_rest? {p : Pattern} {cs : List Char} :
    (p.rest? cs).isSome = true ↔ ∃ w, w <+: cs ∧ p.Takes w := by
  rw [rest?, List.isSome_head?]
  constructor
  · intro h
    obtain ⟨rest, hrest⟩ := List.exists_mem_of_ne_nil _ h
    obtain ⟨w, rfl, hw⟩ := mem_ends.mp hrest
    exact ⟨w, List.prefix_append w rest, hw⟩
  · rintro ⟨w, ⟨rest, rfl⟩, hw⟩
    exact List.ne_nil_of_mem (mem_ends.mpr ⟨w, rfl, hw⟩)

/-- A pattern occurs in a text if one of its words stands in it. -/
theorem occurs_iff {p : Pattern} {cs : List Char} :
    p.occurs cs = true ↔ ∃ w, w <:+: cs ∧ p.Takes w := by
  induction cs with
  | nil =>
    rw [occurs, isSome_rest?]
    simp only [List.prefix_nil, List.infix_nil]
  | cons c cs ih =>
    rw [occurs, Bool.or_eq_true, isSome_rest?, ih]
    constructor
    · rintro (⟨w, hprefix, hw⟩ | ⟨w, hpart, hw⟩)
      · exact ⟨w, hprefix.isInfix, hw⟩
      · exact ⟨w, List.infix_cons hpart, hw⟩
    · rintro ⟨w, hpart, hw⟩
      rcases List.infix_cons_iff.mp hpart with hprefix | hpart
      · exact .inl ⟨w, hprefix, hw⟩
      · exact .inr ⟨w, hpart, hw⟩

/-- A pattern occurs if one of its alternatives does. -/
theorem occurs_iff_exists_mem {p : Pattern} {cs : List Char} :
    p.occurs cs = true ↔ ∃ steps ∈ p, occurs [steps] cs = true := by
  simp only [occurs_iff, takes_single]
  constructor
  · intro h
    obtain ⟨w, hw, steps, hsteps, htakes⟩ := h
    exact ⟨steps, hsteps, w, hw, htakes⟩
  · intro h
    obtain ⟨steps, hsteps, w, hw, htakes⟩ := h
    exact ⟨w, hw, steps, hsteps, htakes⟩

/-- What occurs in a part of a text occurs in the text. -/
lemma occurs_of_part {p : Pattern} {part cs : List Char} (hpart : part <:+: cs)
    (h : p.occurs part = true) : p.occurs cs = true := by
  obtain ⟨w, hw, htakes⟩ := occurs_iff.mp h
  exact occurs_iff.mpr ⟨w, hw.trans hpart, htakes⟩

/-- Where steps occur, a pattern occurs that they begin with. -/
lemma occurs_of_prefix {p : Pattern} {front steps : List Step} {cs : List Char} (hfront : front ∈ p)
    (hbegins : front <+: steps) (h : occurs [steps] cs = true) : p.occurs cs = true := by
  obtain ⟨later, rfl⟩ := hbegins
  obtain ⟨w, hpart, hw⟩ := occurs_iff.mp h
  obtain ⟨u, v, rfl, hu, -⟩ := takesInTurn_append.mp (takes_single.mp hw)
  have hbegins : u <:+: u ++ v := (List.prefix_append u v).isInfix
  exact occurs_iff.mpr ⟨u, hbegins.trans hpart, front, hfront, hu⟩

/-! ## Counting -/

/-- A pattern that does not occur in the empty text is counted at least once if and only if it
occurs. -/
theorem count_pos_iff {p : Pattern} (hempty : p.occurs [] = false) {cs : List Char} :
    0 < p.count cs ↔ p.occurs cs = true := by
  unfold count
  induction cs with
  | nil =>
    rw [countAfter, hempty]
    simp
  | cons c cs ih =>
    rw [countAfter, occurs]
    cases p.rest? (c :: cs) with
    | none => exact ih
    | some rest =>
      -- the first occurrence is counted, whatever the search finds behind it
      simp only [Option.isSome_some, Bool.true_or, iff_true]
      omega

/-! ## Captures -/

section Captures

variable {before inside after : Pattern} {cs start found : List Char}

lemma taken_append (w rest : List Char) : taken (w ++ rest) rest = w := by
  rw [taken, List.length_append, Nat.add_sub_cancel_right, List.take_left]

/-- What is captured when the text before it ends at a fixed place. -/
def captureFrom? (inside after : Pattern) (start : List Char) : Option (List Char) :=
  (inside.ends start).findSome? fun stop => (after.rest? stop).map fun _ => taken start stop

lemma capture?_eq (before inside after : Pattern) (cs : List Char) :
    capture? before inside after cs =
      match (before.ends cs).findSome? (captureFrom? inside after), cs with
      | some found, _ => some found
      | none, [] => none
      | none, _ :: cs => capture? before inside after cs := by
  rw [capture?.eq_def]
  rfl

/-- What is captured is a word, and a word of what comes behind it follows. -/
lemma captureFrom?_sound (h : captureFrom? inside after start = some found) :
    ∃ w rest, start = found ++ (w ++ rest) ∧ inside.Takes found ∧ after.Takes w := by
  obtain ⟨stop, hstop, hfound⟩ := List.exists_of_findSome?_eq_some h
  obtain ⟨rest, hrest, rfl⟩ := Option.map_eq_some_iff.mp hfound
  obtain ⟨u, rfl, hu⟩ := mem_ends.mp hstop
  obtain ⟨w, hw, htakes⟩ := isSome_rest?.mp (Option.isSome_of_eq_some hrest)
  obtain ⟨tail, rfl⟩ := hw
  rw [taken_append]
  exact ⟨w, tail, rfl, hu, htakes⟩

/-- What is captured in a text is captured behind a word of what comes before it. -/
lemma exists_captureFrom? (h : capture? before inside after cs = some found) :
    ∃ first u start, cs = first ++ (u ++ start) ∧ before.Takes u ∧
      captureFrom? inside after start = some found := by
  have hfront {cs : List Char}
      (h : (before.ends cs).findSome? (captureFrom? inside after) = some found) :
      ∃ u start, cs = u ++ start ∧ before.Takes u ∧
        captureFrom? inside after start = some found := by
    obtain ⟨start, hstart, hfound⟩ := List.exists_of_findSome?_eq_some h
    obtain ⟨u, rfl, hu⟩ := mem_ends.mp hstart
    exact ⟨u, start, rfl, hu, hfound⟩
  induction cs with
  | nil =>
    rw [capture?_eq] at h
    split at h
    · rename_i hfound
      obtain ⟨u, start, hcs, hu⟩ := hfront (h ▸ hfound)
      exact ⟨[], u, start, hcs, hu⟩
    · cases h
    · rename_i hcs
      cases hcs
  | cons c cs ih =>
    rw [capture?_eq] at h
    split at h
    · rename_i hfound
      obtain ⟨u, start, hcs, hu⟩ := hfront (h ▸ hfound)
      exact ⟨[], u, start, hcs, hu⟩
    · cases h
    · rename_i hcs
      obtain ⟨-, rfl⟩ := List.cons.inj hcs
      obtain ⟨first, u, start, rfl, hu⟩ := ih h
      exact ⟨c :: first, u, start, rfl, hu⟩

/-- What is captured in a text stands in it, between words of what comes before and behind it. -/
theorem capture?_sound (h : capture? before inside after cs = some found) :
    ∃ first u w rest, cs = first ++ (u ++ (found ++ (w ++ rest))) ∧
      before.Takes u ∧ inside.Takes found ∧ after.Takes w := by
  obtain ⟨first, u, start, rfl, hu, hfound⟩ := exists_captureFrom? h
  obtain ⟨w, rest, rfl, hinside, hw⟩ := captureFrom?_sound hfound
  exact ⟨first, u, w, rest, rfl, hu, hinside, hw⟩

/-- The front of a text is searched first. -/
lemma capture?_of_front {starts : List (List Char)} (hstarts : before.ends cs = start :: starts)
    (h : captureFrom? inside after start = some found) :
    capture? before inside after cs = some found := by
  rw [capture?_eq, hstarts, List.findSome?_cons_of_isSome (by rw [h]; rfl), h]

/-- Where nothing is captured at the front, the search goes on. -/
lemma capture?_cons {c : Char}
    (h : ∀ start ∈ before.ends (c :: cs), captureFrom? inside after start = none) :
    capture? before inside after (c :: cs) = capture? before inside after cs := by
  rw [capture?_eq, List.findSome?_eq_none_iff.mpr h]

/-- Where something can be captured, something is. -/
theorem exists_capture? {u w : List Char} (hbefore : before.Takes u) (hinside : inside.Takes found)
    (hafter : after.Takes w) (first rest : List Char) :
    ∃ v, capture? before inside after (first ++ (u ++ (found ++ (w ++ rest)))) = some v := by
  induction first with
  | nil =>
    have hstart : found ++ (w ++ rest) ∈ before.ends (u ++ (found ++ (w ++ rest))) :=
      mem_ends.mpr ⟨u, rfl, hbefore⟩
    have hstop : w ++ rest ∈ inside.ends (found ++ (w ++ rest)) :=
      mem_ends.mpr ⟨found, rfl, hinside⟩
    have hrest : (after.rest? (w ++ rest)).isSome = true :=
      isSome_rest?.mpr ⟨w, List.prefix_append w rest, hafter⟩
    have hfrom : (captureFrom? inside after (found ++ (w ++ rest))).isSome = true := by
      rw [captureFrom?, List.findSome?_isSome_iff]
      exact ⟨_, hstop, by rwa [Option.isSome_map]⟩
    have hfront : ((before.ends (u ++ (found ++ (w ++ rest)))).findSome?
        (captureFrom? inside after)).isSome = true := by
      rw [List.findSome?_isSome_iff]
      exact ⟨_, hstart, hfrom⟩
    obtain ⟨v, hv⟩ := Option.isSome_iff_exists.mp hfront
    rw [List.nil_append, capture?_eq, hv]
    exact ⟨v, rfl⟩
  | cons c first ih =>
    rw [List.cons_append, capture?_eq]
    split
    · exact ⟨_, rfl⟩
    · next hnil => simp at hnil
    · next hcons =>
      obtain ⟨-, rfl⟩ := List.cons.inj hcons
      exact ih

/-- Where nothing is captured in a text, nothing is captured in a part of it. -/
lemma capture?_eq_none_of_part {part : List Char} (hpart : part <:+: cs)
    (h : capture? before inside after cs = none) : capture? before inside after part = none := by
  by_contra hsome
  obtain ⟨found, hfound⟩ := Option.ne_none_iff_exists'.mp hsome
  obtain ⟨first, u, w, rest, rfl, hu, hinside, hw⟩ := capture?_sound hfound
  obtain ⟨front, tail, rfl⟩ := hpart
  obtain ⟨v, hv⟩ := exists_capture? hu hinside hw (front ++ first) (rest ++ tail)
  simp only [List.append_assoc] at h hv
  rw [h] at hv
  cases hv

end Captures

/-! ## How a pattern begins -/

/-- Whether an occurrence of the pattern may begin with the character. -/
def mayBegin (p : Pattern) (c : Char) : Bool :=
  p.any fun steps =>
    match steps with
    | .one accepts :: _ => accepts c
    | _ => true

/-- A character with which no occurrence begins can be put in front of a text. -/
lemma occurs_cons_of_not_mayBegin {p : Pattern} {c : Char} (h : p.mayBegin c = false)
    (cs : List Char) : p.occurs (c :: cs) = p.occurs cs := by
  have hnone : p.ends (c :: cs) = [] := by
    rw [ends, List.flatMap_eq_nil_iff]
    intro steps hsteps
    have hbegin := List.any_eq_false.mp h steps hsteps
    split at hbegin
    · next accepts later =>
      rw [endsOfSteps, Step.ends, if_neg hbegin, List.flatMap_nil]
    · exact absurd rfl hbegin
  rw [occurs, rest?, hnone]
  rfl

end Pattern

end SolidityAudit
