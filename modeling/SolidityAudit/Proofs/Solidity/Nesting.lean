import SolidityAudit.Proofs.Solidity.File

/-!
# Nested brackets

A token list is well nested when every opening bracket in it has a closing one of its own kind, with
a well-nested list between the two (`WellNested`). The stack of the discipline `nesting` is empty at
the end of exactly these lists (`wellNested_iff_run`), so the tokens of every source that the
grammar accepts are well nested (`wellNested_of_readSource`).
-/

namespace SolidityAudit.Solidity

/-! ## Brackets among tokens -/

/-- Two marks that belong together, the first opening and the second closing. A bracket inside a
string or a comment is no mark. -/
def Token.Pairs (o c : Token) : Prop :=
  o.kind = .literal ∧ c.kind = .literal ∧ closerOf o.text = some c.text

/-- A mark that opens or closes a bracket. -/
def Token.IsBracket (t : Token) : Prop :=
  t.kind = .literal ∧ (t.text ∈ ["(", "[", "\x7b"] ∨ t.text ∈ closers)

/-- Every bracket has its partner, and pairs of brackets do not cross. -/
inductive WellNested : List Token → Prop
  | nil : WellNested []
  | plain {t : Token} {ts : List Token} (ht : ¬ t.IsBracket) (h : WellNested ts) :
    WellNested (t :: ts)
  | pair {o c : Token} {ts us : List Token} (hpair : o.Pairs c) (hinside : WellNested ts)
    (hrest : WellNested us) : WellNested (o :: (ts ++ c :: us))

/-! ## The stack on a nested list -/

section Steps

variable {stack stack' : List String} {t o c : Token}

/-- What closes a bracket opens none. -/
lemma mem_closers_of_closerOf {w v : String} (h : closerOf w = some v) :
    v ∈ closers ∧ closerOf v = none := by
  unfold closerOf at h
  split_ifs at h
  all_goals
    obtain rfl := Option.some.inj h
    decide

/-- Only the three opening brackets have a partner. -/
lemma closerOf_eq_none_iff {w : String} : closerOf w = none ↔ w ∉ ["(", "[", "\x7b"] := by
  unfold closerOf
  simp only [List.mem_cons, List.not_mem_nil, or_false, not_or]
  split_ifs <;> simp_all

/-- A mark steps as its text does. -/
lemma step_mark (h : t.kind = .literal) : nesting.step stack t = nestWord stack t.text :=
  if_pos h

/-- What is no mark leaves the stack alone. -/
lemma step_other (h : t.kind ≠ .literal) : nesting.step stack t = some stack :=
  if_neg h

/-- An opening bracket puts its partner on the stack. -/
lemma step_opening (h : o.Pairs c) : nesting.step stack o = some (c.text :: stack) := by
  obtain ⟨hkind, -, hcloser⟩ := h
  rw [step_mark hkind]
  unfold nestWord
  rw [hcloser]

/-- Its partner takes itself off again. -/
lemma step_closing (h : o.Pairs c) : nesting.step (c.text :: stack) c = some stack := by
  obtain ⟨-, hkind, hcloser⟩ := h
  obtain ⟨hmem, hnone⟩ := mem_closers_of_closerOf hcloser
  rw [step_mark hkind]
  unfold nestWord
  rw [hnone]
  dsimp only
  rw [if_pos hmem, if_pos rfl]

/-- What is no bracket leaves the stack alone. -/
lemma step_plain (h : ¬ t.IsBracket) : nesting.step stack t = some stack := by
  by_cases hkind : t.kind = .literal
  · have hnone : closerOf t.text = none :=
      closerOf_eq_none_iff.mpr fun hopens => h ⟨hkind, .inl hopens⟩
    have hmem : t.text ∉ closers := fun hmem => h ⟨hkind, .inr hmem⟩
    rw [step_mark hkind]
    unfold nestWord
    rw [hnone]
    exact if_neg hmem
  · exact step_other hkind

/-- A step opens a bracket, closes the innermost one, or is about no bracket. -/
lemma step_cases (h : nesting.step stack t = some stack') :
    (∃ w, t.kind = .literal ∧ closerOf t.text = some w ∧ stack' = w :: stack) ∨
    (t.kind = .literal ∧ stack = t.text :: stack') ∨
    (¬ t.IsBracket ∧ stack' = stack) := by
  by_cases hkind : t.kind = .literal
  · rw [step_mark hkind] at h
    unfold nestWord at h
    split at h
    · next w hw => exact .inl ⟨w, hkind, hw, (Option.some.inj h).symm⟩
    · next hnone =>
      by_cases hmem : t.text ∈ closers
      · rw [if_pos hmem] at h
        cases stack with
        | nil => simp at h
        | cons w rest =>
          dsimp only at h
          split_ifs at h with hw
          rw [hw, Option.some.inj h]
          exact .inr (.inl ⟨hkind, rfl⟩)
      · rw [if_neg hmem] at h
        have hplain : ¬ t.IsBracket := fun hbracket =>
          hbracket.2.elim (closerOf_eq_none_iff.mp hnone) hmem
        exact .inr (.inr ⟨hplain, (Option.some.inj h).symm⟩)
  · rw [step_other hkind] at h
    have hplain : ¬ t.IsBracket := fun hbracket => hkind hbracket.1
    exact .inr (.inr ⟨hplain, (Option.some.inj h).symm⟩)

end Steps

/-- A nested list leaves the stack as it finds it. -/
lemma run_of_wellNested {ts : List Token} (h : WellNested ts) (stack : List String) :
    nesting.run stack ts = some stack := by
  induction h generalizing stack with
  | nil => rfl
  | plain ht _ ih =>
    rw [Discipline.run, step_plain ht]
    exact ih stack
  | @pair o c ts us hpair _ _ ihinside ihrest =>
    rw [Discipline.run, step_opening hpair]
    show nesting.run (c.text :: stack) (ts ++ c :: us) = some stack
    rw [Discipline.run_append, ihinside, Option.bind_some, Discipline.run, step_closing hpair]
    exact ihrest stack

/-- A list that empties the stack is nested up to each mark that takes a bracket off it. -/
lemma wellNested_of_run {ts : List Token} {stack : List String}
    (h : nesting.run stack ts = some []) :
    (stack = [] → WellNested ts) ∧
    ∀ w rest, stack = w :: rest → ∃ us c vs, ts = us ++ c :: vs ∧ WellNested us ∧
      c.kind = .literal ∧ c.text = w ∧ nesting.run rest vs = some [] := by
  -- behind a pair of brackets the list goes on with a shorter one: the induction is on the length
  induction hn : ts.length using Nat.strong_induction_on generalizing ts stack with
  | _ n ih =>
    cases ts with
    | nil =>
      obtain rfl := Option.some.inj h
      exact ⟨fun _ => .nil, fun w rest hstack => by simp at hstack⟩
    | cons t ts =>
      rw [List.length_cons] at hn
      obtain ⟨stack', hstep, hrun⟩ := Option.bind_eq_some_iff.mp h
      have hlater := ih ts.length (by omega) hrun rfl
      rcases step_cases hstep with ⟨w, hkind, hw, rfl⟩ | ⟨hkind, rfl⟩ | ⟨hplain, rfl⟩
      · -- what comes up to the partner is inside, and what comes behind it is a list of its own
        obtain ⟨us, c, vs, rfl, hus, hc, hcw, hvs⟩ := hlater.2 w stack rfl
        have hpair : t.Pairs c := ⟨hkind, hc, by rw [hw, hcw]⟩
        rw [List.length_append, List.length_cons] at hn
        have hrest := ih vs.length (by omega) hvs rfl
        refine ⟨fun hstack => .pair hpair hus (hrest.1 hstack), ?_⟩
        intro v rest hstack
        obtain ⟨us', c', vs', rfl, hus', hc', hcv, hvs'⟩ := hrest.2 v rest hstack
        exact ⟨t :: (us ++ c :: us'), c', vs', by simp, .pair hpair hus hus', hc', hcv, hvs'⟩
      · refine ⟨fun hstack => by simp at hstack, ?_⟩
        intro v rest hstack
        obtain ⟨rfl, rfl⟩ := List.cons.inj hstack
        exact ⟨[], t, ts, rfl, .nil, hkind, rfl, hrun⟩
      · refine ⟨fun hstack => .plain hplain (hlater.1 hstack), ?_⟩
        intro v rest hstack
        obtain ⟨us, c, vs, rfl, hus, hc, hcv, hvs⟩ := hlater.2 v rest hstack
        exact ⟨t :: us, c, vs, rfl, .plain hplain hus, hc, hcv, hvs⟩

/-- The nested lists are those that leave no bracket open and close none that is not. -/
theorem wellNested_iff_run {ts : List Token} : WellNested ts ↔ nesting.run [] ts = some [] :=
  ⟨fun h => run_of_wellNested h [], fun h => (wellNested_of_run h).1 rfl⟩

instance (ts : List Token) : Decidable (WellNested ts) :=
  decidable_of_iff _ wellNested_iff_run.symm

/-! ## Sources -/

/-- The tokens of a source, as far as it can be cut into tokens. -/
def tokenList (source : String) : List Token := (scan source).tokens.map Prod.fst

/-- A source that the grammar accepts is well nested. -/
theorem wellNested_of_readSource {source : String} {items : List Tree}
    (h : readSource source = .ok items) : WellNested (tokenList source) := by
  obtain ⟨ts, hts, hitems⟩ := readSource_eq_ok.mp h
  rw [tokensOf, tokensAfter_eq_scanAfter .start] at hts
  split_ifs at hts with hcomplete
  obtain rfl := Option.some.inj hts
  exact wellNested_iff_run.mpr
    (nested_of_derives (derives_of_itemsOf (readTokens_eq_ok.mp hitems)))

end SolidityAudit.Solidity
