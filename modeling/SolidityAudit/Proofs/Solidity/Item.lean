import SolidityAudit.Proofs.Solidity.Discipline

/-!
# Where an item of a file ends

An item of a file ends at the first semicolon outside of brackets, or at the first closing brace
that leaves no bracket open; a directive, and a declaration after its equals sign outside of
brackets, ends at a semicolon only. The discipline `itemEnd` follows this. So no item is a proper
beginning of another one (`item_unique`).
-/

namespace SolidityAudit.Solidity

/-- How far an item has come: inside, with the brackets to be closed, and whether only a semicolon
can end it; or ended. -/
inductive ItemState
  | inside (stack : List String) (toMark : Bool)
  | ended
deriving DecidableEq, Repr

/-- The words outside of brackets after which only a semicolon ends an item. -/
def markWords : List String := ["=", "pragma", "import"]

/-- The state after a word or a mark inside an item. -/
def itemWord (stack : List String) (toMark : Bool) (w : String) : Option ItemState :=
  (nestWord stack w).map fun stack' =>
    if stack = [] ∧ w = ";" ∨ stack' = [] ∧ w = "\x7d" ∧ !toMark then .ended
    else .inside stack' (toMark || stack = [] && w ∈ markWords)

/-- The items of a file, and the block that ends a function. -/
def endsItem : Category → Bool
  | .sourceItem | .pragmaDirective | .importDirective | .contractDefinition | .enumDefinition
  | .structDefinition | .functionDefinition | .fileLevelConstant | .customErrorDefinition
  | .typeDefinition | .block => true
  | _ => false

/-- The phrases outside of brackets with which an item goes on. -/
def goesOn : Category → Bool
  | .identifier | .typeName | .arraySuffixes | .arraySuffix | .mapping | .functionTypeName
  | .functionTypeMarks | .functionTypeMark | .functionTypeParameterList | .stateMutability
  | .elementaryTypeName | .userDefinedTypeName | .moreNames | .moreName | .parameterList
  | .modifierList | .functionMark | .modifierInvocation | .overrideSpecifier
  | .functionDescriptor | .returnParameters | .inheritanceSpecifier | .moreInheritance
  | .moreInherited => true
  | _ => false

/-- The phrases outside of brackets with which an item goes on that only a semicolon can end. -/
def goesOnToMark : Category → Bool
  | .pragmaValue | .version | .moreConstraints | .moreConstraint | .versionConstraint
  | .importPath | .expression | .infixOperands | .infixOperand | .infixOperator | .operand
  | .prefixOperators | .prefixOperator | .suffixes | .suffix | .index | .slice | .callOptions
  | .call | .base | .newExpression | .tupleExpression | .typeName | .arraySuffixes | .arraySuffix
  | .mapping | .functionTypeName | .functionTypeMarks | .functionTypeMark
  | .functionTypeParameterList | .stateMutability | .elementaryTypeName | .userDefinedTypeName
  | .moreNames | .moreName | .identifier | .numberLiteral | .hexLiteral | .hexFragments
  | .hexFragment | .stringLiteral | .stringFragments | .stringFragment => true
  | _ => false

/-- An item is read to its end, and not beyond it. -/
def itemEnd : Discipline ItemState ItemState where
  step
    | .inside stack toMark, t =>
      if t.kind = .literal then itemWord stack toMark t.text else some (.inside stack toMark)
    | .ended, _ => none
  holds a s := a = s
  token
    | .word w, .inside stack toMark => itemWord stack toMark w
    | .kind k, .inside stack toMark => if k = .literal then none else some (.inside stack toMark)
    | _, .ended => none
  phrase
    | _, .ended => none
    | c, .inside [] toMark =>
      if toMark then
        if goesOnToMark c then some (.inside [] true) else none
      else if goesOn c then some (.inside [] false)
      else if endsItem c then some .ended
      else none
    | _, .inside stack toMark => some (.inside stack toMark)
  join a b := if a = b then some a else none

lemma itemEnd_agrees (c : Category) (toMark : Bool) :
    itemEnd.agrees (fun a b => a = b) c (.inside [] toMark) = true := by
  have hevery : Category.everyCategory.all fun c =>
      itemEnd.agrees (fun a b => a = b) c (.inside [] true) &&
        itemEnd.agrees (fun a b => a = b) c (.inside [] false) := by decide +kernel
  have hc := List.all_eq_true.mp hevery c (mem_everyCategory c)
  rw [Bool.and_eq_true] at hc
  cases toMark with
  | true => exact hc.1
  | false => exact hc.2

/-! ## Inside of brackets -/

lemma itemWord_inside {stack stack' base : List String} {w : String}
    (h : nestWord stack w = some stack') (hbase : base ≠ []) (toMark : Bool) :
    itemWord (stack ++ base) toMark w = some (.inside (stack' ++ base) toMark) := by
  simp [itemWord, nestWord_append h base, hbase]

lemma itemEnd_phrase_inside (c : Category) {stack : List String} (h : stack ≠ []) (toMark : Bool) :
    itemEnd.phrase c (.inside stack toMark) = some (.inside stack toMark) := by
  cases stack with
  | nil => exact absurd rfl h
  | cons => rfl

/-- Inside of brackets an item does not end, whatever form comes there. -/
lemma itemEnd_effect_inside {f : Form} {stack stack' : List String}
    (h : nesting.effect f stack = some stack') {base : List String} (hbase : base ≠ [])
    (toMark : Bool) :
    itemEnd.effect f (.inside (stack ++ base) toMark) = some (.inside (stack' ++ base) toMark) := by
  refine Discipline.effect_map (fun s => ItemState.inside (s ++ base) toMark) ?_ ?_ ?_ h
  · intro t a b hb
    cases t with
    | word w => exact itemWord_inside hb hbase toMark
    | kind k =>
      simp only [nesting, itemEnd] at hb ⊢
      split_ifs at hb with hk
      obtain rfl := Option.some.inj hb
      rw [if_neg hk]
  · intro c a b hb
    obtain rfl := Option.some.inj hb
    exact itemEnd_phrase_inside c (by simp [hbase]) toMark
  · intro a b c hc
    obtain ⟨rfl, rfl⟩ := eq_of_same hc
    exact if_pos rfl

theorem itemEnd_sound : itemEnd.Sound where
  token {t found a b s} haccepts hb hs := by
    obtain rfl : a = s := hs
    refine ⟨b, ?_, rfl⟩
    cases a with
    | ended => cases t <;> simp [itemEnd] at hb
    | inside stack toMark =>
      cases t with
      | word w =>
        simp only [Terminal.accepts, Bool.and_eq_true, decide_eq_true_eq] at haccepts
        simp only [itemEnd, haccepts.1, haccepts.2, if_true]
        exact hb
      | kind k =>
        simp only [Terminal.accepts, decide_eq_true_eq] at haccepts
        simp only [itemEnd, haccepts] at hb ⊢
        split_ifs at hb ⊢
        exact hb
  join_left hjoin hs := (eq_of_same hjoin).1.symm.trans hs
  join_right hjoin hs := (eq_of_same hjoin).2.symm.trans hs
  form {c f a b} hrule hb := by
    cases a with
    | ended => simp [itemEnd] at hb
    | inside stack toMark =>
      -- outside of brackets the tables decide, inside of them the nesting
      by_cases hstack : stack = []
      · subst hstack
        exact Discipline.effect_of_agrees (itemEnd_agrees c toMark) hb hrule
      · rw [itemEnd_phrase_inside c hstack] at hb
        obtain rfl := Option.some.inj hb
        exact itemEnd_effect_inside (nesting_rule hrule) hstack toMark
  repeated {c d a b} hrule hb := by
    cases a with
    | ended => simp [itemEnd] at hb
    | inside stack toMark =>
      by_cases hstack : stack = []
      · subst hstack
        obtain ⟨hab, a', b', ha', hb', hle⟩ :=
          Discipline.repeated_of_agrees (itemEnd_agrees c toMark) hb hrule
        obtain rfl := of_decide_eq_true hab
        obtain rfl := of_decide_eq_true hle
        exact ⟨fun _ h => h, a', _, ha', hb', fun _ h => h⟩
      · rw [itemEnd_phrase_inside c hstack] at hb
        obtain rfl := Option.some.inj hb
        exact ⟨fun _ h => h, _, _, itemEnd_phrase_inside d hstack toMark,
          itemEnd_phrase_inside c hstack toMark, fun _ h => h⟩

/-! ## Items -/

/-- An item is read from its first to its last token. -/
theorem itemEnd_run {ts : List Token} (h : Derives (.part .sourceItem) ts) :
    itemEnd.run (.inside [] false) ts = some .ended := by
  obtain ⟨s, hrun, rfl⟩ := itemEnd_sound.run_derives h
    (rfl : itemEnd.phrase .sourceItem (.inside [] false) = some .ended) rfl
  exact hrun

lemma ne_nil_of_item {ts : List Token} (h : Derives (.part .sourceItem) ts) : ts ≠ [] := by
  rintro rfl
  simpa [Discipline.run] using itemEnd_run h

/-- An item is no proper beginning of another one. -/
theorem item_unique {ts us rest : List Token} (ht : Derives (.part .sourceItem) ts)
    (hu : Derives (.part .sourceItem) us) (h : us = ts ++ rest) : rest = [] := by
  have hrun := itemEnd_run hu
  rw [h, Discipline.run_append, itemEnd_run ht, Option.bind_some] at hrun
  cases rest with
  | nil => rfl
  | cons t rest =>
    -- an item that has ended allows no further token
    simp [Discipline.run, itemEnd] at hrun

end SolidityAudit.Solidity
