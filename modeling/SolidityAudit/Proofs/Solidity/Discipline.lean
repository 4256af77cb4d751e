import SolidityAudit.Proofs.Solidity.Derivation
import SolidityAudit.Proofs.Solidity.Scan

/-!
# Disciplines

A discipline reads tokens one after the other, with a state, and stops at a token that it does not
allow. To see that it can read whatever a form stands for, it is enough to look at the rules: what a
phrase of each category does to the state is written down once, and each rule is checked against
it (`Discipline.Sound`). Then every derivation keeps to it (`Sound.run_derives`).

Two disciplines follow: brackets are nested (`nesting`), and no division stands in front of a star
(`slashes`).
-/

namespace SolidityAudit.Solidity

/-- A reader of tokens with states `σ`, and what is known of its states, `D`. -/
structure Discipline (σ D : Type) where
  step : σ → Token → Option σ
  holds : D → σ → Prop
  /-- what is known after a token -/
  token : Terminal → D → Option D
  /-- what is known after a phrase -/
  phrase : Category → D → Option D
  /-- what is known after one of two ways -/
  join : D → D → Option D

namespace Discipline

variable {σ D : Type} (P : Discipline σ D)

/-- The state after some tokens; `none` if one of them is not allowed. -/
def run : σ → List Token → Option σ
  | s, [] => some s
  | s, t :: ts => (P.step s t).bind fun s' => run s' ts

lemma run_append (s : σ) (ts us : List Token) :
    P.run s (ts ++ us) = (P.run s ts).bind fun s' => P.run s' us := by
  induction ts generalizing s with
  | nil => rfl
  | cons t ts ih =>
    rw [List.cons_append, run, run]
    cases P.step s t with
    | none => rfl
    | some s' => exact ih s'

/-- What is known after a form. -/
def effect : Form → D → Option D
  | .nothing, a => some a
  | .token t, a => P.token t a
  | .part c, a => P.phrase c a
  | .both f g, a => (effect f a).bind (effect g)
  | .either f g, a => (effect f a).bind fun b => (effect g a).bind (P.join b)

/-- What is known is true of the tokens, and the rules agree with what is known of the phrases. -/
structure Sound : Prop where
  token : ∀ {t found a b s}, t.accepts found = true → P.token t a = some b → P.holds a s →
    ∃ s', P.step s found = some s' ∧ P.holds b s'
  join_left : ∀ {a b c s}, P.join a b = some c → P.holds a s → P.holds c s
  join_right : ∀ {a b c s}, P.join a b = some c → P.holds b s → P.holds c s
  form : ∀ {c f a b}, c.rule = .form f → P.phrase c a = some b → P.effect f a = some b
  repeated : ∀ {c d a b}, c.rule = .repeated d → P.phrase c a = some b →
    (∀ s, P.holds a s → P.holds b s) ∧ ∃ a' b', P.phrase d a = some a' ∧
      P.phrase c a' = some b' ∧ ∀ s, P.holds b' s → P.holds b s

variable {P}

/-- What a form stands for can be read, and leads to a state of which the effect is known. -/
theorem Sound.run_derives (hP : P.Sound) {f : Form} {ts : List Token} (h : Derives f ts) {a b : D}
    {s : σ} (heffect : P.effect f a = some b) (hs : P.holds a s) :
    ∃ s', P.run s ts = some s' ∧ P.holds b s' := by
  -- a rule is entered through its category, so the effect of the one must agree with the other
  induction h generalizing a b s with
  | nothing =>
    obtain rfl := Option.some.inj heffect
    exact ⟨s, rfl, hs⟩
  | token haccepts =>
    obtain ⟨s', hstep, hs'⟩ := hP.token haccepts heffect hs
    exact ⟨s', by rw [run, hstep]; rfl, hs'⟩
  | part hrule _ ih => exact ih (hP.form hrule heffect) hs
  | none hrule => exact ⟨s, rfl, (hP.repeated hrule heffect).1 s hs⟩
  | more hrule _ _ ihfirst ihrest =>
    obtain ⟨-, a', b', ha', hb', hle⟩ := hP.repeated hrule heffect
    obtain ⟨s', hrun, hs'⟩ := ihfirst ha' hs
    obtain ⟨s'', hrun', hs''⟩ := ihrest hb' hs'
    exact ⟨s'', by rw [run_append, hrun]; exact hrun', hle s'' hs''⟩
  | both _ _ ihf ihg =>
    obtain ⟨m, hm, hb⟩ := Option.bind_eq_some_iff.mp heffect
    obtain ⟨s', hrun, hs'⟩ := ihf hm hs
    obtain ⟨s'', hrun', hs''⟩ := ihg hb hs'
    exact ⟨s'', by rw [run_append, hrun]; exact hrun', hs''⟩
  | first _ ih =>
    obtain ⟨m, hm, hrest⟩ := Option.bind_eq_some_iff.mp heffect
    obtain ⟨n, -, hjoin⟩ := Option.bind_eq_some_iff.mp hrest
    obtain ⟨s', hrun, hs'⟩ := ih hm hs
    exact ⟨s', hrun, hP.join_left hjoin hs'⟩
  | second _ ih =>
    obtain ⟨m, -, hrest⟩ := Option.bind_eq_some_iff.mp heffect
    obtain ⟨n, hn, hjoin⟩ := Option.bind_eq_some_iff.mp hrest
    obtain ⟨s', hrun, hs'⟩ := ih hn hs
    exact ⟨s', hrun, hP.join_right hjoin hs'⟩

/-- What is known in one discipline is known in another, if it is of the tokens and the phrases. -/
lemma effect_map {τ E : Type} {Q : Discipline τ E} (view : D → E)
    (htoken : ∀ {t a b}, P.token t a = some b → Q.token t (view a) = some (view b))
    (hphrase : ∀ {c a b}, P.phrase c a = some b → Q.phrase c (view a) = some (view b))
    (hjoin : ∀ {a b c}, P.join a b = some c → Q.join (view a) (view b) = some (view c))
    {f : Form} {a b : D} (h : P.effect f a = some b) : Q.effect f (view a) = some (view b) := by
  induction f generalizing a b with
  | nothing =>
    obtain rfl := Option.some.inj h
    rfl
  | token t => exact htoken h
  | part c => exact hphrase h
  | both f g ihf ihg =>
    obtain ⟨m, hm, hg⟩ := Option.bind_eq_some_iff.mp h
    rw [effect, ihf hm, Option.bind_some, ihg hg]
  | either f g ihf ihg =>
    obtain ⟨m, hm, hrest⟩ := Option.bind_eq_some_iff.mp h
    obtain ⟨n, hn, hmn⟩ := Option.bind_eq_some_iff.mp hrest
    rw [effect, ihf hm, Option.bind_some, ihg hn, Option.bind_some, hjoin hmn]

end Discipline

/-! ## Checks of all rules -/

lemma mem_everyCategory (c : Category) : c ∈ Category.everyCategory := by
  cases c <;> decide +kernel

namespace Discipline

variable {σ D : Type} (P : Discipline σ D) [DecidableEq D]

/-- Whether the rule of a category agrees with what is known of its phrases; `weaker a b` means that
`b` says no more than `a`. -/
def agrees (weaker : D → D → Bool) (c : Category) (a : D) : Bool :=
  match P.phrase c a with
  | none => true
  | some b =>
    match c.rule with
    | .form f => P.effect f a = some b
    | .repeated d =>
      weaker a b &&
        match P.phrase d a with
        | none => false
        | some a' =>
          match P.phrase c a' with
          | none => false
          | some b' => weaker b' b

variable {P} {weaker : D → D → Bool} {c : Category} {a b : D}

lemma effect_of_agrees (h : P.agrees weaker c a = true) (hb : P.phrase c a = some b) {f : Form}
    (hrule : c.rule = .form f) : P.effect f a = some b := by
  rw [agrees, hb, hrule] at h
  simpa using h

lemma repeated_of_agrees (h : P.agrees weaker c a = true) (hb : P.phrase c a = some b)
    {d : Category} (hrule : c.rule = .repeated d) :
    weaker a b = true ∧ ∃ a' b', P.phrase d a = some a' ∧ P.phrase c a' = some b' ∧
      weaker b' b = true := by
  rw [agrees, hb, hrule] at h
  dsimp only at h
  rw [Bool.and_eq_true] at h
  obtain ⟨hab, h⟩ := h
  refine ⟨hab, ?_⟩
  split at h
  · simp at h
  · next a' ha' =>
    split at h
    · simp at h
    · next b' hb' => exact ⟨a', b', ha', hb', h⟩

end Discipline

/-! ## Brackets -/

/-- The closing bracket of an opening one. -/
def closerOf (w : String) : Option String :=
  if w = "(" then some ")"
  else if w = "[" then some "]"
  else if w = "\x7b" then some "\x7d"
  else none

/-- The closing brackets. -/
def closers : List String := [")", "]", "\x7d"]

/-- The brackets to be closed, the innermost first, after a word or a mark. -/
def nestWord (stack : List String) (w : String) : Option (List String) :=
  match closerOf w with
  | some c => some (c :: stack)
  | none =>
    if w ∈ closers then
      match stack with
      | c :: rest => if c = w then some rest else none
      | [] => none
    else some stack

/-- Brackets are closed in the order opposite to that in which they were opened. -/
def nesting : Discipline (List String) (List String) where
  step stack t := if t.kind = .literal then nestWord stack t.text else some stack
  holds a s := a = s
  token
    | .word w, stack => nestWord stack w
    | .kind k, stack => if k = .literal then none else some stack
  phrase _ stack := some stack
  join a b := if a = b then some a else none

/-- Two ways are joined only if they lead to the same. -/
lemma eq_of_same {D : Type} [DecidableEq D] {a b c : D}
    (h : (if a = b then some a else none) = some c) : a = c ∧ b = c := by
  split_ifs at h with hab
  have hac := Option.some.inj h
  exact ⟨hac, hab.symm.trans hac⟩

/-- What is below the brackets of a form does not matter. -/
lemma nestWord_append {stack stack' : List String} {w : String} (h : nestWord stack w = some stack')
    (base : List String) : nestWord (stack ++ base) w = some (stack' ++ base) := by
  unfold nestWord at h ⊢
  split at h
  · obtain rfl := Option.some.inj h
    rfl
  · split_ifs at h with hw
    · rw [if_pos hw]
      cases stack with
      | nil => simp at h
      | cons c rest =>
        dsimp only [List.cons_append] at h ⊢
        split_ifs at h with hc
        obtain rfl := Option.some.inj h
        rw [if_pos hc]
    · obtain rfl := Option.some.inj h
      rw [if_neg hw]

lemma nesting_effect_append {f : Form} {stack stack' : List String}
    (h : nesting.effect f stack = some stack') (base : List String) :
    nesting.effect f (stack ++ base) = some (stack' ++ base) := by
  refine Discipline.effect_map (· ++ base) ?_ ?_ ?_ h
  · intro t a b hb
    cases t with
    | word w => exact nestWord_append hb base
    | kind k =>
      simp only [nesting] at hb ⊢
      split_ifs at hb with hk
      obtain rfl := Option.some.inj hb
      rw [if_neg hk]
  · intro c a b hb
    obtain rfl := Option.some.inj hb
    rfl
  · intro a b c hc
    obtain ⟨rfl, rfl⟩ := eq_of_same hc
    exact if_pos rfl

/-- Every rule closes the brackets that it opens, and no others. -/
lemma nesting_rule {c : Category} {f : Form} (h : c.rule = .form f) :
    nesting.effect f [] = some [] := by
  have hevery : Category.everyCategory.all fun c =>
      match c.rule with
      | .form f => nesting.effect f [] = some []
      | .repeated _ => true := by decide +kernel
  have hc := List.all_eq_true.mp hevery c (mem_everyCategory c)
  rw [h] at hc
  simpa using hc

theorem nesting_sound : nesting.Sound where
  token {t found a b s} haccepts hb hs := by
    obtain rfl : a = s := hs
    refine ⟨b, ?_, rfl⟩
    cases t with
    | word w =>
      simp only [Terminal.accepts, Bool.and_eq_true, decide_eq_true_eq] at haccepts
      simp only [nesting, haccepts.1, haccepts.2, if_true]
      exact hb
    | kind k =>
      simp only [Terminal.accepts, decide_eq_true_eq] at haccepts
      simp only [nesting, haccepts] at hb ⊢
      split_ifs at hb ⊢
      exact hb
  join_left hjoin hs := (eq_of_same hjoin).1.symm.trans hs
  join_right hjoin hs := (eq_of_same hjoin).2.symm.trans hs
  form {c f a b} hrule hb := by
    obtain rfl := Option.some.inj hb
    exact nesting_effect_append (nesting_rule hrule) a
  repeated {c d a b} hrule hb := by
    obtain rfl := Option.some.inj hb
    exact ⟨fun _ h => h, a, a, rfl, rfl, fun _ h => h⟩

/-- What a form stands for is nested. -/
theorem nested_of_derives {c : Category} {ts : List Token} (h : Derives (.part c) ts) :
    nesting.run [] ts = some [] := by
  obtain ⟨s, hrun, rfl⟩ := nesting_sound.run_derives h (rfl : nesting.phrase c [] = some []) rfl
  exact hrun

/-! ## Divisions -/

/-- Whether a word begins with a star. -/
def isStarWord (w : String) : Bool := w.toList.head? = some '*'

/-- What may be known to come directly after a division: the beginnings of operands. -/
def beginsOperand : Category → Bool
  | .operand | .prefixOperator | .base | .newExpression | .numberLiteral | .hexLiteral
  | .hexFragment | .stringLiteral | .stringFragment | .userDefinedTypeName | .identifier
  | .tupleExpression | .elementaryTypeName => true
  | _ => false

/-- No mark that begins with a star comes directly after a division. The state tells whether the
last token was a division; what is known is whether it may have been one. -/
def slashes : Discipline Bool Bool where
  step slash t := if slash && t.isStar then none else some t.isSlash
  holds a s := s → a
  token
    | .word w, a => if a && isStarWord w then none else some (w = "/")
    | .kind k, _ => if k = .literal then none else some false
  phrase c a :=
    if !a then some (c = .infixOperator)
    else if c = .prefixOperators then some true
    else if beginsOperand c then some false
    else none
  join a b := some (a || b)

lemma slashes_agrees (c : Category) (a : Bool) :
    slashes.agrees (fun a b => !a || b) c a = true := by
  have hevery : Category.everyCategory.all fun c =>
      slashes.agrees (fun a b => !a || b) c true &&
        slashes.agrees (fun a b => !a || b) c false := by decide +kernel
  have hc := List.all_eq_true.mp hevery c (mem_everyCategory c)
  rw [Bool.and_eq_true] at hc
  cases a with
  | true => exact hc.1
  | false => exact hc.2

theorem slashes_sound : slashes.Sound where
  token {t found a b s} haccepts hb hs := by
    cases t with
    | word w =>
      simp only [Terminal.accepts, Bool.and_eq_true, decide_eq_true_eq] at haccepts
      obtain ⟨hkind, rfl⟩ := haccepts
      simp only [slashes, Token.isStar, Token.isSlash, hkind, isStarWord] at hb hs ⊢
      cases a <;> cases s <;> simp_all
    | kind k =>
      simp only [Terminal.accepts, decide_eq_true_eq] at haccepts
      simp only [slashes, Token.isStar, Token.isSlash, haccepts] at hb ⊢
      split_ifs at hb with hk
      simp [hk]
  join_left {a b c s} hjoin hs := by
    obtain rfl := Option.some.inj hjoin
    intro h
    simp [hs h]
  join_right {a b c s} hjoin hs := by
    obtain rfl := Option.some.inj hjoin
    intro h
    simp [hs h]
  form {c f a b} hrule hb := Discipline.effect_of_agrees (slashes_agrees c a) hb hrule
  repeated {c d a b} hrule hb := by
    have hle {a b : Bool} (h : (!a || b) = true) (s : Bool) (hs : s → a) : s → b := by
      intro h'
      simpa [hs h'] using h
    obtain ⟨hab, a', b', ha', hb', hle'⟩ :=
      Discipline.repeated_of_agrees (slashes_agrees c a) hb hrule
    exact ⟨hle hab, a', b', ha', hb', hle hle'⟩

/-- A phrase holds no division in front of a star. -/
theorem not_opensComment_of_derives {c : Category} {ts : List Token} (h : Derives (.part c) ts) :
    ¬ OpensComment ts := by
  rintro ⟨slash, star, hslash, hstar, pre, post, rfl⟩
  have hphrase : slashes.phrase c false = some (decide (c = .infixOperator)) := rfl
  have hstart : slashes.holds false false := fun h => h
  obtain ⟨s', hrun, -⟩ := slashes_sound.run_derives h hphrase hstart
  -- the state is known to be a division when the star comes
  rw [List.append_assoc, Discipline.run_append] at hrun
  obtain ⟨s, -, hrun⟩ := Option.bind_eq_some_iff.mp hrun
  obtain ⟨u, hu, hrun⟩ := Option.bind_eq_some_iff.mp hrun
  obtain ⟨v, hv, -⟩ := Option.bind_eq_some_iff.mp hrun
  simp only [slashes] at hu hv
  split_ifs at hu hv with hs hu'
  rw [← Option.some.inj hu, hslash, hstar] at hu'
  simp at hu'

end SolidityAudit.Solidity
