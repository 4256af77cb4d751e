import SolidityAudit.Proofs.Json.Reader

/-!
# Reading looks no further than the value

A reader that has read a value would have read the same value if the text had gone on
(`readValue_append`), so the text of a document starts with no other text of a list or an object
(`eq_of_read_prefix`). A number is the exception, since it may go on; inside a list or an object it
never does, because a mark comes behind it.
-/

namespace SolidityAudit.Json

/-! ## Blanks -/

/-- What a text starts with is there before the text goes on. -/
lemma head_of_append {cs q rest : List Char} {c : Char} (hne : cs ≠ []) (h : cs ++ q = c :: rest) :
    ∃ first, cs = c :: first ∧ rest = first ++ q := by
  cases cs with
  | nil => exact absurd rfl hne
  | cons d first =>
    obtain ⟨rfl, rfl⟩ := List.cons.inj h
    exact ⟨first, rfl, rfl⟩

lemma skipSpace_append_of_ne {cs : List Char} (h : skipSpace cs ≠ []) (q : List Char) :
    skipSpace (cs ++ q) = skipSpace cs ++ q := by
  unfold skipSpace at h ⊢
  rw [List.dropWhile_append, if_neg (by rw [List.isEmpty_iff]; exact h)]

lemma skipSpace_append_of_cons {cs rest : List Char} {c : Char} (h : skipSpace cs = c :: rest)
    (q : List Char) : skipSpace (cs ++ q) = c :: (rest ++ q) := by
  rw [skipSpace_append_of_ne (h ▸ List.cons_ne_nil c rest), h, List.cons_append]

/-- What starts with a mark behind blanks is there, and stops a number. -/
lemma stops_of_skipSpace {cs rest : List Char} {c : Char} (h : skipSpace cs = c :: rest)
    (hc : Stops [c]) : cs ≠ [] ∧ Stops cs := by
  cases cs with
  | nil => cases h
  | cons d cs =>
    refine ⟨List.cons_ne_nil d cs, ?_⟩
    cases hd : isSpace d with
    | false =>
      rw [skipSpace_cons hd] at h
      obtain ⟨rfl, -⟩ := List.cons.inj h
      exact stops_cons (hc d rfl) cs
    | true =>
      simp only [isSpace, Bool.or_eq_true, beq_iff_eq] at hd
      rcases hd with ((rfl | rfl) | rfl) | rfl
      all_goals exact stops_cons (by decide) cs

/-! ## Strings -/

lemma hexFour?_append {cs rest : List Char} {n : Nat} (h : hexFour? cs = some (n, rest))
    (q : List Char) : hexFour? (cs ++ q) = some (n, rest ++ q) := by
  unfold hexFour? at h
  split at h
  · rename_i a b c d tail
    simp only [List.cons_append, hexFour?]
    cases ha : hexValue? a <;> cases hb : hexValue? b <;> cases hc : hexValue? c <;>
      cases hd : hexValue? d <;> simp_all
  · cases h

/-- Four digits leave what follows them. -/
lemma length_of_hexFour? {cs rest : List Char} {n : Nat} (h : hexFour? cs = some (n, rest)) :
    cs.length = rest.length + 4 := by
  unfold hexFour? at h
  split at h
  · rename_i a b c d tail
    cases ha : hexValue? a <;> cases hb : hexValue? b <;> cases hc : hexValue? c <;>
      cases hd : hexValue? d <;> simp_all
  · cases h

/-- An escape is not cut off at the end of the text. -/
def GoesOn (cs : List Char) : Prop :=
  cs ≠ ['\\'] ∧ ∀ more, cs = '\\' :: 'u' :: more → 4 < more.length

/-- Where the rest of a string can be read, no escape is cut off. -/
lemma goesOn_of_readString {mode : Mode} {start cs done : List Char} {steps : Nat}
    {read : List Char × List Char} (h : readString mode start steps cs done = .ok read) :
    GoesOn cs := by
  cases steps with
  | zero => cases h
  | succ steps =>
    constructor
    · rintro rfl
      cases h
    · rintro more rfl
      -- the digits of an escape are four, and something follows them
      by_contra hshort
      have hstop : readUnicode ('u' :: more) = .error ⟨.unicodeEscape, 'u' :: more⟩ := by
        unfold readUnicode
        dsimp only
        rw [List.drop_succ_cons, List.drop_zero]
        cases hfour : hexFour? more with
        | none => rfl
        | some found =>
          obtain ⟨n, rest⟩ := found
          have hlength := length_of_hexFour? hfour
          have hrest : rest = [] := List.length_eq_zero_iff.mp (by omega)
          subst hrest
          rfl
      rw [readString, hstop] at h
      cases h

/-- A second escape behind a text that goes on is the one that was there. -/
lemma GoesOn.of_append {cs q more : List Char} (h : GoesOn cs) (hne : cs ≠ [])
    (hcs : cs ++ q = '\\' :: 'u' :: more) : ∃ first, cs = '\\' :: 'u' :: first := by
  obtain ⟨tail, rfl, htail⟩ := head_of_append hne hcs
  have htail' : tail ≠ [] := by
    rintro rfl
    exact h.1 rfl
  obtain ⟨first, rfl, -⟩ := head_of_append htail' htail.symm
  exact ⟨first, rfl⟩

/-- Without a second escape the four digits tell the character. -/
lemma readUnicode_single {cs rest : List Char} {high : Nat}
    (hfour : hexFour? (cs.drop 1) = some (high, rest)) (hne : rest ≠ [])
    (hsingle : ∀ more, rest ≠ '\\' :: 'u' :: more) :
    readUnicode cs = .ok (charOf high, rest) := by
  unfold readUnicode
  dsimp only
  rw [hfour]
  split
  · rename_i hnone
    cases hnone
  · rename_i hnone
    exact absurd (Prod.mk.inj (Option.some.inj hnone)).2 hne
  · rename_i hsome
    obtain ⟨rfl, rfl⟩ := Prod.mk.inj (Option.some.inj hsome)
    split
    · exact absurd rfl (hsingle _)
    · rfl

lemma readUnicode_double {cs more : List Char} {high : Nat}
    (hfour : hexFour? (cs.drop 1) = some (high, '\\' :: 'u' :: more)) :
    readUnicode cs =
      if isHighSurrogate high && 4 < more.length then
        match hexFour? more with
        | none => .error ⟨.unicodeEscape, 'u' :: more⟩
        | some (low, after) =>
          if isLowSurrogate low then
            .ok (Char.ofNat (0x10000 + (high - 0xD800) * 0x400 + (low - 0xDC00)), after)
          else .ok (charOf high, '\\' :: 'u' :: more)
      else .ok (charOf high, '\\' :: 'u' :: more) := by
  unfold readUnicode
  dsimp only
  rw [hfour]
  rfl

/-- An escape is read the same if the text goes on, unless it was cut off. -/
lemma readUnicode_append {cs rest : List Char} {c : Char} (h : readUnicode cs = .ok (c, rest))
    (hrest : GoesOn rest) (q : List Char) : readUnicode (cs ++ q) = .ok (c, rest ++ q) := by
  have hdrop : (cs ++ q).drop 1 = cs.drop 1 ++ q := by
    cases cs with
    | nil => cases h
    | cons d cs => rfl
  obtain ⟨high, after, hfour, hne⟩ : ∃ high after,
      hexFour? (cs.drop 1) = some (high, after) ∧ after ≠ [] := by
    unfold readUnicode at h
    dsimp only at h
    split at h
    · cases h
    · cases h
    · rename_i high after hne hfour
      exact ⟨high, after, hfour, fun hnil => hne (by rw [hnil])⟩
  have hfour' := hexFour?_append hfour q
  rw [← hdrop] at hfour'
  by_cases hdouble : ∃ more, after = '\\' :: 'u' :: more
  · obtain ⟨more, rfl⟩ := hdouble
    rw [readUnicode_double hfour] at h
    rw [List.cons_append, List.cons_append] at hfour'
    rw [readUnicode_double hfour']
    by_cases hpair : (isHighSurrogate high && 4 < more.length) = true
    · have hpair' : (isHighSurrogate high && 4 < (more ++ q).length) = true := by
        rw [Bool.and_eq_true, decide_eq_true_eq] at hpair ⊢
        exact ⟨hpair.1, by rw [List.length_append]; omega⟩
      rw [if_pos hpair] at h
      rw [if_pos hpair']
      cases hlow : hexFour? more with
      | none =>
        rw [hlow] at h
        cases h
      | some found =>
        obtain ⟨low, after⟩ := found
        rw [hlow] at h
        rw [hexFour?_append hlow]
        dsimp only at h ⊢
        split_ifs at h ⊢ with hislow
        · obtain ⟨rfl, rfl⟩ := Prod.mk.inj (Except.ok.inj h)
          rfl
        · obtain ⟨rfl, rfl⟩ := Prod.mk.inj (Except.ok.inj h)
          rfl
    · rw [if_neg hpair] at h
      obtain ⟨rfl, rfl⟩ := Prod.mk.inj (Except.ok.inj h)
      -- a high surrogate would have been followed by too little for the rest to go on
      have hlength := hrest.2 more rfl
      have hpair' : ¬ (isHighSurrogate high && 4 < (more ++ q).length) = true := by
        rw [Bool.and_eq_true, decide_eq_true_eq] at hpair ⊢
        exact fun h => hpair ⟨h.1, hlength⟩
      rw [if_neg hpair']
      rfl
  · have hsingle : ∀ more, after ≠ '\\' :: 'u' :: more := fun more h => hdouble ⟨more, h⟩
    rw [readUnicode_single hfour hne hsingle] at h
    obtain ⟨rfl, rfl⟩ := Prod.mk.inj (Except.ok.inj h)
    have hsingle' : ∀ more, after ++ q ≠ '\\' :: 'u' :: more := by
      intro more hmore
      obtain ⟨first, hfirst⟩ := hrest.of_append hne hmore
      exact hsingle first hfirst
    exact readUnicode_single hfour' (List.append_ne_nil_of_left_ne_nil hne q) hsingle'

/-- A string is read the same if the text goes on behind its closing quote. -/
lemma readString_append {mode : Mode} {start cs done read rest : List Char} {steps steps' : Nat}
    (h : readString mode start steps cs done = .ok (read, rest)) (start' : List Char)
    (hsteps : steps ≤ steps') (q : List Char) :
    readString mode start' steps' (cs ++ q) done = .ok (read, rest ++ q) := by
  induction steps generalizing steps' cs done with
  | zero => cases h
  | succ steps ih =>
    obtain ⟨steps', rfl⟩ := Nat.exists_eq_add_of_le' (show 1 ≤ steps' by omega)
    have hsteps' : steps ≤ steps' := by omega
    unfold readString at h
    split at h
    · cases h
    · obtain ⟨rfl, rfl⟩ := Prod.mk.inj (Except.ok.inj h)
      rfl
    · -- an escape: its digits are all there, and the rest goes on
      split at h
      · cases h
      · rename_i tail
        split at h
        · cases h
        · rename_i c after hunicode
          have happend := readUnicode_append hunicode (goesOn_of_readString h) q
          rw [List.cons_append, List.cons_append, readString, ← List.cons_append, happend]
          exact ih h hsteps'
      · rename_i e tail hu
        split at h
        · cases h
        · rename_i c hescaped
          rw [List.cons_append, List.cons_append, readString, hescaped]
          · exact ih h hsteps'
          · exact hu
    · rename_i c tail hquote hslash
      split at h
      · cases h
      · rename_i hallowed
        rw [List.cons_append, readString, if_neg hallowed]
        · exact ih h hsteps'
        · exact hquote
        · exact hslash

/-! ## Numbers and names -/

section Numbers

variable {cs rest : List Char}

/-- Digits that something else follows end where they did. -/
lemma digits_append (hne : cs.dropWhile Char.isDigit ≠ []) (q : List Char) :
    (cs ++ q).takeWhile Char.isDigit = cs.takeWhile Char.isDigit ∧
      (cs ++ q).dropWhile Char.isDigit = cs.dropWhile Char.isDigit ++ q := by
  have hlength : (cs.takeWhile Char.isDigit).length ≠ cs.length := by
    have hsplit := congrArg List.length
      (List.takeWhile_append_dropWhile (p := Char.isDigit) (l := cs))
    have hpos := List.length_pos_iff.mpr hne
    rw [List.length_append] at hsplit
    omega
  rw [List.takeWhile_append, if_neg hlength, List.dropWhile_append,
    if_neg (by rw [List.isEmpty_iff]; exact hne)]
  exact ⟨rfl, rfl⟩

lemma fraction_append (hne : (fraction cs).2 ≠ []) (hpoint : ∀ tail, (fraction cs).2 ≠ '.' :: tail)
    (q : List Char) : fraction (cs ++ q) = ((fraction cs).1, (fraction cs).2 ++ q) := by
  obtain ⟨digits, after, h⟩ : ∃ digits after, fraction cs = (digits, after) := ⟨_, _, rfl⟩
  rw [h] at hne hpoint ⊢
  unfold fraction at h
  split at h
  · rename_i tail
    dsimp only at h
    split_ifs at h with hempty
    · exact absurd (Prod.mk.inj h).2.symm (hpoint tail)
    · obtain ⟨rfl, rfl⟩ := Prod.mk.inj h
      obtain ⟨htake, hdrop⟩ := digits_append hne q
      rw [List.cons_append, fraction, htake, hdrop, if_neg hempty]
  · obtain ⟨rfl, rfl⟩ := Prod.mk.inj h
    unfold fraction
    split
    · rename_i hcs
      obtain ⟨first, hfirst, -⟩ := head_of_append hne hcs
      exact absurd hfirst (hpoint first)
    · rfl

/-- The sign of an exponent, and what follows it. -/
def exponentSign : List Char → Bool × List Char
  | '-' :: rest => (true, rest)
  | '+' :: rest => (false, rest)
  | rest => (false, rest)

lemma exponent?_mark {e : Char} (he : e = 'e' ∨ e = 'E') (tail : List Char) :
    exponent? (e :: tail) =
      let (negative, digits) := exponentSign tail
      let shown := digits.takeWhile Char.isDigit
      if shown.isEmpty then (none, e :: tail)
      else
        let n : Int := Text.natOf shown
        (some (if negative then -n else n), digits.dropWhile Char.isDigit) := by
  unfold exponent? exponentSign
  exact if_pos he

lemma exponentSign_append (hne : cs ≠ []) (q : List Char) :
    exponentSign (cs ++ q) = ((exponentSign cs).1, (exponentSign cs).2 ++ q) := by
  obtain ⟨c, cs, rfl⟩ := List.exists_cons_of_ne_nil hne
  have hplain (hminus : c ≠ '-') (hplus : c ≠ '+') (tail : List Char) :
      exponentSign (c :: tail) = (false, c :: tail) := by
    rw [exponentSign]
    · exact fun rest h => hminus (List.cons.inj h).1
    · exact fun rest h => hplus (List.cons.inj h).1
  by_cases hminus : c = '-'
  · subst hminus
    rfl
  by_cases hplus : c = '+'
  · subst hplus
    rfl
  rw [List.cons_append, hplain hminus hplus, hplain hminus hplus]
  rfl

lemma exponent?_append (hne : (exponent? cs).2 ≠ []) (hstops : Stops (exponent? cs).2)
    (q : List Char) : exponent? (cs ++ q) = ((exponent? cs).1, (exponent? cs).2 ++ q) := by
  obtain ⟨power, rest, h⟩ : ∃ power rest, exponent? cs = (power, rest) := ⟨_, _, rfl⟩
  rw [h] at hne hstops ⊢
  cases cs with
  | nil => exact absurd (Prod.mk.inj h).2.symm hne
  | cons c tail =>
    by_cases hc : c = 'e' ∨ c = 'E'
    · rw [exponent?_mark hc] at h
      dsimp only at h
      split at h
      · -- a mark without digits would stand in front of the rest
        obtain ⟨-, rfl⟩ := Prod.mk.inj h
        obtain ⟨-, -, he, hE⟩ := hstops c rfl
        rcases hc with rfl | rfl
        · exact absurd rfl he
        · exact absurd rfl hE
      · rename_i hempty
        have htail : tail ≠ [] := by
          rintro rfl
          exact hempty rfl
        obtain ⟨rfl, rfl⟩ := Prod.mk.inj h
        obtain ⟨htake, hdrop⟩ := digits_append hne q
        rw [List.cons_append, exponent?_mark hc, exponentSign_append htail]
        dsimp only
        rw [htake, hdrop, if_neg hempty]
    · have hplain (tail : List Char) : exponent? (c :: tail) = (none, c :: tail) := by
        unfold exponent?
        dsimp only
        rw [if_neg hc]
      rw [hplain] at h
      obtain ⟨rfl, rfl⟩ := Prod.mk.inj h
      exact hplain _

/-- The digits in front of a number, a zero alone if it is the first. -/
def wholeDigits (cs : List Char) : List Char :=
  match cs with
  | '0' :: _ => ['0']
  | _ => cs.takeWhile Char.isDigit

/-- A number of the given parts. -/
def magnitudeOf (negative : Bool) (start whole digits : List Char) (power : Option Int)
    (rest : List Char) : Except Stop (Value × List Char) :=
  if digits.isEmpty ∧ power.isNone then
    if digitLimit < whole.length then .error ⟨.tooManyDigits whole.length, start⟩
    else
      let n : Int := Text.natOf whole
      .ok (.int (if negative then -n else n), rest)
  else
    let scale := power.getD 0 - digits.length
    .ok (.float (Double.ofDecimal negative (Text.natOf (whole ++ digits)) scale), rest)

lemma readMagnitude_eq (negative : Bool) (start cs : List Char) :
    readMagnitude negative start cs =
      if (wholeDigits cs).isEmpty then .error ⟨.value, start⟩
      else
        let pointed := fraction (cs.drop (wholeDigits cs).length)
        let raised := exponent? pointed.2
        magnitudeOf negative start (wholeDigits cs) pointed.1 raised.1 raised.2 := by
  unfold readMagnitude wholeDigits
  rfl

lemma magnitudeOf_ok {negative : Bool} {start whole digits rest after : List Char}
    {power : Option Int} {v : Value}
    (h : magnitudeOf negative start whole digits power after = .ok (v, rest)) :
    rest = after ∧ formOf v = .bare ∧ ∀ start' after',
      magnitudeOf negative start' whole digits power after' = .ok (v, after') := by
  unfold magnitudeOf at h ⊢
  split at h
  · rename_i hint
    split at h
    · cases h
    · rename_i hshort
      obtain ⟨rfl, rfl⟩ := Prod.mk.inj (Except.ok.inj h)
      refine ⟨rfl, rfl, fun start' after' => ?_⟩
      rw [if_pos hint, if_neg hshort]
  · rename_i hfloat
    obtain ⟨rfl, rfl⟩ := Prod.mk.inj (Except.ok.inj h)
    refine ⟨rfl, rfl, fun start' after' => ?_⟩
    rw [if_neg hfloat]

/-- The digits in front of a number end where they did, if something follows them. -/
lemma wholeDigits_append (hne : cs.drop (wholeDigits cs).length ≠ []) (q : List Char) :
    wholeDigits (cs ++ q) = wholeDigits cs ∧
      (cs ++ q).drop (wholeDigits cs).length = cs.drop (wholeDigits cs).length ++ q := by
  have hle : (wholeDigits cs).length ≤ cs.length := by
    by_contra hlt
    exact hne (List.drop_eq_nil_of_le (by omega))
  refine ⟨?_, List.drop_append_of_le_length hle⟩
  unfold wholeDigits at hne ⊢
  split at hne
  · rfl
  · rename_i hzero
    have hcs : cs ≠ [] := by
      rintro rfl
      exact hne rfl
    have hdrop : cs.drop (cs.takeWhile Char.isDigit).length = cs.dropWhile Char.isDigit := by
      have hsplit := List.takeWhile_append_dropWhile (p := Char.isDigit) (l := cs)
      have hleft : (cs.takeWhile Char.isDigit ++ cs.dropWhile Char.isDigit).drop
          (cs.takeWhile Char.isDigit).length = cs.dropWhile Char.isDigit := List.drop_left
      rw [hsplit] at hleft
      exact hleft
    rw [hdrop] at hne
    split
    · rename_i tail hhead
      obtain ⟨first, hfirst, -⟩ := head_of_append hcs hhead
      exact absurd hfirst (hzero first)
    · exact (digits_append hne q).1

/-- What follows a number was there before its exponent was looked for, and before its fraction. -/
lemma ne_of_exponent? (hne : (exponent? cs).2 ≠ []) (hstops : Stops (exponent? cs).2) :
    cs ≠ [] ∧ ∀ tail, cs ≠ '.' :: tail := by
  constructor
  · rintro rfl
    exact hne rfl
  · rintro tail rfl
    exact absurd rfl (hstops '.' rfl).2.1

lemma readMagnitude_append {negative : Bool} {start start' : List Char} {v : Value}
    (h : readMagnitude negative start cs = .ok (v, rest)) (hne : rest ≠ []) (hstops : Stops rest)
    (q : List Char) : readMagnitude negative start' (cs ++ q) = .ok (v, rest ++ q) := by
  rw [readMagnitude_eq] at h
  split at h
  · cases h
  rename_i hempty
  obtain ⟨rfl, -, hparts⟩ := magnitudeOf_ok h
  -- each part ends where it did, since something else follows it
  obtain ⟨hpointed, hpoint⟩ := ne_of_exponent? hne hstops
  have hwhole : cs.drop (wholeDigits cs).length ≠ [] := by
    intro hnil
    rw [hnil] at hpointed
    exact hpointed rfl
  obtain ⟨hdigits, hafter⟩ := wholeDigits_append hwhole q
  rw [readMagnitude_eq, hdigits, hafter, if_neg hempty, fraction_append hpointed hpoint q]
  dsimp only
  rw [exponent?_append hne hstops q]
  exact hparts start' _

lemma readNumber_append {v : Value} (h : readNumber cs = .ok (v, rest)) (hne : rest ≠ [])
    (hstops : Stops rest) (q : List Char) : readNumber (cs ++ q) = .ok (v, rest ++ q) := by
  unfold readNumber at h
  split at h
  · exact readMagnitude_append h hne hstops q
  · rename_i hsign
    have hcs : cs ≠ [] := by
      rintro rfl
      cases h
    unfold readNumber
    split
    · rename_i tail hhead
      obtain ⟨first, hfirst, -⟩ := head_of_append hcs hhead
      exact absurd hfirst (hsign first)
    · exact readMagnitude_append h hne hstops q

lemma startsNumber_of_readNumber {found : Value × List Char} (h : readNumber cs = .ok found) :
    StartsNumber cs := by
  have hmagnitude {negative : Bool} {start cs : List Char}
      (h : readMagnitude negative start cs = .ok found) :
      ∃ c tail, c.isDigit = true ∧ cs = c :: tail := by
    rw [readMagnitude_eq] at h
    split at h
    · cases h
    rename_i hsome
    cases cs with
    | nil => exact absurd rfl hsome
    | cons c tail =>
      refine ⟨c, tail, ?_, rfl⟩
      by_contra hc
      unfold wholeDigits at hsome
      split at hsome
      · rename_i hzero
        rw [(List.cons.inj hzero).1] at hc
        exact hc rfl
      · rw [List.takeWhile_cons_of_neg hc] at hsome
        exact hsome rfl
  unfold readNumber at h
  split at h
  · obtain ⟨c, tail, hc, rfl⟩ := hmagnitude h
    exact ⟨c, tail, hc, .inr rfl⟩
  · obtain ⟨c, tail, hc, rfl⟩ := hmagnitude h
    exact ⟨c, tail, hc, .inl rfl⟩

lemma formOf_number {v : Value} (h : readNumber cs = .ok (v, rest)) : formOf v = .bare := by
  have hmagnitude {negative : Bool} {start cs : List Char}
      (h : readMagnitude negative start cs = .ok (v, rest)) : formOf v = .bare := by
    rw [readMagnitude_eq] at h
    split at h
    · cases h
    · exact (magnitudeOf_ok h).2.1
  unfold readNumber at h
  split at h
  · exact hmagnitude h
  · exact hmagnitude h

end Numbers

/-- Of two names neither starts with the other. -/
lemma names_apart : names.Pairwise fun f g => ¬ f.1 <+: g.1 ∧ ¬ g.1 <+: f.1 := by
  unfold names
  decide

/-- A name is found the same if the text goes on, since no other name starts with it. -/
lemma readName?_append {cs rest : List Char} {v : Value} (h : readName? cs = some (v, rest))
    (q : List Char) : readName? (cs ++ q) = some (v, rest ++ q) := by
  obtain ⟨before, ⟨name, w⟩, after, hnames, hfound, hbefore⟩ := List.findSome?_eq_some_iff.mp h
  dsimp only at hfound
  split_ifs at hfound with hname
  obtain ⟨rfl, rfl⟩ := Prod.mk.inj (Option.some.inj hfound)
  rw [List.isPrefixOf_iff_prefix] at hname
  have hname' : name <+: cs ++ q := hname.trans (List.prefix_append cs q)
  refine List.findSome?_eq_some_iff.mpr ⟨before, (name, w), after, hnames, ?_, ?_⟩
  · dsimp only
    rw [if_pos (List.isPrefixOf_iff_prefix.mpr hname'),
      List.drop_append_of_le_length hname.length_le]
  · intro g hg
    have hapart := names_apart
    rw [hnames, List.pairwise_append] at hapart
    obtain ⟨hgname, hnameg⟩ := hapart.2.2 g hg (name, w) List.mem_cons_self
    apply if_neg
    intro hother
    rw [List.isPrefixOf_iff_prefix] at hother
    exact (List.prefix_or_prefix_of_prefix hother hname').elim hgname hnameg

/-! ## Values -/

section Values

variable {mode : Mode} {steps : Nat}

/-- A value that was read is read the same if the text goes on behind it, and with more steps. A
number may only have gone on where something else already stood. -/
def KeepsValue (mode : Mode) (steps : Nat) : Prop :=
  ∀ cs v rest, readValue mode steps cs = .ok (v, rest) →
    (formOf v = .bare → rest ≠ [] ∧ Stops rest) → ∀ steps' ≥ steps, ∀ q,
      readValue mode steps' (cs ++ q) = .ok (v, rest ++ q)

/-- So are the items of a list. -/
def KeepsItems (mode : Mode) (steps : Nat) : Prop :=
  ∀ cs done v rest, readItems mode steps cs done = .ok (v, rest) → ∀ steps' ≥ steps, ∀ q,
    readItems mode steps' (cs ++ q) done = .ok (v, rest ++ q)

/-- So are the fields of an object. -/
def KeepsFields (mode : Mode) (steps : Nat) : Prop :=
  ∀ cs done v rest, readFields mode steps cs done = .ok (v, rest) → ∀ steps' ≥ steps, ∀ q,
    readFields mode steps' (cs ++ q) done = .ok (v, rest ++ q)

lemma readValue_ne_nil {cs : List Char} {found : Value × List Char}
    (h : readValue mode steps cs = .ok found) : cs ≠ [] := by
  rintro rfl
  cases steps <;> cases h

lemma readItems_ne_nil {cs : List Char} {done : List Value} {found : Value × List Char}
    (h : readItems mode steps cs done = .ok found) : cs ≠ [] := by
  rintro rfl
  cases steps with
  | zero => cases h
  | succ steps =>
    rw [readItems] at h
    split at h
    · cases h
    · rename_i hread
      exact readValue_ne_nil hread rfl

lemma readFields_ne_nil {cs : List Char} {done : List (String × Value)} {found : Value × List Char}
    (h : readFields mode steps cs done = .ok found) : cs ≠ [] := by
  rintro rfl
  cases steps <;> cases h

lemma keepsItems_succ (hvalue : KeepsValue mode steps) (hitems : KeepsItems mode steps) :
    KeepsItems mode (steps + 1) := by
  intro cs done v rest h steps' hsteps q
  obtain ⟨steps', rfl⟩ := Nat.exists_eq_add_of_le' (show 1 ≤ steps' by omega)
  rw [readItems] at h
  split at h
  · cases h
  rename_i w after hread
  have hfound (hafter : after ≠ [] ∧ Stops after) :=
    hvalue cs w after hread (fun _ => hafter) steps' (by omega) q
  split at h
  · rename_i tail hspace
    obtain ⟨rfl, rfl⟩ := Prod.mk.inj (Except.ok.inj h)
    rw [readItems, hfound (stops_of_skipSpace hspace (stops_cons (by decide) []))]
    dsimp only
    rw [skipSpace_append_of_cons hspace]
    rfl
  · rename_i tail hspace
    rw [readItems, hfound (stops_of_skipSpace hspace (stops_cons (by decide) []))]
    dsimp only
    rw [skipSpace_append_of_cons hspace]
    show readItems mode steps' (skipSpace (tail ++ q)) (w :: done) = _
    rw [skipSpace_append_of_ne (readItems_ne_nil h)]
    exact hitems _ _ v rest h steps' (by omega) q
  · cases h

lemma keepsFields_succ (hvalue : KeepsValue mode steps) (hfields : KeepsFields mode steps) :
    KeepsFields mode (steps + 1) := by
  intro cs done v rest h steps' hsteps q
  obtain ⟨steps', rfl⟩ := Nat.exists_eq_add_of_le' (show 1 ≤ steps' by omega)
  unfold readFields at h
  split at h
  swap
  · cases h
  rename_i tail
  split at h
  · cases h
  rename_i key afterKey hkey
  split at h
  swap
  · cases h
  rename_i afterColon hcolon
  split at h
  · cases h
  rename_i w after hread
  have hkey' := readString_append hkey ('"' :: (tail ++ q))
    (show tail.length + 1 ≤ (tail ++ q).length + 1 by rw [List.length_append]; omega) q
  have hcolon' := skipSpace_append_of_cons hcolon q
  have hfound (hafter : after ≠ [] ∧ Stops after) :
      readValue mode steps' (skipSpace (afterColon ++ q)) = .ok (w, after ++ q) := by
    rw [skipSpace_append_of_ne (readValue_ne_nil hread)]
    exact hvalue _ w after hread (fun _ => hafter) steps' (by omega) q
  dsimp only at h
  split at h
  · rename_i closed hspace
    obtain ⟨rfl, rfl⟩ := Prod.mk.inj (Except.ok.inj h)
    have hafter := hfound (stops_of_skipSpace hspace (stops_cons (by decide) []))
    have hspace' := skipSpace_append_of_cons hspace q
    rw [List.cons_append, readFields, hkey']
    simp only [hcolon', hafter, hspace']
  · rename_i others hspace
    have hafter := hfound (stops_of_skipSpace hspace (stops_cons (by decide) []))
    have hspace' := skipSpace_append_of_cons hspace q
    rw [List.cons_append, readFields, hkey']
    simp only [hcolon', hafter, hspace']
    rw [skipSpace_append_of_ne (readFields_ne_nil h)]
    exact hfields _ _ v rest h steps' (by omega) q
  · cases h

lemma keepsValue_succ (hitems : KeepsItems mode steps) (hfields : KeepsFields mode steps) :
    KeepsValue mode (steps + 1) := by
  intro cs v rest h hbare steps' hsteps q
  obtain ⟨steps', rfl⟩ := Nat.exists_eq_add_of_le' (show 1 ≤ steps' by omega)
  unfold readValue at h
  split at h
  · rename_i tail
    split at h
    · cases h
    · rename_i s after hread
      obtain ⟨rfl, rfl⟩ := Prod.mk.inj (Except.ok.inj h)
      have hread' := readString_append hread ('"' :: (tail ++ q))
        (show tail.length + 1 ≤ (tail ++ q).length + 1 by rw [List.length_append]; omega) q
      rw [List.cons_append, readValue, hread']
  · rename_i tail
    split at h
    · rename_i after hspace
      obtain ⟨rfl, rfl⟩ := Prod.mk.inj (Except.ok.inj h)
      rw [List.cons_append, readValue, skipSpace_append_of_cons hspace]
      rfl
    · rename_i hopen
      rw [List.cons_append, readValue, skipSpace_append_of_ne (readFields_ne_nil h)]
      split
      · rename_i hclosed
        obtain ⟨first, hfirst, -⟩ := head_of_append (readFields_ne_nil h) hclosed
        exact absurd hfirst (hopen first)
      · exact hfields _ _ v rest h steps' (by omega) q
  · rename_i tail
    split at h
    · rename_i after hspace
      obtain ⟨rfl, rfl⟩ := Prod.mk.inj (Except.ok.inj h)
      rw [List.cons_append, readValue, skipSpace_append_of_cons hspace]
      rfl
    · rename_i hopen
      rw [List.cons_append, readValue, skipSpace_append_of_ne (readItems_ne_nil h)]
      split
      · rename_i hclosed
        obtain ⟨first, hfirst, -⟩ := head_of_append (readItems_ne_nil h) hclosed
        exact absurd hfirst (hopen first)
      · exact hitems _ _ v rest h steps' (by omega) q
  · rename_i hquote hbrace hbracket
    have hcs : cs ≠ [] := by
      rintro rfl
      cases h
    have hother {c : Char} (hother : ∀ tail, cs = c :: tail → False) (tail : List Char)
        (h : cs ++ q = c :: tail) : False := by
      obtain ⟨first, hfirst, -⟩ := head_of_append hcs h
      exact hother first hfirst
    rw [readValue_other mode steps' (hother hquote) (hother hbrace) (hother hbracket), readBare]
    split at h
    · rename_i found hname
      obtain rfl := Except.ok.inj h
      rw [readName?_append hname]
    · have hstart := startsNumber_of_readNumber h
      obtain ⟨hne, hstops⟩ := hbare (formOf_number h)
      rw [(hstart.append q).readName?]
      exact readNumber_append h hne hstops q

/-- What holds for one more step holds for every number of steps. -/
lemma keeps (mode : Mode) (steps : Nat) :
    KeepsValue mode steps ∧ KeepsItems mode steps ∧ KeepsFields mode steps := by
  induction steps with
  | zero =>
    refine ⟨?_, ?_, ?_⟩
    · intro cs v rest h
      cases h
    · intro cs done v rest h
      cases h
    · intro cs done v rest h
      cases h
  | succ steps ih =>
    obtain ⟨hvalue, hitems, hfields⟩ := ih
    exact ⟨keepsValue_succ hitems hfields, keepsItems_succ hvalue hitems,
      keepsFields_succ hvalue hfields⟩

/-- A value that was read is read the same if the text goes on behind it. -/
theorem readValue_append {cs rest : List Char} {v : Value}
    (h : readValue mode steps cs = .ok (v, rest))
    (hbare : formOf v = .bare → rest ≠ [] ∧ Stops rest) {steps' : Nat} (hsteps : steps ≤ steps')
    (q : List Char) : readValue mode steps' (cs ++ q) = .ok (v, rest ++ q) :=
  (keeps mode steps).1 cs v rest h hbare steps' hsteps q

/-- The value of a whole text stands behind blanks, and only blanks stand behind it. -/
lemma readValue_of_read {s : String} {v : Value} (h : read mode s = .ok v) :
    ∃ rest, readValue mode (2 * s.toList.length + 2) (skipSpace s.toList) = .ok (v, rest) ∧
      skipSpace rest = [] := by
  have hchars : readChars mode s.toList = .ok v := by
    unfold read at h
    dsimp only at h
    split at h
    · cases h
    · split at h
      · rename_i w hread
        obtain rfl := Except.ok.inj h
        exact hread
      · cases h
  unfold readChars at hchars
  split at hchars
  · cases hchars
  · rename_i w rest hread
    split at hchars
    · rename_i hspace
      obtain rfl := Except.ok.inj hchars
      exact ⟨rest, hread, hspace⟩
    · cases hchars

/-- The text of a document does not start with another text of a list or an object. -/
theorem eq_of_read_prefix {m : Marks} (hm : m.Readable) {v w : Value} (hv : v.IsDocument)
    (hshort : ∀ u ∈ v.leaves, Value.isLong u = false) {s : String}
    (hstart : s.toList <+: (write m v).toList) (h : read mode s = .ok w)
    (hw : formOf w ≠ .bare) : s = write m v := by
  obtain ⟨rest, hread, -⟩ := readValue_of_read h
  obtain ⟨q, hq⟩ := hstart
  have hspace : skipSpace s.toList = s.toList := by
    have hne := readValue_ne_nil hread
    have htext := skipSpace_write (m := m) hv []
    rw [List.append_nil, ← hq, skipSpace_append_of_ne hne] at htext
    exact List.append_cancel_right htext
  rw [hspace] at hread
  -- with enough steps for both, the text would be read as both values
  have hlength : (write m v).toList.length = s.toList.length + q.length := by
    rw [← hq, List.length_append]
  have happend := readValue_append hread (fun hbare => absurd hbare hw)
    (show 2 * s.toList.length + 2 ≤ 2 * (write m v).toList.length + 2 by omega) q
  have hwrite := readValue_write mode hm hv hshort (2 * (write m v).toList.length + 2) []
    (by omega) (fun c hc => by simp at hc)
  rw [List.append_nil, ← hq] at hwrite
  rw [hq] at happend hwrite
  rw [hwrite] at happend
  obtain ⟨-, hrest⟩ := Prod.mk.inj (Except.ok.inj happend)
  obtain ⟨-, hq'⟩ := List.append_eq_nil_iff.mp hrest.symm
  rw [hq', List.append_nil] at hq
  exact String.toList_inj.mp hq

end Values

end SolidityAudit.Json
