import SolidityAudit.Proofs.Json.Prefix

/-!
# What the mode of a reader changes

The mode decides whether control characters may stand inside strings. So a strict reader does what
a lenient one does, unless it stops at such a character (`read_strict_cases`), and what it reads the
lenient one reads as well (`read_lenient_of_strict`). What begins with a brace reads as an object,
in either mode, if it reads at all (`exists_object_of_read`).
-/

namespace SolidityAudit.Json

/-- The strict result is the lenient one, unless it is a stop at a control character. Neither stops
because a value is no object: that is for those to say who ask for one. -/
structure Agree {α : Type} (strict lenient : Except Stop α) : Prop where
  same : strict = lenient ∨ ∃ rest, strict = .error ⟨.controlCharacter, rest⟩
  reason : ∀ stop, lenient = .error stop → stop.reason ≠ .notObject

namespace Agree

variable {α β : Type} {strict lenient : Except Stop α}

lemma ok (a : α) : Agree (.ok a) (.ok a) where
  same := .inl rfl
  reason := fun stop h => by cases h

lemma stop {r : Reason} (hr : r ≠ .notObject) (rest : List Char) :
    Agree (.error ⟨r, rest⟩ : Except Stop α) (.error ⟨r, rest⟩) where
  same := .inl rfl
  reason := by
    rintro stop h
    obtain rfl := Except.error.inj h
    exact hr

/-- Readers agree one after the other. -/
lemma bind {f g : α → Except Stop β} (h : Agree strict lenient) (hnext : ∀ a, Agree (f a) (g a)) :
    Agree (strict >>= f) (lenient >>= g) where
  same := by
    rcases h.same with rfl | ⟨rest, rfl⟩
    · cases strict with
      | error stop => exact .inl rfl
      | ok a => exact (hnext a).same
    · exact .inr ⟨rest, rfl⟩
  reason := by
    intro stop hstop
    cases hlenient : lenient with
    | error first =>
      rw [hlenient] at hstop
      obtain rfl := Except.error.inj hstop
      exact h.reason first hlenient
    | ok a =>
      rw [hlenient] at hstop
      exact (hnext a).reason stop hstop

end Agree

/-! ## Strings and numbers -/

lemma readUnicode_agree (cs : List Char) : Agree (readUnicode cs) (readUnicode cs) := by
  unfold readUnicode
  dsimp only
  split
  · exact .stop (by decide) _
  · exact .stop (by decide) _
  · split
    · split
      · split
        · exact .stop (by decide) _
        · split
          · exact .ok _
          · exact .ok _
      · exact .ok _
    · exact .ok _

section Strings

variable {mode : Mode} {start rest done : List Char} {steps : Nat} {c : Char}

lemma readString_unicode : readString mode start (steps + 1) ('\\' :: 'u' :: rest) done =
    (readUnicode ('u' :: rest) >>= fun found =>
      readString mode start steps found.2 (found.1 :: done)) := by
  rw [readString]
  cases readUnicode ('u' :: rest) with
  | error stop => rfl
  | ok found => rfl

lemma readString_letter (hquote : c ≠ '"') (hslash : c ≠ '\\') :
    readString mode start (steps + 1) (c :: rest) done =
      if mode = .strict ∧ c.toNat < 0x20 then .error ⟨.controlCharacter, c :: rest⟩
      else readString mode start steps rest (c :: done) := by
  rw [readString]
  · exact hquote
  · exact hslash

/-- A lenient reader takes the characters that a strict one takes, and control characters. -/
lemma readString_agree (start : List Char) (steps : Nat) (cs done : List Char) :
    Agree (readString .strict start steps cs done) (readString .lenient start steps cs done) := by
  induction steps generalizing cs done with
  | zero => exact .stop (by decide) _
  | succ steps ih =>
    cases cs with
    | nil => exact .stop (by decide) _
    | cons c rest =>
      by_cases hquote : c = '"'
      · subst hquote
        exact .ok _
      by_cases hslash : c = '\\'
      · subst hslash
        cases rest with
        | nil => exact .stop (by decide) _
        | cons e rest =>
          by_cases hu : e = 'u'
          · subst hu
            rw [readString_unicode, readString_unicode]
            exact (readUnicode_agree _).bind fun found => ih found.2 (found.1 :: done)
          · rw [readString, readString]
            · split
              · exact .stop (by decide) _
              · exact ih rest _
            · exact hu
            · exact hu
      · rw [readString_letter hquote hslash, readString_letter hquote hslash]
        rw [if_neg (show ¬ (Mode.lenient = .strict ∧ c.toNat < 0x20) by simp)]
        split
        · exact ⟨.inr ⟨_, rfl⟩, (ih rest (c :: done)).reason⟩
        · exact ih rest (c :: done)

end Strings

lemma readMagnitude_agree (negative : Bool) (start cs : List Char) :
    Agree (readMagnitude negative start cs) (readMagnitude negative start cs) := by
  rw [readMagnitude_eq]
  split
  · exact .stop (by decide) _
  · dsimp only
    unfold magnitudeOf
    split
    · split
      · exact .stop (fun h => by cases h) _
      · exact .ok _
    · exact .ok _

/-- Names and numbers do not depend on the mode. -/
lemma readBare_agree (cs : List Char) : Agree (readBare cs) (readBare cs) := by
  unfold readBare readNumber
  split
  · exact .ok _
  · split
    · exact readMagnitude_agree _ _ _
    · exact readMagnitude_agree _ _ _

/-! ## Values -/

section Values

variable {mode : Mode} {steps : Nat}

/-- What follows an item: the end of the list, or more items. -/
def afterItem (mode : Mode) (steps : Nat) (done : List Value) (v : Value) (rest : List Char) :
    Except Stop (Value × List Char) :=
  match skipSpace rest with
  | ']' :: after => .ok (.list (v :: done).reverse, after)
  | ',' :: after => readItems mode steps (skipSpace after) (v :: done)
  | other => .error ⟨.comma, other⟩

/-- What follows the value of a field: the end of the object, or more fields. -/
def afterValue (mode : Mode) (steps : Nat) (fields : List (String × Value)) (rest : List Char) :
    Except Stop (Value × List Char) :=
  match skipSpace rest with
  | '\x7d' :: after => .ok (.object fields, after)
  | ',' :: after => readFields mode steps (skipSpace after) fields
  | other => .error ⟨.comma, other⟩

/-- What follows the key of a field: its value, and what follows that. -/
def afterKey (mode : Mode) (steps : Nat) (done : List (String × Value)) (key : String)
    (rest : List Char) : Except Stop (Value × List Char) :=
  match skipSpace rest with
  | ':' :: after =>
    match readValue mode steps (skipSpace after) with
    | .error stop => .error stop
    | .ok (v, rest) => afterValue mode steps (setField key v done) rest
  | other => .error ⟨.colon, other⟩

lemma afterKey_colon {rest after : List Char} (h : skipSpace rest = ':' :: after)
    (done : List (String × Value)) (key : String) :
    afterKey mode steps done key rest =
      (readValue mode steps (skipSpace after) >>= fun found =>
        afterValue mode steps (setField key found.1 done) found.2) := by
  simp only [afterKey, h]
  cases readValue mode steps (skipSpace after) with
  | error stop => rfl
  | ok found => rfl

lemma afterKey_other {rest : List Char} (h : ¬ ∃ after, skipSpace rest = ':' :: after)
    (done : List (String × Value)) (key : String) :
    afterKey mode steps done key rest = .error ⟨.colon, skipSpace rest⟩ := by
  unfold afterKey
  split
  · rename_i after hcolon
    exact absurd ⟨after, hcolon⟩ h
  · rfl

lemma readItems_succ (cs : List Char) (done : List Value) :
    readItems mode (steps + 1) cs done =
      (readValue mode steps cs >>= fun found => afterItem mode steps done found.1 found.2) := by
  rw [readItems]
  cases readValue mode steps cs with
  | error stop => rfl
  | ok found => rfl

lemma readFields_quote (rest : List Char) (done : List (String × Value)) :
    readFields mode (steps + 1) ('"' :: rest) done =
      (readString mode ('"' :: rest) (rest.length + 1) rest [] >>= fun found =>
        afterKey mode steps done (String.ofList found.1) found.2) := by
  rw [readFields]
  cases readString mode ('"' :: rest) (rest.length + 1) rest [] with
  | error stop => rfl
  | ok found => rfl

lemma readValue_quote (rest : List Char) : readValue mode (steps + 1) ('"' :: rest) =
    (readString mode ('"' :: rest) (rest.length + 1) rest [] >>= fun found =>
      .ok (.str (String.ofList found.1), found.2)) := by
  rw [readValue]
  cases readString mode ('"' :: rest) (rest.length + 1) rest [] with
  | error stop => rfl
  | ok found => rfl

/-- The strict and the lenient reader agree on values, items and fields. -/
def ModesAgree (steps : Nat) : Prop :=
  (∀ cs, Agree (readValue .strict steps cs) (readValue .lenient steps cs)) ∧
  (∀ cs done, Agree (readItems .strict steps cs done) (readItems .lenient steps cs done)) ∧
  (∀ cs done, Agree (readFields .strict steps cs done) (readFields .lenient steps cs done))

lemma readValue_agree_succ (h : ModesAgree steps) (cs : List Char) :
    Agree (readValue .strict (steps + 1) cs) (readValue .lenient (steps + 1) cs) := by
  obtain ⟨-, hitems, hfields⟩ := h
  by_cases hquote : ∃ rest, cs = '"' :: rest
  · obtain ⟨rest, rfl⟩ := hquote
    rw [readValue_quote, readValue_quote]
    exact (readString_agree _ _ _ _).bind fun found => .ok _
  by_cases hbrace : ∃ rest, cs = '\x7b' :: rest
  · obtain ⟨rest, rfl⟩ := hbrace
    rw [readValue, readValue]
    split
    · exact .ok _
    · exact hfields _ _
  by_cases hbracket : ∃ rest, cs = '[' :: rest
  · obtain ⟨rest, rfl⟩ := hbracket
    rw [readValue, readValue]
    split
    · exact .ok _
    · exact hitems _ _
  have hother {c : Char} (h : ¬ ∃ rest, cs = c :: rest) (rest : List Char) (hcs : cs = c :: rest) :
      False := h ⟨rest, hcs⟩
  rw [readValue_other .strict steps (hother hquote) (hother hbrace) (hother hbracket),
    readValue_other .lenient steps (hother hquote) (hother hbrace) (hother hbracket)]
  exact readBare_agree cs

lemma readItems_agree_succ (h : ModesAgree steps) (cs : List Char) (done : List Value) :
    Agree (readItems .strict (steps + 1) cs done) (readItems .lenient (steps + 1) cs done) := by
  obtain ⟨hvalue, hitems, -⟩ := h
  rw [readItems_succ, readItems_succ]
  refine (hvalue cs).bind fun found => ?_
  unfold afterItem
  split
  · exact .ok _
  · exact hitems _ _
  · exact .stop (by decide) _

lemma readFields_agree_succ (h : ModesAgree steps) (cs : List Char)
    (done : List (String × Value)) :
    Agree (readFields .strict (steps + 1) cs done) (readFields .lenient (steps + 1) cs done) := by
  obtain ⟨hvalue, -, hfields⟩ := h
  by_cases hquote : ∃ rest, cs = '"' :: rest
  · obtain ⟨rest, rfl⟩ := hquote
    rw [readFields_quote, readFields_quote]
    refine (readString_agree _ _ _ _).bind fun key => ?_
    by_cases hcolon : ∃ after, skipSpace key.2 = ':' :: after
    · obtain ⟨after, hafter⟩ := hcolon
      rw [afterKey_colon hafter, afterKey_colon hafter]
      refine (hvalue _).bind fun found => ?_
      unfold afterValue
      split
      · exact .ok _
      · exact hfields _ _
      · exact .stop (by decide) _
    · rw [afterKey_other hcolon, afterKey_other hcolon]
      exact .stop (by decide) _
  · rw [readFields, readFields]
    · exact .stop (by decide) _
    · exact fun rest hcs => hquote ⟨rest, hcs⟩
    · exact fun rest hcs => hquote ⟨rest, hcs⟩

/-- What holds for one more step holds for every number of steps. -/
lemma modesAgree (steps : Nat) : ModesAgree steps := by
  induction steps with
  | zero =>
    refine ⟨fun cs => ?_, fun cs done => ?_, fun cs done => ?_⟩
    · exact .stop (by decide) cs
    · exact .stop (by decide) cs
    · exact .stop (by decide) cs
  | succ steps ih =>
    exact ⟨readValue_agree_succ ih, readItems_agree_succ ih, readFields_agree_succ ih⟩

/-- Fields read as an object. -/
lemma exists_object_of_readFields {cs rest : List Char} {done : List (String × Value)} {v : Value}
    (h : readFields mode steps cs done = .ok (v, rest)) : ∃ fields, v = .object fields := by
  induction steps generalizing cs done with
  | zero => cases h
  | succ steps ih =>
    unfold readFields at h
    split at h
    swap
    · cases h
    split at h
    · cases h
    split at h
    swap
    · cases h
    split at h
    · cases h
    dsimp only at h
    split at h
    · exact ⟨_, (Prod.mk.inj (Except.ok.inj h)).1.symm⟩
    · exact ih h
    · cases h

end Values

/-! ## Texts -/

section Texts

variable {mode : Mode} {s : String} {v : Value}

/-- What follows the one value of a text: nothing but blanks. -/
def atEnd (v : Value) (rest : List Char) : Except Stop Value :=
  if skipSpace rest = [] then .ok v else .error ⟨.extra, skipSpace rest⟩

lemma readChars_eq (cs : List Char) : readChars mode cs =
    (readValue mode (2 * cs.length + 2) (skipSpace cs) >>= fun found =>
      atEnd found.1 found.2) := by
  rw [readChars]
  cases readValue mode (2 * cs.length + 2) (skipSpace cs) with
  | error stop => rfl
  | ok found =>
    obtain ⟨v, rest⟩ := found
    show _ = atEnd v rest
    unfold atEnd
    dsimp only
    cases skipSpace rest with
    | nil => rfl
    | cons c rest => rfl

lemma readChars_agree (cs : List Char) : Agree (readChars .strict cs) (readChars .lenient cs) := by
  rw [readChars_eq, readChars_eq]
  refine ((modesAgree _).1 _).bind fun found => ?_
  unfold atEnd
  split
  · exact .ok _
  · exact .stop (by decide) _

/-- The strict reader does what the lenient one does, unless it stops at a control character. -/
theorem read_strict_cases (s : String) :
    read .strict s = read .lenient s ∨
      ∃ e, read .strict s = .error e ∧ e.reason = .controlCharacter := by
  unfold read
  dsimp only
  split
  · exact .inl rfl
  · rcases (readChars_agree s.toList).same with hsame | ⟨rest, hstop⟩
    · rw [hsame]
      exact .inl rfl
    · rw [hstop]
      exact .inr ⟨_, rfl, rfl⟩

/-- What the strict reader reads the lenient one reads as well. -/
lemma read_lenient_of_strict (h : read .strict s = .ok v) : read .lenient s = .ok v := by
  rcases read_strict_cases s with hsame | ⟨e, hstop, -⟩
  · rw [← hsame, h]
  · rw [hstop] at h
    cases h

/-- A reader never says that a value is no object. -/
lemma reason_of_read {e : ReadError} (h : read .lenient s = .error e) : e.reason ≠ .notObject := by
  unfold read at h
  dsimp only at h
  split at h
  · obtain rfl := Except.error.inj h
    exact fun h => by cases h
  · split at h
    · cases h
    · rename_i stop hstop
      obtain rfl := Except.error.inj h
      exact (readChars_agree s.toList).reason stop hstop

/-- What begins with a brace reads as an object. -/
lemma exists_object_of_read {tail : List Char} (hs : s.toList = '\x7b' :: tail)
    (h : read mode s = .ok v) : ∃ fields, v = .object fields := by
  obtain ⟨rest, hread, -⟩ := readValue_of_read h
  rw [hs, skipSpace_cons (by decide), readValue] at hread
  split at hread
  · exact ⟨[], (Prod.mk.inj (Except.ok.inj hread)).1.symm⟩
  · exact exists_object_of_readFields hread

end Texts

end SolidityAudit.Json
