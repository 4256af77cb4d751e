import SolidityAudit.Proofs.Json.Mode

/-!
# What is read can be written

A reader takes no integer with more digits than are written, so a value that has been read can be
written again in every layout (`hasLong_of_read`). The induction is on the steps of the reader; the
items and fields that are done carry the property along.
-/

namespace SolidityAudit.Json

/-- What has been read can be written. -/
def Writable (outcome : Except Stop (Value × List Char)) : Prop :=
  ∀ found, outcome = .ok found → found.1.hasLong = false

lemma Writable.ok {v : Value} (h : v.hasLong = false) (rest : List Char) :
    Writable (.ok (v, rest)) := by
  rintro _ ⟨⟩
  exact h

lemma Writable.error (stop : Stop) : Writable (.error stop) := by
  rintro _ ⟨⟩

lemma Writable.bind {α : Type} {first : Except Stop α} {next : α → Except Stop (Value × List Char)}
    (h : ∀ a, first = .ok a → Writable (next a)) : Writable (first >>= next) := by
  cases first with
  | error stop => exact .error stop
  | ok a => exact h a rfl

/-! ## Numbers -/

/-- Digits from a number on add no more than their places. -/
lemma foldl_digits_lt {cs : List Char} (h : ∀ c ∈ cs, c.isDigit = true) (n : ℕ) :
    cs.foldl (fun n c => n * 10 + (c.toNat - '0'.toNat)) n < (n + 1) * 10 ^ cs.length := by
  induction cs generalizing n with
  | nil => simp
  | cons c cs ih =>
    have hdigit : c.toNat - '0'.toNat < 10 := by
      have hc := h c (by simp)
      rw [Char.isDigit, Bool.and_eq_true, decide_eq_true_eq, decide_eq_true_eq] at hc
      have hle : c.toNat ≤ '9'.toNat := hc.2
      have hnine : '9'.toNat = '0'.toNat + 9 := rfl
      omega
    rw [List.foldl_cons, List.length_cons, Nat.pow_succ, Nat.mul_comm (10 ^ cs.length),
      ← Nat.mul_assoc]
    refine (ih (fun d hd => h d (by simp [hd])) _).trans_le (Nat.mul_le_mul_right _ ?_)
    omega

lemma natOf_lt {cs : List Char} (h : ∀ c ∈ cs, c.isDigit = true) :
    Text.natOf cs < 10 ^ cs.length := by
  have hlt := foldl_digits_lt h 0
  rwa [Nat.zero_add, Nat.one_mul] at hlt

lemma isDigit_of_wholeDigits {cs : List Char} : ∀ c ∈ wholeDigits cs, c.isDigit = true := by
  unfold wholeDigits
  split
  · simp
  · exact List.all_eq_true.mp List.all_takeWhile

lemma writable_magnitudeOf {negative : Bool} {start whole digits rest : List Char}
    {power : Option Int} (h : ∀ c ∈ whole, c.isDigit = true) :
    Writable (magnitudeOf negative start whole digits power rest) := by
  unfold magnitudeOf
  split
  · split
    · exact .error _
    · next hshort =>
      refine .ok ?_ rest
      rw [← Bool.not_eq_true, Value.hasLong_int, Nat.not_le]
      have hsign (n : ℕ) : (if negative = true then -(n : ℤ) else n).natAbs = n := by
        split <;> simp
      rw [hsign]
      exact (natOf_lt h).trans_le (Nat.pow_le_pow_right (by decide) (Nat.not_lt.mp hshort))
  · exact .ok rfl rest

lemma writable_readMagnitude (negative : Bool) (start cs : List Char) :
    Writable (readMagnitude negative start cs) := by
  rw [readMagnitude_eq]
  split
  · exact .error _
  · exact writable_magnitudeOf isDigit_of_wholeDigits

lemma writable_readBare (cs : List Char) : Writable (readBare cs) := by
  unfold readBare
  split
  · next found hname =>
    -- no name stands for an integer
    obtain ⟨⟨name, v⟩, hmem, hfound⟩ := List.exists_of_findSome?_eq_some hname
    have hnames : ∀ f ∈ names, f.2.hasLong = false := by decide
    dsimp only at hfound
    split at hfound
    · obtain rfl := Option.some.inj hfound
      exact .ok (hnames _ hmem) _
    · cases hfound
  · unfold readNumber
    split
    · exact writable_readMagnitude _ _ _
    · exact writable_readMagnitude _ _ _

/-! ## Values -/

section Values

variable {mode : Mode} {steps : ℕ}

lemma hasLong_setField {key : String} {v : Value} {fields : List (String × Value)}
    (hv : v.hasLong = false) (h : (Value.object fields).hasLong = false) :
    (Value.object (setField key v fields)).hasLong = false := by
  induction fields with
  | nil => simpa [setField] using hv
  | cons f rest ih =>
    rw [Value.hasLong_object, List.any_cons, Bool.or_eq_false_iff] at h
    have hrest : (Value.object rest).hasLong = false := by rw [Value.hasLong_object, h.2]
    rw [setField, Value.hasLong_object]
    split
    · rw [List.any_cons, Bool.or_eq_false_iff]
      exact ⟨hv, h.2⟩
    · rw [List.any_cons, Bool.or_eq_false_iff, ← Value.hasLong_object]
      exact ⟨h.1, ih hrest⟩

/-- Values, items and fields that are read in so many steps can be written, if what is done can. -/
def ReadsWritable (mode : Mode) (steps : ℕ) : Prop :=
  (∀ cs, Writable (readValue mode steps cs)) ∧
  (∀ cs done, (Value.list done).hasLong = false → Writable (readItems mode steps cs done)) ∧
  (∀ cs done, (Value.object done).hasLong = false → Writable (readFields mode steps cs done))

lemma writable_readValue_succ (h : ReadsWritable mode steps) (cs : List Char) :
    Writable (readValue mode (steps + 1) cs) := by
  obtain ⟨-, hitems, hfields⟩ := h
  by_cases hquote : ∃ rest, cs = '"' :: rest
  · obtain ⟨rest, rfl⟩ := hquote
    rw [readValue_quote]
    exact .bind fun found _ => .ok rfl _
  by_cases hbrace : ∃ rest, cs = '\x7b' :: rest
  · obtain ⟨rest, rfl⟩ := hbrace
    rw [readValue]
    split
    · exact .ok rfl _
    · exact hfields _ _ rfl
  by_cases hbracket : ∃ rest, cs = '[' :: rest
  · obtain ⟨rest, rfl⟩ := hbracket
    rw [readValue]
    split
    · exact .ok rfl _
    · exact hitems _ _ rfl
  have hother {c : Char} (h : ¬ ∃ rest, cs = c :: rest) (rest : List Char) (hcs : cs = c :: rest) :
      False := h ⟨rest, hcs⟩
  rw [readValue_other mode steps (hother hquote) (hother hbrace) (hother hbracket)]
  exact writable_readBare cs

lemma writable_readItems_succ (h : ReadsWritable mode steps) (cs : List Char) (done : List Value)
    (hdone : (Value.list done).hasLong = false) :
    Writable (readItems mode (steps + 1) cs done) := by
  obtain ⟨hvalue, hitems, -⟩ := h
  rw [readItems_succ]
  refine .bind fun found hfound => ?_
  have hmore : (Value.list (found.1 :: done)).hasLong = false := by
    rw [Value.hasLong_list, List.any_cons, hvalue cs found hfound, ← Value.hasLong_list, hdone]
    rfl
  unfold afterItem
  split
  · refine .ok ?_ _
    rw [Value.hasLong_list, List.any_reverse, ← Value.hasLong_list, hmore]
  · exact hitems _ _ hmore
  · exact .error _

lemma writable_readFields_succ (h : ReadsWritable mode steps) (cs : List Char)
    (done : List (String × Value)) (hdone : (Value.object done).hasLong = false) :
    Writable (readFields mode (steps + 1) cs done) := by
  obtain ⟨hvalue, -, hfields⟩ := h
  by_cases hquote : ∃ rest, cs = '"' :: rest
  · obtain ⟨rest, rfl⟩ := hquote
    rw [readFields_quote]
    refine .bind fun key _ => ?_
    by_cases hcolon : ∃ after, skipSpace key.2 = ':' :: after
    · obtain ⟨after, hafter⟩ := hcolon
      rw [afterKey_colon hafter]
      refine .bind fun found hfound => ?_
      have hmore : (Value.object (setField (String.ofList key.1) found.1 done)).hasLong = false :=
        hasLong_setField (hvalue _ found hfound) hdone
      unfold afterValue
      split
      · exact .ok hmore _
      · exact hfields _ _ hmore
      · exact .error _
    · rw [afterKey_other hcolon]
      exact .error _
  · rw [readFields]
    · exact .error _
    · exact fun rest hcs => hquote ⟨rest, hcs⟩

lemma readsWritable (mode : Mode) (steps : ℕ) : ReadsWritable mode steps := by
  induction steps with
  | zero => exact ⟨fun _ => .error _, fun _ _ _ => .error _, fun _ _ _ => .error _⟩
  | succ steps ih =>
    exact ⟨writable_readValue_succ ih, writable_readItems_succ ih, writable_readFields_succ ih⟩

end Values

/-- What is read from a text can be written. -/
theorem hasLong_of_read {mode : Mode} {s : String} {v : Value} (h : read mode s = .ok v) :
    v.hasLong = false := by
  obtain ⟨rest, hvalue, -⟩ := readValue_of_read h
  exact (readsWritable mode _).1 _ _ hvalue

end SolidityAudit.Json
