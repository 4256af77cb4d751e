import Mathlib.Data.List.Basic
import SolidityAudit.Json.Reader
import SolidityAudit.Json.Writer

/-!
# Quoted texts are read back

A JSON string is written in ASCII, one character after the other, and each of them is read back as
what it was written from, whatever follows (`readString_charText`). So a string is read back as its
text (`readString_stringText`), and it tells where it ends: no string in front of one text is
another string in front of another text (`stringText_append_inj`).
-/

namespace SolidityAudit.Json

/-! ## Four digits -/

lemma hexValue?_digitChar {d : Nat} (h : d < 16) : hexValue? d.digitChar = some d := by
  have hall : ∀ d < 16, hexValue? (Nat.digitChar d) = some d := by decide
  exact hall d h

lemma toList_hexDigits_one {n : Nat} (h : n < 16) :
    (Text.hexDigits 1 n).toList = [n.digitChar] := by
  rw [Text.hexDigits, Nat.toDigits_of_lt_base h, String.toList_ofList]
  rfl

/-- The last digit is that of the remainder, and the others are those of the quotient. -/
lemma toList_hexDigits_succ {width : Nat} (hwidth : 0 < width) (n : Nat) :
    (Text.hexDigits (width + 1) n).toList =
      (Text.hexDigits width (n / 16)).toList ++ [(n % 16).digitChar] := by
  unfold Text.hexDigits
  dsimp only
  rw [String.toList_ofList, String.toList_ofList]
  by_cases hn : n < 16
  · -- the quotient has one digit, a zero, which takes the place of one more zero in front
    have hdiv : n / 16 = 0 := Nat.div_eq_of_lt hn
    have hzero : Nat.toDigits 16 0 = ['0'] := rfl
    obtain ⟨width, rfl⟩ := Nat.exists_eq_add_of_lt hwidth
    rw [Nat.toDigits_of_lt_base hn, hdiv, hzero, Nat.mod_eq_of_lt hn]
    simp [List.replicate_succ']
  · have hdigits : Nat.toDigits 16 n = Nat.toDigits 16 (n / 16) ++ [(n % 16).digitChar] := by
      rw [Nat.toDigits_eq_if (by omega), if_neg hn]
    rw [hdigits, List.length_append, List.length_singleton, Nat.add_sub_add_right,
      List.append_assoc]

/-- Four digits, from the first to the last. -/
lemma toList_hexDigits_four {n : Nat} (hn : n < 0x10000) :
    (Text.hexDigits 4 n).toList =
      [(n / 16 / 16 / 16).digitChar, (n / 16 / 16 % 16).digitChar, (n / 16 % 16).digitChar,
        (n % 16).digitChar] := by
  rw [toList_hexDigits_succ (by omega), toList_hexDigits_succ (by omega),
    toList_hexDigits_succ (by omega), toList_hexDigits_one (by omega)]
  rfl

/-- Four digits are read back as their number. -/
lemma hexFour?_hexDigits {n : Nat} (hn : n < 0x10000) (rest : List Char) :
    hexFour? ((Text.hexDigits 4 n).toList ++ rest) = some (n, rest) := by
  have hvalue :
      ((n / 16 / 16 / 16 * 16 + n / 16 / 16 % 16) * 16 + n / 16 % 16) * 16 + n % 16 = n := by
    omega
  rw [toList_hexDigits_four hn]
  simp only [List.cons_append, List.nil_append, hexFour?]
  rw [hexValue?_digitChar (by omega), hexValue?_digitChar (by omega),
    hexValue?_digitChar (by omega), hexValue?_digitChar (by omega)]
  exact congrArg (fun value => some (value, rest)) hvalue

/-! ## One character -/

lemma toNat_valid (c : Char) : c.toNat < 0xD800 ∨ 0xDFFF < c.toNat ∧ c.toNat < 0x110000 :=
  c.valid

/-- The numbers of characters leave out the halves of surrogate pairs. -/
lemma charOf_toNat (c : Char) :
    isHighSurrogate c.toNat = false ∧ charOf c.toNat = c := by
  have hvalid := toNat_valid c
  have hhigh : isHighSurrogate c.toNat = false := by
    unfold isHighSurrogate
    simp only [Bool.and_eq_false_iff, decide_eq_false_iff_not]
    omega
  have hlow : isLowSurrogate c.toNat = false := by
    unfold isLowSurrogate
    simp only [Bool.and_eq_false_iff, decide_eq_false_iff_not]
    omega
  refine ⟨hhigh, ?_⟩
  rw [charOf, hhigh, hlow]
  exact Char.ofNat_toNat c

/-- A character of the basic plane is read back from its number. -/
lemma readUnicode_hexDigits {c : Char} (hc : c.toNat < 0x10000) {rest : List Char}
    (hrest : rest ≠ []) :
    readUnicode ('u' :: ((Text.hexDigits 4 c.toNat).toList ++ rest)) = .ok (c, rest) := by
  obtain ⟨hhigh, hchar⟩ := charOf_toNat c
  obtain ⟨d, rest, rfl⟩ := List.exists_cons_of_ne_nil hrest
  unfold readUnicode
  dsimp only
  rw [List.drop_succ_cons, List.drop_zero, hexFour?_hexDigits hc]
  dsimp only
  split
  · rw [hhigh, Bool.false_and, if_neg Bool.false_ne_true, hchar]
  · rw [hchar]

/-- A character beyond the basic plane is read back from its surrogate pair. -/
lemma readUnicode_pair {c : Char} (hc : 0x10000 ≤ c.toNat) {rest : List Char} (hrest : rest ≠ []) :
    readUnicode ('u' :: ((Text.hexDigits 4 (0xD800 + (c.toNat - 0x10000) / 0x400)).toList ++
      '\\' :: 'u' :: ((Text.hexDigits 4 (0xDC00 + (c.toNat - 0x10000) % 0x400)).toList ++ rest))) =
      .ok (c, rest) := by
  have hvalid := toNat_valid c
  obtain ⟨n, hn⟩ := Nat.exists_eq_add_of_le hc
  rw [hn, Nat.add_sub_cancel_left]
  have hhigh : isHighSurrogate (0xD800 + n / 0x400) = true := by
    unfold isHighSurrogate
    simp only [Bool.and_eq_true, decide_eq_true_eq]
    omega
  have hlow : isLowSurrogate (0xDC00 + n % 0x400) = true := by
    unfold isLowSurrogate
    simp only [Bool.and_eq_true, decide_eq_true_eq]
    omega
  have hlength : 4 < ((Text.hexDigits 4 (0xDC00 + n % 0x400)).toList ++ rest).length := by
    have hpos : 0 < rest.length := List.length_pos_iff.mpr hrest
    rw [List.length_append, toList_hexDigits_four (by omega)]
    show 4 < 4 + rest.length
    omega
  have hfour := hexFour?_hexDigits (show 0xDC00 + n % 0x400 < 0x10000 by omega) rest
  have hsum : 0x10000 + (0xD800 + n / 0x400 - 0xD800) * 0x400 + (0xDC00 + n % 0x400 - 0xDC00) =
      c.toNat := by
    omega
  generalize (Text.hexDigits 4 (0xDC00 + n % 0x400)).toList ++ rest = more at hlength hfour ⊢
  unfold readUnicode
  dsimp only
  rw [List.drop_succ_cons, List.drop_zero, hexFour?_hexDigits (by omega)]
  show (if (isHighSurrogate (0xD800 + n / 0x400) && decide (4 < more.length)) = true then _
    else _) = _
  rw [hhigh, decide_eq_true hlength, Bool.and_true, if_pos rfl, hfour]
  dsimp only
  rw [hlow, if_pos rfl, hsum, Char.ofNat_toNat]

/-- How a character is written: as an escape of one letter, as itself, by its number, or by the
numbers of its surrogate pair. -/
lemma charText_cases (c : Char) :
    (∃ e, (charText c).toList = ['\\', e] ∧ e ≠ 'u' ∧ escaped? e = some c) ∨
    ((charText c).toList = [c] ∧ c ≠ '"' ∧ c ≠ '\\' ∧ 0x20 ≤ c.toNat ∧ c.toNat < 0x7F) ∨
    (c.toNat < 0x10000 ∧ charText c = "\\u" ++ Text.hexDigits 4 c.toNat) ∨
    (0x10000 ≤ c.toNat ∧
      charText c = "\\u" ++ Text.hexDigits 4 (0xD800 + (c.toNat - 0x10000) / 0x400)
        ++ "\\u" ++ Text.hexDigits 4 (0xDC00 + (c.toNat - 0x10000) % 0x400)) := by
  by_cases hquote : c = '"'
  · subst hquote; exact .inl ⟨'"', rfl, by decide, rfl⟩
  by_cases hslash : c = '\\'
  · subst hslash; exact .inl ⟨'\\', rfl, by decide, rfl⟩
  by_cases hline : c = '\n'
  · subst hline; exact .inl ⟨'n', rfl, by decide, rfl⟩
  by_cases hreturn : c = '\r'
  · subst hreturn; exact .inl ⟨'r', rfl, by decide, rfl⟩
  by_cases htab : c = '\t'
  · subst htab; exact .inl ⟨'t', rfl, by decide, rfl⟩
  by_cases hback : c.toNat = 0x08
  · have hc : c = '\x08' := Char.toNat_inj.mp hback
    subst hc; exact .inl ⟨'b', rfl, by decide, rfl⟩
  by_cases hfeed : c.toNat = 0x0C
  · have hc : c = '\x0c' := Char.toNat_inj.mp hfeed
    subst hc; exact .inl ⟨'f', rfl, by decide, rfl⟩
  -- no escape of one letter
  right
  unfold charText
  dsimp only
  rw [if_neg hquote, if_neg hslash, if_neg hline, if_neg hreturn, if_neg htab, if_neg hback,
    if_neg hfeed]
  by_cases hplain : 0x20 ≤ c.toNat ∧ c.toNat < 0x7F
  · rw [if_pos hplain]
    exact .inl ⟨String.toList_singleton c, hquote, hslash, hplain⟩
  rw [if_neg hplain]
  by_cases hbasic : c.toNat < 0x10000
  · rw [if_pos hbasic]
    exact .inr (.inl ⟨hbasic, rfl⟩)
  · rw [if_neg hbasic]
    exact .inr (.inr ⟨Nat.le_of_not_lt hbasic, rfl⟩)

/-- A character beyond the basic plane is written as two escapes, which are read as one. -/
lemma exists_pair {c : Char} (hlarge : 0x10000 ≤ c.toNat)
    (hc : charText c = "\\u" ++ Text.hexDigits 4 (0xD800 + (c.toNat - 0x10000) / 0x400)
      ++ "\\u" ++ Text.hexDigits 4 (0xDC00 + (c.toNat - 0x10000) % 0x400)) :
    ∃ high low, charText c = "\\u" ++ high ++ "\\u" ++ low ∧
      ∀ rest, rest ≠ [] →
        readUnicode ('u' :: (high.toList ++ '\\' :: 'u' :: (low.toList ++ rest))) = .ok (c, rest) :=
  ⟨_, _, hc, fun _ hrest => readUnicode_pair hlarge hrest⟩

/-- Each character is read back from what is written for it. -/
lemma readString_charText (mode : Mode) (start : List Char) (steps : Nat) (c : Char)
    {rest : List Char} (hrest : rest ≠ []) (done : List Char) :
    readString mode start (steps + 1) ((charText c).toList ++ rest) done =
      readString mode start steps rest (c :: done) := by
  have hunicode {digits : List Char} (h : readUnicode ('u' :: digits) = .ok (c, rest)) :
      readString mode start (steps + 1) ('\\' :: 'u' :: digits) done =
        readString mode start steps rest (c :: done) := by
    rw [readString, h]
  have hmark : "\\u".toList = ['\\', 'u'] := rfl
  rcases charText_cases c with ⟨e, he, hu, hescaped⟩ | ⟨hc, hquote, hslash, hcontrol⟩ |
    ⟨hbasic, hc⟩ | ⟨hlarge, hc⟩
  · rw [he, List.cons_append, List.singleton_append, readString, hescaped]
    exact hu
  · have hallowed : ¬ (mode = .strict ∧ c.toNat < 0x20) := fun h => by omega
    rw [hc, List.singleton_append, readString, if_neg hallowed]
    · exact hquote
    · exact hslash
  · rw [hc, String.toList_append, hmark]
    exact hunicode (readUnicode_hexDigits hbasic hrest)
  · -- the numbers of the pair are too large to be computed with
    obtain ⟨high, low, hc, hpair⟩ := exists_pair hlarge hc
    rw [hc, String.toList_append, String.toList_append, String.toList_append, hmark]
    simp only [List.append_assoc, List.cons_append, List.nil_append]
    exact hunicode (hpair rest hrest)

/-! ## A whole string -/

/-- The characters of a string as they are written. -/
lemma toList_stringText (s : String) :
    (stringText s).toList = '"' :: (s.toList.flatMap fun c => (charText c).toList) ++ ['"'] := by
  rw [stringText, String.toList_append, String.toList_append, String.toList_join, List.flatMap_map]
  rfl

/-- The characters of a string are read up to the closing quote. -/
lemma readString_chars (mode : Mode) (start : List Char) (cs : List Char) {steps : Nat}
    (hsteps : cs.length < steps) (rest done : List Char) :
    readString mode start steps ((cs.flatMap fun c => (charText c).toList) ++ '"' :: rest) done =
      .ok (done.reverse ++ cs, rest) := by
  induction cs generalizing steps done with
  | nil =>
    obtain ⟨steps, rfl⟩ := Nat.exists_eq_add_of_lt hsteps
    rw [List.flatMap_nil, List.nil_append, List.append_nil, readString]
  | cons c cs ih =>
    obtain ⟨steps, rfl⟩ := Nat.exists_eq_add_of_lt hsteps
    rw [List.flatMap_cons, List.append_assoc, readString_charText _ _ _ _ (by simp),
      ih (by rw [List.length_cons]; omega), List.reverse_cons, List.append_assoc]
    rfl

/-- A string is read back as its text, and what follows it is left. -/
theorem readString_stringText (mode : Mode) (start : List Char) (s : String) {steps : Nat}
    (hsteps : s.length < steps) (rest : List Char) :
    readString mode start steps ((stringText s).toList.tail ++ rest) [] = .ok (s.toList, rest) := by
  rw [toList_stringText]
  show readString mode start steps (_ ++ ['"'] ++ rest) [] = _
  rw [List.append_assoc]
  exact readString_chars mode start s.toList hsteps rest []

/-- A string tells where it ends. -/
theorem stringText_append_inj {s t : String} {rest rest' : List Char}
    (h : (stringText s).toList ++ rest = (stringText t).toList ++ rest') :
    s = t ∧ rest = rest' := by
  have htail : (stringText s).toList.tail ++ rest = (stringText t).toList.tail ++ rest' := by
    rw [toList_stringText, toList_stringText] at h ⊢
    exact (List.cons.inj h).2
  have hslt : s.length < max s.length t.length + 1 := Nat.lt_succ_of_le (Nat.le_max_left ..)
  have htlt : t.length < max s.length t.length + 1 := Nat.lt_succ_of_le (Nat.le_max_right ..)
  have hs := readString_stringText .strict [] s hslt rest
  have ht := readString_stringText .strict [] t htlt rest'
  rw [htail, ht] at hs
  obtain ⟨htext, hrest⟩ := Prod.mk.inj (Except.ok.inj hs)
  exact ⟨String.toList_inj.mp htext.symm, hrest.symm⟩

end SolidityAudit.Json
