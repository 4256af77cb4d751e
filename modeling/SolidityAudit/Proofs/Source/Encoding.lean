import SolidityAudit.Proofs.Text.Utf8
import SolidityAudit.Source.Encoding

/-!
# The encoding that decides

Every content of a file is a text in Latin-1, so a contract file can always be read, and what is
tried behind Latin-1 never decides. What is UTF-8 behind a byte-order mark is UTF-8 with the mark as
a character, so UTF-8 with a mark never decides either: the text is that in UTF-8, or else that in
Latin-1 (`decoded_as_utf8_or_latin1`). A file is read as its octets are decoded as a whole, except
for one that ends within a mark, which is read as empty (`textBy_decodeFile?`).
-/

namespace SolidityAudit.Source

open Text

/-- Octets are read in an encoding: it is the first that decodes them, and their text is what it
makes of them. -/
structure ReadIn (decode? : Encoding → List UInt8 → Option (List Char)) (octets : List UInt8)
    (e : Encoding) (cs : List Char) : Prop where
  first : Encoding.every.find? (fun e => (decode? e octets).isSome) = some e
  chars : decode? e octets = some cs
  text : textBy decode? octets = .ok (String.ofList (unifyLines cs))

section Order

variable {decode? : Encoding → List UInt8 → Option (List Char)} {octets : List UInt8}
  {e : Encoding} {cs : List Char}

lemma readIn_utf8 (h : decode? .utf8 octets = some cs) : ReadIn decode? octets .utf8 cs where
  first := by simp [Encoding.every, h]
  chars := h
  text := by simp [textBy, Encoding.every, h]

lemma readIn_markedUtf8 (hutf8 : decode? .utf8 octets = none)
    (h : decode? .markedUtf8 octets = some cs) : ReadIn decode? octets .markedUtf8 cs where
  first := by simp [Encoding.every, hutf8, h]
  chars := h
  text := by simp [textBy, Encoding.every, hutf8, h]

lemma readIn_latin1 (hutf8 : decode? .utf8 octets = none)
    (hmarked : decode? .markedUtf8 octets = none) (h : decode? .latin1 octets = some cs) :
    ReadIn decode? octets .latin1 cs where
  first := by simp [Encoding.every, hutf8, hmarked, h]
  chars := h
  text := by simp [textBy, Encoding.every, hutf8, hmarked, h]

/-- What is tried behind an encoding that never fails does not decide. -/
lemma ReadIn.ne_windows1252 (h : ReadIn decode? octets e cs)
    (hlatin1 : (decode? .latin1 octets).isSome = true) : e ≠ .windows1252 := by
  rintro rfl
  have hfirst := h.first
  rw [Encoding.every, List.find?_cons, List.find?_cons, List.find?_cons, hlatin1] at hfirst
  split at hfirst
  · cases hfirst
  split at hfirst
  · cases hfirst
  · cases hfirst

end Order

/-! ## Octets taken as a whole -/

section Whole

variable {octets : List UInt8}

lemma decode?_utf8_encode (s : String) :
    Encoding.utf8.decode? (Utf8.encode s) = some s.toList := by
  rw [Encoding.decode?, Utf8.decode_encode]
  rfl

lemma decode_toOption_eq_none (h : ∀ s, Utf8.encode s ≠ octets) :
    (Utf8.decode octets).toOption = none := by
  obtain ⟨u, hdecode⟩ := Utf8.exists_decode_eq_error h
  rw [hdecode]
  rfl

/-- The mark is the encoding of a character. -/
lemma encode_mark (s : String) : byteOrderMark ++ Utf8.encode s = Utf8.encode ("\uFEFF" ++ s) := by
  have hmark : Utf8.encode "\uFEFF" = byteOrderMark := by
    rw [Utf8.encode_eq_flatMap]
    decide
  rw [Utf8.encode_append, hmark]

/-- A text behind a mark is a text with the mark. -/
lemma decode?_markedUtf8_eq_none (h : ∀ s, Utf8.encode s ≠ octets) :
    Encoding.markedUtf8.decode? octets = none := by
  rw [Encoding.decode?]
  by_cases hmark : byteOrderMark.isPrefixOf octets = true
  · obtain ⟨text, rfl⟩ := List.isPrefixOf_iff_prefix.mp hmark
    rw [if_pos hmark, List.drop_left]
    refine decode_toOption_eq_none fun s hs => h ("\uFEFF" ++ s) ?_
    rw [← encode_mark, hs]
  · rw [if_neg hmark]
    exact decode_toOption_eq_none h

lemma readIn_whole_utf8 (s : String) :
    ReadIn Encoding.decode? (Utf8.encode s) .utf8 s.toList :=
  readIn_utf8 (decode?_utf8_encode s)

lemma readIn_whole_latin1 (h : ∀ s, Utf8.encode s ≠ octets) :
    ReadIn Encoding.decode? octets .latin1 (Text.latin1 octets) :=
  readIn_latin1 (decode_toOption_eq_none h) (decode?_markedUtf8_eq_none h) rfl

/-- Octets are a text in UTF-8, or else in Latin-1. -/
lemma readIn_whole (octets : List UInt8) :
    (∃ s, Utf8.encode s = octets ∧ ReadIn Encoding.decode? octets .utf8 s.toList) ∨
      (∀ s, Utf8.encode s ≠ octets) ∧
        ReadIn Encoding.decode? octets .latin1 (Text.latin1 octets) := by
  by_cases htext : ∃ s, Utf8.encode s = octets
  · obtain ⟨s, rfl⟩ := htext
    exact .inl ⟨s, rfl, readIn_whole_utf8 s⟩
  · have hother := not_exists.mp htext
    exact .inr ⟨hother, readIn_whole_latin1 hother⟩

end Whole

/-! ## Files -/

/-- A file ends within a byte-order mark. -/
def CutMark (octets : List UInt8) : Prop := octets = [0xEF] ∨ octets = [0xEF, 0xBB]

instance (octets : List UInt8) : Decidable (CutMark octets) :=
  inferInstanceAs (Decidable (_ ∨ _))

/-- The text of the octets of a file, with line feeds between its lines. -/
def textOf (octets : List UInt8) : String :=
  let cs :=
    match Utf8.decode octets with
    | .ok cs => cs
    | .error _ => if CutMark octets then [] else Text.latin1 octets
  String.ofList (unifyLines cs)

section Files

variable {octets : List UInt8}

lemma held_iff : octets.length < byteOrderMark.length ∧ octets.isPrefixOf byteOrderMark = true ↔
    octets = [] ∨ CutMark octets := by
  unfold CutMark byteOrderMark
  rcases octets with _ | ⟨a, _ | ⟨b, _ | ⟨c, rest⟩⟩⟩
  · simp
  · simp
  · simp
  · constructor
    · rintro ⟨hlength, -⟩
      simp only [List.length_cons, List.length_nil] at hlength
      omega
    · simp

/-- The beginning of a mark is no text. -/
lemma CutMark.ne_encode (h : CutMark octets) (s : String) : Utf8.encode s ≠ octets := by
  rintro rfl
  have hdecode := Utf8.decode_encode s
  rcases h with hone | htwo
  · rw [hone] at hdecode
    cases hdecode
  · rw [htwo] at hdecode
    cases hdecode

lemma readIn_file_cut (h : CutMark octets) : ReadIn Encoding.decodeFile? octets .markedUtf8 [] :=
  readIn_markedUtf8 (decode_toOption_eq_none h.ne_encode) (if_pos (held_iff.mpr (.inr h)))

lemma readIn_file_latin1 (h : ∀ s, Utf8.encode s ≠ octets) (hcut : ¬ CutMark octets) :
    ReadIn Encoding.decodeFile? octets .latin1 (Text.latin1 octets) := by
  have hheld : ¬ (octets.length < byteOrderMark.length ∧
      octets.isPrefixOf byteOrderMark = true) := by
    rw [held_iff]
    rintro (rfl | hcut')
    · exact h "" (Utf8.encode_eq_flatMap "")
    · exact hcut hcut'
  refine readIn_latin1 (decode_toOption_eq_none h) ?_ rfl
  rw [Encoding.decodeFile?, if_neg hheld]
  exact decode?_markedUtf8_eq_none h

lemma textOf_encode (s : String) :
    textOf (Utf8.encode s) = String.ofList (unifyLines s.toList) := by
  unfold textOf
  rw [Utf8.decode_encode]

lemma textOf_other (h : ∀ s, Utf8.encode s ≠ octets) :
    textOf octets =
      String.ofList (unifyLines (if CutMark octets then [] else Text.latin1 octets)) := by
  obtain ⟨u, hdecode⟩ := Utf8.exists_decode_eq_error h
  unfold textOf
  rw [hdecode]

/-- A file is always read. -/
lemma textBy_decodeFile? (octets : List UInt8) :
    textBy Encoding.decodeFile? octets = .ok (textOf octets) := by
  by_cases htext : ∃ s, Utf8.encode s = octets
  · obtain ⟨s, rfl⟩ := htext
    have hdecode : Encoding.decodeFile? .utf8 (Utf8.encode s) = some s.toList :=
      decode?_utf8_encode s
    rw [textOf_encode]
    exact (readIn_utf8 hdecode).text
  have hother := not_exists.mp htext
  rw [textOf_other hother]
  by_cases hcut : CutMark octets
  · rw [if_pos hcut]
    exact (readIn_file_cut hcut).text
  · rw [if_neg hcut]
    exact (readIn_file_latin1 hother hcut).text

/-- A file is read as its octets are taken as a whole, unless it ends within a mark. -/
lemma textBy_decodeFile?_eq (octets : List UInt8) :
    textBy Encoding.decodeFile? octets =
      if CutMark octets then .ok "" else textBy Encoding.decode? octets := by
  rw [textBy_decodeFile?]
  rcases readIn_whole octets with ⟨s, rfl, hread⟩ | ⟨hother, hread⟩
  · rw [if_neg fun hcut => CutMark.ne_encode hcut s rfl, textOf_encode, hread.text]
  · rw [textOf_other hother, hread.text]
    split_ifs <;> rfl

end Files

/-- Octets that are those of a text are read as this text, and all others in Latin-1. So reading
always gives a text, and what is tried behind Latin-1 decides nothing, whether the octets are taken
as a whole or come from a file. The two differ only where a file ends within a mark. -/
theorem decoded_as_utf8_or_latin1 (octets : List UInt8) :
    (∃ text, textBy Encoding.decode? octets = .ok text) ∧
    (∀ s, Utf8.encode s = octets → ReadIn Encoding.decode? octets .utf8 s.toList) ∧
    ((∀ s, Utf8.encode s ≠ octets) →
      ReadIn Encoding.decode? octets .latin1 (Text.latin1 octets)) ∧
    (∀ e cs, ReadIn Encoding.decode? octets e cs ∨ ReadIn Encoding.decodeFile? octets e cs →
      e ≠ .windows1252) ∧
    textBy Encoding.decodeFile? octets =
      if CutMark octets then .ok "" else textBy Encoding.decode? octets := by
  refine ⟨?_, ?_, readIn_whole_latin1, ?_, textBy_decodeFile?_eq octets⟩
  · rcases readIn_whole octets with ⟨s, -, hread⟩ | ⟨-, hread⟩
    · exact ⟨_, hread.text⟩
    · exact ⟨_, hread.text⟩
  · rintro s rfl
    exact readIn_whole_utf8 s
  · rintro e cs (hread | hread)
    · exact hread.ne_windows1252 rfl
    · exact hread.ne_windows1252 rfl

example :
    (textBy Encoding.decodeFile? [0x2F, 0x2F, 0x20, 0xE9, 0x0D, 0x0A]).toOption =
      some "// é\n" := by
  decide

example : (textBy Encoding.decodeFile? [0xEF, 0xBB]).toOption = some "" := by
  decide

end SolidityAudit.Source
