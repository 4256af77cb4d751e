import SolidityAudit.Proofs.Json.Writer
import SolidityAudit.Proofs.Text.Digit
import SolidityAudit.Proofs.Value.Leaves

/-!
# What is written is read back

The text of a document is read back as the document, in either mode and whatever comes behind it, as
long as that does not go on with a number (`readValue_write`). The marks may have blanks behind
them. Only an integer can stand in the way: one with more digits than a reader takes. No such
integer is written in the first place (`Json.textBy?`).
-/

namespace SolidityAudit

namespace Json

/-- Marks that the reader takes: a comma and a colon, with blanks behind them. -/
structure Marks.Readable (m : Marks) : Prop where
  item : ∃ gap, m.item.toList = ',' :: gap ∧ ∀ c ∈ gap, isSpace c = true
  key : ∃ gap, m.key.toList = ':' :: gap ∧ ∀ c ∈ gap, isSpace c = true

lemma readable_spaced : Marks.spaced.Readable where
  item := ⟨[' '], rfl, List.all_eq_true.mp rfl⟩
  key := ⟨[' '], rfl, List.all_eq_true.mp rfl⟩

/-! ## Blanks -/

lemma skipSpace_append {gap : List Char} (h : ∀ c ∈ gap, isSpace c = true) (cs : List Char) :
    skipSpace (gap ++ cs) = skipSpace cs :=
  List.dropWhile_append_of_pos h

lemma skipSpace_cons {c : Char} (h : isSpace c = false) (cs : List Char) :
    skipSpace (c :: cs) = c :: cs :=
  List.dropWhile_cons_of_neg (by simp [h])

/-! ## Integers -/

/-- What follows a number does not go on with a digit, a point or an exponent. -/
def Stops (rest : List Char) : Prop :=
  ∀ c ∈ rest.head?, c.isDigit = false ∧ c ≠ '.' ∧ c ≠ 'e' ∧ c ≠ 'E'

lemma stops_cons {c : Char} (h : c.isDigit = false ∧ c ≠ '.' ∧ c ≠ 'e' ∧ c ≠ 'E')
    (rest : List Char) : Stops (c :: rest) := by
  intro d hd
  rw [← Option.some_inj.mp hd]
  exact h

lemma natOf_toDigits (n : Nat) : Text.natOf (Nat.toDigits 10 n) = n := by
  have hsame : Text.natOf (Nat.toDigits 10 n) = Nat.ofDigitChars 10 (Nat.toDigits 10 n) 0 := by
    simp only [Text.natOf, Nat.ofDigitChars, Nat.mul_comm]
  rw [hsame, Nat.ofDigitChars_ten_toDigits]

lemma takeWhile_digits {n : Nat} {rest : List Char} (hrest : Stops rest) :
    (Nat.toDigits 10 n ++ rest).takeWhile Char.isDigit = Nat.toDigits 10 n :=
  Text.takeWhile_toDigits fun c hc => (hrest c hc).1

lemma fraction_of_stops {rest : List Char} (h : Stops rest) : fraction rest = ([], rest) := by
  unfold fraction
  split
  · exact absurd rfl (h '.' rfl).2.1
  · rfl

lemma exponent?_of_stops {rest : List Char} (h : Stops rest) : exponent? rest = (none, rest) := by
  cases rest with
  | nil => rfl
  | cons c rest =>
    obtain ⟨-, -, he, hE⟩ := h c rfl
    unfold exponent?
    dsimp only
    rw [if_neg (by simp [he, hE])]

/-- Digits are read back as their number, if they are not too many. -/
lemma readMagnitude_digits {n : Nat} (hn : (Nat.toDigits 10 n).length ≤ digitLimit)
    (negative : Bool) (start : List Char) {rest : List Char} (hrest : Stops rest) :
    readMagnitude negative start (Nat.toDigits 10 n ++ rest) =
      .ok (.int (if negative then -n else n), rest) := by
  have hsome : (Nat.toDigits 10 n).isEmpty = false := by
    simp [Nat.toDigits_ne_nil]
  have hfraction := fraction_of_stops hrest
  have hexponent := exponent?_of_stops hrest
  rcases Nat.eq_zero_or_pos n with rfl | hpos
  · -- a zero in front is the only digit
    show readMagnitude negative start ('0' :: rest) = _
    simp [readMagnitude, hfraction, hexponent, digitLimit, Text.natOf]
  · obtain ⟨c, cs, hdigits, hc⟩ := Text.toDigits_head hpos
    unfold readMagnitude
    dsimp only
    split
    · rename_i hzero
      rw [hdigits] at hzero
      exact absurd (List.cons.inj hzero).1 hc
    · rw [takeWhile_digits hrest]
      simp only [hsome, List.drop_left, hfraction, hexponent, List.isEmpty_nil,
        Option.isNone_none, and_self, if_true, if_neg (Nat.not_lt.mpr hn), natOf_toDigits,
        Bool.false_eq_true, if_false]

lemma toList_toString_negSucc (n : Nat) :
    (toString (Int.negSucc n)).toList = '-' :: Nat.toDigits 10 (n + 1) := by
  show ("-" ++ (n + 1).repr).toList = _
  rw [String.toList_append, Nat.toList_repr]
  rfl

/-- An integer is read back. -/
lemma readNumber_int {n : Int} (hn : Value.isLong (.int n) = false) {rest : List Char}
    (hrest : Stops rest) : readNumber ((toString n).toList ++ rest) = .ok (.int n, rest) := by
  have hlength : (Nat.toDigits 10 n.natAbs).length ≤ digitLimit := by
    simpa [Value.isLong] using hn
  cases n with
  | ofNat n =>
    have htext : (toString (Int.ofNat n)).toList = Nat.toDigits 10 n := Nat.toList_repr
    obtain ⟨c, cs, hdigits⟩ := List.exists_cons_of_ne_nil (Nat.toDigits_ne_nil (n := n) (b := 10))
    have hc : c.isDigit = true :=
      Nat.isDigit_of_mem_toDigits (by omega) (by omega) (hdigits ▸ List.mem_cons_self)
    have hread := readMagnitude_digits hlength false (Nat.toDigits 10 n ++ rest) hrest
    rw [htext]
    unfold readNumber
    split
    · rename_i hsign
      rw [hdigits] at hsign
      obtain ⟨rfl, -⟩ := List.cons.inj hsign
      contradiction
    · exact hread
  | negSucc n =>
    rw [toList_toString_negSucc, List.cons_append, readNumber]
    exact readMagnitude_digits hlength true _ hrest

/-! ## Names and numbers -/

/-- What is read of a text that writes a name or a number. -/
def readBare (cs : List Char) : Except Stop (Value × List Char) :=
  match readName? cs with
  | some found => .ok found
  | none => readNumber cs

/-- What begins neither a string nor an object nor a list is a name or a number. -/
lemma readValue_other (mode : Mode) (steps : Nat) {cs : List Char}
    (hquote : ∀ rest, cs = '"' :: rest → False) (hbrace : ∀ rest, cs = '\x7b' :: rest → False)
    (hbracket : ∀ rest, cs = '[' :: rest → False) :
    readValue mode (steps + 1) cs = readBare cs := by
  rewrite [readValue]
  · rfl
  · exact hquote
  · exact hbrace
  · exact hbracket

lemma readValue_bare (mode : Mode) (steps : Nat) {c : Char} (hc : isBare c = true)
    (cs : List Char) : readValue mode (steps + 1) (c :: cs) = readBare (c :: cs) := by
  have hne {d : Char} (hd : isBare d = false) (rest : List Char) : c :: cs = d :: rest → False := by
    intro h
    obtain ⟨rfl, -⟩ := List.cons.inj h
    simp [hc] at hd
  exact readValue_other mode steps (hne (by decide)) (hne (by decide)) (hne (by decide))

/-- No name has a digit at its first two places. -/
lemma names_noDigit : ∀ f ∈ names, ∃ c d cs,
    f.1 = c :: d :: cs ∧ c.isDigit = false ∧ d.isDigit = false := by
  simp only [names, List.forall_mem_cons, List.not_mem_nil, false_implies, implies_true, and_true]
  exact ⟨⟨_, _, _, rfl, rfl, rfl⟩, ⟨_, _, _, rfl, rfl, rfl⟩, ⟨_, _, _, rfl, rfl, rfl⟩,
    ⟨_, _, _, rfl, rfl, rfl⟩, ⟨_, _, _, rfl, rfl, rfl⟩, ⟨_, _, _, rfl, rfl, rfl⟩⟩

/-- What has a digit at its first place, or at its second behind a sign. -/
def StartsNumber (cs : List Char) : Prop :=
  ∃ c tail, c.isDigit = true ∧ (cs = c :: tail ∨ cs = '-' :: c :: tail)

lemma StartsNumber.append {cs : List Char} (h : StartsNumber cs) (q : List Char) :
    StartsNumber (cs ++ q) := by
  obtain ⟨c, tail, hc, rfl | rfl⟩ := h
  · exact ⟨c, tail ++ q, hc, .inl rfl⟩
  · exact ⟨c, tail ++ q, hc, .inr rfl⟩

/-- A number is not taken for a name. -/
lemma StartsNumber.readName? {cs : List Char} (h : StartsNumber cs) : readName? cs = none := by
  obtain ⟨c, tail, hc, htext⟩ := h
  refine List.findSome?_eq_none_iff.mpr fun f hf => if_neg ?_
  obtain ⟨d, e, ds, hname, hd, he⟩ := names_noDigit f hf
  rw [hname, List.isPrefixOf_iff_prefix]
  rintro ⟨rest, hrest⟩
  rcases htext with rfl | rfl
  · obtain ⟨rfl, -⟩ := List.cons.inj hrest
    simp [hc] at hd
  · obtain ⟨rfl, -⟩ := List.cons.inj (List.cons.inj hrest).2
    simp [hc] at he

lemma startsNumber_int (n : Int) : StartsNumber (toString n).toList := by
  have hdigits (m : Nat) : ∃ c cs, c.isDigit = true ∧ Nat.toDigits 10 m = c :: cs := by
    obtain ⟨c, cs, htext⟩ := List.exists_cons_of_ne_nil (Nat.toDigits_ne_nil (n := m) (b := 10))
    exact ⟨c, cs, Nat.isDigit_of_mem_toDigits (by omega) (by omega)
      (htext ▸ List.mem_cons_self), htext⟩
  cases n with
  | ofNat n =>
    obtain ⟨c, cs, hc, htext⟩ := hdigits n
    exact ⟨c, cs, hc, .inl (Nat.toList_repr.trans htext)⟩
  | negSucc n =>
    obtain ⟨c, cs, hc, htext⟩ := hdigits (n + 1)
    refine ⟨c, cs, hc, .inr ?_⟩
    rw [toList_toString_negSucc, htext]

lemma readName?_null (rest : List Char) :
    readName? ("null".toList ++ rest) = some (.null, rest) := by
  rfl

lemma readName?_bool (b : Bool) (rest : List Char) :
    readName? ((if b then "true" else "false").toList ++ rest) = some (.bool b, rest) := by
  cases b <;> rfl

/-! ## Strings -/

lemma charText_ne_nil (c : Char) : (charText c).toList ≠ [] := by
  have hmark (s : String) : ("\\u" ++ s).toList ≠ [] := by
    rw [String.toList_append]
    exact List.cons_ne_nil _ _
  rcases charText_cases c with ⟨e, he, -⟩ | ⟨hc, -⟩ | ⟨-, hc⟩ | ⟨-, hc⟩
  · exact he ▸ List.cons_ne_nil _ _
  · exact hc ▸ List.cons_ne_nil _ _
  · exact hc ▸ hmark _
  · rw [hc, String.append_assoc, String.append_assoc]
    exact hmark _

/-- A string is shorter than its text. -/
lemma length_lt_stringText (s : String) : s.length < (stringText s).toList.length := by
  have hlength (cs : List Char) : cs.length ≤ (cs.flatMap fun c => (charText c).toList).length := by
    induction cs with
    | nil => exact Nat.zero_le _
    | cons c cs ih =>
      have hc := List.length_pos_iff.mpr (charText_ne_nil c)
      rw [List.flatMap_cons, List.length_append, List.length_cons]
      omega
  have hs := hlength s.toList
  rw [String.length_toList] at hs
  rw [toList_stringText, List.length_append, List.length_cons, List.length_singleton]
  omega

/-- Behind its opening quote a string is read to its end. -/
lemma readString_of_text (mode : Mode) {s : String} {cs : List Char}
    (h : (stringText s).toList = '"' :: cs) (rest : List Char) :
    readString mode ('"' :: (cs ++ rest)) ((cs ++ rest).length + 1) (cs ++ rest) [] =
      .ok (s.toList, rest) := by
  have hlength : s.length < (cs ++ rest).length + 1 := by
    have hs := length_lt_stringText s
    rw [h, List.length_cons] at hs
    rw [List.length_append]
    omega
  have hread := readString_stringText mode ('"' :: (cs ++ rest)) s hlength rest
  rw [h, List.tail_cons] at hread
  exact hread

/-! ## The front of a text -/

lemma isSpace_eq_true {c : Char} (h : isSpace c = true) :
    openedBy c = .bare ∧ isBare c = false := by
  simp only [isSpace, Bool.or_eq_true, beq_iff_eq] at h
  rcases h with ((rfl | rfl) | rfl) | rfl
  all_goals exact ⟨rfl, rfl⟩

/-- A text starts with no blank. -/
lemma exists_head_visible {m : Marks} {v : Value} (hv : v.IsDocument) :
    ∃ c cs, (write m v).toList = c :: cs ∧ isSpace c = false ∧ c ≠ ']' := by
  obtain ⟨c, cs, htext, hform, hc⟩ := exists_head (m := m) hv
  refine ⟨c, cs, htext, ?_, hc⟩
  by_contra hspace
  obtain ⟨hopened, hbare⟩ := isSpace_eq_true (Bool.not_eq_false _ ▸ hspace)
  -- a name or a number is left, and no blank is a character of one
  have hc := (write_bare (m := m) hv (hform.symm.trans hopened)).1 c (htext ▸ List.mem_cons_self)
  rw [hbare] at hc
  contradiction

lemma skipSpace_write {m : Marks} {v : Value} (hv : v.IsDocument) (rest : List Char) :
    skipSpace ((write m v).toList ++ rest) = (write m v).toList ++ rest := by
  obtain ⟨c, cs, htext, hspace, -⟩ := exists_head_visible (m := m) hv
  rw [htext]
  exact skipSpace_cons hspace _

/-! ## Lists and objects -/

/-- A value is read back from its text, whatever stops behind it. -/
def ReadBack (mode : Mode) (m : Marks) (v : Value) : Prop :=
  ∀ steps rest, 2 * (write m v).toList.length ≤ steps → Stops rest →
    readValue mode steps ((write m v).toList ++ rest) = .ok (v, rest)

section Sequences

variable {mode : Mode} {m : Marks}

/-- The texts of items with a mark before each, up to the closing bracket. -/
def behind (m : Marks) (texts : List (List Char)) (close : Char) (rest : List Char) : List Char :=
  (texts.flatMap fun t => m.item.toList ++ t) ++ close :: rest

lemma behind_nil (close : Char) (rest : List Char) : behind m [] close rest = close :: rest := rfl

lemma behind_cons (text : List Char) (texts : List (List Char)) (close : Char)
    (rest : List Char) :
    behind m (text :: texts) close rest =
      m.item.toList ++ (text ++ behind m texts close rest) := by
  rw [behind, behind, List.flatMap_cons, List.append_assoc, List.append_assoc]

lemma intercalate_append (text : List Char) (texts : List (List Char)) (close : Char)
    (rest : List Char) :
    m.item.toList.intercalate (text :: texts) ++ close :: rest =
      text ++ behind m texts close rest := by
  rw [intercalate_cons, List.append_assoc, behind]

/-- What follows an item stops it: the closing bracket, or a comma. -/
lemma stops_behind (hm : m.Readable) {close : Char} (hclose : Stops [close])
    (texts : List (List Char)) (rest : List Char) : Stops (behind m texts close rest) := by
  cases texts with
  | nil => exact hclose
  | cons text texts =>
    obtain ⟨gap, hgap, -⟩ := hm.item
    rw [behind_cons, hgap]
    exact stops_cons (by decide) _

/-- The items of a list are read up to the closing bracket. -/
lemma readItems_write (hm : m.Readable) {v : Value} {items : List Value}
    (hread : ∀ w ∈ v :: items, w.IsDocument ∧ ReadBack mode m w) {steps : Nat}
    (rest : List Char) (done : List Value)
    (hsteps : 2 * ((write m v).toList ++
      behind m (items.map fun w => (write m w).toList) ']' []).length ≤ steps) :
    readItems mode steps ((write m v).toList ++
      behind m (items.map fun w => (write m w).toList) ']' rest) done =
        .ok (.list (done.reverse ++ v :: items), rest) := by
  induction items generalizing v steps done with
  | nil =>
    rw [List.map_nil, behind_nil, List.length_append, List.length_singleton] at hsteps
    obtain ⟨steps, rfl⟩ := Nat.exists_eq_add_of_le' (show 1 ≤ steps by omega)
    have hv := (hread v List.mem_cons_self).2 steps (']' :: rest) (by omega)
      (stops_cons (by decide) _)
    rw [List.map_nil, behind_nil, readItems, hv]
    simp [skipSpace_cons (show isSpace ']' = false from rfl)]
  | cons w items ih =>
    obtain ⟨gap, hitem, hgap⟩ := hm.item
    rw [List.map_cons, behind_cons, hitem, List.length_append, List.length_append,
      List.length_cons] at hsteps
    obtain ⟨steps, rfl⟩ := Nat.exists_eq_add_of_le' (show 1 ≤ steps by omega)
    have hclose : Stops [']'] := stops_cons (by decide) []
    have hv := (hread v List.mem_cons_self).2 steps _ (by omega)
      (stops_behind hm hclose ((w :: items).map fun w => (write m w).toList) rest)
    have hw := (hread w (by simp)).1
    rw [readItems, hv, List.map_cons, behind_cons, hitem, List.cons_append]
    dsimp only
    rw [skipSpace_cons (by rfl)]
    show readItems mode steps (skipSpace (gap ++ _)) (v :: done) = _
    rw [skipSpace_append hgap, skipSpace_write hw,
      ih (fun u hu => hread u (List.mem_cons_of_mem v hu)) (v :: done) (by omega),
      List.reverse_cons, List.append_assoc]
    rfl

/-- Setting a key that is not there yet adds a field at the end. -/
lemma setField_new {key : String} {fields : List (String × Value)} (v : Value)
    (h : key ∉ fields.map Prod.fst) : setField key v fields = fields ++ [(key, v)] := by
  induction fields with
  | nil => rfl
  | cons f fields ih =>
    rw [List.map_cons, List.mem_cons, not_or] at h
    rw [setField, if_neg (Ne.symm h.1), ih h.2]
    rfl

lemma new_of_nodup {f : String × Value} {done fields : List (String × Value)}
    (h : ((done ++ f :: fields).map Prod.fst).Nodup) : f.1 ∉ done.map Prod.fst := by
  rw [List.map_append, List.nodup_append'] at h
  exact fun hmem => h.2.2 hmem List.mem_cons_self

lemma skipSpace_field (f : String × Value) (rest : List Char) :
    skipSpace (fieldChars m f ++ rest) = fieldChars m f ++ rest := by
  rw [fieldChars, toList_stringText]
  exact skipSpace_cons (by rfl) _

/-- A new field is read, and then what closes the object or goes on with the next field. -/
lemma readFields_field (hm : m.Readable) {f : String × Value} (hf : f.2.IsDocument)
    (hback : ReadBack mode m f.2) {steps : Nat} (hsteps : 2 * (fieldChars m f).length ≤ steps + 1)
    {rest : List Char} (hrest : Stops rest) {done : List (String × Value)}
    (hnew : f.1 ∉ done.map Prod.fst) :
    readFields mode (steps + 1) (fieldChars m f ++ rest) done =
      match skipSpace rest with
      | '\x7d' :: after => .ok (.object (done ++ [f]), after)
      | ',' :: after => readFields mode steps (skipSpace after) (done ++ [f])
      | other => .error ⟨.comma, other⟩ := by
  obtain ⟨gap, hkey, hgap⟩ := hm.key
  obtain ⟨cs, htext⟩ : ∃ cs, (stringText f.1).toList = '"' :: cs := ⟨_, toList_stringText f.1⟩
  have hname := readString_of_text mode htext ((m.key.toList ++ (write m f.2).toList) ++ rest)
  have hvalue := hback steps rest (by
    have hlength := length_lt_stringText f.1
    rw [fieldChars, List.length_append, List.length_append] at hsteps
    omega) hrest
  have hafter : readValue mode steps (skipSpace (gap ++ ((write m f.2).toList ++ rest))) =
      .ok (f.2, rest) := by
    rw [skipSpace_append hgap, skipSpace_write hf, hvalue]
  rw [fieldChars, htext, List.append_assoc, List.cons_append, readFields, hname]
  dsimp only
  rw [hkey, List.cons_append, List.cons_append, skipSpace_cons (by rfl), List.append_assoc]
  simp only [hafter]
  rewrite [String.ofList_toList, setField_new f.2 hnew]
  rfl

/-- The fields of an object are read up to the closing brace. -/
lemma readFields_write (hm : m.Readable) {f : String × Value} {fields : List (String × Value)}
    (hread : ∀ g ∈ f :: fields, g.2.IsDocument ∧ ReadBack mode m g.2) {steps : Nat}
    (rest : List Char) (done : List (String × Value))
    (hkeys : ((done ++ f :: fields).map Prod.fst).Nodup)
    (hsteps : 2 * (fieldChars m f ++
      behind m (fields.map (fieldChars m)) '\x7d' []).length ≤ steps) :
    readFields mode steps (fieldChars m f ++
      behind m (fields.map (fieldChars m)) '\x7d' rest) done =
        .ok (.object (done ++ f :: fields), rest) := by
  induction fields generalizing f steps done with
  | nil =>
    rw [List.map_nil, behind_nil, List.length_append, List.length_singleton] at hsteps
    obtain ⟨steps, rfl⟩ := Nat.exists_eq_add_of_le' (show 1 ≤ steps by omega)
    obtain ⟨hf, hback⟩ := hread f List.mem_cons_self
    have hnew : f.1 ∉ done.map Prod.fst := new_of_nodup hkeys
    rw [List.map_nil, behind_nil,
      readFields_field hm hf hback (by omega) (stops_cons (by decide) _) hnew,
      skipSpace_cons (by rfl)]
    rfl
  | cons g fields ih =>
    obtain ⟨gap, hitem, hgap⟩ := hm.item
    rw [List.map_cons, behind_cons, hitem, List.length_append, List.length_append,
      List.length_cons] at hsteps
    obtain ⟨steps, rfl⟩ := Nat.exists_eq_add_of_le' (show 1 ≤ steps by omega)
    obtain ⟨hf, hback⟩ := hread f List.mem_cons_self
    have hclose : Stops ['\x7d'] := stops_cons (by decide) []
    have hnew : f.1 ∉ done.map Prod.fst := new_of_nodup hkeys
    have hkeys' : (((done ++ [f]) ++ g :: fields).map Prod.fst).Nodup := by
      rw [List.append_assoc]
      exact hkeys
    rw [readFields_field hm hf hback (by omega)
      (stops_behind hm hclose ((g :: fields).map (fieldChars m)) rest) hnew,
      List.map_cons, behind_cons, hitem, List.cons_append, skipSpace_cons (by rfl)]
    show readFields mode steps (skipSpace (gap ++ _)) (done ++ [f]) = _
    rw [skipSpace_append hgap, skipSpace_field,
      ih (fun h hh => hread h (List.mem_cons_of_mem f hh)) (done ++ [f]) hkeys' (by omega),
      List.append_assoc]
    rfl

end Sequences

/-! ## Documents -/

lemma isLong_items {items : List Value}
    (h : ∀ w ∈ (Value.list items).leaves, Value.isLong w = false) {v : Value} (hv : v ∈ items) :
    ∀ w ∈ v.leaves, Value.isLong w = false := by
  rw [Value.leaves_list] at h
  exact fun w hw => h w (List.mem_flatMap.mpr ⟨v, hv, hw⟩)

lemma isLong_fields {fields : List (String × Value)}
    (h : ∀ w ∈ (Value.object fields).leaves, Value.isLong w = false)
    {f : String × Value} (hf : f ∈ fields) : ∀ w ∈ f.2.leaves, Value.isLong w = false := by
  rw [Value.leaves_object] at h
  exact fun w hw => h w (List.mem_flatMap.mpr ⟨f, hf, List.mem_cons_of_mem _ hw⟩)

lemma readBack_bare (mode : Mode) {m : Marks} {v : Value} (hv : v.IsDocument)
    (hform : formOf v = .bare)
    (hread : ∀ rest, Stops rest → readBare ((scalarText v).toList ++ rest) = .ok (v, rest)) :
    ReadBack mode m v := by
  obtain ⟨hbare, hne⟩ := write_bare (m := m) hv hform
  obtain ⟨c, cs, htext⟩ := List.exists_cons_of_ne_nil hne
  intro steps rest hsteps hrest
  rw [htext, List.length_cons] at hsteps
  obtain ⟨steps, rfl⟩ := Nat.exists_eq_add_of_le' (show 1 ≤ steps by omega)
  have hc : isBare c = true := hbare c (htext ▸ List.mem_cons_self)
  have hrest := hread rest hrest
  rw [← write_eq_scalarText (m := m) hform, htext] at hrest
  rw [htext, List.cons_append, readValue_bare mode steps hc]
  exact hrest

/-- The text of a document is read back as the document, whatever stops behind it, if none of its
integers is too long. -/
theorem readValue_write (mode : Mode) {m : Marks} (hm : m.Readable) {v : Value}
    (hv : v.IsDocument) (hshort : ∀ w ∈ v.leaves, Value.isLong w = false) : ReadBack mode m v := by
  induction hv with
  | null =>
    exact readBack_bare mode .null rfl fun rest _ => by
      rw [scalarText, readBare, readName?_null]
  | bool b =>
    exact readBack_bare mode (.bool b) rfl fun rest _ => by
      rw [scalarText, readBare, readName?_bool]
  | int n =>
    apply readBack_bare mode (.int n) rfl
    intro rest hrest
    have hn : Value.isLong (.int n) = false := hshort _ (by simp [Value.leaves])
    rw [scalarText, readBare, ((startsNumber_int n).append rest).readName?]
    exact readNumber_int hn hrest
  | str s =>
    intro steps rest hsteps _
    obtain ⟨cs, htext⟩ : ∃ cs, (stringText s).toList = '"' :: cs := ⟨_, toList_stringText s⟩
    have hread := readString_of_text mode htext rest
    have hwrite : (write m (.str s)).toList = '"' :: cs := htext
    rw [hwrite, List.length_cons] at hsteps
    obtain ⟨steps, rfl⟩ := Nat.exists_eq_add_of_le' (show 1 ≤ steps by omega)
    rw [hwrite, List.cons_append, readValue, hread]
    dsimp only
    rw [String.ofList_toList]
  | @list items hitems ih =>
    intro steps rest hsteps _
    have hread : ∀ w ∈ items, w.IsDocument ∧ ReadBack mode m w := fun w hw =>
      ⟨hitems w hw, ih w hw (isLong_items hshort hw)⟩
    rw [toList_write_list] at hsteps ⊢
    obtain ⟨steps, rfl⟩ := Nat.exists_eq_add_of_le' (show 1 ≤ steps by simp at hsteps; omega)
    cases items with
    | nil => rfl
    | cons w items =>
      rw [List.map_cons, intercalate_append, List.length_cons] at hsteps
      obtain ⟨c, cs, htext, -, hc⟩ := exists_head_visible (m := m) (hread w List.mem_cons_self).1
      have hitems := readItems_write hm hread rest [] (show _ ≤ steps by omega)
      rw [List.map_cons, List.cons_append, List.append_assoc, List.singleton_append,
        intercalate_append, readValue, skipSpace_write (hread w List.mem_cons_self).1]
      -- the list is not closed, since the text of an item does not start with a bracket
      split
      · rename_i hclosed
        rw [htext] at hclosed
        exact absurd (List.cons.inj hclosed).1 hc
      · exact hitems
  | @object fields hkeys hfields ih =>
    intro steps rest hsteps _
    have hread : ∀ f ∈ fields, f.2.IsDocument ∧ ReadBack mode m f.2 := fun f hf =>
      ⟨hfields f hf, ih f hf (isLong_fields hshort hf)⟩
    rw [toList_write_object] at hsteps ⊢
    obtain ⟨steps, rfl⟩ := Nat.exists_eq_add_of_le' (show 1 ≤ steps by simp at hsteps; omega)
    cases fields with
    | nil => rfl
    | cons f fields =>
      rw [List.map_cons, intercalate_append, List.length_cons] at hsteps
      have hfields := readFields_write hm hread rest [] hkeys (show _ ≤ steps by omega)
      rw [List.map_cons, List.cons_append, List.append_assoc, List.singleton_append,
        intercalate_append, readValue, skipSpace_field]
      -- the object is not closed, since a field starts with a quote
      split
      · rename_i hclosed
        rw [fieldChars, toList_stringText] at hclosed
        exact absurd (List.cons.inj hclosed).1 (by decide)
      · exact hfields

/-- The text of an object is read back as the object. -/
theorem read_write (mode : Mode) {m : Marks} (hm : m.Readable) {fields : List (String × Value)}
    (hd : (Value.object fields).IsDocument)
    (hshort : ∀ w ∈ (Value.object fields).leaves, Value.isLong w = false) :
    read mode (write m (.object fields)) = .ok (.object fields) := by
  obtain ⟨cs, htext⟩ : ∃ cs, (write m (.object fields)).toList = '\x7b' :: cs :=
    ⟨_, toList_write_object m fields⟩
  have hend : Stops [] := fun c hc => by simp at hc
  have hread := readValue_write mode hm hd hshort (2 * (write m (.object fields)).toList.length + 2)
    [] (by omega) hend
  rw [List.append_nil] at hread
  have hchars : readChars mode (write m (.object fields)).toList = .ok (.object fields) := by
    unfold readChars
    rw [← List.append_nil (write m (.object fields)).toList, skipSpace_write hd, List.append_nil,
      hread]
    rfl
  unfold read
  dsimp only
  split
  · rename_i hmark
    rw [htext] at hmark
    exact absurd (List.cons.inj hmark).1 (by decide)
  · rw [hchars]

end Json

end SolidityAudit
