import Mathlib.Data.List.Infix
import SolidityAudit.Proofs.Json.Reader

/-!
# Where strings stand in a text

The text of a document is made of its strings, keys included, and of marks between them
(`layout_write`). All of it is printable ASCII. Backticks are no marks, so a run of characters that
has one of them and no quote stands inside one string (`Layout.part_iff`), and there it stands as it
does in the string itself (`infix_inside_iff`).
-/

namespace SolidityAudit.Json

/-! ## Strings -/

/-- The characters that escapes are made of. -/
def escapeChars : List Char := "\\\"/bfnrtu0123456789abcdef".toList

/-- A printable character of ASCII. -/
def IsPlain (c : Char) : Prop := 0x20 ≤ c.toNat ∧ c.toNat < 0x7F

instance : DecidablePred IsPlain :=
  fun c => inferInstanceAs (Decidable (0x20 ≤ c.toNat ∧ c.toNat < 0x7F))

lemma digitChar_mem_escapeChars {d : Nat} (h : d < 16) : d.digitChar ∈ escapeChars := by
  have hall : ∀ d < 16, Nat.digitChar d ∈ escapeChars := by decide
  exact hall d h

lemma hexDigits_mem_escapeChars {n : Nat} (hn : n < 0x10000) {e : Char}
    (he : e ∈ (Text.hexDigits 4 n).toList) : e ∈ escapeChars := by
  rw [toList_hexDigits_four hn] at he
  simp only [List.mem_cons, List.not_mem_nil, or_false] at he
  rcases he with rfl | rfl | rfl | rfl
  all_goals exact digitChar_mem_escapeChars (by omega)

lemma escaped?_mem {e c : Char} (h : escaped? e = some c) : e ∈ escapeChars := by
  unfold escaped? at h
  split at h
  all_goals first | decide | cases h

lemma pair_of_escapeChars {c : Char} (hlarge : 0x10000 ≤ c.toNat)
    (hc : charText c = "\\u" ++ Text.hexDigits 4 (0xD800 + (c.toNat - 0x10000) / 0x400)
      ++ "\\u" ++ Text.hexDigits 4 (0xDC00 + (c.toNat - 0x10000) % 0x400)) :
    ∃ high low, charText c = "\\u" ++ high ++ "\\u" ++ low ∧
      (∀ e ∈ high.toList, e ∈ escapeChars) ∧ ∀ e ∈ low.toList, e ∈ escapeChars := by
  have hvalid := toNat_valid c
  refine ⟨_, _, hc, ?_, ?_⟩
  · exact fun e he => hexDigits_mem_escapeChars (by omega) he
  · exact fun e he => hexDigits_mem_escapeChars (by omega) he

/-- A character is written as itself, or as an escape. -/
lemma charText_plain_or_escape (c : Char) :
    ((charText c).toList = [c] ∧ IsPlain c) ∨ ∀ e ∈ (charText c).toList, e ∈ escapeChars := by
  have hmark : "\\u".toList = ['\\', 'u'] := rfl
  rcases charText_cases c with ⟨e, he, -, hescaped⟩ | ⟨hc, -, -, hplain⟩ | ⟨hbasic, hc⟩ |
    ⟨hlarge, hc⟩
  · right
    rw [he]
    intro d hd
    simp only [List.mem_cons, List.not_mem_nil, or_false] at hd
    rcases hd with rfl | rfl
    · decide
    · exact escaped?_mem hescaped
  · exact .inl ⟨hc, hplain⟩
  · right
    rw [hc, String.toList_append, hmark]
    intro d hd
    simp only [List.cons_append, List.nil_append, List.mem_cons] at hd
    rcases hd with rfl | rfl | hd
    · decide
    · decide
    · exact hexDigits_mem_escapeChars hbasic hd
  · -- the numbers of the pair are too large to be computed with
    right
    obtain ⟨high, low, hc, hhigh, hlow⟩ := pair_of_escapeChars hlarge hc
    rw [hc, String.toList_append, String.toList_append, String.toList_append, hmark]
    intro d hd
    simp only [List.cons_append, List.nil_append, List.mem_cons, List.mem_append] at hd
    rcases hd with rfl | rfl | ((hd | rfl | rfl | hd) | hd)
    · decide
    · decide
    · exact hhigh d hd
    · decide
    · decide
    · cases hd
    · exact hlow d hd

/-- What holds of each item of a list, from the computed check. -/
lemma forall_mem_of_all {α : Type} {p : α → Prop} [DecidablePred p] {l : List α}
    (h : (l.all fun a => decide (p a)) = true) : ∀ a ∈ l, p a :=
  fun a ha => of_decide_eq_true (List.all_eq_true.mp h a ha)

lemma escapeChars_plain : ∀ e ∈ escapeChars, IsPlain e ∧ e ≠ '\x60' :=
  forall_mem_of_all (by decide)

lemma charText_plain {c e : Char} (h : e ∈ (charText c).toList) : IsPlain e := by
  rcases charText_plain_or_escape c with ⟨hc, hplain⟩ | hescape
  · rw [hc, List.mem_singleton] at h
    exact h ▸ hplain
  · exact (escapeChars_plain e (hescape e h)).1

/-- The characters of a string between its quotes. -/
def inside (cs : List Char) : List Char := cs.flatMap fun c => (charText c).toList

/-- A run of printable characters that no escape is made of. -/
def Inert (w : List Char) : Prop := ∀ c ∈ w, IsPlain c ∧ c ∉ escapeChars

lemma charText_inert {c : Char} (hplain : IsPlain c) (h : c ∉ escapeChars) :
    (charText c).toList = [c] := by
  have hne {e : Char} (he : e ∈ escapeChars) : c ≠ e := by
    rintro rfl
    exact h he
  have hlow {n : Nat} (hn : n < 0x20) : c.toNat ≠ n := by
    have hc := hplain.1
    omega
  have hcontrol {d : Char} (hd : d.toNat < 0x20) : c ≠ d := by
    rintro rfl
    exact hlow hd rfl
  unfold charText
  dsimp only
  rw [if_neg (hne (by decide)), if_neg (hne (by decide)), if_neg (hcontrol (by decide)),
    if_neg (hcontrol (by decide)), if_neg (hcontrol (by decide)), if_neg (hlow (by decide)),
    if_neg (hlow (by decide)), if_pos (show 0x20 ≤ c.toNat ∧ c.toNat < 0x7F from hplain)]
  exact String.toList_singleton c

section Inert

variable {w : List Char}

lemma inside_inert (hw : Inert w) : inside w = w := by
  induction w with
  | nil => rfl
  | cons c w ih =>
    have hc := hw c List.mem_cons_self
    have htail := ih fun d hd => hw d (List.mem_cons_of_mem c hd)
    unfold inside at htail ⊢
    rw [List.flatMap_cons, charText_inert hc.1 hc.2, htail]
    rfl

lemma inside_append (cs ds : List Char) : inside (cs ++ ds) = inside cs ++ inside ds :=
  List.flatMap_append

/-- What starts with an escape does not start with such a run. -/
lemma not_prefix_escape {e : Char} {es cs : List Char} (hw : Inert w) (hne : w ≠ [])
    (he : e ∈ escapeChars) : ¬ w <+: e :: es ++ cs := by
  rintro ⟨rest, hrest⟩
  cases w with
  | nil => exact hne rfl
  | cons c w =>
    obtain ⟨rfl, -⟩ := List.cons.inj hrest
    exact (hw c List.mem_cons_self).2 he

lemma prefix_inside (hw : Inert w) {cs : List Char} (h : w <+: inside cs) : w <+: cs := by
  induction cs generalizing w with
  | nil => exact h
  | cons c cs ih =>
    cases w with
    | nil => exact List.nil_prefix
    | cons d w =>
      obtain ⟨rest, hrest⟩ := h
      rw [inside, List.flatMap_cons] at hrest
      rcases charText_plain_or_escape c with ⟨hc, -⟩ | hescape
      · rw [hc] at hrest
        obtain ⟨rfl, htail⟩ := List.cons.inj hrest
        have hw' : Inert w := fun e he => hw e (List.mem_cons_of_mem d he)
        exact List.prefix_cons_inj d |>.mpr (ih hw' ⟨rest, htail⟩)
      · -- the first character of an escape is no character of the run
        obtain ⟨e, es, htext⟩ := List.exists_cons_of_ne_nil (charText_ne_nil c)
        rw [htext] at hrest
        obtain ⟨rfl, -⟩ := List.cons.inj hrest
        exact absurd (hescape d (htext ▸ List.mem_cons_self)) (hw d List.mem_cons_self).2

/-- Behind an escape such a run stands where it stood without it. -/
lemma infix_escape (hw : Inert w) (hne : w ≠ []) {es cs : List Char}
    (hes : ∀ e ∈ es, e ∈ escapeChars) (h : w <:+: es ++ cs) : w <:+: cs := by
  induction es with
  | nil => exact h
  | cons e es ih =>
    rcases List.infix_cons_iff.mp h with hstart | hpart
    · exact absurd hstart (not_prefix_escape hw hne (hes e List.mem_cons_self))
    · exact ih (fun d hd => hes d (List.mem_cons_of_mem e hd)) hpart

/-- Such a run stands between the quotes exactly where it stands in the string. -/
lemma infix_inside_iff (hw : Inert w) (hne : w ≠ []) (cs : List Char) :
    w <:+: inside cs ↔ w <:+: cs := by
  constructor
  · intro h
    induction cs with
    | nil => exact h
    | cons c cs ih =>
      rcases charText_plain_or_escape c with ⟨hc, -⟩ | hescape
      · have hinside : inside (c :: cs) = c :: inside cs := by
          rw [inside, List.flatMap_cons, hc]
          rfl
        rw [hinside] at h
        rcases List.infix_cons_iff.mp h with hstart | hpart
        · rw [← hinside] at hstart
          exact (prefix_inside hw hstart).isInfix
        · exact List.infix_cons (ih hpart)
      · exact List.infix_cons (ih (infix_escape hw hne hescape h))
  · rintro ⟨before, after, rfl⟩
    rw [inside_append, inside_append, inside_inert hw]
    exact List.infix_append ..

end Inert

/-! ## Marks and strings -/

/-- A printable character that is neither a quote nor a backtick. -/
def IsMark (c : Char) : Prop := IsPlain c ∧ c ≠ '"' ∧ c ≠ '\x60'

instance : DecidablePred IsMark :=
  fun c => inferInstanceAs (Decidable (IsPlain c ∧ c ≠ '"' ∧ c ≠ '\x60'))

/-- The text is made of the given strings, in their quotes, and of marks before, between and behind
them. -/
inductive Layout : List Char → List String → Prop
  | nil : Layout [] []
  | mark {c : Char} {cs : List Char} {strings : List String} (hc : IsMark c)
    (h : Layout cs strings) : Layout (c :: cs) strings
  | string (s : String) {cs : List Char} {strings : List String} (h : Layout cs strings) :
    Layout ('"' :: (inside s.toList ++ '"' :: cs)) (s :: strings)

namespace Layout

variable {cs ds : List Char} {strings others : List String}

lemma append (h : Layout cs strings) (h' : Layout ds others) :
    Layout (cs ++ ds) (strings ++ others) := by
  induction h with
  | nil => exact h'
  | mark hc _ ih => exact mark hc ih
  | string s _ ih =>
    rw [List.cons_append, List.append_assoc, List.cons_append]
    exact string s ih

lemma of_marks (h : ∀ c ∈ cs, IsMark c) : Layout cs [] := by
  induction cs with
  | nil => exact nil
  | cons c cs ih =>
    exact mark (h c List.mem_cons_self) (ih fun d hd => h d (List.mem_cons_of_mem c hd))

lemma of_string (s : String) : Layout (stringText s).toList [s] := by
  rw [toList_stringText]
  exact string s nil

/-- The texts of items with marks between them. -/
lemma intercalate {α : Type} {separator : List Char} (hseparator : ∀ c ∈ separator, IsMark c)
    {text : α → List Char} {stringsOf : α → List String} {items : List α}
    (h : ∀ x ∈ items, Layout (text x) (stringsOf x)) :
    Layout (separator.intercalate (items.map text)) (items.flatMap stringsOf) := by
  cases items with
  | nil => exact nil
  | cons x items =>
    have htail : Layout ((items.map text).flatMap fun t => separator ++ t)
        (items.flatMap stringsOf) := by
      induction items with
      | nil => exact nil
      | cons y items ih =>
        have hy := (of_marks hseparator).append (h y (by simp))
        rw [List.map_cons, List.flatMap_cons, List.flatMap_cons]
        exact hy.append (ih fun z hz => h z (by
          rcases List.mem_cons.mp hz with rfl | hz
          · exact List.mem_cons_self
          · simp [hz]))
    rw [List.map_cons, intercalate_cons, List.flatMap_cons]
    exact (h x List.mem_cons_self).append htail

/-- All of the text is printable. -/
lemma plain (h : Layout cs strings) : ∀ c ∈ cs, IsPlain c := by
  have hquote : IsPlain '"' := by decide
  induction h with
  | nil => simp
  | mark hc _ ih =>
    intro d hd
    rcases List.mem_cons.mp hd with rfl | hd
    · exact hc.1
    · exact ih d hd
  | string s _ ih =>
    intro d hd
    simp only [List.mem_cons, List.mem_append] at hd
    rcases hd with rfl | hd | rfl | hd
    · exact hquote
    · obtain ⟨c, -, hc⟩ := List.mem_flatMap.mp hd
      exact charText_plain hc
    · exact hquote
    · exact ih d hd

end Layout

section Part

variable {w cs ds : List Char} {strings : List String}

lemma prefix_of_not_mem {a : Char} (ha : a ∉ w) (h : w <+: cs ++ a :: ds) : w <+: cs := by
  have hsplit : cs ++ a :: ds = (cs ++ [a]) ++ ds := by simp
  rw [hsplit] at h
  rcases List.prefix_or_prefix_of_prefix h (List.prefix_append (cs ++ [a]) ds) with hw | hlong
  · rcases List.prefix_concat_iff.mp hw with rfl | hw
    · simp at ha
    · exact hw
  · exact absurd (hlong.subset (by simp)) ha

/-- A run without a certain character stands before or behind it. -/
lemma infix_of_not_mem {a : Char} (ha : a ∉ w) (h : w <:+: cs ++ a :: ds) :
    w <:+: cs ∨ w <:+: ds := by
  induction cs with
  | nil =>
    rcases List.infix_cons_iff.mp h with hstart | hpart
    · exact .inl (prefix_of_not_mem ha (show w <+: [] ++ a :: ds from hstart)).isInfix
    · exact .inr hpart
  | cons c cs ih =>
    rcases List.infix_cons_iff.mp h with hstart | hpart
    · exact .inl (prefix_of_not_mem ha (show w <+: (c :: cs) ++ a :: ds from hstart)).isInfix
    · exact (ih hpart).imp_left List.infix_cons

/-- What a text starts with is made of marks up to the first quote. -/
lemma Layout.isMark_of_front (h : Layout cs strings) (hquote : '"' ∉ w) (hw : w <+: cs) :
    ∀ c ∈ w, IsMark c := by
  induction h generalizing w with
  | nil =>
    rw [List.prefix_nil.mp hw]
    simp
  | mark hc _ ih =>
    cases w with
    | nil => simp
    | cons d w =>
      obtain ⟨rest, hrest⟩ := hw
      obtain ⟨rfl, htail⟩ := List.cons.inj hrest
      have hquote' : '"' ∉ w := fun h => hquote (List.mem_cons_of_mem d h)
      exact List.forall_mem_cons.mpr ⟨hc, ih hquote' ⟨rest, htail⟩⟩
  | string s _ _ =>
    have hempty := prefix_of_not_mem hquote (show w <+: [] ++ '"' :: _ from hw)
    rw [List.prefix_nil.mp hempty]
    simp

/-- A run with a backtick and without a quote stands between the quotes of one string. -/
theorem Layout.part_iff (h : Layout cs strings) (hquote : '"' ∉ w) (htick : '\x60' ∈ w) :
    w <:+: cs ↔ ∃ s ∈ strings, w <:+: inside s.toList := by
  induction h with
  | nil =>
    rw [List.infix_nil]
    constructor
    · rintro rfl
      cases htick
    · rintro ⟨s, hs, -⟩
      cases hs
  | mark hc htext ih =>
    rw [List.infix_cons_iff, ih]
    constructor
    · rintro (hstart | hpart)
      · exact absurd rfl ((htext.mark hc).isMark_of_front hquote hstart _ htick).2.2
      · exact hpart
    · exact .inr
  | @string s cs strings htext ih =>
    rw [List.exists_mem_cons_iff, ← ih]
    constructor
    · intro h
      rcases infix_of_not_mem hquote (show w <:+: [] ++ '"' :: _ from h) with hempty | hpart
      · rw [List.infix_nil.mp hempty] at htick
        cases htick
      · exact infix_of_not_mem hquote hpart
    · rintro (hpart | hpart)
      · exact hpart.trans ⟨['"'], '"' :: cs, by simp⟩
      · exact hpart.trans ⟨'"' :: (inside s.toList ++ ['"']), [], by simp⟩

end Part

end SolidityAudit.Json

namespace SolidityAudit.Value

/-- The strings of a value from the first to the last, keys included. -/
def strings (v : Value) : List String := v.leaves.filterMap text?

lemma mem_strings {v : Value} {s : String} : s ∈ v.strings ↔ .str s ∈ v.leaves := by
  rw [strings, List.mem_filterMap]
  constructor
  · rintro ⟨w, hw, hs⟩
    cases w with
    | str t =>
      rw [text?, Option.some_inj] at hs
      exact hs ▸ hw
    | null | bool | int | float | list | object => cases hs
  · exact fun h => ⟨_, h, rfl⟩

lemma strings_list (items : List Value) : (Value.list items).strings = items.flatMap strings := by
  rw [strings, leaves_list, List.filterMap_flatMap]
  rfl

lemma strings_object (fields : List (String × Value)) :
    (Value.object fields).strings = fields.flatMap fun f => f.1 :: f.2.strings := by
  rw [strings, leaves_object, List.filterMap_flatMap]
  rfl

end SolidityAudit.Value

namespace SolidityAudit.Json

/-! ## Documents -/

lemma isMark_of_isBare {c : Char} (h : isBare c = true) : IsMark c := by
  have hrange : IsPlain c := by
    change (((decide (c.val ≥ 'A'.val ∧ c.val ≤ 'Z'.val) ||
      (decide (c.val ≥ 'a'.val) && decide (c.val ≤ 'z'.val))) ||
        (decide (c.val ≥ '0'.val) && decide (c.val ≤ '9'.val))) || c == '-') = true at h
    simp only [Bool.or_eq_true, Bool.and_eq_true, decide_eq_true_eq, beq_iff_eq, ge_iff_le,
      UInt32.le_iff_toNat_le] at h
    show 0x20 ≤ c.val.toNat ∧ c.val.toNat < 0x7F
    rcases h with ((h | h) | h) | rfl
    · exact ⟨le_trans (by decide) h.1, lt_of_le_of_lt h.2 (by decide)⟩
    · exact ⟨le_trans (by decide) h.1, lt_of_le_of_lt h.2 (by decide)⟩
    · exact ⟨le_trans (by decide) h.1, lt_of_le_of_lt h.2 (by decide)⟩
    · decide
  refine ⟨hrange, ?_, ?_⟩
  · rintro rfl
    contradiction
  · rintro rfl
    contradiction

/-- The text of a document is made of its strings and of marks. -/
theorem layout_write {m : Marks} (hitem : ∀ c ∈ m.item.toList, IsMark c)
    (hkey : ∀ c ∈ m.key.toList, IsMark c) {v : Value} (hv : v.IsDocument) :
    Layout (write m v).toList v.strings := by
  have hmark {c : Char} (hc : IsMark c) : Layout [c] [] := .mark hc .nil
  have hbare {v : Value} (hv : v.IsDocument) (hform : formOf v = .bare) :
      Layout (write m v).toList [] :=
    .of_marks fun c hc => isMark_of_isBare ((write_bare hv hform).1 c hc)
  induction hv with
  | null => exact hbare .null rfl
  | bool b => exact hbare (.bool b) rfl
  | int n => exact hbare (.int n) rfl
  | str s => exact .of_string s
  | @list items _ ih =>
    have hitems := Layout.intercalate hitem ih
    rw [toList_write_list, Value.strings_list, ← List.append_nil (items.flatMap _)]
    exact .mark (by decide)
      (hitems.append (hmark (by decide)))
  | @object fields _ _ ih =>
    have hfields : Layout (m.item.toList.intercalate (fields.map (fieldChars m)))
        (fields.flatMap fun f => f.1 :: f.2.strings) := by
      apply Layout.intercalate hitem
      intro f hf
      exact (Layout.of_string f.1).append ((Layout.of_marks hkey).append (ih f hf))
    rw [toList_write_object, Value.strings_object, ← List.append_nil (fields.flatMap _)]
    exact .mark (by decide)
      (hfields.append (hmark (by decide)))

end SolidityAudit.Json
