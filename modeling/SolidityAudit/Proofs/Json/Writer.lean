import Std.Data.String.ToInt
import SolidityAudit.Fault
import SolidityAudit.Proofs.Json.Quoted
import SolidityAudit.Proofs.Value.Leaves

/-!
# What is written can be told apart

The text of a document tells which document it is and where it ends, as long as what follows does
not go on with a letter, a digit or a sign (`write_append_inj`). The first character of a text tells
its form; names and numbers end where such a character is missing, strings at their closing quote,
and lists and objects at their closing bracket. So the canonical text, which is the one that is
anchored, tells the document up to the order of its keys (`canonical_eq_iff`).
-/

namespace SolidityAudit.Json

/-! ## Names and numbers -/

/-- The characters of names and numbers. -/
def isBare (c : Char) : Bool := c.isAlphanum || c == '-'

/-- What follows a text does not go on with a character of names and numbers. -/
def Ends (rest : List Char) : Prop := ∀ c ∈ rest.head?, isBare c = false

lemma ends_cons {c : Char} (h : isBare c = false) (rest : List Char) : Ends (c :: rest) := by
  intro d hd
  rw [← Option.some_inj.mp hd]
  exact h

lemma takeWhile_isBare {cs rest : List Char} (hcs : ∀ c ∈ cs, isBare c = true) (hrest : Ends rest) :
    (cs ++ rest).takeWhile isBare = cs := by
  rw [List.takeWhile_append_of_pos hcs]
  cases rest with
  | nil => exact List.append_nil cs
  | cons c rest => rw [List.takeWhile_cons_of_neg (by simp [hrest c rfl]), List.append_nil]

/-- An integer is written with its digits, and with a sign in front if it is negative. -/
lemma toList_toString_int (n : Int) :
    ∃ sign digits, (toString n).toList = sign ++ digits ∧ (∀ c ∈ sign, c = '-') ∧
      (∀ c ∈ digits, c.isDigit = true) ∧ digits ≠ [] := by
  cases n with
  | ofNat n =>
    refine ⟨[], Nat.toDigits 10 n, Nat.toList_repr, by simp, ?_, Nat.toDigits_ne_nil⟩
    exact fun c hc => Nat.isDigit_of_mem_toDigits (by omega) (by omega) hc
  | negSucc n =>
    refine ⟨['-'], Nat.toDigits 10 (n + 1), ?_, by simp, ?_, Nat.toDigits_ne_nil⟩
    · show ("-" ++ (n + 1).repr).toList = _
      rw [String.toList_append, Nat.toList_repr]
      rfl
    · exact fun c hc => Nat.isDigit_of_mem_toDigits (by omega) (by omega) hc

lemma mem_toString_int {n : Int} {c : Char} (h : c ∈ (toString n).toList) :
    c.isDigit = true ∨ c = '-' := by
  obtain ⟨sign, digits, htext, hsign, hdigits, -⟩ := toList_toString_int n
  rw [htext] at h
  exact (List.mem_append.mp h).elim (fun h => .inr (hsign c h)) (fun h => .inl (hdigits c h))

lemma toString_int_ne_nil (n : Int) : (toString n).toList ≠ [] := by
  obtain ⟨sign, digits, htext, -, -, hdigits⟩ := toList_toString_int n
  rw [htext]
  exact List.append_ne_nil_of_right_ne_nil sign hdigits

/-- An integer is not written like a name. -/
lemma toString_int_ne {n : Int} {name : String} {c : Char} (hc : c ∈ name.toList)
    (hdigit : c.isDigit = false) (hsign : c ≠ '-') : toString n ≠ name := by
  intro h
  rw [← h] at hc
  rcases mem_toString_int hc with hdigit' | hsign'
  · exact absurd (hdigit.symm.trans hdigit') Bool.false_ne_true
  · exact hsign hsign'

/-! ## The forms of documents -/

/-- Names and numbers, and the other forms of documents. -/
inductive Form
  | bare | string | list | object
deriving DecidableEq

/-- The form of a value. -/
def formOf : Value → Form
  | .str _ => .string
  | .list _ => .list
  | .object _ => .object
  | _ => .bare

/-- The form of the text that starts with a character. -/
def openedBy (c : Char) : Form :=
  if c = '"' then .string else if c = '[' then .list else if c = '\x7b' then .object else .bare

lemma openedBy_of_isBare {c : Char} (h : isBare c = true) : openedBy c = .bare := by
  unfold openedBy
  split_ifs with hquote hbracket hbrace
  · subst hquote; contradiction
  · subst hbracket; contradiction
  · subst hbrace; contradiction
  · rfl

lemma toList_item_tight : Marks.tight.item.toList = [','] := rfl

lemma writeItems_eq_map (m : Marks) (items : List Value) :
    writeItems m items = items.map (write m) := by
  induction items with
  | nil => rfl
  | cons v rest ih => rw [writeItems, ih, List.map_cons]

lemma writeFields_eq_map (m : Marks) (fields : List (String × Value)) :
    writeFields m fields = fields.map fun f => stringText f.1 ++ m.key ++ write m f.2 := by
  induction fields with
  | nil => rfl
  | cons f rest ih => rw [writeFields, ih, List.map_cons]

lemma toList_write_list (m : Marks) (items : List Value) :
    (write m (.list items)).toList =
      '[' :: (m.item.toList.intercalate (items.map fun v => (write m v).toList) ++ [']']) := by
  rw [write, String.toList_append, String.toList_append, String.toList_intercalate,
    writeItems_eq_map, List.map_map]
  rfl

/-- A field as it is written. -/
def fieldChars (m : Marks) (f : String × Value) : List Char :=
  (stringText f.1).toList ++ (m.key.toList ++ (write m f.2).toList)

lemma fieldChars_tight (f : String × Value) :
    fieldChars .tight f = (stringText f.1).toList ++ ':' :: (write .tight f.2).toList := rfl

lemma toList_write_object (m : Marks) (fields : List (String × Value)) :
    (write m (.object fields)).toList =
      '\x7b' :: (m.item.toList.intercalate (fields.map (fieldChars m)) ++ ['\x7d']) := by
  have hfields : (writeFields m fields).map String.toList = fields.map (fieldChars m) := by
    rw [writeFields_eq_map, List.map_map]
    apply List.map_congr_left
    intro f hf
    show (stringText f.1 ++ m.key ++ write m f.2).toList = _
    rw [String.toList_append, String.toList_append, List.append_assoc]
    rfl
  rw [write, String.toList_append, String.toList_append, String.toList_intercalate, hfields]
  rfl

/-- The marks do not matter for names and numbers. -/
lemma write_eq_scalarText {m : Marks} {v : Value} (hform : formOf v = .bare) :
    write m v = scalarText v := by
  cases v with
  | null | bool | int | float => rfl
  | str | list | object => cases hform

/-- The text of a name or a number. -/
lemma write_bare {m : Marks} {v : Value} (hv : v.IsDocument) (hform : formOf v = .bare) :
    (∀ c ∈ (write m v).toList, isBare c = true) ∧ (write m v).toList ≠ [] := by
  rw [write_eq_scalarText hform]
  cases hv with
  | null => exact ⟨List.all_eq_true.mp (by decide), by decide⟩
  | bool b =>
    cases b with
    | true => exact ⟨List.all_eq_true.mp (by decide), by decide⟩
    | false => exact ⟨List.all_eq_true.mp (by decide), by decide⟩
  | int n =>
    refine ⟨?_, toString_int_ne_nil n⟩
    intro c hc
    rcases mem_toString_int hc with hdigit | hsign
    · simp [isBare, Char.isAlphanum, hdigit]
    · simp [isBare, hsign]
  | str | list | object => cases hform

/-- The first character of a text tells its form, and closes nothing. -/
lemma exists_head {m : Marks} {v : Value} (hv : v.IsDocument) :
    ∃ c cs, (write m v).toList = c :: cs ∧ openedBy c = formOf v ∧ c ≠ ']' := by
  cases hform : formOf v with
  | bare =>
    obtain ⟨hbare, hne⟩ := write_bare hv hform
    obtain ⟨c, cs, htext⟩ := List.exists_cons_of_ne_nil hne
    have hc : isBare c = true := hbare c (htext ▸ List.mem_cons_self)
    refine ⟨c, cs, htext, openedBy_of_isBare hc, ?_⟩
    rintro rfl
    contradiction
  | string =>
    cases hv with
    | str s => exact ⟨_, _, toList_stringText s, rfl, by decide⟩
    | null | bool | int | list | object => cases hform
  | list =>
    cases hv with
    | list => exact ⟨_, _, toList_write_list .., rfl, by decide⟩
    | null | bool | int | str | object => cases hform
  | object =>
    cases hv with
    | object => exact ⟨_, _, toList_write_object .., rfl, by decide⟩
    | null | bool | int | str | list => cases hform

section Texts

variable {v w : Value} {rest rest' : List Char}

/-- Texts that go on to be the same have one form. -/
lemma formOf_eq (hv : v.IsDocument) (hw : w.IsDocument)
    (h : (write .tight v).toList ++ rest = (write .tight w).toList ++ rest') :
    formOf v = formOf w := by
  obtain ⟨c, cs, hc, hform, -⟩ := exists_head hv
  obtain ⟨d, ds, hd, hform', -⟩ := exists_head hw
  rw [hc, hd] at h
  obtain ⟨rfl, -⟩ := List.cons.inj h
  exact hform.symm.trans hform'

/-- Different names and numbers have different texts. -/
lemma eq_of_write_eq (hv : v.IsDocument) (hw : w.IsDocument) (hformv : formOf v = .bare)
    (hformw : formOf w = .bare) (h : write .tight v = write .tight w) : v = w := by
  have hnull (n : Int) : toString n ≠ "null" :=
    toString_int_ne (show 'n' ∈ "null".toList by decide) (by decide) (by decide)
  have hbool (b : Bool) (n : Int) : toString n ≠ if b then "true" else "false" := by
    cases b with
    | true => exact toString_int_ne (show 't' ∈ "true".toList by decide) (by decide) (by decide)
    | false => exact toString_int_ne (show 'f' ∈ "false".toList by decide) (by decide) (by decide)
  cases hv with
  | null =>
    cases hw with
    | null => rfl
    | bool b => cases b <;> contradiction
    | int n => exact absurd h.symm (hnull n)
    | str | list | object => cases hformw
  | bool b =>
    cases hw with
    | null => cases b <;> contradiction
    | bool b' => cases b <;> cases b' <;> first | rfl | contradiction
    | int n => exact absurd h.symm (hbool b n)
    | str | list | object => cases hformw
  | int n =>
    cases hw with
    | null => exact absurd h (hnull n)
    | bool b => exact absurd h (hbool b n)
    | int n' => rw [Int.repr_injective h]
    | str | list | object => cases hformw
  | str | list | object => cases hformv

/-- A name or a number ends where no character of one follows. -/
lemma write_bare_append_inj (hv : v.IsDocument) (hw : w.IsDocument) (hform : formOf v = .bare)
    (hrest : Ends rest) (hrest' : Ends rest')
    (h : (write .tight v).toList ++ rest = (write .tight w).toList ++ rest') :
    v = w ∧ rest = rest' := by
  have hform' : formOf w = .bare := (formOf_eq hv hw h).symm.trans hform
  have htext : (write .tight v).toList = (write .tight w).toList := by
    rw [← takeWhile_isBare (write_bare hv hform).1 hrest,
      ← takeWhile_isBare (write_bare hw hform').1 hrest', h]
  rw [htext] at h
  exact ⟨eq_of_write_eq hv hw hform hform' (String.toList_inj.mp htext), List.append_cancel_left h⟩

end Texts

/-! ## Sequences -/

section Sequences

variable {α : Type} {f : α → List Char} {close : Char} {xs ys : List α} {rest rest' : List Char}

/-- The texts of items can be told apart, whatever ends them. -/
def Distinct (f : α → List Char) (xs ys : List α) : Prop :=
  ∀ x ∈ xs, ∀ y ∈ ys, ∀ rest rest', Ends rest → Ends rest' →
    f x ++ rest = f y ++ rest' → x = y ∧ rest = rest'

lemma ends_tail (hclose : isBare close = false) (xs : List α) (rest : List Char) :
    Ends ((xs.flatMap fun x => ',' :: f x) ++ close :: rest) := by
  cases xs with
  | nil => exact ends_cons hclose rest
  | cons x xs => exact ends_cons (by decide) _

/-- Items with a comma before each can be told apart up to the closing bracket. -/
lemma tail_inj (hdistinct : Distinct f xs ys) (hclose : isBare close = false)
    (hcomma : close ≠ ',')
    (h : (xs.flatMap fun x => ',' :: f x) ++ close :: rest =
      (ys.flatMap fun y => ',' :: f y) ++ close :: rest') : xs = ys ∧ rest = rest' := by
  induction xs generalizing ys with
  | nil =>
    cases ys with
    | nil => exact ⟨rfl, (List.cons.inj h).2⟩
    | cons y ys => exact absurd (List.cons.inj h).1 hcomma
  | cons x xs ih =>
    cases ys with
    | nil => exact absurd (List.cons.inj h).1.symm hcomma
    | cons y ys =>
      rw [List.flatMap_cons, List.flatMap_cons, List.append_assoc, List.append_assoc] at h
      have hitems := (List.cons.inj h).2
      obtain ⟨rfl, htail⟩ := hdistinct x List.mem_cons_self y List.mem_cons_self _ _
        (ends_tail hclose xs rest) (ends_tail hclose ys rest') hitems
      have hrest : Distinct f xs ys := fun x hx y hy =>
        hdistinct x (List.mem_cons_of_mem _ hx) y (List.mem_cons_of_mem _ hy)
      obtain ⟨rfl, hends⟩ := ih hrest htail
      exact ⟨rfl, hends⟩

lemma intercalate_cons (separator text : List Char) (texts : List (List Char)) :
    separator.intercalate (text :: texts) = text ++ texts.flatMap fun t => separator ++ t := by
  induction texts generalizing text with
  | nil => simp [List.intercalate]
  | cons t texts ih => rw [List.intercalate_cons_cons, ih, List.flatMap_cons]; simp

/-- Items with a comma between them can be told apart up to the closing bracket. -/
lemma intercalate_inj (hdistinct : Distinct f xs ys) (hclose : isBare close = false)
    (hcomma : close ≠ ',') (hopen : ∀ x ∈ xs ++ ys, ∃ c cs, f x = c :: cs ∧ c ≠ close)
    (h : [','].intercalate (xs.map f) ++ close :: rest =
      [','].intercalate (ys.map f) ++ close :: rest') : xs = ys ∧ rest = rest' := by
  cases xs with
  | nil =>
    cases ys with
    | nil => exact ⟨rfl, (List.cons.inj h).2⟩
    | cons y ys =>
      obtain ⟨c, cs, hy, hc⟩ := hopen y (by simp)
      rw [List.map_cons, intercalate_cons, hy] at h
      exact absurd (List.cons.inj h).1.symm hc
  | cons x xs =>
    cases ys with
    | nil =>
      obtain ⟨c, cs, hx, hc⟩ := hopen x (by simp)
      rw [List.map_cons, intercalate_cons, hx] at h
      exact absurd (List.cons.inj h).1 hc
    | cons y ys =>
      -- the items are those of two sequences with a comma before each
      apply tail_inj hdistinct hclose hcomma
      rw [List.map_cons, List.map_cons, intercalate_cons, intercalate_cons, List.flatMap_map,
        List.flatMap_map] at h
      rw [List.flatMap_cons, List.flatMap_cons]
      exact congrArg (',' :: ·) h

end Sequences

/-! ## Documents -/

/-- The text of a document tells which document it is, and where it ends. -/
theorem write_append_inj {v w : Value} (hv : v.IsDocument) (hw : w.IsDocument)
    {rest rest' : List Char} (hrest : Ends rest) (hrest' : Ends rest')
    (h : (write .tight v).toList ++ rest = (write .tight w).toList ++ rest') :
    v = w ∧ rest = rest' := by
  induction hv generalizing w rest rest' with
  | null => exact write_bare_append_inj .null hw rfl hrest hrest' h
  | bool b => exact write_bare_append_inj (.bool b) hw rfl hrest hrest' h
  | int n => exact write_bare_append_inj (.int n) hw rfl hrest hrest' h
  | str s =>
    have hform := formOf_eq (.str s) hw h
    cases hw with
    | str t =>
      obtain ⟨rfl, hends⟩ := stringText_append_inj h
      exact ⟨rfl, hends⟩
    | null | bool | int | list | object => cases hform
  | @list xs hxs ih =>
    have hform := formOf_eq (.list hxs) hw h
    cases hw with
    | @list ys hys =>
      rw [toList_write_list, toList_write_list, toList_item_tight, List.cons_append,
        List.cons_append, List.append_assoc, List.append_assoc] at h
      have hdistinct : Distinct (fun v => (write .tight v).toList) xs ys :=
        fun x hx y hy _ _ hends hends' hxy => ih x hx (hys y hy) hends hends' hxy
      have hopen : ∀ v ∈ xs ++ ys, ∃ c cs, (write .tight v).toList = c :: cs ∧ c ≠ ']' := by
        intro v hmem
        have hv : v.IsDocument := (List.mem_append.mp hmem).elim (hxs v) (hys v)
        obtain ⟨c, cs, htext, -, hc⟩ := exists_head hv
        exact ⟨c, cs, htext, hc⟩
      obtain ⟨rfl, hends⟩ :=
        intercalate_inj hdistinct (by decide) (by decide) hopen (List.cons.inj h).2
      exact ⟨rfl, hends⟩
    | null | bool | int | str | object => cases hform
  | @object fs hfs hvalues ih =>
    have hform := formOf_eq (.object hfs hvalues) hw h
    cases hw with
    | @object gs hgs hvalues' =>
      rw [toList_write_object, toList_write_object, toList_item_tight, List.cons_append,
        List.cons_append, List.append_assoc, List.append_assoc] at h
      have hdistinct : Distinct (fieldChars .tight) fs gs := by
        intro f hf g hg rest rest' hends hends' hfg
        rw [fieldChars_tight, fieldChars_tight, List.append_assoc, List.append_assoc] at hfg
        -- first the keys, then the values behind the colon
        obtain ⟨hkey, hvalue⟩ := stringText_append_inj hfg
        obtain ⟨hfg, hrest⟩ := ih f hf (hvalues' g hg) hends hends' (List.cons.inj hvalue).2
        exact ⟨Prod.ext hkey hfg, hrest⟩
      have hopen : ∀ f ∈ fs ++ gs, ∃ c cs, fieldChars .tight f = c :: cs ∧ c ≠ '\x7d' := by
        intro f _
        rw [fieldChars, toList_stringText]
        exact ⟨_, _, rfl, by decide⟩
      obtain ⟨rfl, hends⟩ :=
        intercalate_inj hdistinct (by decide) (by decide) hopen (List.cons.inj h).2
      exact ⟨rfl, hends⟩
    | null | bool | int | str | list => cases hform

/-- Different documents have different texts. -/
theorem write_inj {v w : Value} (hv : v.IsDocument) (hw : w.IsDocument)
    (h : write .tight v = write .tight w) : v = w := by
  have hends : Ends [] := fun c hc => by simp at hc
  have htext : (write .tight v).toList ++ [] = (write .tight w).toList ++ [] := by rw [h]
  exact (write_append_inj hv hw hends hends htext).1

/-! ## Canonical texts -/

lemma textBy?_eq_some {layout : Value → String} {v : Value} {s : String} :
    textBy? layout v = some s ↔ v.hasLong = false ∧ layout v = s := by
  unfold textBy?
  cases v.hasLong <;> simp

lemma textBy?_eq_none {layout : Value → String} {v : Value} :
    textBy? layout v = none ↔ v.hasLong = true := by
  unfold textBy?
  cases v.hasLong <;> simp

/-- A value whose integers can be written has a text in every layout. -/
lemma writtenText_textBy? {v : Value} (h : v.hasLong = false) (layout : Value → String) :
    writtenText (textBy? layout v) = .ok (layout v) := by
  rw [textBy?_eq_some.mpr ⟨h, rfl⟩, writtenText]

/-- The layout of a canonical text tells two documents apart, integers of any size included, unless
they are the same up to the order of the keys inside their objects. -/
lemma write_sortKeys_eq_iff {v w : Value} (hv : v.IsDocument) (hw : w.IsDocument) :
    write .tight v.sortKeys = write .tight w.sortKeys ↔ Value.SameUpToOrder v w := by
  rw [← Value.sortKeys_eq_iff hv hw]
  exact ⟨fun h => write_inj hv.sortKeys hw.sortKeys h, fun h => by rw [h]⟩

/-- Two documents have one canonical text exactly when they are the same up to the order of the keys
inside their objects, at every depth; then they also lack a text together. A document lacks it only
when an integer in it has more digits than are written, and the layout itself would tell such
documents apart as well. -/
theorem canonical_eq_iff {v w : Value} (hv : v.IsDocument) (hw : w.IsDocument) :
    (∀ s t, canonical? v = some s → canonical? w = some t →
      (s = t ↔ Value.SameUpToOrder v w)) ∧
    (Value.SameUpToOrder v w → canonical? v = canonical? w) ∧
    (canonical? v = none ↔ ∃ leaf ∈ v.leaves, leaf.isLong = true) ∧
    (write .tight v.sortKeys = write .tight w.sortKeys ↔ Value.SameUpToOrder v w) := by
  have hlayout := write_sortKeys_eq_iff hv hw
  refine ⟨?_, ?_, ?_, hlayout⟩
  · intro s t hs ht
    obtain ⟨-, rfl⟩ := textBy?_eq_some.mp hs
    obtain ⟨-, rfl⟩ := textBy?_eq_some.mp ht
    exact hlayout
  · intro h
    rw [canonical?, canonical?, (Value.sortKeys_eq_iff hv hw).mpr h]
  · rw [canonical?, textBy?_eq_none, Value.hasLong_sortKeys, Value.hasLong, List.any_eq_true]

/-- A document with a list, and with keys that are not in order. -/
def scored : Value :=
  .object [("name", .str "A"), ("scores", .list [.int 70, .null]), ("code", .str "é\n😀")]

/-- The same document with its keys in another order. -/
def reordered : Value :=
  .object [("scores", .list [.int 70, .null]), ("code", .str "é\n😀"), ("name", .str "A")]

lemma isDocument_scored : scored.IsDocument :=
  .object (by decide) (by simp [Value.isDocument_list, Value.IsDocument.str, Value.IsDocument.int,
    Value.IsDocument.null])

lemma isDocument_reordered : reordered.IsDocument :=
  .object (by decide) (by simp [Value.isDocument_list, Value.IsDocument.str, Value.IsDocument.int,
    Value.IsDocument.null])

/-- The two documents have one text, so they are the same up to the order of keys. -/
theorem reordered_sameUpToOrder :
    scored.IsDocument ∧ reordered.IsDocument ∧ Value.SameUpToOrder scored reordered := by
  have htext : canonical? scored = some
      "\x7b\"code\":\"\\u00e9\\n\\ud83d\\ude00\",\"name\":\"A\",\"scores\":[70,null]\x7d" := by
    decide +kernel
  have hreordered : canonical? reordered = canonical? scored := by decide +kernel
  obtain ⟨hsame, -⟩ := canonical_eq_iff isDocument_scored isDocument_reordered
  exact ⟨isDocument_scored, isDocument_reordered,
    (hsame _ _ htext (hreordered.trans htext)).mp rfl⟩

end SolidityAudit.Json
