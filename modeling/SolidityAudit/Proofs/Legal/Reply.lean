import SolidityAudit.Legal.Reply
import SolidityAudit.Proofs.Json.Layout
import SolidityAudit.Proofs.Json.Prefix
import SolidityAudit.Proofs.Text.Pattern

/-!
# The object of a reply is found and read

An object that is written into a reply on one line is found there again and read as the object. In
a reply without a fence it is what stands from the first brace to the last (`parse_between`). In a
fenced block it is cut off at the first brace that a fence follows, so it is read exactly when no
string of the object holds such a brace (`parse_fenced_iff`).
-/

namespace SolidityAudit.Reply

open Json (IsPlain)

/-! ## Control characters -/

lemma toList_strip (reply : String) :
    (strip reply).toList = reply.toList.filter fun c => !isControl c :=
  String.toList_ofList

lemma isControl_of_isPlain {c : Char} (h : IsPlain c) : isControl c = false := by
  obtain ⟨hlow, hhigh⟩ := h
  unfold isControl
  simp only [Bool.or_eq_false_iff, Bool.and_eq_false_iff, decide_eq_false_iff_not,
    beq_eq_false_iff_ne]
  omega

/-- A printable text has no control characters. -/
lemma filter_plain {cs : List Char} (h : ∀ c ∈ cs, IsPlain c) :
    cs.filter (fun c => !isControl c) = cs := by
  rw [List.filter_eq_self]
  intro c hc
  rw [isControl_of_isPlain (h c hc), Bool.not_false]

/-! ## Fences and braces -/

/-- The backticks of a fence. -/
def ticks : List Char := "\x60\x60\x60".toList

/-- A text from an opening to a closing brace. -/
def Braced (cs : List Char) : Prop := ∃ x, cs = '\x7b' :: (x ++ ['\x7d'])

/-- A text without braces. -/
def NoBrace (cs : List Char) : Prop := ∀ c ∈ cs, c ≠ '\x7b' ∧ c ≠ '\x7d'

section Words

variable {w : List Char}

lemma noBrace_of_blank (h : ∀ c ∈ w, Text.isBlank c = true) : NoBrace w := by
  intro c hc
  have hblank := h c hc
  constructor
  · rintro rfl
    contradiction
  · rintro rfl
    contradiction

lemma NoBrace.append {u : List Char} (hu : NoBrace u) (hw : NoBrace w) : NoBrace (u ++ w) := by
  intro c hc
  exact (List.mem_append.mp hc).elim (hu c) (hw c)

lemma NoBrace.filter (h : NoBrace w) (p : Char → Bool) : NoBrace (w.filter p) :=
  fun c hc => h c (List.mem_of_mem_filter hc)

lemma noBrace_ticks : NoBrace ticks := Json.forall_mem_of_all (by decide)

lemma takes_blanks : Pattern.TakesInTurn Pattern.blanks w ↔ ∀ c ∈ w, Text.isBlank c = true :=
  Pattern.takesInTurn_single

/-- A fence with its blanks has backticks and no braces. -/
lemma takes_fenceOpening (h : fenceOpening.Takes w) : ticks <:+: w ∧ NoBrace w := by
  obtain ⟨u, gap, rfl, hu, hgap⟩ := Pattern.takesInTurn_append.mp (Pattern.takes_single.mp h)
  obtain ⟨marks, name, rfl, hmarks, hname⟩ := Pattern.takesInTurn_append.mp hu
  obtain rfl := Pattern.takesInTurn_literal.mp hmarks
  have hname' : NoBrace name := by
    rcases Pattern.takesInTurn_single.mp hname with rfl | rfl
    · exact Json.forall_mem_of_all (by decide)
    · exact Json.forall_mem_of_all (by decide)
  refine ⟨?_, (noBrace_ticks.append hname').append (noBrace_of_blank (takes_blanks.mp hgap))⟩
  rw [List.append_assoc]
  exact (List.prefix_append _ _).isInfix

/-- What closes a fenced block are blanks and a fence. -/
lemma takes_fenceClosing :
    fenceClosing.Takes w ↔ ∃ gap, w = gap ++ ticks ∧ ∀ c ∈ gap, Text.isBlank c = true := by
  unfold fenceClosing
  rw [Pattern.takes_single, Pattern.takesInTurn_append]
  constructor
  · rintro ⟨gap, marks, rfl, hgap, hmarks⟩
    rw [Pattern.takesInTurn_literal.mp hmarks]
    exact ⟨gap, rfl, takes_blanks.mp hgap⟩
  · rintro ⟨gap, rfl, hgap⟩
    exact ⟨gap, ticks, rfl, takes_blanks.mpr hgap, Pattern.takesInTurn_literal.mpr rfl⟩

/-- What a step takes between braces. -/
lemma takes_braces {step : Step} :
    Pattern.Takes [Pattern.literal "\x7b" ++ [step] ++ Pattern.literal "\x7d"] w ↔
      ∃ inner, step.Takes inner ∧ w = '\x7b' :: (inner ++ ['\x7d']) := by
  rw [Pattern.takes_single, Pattern.takesInTurn_append]
  constructor
  · rintro ⟨u, close, rfl, hu, hclose⟩
    obtain ⟨opening, inner, rfl, hopening, hinner⟩ := Pattern.takesInTurn_append.mp hu
    rw [Pattern.takesInTurn_literal.mp hopening, Pattern.takesInTurn_literal.mp hclose]
    exact ⟨inner, Pattern.takesInTurn_single.mp hinner, rfl⟩
  · rintro ⟨inner, hinner, rfl⟩
    have hopening : Pattern.TakesInTurn (Pattern.literal "\x7b") ['\x7b'] :=
      Pattern.takesInTurn_literal.mpr rfl
    refine ⟨'\x7b' :: inner, ['\x7d'], rfl, ?_, Pattern.takesInTurn_literal.mpr rfl⟩
    rw [Pattern.takesInTurn_append]
    exact ⟨['\x7b'], inner, rfl, hopening, Pattern.takesInTurn_single.mpr hinner⟩

lemma takes_fencedObject (h : fencedObject.Takes w) : Braced w := by
  obtain ⟨inner, -, hw⟩ := takes_braces.mp h
  exact ⟨inner, hw⟩

lemma takes_bracedText : bracedText.Takes w ↔ Braced w := by
  constructor
  · intro h
    obtain ⟨inner, -, hw⟩ := takes_braces.mp h
    exact ⟨inner, hw⟩
  · intro h
    obtain ⟨inner, hw⟩ := h
    exact takes_braces.mpr ⟨inner, fun _ _ => rfl, hw⟩

end Words

/-! ## What a fence captures -/

section Captures

variable {first u found w rest text before after : List Char}

lemma Braced.mem_end {cs : List Char} (h : Braced (cs ++ rest)) (hne : rest ≠ []) :
    '\x7d' ∈ rest := by
  obtain ⟨x, hx⟩ := h
  have hlast : (cs ++ rest).getLast? = some '\x7d' := by
    rw [hx, ← List.cons_append, List.getLast?_concat]
  rw [List.getLast?_append_of_ne_nil _ hne] at hlast
  exact List.mem_of_getLast? hlast

/-- A fence in front of an object that is found in a text around another one stands in front of that
one too, unless the other one holds a fence itself. -/
lemma opening_eq (hbefore : NoBrace before) (hafter : NoBrace after) (htext : Braced text)
    (hu : NoBrace u) (hfence : ticks <:+: u) (hnone : ¬ ticks <:+: text) (hfound : Braced found)
    (h : (first ++ u) ++ (found ++ rest) = before ++ (text ++ after)) :
    found ++ rest = text ++ after := by
  have hopen : '\x7b' ∈ found := by
    obtain ⟨x, rfl⟩ := hfound
    exact List.mem_cons_self
  rcases List.append_eq_append_iff.mp h with ⟨gap, rfl, hgap⟩ | ⟨gap, hgap, htail⟩
  · -- the object that is found opens inside the text before
    cases gap with
    | nil => exact hgap
    | cons c gap =>
      obtain ⟨x, rfl⟩ := hfound
      exact absurd (List.cons.inj hgap).1.symm (hbefore c (by simp)).1
  · cases gap with
    | nil => exact htail.symm
    | cons c gap =>
      obtain ⟨x, rfl⟩ := htext
      obtain ⟨rfl, -⟩ := List.cons.inj htail
      rcases List.append_eq_append_iff.mp hgap with ⟨v, -, rfl⟩ | ⟨v, -, hv⟩
      · -- the fence would hold the first brace
        exact absurd rfl (hu _ (by simp)).1
      · -- the fence is inside the text or behind it
        rw [hv] at htail
        rcases List.append_eq_append_iff.mp htail with ⟨z, -, rfl⟩ | ⟨z, hz, -⟩
        · exact absurd rfl (hafter _ (by simp [hopen])).1
        · rw [hz] at hnone
          exact absurd (hfence.trans ⟨v, z, by simp⟩) hnone

/-- What opens where a text does and closes before what cannot hold a brace is the text, unless the
text holds what closes it. -/
lemma closing_cases (hafter : NoBrace after) (htext : Braced text) (hw : NoBrace w)
    (hfound : Braced found) (h : found ++ (w ++ rest) = text ++ after) :
    found = text ∨ '\x7d' :: w <:+: text := by
  rcases List.append_eq_append_iff.mp h with ⟨gap, rfl, hgap⟩ | ⟨gap, rfl, rfl⟩
  · by_cases hempty : gap = []
    · rw [hempty, List.append_nil]
      exact .inl rfl
    · have hclose := htext.mem_end hempty
      rcases List.append_eq_append_iff.mp hgap with ⟨z, rfl, -⟩ | ⟨z, rfl, -⟩
      · obtain ⟨x, rfl⟩ := hfound
        exact .inr ⟨'\x7b' :: x, z, by simp⟩
      · exact absurd rfl (hw _ (List.mem_append_left _ hclose)).2
  · by_cases hempty : gap = []
    · rw [hempty, List.append_nil]
      exact .inl rfl
    · exact absurd rfl (hafter _ (List.mem_append_left _ (hfound.mem_end hempty))).2

/-- What a fence captures in a text around an object is the object, if it holds no fence. -/
lemma eq_of_fence (hbefore : NoBrace before) (hafter : NoBrace after) (htext : Braced text)
    (hnone : ¬ ticks <:+: text)
    (h : Pattern.capture? fenceOpening fencedObject fenceClosing (before ++ (text ++ after)) =
      some found) : found = text := by
  obtain ⟨first, u, w, rest, hsplit, hu, hinside, hw⟩ := Pattern.capture?_sound h
  obtain ⟨hfence, hbrace⟩ := takes_fenceOpening hu
  obtain ⟨gap, rfl, hgap⟩ := takes_fenceClosing.mp hw
  have hfound := takes_fencedObject hinside
  rw [← List.append_assoc first] at hsplit
  have htail := opening_eq hbefore hafter htext hbrace hfence hnone hfound hsplit.symm
  have hclosing := (noBrace_of_blank hgap).append noBrace_ticks
  rcases closing_cases hafter htext hclosing hfound htail with heq | hpart
  · exact heq
  · have hticks : ticks <:+: '\x7d' :: (gap ++ ticks) := ⟨'\x7d' :: gap, [], by simp⟩
    exact absurd (hticks.trans hpart) hnone

end Captures

/-! ## Where an object may end -/

section Ends

variable {cs x rest : List Char}

/-- What is left behind a closing brace at the front. -/
def afterBrace : List Char → List (List Char) := Pattern.endsOfSteps (Pattern.literal "\x7d")

lemma afterBrace_brace (cs : List Char) : afterBrace ('\x7d' :: cs) = [cs] := rfl

lemma afterBrace_other {c : Char} (hc : c ≠ '\x7d') (cs : List Char) :
    afterBrace (c :: cs) = [] := by
  show (if (c == '\x7d') = true then [cs] else []).flatMap _ = []
  rw [if_neg (by simp [hc]), List.flatMap_nil]

/-- The places where a text that opens with a brace may end, the nearest first. -/
def braceEnds : List Char → List (List Char)
  | [] => []
  | c :: cs => afterBrace (c :: cs) ++ braceEnds cs

lemma flatMap_shortestFirst (cs : List Char) :
    (Step.shortestFirst (fun _ => true) cs).flatMap afterBrace = braceEnds cs := by
  induction cs with
  | nil => rfl
  | cons c cs ih =>
    rw [Step.shortestFirst, if_pos rfl, List.flatMap_cons, ih]
    rfl

/-- The shortest text between braces ends at the nearest place. -/
lemma ends_fencedObject (cs : List Char) : fencedObject.ends ('\x7b' :: cs) = braceEnds cs := by
  have hsteps : fencedObject.ends ('\x7b' :: cs) =
      ((Step.shortestFirst (fun _ => true) cs).flatMap afterBrace ++ []) ++ [] := rfl
  rw [hsteps, List.append_nil, List.append_nil, flatMap_shortestFirst]

/-- The longest text between braces ends at the farthest place. -/
lemma ends_bracedText (cs : List Char) :
    bracedText.ends ('\x7b' :: cs) = (braceEnds cs).reverse := by
  have hsteps : bracedText.ends ('\x7b' :: cs) =
      ((Step.shortestFirst (fun _ => true) cs).reverse.flatMap afterBrace ++ []) ++ [] := rfl
  have hsame : List.reverse ∘ afterBrace = afterBrace := by
    funext ds
    cases ds with
    | nil => rfl
    | cons c ds =>
      by_cases hc : c = '\x7d'
      · subst hc
        rfl
      · show (afterBrace (c :: ds)).reverse = _
        rw [afterBrace_other hc]
        rfl
  rw [hsteps, List.append_nil, List.append_nil, List.flatMap_reverse, hsame, flatMap_shortestFirst]

/-- The nearest place that will do is at most as far as any place that will do. -/
lemma findSome?_braceEnds {F : List Char → Option (List Char)} (x : List Char)
    (h : (F rest).isSome = true) :
    ∃ y stop, (braceEnds (x ++ '\x7d' :: rest)).findSome? F = F stop ∧ (F stop).isSome = true ∧
      x ++ '\x7d' :: rest = y ++ '\x7d' :: stop ∧ y.length ≤ x.length := by
  induction x with
  | nil =>
    refine ⟨[], rest, ?_, h, rfl, Nat.le_refl _⟩
    rw [List.nil_append, braceEnds, afterBrace_brace, List.cons_append,
      List.findSome?_cons_of_isSome h]
  | cons c x ih =>
    obtain ⟨y, stop, hfind, hsome, hsplit, hle⟩ := ih
    by_cases hc : c = '\x7d' ∧ (F (x ++ '\x7d' :: rest)).isSome = true
    · obtain ⟨rfl, hnear⟩ := hc
      refine ⟨[], x ++ '\x7d' :: rest, ?_, hnear, rfl, Nat.zero_le _⟩
      rw [List.cons_append, braceEnds, afterBrace_brace, List.cons_append,
        List.findSome?_cons_of_isSome hnear]
    · refine ⟨c :: y, stop, ?_, hsome, ?_, Nat.succ_le_succ hle⟩
      · have hhere : (afterBrace (c :: (x ++ '\x7d' :: rest))).findSome? F = none := by
          by_cases hbrace : c = '\x7d'
          · have hnone := fun hsome => hc ⟨hbrace, hsome⟩
            rw [hbrace, afterBrace_brace, List.findSome?_singleton]
            exact Option.not_isSome_iff_eq_none.mp hnone
          · rw [afterBrace_other hbrace]
            rfl
        rw [List.cons_append, braceEnds, List.findSome?_append, hhere, hfind]
        rfl
      · rw [List.cons_append, hsplit, List.cons_append]

/-- The farthest place is behind the last brace. -/
lemma braceEnds_concat (x : List Char) (hrest : '\x7d' ∉ rest) :
    ∃ others, braceEnds (x ++ '\x7d' :: rest) = others ++ [rest] := by
  induction x with
  | nil =>
    have hnone : braceEnds rest = [] := by
      induction rest with
      | nil => rfl
      | cons c rest ih =>
        rw [List.mem_cons, not_or] at hrest
        rw [braceEnds, afterBrace_other (Ne.symm hrest.1), ih hrest.2]
        rfl
    refine ⟨[], ?_⟩
    rw [List.nil_append, braceEnds, afterBrace_brace, hnone]
    rfl
  | cons c x ih =>
    obtain ⟨others, hothers⟩ := ih
    refine ⟨afterBrace (c :: (x ++ '\x7d' :: rest)) ++ others, ?_⟩
    rw [List.cons_append, braceEnds, hothers, List.append_assoc]

/-- Behind a fence the text up to the first brace that a fence follows is captured. -/
lemma exists_fenced {w : List Char} (x : List Char) (hw : fenceClosing.Takes w) :
    ∃ y stop, Pattern.captureFrom? fencedObject fenceClosing
        ('\x7b' :: (x ++ '\x7d' :: (w ++ rest))) = some ('\x7b' :: (y ++ ['\x7d'])) ∧
      x ++ '\x7d' :: (w ++ rest) = y ++ '\x7d' :: stop ∧ y.length ≤ x.length := by
  have hclosing : (fenceClosing.rest? (w ++ rest)).isSome = true :=
    Pattern.isSome_rest?.mpr ⟨w, List.prefix_append w rest, hw⟩
  obtain ⟨y, stop, hfind, hsome, hsplit, hle⟩ := findSome?_braceEnds
    (F := fun stop => (fenceClosing.rest? stop).map fun _ =>
      Pattern.taken ('\x7b' :: (x ++ '\x7d' :: (w ++ rest))) stop) x (by simpa using hclosing)
  refine ⟨y, stop, ?_, hsplit, hle⟩
  have htaken : '\x7b' :: (x ++ '\x7d' :: (w ++ rest)) = ('\x7b' :: (y ++ ['\x7d'])) ++ stop := by
    rw [hsplit]
    simp
  obtain ⟨found, hfound⟩ := Option.isSome_iff_exists.mp hsome
  obtain ⟨-, -, rfl⟩ := Option.map_eq_some_iff.mp hfound
  rw [Pattern.captureFrom?, ends_fencedObject, hfind, hfound, htaken, Pattern.taken_append]

/-- Without a fence the text from the first to the last brace is captured. -/
lemma captureFrom?_braced (x : List Char) (hrest : '\x7d' ∉ rest) :
    Pattern.captureFrom? bracedText [[]] ('\x7b' :: (x ++ '\x7d' :: rest)) =
      some ('\x7b' :: (x ++ ['\x7d'])) := by
  obtain ⟨others, hends⟩ := braceEnds_concat x hrest
  have htaken : '\x7b' :: (x ++ '\x7d' :: rest) = ('\x7b' :: (x ++ ['\x7d'])) ++ rest := by
    simp
  rw [Pattern.captureFrom?, ends_bracedText, hends, List.reverse_append, htaken]
  show some (Pattern.taken (('\x7b' :: (x ++ ['\x7d'])) ++ rest) rest) = _
  rw [Pattern.taken_append]

lemma ends_bracedText_other {c : Char} (hc : c ≠ '\x7b') (cs : List Char) :
    bracedText.ends (c :: cs) = [] := by
  show (if (c == '\x7b') = true then [cs] else []).flatMap _ ++ [] = []
  rw [if_neg (by simp [hc])]
  rfl

/-- Braces are found behind text without any. -/
lemma capture?_braced {text before after : List Char} (hbefore : NoBrace before)
    (hafter : NoBrace after) (htext : Braced text) :
    Pattern.capture? [[]] bracedText [[]] (before ++ (text ++ after)) = some text := by
  induction before with
  | nil =>
    obtain ⟨x, rfl⟩ := htext
    have hclose : '\x7d' ∉ after := fun hmem => (hafter _ hmem).2 rfl
    have hsplit : '\x7b' :: (x ++ ['\x7d']) ++ after = '\x7b' :: (x ++ '\x7d' :: after) := by
      simp
    rw [List.nil_append, hsplit]
    exact Pattern.capture?_of_front rfl (captureFrom?_braced x hclose)
  | cons c before ih =>
    have hc := (hbefore c List.mem_cons_self).1
    have htail := ih fun d hd => hbefore d (List.mem_cons_of_mem c hd)
    rw [List.cons_append, Pattern.capture?_cons, htail]
    intro start hstart
    rw [List.mem_singleton.mp hstart, Pattern.captureFrom?, ends_bracedText_other hc]
    rfl

end Ends

/-! ## Objects in replies -/

section Replies

variable {fields : List (String × Value)} {text : String}

/-- An object that can be written is written without control characters and in braces, and read
back. -/
lemma written (hd : (Value.object fields).IsDocument)
    (htext : Json.text? (.object fields) = some text) :
    text = Json.write .spaced (.object fields) ∧
      (∀ w ∈ (Value.object fields).leaves, Value.isLong w = false) ∧
      Json.Layout text.toList (Value.object fields).strings ∧ Braced text.toList := by
  obtain ⟨hlong, rfl⟩ := Json.textBy?_eq_some.mp htext
  exact ⟨rfl, Value.hasLong_eq_false_iff.mp hlong, Json.layout_write
    (Json.forall_mem_of_all (by decide)) (Json.forall_mem_of_all (by decide)) hd,
    ⟨_, Json.toList_write_object .spaced fields⟩⟩

/-- What reads as the object at once is the object of the reply. -/
lemma parse_of_extract {reply : String} (hd : (Value.object fields).IsDocument)
    (htext : Json.text? (.object fields) = some text) (h : extract reply = some text) :
    parse reply = .ok (some (.object fields)) := by
  obtain ⟨rfl, hshort, -, -⟩ := written hd htext
  have hread := Json.read_write .strict Json.readable_spaced hd hshort
  unfold parse readTolerant
  rw [h]
  dsimp only
  rw [hread]

/-- An object that is read from a reply is read in one of the two modes. -/
lemma read_of_parse {reply s : String} (h : extract reply = some s)
    (hparse : parse reply = .ok (some (.object fields))) :
    ∃ mode, Json.read mode s = .ok (.object fields) := by
  have htolerant : readTolerant s = .ok (.object fields) := by
    unfold parse at hparse
    rw [h] at hparse
    dsimp only at hparse
    split at hparse
    · rename_i read hread
      rw [hread]
      rw [Option.some.inj (Except.ok.inj hparse)]
    · cases hparse
    · cases hparse
  unfold readTolerant at htolerant
  split at htolerant
  · rename_i v hread
    exact ⟨.strict, htolerant ▸ hread⟩
  · split at htolerant
    · cases htolerant
    · exact ⟨.lenient, htolerant⟩

/-- An object in a reply without a fence, and without other braces, is read as the object. -/
theorem parse_between (before after : String) (hd : (Value.object fields).IsDocument)
    (htext : Json.text? (.object fields) = some text) (hbefore : NoBrace before.toList)
    (hafter : NoBrace after.toList) (hnone : ¬ ticks <:+: (before ++ text ++ after).toList) :
    parse (before ++ text ++ after) = .ok (some (.object fields)) := by
  obtain ⟨-, -, hlayout, hbraced⟩ := written hd htext
  have hparts : (before ++ text ++ after).toList =
      before.toList ++ (text.toList ++ after.toList) := by
    rw [String.toList_append, String.toList_append, List.append_assoc]
  have hnone' : ¬ ticks <:+: text.toList := by
    rw [hparts] at hnone
    exact fun h => hnone (h.trans ⟨before.toList, after.toList, by simp⟩)
  have hstrip := toList_strip (before ++ text ++ after)
  rw [hparts, List.filter_append, List.filter_append, filter_plain hlayout.plain] at hstrip
  have hcandidate : candidate? (strip (before ++ text ++ after)).toList = some text.toList := by
    have hbefore' := hbefore.filter fun c => !isControl c
    have hafter' := hafter.filter fun c => !isControl c
    rw [hstrip, candidate?]
    cases hfence : Pattern.capture? fenceOpening fencedObject fenceClosing
        (before.toList.filter (fun c => !isControl c) ++
          (text.toList ++ after.toList.filter fun c => !isControl c)) with
    | some found =>
      -- stripping may have made fences of the texts around the object
      rw [eq_of_fence hbefore' hafter' hbraced hnone' hfence]
    | none => exact capture?_braced hbefore' hafter' hbraced
  apply parse_of_extract hd htext
  rw [extract, hcandidate, Option.map_some, String.ofList_toList]

/-- An object whose strings hold braces, quotes, a control character and a character beyond the
basic plane. -/
def mixed : List (String × Value) :=
  [("risk", .int (-70)), ("notes", .list [.str "\x7d \"\x01\x7b", .null, .bool true]),
    ("😀", .object [("\x60\x60", .str "\n")])]

lemma isDocument_mixed : (Value.object mixed).IsDocument :=
  .object (by decide) (by
    simp [mixed, Value.isDocument_list, Value.isDocument_object, Value.IsDocument.str,
      Value.IsDocument.int, Value.IsDocument.null, Value.IsDocument.bool])

/-- It is read from between other text. -/
theorem parse_mixed :
    (Value.object mixed).IsDocument ∧
      parse ("Assessment: " ++ Json.write .spaced (.object mixed) ++ "\nThat is all.") =
        .ok (some (.object mixed)) :=
  ⟨isDocument_mixed, parse_between "Assessment: " "\nThat is all." isDocument_mixed rfl
    (Json.forall_mem_of_all (by decide)) (Json.forall_mem_of_all (by decide)) (by decide +kernel)⟩

/-- A text in a fenced block. -/
def fenced (text : String) : String := "\x60\x60\x60json\n" ++ text ++ "\n\x60\x60\x60"

/-- The string holds a closing brace that a fence follows at once or behind blanks. -/
def ClosesFence (s : String) : Prop :=
  ∃ n, '\x7d' :: (List.replicate n ' ' ++ ticks) <:+: s.toList

lemma inert_closing (n : Nat) : Json.Inert ('\x7d' :: (List.replicate n ' ' ++ ticks)) := by
  have hall : ∀ c ∈ '\x7d' :: ' ' :: ticks, IsPlain c ∧ c ∉ Json.escapeChars :=
    Json.forall_mem_of_all (by decide)
  intro c hc
  apply hall
  simp only [List.mem_cons, List.mem_append] at hc ⊢
  rcases hc with hc | hc | hc
  · exact .inl hc
  · exact .inr (.inl (List.eq_of_mem_replicate hc))
  · exact .inr (.inr hc)

lemma eq_space {c : Char} (hplain : IsPlain c) (hblank : Text.isBlank c = true) : c = ' ' := by
  obtain ⟨hlow, hhigh⟩ := hplain
  unfold Text.isBlank at hblank
  dsimp only at hblank
  rw [if_pos (by omega)] at hblank
  simp only [Bool.or_eq_true, Bool.and_eq_true, decide_eq_true_eq, beq_iff_eq] at hblank
  have hc : c.toNat = 0x20 := by omega
  exact Char.toNat_inj.mp hc

/-- A closing brace with a fence stands in a text that is written exactly when it stands in one of
its strings. -/
lemma exists_closesFence_iff {cs : List Char} {strings : List String}
    (h : Json.Layout cs strings) :
    (∃ s ∈ strings, ClosesFence s) ↔
      ∃ gap, (∀ c ∈ gap, Text.isBlank c = true) ∧ '\x7d' :: (gap ++ ticks) <:+: cs := by
  have hpart (n : Nat) : '\x7d' :: (List.replicate n ' ' ++ ticks) <:+: cs ↔
      ∃ s ∈ strings, '\x7d' :: (List.replicate n ' ' ++ ticks) <:+: s.toList := by
    rw [h.part_iff (by simp [ticks]) (by simp [ticks])]
    simp only [Json.infix_inside_iff (inert_closing n) (List.cons_ne_nil _ _)]
  constructor
  · rintro ⟨s, hs, n, hn⟩
    refine ⟨List.replicate n ' ', ?_, (hpart n).mpr ⟨s, hs, hn⟩⟩
    intro c hc
    rw [List.eq_of_mem_replicate hc]
    rfl
  · rintro ⟨gap, hgap, hin⟩
    have hspaces : gap = List.replicate gap.length ' ' := by
      refine List.eq_replicate_of_mem fun c hc => eq_space ?_ (hgap c hc)
      exact h.plain c (hin.subset (by simp [hc]))
    rw [hspaces] at hin
    obtain ⟨s, hs, hn⟩ := (hpart gap.length).mp hin
    exact ⟨s, hs, gap.length, hn⟩

/-- What is captured behind the opening fence is what may be an object. -/
lemma extract_fenced {found : List Char} (hplain : ∀ c ∈ text.toList, IsPlain c)
    (hbraced : Braced text.toList)
    (h : Pattern.captureFrom? fencedObject fenceClosing (text.toList ++ '\n' :: ticks) =
      some found) :
    extract (fenced text) = some (String.ofList found) := by
  have hparts : (fenced text).toList =
      "\x60\x60\x60json\n".toList ++ (text.toList ++ '\n' :: ticks) := by
    rw [fenced, String.toList_append, String.toList_append, List.append_assoc]
    rfl
  have hopening : ("\x60\x60\x60json\n".toList).filter (fun c => !isControl c) =
      "\x60\x60\x60json\n".toList := by decide
  have hclosing : ('\n' :: ticks).filter (fun c => !isControl c) = '\n' :: ticks := by
    unfold ticks
    decide
  have hstrip := toList_strip (fenced text)
  rw [hparts, List.filter_append, List.filter_append, filter_plain hplain, hopening,
    hclosing] at hstrip
  obtain ⟨x, hx⟩ := hbraced
  have hcapture : Pattern.capture? fenceOpening fencedObject fenceClosing
      ("\x60\x60\x60json\n".toList ++ (text.toList ++ '\n' :: ticks)) = some found := by
    rw [hx] at h ⊢
    exact Pattern.capture?_of_front rfl h
  rw [extract, candidate?, hstrip, hcapture]
  rfl

lemma takes_newline : fenceClosing.Takes ('\n' :: ticks) :=
  takes_fenceClosing.mpr ⟨['\n'], rfl, List.all_eq_true.mp rfl⟩

/-- If no brace in the object has a fence behind it, then all of the object is captured. -/
lemma captured_whole {cs : List Char} (hbraced : Braced cs)
    (hnone : ¬ ∃ gap, (∀ c ∈ gap, Text.isBlank c = true) ∧ '\x7d' :: (gap ++ ticks) <:+: cs) :
    Pattern.captureFrom? fencedObject fenceClosing (cs ++ '\n' :: ticks) = some cs := by
  obtain ⟨x, hx⟩ := id hbraced
  have hend : cs ++ '\n' :: ticks = '\x7b' :: (x ++ '\x7d' :: ('\n' :: ticks ++ [])) := by
    rw [hx]
    simp
  obtain ⟨y, stop, hcapture, -⟩ := exists_fenced x takes_newline
  rw [← hend] at hcapture
  obtain ⟨w, rest, hsplit, hinside, hw⟩ := Pattern.captureFrom?_sound hcapture
  obtain ⟨gap, rfl, hgap⟩ := takes_fenceClosing.mp hw
  have hafter : NoBrace ('\n' :: ticks) := Json.forall_mem_of_all (by decide)
  have hbrace := (noBrace_of_blank hgap).append noBrace_ticks
  rcases closing_cases hafter hbraced hbrace (takes_fencedObject hinside) hsplit.symm with
    heq | hpart
  · rw [hcapture, heq]
  · exact absurd ⟨gap, hgap, hpart⟩ hnone

/-- If a brace in the object has a fence behind it, then the object is cut off there, or before. -/
lemma captured_part {cs gap : List Char} (hbraced : Braced cs)
    (hgap : ∀ c ∈ gap, Text.isBlank c = true) (hin : '\x7d' :: (gap ++ ticks) <:+: cs) :
    ∃ found, Pattern.captureFrom? fencedObject fenceClosing (cs ++ '\n' :: ticks) = some found ∧
      found <+: cs ∧ found ≠ cs := by
  obtain ⟨first, rest, hin⟩ := hin
  obtain ⟨p, rfl⟩ : ∃ p, first = '\x7b' :: p := by
    obtain ⟨x, hx⟩ := hbraced
    rw [hx] at hin
    cases first with
    | nil => exact absurd (List.cons.inj hin).1 (by decide)
    | cons c p => exact ⟨p, by rw [(List.cons.inj hin).1]⟩
  have hend : cs ++ '\n' :: ticks =
      '\x7b' :: (p ++ '\x7d' :: ((gap ++ ticks) ++ (rest ++ '\n' :: ticks))) := by
    rw [← hin]
    simp
  obtain ⟨y, stop, hcapture, hsplit, hle⟩ :=
    exists_fenced p (takes_fenceClosing.mpr ⟨gap, rfl, hgap⟩)
  rw [← hend] at hcapture
  have hlength : ('\x7b' :: (y ++ ['\x7d'])).length < cs.length := by
    have hcs := congrArg List.length hin
    have hticks : ticks.length = 3 := rfl
    simp only [List.length_append, List.length_cons, List.length_nil, hticks] at hcs ⊢
    omega
  refine ⟨_, hcapture, ?_, ?_⟩
  · have hstart : '\x7b' :: (y ++ ['\x7d']) <+: cs ++ '\n' :: ticks := by
      rw [hend, hsplit]
      exact ⟨stop, by simp⟩
    exact List.prefix_of_prefix_length_le hstart (List.prefix_append _ _) (Nat.le_of_lt hlength)
  · intro heq
    rw [heq] at hlength
    omega

/-- An object in a fenced block is read as the object exactly when no string in it, keys included,
holds a closing brace that a fence follows. -/
theorem parse_fenced_iff (hd : (Value.object fields).IsDocument)
    (htext : Json.text? (.object fields) = some text) :
    parse (fenced text) = .ok (some (.object fields)) ↔
      ∀ s, .str s ∈ (Value.object fields).leaves → ¬ ClosesFence s := by
  obtain ⟨hwrite, hshort, hlayout, hbraced⟩ := written hd htext
  have hstrings : (∀ s, .str s ∈ (Value.object fields).leaves → ¬ ClosesFence s) ↔
      ¬ ∃ s ∈ (Value.object fields).strings, ClosesFence s := by
    simp only [Value.mem_strings, not_exists, not_and]
  rw [hstrings, exists_closesFence_iff hlayout]
  constructor
  · rintro hparse ⟨gap, hgap, hin⟩
    obtain ⟨found, hcapture, hstart, hne⟩ := captured_part hbraced hgap hin
    obtain ⟨mode, hread⟩ := read_of_parse (extract_fenced hlayout.plain hbraced hcapture) hparse
    -- no part of the text in front is read as a whole object
    rw [hwrite, ← String.toList_ofList (l := found)] at hstart
    have hform : Json.formOf (.object fields) ≠ .bare := fun h => by cases h
    have hsame := Json.eq_of_read_prefix Json.readable_spaced hd hshort hstart hread hform
    rw [hwrite, ← hsame, String.toList_ofList] at hne
    exact hne rfl
  · intro hnone
    apply parse_of_extract hd htext
    rw [extract_fenced hlayout.plain hbraced (captured_whole hbraced hnone), String.ofList_toList]

/-- An object with a string that closes the fence. -/
def closing : List (String × Value) := [("a", .str "\x7d\x60\x60\x60")]

/-- An object with a string that opens a fence. -/
def opening : List (String × Value) := [("a", .str "\x60\x60\x60json \x7b")]

/-- A string that closes the fence cuts the object off inside the string, and nothing is read. -/
theorem parse_fenced_closing :
    (Value.object closing).IsDocument ∧
      Json.text? (.object closing) = some "\x7b\"a\": \"\x7d\x60\x60\x60\"\x7d" ∧
      parse (fenced "\x7b\"a\": \"\x7d\x60\x60\x60\"\x7d") =
        .error (.unreadable ⟨.unterminated, "\x7b\"a\": \"\x7d", 6⟩) :=
  ⟨.object (by decide) (by simp [closing, Value.IsDocument.str]), rfl, by cbv⟩

/-- A string that opens a fence is no obstacle. -/
theorem parse_fenced_opening :
    (Value.object opening).IsDocument ∧
      parse (fenced (Json.write .spaced (.object opening))) = .ok (some (.object opening)) := by
  have hd : (Value.object opening).IsDocument :=
    .object (by decide) (by simp [opening, Value.IsDocument.str])
  refine ⟨hd, (parse_fenced_iff hd rfl).mpr ?_⟩
  rintro s hs ⟨n, hn⟩
  have hbrace : '\x7d' ∈ s.toList := hn.subset List.mem_cons_self
  have hleaves : (Value.object opening).leaves = [.str "a", .str "\x60\x60\x60json \x7b"] := rfl
  rw [hleaves, List.mem_pair, Value.str.injEq, Value.str.injEq] at hs
  rcases hs with rfl | rfl
  · exact absurd hbrace (by decide)
  · exact absurd hbrace (by decide)

end Replies

end SolidityAudit.Reply
