import SolidityAudit.Proofs.Json.Mode
import SolidityAudit.Proofs.Legal.Reply

/-!
# What is taken from a reply

The text that is taken from a reply is a part of the reply without its control characters, and it
opens and closes with a brace. There is such a text if and only if a closing brace stands somewhere
behind an opening one (`candidate?_eq_none_iff`).

Nothing can be cut off a text that has been taken (`candidate?_of_candidate?`). If it comes from a
fenced block, then it ends at the first closing brace that a fence follows, so no fenced block can
end inside of it. If it does not, then there is no fenced block in the whole reply.

What is taken is read twice at most. The second, lenient reader reads all that the first one reads,
so the first one makes no difference (`readTolerant_eq`); and since the text opens with a brace,
what is read is an object (`parse_of_extract_lenient`).
-/

namespace SolidityAudit.Reply

variable {cs part : List Char}

/-! ## Texts between braces -/

/-- Somewhere behind an opening brace stands a closing one. -/
def HasBraces (cs : List Char) : Prop :=
  ∃ before inner after, cs = before ++ '\x7b' :: (inner ++ '\x7d' :: after)

lemma hasBraces_iff : HasBraces cs ↔ ∃ part, Braced part ∧ part <:+: cs := by
  constructor
  · rintro ⟨before, inner, after, rfl⟩
    exact ⟨_, ⟨inner, rfl⟩, before, after, by simp⟩
  · rintro ⟨part, ⟨inner, rfl⟩, before, after, rfl⟩
    exact ⟨before, inner, after, by simp⟩

/-! ## What may be an object -/

/-- The object of the first fenced block of a text. -/
def fenced? (cs : List Char) : Option (List Char) :=
  Pattern.capture? fenceOpening fencedObject fenceClosing cs

/-- The text from the first opening brace to the last closing one. -/
def braced? (cs : List Char) : Option (List Char) :=
  Pattern.capture? [[]] bracedText [[]] cs

lemma candidate?_eq (cs : List Char) : candidate? cs = (fenced? cs).or (braced? cs) := by
  unfold candidate? fenced? braced?
  cases Pattern.capture? fenceOpening fencedObject fenceClosing cs with
  | none => rfl
  | some found => rfl

/-- What may be an object is a part of the text and stands between braces. -/
lemma candidate?_sound (h : candidate? cs = some part) : Braced part ∧ part <:+: cs := by
  rw [candidate?_eq, Option.or_eq_some_iff] at h
  rcases h with h | ⟨-, h⟩
  · obtain ⟨first, u, w, rest, rfl, -, hinside, -⟩ := Pattern.capture?_sound h
    exact ⟨takes_fencedObject hinside, first ++ u, w ++ rest, by simp⟩
  · obtain ⟨first, u, w, rest, rfl, -, hinside, -⟩ := Pattern.capture?_sound h
    exact ⟨takes_bracedText.mp hinside, first ++ u, w ++ rest, by simp⟩

lemma braced?_of_hasBraces (h : HasBraces cs) : ∃ part, braced? cs = some part := by
  obtain ⟨part, hbraced, before, after, rfl⟩ := hasBraces_iff.mp h
  have hempty : Pattern.Takes [[]] [] := Pattern.takes_single.mpr rfl
  rw [List.append_assoc]
  exact Pattern.exists_capture? hempty (takes_bracedText.mpr hbraced) hempty before after

/-- Something may be an object if and only if a closing brace stands behind an opening one. -/
lemma candidate?_eq_none_iff : candidate? cs = none ↔ ¬ HasBraces cs := by
  constructor
  · intro h hbraces
    obtain ⟨part, hpart⟩ := braced?_of_hasBraces hbraces
    rw [candidate?_eq, Option.or_eq_none_iff, hpart] at h
    cases h.2
  · intro h
    by_contra hsome
    obtain ⟨part, hpart⟩ := Option.ne_none_iff_exists'.mp hsome
    exact h (hasBraces_iff.mpr ⟨part, candidate?_sound hpart⟩)

/-! ## Nothing more to take -/

/-- A text between braces reaches from its first brace to the closing one of a part between
braces. -/
lemma Braced.reaches {first inner tail : List Char} (hpart : Braced part) (hinner : Braced inner)
    (h : part = first ++ (inner ++ tail)) : ∃ x, part = '\x7b' :: (x ++ '\x7d' :: tail) := by
  obtain ⟨y, rfl⟩ := hinner
  cases first with
  | nil => exact ⟨y, by rw [h]; simp⟩
  | cons c first =>
    obtain ⟨z, rfl⟩ := hpart
    obtain ⟨rfl, hz⟩ := List.cons.inj h
    refine ⟨first ++ '\x7b' :: y, ?_⟩
    rw [hz]
    simp

/-- No fenced block ends inside of what is captured: it ends at the first closing brace that a fence
follows. -/
lemma fenced?_of_fenced? (h : fenced? cs = some part) : fenced? part = none := by
  by_contra hsome
  obtain ⟨inner, hinner⟩ := Option.ne_none_iff_exists'.mp hsome
  obtain ⟨first, u, w, rest, hpart, -, hinside, hw⟩ := Pattern.capture?_sound hinner
  obtain ⟨-, -, start, -, -, hstart⟩ := Pattern.exists_captureFrom? h
  obtain ⟨v, tail, rfl, hbraced, -⟩ := Pattern.captureFrom?_sound hstart
  rw [← List.append_assoc first] at hpart
  obtain ⟨x, hx⟩ := (takes_fencedObject hbraced).reaches (takes_fencedObject hinside) hpart
  -- the capture would have ended at the closing brace of the inner block, or before
  obtain ⟨y, stop, hcapture, -, hle⟩ := @exists_fenced (rest ++ (v ++ tail)) w x hw
  have hsame : '\x7b' :: (x ++ '\x7d' :: (w ++ (rest ++ (v ++ tail)))) = part ++ (v ++ tail) := by
    rw [hx]
    simp
  rw [hsame, hstart] at hcapture
  have hlength := congrArg List.length (Option.some.inj hcapture)
  have hticks : 0 < w.length := by
    obtain ⟨gap, rfl, -⟩ := takes_fenceClosing.mp hw
    rw [List.length_append]
    exact Nat.add_pos_right _ (by decide)
  rw [hx] at hlength
  simp only [List.length_cons, List.length_append, List.length_nil] at hlength
  omega

/-- From what may be an object nothing but the whole of it is taken. -/
lemma candidate?_of_candidate? (h : candidate? cs = some part) : candidate? part = some part := by
  obtain ⟨hbraced, hpart⟩ := candidate?_sound h
  have hnone : fenced? part = none := by
    rw [candidate?_eq, Option.or_eq_some_iff] at h
    rcases h with h | ⟨hnone, -⟩
    · exact fenced?_of_fenced? h
    · exact Pattern.capture?_eq_none_of_part hpart hnone
  have hwhole : braced? part = some part := by
    have hempty : NoBrace [] := fun c hc => by cases hc
    have hfound := capture?_braced hempty hempty hbraced
    rwa [List.append_nil, List.nil_append] at hfound
  rw [candidate?_eq, hnone, hwhole]
  rfl

/-! ## Replies -/

section Replies

variable {reply s : String}

lemma extract_eq_some_iff : extract reply = some s ↔
    candidate? (strip reply).toList = some s.toList := by
  rw [extract, Option.map_eq_some_iff]
  constructor
  · rintro ⟨part, hpart, rfl⟩
    rw [hpart, String.toList_ofList]
  · intro h
    exact ⟨s.toList, h, String.ofList_toList⟩

/-- There are no control characters in what is taken from a reply. -/
lemma strip_of_extract (h : extract reply = some s) : strip s = s := by
  obtain ⟨-, hpart⟩ := candidate?_sound (extract_eq_some_iff.mp h)
  rw [← String.toList_inj, toList_strip, List.filter_eq_self]
  intro c hc
  have hmem := hpart.subset hc
  rw [toList_strip] at hmem
  exact (List.mem_filter.mp hmem).2

/-- Nothing is taken from a reply if and only if, without its control characters, it has no closing
brace behind an opening one. What is taken is a part of the reply without its control characters,
opens and closes with a brace, and is taken again from itself. -/
theorem extract_exact (reply : String) :
    (extract reply = none ↔ ¬ HasBraces (strip reply).toList) ∧
      ∀ s, extract reply = some s →
        s.toList <:+: (strip reply).toList ∧ Braced s.toList ∧ extract s = some s := by
  constructor
  · rw [extract, Option.map_eq_none_iff, candidate?_eq_none_iff]
  · intro s h
    have hcandidate := extract_eq_some_iff.mp h
    obtain ⟨hbraced, hpart⟩ := candidate?_sound hcandidate
    refine ⟨hpart, hbraced, extract_eq_some_iff.mpr ?_⟩
    rw [strip_of_extract h]
    exact candidate?_of_candidate? hcandidate

/-- The object of the block of `nestedFences`. -/
def nestedObject : String := "\x7b\"a\": \"\x60\x60\x60\x7b\"\x7d"

/-- A fenced block with a string that opens a fence, a control character in it, and braces around
the block. -/
def nestedFences : String :=
  "\x7bnote\x7d \x60\x60\x60json \x7b\"a\x01\": \"\x60\x60\x60\x7b\"\x7d \x60\x60\x60 \x7d"

/-- The object of the block is taken, and taken again from itself. -/
theorem nestedFences_extracted :
    extract nestedFences = some nestedObject ∧ extract nestedObject = some nestedObject := by
  have htaken : extract nestedFences = some nestedObject := by cbv
  obtain ⟨-, -, hagain⟩ := (extract_exact nestedFences).2 _ htaken
  exact ⟨htaken, hagain⟩

end Replies

/-! ## How it is read -/

section Reading

variable {reply s : String}

/-- Reading once more with control characters allowed is the same as reading so at once. -/
lemma readTolerant_eq (s : String) : readTolerant s = Json.read .lenient s := by
  unfold readTolerant
  rcases Json.read_strict_cases s with hsame | ⟨e, hstop, hreason⟩
  · rw [← hsame]
    cases Json.read .strict s with
    | ok v => rfl
    | error e =>
      dsimp only
      split
      · rfl
      · rfl
  · rw [hstop]
    dsimp only
    rw [hreason]

/-- What is taken from a reply is read by the lenient reader. -/
lemma parse_of_extract_lenient (h : extract reply = some s) :
    parse reply =
      match Json.read .lenient s with
      | .ok v => .ok (some v)
      | .error e => .error (.unreadable e) := by
  obtain ⟨⟨tail, htail⟩, -⟩ := candidate?_sound (extract_eq_some_iff.mp h)
  unfold parse
  rw [h]
  dsimp only
  rw [readTolerant_eq]
  cases hread : Json.read .lenient s with
  | error e => rfl
  | ok v =>
    obtain ⟨fields, rfl⟩ := Json.exists_object_of_read htail hread
    rfl

/-- What becomes of a reply: nothing is taken from it, or what is taken is an object, or it cannot
be read, for a reason that the reader gives. -/
lemma parse_cases (reply : String) :
    (extract reply = none ∧ parse reply = .ok none) ∨
    (∃ s fields, extract reply = some s ∧ parse reply = .ok (some (.object fields))) ∨
    ∃ s e, extract reply = some s ∧ e.reason ≠ .notObject ∧
      parse reply = .error (.unreadable e) := by
  cases hextract : extract reply with
  | none =>
    left
    refine ⟨rfl, ?_⟩
    unfold parse
    rw [hextract]
  | some s =>
    right
    have hparse := parse_of_extract_lenient hextract
    cases hread : Json.read .lenient s with
    | error e =>
      rw [hread] at hparse
      exact .inr ⟨s, e, rfl, Json.reason_of_read hread, hparse⟩
    | ok v =>
      obtain ⟨⟨tail, htail⟩, -⟩ := candidate?_sound (extract_eq_some_iff.mp hextract)
      obtain ⟨fields, rfl⟩ := Json.exists_object_of_read htail hread
      rw [hread] at hparse
      exact .inl ⟨s, fields, rfl, hparse⟩

/-- Nothing is read from a reply exactly when nothing is taken from it. Otherwise the outcome is
that of the lenient reader alone, which reads all that the strict one reads. What is read is an
object, and the complaint that it is none is never made. -/
theorem parse_as_lenient (reply : String) :
    (parse reply = .ok none ↔ extract reply = none) ∧
    (∀ s, extract reply = some s →
      parse reply =
        match Json.read .lenient s with
        | .ok v => .ok (some v)
        | .error e => .error (.unreadable e)) ∧
    (∀ s v, Json.read .strict s = .ok v → Json.read .lenient s = .ok v) ∧
    (∀ v, parse reply = .ok (some v) → ∃ fields, v = .object fields) ∧
    ∀ fault, parse reply = .error fault → ∃ e, fault = .unreadable e ∧ e.reason ≠ .notObject := by
  have hlenient (s : String) (h : extract reply = some s) := parse_of_extract_lenient h
  have hstrict (s : String) (v : Value) := Json.read_lenient_of_strict (s := s) (v := v)
  rcases parse_cases reply with ⟨hnone, hparse⟩ | ⟨s, fields, hs, hparse⟩ |
    ⟨s, e, hs, hreason, hparse⟩
  · exact ⟨by simp [hparse, hnone], hlenient, hstrict, by simp [hparse], by simp [hparse]⟩
  · exact ⟨by simp [hparse, hs], hlenient, hstrict, by simp [hparse], by simp [hparse]⟩
  · exact ⟨by simp [hparse, hs], hlenient, hstrict, by simp [hparse], by simp [hparse, hreason]⟩

/-- An object with a line break inside a string. -/
def brokenLine : String := "\x7b\"a\": \"x\ny\"\x7d"

/-- The strict reader stops at the line break; the object is read all the same. -/
theorem brokenLine_read :
    Json.read .strict brokenLine = .error ⟨.controlCharacter, brokenLine, 8⟩ ∧
      extract brokenLine = some brokenLine ∧
      parse brokenLine = .ok (some (.object [("a", .str "x\ny")])) := by
  have hextract : extract brokenLine = some brokenLine := by cbv
  have hread : Json.read .lenient brokenLine = .ok (.object [("a", .str "x\ny")]) := by cbv
  have hparse := (parse_as_lenient brokenLine).2.1 brokenLine hextract
  rw [hread] at hparse
  exact ⟨by cbv, hextract, hparse⟩

end Reading

end SolidityAudit.Reply
