import SolidityAudit.Proofs.Solidity.Piece
import SolidityAudit.Solidity.Tree

/-!
# Tokens of texts one after the other

A text that can be read to its end has no open string. A comment that is not closed leaves the mark
of division in front of one that begins with a star (`OpensComment`). Where there is no such pair,
the tokens of a text, a line break and another text are the tokens of the one and then those of the
other (`tokensOf_append`).
-/

namespace SolidityAudit.Solidity

open Lexer

/-! ## Tokens without places -/

/-- The tokens of a text after `skip` characters; `none` if it cannot be read to its end. -/
def tokensAfter : Nat → List Char → Option (List Token)
  | _, [] => some []
  | skip + 1, _ :: cs => tokensAfter skip cs
  | 0, c :: cs =>
    match piece? (c :: cs) with
    | none => none
    | some ⟨none, n⟩ => tokensAfter (n - 1) cs
    | some ⟨some kind, n⟩ =>
      (tokensAfter (n - 1) cs).map (⟨kind, String.ofList ((c :: cs).take n)⟩ :: ·)

/-- The tokens of a source; `none` if it cannot be read to its end. -/
def tokensOf (source : String) : Option (List Token) := tokensAfter 0 source.toList

lemma tokensAfter_eq_scanAfter (place : Place) (skip : Nat) (cs : List Char) :
    tokensAfter skip cs =
      if (scanAfter place skip cs).complete then
        some ((scanAfter place skip cs).tokens.map Prod.fst)
      else none := by
  induction cs generalizing place skip with
  | nil => rfl
  | cons c cs ih =>
    cases skip with
    | succ skip => exact ih (place.after c) skip
    | zero =>
      rw [tokensAfter, scanAfter]
      cases piece? (c :: cs) with
      | none => rfl
      | some p =>
        obtain ⟨kind, n⟩ := p
        cases kind with
        | none => exact ih (place.after c) (n - 1)
        | some kind =>
          dsimp only
          rw [ih (place.after c) (n - 1)]
          split <;> simp_all

lemma tokensAfter_drop {skip : Nat} {cs : List Char} (h : skip ≤ cs.length) :
    tokensAfter skip cs = tokensAfter 0 (cs.drop skip) := by
  induction cs generalizing skip with
  | nil =>
    obtain rfl : skip = 0 := by simpa using h
    rfl
  | cons c cs ih =>
    cases skip with
    | zero => rfl
    | succ skip => exact ih (by simpa using h)

/-- What is found at the front of a text that can be read. -/
lemma tokensAfter_cons {c : Char} {cs : List Char} {ts : List Token}
    (h : tokensAfter 0 (c :: cs) = some ts) :
    ∃ kind n us, piece? (c :: cs) = some ⟨kind, n⟩ ∧ tokensAfter (n - 1) cs = some us ∧
      ts = (kind.map fun k => ⟨k, String.ofList ((c :: cs).take n)⟩).toList ++ us := by
  rw [tokensAfter] at h
  split at h
  · simp at h
  · next n hpiece => exact ⟨none, n, ts, hpiece, h, rfl⟩
  · next kind n hpiece =>
    obtain ⟨us, hus, rfl⟩ := Option.map_eq_some_iff.mp h
    exact ⟨some kind, n, us, hpiece, hus, rfl⟩

/-- Blanks at the front are passed over one at a time. -/
lemma tokensAfter_space {c : Char} (h : isSpace c = true) (cs : List Char) :
    tokensAfter 0 (c :: cs) = tokensAfter 0 cs := by
  have hstep (d : Char) (hd : isSpace d = true) (ds : List Char) :
      tokensAfter 0 (d :: ds) = tokensAfter (run isSpace ds) ds := by
    rw [tokensAfter, piece?, if_pos hd, run, if_pos hd]
    rfl
  rw [hstep c h]
  cases cs with
  | nil => rfl
  | cons d ds =>
    by_cases hd : isSpace d = true
    · rw [hstep d hd, run, if_pos hd]
      rfl
    · rw [run, if_neg hd]

/-! ## What stays open -/

/-- A mark that begins with a star. -/
def Token.isStar (t : Token) : Bool := t.kind = .literal && t.text.toList.head? = some '*'

/-- The mark of division. -/
def Token.isSlash (t : Token) : Bool := t.kind = .literal && t.text = "/"

/-- The mark of division stands in front of a mark that begins with a star. -/
def OpensComment (ts : List Token) : Prop :=
  ∃ slash star, slash.isSlash = true ∧ star.isStar = true ∧ [slash, star] <:+: ts

/-- A text that begins with an open string cannot be read. -/
lemma piece_of_open_string {cs : List Char} (hquote : startsQuote cs = true)
    (h : string? cs = none) : piece? cs = none := by
  have hmark := mark_of_startsQuote hquote
  cases cs with
  | nil => rfl
  | cons c cs =>
    -- a quote begins nothing but a string
    rw [startsQuote, Bool.or_eq_true, beq_iff_eq, beq_iff_eq] at hquote
    have hcomment : comment? (c :: cs) = none := by
      rcases hquote with rfl | rfl <;> rfl
    have hnumber : number? (c :: cs) = none := by
      rcases hquote with rfl | rfl <;> rfl
    have hspace : isSpace c = false := by
      rcases hquote with rfl | rfl <;> rfl
    have hword : startsWord c = false := by
      rcases hquote with rfl | rfl <;> rfl
    rw [piece?, hspace, hword, hcomment, hnumber, h, hmark]
    rfl

/-- After the word that may begin a string there is no open string in a text that can be read. -/
lemma closed_after_word {c : Char} {cs : List Char} (hspace : isSpace c = false)
    (hword : startsWord c = true) {ts : List Token} (h : tokensAfter 0 (c :: cs) = some ts)
    (hname : String.ofList ((c :: cs).take (run inWord (c :: cs))) = "unicode")
    (hstring : string? ((c :: cs).drop (run inWord (c :: cs))) = none) :
    startsQuote ((c :: cs).drop (run inWord (c :: cs))) = false := by
  have hpiece : piece? (c :: cs) = some ⟨some (wordKind "unicode"), run inWord (c :: cs)⟩ := by
    rw [piece?, hspace, hword, word, hname]
    simp [hstring]
  obtain ⟨kind, n, us, hfound, hus, -⟩ := tokensAfter_cons h
  obtain ⟨rfl, rfl⟩ := Piece.mk.inj (Option.some.inj (hpiece.symm.trans hfound))
  have hlength := run_le inWord (c :: cs)
  rw [List.length_cons] at hlength
  rw [tokensAfter_drop (by omega)] at hus
  -- what comes after the word is what the scan goes on with
  have hdrop : (c :: cs).drop (run inWord (c :: cs)) = cs.drop (run inWord (c :: cs) - 1) := by
    have hpos : run inWord (c :: cs) = run inWord (c :: cs) - 1 + 1 := by
      have hin : inWord c = true := by
        simp only [startsWord, Bool.or_eq_true] at hword
        rcases hword with (halpha | hdollar) | hunderscore
        · simp [inWord, Char.isAlphanum, halpha]
        · simp [inWord, hdollar]
        · simp [inWord, hunderscore]
      rw [run, if_pos hin]
      rfl
    rw [hpos, List.drop_succ_cons]
    rfl
  rw [hdrop] at hstring ⊢
  cases hquote : startsQuote (cs.drop (run inWord (c :: cs) - 1)) with
  | false => rfl
  | true =>
    have hnone := piece_of_open_string hquote hstring
    cases hrest : cs.drop (run inWord (c :: cs) - 1) with
    | nil => simp [hrest, startsQuote] at hquote
    | cons d ds =>
      rw [hrest] at hus hnone
      rw [tokensAfter, hnone] at hus
      simp at hus

/-- A comment that is not closed leaves two marks. -/
lemma opensComment_of_starts {c : Char} {cs : List Char} {ts : List Token}
    (hopen : startsOpenComment (c :: cs) = true) (h : tokensAfter 0 (c :: cs) = some ts) :
    OpensComment ts := by
  unfold startsOpenComment at hopen
  split at hopen
  · next rest htext =>
    obtain ⟨rfl, rfl⟩ := List.cons.inj htext
    have hslash : piece? ('/' :: '*' :: rest) = some ⟨some .literal, 1⟩ := by
      rw [Option.isNone_iff_eq_none] at hopen
      have hcomment : comment? ('/' :: '*' :: rest) = none := by
        rw [comment?, hopen]
        rfl
      rw [piece?, hcomment]
      rfl
    obtain ⟨kind, n, us, hfound, hus, rfl⟩ := tokensAfter_cons h
    obtain ⟨rfl, rfl⟩ := Piece.mk.inj (Option.some.inj (hslash.symm.trans hfound))
    obtain ⟨kind', m, vs, hstar, -, rfl⟩ := tokensAfter_cons hus
    -- the second piece is a mark
    have hmark : mark? ('*' :: rest) = some ⟨kind', m⟩ := hstar
    obtain ⟨mark, hmem, hmk⟩ := Option.map_eq_some_iff.mp hmark
    obtain ⟨rfl, rfl⟩ := Piece.mk.inj hmk
    have hmarks : ∀ m ∈ marks, m ≠ [] := by decide
    obtain ⟨k, hk⟩ := Nat.exists_eq_succ_of_ne_zero
      (List.length_pos_iff.mpr (hmarks mark (List.mem_of_find?_eq_some hmem))).ne'
    refine ⟨_, _, ?_, ?_, [], vs, rfl⟩
    · rfl
    · simp [Token.isStar, hk]
  · simp at hopen

/-! ## One text after the other -/

/-- The tokens of a text that can be read, a line break, and another text are the tokens of both, if
the first text holds no open comment. -/
theorem tokensAfter_append {skip : Nat} {cs : List Char} {ts : List Token}
    (h : tokensAfter skip cs = some ts) (hskip : skip ≤ cs.length) (hclosed : ¬ OpensComment ts)
    (ds : List Char) :
    tokensAfter skip (cs ++ '\n' :: ds) = (tokensAfter 0 ds).map (ts ++ ·) := by
  induction cs generalizing skip ts with
  | nil =>
    obtain rfl : skip = 0 := by simpa using hskip
    obtain rfl := Option.some.inj h
    rw [List.nil_append, tokensAfter_space rfl]
    simp
  | cons c cs ih =>
    cases skip with
    | succ skip => exact ih h (by simpa using hskip) hclosed
    | zero =>
      rw [List.cons_append]
      cases hspace : isSpace c with
      | true =>
        -- blanks at the end of the text run on into what follows, but leave no tokens
        rw [tokensAfter_space hspace] at h ⊢
        exact ih h (Nat.zero_le _) hclosed
      | false =>
        have hcomment : startsOpenComment (c :: cs) = false := by
          cases hopen : startsOpenComment (c :: cs) with
          | false => rfl
          | true => exact absurd (opensComment_of_starts hopen h) hclosed
        obtain ⟨kind, n, us, hpiece, hus, rfl⟩ := tokensAfter_cons h
        have hle := piece_le hpiece
        have hsame := piece_append hpiece hspace hcomment
          (fun hword => closed_after_word hspace hword h) ds
        have hrest : ¬ OpensComment us := by
          rintro ⟨slash, star, hslash, hstar, hinfix⟩
          exact hclosed ⟨slash, star, hslash, hstar,
            hinfix.trans (List.suffix_append ..).isInfix⟩
        have htail := ih hus (by simp at hle ⊢; omega) hrest
        rw [tokensAfter, hsame]
        cases kind with
        | none => exact htail
        | some kind =>
          dsimp only
          rw [htail, Option.map_map, ← List.cons_append, List.take_append_of_le_length hle]
          rfl

theorem tokensOf_append {s : String} {ts : List Token} (h : tokensOf s = some ts)
    (hclosed : ¬ OpensComment ts) (t : String) :
    tokensOf (s ++ "\n" ++ t) = (tokensOf t).map (ts ++ ·) := by
  have htext : (s ++ "\n" ++ t).toList = s.toList ++ '\n' :: t.toList := by
    simp [String.toList_append]
  rw [tokensOf, htext, tokensAfter_append h (Nat.zero_le _) hclosed, tokensOf]

/-- A source is read through its tokens. -/
lemma readSource_eq_ok {s : String} {items : List Tree} :
    readSource s = .ok items ↔ ∃ ts, tokensOf s = some ts ∧ readTokens ts = .ok items := by
  rw [readSource, tokensOf, tokensAfter_eq_scanAfter .start, ← scan]
  cases hread : readTokens ((scan s).tokens.map (·.1)) with
  | ok found =>
    cases hcomplete : (scan s).complete with
    | true => simp [hread]
    | false => simp
  | error reach =>
    -- there are no items on either side, wherever the fault is placed
    have hright : ¬ ∃ ts, (if (scan s).complete = true then some ((scan s).tokens.map Prod.fst)
        else none) = some ts ∧ readTokens ts = .ok items := by
      rintro ⟨ts, hts, hok⟩
      split_ifs at hts
      rw [← Option.some.inj hts, hread] at hok
      simp at hok
    refine iff_of_false ?_ hright
    dsimp only
    split <;> simp

end SolidityAudit.Solidity
