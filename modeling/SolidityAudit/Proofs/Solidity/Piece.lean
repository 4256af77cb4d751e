import Mathlib.Data.List.Find
import SolidityAudit.Solidity.Lexer

/-!
# Pieces before a line break

No piece of source can be gone on with or be cut otherwise by what follows a line break after the
text. Two can stay open: a string without its closing quote, and a comment that is not closed. For
each part of the lexical rules there is a lemma that it finds the same before a line break as at the
end of the text; together they give `piece_append`.
-/

namespace SolidityAudit.Solidity

namespace Lexer

/-! ## Lengths that end at a line break -/

/-- A length within the text that does not change by what follows a line break after it. -/
def Local (f : List Char → Nat) : Prop :=
  ∀ cs, f cs ≤ cs.length ∧ ∀ ds, f (cs ++ '\n' :: ds) = f cs

namespace Local

variable {f g : List Char → Nat}

/-- The rest of the text behind such a length is followed by the same. -/
lemma drop_append (hf : Local f) (cs ds : List Char) :
    (cs ++ '\n' :: ds).drop (f cs) = cs.drop (f cs) ++ '\n' :: ds :=
  List.drop_append_of_le_length (hf cs).1

/-- One such length after the other. -/
lemma and_then (hf : Local f) (hg : Local g) : Local fun cs => f cs + g (cs.drop (f cs)) := by
  intro cs
  have hrest := (hg (cs.drop (f cs))).1
  have hfirst := (hf cs).1
  rw [List.length_drop] at hrest
  refine ⟨?_, fun ds => ?_⟩
  · dsimp only
    omega
  dsimp only
  rw [(hf cs).2 ds, hf.drop_append, (hg _).2 ds]

/-- Such a length, unless it or another one is zero. -/
lemma ite_zero (hf : Local f) {P : List Char → Prop} [DecidablePred P]
    (hP : ∀ cs ds, P (cs ++ '\n' :: ds) ↔ P cs) : Local fun cs => if P cs then 0 else f cs := by
  intro cs
  refine ⟨?_, fun ds => ?_⟩
  · dsimp only
    split
    · exact Nat.zero_le _
    · exact (hf cs).1
  · simp only [hP, (hf cs).2 ds]

end Local

lemma local_run {accepts : Char → Bool} (h : accepts '\n' = false) : Local (run accepts) := by
  intro cs
  induction cs with
  | nil => exact ⟨Nat.le_refl 0, fun ds => by simp [run, h]⟩
  | cons c cs ih =>
    refine ⟨?_, fun ds => ?_⟩
    · rw [run, List.length_cons]
      have := ih.1
      split <;> omega
    · rw [List.cons_append, run, run, ih.2 ds]

lemma moreDigits_newline {digit : Char → Bool} (h : digit '\n' = false) (ds : List Char) :
    moreDigits digit ('\n' :: ds) = 0 := by
  cases ds <;> simp [moreDigits, h]

lemma local_moreDigits {digit : Char → Bool} (h : digit '\n' = false) :
    Local (moreDigits digit) := by
  intro cs
  induction cs using moreDigits.induct digit with
  | case1 c d cs hc ih =>
    refine ⟨?_, fun ds => ?_⟩
    · simpa [moreDigits, hc] using ih.1
    · simpa [moreDigits, hc] using ih.2 ds
  | case2 c d cs hc hd ih =>
    refine ⟨?_, fun ds => ?_⟩
    · rw [moreDigits, if_neg hc, if_pos hd]
      simpa using ih.1
    · rw [List.cons_append, List.cons_append, moreDigits, if_neg hc, if_pos hd, moreDigits,
        if_neg hc, if_pos hd, ih.2 ds]
  | case3 c d cs hc hd =>
    refine ⟨?_, fun ds => ?_⟩
    · rw [moreDigits, if_neg hc, if_neg hd]
      exact Nat.zero_le _
    · rw [List.cons_append, List.cons_append, moreDigits, if_neg hc, if_neg hd, moreDigits,
        if_neg hc, if_neg hd]
  | case4 c hc =>
    exact ⟨by simp [moreDigits, hc], fun ds => by simp [moreDigits, hc, moreDigits_newline h]⟩
  | case5 c hc => exact ⟨by simp [moreDigits, hc], fun ds => by simp [moreDigits, hc, h]⟩
  | case6 => exact ⟨Nat.le_refl 0, fun ds => by simp [moreDigits, moreDigits_newline h]⟩

lemma local_digits {digit : Char → Bool} (h : digit '\n' = false) : Local (digits digit) := by
  intro cs
  cases cs with
  | nil => exact ⟨Nat.le_refl 0, fun ds => by simp [digits, h]⟩
  | cons c cs =>
    obtain ⟨hle, happend⟩ := local_moreDigits h cs
    refine ⟨?_, fun ds => ?_⟩
    · rw [digits, List.length_cons]
      split <;> omega
    · rw [List.cons_append, digits, digits, happend ds]

/-! ## Numbers -/

lemma local_exponent : Local exponent := by
  intro cs
  cases cs with
  | nil => exact ⟨Nat.le_refl 0, fun ds => by simp [exponent]⟩
  | cons c cs =>
    have hdigits : Local (digits Char.isDigit) := local_digits rfl
    obtain ⟨hle, happend⟩ := hdigits cs
    refine ⟨?_, fun ds => ?_⟩
    · simp only [exponent, List.length_cons]
      split_ifs <;> omega
    · simp only [List.cons_append, exponent, happend ds]

lemma local_pointed {f : List Char → Nat} (hf : Local f) {g : List Char → Nat}
    (hpoint : ∀ cs, g ('.' :: cs) = if f cs = 0 then 0 else f cs + 1)
    (hother : ∀ cs, (∀ rest, cs ≠ '.' :: rest) → g cs = 0) : Local g := by
  intro cs
  by_cases h : ∃ rest, cs = '.' :: rest
  · obtain ⟨rest, rfl⟩ := h
    obtain ⟨hle, happend⟩ := hf rest
    refine ⟨?_, fun ds => ?_⟩
    · rw [hpoint, List.length_cons]
      split_ifs <;> omega
    · rw [List.cons_append, hpoint, hpoint, happend ds]
  · have hno : ∀ rest, cs ≠ '.' :: rest := fun rest hcs => h ⟨rest, hcs⟩
    refine ⟨by rw [hother cs hno]; exact Nat.zero_le _, fun ds => ?_⟩
    rw [hother cs hno]
    refine hother _ fun rest hrest => ?_
    cases cs with
    | nil => simp at hrest
    | cons c cs => exact hno cs (by simp_all)

lemma local_fraction : Local fraction :=
  local_pointed (local_digits (rfl : Char.isDigit '\n' = false)) (fun cs => rfl) fun cs h => by
    unfold fraction
    split
    · exact absurd rfl (h _)
    · rfl

lemma local_plainFraction : Local plainFraction :=
  local_pointed (local_run (rfl : Char.isDigit '\n' = false)) (fun cs => rfl) fun cs h => by
    unfold plainFraction
    split
    · exact absurd rfl (h _)
    · rfl

/-- The digits and the fraction of a decimal number. -/
lemma local_mantissa :
    Local fun cs => digits Char.isDigit cs + fraction (cs.drop (digits Char.isDigit cs)) :=
  (local_digits rfl).and_then local_fraction

lemma local_decimal : Local decimal :=
  (local_mantissa.and_then local_exponent).ite_zero fun cs ds => by
    have happend := (local_mantissa cs).2 ds
    dsimp only at happend
    rw [happend]

lemma local_hexadecimal : Local hexadecimal := by
  intro cs
  by_cases h : ∃ x rest, cs = '0' :: x :: rest
  · obtain ⟨x, rest, rfl⟩ := h
    have hdigits : Local (digits isHexDigit) := local_digits rfl
    obtain ⟨hle, happend⟩ := hdigits rest
    refine ⟨?_, fun ds => ?_⟩
    · simp only [hexadecimal, List.length_cons]
      split_ifs <;> omega
    · simp only [List.cons_append, hexadecimal, happend ds]
  · have hnone (text : List Char) (ht : ∀ x rest, text = '0' :: x :: rest → ¬ (x = 'x' ∨ x = 'X')) :
        hexadecimal text = 0 := by
      unfold hexadecimal
      split
      · exact if_neg (ht _ _ rfl)
      · rfl
    have hcs : hexadecimal cs = 0 := hnone cs fun x rest hcs => absurd ⟨x, rest, hcs⟩ h
    refine ⟨by rw [hcs]; exact Nat.zero_le _, fun ds => ?_⟩
    rw [hcs]
    refine hnone _ fun x rest hrest => ?_
    -- a single zero is followed by the line break
    rcases cs with _ | ⟨c, _ | ⟨d, cs⟩⟩
    · simp at hrest
    · simp only [List.cons_append, List.nil_append, List.cons.injEq] at hrest
      rw [← hrest.2.1]
      decide
    · simp only [List.cons_append, List.cons.injEq] at hrest
      exact absurd ⟨d, cs, by rw [hrest.1]⟩ h

lemma local_version : Local version := by
  have hmajor : Local (run Char.isDigit) := local_run rfl
  refine ((hmajor.and_then local_plainFraction).and_then local_plainFraction).ite_zero
    fun cs ds => ?_
  rw [(hmajor cs).2 ds, hmajor.drop_append, (local_plainFraction _).2 ds]

/-! ## Pieces -/

/-- A piece within the text that does not change by what follows a line break after it. -/
def LocalPiece (f : List Char → Option Piece) : Prop :=
  ∀ cs, (∀ p, f cs = some p → p.length ≤ cs.length) ∧ ∀ ds, f (cs ++ '\n' :: ds) = f cs

lemma localPiece_number : LocalPiece number? := by
  intro cs
  refine ⟨fun p hp => ?_, fun ds => ?_⟩
  · have hd := (local_decimal cs).1
    have hh := (local_hexadecimal cs).1
    have hv := (local_version cs).1
    simp only [number?] at hp
    split_ifs at hp <;> obtain rfl := Option.some.inj hp <;> assumption
  · simp only [number?, (local_decimal cs).2 ds, (local_hexadecimal cs).2 ds,
      (local_version cs).2 ds]

lemma isPrefixOf_append_newline {m : List Char} (hm : '\n' ∉ m) (cs ds : List Char) :
    m.isPrefixOf (cs ++ '\n' :: ds) = m.isPrefixOf cs := by
  induction m generalizing cs with
  | nil => simp
  | cons c m ih =>
    rw [List.mem_cons, not_or] at hm
    obtain ⟨hc, hm⟩ := hm
    cases cs with
    | nil => simp [List.isPrefixOf, Ne.symm hc]
    | cons d cs => simp [List.isPrefixOf, ih hm cs]

lemma localPiece_mark : LocalPiece mark? := by
  have hmarks : ∀ m ∈ marks, '\n' ∉ m := by decide
  intro cs
  refine ⟨fun p hp => ?_, fun ds => ?_⟩
  · obtain ⟨m, hm, rfl⟩ := Option.map_eq_some_iff.mp hp
    have hprefix := List.find?_some hm
    exact (List.isPrefixOf_iff_prefix.mp hprefix).length_le
  · have hfind : marks.find? (·.isPrefixOf (cs ++ '\n' :: ds)) = marks.find? (·.isPrefixOf cs) :=
      List.find?_congr fun m hm => isPrefixOf_append_newline (hmarks m hm) cs ds
    rw [mark?, hfind, mark?]

/-- A length within the text that stays, once it is there, whatever follows a line break after the
text. -/
def KeptAt (f : List Char → Option Nat) (cs : List Char) : Prop :=
  ∀ n, f cs = some n → n ≤ cs.length ∧ ∀ ds, f (cs ++ '\n' :: ds) = some n

/-- A length that stays in every text. -/
def Kept (f : List Char → Option Nat) : Prop := ∀ cs, KeptAt f cs

/-- Such a length stays behind some more characters. -/
lemma KeptAt.add {f : List Char → Option Nat} {cs : List Char} (hf : KeptAt f cs) {k n : Nat}
    (h : (f cs).map (· + k) = some n) :
    n ≤ cs.length + k ∧ ∀ ds, (f (cs ++ '\n' :: ds)).map (· + k) = some n := by
  obtain ⟨m, hm, rfl⟩ := Option.map_eq_some_iff.mp h
  obtain ⟨hle, happend⟩ := hf m hm
  exact ⟨Nat.add_le_add_right hle k, fun ds => by rw [happend ds]; rfl⟩

lemma kept_commentRest : Kept commentRest? := by
  intro cs
  induction cs using commentRest?.induct with
  | case1 rest =>
    intro n h
    obtain rfl := Option.some.inj h
    exact ⟨by simp, fun ds => rfl⟩
  | case2 c rest hno ih =>
    intro n h
    rw [commentRest?.eq_2 _ _ hno] at h
    obtain ⟨hle, happend⟩ := ih.add h
    refine ⟨hle, fun ds => ?_⟩
    -- a star at the end of the text is followed by the line break, so it does not close anything
    have hno' : ∀ tail, c = '*' → rest ++ '\n' :: ds = '/' :: tail → False := by
      intro tail hc htail
      cases rest with
      | nil => simp at htail
      | cons d rest =>
        rw [List.cons_append, List.cons.injEq] at htail
        exact hno rest hc (by rw [htail.1])
    rw [List.cons_append, commentRest?.eq_2 _ _ hno', happend ds]
  | case3 =>
    intro n h
    simp [commentRest?] at h

/-- A character of a string that is not the beginning of an escape. -/
lemma stringRest_cons {quote c : Char} (hc : c ≠ '\\') (cs : List Char) :
    stringRest? quote (c :: cs) =
      if c = quote then some 1
      else if c = '\r' ∨ c = '\n' then none
      else (stringRest? quote cs).map (· + 1) :=
  stringRest?.eq_4 _ _ _ (fun _ _ h => absurd h hc) fun h => absurd h hc

/-- What begins no escape, with or without a character after it, is no backslash. -/
lemma ne_backslash {c : Char} {rest : List Char}
    (hescape : ∀ d tail, c = '\\' → rest = d :: tail → False)
    (hlast : c = '\\' → rest = [] → False) : c ≠ '\\' := by
  intro hc
  cases rest with
  | nil => exact hlast hc rfl
  | cons d tail => exact hescape d tail hc rfl

lemma kept_stringRest (quote : Char) : Kept (stringRest? quote) := by
  intro cs
  induction cs using stringRest?.induct quote with
  | case1 | case3 =>
    intro n h
    simp [stringRest?] at h
  | case2 escaped rest ih =>
    intro n h
    rw [stringRest?] at h
    obtain ⟨hle, happend⟩ := ih.add h
    refine ⟨hle, fun ds => ?_⟩
    rw [List.cons_append, List.cons_append, stringRest?, happend ds]
  | case4 rest hno hno' =>
    intro n h
    have hslash : quote ≠ '\\' := ne_backslash hno hno'
    rw [stringRest_cons hslash, if_pos rfl] at h
    obtain rfl := Option.some.inj h
    refine ⟨by simp, fun ds => ?_⟩
    rw [List.cons_append, stringRest_cons hslash, if_pos rfl]
  | case5 c rest hno hno' hquote hbreak =>
    intro n h
    rw [stringRest_cons (ne_backslash hno hno'), if_neg hquote, if_pos hbreak] at h
    simp at h
  | case6 c rest hno hno' hquote hbreak ih =>
    intro n h
    have hslash : c ≠ '\\' := ne_backslash hno hno'
    rw [stringRest_cons hslash, if_neg hquote, if_neg hbreak] at h
    obtain ⟨hle, happend⟩ := ih.add h
    refine ⟨hle, fun ds => ?_⟩
    rw [List.cons_append, stringRest_cons hslash, if_neg hquote, if_neg hbreak, happend ds]

/-- Whether a text begins with a quote. -/
def startsQuote : List Char → Bool
  | c :: _ => c == '"' || c == '\''
  | [] => false

lemma kept_string : Kept string? := by
  intro cs n h
  unfold string? at h
  split at h
  · exact (kept_stringRest '"' _).add h
  · exact (kept_stringRest '\'' _).add h
  · simp at h

lemma string_eq_none {cs : List Char} (h : startsQuote cs = false) : string? cs = none := by
  unfold string?
  split <;> simp_all [startsQuote]

/-- No string begins where none has begun, except after an open quote. -/
lemma string_append {cs : List Char} (h : string? cs = none → startsQuote cs = false)
    (ds : List Char) : string? (cs ++ '\n' :: ds) = string? cs := by
  cases hs : string? cs with
  | some n => exact (kept_string cs n hs).2 ds
  | none =>
    have hquote : startsQuote (cs ++ '\n' :: ds) = false := by
      cases cs with
      | nil => rfl
      | cons c cs => exact h hs
    exact string_eq_none hquote

lemma hexInQuotes_append (cs ds : List Char) :
    hexInQuotes? (cs ++ '\n' :: ds) = hexInQuotes? cs := by
  have hdigits : Local (digits isHexDigit) := local_digits rfl
  cases cs with
  | nil => rfl
  | cons q cs =>
    rw [List.cons_append, hexInQuotes?, hexInQuotes?]
    dsimp only
    rw [(hdigits cs).2 ds, hdigits.drop_append]
    split
    · next hq =>
      cases hrest : cs.drop (digits isHexDigit cs) with
      | nil =>
        -- the line break comes where the closing quote would
        have hne : ¬ (some '\n' = some q) := by rcases hq with rfl | rfl <;> decide
        simp [hne]
      | cons c rest => rfl
    · rfl

lemma hexInQuotes_le {cs : List Char} {n : Nat} (h : hexInQuotes? cs = some n) :
    n ≤ cs.length := by
  cases cs with
  | nil => simp [hexInQuotes?] at h
  | cons q cs =>
    rw [hexInQuotes?] at h
    dsimp only at h
    split_ifs at h with hq hrest
    obtain rfl := Option.some.inj h
    have hlt : digits isHexDigit cs < cs.length := by
      by_contra hge
      rw [List.drop_of_length_le (Nat.le_of_not_lt hge)] at hrest
      simp at hrest
    rw [List.length_cons]
    omega

lemma local_inWord : Local (run inWord) := local_run rfl

lemma word_le (cs : List Char) : (word cs).length ≤ cs.length := by
  have hword := (local_inWord cs).1
  have hrest : (cs.drop (run inWord cs)).length = cs.length - run inWord cs := List.length_drop
  simp only [word]
  split_ifs
  · cases hhex : hexInQuotes? (cs.drop (run inWord cs)) with
    | none => exact hword
    | some k =>
      have hle := hexInQuotes_le hhex
      show run inWord cs + k ≤ cs.length
      omega
  · cases hstring : string? (cs.drop (run inWord cs)) with
    | none => exact hword
    | some k =>
      have hle := (kept_string _ k hstring).1
      show run inWord cs + k ≤ cs.length
      omega
  · exact hword

/-- A word is the same, whatever follows a line break, if no string stays open after it. -/
lemma word_append {cs : List Char}
    (h : String.ofList (cs.take (run inWord cs)) = "unicode" →
      string? (cs.drop (run inWord cs)) = none → startsQuote (cs.drop (run inWord cs)) = false)
    (ds : List Char) : word (cs ++ '\n' :: ds) = word cs := by
  have htake : (cs ++ '\n' :: ds).take (run inWord cs) = cs.take (run inWord cs) :=
    List.take_append_of_le_length (local_inWord cs).1
  simp only [word, (local_inWord cs).2 ds, htake, local_inWord.drop_append, hexInQuotes_append]
  by_cases hname : String.ofList (cs.take (run inWord cs)) = "unicode"
  · rw [string_append (h hname)]
  · simp only [if_neg hname]

/-! ## Comments -/

/-- Whether a text begins with a comment that is not closed. -/
def startsOpenComment : List Char → Bool
  | '/' :: '*' :: cs => (commentRest? cs).isNone
  | _ => false

lemma comment_append {cs : List Char} (h : startsOpenComment cs = false) (ds : List Char) :
    comment? (cs ++ '\n' :: ds) = comment? cs := by
  have hnone (text : List Char) (hblock : ∀ rest, text ≠ '/' :: '*' :: rest)
      (hline : ∀ rest, text ≠ '/' :: '/' :: rest) : comment? text = none :=
    comment?.eq_3 _ hblock hline
  rcases cs with _ | ⟨c, _ | ⟨d, rest⟩⟩
  · rfl
  · -- the second character is the line break
    rw [hnone [c] (by simp) (by simp), hnone _ (by simp) (by simp)]
  · by_cases hblock : c = '/' ∧ d = '*'
    · obtain ⟨rfl, rfl⟩ := hblock
      rw [List.cons_append, List.cons_append, comment?, comment?]
      cases hrest : commentRest? rest with
      | none => simp [startsOpenComment, hrest] at h
      | some n => rw [(kept_commentRest rest n hrest).2 ds]
    · by_cases hline : c = '/' ∧ d = '/'
      · obtain ⟨rfl, rfl⟩ := hline
        have hrun : Local (run fun c => c != '\r' && c != '\n') := local_run rfl
        rw [List.cons_append, List.cons_append, comment?, comment?, (hrun rest).2 ds]
      · rw [hnone (c :: d :: rest) (by simp_all) (by simp_all), hnone _ (by simp_all)
          (by simp_all)]

lemma comment_le {cs : List Char} {p : Piece} (h : comment? cs = some p) :
    p.length ≤ cs.length := by
  unfold comment? at h
  split at h
  · obtain ⟨n, hn, rfl⟩ := Option.map_eq_some_iff.mp h
    have hle := (kept_commentRest _ n hn).1
    simpa using hle
  · next rest =>
    obtain rfl := Option.some.inj h
    have hrun : Local (run fun c => c != '\r' && c != '\n') := local_run rfl
    have hle := (hrun rest).1
    simpa using hle
  · simp at h

/-! ## The piece at the front -/

lemma run_le (accepts : Char → Bool) (cs : List Char) : run accepts cs ≤ cs.length := by
  induction cs with
  | nil => exact Nat.le_refl 0
  | cons c cs ih =>
    rw [run, List.length_cons]
    split <;> omega

lemma piece_le {cs : List Char} {p : Piece} (h : piece? cs = some p) : p.length ≤ cs.length := by
  unfold piece? at h
  split at h
  · simp at h
  · next c rest =>
    split_ifs at h
    · obtain rfl := Option.some.inj h
      exact run_le ..
    · obtain rfl := Option.some.inj h
      exact word_le _
    · split at h
      · next hcomment =>
        obtain rfl := Option.some.inj h
        exact comment_le hcomment
      · split at h
        · next hnumber =>
          obtain rfl := Option.some.inj h
          exact (localPiece_number _).1 _ hnumber
        · split at h
          · next hstring =>
            obtain rfl := Option.some.inj h
            exact (kept_string _ _ hstring).1
          · exact (localPiece_mark _).1 _ h

/-- No mark begins with a quote. -/
lemma mark_of_startsQuote {cs : List Char} (h : startsQuote cs = true) : mark? cs = none := by
  have hmarks : ∀ m ∈ marks, m ≠ [] ∧ startsQuote m = false := by decide
  rw [mark?, Option.map_eq_none_iff, List.find?_eq_none]
  intro m hm hprefix
  obtain ⟨hne, hquote⟩ := hmarks m hm
  obtain ⟨rest, rfl⟩ := List.isPrefixOf_iff_prefix.mp hprefix
  cases m with
  | nil => exact hne rfl
  | cons c m =>
    rw [List.cons_append, startsQuote] at h
    rw [startsQuote, h] at hquote
    simp at hquote

/-- The piece at the front is the same, whatever follows a line break, if it is not a blank and
nothing stays open in it or after it. -/
lemma piece_append {c : Char} {cs : List Char} {p : Piece} (h : piece? (c :: cs) = some p)
    (hspace : isSpace c = false) (hcomment : startsOpenComment (c :: cs) = false)
    (hword : startsWord c = true →
      String.ofList ((c :: cs).take (run inWord (c :: cs))) = "unicode" →
        string? ((c :: cs).drop (run inWord (c :: cs))) = none →
          startsQuote ((c :: cs).drop (run inWord (c :: cs))) = false)
    (ds : List Char) : piece? (c :: (cs ++ '\n' :: ds)) = some p := by
  have hnumber := (localPiece_number (c :: cs)).2 ds
  have hmark := (localPiece_mark (c :: cs)).2 ds
  have hcomment' := comment_append hcomment ds
  rw [List.cons_append] at hnumber hmark hcomment'
  -- the parts are tried in one order: what is not found in the text is not found in the longer one
  rw [piece?] at h ⊢
  simp only [hspace, Bool.false_eq_true, if_false] at h ⊢
  split_ifs at h ⊢ with hstart
  · rw [← List.cons_append, word_append (hword hstart)]
    exact h
  · rw [hcomment', hnumber]
    split
    · next hfound => simpa [hfound] using h
    · next hcnone =>
      rw [hcnone] at h
      dsimp only at h
      split
      · next hfound => simpa [hfound] using h
      · next hnnone =>
        rw [hnnone] at h
        dsimp only at h
        -- a quote that begins no string would begin nothing at all
        have hstring : string? (c :: cs) = none → startsQuote (c :: cs) = false := by
          intro hsnone
          cases hquote : startsQuote (c :: cs) with
          | false => rfl
          | true => simp [hsnone, mark_of_startsQuote hquote] at h
        rw [← List.cons_append, string_append hstring, List.cons_append, hmark]
        exact h

end Lexer

end SolidityAudit.Solidity
