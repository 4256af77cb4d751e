import SolidityAudit.Proofs.Yaml.Codec

/-!
# Keys that are integers

A key behind a mark of its own may be of any length, and so may an integer in hexadecimal digits. So
a document can have a key that stands for an integer with more digits than are written
(`load_hexKey`).
-/

namespace SolidityAudit.Yaml

/-- What follows the key: a line with the value. -/
def oneLine : List Char := [':', ' ', '1', '\n']

/-- A document of one key behind a mark, an integer of as many hexadecimal digits. -/
def hexKey (n : Nat) : List Char :=
  '?' :: ' ' :: '0' :: 'x' :: (List.replicate n 'F' ++ '\n' :: oneLine)

/-- The integer of as many hexadecimal digits. -/
def hexInteger (n : Nat) : Value := .int ((16 ^ n - 1 : Nat) : Int)

variable {n : Nat}

/-! ## The integer -/

lemma valueIn_replicate (n : Nat) : valueIn 16 (List.replicate n 'F') = 16 ^ n - 1 := by
  have hvalue : (Json.hexValue? 'F').getD 0 = 15 := by decide
  induction n with
  | zero => rfl
  | succ n ih =>
    have hpos : 0 < 16 ^ n := Nat.pow_pos (by decide)
    rw [valueIn] at ih
    rw [List.replicate_succ', valueIn, List.foldl_append, ih, List.foldl_cons, hvalue,
      List.foldl_nil, Nat.pow_succ]
    omega

lemma magnitude?_hex (h : 0 < n) :
    magnitude? ('0' :: 'x' :: List.replicate n 'F') = some (16 ^ n - 1) := by
  have hisDigit : ∀ c ∈ List.replicate n 'F', (Json.hexValue? c).isSome || c == '_' := by
    intro c hc
    rw [List.eq_of_mem_replicate hc]
    decide
  have hkept : (List.replicate n 'F').filter (· != '_') = List.replicate n 'F' := by
    refine List.filter_eq_self.mpr fun c hc => ?_
    rw [List.eq_of_mem_replicate hc]
    decide
  have hnil : List.replicate n 'F' ≠ [] := by simpa using h.ne'
  have hdigits : digitsIn? (fun c => (Json.hexValue? c).isSome) (List.replicate n 'F') =
      some (List.replicate n 'F') := by
    rw [digitsIn?, if_pos ⟨hnil, List.all_eq_true.mpr hisDigit⟩, hkept]
  show (digitsIn? _ _).map (valueIn 16) = _
  rw [hdigits, Option.map_some, valueIn_replicate]

/-- A text is none of those that do not begin with its first character. -/
lemma contains_ofList {names : List String} {c : Char} {cs : List Char}
    (h : names.all (fun s => s.toList.head? != some c) = true) :
    names.contains (String.ofList (c :: cs)) = false := by
  rw [Bool.eq_false_iff]
  intro hmem
  have hhead := List.all_eq_true.mp h _ (List.contains_iff_mem.mp hmem)
  rw [String.toList_ofList] at hhead
  simp at hhead

lemma plainValue?_hex (h : 0 < n) :
    plainValue? (String.ofList ('0' :: 'x' :: List.replicate n 'F')) = some (hexInteger n) := by
  have hinteger : integer? ('0' :: 'x' :: List.replicate n 'F') =
      some ((16 ^ n - 1 : Nat) : Int) := by
    have hunsigned : IntegerText.splitSign ('0' :: 'x' :: List.replicate n 'F') =
        (false, '0' :: 'x' :: List.replicate n 'F') := rfl
    rw [integer?, hunsigned]
    dsimp only
    rw [magnitude?_hex h]
    rfl
  unfold plainValue?
  rw [contains_ofList (by decide +kernel), contains_ofList (by decide +kernel),
    contains_ofList (by decide +kernel), contains_ofList (by decide +kernel),
    String.toList_ofList]
  dsimp only
  rw [hinteger]
  rfl

/-! ## The document -/

lemma plainRun_hex (n : Nat) (rest : List Char) :
    plainRun false ('0' :: 'x' :: (List.replicate n 'F' ++ '\n' :: rest)) =
      '0' :: 'x' :: List.replicate n 'F' := by
  have hrun (n : Nat) :
      plainRun false (List.replicate n 'F' ++ '\n' :: rest) = List.replicate n 'F' := by
    induction n with
    | zero => rfl
    | succ n ih =>
      rw [List.replicate_succ, List.cons_append, plainRun, ih]
      rfl
  rw [plainRun, plainRun, hrun]
  rfl

/-- The key ends where the next line begins, which stands no further in. -/
lemma readPlain_hex (h : 0 < n) (column : Nat) :
    readPlain false 1 ⟨'0' :: 'x' :: (List.replicate n 'F' ++ '\n' :: oneLine), column, false⟩ =
      .ok (.scalar (hexInteger n), ⟨oneLine, 0, true⟩) := by
  have hafter : ('0' :: 'x' :: (List.replicate n 'F' ++ '\n' :: oneLine)).drop
      ('0' :: 'x' :: List.replicate n 'F').length = '\n' :: oneLine := by
    simp
  have hplain (steps : Nat) : plainFrom false 1 (steps + 1) [] []
      ⟨'0' :: 'x' :: (List.replicate n 'F' ++ '\n' :: oneLine), column, false⟩ =
        (('0' :: 'x' :: List.replicate n 'F').reverse, ⟨oneLine, 0, true⟩) := by
    rw [plainFrom, plainRun_hex]
    unfold Cursor.advance
    dsimp only
    rw [hafter]
    simp [foldGap, foldLines, isBreak, isMark, atGap, List.isPrefixOf, oneLine]
  unfold readPlain
  rw [if_pos (by rfl), hplain]
  dsimp only
  rw [List.reverse_reverse, plainValue?_hex h]

lemma readBlock_hex (h : 0 < n) (steps : Nat) : readBlock 1 true false (steps + 1)
      ⟨'0' :: 'x' :: (List.replicate n 'F' ++ '\n' :: oneLine), 2, false⟩ =
    .ok (.scalar (hexInteger n), ⟨oneLine, 0, true⟩) := by
  have hinline (steps column : Nat) : readInline false 1 (steps + 1)
      ⟨'0' :: 'x' :: (List.replicate n 'F' ++ '\n' :: oneLine), column, false⟩ =
        .ok (.scalar (hexInteger n), ⟨oneLine, 0, true⟩) := by
    rw [readInline]
    exact readPlain_hex h column
  rw [readBlock, flowSteps, hinline]
  rfl

lemma readBlock_one (steps : Nat) : readBlock 1 true false (steps + 1) ⟨['1', '\n'], 2, false⟩ =
    .ok (.scalar (.int 1), ⟨[], 0, true⟩) := by
  have hinline : readInline false 1 (flowSteps ⟨['1', '\n'], 2, false⟩) ⟨['1', '\n'], 2, false⟩ =
      .ok (.scalar (.int 1), ⟨[], 0, true⟩) := rfl
  rw [readBlock, hinline]
  rfl

lemma readBlock_hexKey (h : 0 < n) (steps : Nat) :
    readBlock 0 false false (steps + 3) ⟨hexKey n, 0, true⟩ =
      .ok (.mapping [(.scalar (hexInteger n), .scalar (.int 1))], ⟨[], 0, true⟩) := by
  have hcolon : (isAlone ':' (Cursor.skip ⟨oneLine, 0, true⟩) &&
      (Cursor.skip ⟨oneLine, 0, true⟩).fresh &&
      decide ((Cursor.skip ⟨oneLine, 0, true⟩).column = 0)) = true := by
    decide
  have hvalue : readBlock 1 true false (steps + 1)
      ((Cursor.skip ⟨oneLine, 0, true⟩).advance 1).skip =
        .ok (.scalar (.int 1), ⟨[], 0, true⟩) := readBlock_one steps
  -- the mark of the key makes the document a mapping
  show readMapping 0 (steps + 2) [] ⟨hexKey n, 0, true⟩ = _
  rw [readMapping]
  show (readBlock 1 true false (steps + 1)
    ⟨'0' :: 'x' :: (List.replicate n 'F' ++ '\n' :: oneLine), 2, false⟩ >>= _) = _
  rw [readBlock_hex h]
  dsimp only [bind, Except.bind]
  rw [if_pos hcolon, hvalue]
  rfl

/-- The key is the integer that its digits write, however many they are. -/
lemma read_hexKey (h : 0 < n) :
    read (String.ofList (hexKey n)) = .ok (.mapping [(hexInteger n, .int 1)]) := by
  have hprintable : (hexKey n).all isPrintable = true := by simp [hexKey, oneLine, isPrintable]
  have hsteps : 2 * (hexKey n).length + 2 = 2 * n + 17 + 3 := by
    have hlength : (hexKey n).length = n + 9 := by simp [hexKey, oneLine]
    omega
  rw [read, String.toList_ofList]
  unfold readChars
  rw [hprintable]
  show (readBlock 0 false false (2 * (hexKey n).length + 2) ⟨hexKey n, 0, true⟩ >>= _) = _
  rw [hsteps, readBlock_hexKey h]
  rfl

/-- What is loaded of a document with such a key. -/
theorem load_hexKey (h : 0 < n) :
    codec.load (Text.Utf8.encode (String.ofList (hexKey n))) =
      .ok (.mapping [(.other (hexInteger n).shown, .int 1)]) := by
  have hclear : Clear (hexKey n) := by
    intro c hc
    simp only [hexKey, oneLine, List.mem_cons, List.mem_append, List.mem_replicate] at hc
    rcases hc with rfl | rfl | rfl | rfl | ⟨-, rfl⟩ | rfl | rfl | rfl | rfl | rfl | hc
    all_goals first | rfl | cases hc
  rw [load_encode (by rw [String.toList_ofList]; exact unifyLines_of_clear hclear),
    read_hexKey h]
  rfl

end SolidityAudit.Yaml
