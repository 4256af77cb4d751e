import SolidityAudit.Proofs.Json.Layout
import SolidityAudit.Yaml.Writer

/-!
# The characters of written documents

A document is written in printable ASCII and line feeds, whatever characters its texts have: the
others are written by their escapes (`clear_write`). So its lines end in one way only, and a file
that is read with unified line breaks gives the document as it was written
(`unifyLines_write`).
-/

namespace SolidityAudit

/-! ## Digits -/

lemma exists_digitChar {base n : Nat} (hbase : 1 < base) {c : Char} (h : c ∈ Nat.toDigits base n) :
    ∃ d < base, c = d.digitChar := by
  induction n using Nat.strongRecOn with
  | ind n ih =>
    rw [Nat.toDigits_eq_if hbase] at h
    split at h
    · rename_i hsmall
      exact ⟨n, hsmall, List.mem_singleton.mp h⟩
    · rename_i hlarge
      rcases List.mem_append.mp h with hmem | hmem
      · exact ih _ (Nat.div_lt_self (by omega) hbase) hmem
      · exact ⟨n % base, Nat.mod_lt n (by omega), List.mem_singleton.mp hmem⟩

namespace Yaml

/-- Characters that stand as they are: printable ones of ASCII, and line feeds. -/
def Clear (cs : List Char) : Prop := ∀ c ∈ cs, isSpecial c = false

instance (cs : List Char) : Decidable (Clear cs) :=
  List.decidableBAll (fun c => isSpecial c = false) cs

variable {cs ds : List Char} {w : Written} {indent : Nat}

lemma Clear.append (hcs : Clear cs) (hds : Clear ds) : Clear (cs ++ ds) := fun c hc =>
  (List.mem_append.mp hc).elim (hcs c) (hds c)

lemma clear_replicate {c : Char} (hc : isSpecial c = false) (n : Nat) :
    Clear (List.replicate n c) := by
  intro d hd
  rw [(List.mem_replicate.mp hd).2, hc]

lemma Clear.of_subset (hcs : Clear cs) (h : ds ⊆ cs) : Clear ds := fun c hc => hcs c (h hc)

lemma clear_toDigits {base : Nat} (hbase : 1 < base) (hsmall : base ≤ 16) (n : Nat) :
    Clear (Nat.toDigits base n) ∧ Clear ((Nat.toDigits base n).map Char.toUpper) := by
  have hall : ∀ d < 16, isSpecial d.digitChar = false ∧ isSpecial d.digitChar.toUpper = false := by
    decide
  constructor
  · intro c hc
    obtain ⟨d, hd, rfl⟩ := exists_digitChar hbase hc
    exact (hall d (by omega)).1
  · intro c hc
    obtain ⟨e, he, rfl⟩ := List.mem_map.mp hc
    obtain ⟨d, hd, rfl⟩ := exists_digitChar hbase he
    exact (hall d (by omega)).2

/-! ## Written text -/

/-- All that has been written stands as it is. -/
def Written.IsClear (w : Written) : Prop := Clear w.done

lemma Written.IsClear.add (hw : w.IsClear) (hcs : Clear cs) : (w.add cs).IsClear :=
  (hcs.of_subset (List.reverse_subset.mpr fun _ hc => hc)).append hw

lemma Written.IsClear.breakLine (hw : w.IsClear) (count indent : Nat) :
    (w.breakLine count indent).IsClear :=
  (clear_replicate rfl indent).append ((clear_replicate rfl count).append hw)

/-! ## Texts -/

lemma subset_of_mem_runs {together : Char → Char → Bool} {run : List Char}
    (h : run ∈ runs together cs) : run ⊆ cs := by
  induction cs generalizing run with
  | nil => cases h
  | cons c rest ih =>
    rw [runs] at h
    split at h
    · rename_i d begun more hruns
      have hrest : d :: begun ⊆ rest := ih (by rw [hruns]; exact List.mem_cons_self)
      have hmore : ∀ r ∈ more, r ⊆ rest := fun r hr =>
        ih (by rw [hruns]; exact List.mem_cons_of_mem _ hr)
      split at h
      · rcases List.mem_cons.mp h with rfl | hmem
        · exact List.cons_subset_cons c hrest
        · exact List.subset_cons_of_subset c (hmore run hmem)
      · rcases List.mem_cons.mp h with rfl | hmem
        · exact List.cons_subset_cons c (List.nil_subset rest)
        · rcases List.mem_cons.mp hmem with rfl | hmem
          · exact List.subset_cons_of_subset c hrest
          · exact List.subset_cons_of_subset c (hmore run hmem)
    · rw [List.mem_singleton.mp h]
      exact List.cons_subset_cons c (List.nil_subset rest)

lemma clear_addPlain (hw : w.IsClear) (hcs : Clear cs) : (addPlain indent w cs).IsClear := by
  have hruns : ∀ run ∈ runs alike cs, Clear run := fun run hrun =>
    hcs.of_subset (subset_of_mem_runs hrun)
  unfold addPlain
  generalize runs alike cs = all at hruns
  clear hcs
  induction all generalizing w with
  | nil => exact hw
  | cons run rest ih =>
    refine ih ?_ fun r hr => hruns r (List.mem_cons_of_mem _ hr)
    dsimp only
    split
    · exact hw.breakLine _ _
    · exact hw.add (hruns run List.mem_cons_self)

lemma clear_addSingleRuns {all : List (List Char)} (hw : w.IsClear)
    (hruns : ∀ run ∈ all, Clear run) (first : Bool) :
    (addSingleRuns indent first w all).IsClear := by
  induction all generalizing w first with
  | nil => exact hw
  | cons run rest ih =>
    rw [addSingleRuns]
    refine ih ?_ (fun r hr => hruns r (List.mem_cons_of_mem _ hr)) false
    have hrun := hruns run List.mem_cons_self
    split
    · exact hw.breakLine _ _
    · split
      · exact hw.breakLine _ _
      · refine hw.add fun c hc => ?_
        obtain ⟨d, hd, hc⟩ := List.mem_flatMap.mp hc
        split at hc
        · -- a quote stands twice
          rename_i hquote
          subst hquote
          simp only [List.mem_cons, List.not_mem_nil, or_false, or_self] at hc
          rw [hc]
          rfl
        · rw [List.mem_singleton.mp hc, hrun d hd]

lemma clear_addSingle (hw : w.IsClear) (hcs : Clear cs) : (addSingle indent w cs).IsClear :=
  (clear_addSingleRuns (hw.add (by decide))
    (fun _ hrun => hcs.of_subset (subset_of_mem_runs hrun)) true).add (by decide)

/-- Whatever the character, its escape has no special ones. -/
lemma clear_escapeOf (c : Char) : Clear (escapeOf c) := by
  have hdigits (count : Nat) : Clear ((Text.hexDigits count c.toNat).toList.map Char.toUpper) := by
    unfold Text.hexDigits
    rw [String.toList_ofList, List.map_append, List.map_replicate]
    exact (clear_replicate (by decide) _).append (clear_toDigits (by omega) (by omega) _).2
  have hmark {mark : Char} (h : isSpecial mark = false) (count : Nat) :
      Clear ('\\' :: mark :: (Text.hexDigits count c.toNat).toList.map Char.toUpper) := by
    have hfront : Clear ['\\', mark] := by
      intro d hd
      rcases List.mem_cons.mp hd with rfl | hd
      · decide
      · rw [List.mem_singleton.mp hd, h]
    exact hfront.append (hdigits count)
  unfold escapeOf
  dsimp only
  split
  · rename_i letter hletter
    have hall : ∀ e ∈ letterEscapes, Clear ['\\', e.2] := by decide
    obtain ⟨before, after, hsplit, -⟩ := List.lookup_eq_some_iff.mp hletter
    exact hall (c, letter) (by rw [hsplit]; simp)
  · split
    · exact hmark rfl 2
    · split
      · exact hmark rfl 4
      · exact hmark rfl 8

lemma clear_addDoubleFrom {pending : List Char} (hw : w.IsClear) (hpending : Clear pending)
    (first : Bool) (cs : List Char) : (addDoubleFrom indent first pending w cs).IsClear := by
  induction cs generalizing w pending first with
  | nil => exact hw.add hpending
  | cons c rest ih =>
    have hback : Clear ['\\'] := by decide
    have hfold {w : Written} (hw : w.IsClear) (next : Option Char) :
        (let w := (w.add ['\\']).breakLine 1 indent
          if next == some ' ' then w.add ['\\'] else w).IsClear := by
      dsimp only
      split
      · exact ((hw.add hback).breakLine 1 indent).add hback
      · exact (hw.add hback).breakLine 1 indent
    rw [addDoubleFrom]
    dsimp only
    split
    · refine ih ?_ (by decide) false
      split
      · exact hfold ((hw.add hpending).add (clear_escapeOf c)) _
      · exact (hw.add hpending).add (clear_escapeOf c)
    · rename_i hplain
      have hc : Clear [c] := by
        intro d hd
        rw [List.mem_singleton.mp hd]
        simp at hplain
        exact hplain.1.1.1
      split
      · exact ih (hfold (hw.add hpending) _) hc false
      · exact ih hw (hpending.append hc) false

lemma clear_addDouble (hw : w.IsClear) (cs : List Char) : (addDouble indent w cs).IsClear :=
  (clear_addDoubleFrom (hw.add (by decide)) (by decide) true cs).add (by decide)

lemma clear_of_any (h : (!cs.any isSpecial) = true) : Clear cs := by
  intro c hc
  rw [Bool.not_eq_true', List.any_eq_false] at h
  exact Bool.eq_false_iff.mpr (h c hc)

/-- A text is written without special characters, in whichever style. -/
lemma clear_addText (hw : w.IsClear) (s : String) : (addText indent w s).IsClear := by
  unfold addText
  dsimp only
  split
  · rename_i hplain
    refine clear_addPlain hw ?_
    simp only [fitsPlain, Bool.and_eq_true] at hplain
    exact clear_of_any hplain.1.1.1.1.1.1
  · split
    · rename_i hsingle
      simp only [fitsSingle, Bool.and_eq_true] at hsingle
      exact clear_addSingle hw (clear_of_any hsingle.1.1)
    · exact clear_addDouble hw _

/-! ## Numbers -/

lemma clear_natText (n : Nat) : Clear (toString n).toList := by
  rw [show (toString n).toList = Nat.toDigits 10 n from Nat.toList_repr]
  exact (clear_toDigits (by omega) (by omega) n).1

lemma clear_intText (n : Int) : Clear (toString n).toList := by
  cases n with
  | ofNat n => exact clear_natText n
  | negSucc n =>
    rw [Json.toList_toString_negSucc]
    exact (by decide : Clear ['-']).append (clear_toDigits (by omega) (by omega) _).1

lemma clear_padRight {digits : String} (h : Clear digits.toList) (length : Nat) :
    Clear (Double.padRight digits length).toList := by
  rw [Double.padRight, String.toList_append, String.toList_ofList]
  exact h.append (clear_replicate (by decide) _)

lemma clear_layOut (d : DecimalDigits) : Clear (Double.layOut d).toList := by
  have hdigits : Clear (Double.padRight "" (d.count - (toString d.digits).length) ++
      toString d.digits).toList := by
    rw [String.toList_append]
    exact (clear_padRight (by decide) _).append (clear_natText _)
  unfold Double.layOut
  generalize Double.padRight "" (d.count - (toString d.digits).length) ++
    toString d.digits = digits at hdigits
  dsimp only
  split
  · split
    · rw [String.toList_append, String.toList_append]
      exact (Clear.append (by decide) (clear_padRight (by decide) _)).append hdigits
    · have hshown := clear_padRight hdigits d.point.toNat
      rw [String.toList_append, String.toList_append, String.toList_ofList]
      refine Clear.append ((hshown.of_subset (List.take_subset _ _)).append (by decide)) ?_
      split
      · decide
      · rw [String.toList_ofList]
        exact hshown.of_subset (List.drop_subset _ _)
  · rw [String.toList_append, String.toList_append]
    refine Clear.append (Clear.append ?_ ?_) ?_
    · split
      · decide
      · rename_i c hc
        rw [hc] at hdigits
        rw [String.toList_singleton]
        exact hdigits
      · rename_i c rest _ hrest
        rw [hrest] at hdigits
        rw [String.toList_ofList]
        have hfirst : Clear [c] := hdigits.of_subset (List.cons_subset_cons c (List.nil_subset _))
        exact (hfirst.append (by decide : Clear ['.'])).append
          (hdigits.of_subset (List.subset_cons_self _ _))
    · split <;> decide
    · split
      · rw [String.toList_append]
        exact Clear.append (by decide) (clear_natText _)
      · exact clear_natText _

lemma clear_floatText (x : Double) : Clear (floatText x).toList := by
  have htext : Clear (x.text floatNames).toList := by
    cases x with
    | undefined => decide
    | infinite negative => cases negative <;> decide
    | finite negative m e =>
      unfold Double.text
      have hbody : Clear
          (if m = 0 then "0.0" else Double.layOut (Double.shortestDigits m e)).toList := by
        split
        · decide
        · exact clear_layOut _
      cases negative with
      | false => exact hbody
      | true =>
        show Clear ("-" ++ _).toList
        rw [String.toList_append]
        exact Clear.append (by decide) hbody
  unfold floatText
  dsimp only
  split
  · rw [String.toList_ofList]
    exact htext
  · rw [String.toList_ofList]
    refine Clear.append (Clear.append ?_ (by decide)) ?_
    · exact htext.of_subset (List.takeWhile_subset _)
    · exact htext.of_subset (List.dropWhile_subset _)

/-! ## Values -/

lemma clear_addScalar (hw : w.IsClear) (v : Value) : (addScalar indent w v).IsClear := by
  cases v with
  | null => exact hw.add (by decide)
  | bool b => cases b <;> exact hw.add (by decide)
  | int n => exact hw.add (clear_intText n)
  | float x => exact hw.add (clear_floatText x)
  | str s => exact clear_addText hw s
  | list | object => exact hw.add (by decide)

mutual

lemma clear_addFields (indent : Nat) (w : Written) (hw : w.IsClear) :
    ∀ fields, (addFields indent w fields).IsClear
  | [] => hw
  | [(k, v)] => clear_addField indent w hw k v
  | (k, v) :: f :: rest =>
    clear_addFields indent _ ((clear_addField indent w hw k v).breakLine 1 indent) (f :: rest)

lemma clear_addField (indent : Nat) (w : Written) (hw : w.IsClear) (k : String) :
    ∀ v, (addField indent w k v).IsClear
  | .list (v :: rest) =>
    clear_addItems indent _ (((clear_addText hw k).add (by decide)).breakLine 1 indent) (v :: rest)
  | .object (f :: rest) =>
    clear_addFields (indent + step) _
      (((clear_addText hw k).add (by decide)).breakLine 1 (indent + step)) (f :: rest)
  | .null | .bool _ | .int _ | .float _ | .str _ | .list [] | .object [] =>
    clear_addScalar ((clear_addText hw k).add (by decide)) _

lemma clear_addItems (indent : Nat) (w : Written) (hw : w.IsClear) :
    ∀ items, (addItems indent w items).IsClear
  | [] => hw
  | [v] => clear_addItem indent _ (hw.add (by decide)) v
  | v :: u :: rest =>
    clear_addItems indent _ ((clear_addItem indent _ (hw.add (by decide)) v).breakLine 1 indent)
      (u :: rest)

lemma clear_addItem (indent : Nat) (w : Written) (hw : w.IsClear) :
    ∀ v, (addItem indent w v).IsClear
  | .list (v :: rest) => clear_addItems (indent + step) w hw (v :: rest)
  | .object (f :: rest) => clear_addFields (indent + step) w hw (f :: rest)
  | .null | .bool _ | .int _ | .float _ | .str _ | .list [] | .object [] =>
    clear_addScalar hw _

end

/-- A document is written without special characters, whatever stands in it. -/
theorem clear_write (v : Value) : Clear (write v).toList := by
  have hstart : Written.IsClear ⟨[], 0⟩ := by
    intro c hc
    cases hc
  have hline {w : Written} (hw : w.IsClear) : Clear ('\n' :: w.done).reverse :=
    ((by decide : Clear ['\n']).append hw).of_subset (List.reverse_subset.mpr fun _ hc => hc)
  unfold write
  rw [String.toList_ofList]
  apply hline
  split
  · exact clear_addItems 0 _ hstart _
  · exact clear_addFields 0 _ hstart _
  · exact clear_addScalar hstart _

/-- The characters of a written mapping. -/
lemma toList_write_object {v : Value} {fields : List (String × Value)}
    (h : v.sortKeys = .object fields) (hne : fields ≠ []) :
    (write v).toList = ('\n' :: (addFields 0 ⟨[], 0⟩ fields).done).reverse := by
  unfold write
  rw [h, String.toList_ofList]
  cases fields with
  | nil => contradiction
  | cons f rest => rfl

lemma unifyLines_of_clear (h : Clear cs) : Text.unifyLines cs = cs := by
  induction cs with
  | nil => rfl
  | cons c cs ih =>
    have hc : c ≠ '\r' := by
      rintro rfl
      exact absurd (h _ List.mem_cons_self) (by decide)
    have hrest : Text.unifyLines cs = cs := ih fun d hd => h d (List.mem_cons_of_mem _ hd)
    rw [Text.unifyLines, hrest]
    · exact fun _ hbreak _ => hc hbreak
    · exact hc

/-- Lines end in one way only. -/
lemma unifyLines_write (v : Value) : Text.unifyLines (write v).toList = (write v).toList :=
  unifyLines_of_clear (clear_write v)

end Yaml

end SolidityAudit
