import Mathlib.Data.List.Basic
import SolidityAudit.Solidity.Chart

/-!
# Derivations

What the grammar says about a list of tokens, apart from how the chart finds it: `Derives` has one
case for each kind of form and two for a repetition. Every reading in the chart is a derivation of
the tokens that it takes (`derives_of_phrase`).
-/

namespace SolidityAudit.Solidity

/-- The tokens that a form stands for. -/
inductive Derives : Form → List Token → Prop
  | nothing : Derives .nothing []
  | token {t : Terminal} {found : Token} (h : t.accepts found = true) : Derives (.token t) [found]
  | part {c : Category} {f : Form} {ts : List Token} (hrule : c.rule = .form f)
    (h : Derives f ts) : Derives (.part c) ts
  | none {c d : Category} (hrule : c.rule = .repeated d) : Derives (.part c) []
  | more {c d : Category} {ts us : List Token} (hrule : c.rule = .repeated d)
    (hfirst : Derives (.part d) ts) (hrest : Derives (.part c) us) : Derives (.part c) (ts ++ us)
  | both {f g : Form} {ts us : List Token} (hf : Derives f ts) (hg : Derives g us) :
    Derives (.both f g) (ts ++ us)
  | first {f g : Form} {ts : List Token} (h : Derives f ts) : Derives (.either f g) ts
  | second {f g : Form} {ts : List Token} (h : Derives g ts) : Derives (.either f g) ts

/-! ## Readings of an outcome -/

namespace Outcome

lemma mem_or {a b : Outcome} {r : Reading} (h : r ∈ (a.or b).readings) :
    r ∈ a.readings ∨ r ∈ b.readings := by
  rw [Outcome.or, List.mem_append, List.mem_filter] at h
  exact h.imp_right And.left

/-- The readings of a sequence of alternatives are those of its members. -/
lemma mem_foldl_or {next : Reading → Outcome} {qs : List Reading} {done : Outcome} {r : Reading}
    (h : r ∈ (qs.foldl (fun done q => done.or (next q)) done).readings) :
    r ∈ done.readings ∨ ∃ q ∈ qs, r ∈ (next q).readings := by
  induction qs generalizing done with
  | nil => exact .inl h
  | cons q qs ih =>
    rcases ih h with hdone | ⟨q', hq', hr⟩
    · rcases mem_or hdone with hdone | hr
      · exact .inl hdone
      · exact .inr ⟨q, List.mem_cons_self, hr⟩
    · exact .inr ⟨q', List.mem_cons_of_mem _ hq', hr⟩

lemma mem_bind {a : Outcome} {next : Reading → Outcome} {r : Reading}
    (h : r ∈ (a.bind next).readings) : ∃ q ∈ a.readings, r ∈ (next q).readings := by
  rcases mem_foldl_or h with hnone | hsome
  · simp at hnone
  · exact hsome

end Outcome

/-! ## The chart holds derivations -/

/-- Every phrase in the rows is a derivation of its tokens. -/
def SoundRows (tokens : List Token) (rows : List Row) : Prop :=
  ∀ k c, ∀ r ∈ (phrases rows k c).readings,
    k + r.taken ≤ tokens.length ∧ Derives (.part c) ((tokens.drop k).take r.taken)

/-- The tokens up to one place and those up to a later place. -/
lemma take_drop_split {α : Type} {k m n : Nat} (hkm : k ≤ m) (hmn : m ≤ n) (l : List α) :
    (l.drop k).take (n - k) = (l.drop k).take (m - k) ++ (l.drop m).take (n - m) := by
  obtain ⟨i, rfl⟩ := Nat.exists_eq_add_of_le hkm
  obtain ⟨j, rfl⟩ := Nat.exists_eq_add_of_le hmn
  have hi : k + i - k = i := by omega
  have hj : k + i + j - (k + i) = j := by omega
  have hij : k + i + j - k = i + j := by omega
  rw [hi, hj, hij, List.take_add, List.drop_drop]

section Rows

variable {tokens : List Token} {rows : List Row}

lemma derives_of_reading (hrows : SoundRows tokens rows) (f : Form) {k : Nat}
    (hk : k ≤ tokens.length) {r : Reading} (h : r ∈ (f.readings tokens rows k).readings) :
    k ≤ r.taken ∧ r.taken ≤ tokens.length ∧
      Derives f ((tokens.drop k).take (r.taken - k)) := by
  induction f generalizing k r with
  | nothing =>
    obtain rfl : r = ⟨k, []⟩ := by simpa [Form.readings] using h
    refine ⟨Nat.le_refl k, hk, ?_⟩
    rw [Nat.sub_self, List.take_zero]
    exact .nothing
  | token t =>
    rw [Form.readings] at h
    split at h
    · next found hfound =>
      split_ifs at h with haccepts
      · obtain rfl : r = ⟨k + 1, [.leaf found]⟩ := by simpa using h
        obtain ⟨hlt, rfl⟩ := List.getElem?_eq_some_iff.mp hfound
        refine ⟨Nat.le_succ k, hlt, ?_⟩
        have hone : k + 1 - k = 1 := by omega
        rw [hone, List.drop_eq_getElem_cons hlt, List.take_succ_cons, List.take_zero]
        exact .token haccepts
      · simp [Outcome.failed] at h
    · simp [Outcome.failed] at h
  | part c =>
    rw [Form.readings, Outcome.wrap, List.mem_map] at h
    obtain ⟨q, hq, rfl⟩ := h
    obtain ⟨hle, hderives⟩ := hrows k c q hq
    refine ⟨Nat.le_add_right .., hle, ?_⟩
    rwa [Nat.add_sub_cancel_left]
  | both f g ihf ihg =>
    obtain ⟨q, hq, hr⟩ := Outcome.mem_bind h
    obtain ⟨s, hs, rfl⟩ := List.mem_map.mp hr
    obtain ⟨hkq, hq, hf⟩ := ihf hk hq
    obtain ⟨hqs, hs, hg⟩ := ihg hq hs
    refine ⟨Nat.le_trans hkq hqs, hs, ?_⟩
    -- the second form begins where the first one has ended
    rw [take_drop_split hkq hqs]
    exact .both hf hg
  | either f g ihf ihg =>
    rcases Outcome.mem_or h with h | h
    · obtain ⟨hkr, hr, hf⟩ := ihf hk h
      exact ⟨hkr, hr, .first hf⟩
    · obtain ⟨hkr, hr, hg⟩ := ihg hk h
      exact ⟨hkr, hr, .second hg⟩

lemma derives_of_repetition (hrows : SoundRows tokens rows) {c d : Category}
    (hrule : c.rule = .repeated d) {r : Reading} (h : r ∈ (repetitions rows c d).readings) :
    r.taken ≤ tokens.length ∧ Derives (.part c) (tokens.take r.taken) := by
  rcases Outcome.mem_or h with hmore | hnone
  · obtain ⟨q, hq, hr⟩ := Outcome.mem_bind hmore
    obtain ⟨s, hs, rfl⟩ := List.mem_map.mp hr
    obtain ⟨hqle, hfirst⟩ := hrows 0 d q hq
    obtain ⟨hsle, hrest⟩ := hrows q.taken c s hs
    refine ⟨hsle, ?_⟩
    rw [List.take_add]
    exact .more hrule hfirst hrest
  · obtain rfl : r = ⟨0, []⟩ := by simpa using hnone
    exact ⟨Nat.zero_le _, .none hrule⟩

lemma derives_of_outcome (hrows : SoundRows tokens rows) {c : Category} {r : Reading}
    (h : r ∈ (c.outcome tokens rows).readings) :
    r.taken ≤ tokens.length ∧ Derives (.part c) (tokens.take r.taken) := by
  rw [Category.outcome] at h
  split at h
  · next f hrule =>
    obtain ⟨-, hle, hderives⟩ := derives_of_reading hrows f (Nat.zero_le _) h
    exact ⟨hle, .part hrule hderives⟩
  · next d hrule => exact derives_of_repetition hrows hrule h

end Rows

/-- The phrases of a category in a row are those of the row, or of the category at its front. -/
lemma find_cons (c d : Category) (t : Thunk Outcome) (row : Row) :
    Row.find ((c, t) :: row) d = if d = c then t.get else row.find d := by
  rw [Row.find, List.lookup_cons]
  by_cases h : d = c
  · simp [h]
  · rw [beq_false_of_ne h, if_neg h]
    rfl

lemma soundRows_fillRow {tokens : List Token} {later : List Row}
    (hlater : ∀ k c, ∀ r ∈ (phrases later k c).readings, k + 1 + r.taken ≤ tokens.length ∧
      Derives (.part c) ((tokens.drop (k + 1)).take r.taken)) (cs : List Category) :
    SoundRows tokens (fillRow tokens later cs :: later) := by
  induction cs with
  | nil =>
    intro k c r hr
    cases k with
    | zero => simp [phrases, fillRow, Row.find, Outcome.failed] at hr
    | succ k => exact hlater k c r hr
  | cons d cs ih =>
    intro k c r hr
    cases k with
    | zero =>
      have hfind : r ∈ (Row.find (fillRow tokens later (d :: cs)) c).readings := hr
      rw [fillRow, find_cons] at hfind
      rw [Nat.zero_add, List.drop_zero]
      split_ifs at hfind with hc
      · -- its rule asks only for what the row already holds
        subst hc
        exact derives_of_outcome ih hfind
      · have hrow := ih 0 c r hfind
        rwa [Nat.zero_add, List.drop_zero] at hrow
    | succ k => exact hlater k c r hr

/-- Every phrase in a chart is a derivation of its tokens. -/
theorem derives_of_phrase (tokens : List Token) : SoundRows tokens (chart tokens) := by
  induction tokens with
  | nil =>
    refine soundRows_fillRow (fun k c r hr => ?_) _
    simp [phrases, Outcome.failed] at hr
  | cons t ts ih =>
    refine soundRows_fillRow (fun k c r hr => ?_) _
    obtain ⟨hle, hderives⟩ := ih k c r hr
    refine ⟨?_, hderives⟩
    rw [List.length_cons]
    omega

end SolidityAudit.Solidity
