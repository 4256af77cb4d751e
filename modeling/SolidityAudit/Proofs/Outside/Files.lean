import Mathlib.Tactic.Lemma
import SolidityAudit.Outside.Files
import SolidityAudit.Proofs.Places

/-!
# Files that are written and read

A file that is written into a folder leaves what stands at other places (`kindAt_put_of_ne`), so the
path to it leads to what was written (`read_of_write?`). A path that leads to a file leads through
folders only (`opens_of_resolve`), so the folders on the way are there already and the file can be
written again (`overwrite`).
-/

namespace SolidityAudit.Outside.Files

variable {f f' : Files} {p : Path} {place here q : List String} {parts : List String}
  {octets : List UInt8} {content : String}

/-! ## Places -/

/-- Everything above a place is a folder. -/
def Opens (f : Files) (place : List String) : Prop :=
  ∀ q, q <+: place → q ≠ place → f.kindAt q = some .folder

lemma kindAt_of_prefix_working (h : place <+: f.working) : f.kindAt place = some .folder := by
  rw [kindAt, entryAt, if_pos (List.isPrefixOf_iff_prefix.mpr h)]

/-- A path begins in a folder that is there, the root or the working directory. -/
lemma startOf_prefix (f : Files) (p : Path) : f.startOf p <+: f.working := by
  unfold startOf
  split
  · exact List.prefix_rfl
  · exact List.nil_prefix

lemma opens_startOf (f : Files) (p : Path) : f.Opens (f.startOf p) :=
  fun _ hq _ => kindAt_of_prefix_working (hq.trans (f.startOf_prefix p))

lemma Opens.concat (h : f.Opens here) (hhere : f.kindAt here = some .folder) (part : String) :
    f.Opens (here ++ [part]) := by
  intro q hq hne
  have habove : q <+: here := (List.prefix_concat_iff.mp hq).resolve_left hne
  by_cases heq : q = here
  · rw [heq, hhere]
  · exact h q habove heq

lemma Opens.dropLast (h : f.Opens here) : f.Opens here.dropLast := by
  intro q hq hne
  refine h q (hq.trans (List.dropLast_prefix here)) fun heq => hne ?_
  subst heq
  exact (hq.eq_of_length_le (List.dropLast_prefix q).length_le)

/-- A path leads through folders only. -/
lemma opens_of_resolve (h : f.resolve here parts = some place) (hhere : f.Opens here) :
    f.Opens place := by
  induction parts generalizing here with
  | nil =>
    cases h
    exact hhere
  | cons part parts ih =>
    rw [resolve] at h
    split at h
    · cases h
    rename_i hfolder
    have hfolder : f.kindAt here = some .folder := of_not_not hfolder
    split at h
    · exact ih h hhere.dropLast
    · exact ih h (hhere.concat hfolder part)

/-- The folders on the way to a place need not be made. -/
lemma makeAlong_of_resolve (h : f.resolve here parts = some place) (hparts : parts ≠ []) :
    f.makeAlong here parts.dropLast = (f, true) := by
  induction parts generalizing here with
  | nil => contradiction
  | cons part parts ih =>
    rw [resolve] at h
    split at h
    · cases h
    rename_i hfolder
    have hfolder : f.kindAt here = some .folder := of_not_not hfolder
    cases parts with
    | nil => simp [makeAlong, hfolder]
    | cons next rest =>
      rw [List.dropLast_cons_cons, makeAlong]
      split at h
      · rename_i hup
        rw [if_pos hup]
        exact ih h (List.cons_ne_nil _ _)
      · rename_i hup
        have hnext : f.kindAt (here ++ [part]) = some .folder := by
          rw [resolve] at h
          split at h
          · cases h
          · rename_i hnext
            exact of_not_not hnext
        rw [if_neg hup]
        dsimp only
        rw [hnext]
        exact ih h (List.cons_ne_nil _ _)

/-! ## Files in their places -/

lemma lookup_put (f : Files) (place q : List String) (content : Option (List UInt8)) :
    (f.put place content).entries.lookup q =
      if q = place then some content else f.entries.lookup q := by
  rw [put, List.lookup_append]
  by_cases hq : q = place
  · have hnone : (f.entries.filter (·.1 ≠ place)).lookup q = none := by
      rw [lookup_eq_none_iff_not_mem]
      simp [hq]
    rw [hnone, if_pos hq, hq, Option.none_or, List.lookup_cons_self]
  · have hkept : (f.entries.filter (·.1 ≠ place)).lookup q = f.entries.lookup q := by
      induction f.entries with
      | nil => rfl
      | cons e entries ih =>
        rw [List.filter_cons]
        split
        · rw [lookup_cons_eq_ite, lookup_cons_eq_ite, ih]
        · rename_i hgone
          have hkey : e.1 = place := by simpa using hgone
          rw [ih, lookup_cons_eq_ite, if_neg (hkey ▸ hq)]
    rw [hkept, if_neg hq, lookup_cons_eq_ite, if_neg hq, List.lookup_nil, Option.or_none]

/-- Something stands at the same places, and at the one that was written. -/
lemma mem_put_iff (f : Files) (place q : List String) (content : Option (List UInt8)) :
    q ∈ (f.put place content).entries.map Prod.fst ↔ q = place ∨ q ∈ f.entries.map Prod.fst := by
  rw [← isSome_lookup_iff, ← isSome_lookup_iff, lookup_put]
  by_cases hq : q = place <;> simp [hq]

/-- Whether something stands at a place below another one. -/
lemma any_isPrefixOf_iff (f : Files) (q : List String) :
    f.entries.any (q.isPrefixOf ·.1) = true ↔ ∃ place ∈ f.entries.map Prod.fst, q <+: place := by
  have hmap : f.entries.any (q.isPrefixOf ·.1) = (f.entries.map Prod.fst).any q.isPrefixOf :=
    List.any_map.symm
  rw [hmap, List.any_eq_true]
  simp only [List.isPrefixOf_iff_prefix]

/-- Another place keeps its entry. -/
lemma entryAt_put_of_ne (hq : q ≠ place) (content : Option (List UInt8)) :
    (f.put place content).entryAt q = f.entryAt q := by
  show (if q.isPrefixOf f.working then _ else (f.put place content).entries.lookup q) = _
  rw [lookup_put, if_neg hq, entryAt]

/-- An entry goes to a place that is no folder. -/
lemma entryAt_put (hplace : f.kindAt place ≠ some .folder) (content : Option (List UInt8)) :
    (f.put place content).entryAt place = some content := by
  have hoff : ¬ place.isPrefixOf f.working := fun habove =>
    hplace (kindAt_of_prefix_working (List.isPrefixOf_iff_prefix.mp habove))
  show (if place.isPrefixOf f.working then _ else (f.put place content).entries.lookup place) = _
  rw [if_neg hoff, lookup_put, if_pos rfl]

/-- Above a folder stands what is above the working directory or above an entry. -/
lemma mem_above_of_folder (h : f.kindAt here = some .folder) (hq : q <+: here) :
    q <+: f.working ∨ ∃ place ∈ f.entries.map Prod.fst, q <+: place := by
  rw [kindAt, entryAt] at h
  by_cases habove : here.isPrefixOf f.working
  · exact .inl (hq.trans (List.isPrefixOf_iff_prefix.mp habove))
  right
  rw [if_neg habove] at h
  cases hlookup : f.entries.lookup here with
  | some content =>
    have hmem : here ∈ f.entries.map Prod.fst := isSome_lookup_iff.mp (by rw [hlookup]; rfl)
    exact ⟨here, hmem, hq⟩
  | none =>
    rw [hlookup] at h
    dsimp only at h
    split at h
    · rename_i hany
      obtain ⟨place, hmem, hbelow⟩ := (any_isPrefixOf_iff f here).mp hany
      exact ⟨place, hmem, hq.trans hbelow⟩
    · cases h

/-- A file that is written into a folder leaves what stands at other places. -/
lemma kindAt_put_of_ne (hfolder : f.kindAt place.dropLast = some .folder) (hq : q ≠ place)
    (content : Option (List UInt8)) : (f.put place content).kindAt q = f.kindAt q := by
  unfold kindAt
  rw [entryAt_put_of_ne hq]
  cases hentry : f.entryAt q with
  | some found => cases found <;> rfl
  | none =>
    have hoff : ¬ q <+: f.working := by
      intro habove
      rw [entryAt, if_pos (List.isPrefixOf_iff_prefix.mpr habove)] at hentry
      cases hentry
    have hbelow : (f.put place content).entries.any (q.isPrefixOf ·.1) =
        f.entries.any (q.isPrefixOf ·.1) := by
      rw [Bool.eq_iff_iff, any_isPrefixOf_iff, any_isPrefixOf_iff]
      constructor
      · rintro ⟨place', hmem, hprefix⟩
        rcases (mem_put_iff f place place' content).mp hmem with rfl | hmem
        · -- what stands above the place stands above its folder as well
          rcases List.eq_nil_or_concat place' with rfl | ⟨front, last, rfl⟩
          · exact absurd (List.prefix_nil.mp hprefix) hq
          · rw [List.concat_eq_append, List.dropLast_concat] at hfolder
            rw [List.concat_eq_append] at hprefix hq
            have habove := (List.prefix_concat_iff.mp hprefix).resolve_left hq
            exact (mem_above_of_folder hfolder habove).resolve_left hoff
        · exact ⟨place', hmem, hprefix⟩
      · rintro ⟨place', hmem, hprefix⟩
        exact ⟨place', (mem_put_iff f place place' content).mpr (.inr hmem), hprefix⟩
    dsimp only
    rw [hbelow]

/-- A path leads to the same place after a file has been written there. -/
lemma resolve_put (hfolder : f.kindAt place.dropLast = some .folder)
    (hplace : f.kindAt place ≠ some .folder) (content : Option (List UInt8))
    (h : f.resolve here parts = some place) :
    (f.put place content).resolve here parts = some place := by
  induction parts generalizing here with
  | nil => exact h
  | cons part parts ih =>
    rw [resolve] at h ⊢
    split at h
    · cases h
    · rename_i hhere
      have hne : here ≠ place := by
        rintro rfl
        exact hhere hplace
      rw [kindAt_put_of_ne hfolder hne, if_neg hhere]
      split at h
      · rename_i hup
        rw [if_pos hup]
        exact ih h
      · rename_i hup
        rw [if_neg hup]
        exact ih h

/-! ## Writing a file and reading it -/

/-- What can be read is a file at the place of its path. -/
lemma read_eq_some :
    f.read p = some octets ↔
      ∃ place, f.place? p = some place ∧ f.entryAt place = some (some octets) := by
  unfold read
  constructor
  · intro h
    obtain ⟨place, hplace, hrest⟩ := Option.bind_eq_some_iff.mp h
    obtain ⟨content, hentry, rfl⟩ := Option.bind_eq_some_iff.mp hrest
    exact ⟨place, hplace, hentry⟩
  · rintro ⟨place, hplace, hentry⟩
    rw [hplace]
    show (f.entryAt place).bind id = some octets
    rw [hentry]
    rfl

lemma kindAt_of_entry (h : f.entryAt place = some (some octets)) : f.kindAt place = some .file := by
  rw [kindAt, h]

lemma kindOf_of_read (h : f.read p = some octets) : f.kindOf p = some .file := by
  obtain ⟨place, hplace, hentry⟩ := read_eq_some.mp h
  rw [kindOf, hplace]
  exact kindAt_of_entry hentry

/-- What can be written goes into a folder, to a place that is none itself. -/
lemma write?_eq_some :
    f.write? p content = some f' ↔
      ∃ place, f.place? p = some place ∧ f.kindAt place ≠ some .folder ∧
        f.kindAt place.dropLast = some .folder ∧
        f.put place (some (Text.Utf8.encode content)) = f' := by
  unfold write?
  constructor
  · intro h
    obtain ⟨place, hplace, hrest⟩ := Option.bind_eq_some_iff.mp h
    split at hrest
    · cases hrest
    · rename_i hnot
      split at hrest
      · rename_i hfolder
        exact ⟨place, hplace, hnot, hfolder, Option.some.inj hrest⟩
      · cases hrest
  · rintro ⟨place, hplace, hnot, hfolder, rfl⟩
    rw [hplace]
    show (if _ then _ else if _ then _ else _) = _
    rw [if_neg hnot, if_pos hfolder]

/-- A text that has been written is read back. -/
theorem read_of_write? (h : f.write? p content = some f') :
    f'.read p = some (Text.Utf8.encode content) := by
  obtain ⟨place, hplace, hnot, hfolder, rfl⟩ := write?_eq_some.mp h
  exact read_eq_some.mpr ⟨place, resolve_put hfolder hnot _ hplace, entryAt_put hnot _⟩

lemma put_put (f : Files) (place : List String) (content : Option (List UInt8)) :
    (f.put place content).put place content = f.put place content := by
  simp [put, List.filter_append]

/-- A text that is written once more leaves the files as they are. -/
lemma write?_write? (h : f.write? p content = some f') : f'.write? p content = some f' := by
  obtain ⟨place, hplace, hnot, hfolder, rfl⟩ := write?_eq_some.mp h
  have hfile : (f.put place (some (Text.Utf8.encode content))).kindAt place = some .file :=
    kindAt_of_entry (entryAt_put hnot _)
  have hne : place.dropLast ≠ place := by
    intro heq
    rw [heq] at hfolder
    exact hnot hfolder
  refine write?_eq_some.mpr ⟨place, resolve_put hfolder hnot _ hplace, ?_, ?_, put_put ..⟩
  · rw [hfile]
    decide
  · rw [kindAt_put_of_ne hfolder hne, hfolder]

/-- A file can be written at a path once the folders on the way have been made. -/
def Writable (f : Files) (p : Path) : Prop :=
  ∃ made, f.makeFolder p.parent = (made, true) ∧ ∀ content, ∃ f', made.write? p content = some f'

/-- A file that can be read can be written again, in folders that are there already. -/
theorem overwrite (hread : f.read p = some octets) (content : String) :
    f.makeFolder p.parent = (f, true) ∧ ∃ f', f.write? p content = some f' := by
  obtain ⟨place, hplace, hentry⟩ := read_eq_some.mp hread
  have hnot : f.kindAt place ≠ some .folder := by
    rw [kindAt_of_entry hentry]
    decide
  have hne : place ≠ [] := by
    rintro rfl
    exact hnot (kindAt_of_prefix_working List.nil_prefix)
  have hparts : p.parts ≠ [] := by
    intro hnil
    rw [place?, hnil] at hplace
    obtain rfl := Option.some.inj hplace
    exact hnot (kindAt_of_prefix_working (f.startOf_prefix p))
  have habove : f.kindAt place.dropLast = some .folder := by
    refine opens_of_resolve hplace (f.opens_startOf p) _ (List.dropLast_prefix place) fun heq => ?_
    have hlength := congrArg List.length heq
    rw [List.length_dropLast] at hlength
    have := List.length_pos_of_ne_nil hne
    omega
  constructor
  · exact makeAlong_of_resolve hplace hparts
  · exact ⟨_, write?_eq_some.mpr ⟨place, hplace, hnot, habove, rfl⟩⟩

/-- So the folders on the way to a file that can be read need not be made to write it. -/
lemma writable_of_read (hread : f.read p = some octets) : f.Writable p :=
  ⟨f, (overwrite hread "").1, fun content => (overwrite hread content).2⟩

end SolidityAudit.Outside.Files
