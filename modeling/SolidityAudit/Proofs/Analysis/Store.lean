import Mathlib.Data.List.Nodup
import Mathlib.Data.List.Perm.Subperm
import Std.Data.String.ToInt
import SolidityAudit.Analysis.Service
import SolidityAudit.Proofs.Places

/-!
# What is in a store

A store is looked at through its ids in the order in which they came (`ids`) and through the record
under each id (`find?`). Putting a record under an id changes the record of this id alone, and adds
the id at the end if it is new. The second part is about the ids of new analyses: the number of a
new id is the first free one from the clock reading on.
-/

namespace SolidityAudit

namespace Value

/-- Only null is the same as null. -/
lemma eq_null_of_same {v : Value} (h : Value.null.same v = true) : v = .null := by
  cases v <;> simp_all [same, sameNumber, integer?]

/-- Only the text itself is the same as a text. -/
lemma eq_of_str_same {v : Value} {s : String} (h : (Value.str s).same v = true) : v = .str s := by
  cases v <;> simp_all [same, sameNumber, integer?]

end Value

namespace Store

/-! ## Ids and records -/

/-- The ids of the analyses in the order in which they came. -/
def ids (s : Store) : List String := s.entries.map Prod.fst

lemma count_eq_length_ids (s : Store) : s.count = s.ids.length := by
  rw [count, ids, List.length_map]

lemma count_eq_length_all (s : Store) : s.count = s.all.length := by
  rw [count, all, List.length_map]

@[simp] lemma find?_empty (id : String) : empty.find? id = none := rfl

/-- A record takes the place of the one under its id, or comes at the end. -/
lemma put_cases (s : Store) (id : String) (b : StoredAnalysis) :
    (∃ before a after, s.entries = before ++ (id, a) :: after ∧ id ∉ before.map Prod.fst ∧
      (s.put id b).entries = before ++ (id, b) :: after) ∨
    id ∉ s.ids ∧ (s.put id b).entries = s.entries ++ [(id, b)] := by
  obtain ⟨entries⟩ := s
  simp only [put, ids]
  induction entries with
  | nil => exact .inr ⟨List.not_mem_nil, rfl⟩
  | cons e rest ih =>
    obtain ⟨k, a⟩ := e
    rw [putIn]
    by_cases hk : k = id
    · subst hk
      rw [if_pos rfl]
      exact .inl ⟨[], a, rest, rfl, List.not_mem_nil, rfl⟩
    · rw [if_neg hk]
      rcases ih with ⟨before, c, after, rfl, hbefore, hput⟩ | ⟨hnew, hput⟩
      · rw [hput]
        exact .inl ⟨(k, a) :: before, c, after, rfl, by simp [Ne.symm hk, hbefore], rfl⟩
      · rw [hput]
        exact .inr ⟨by simp [Ne.symm hk, hnew], rfl⟩

/-- The record under an id after another record has been put somewhere. -/
lemma find?_put (s : Store) (id k : String) (a : StoredAnalysis) :
    (s.put id a).find? k = if k = id then some a else s.find? k := by
  unfold find?
  rcases s.put_cases id a with ⟨before, b, after, hentries, hbefore, hput⟩ | ⟨hnew, hput⟩
  · rw [hput, hentries, List.lookup_append, List.lookup_append, lookup_cons_eq_ite,
      lookup_cons_eq_ite]
    by_cases hk : k = id
    · rw [if_pos hk, if_pos hk, hk, lookup_eq_none_iff_not_mem.mpr hbefore, Option.none_or]
    · rw [if_neg hk, if_neg hk, if_neg hk]
  · rw [hput, List.lookup_append, lookup_cons_eq_ite]
    by_cases hk : k = id
    · rw [if_pos hk, if_pos hk, hk, lookup_eq_none_iff_not_mem.mpr hnew, Option.none_or]
    · rw [if_neg hk, if_neg hk, List.lookup_nil, Option.or_none]

@[simp] lemma find?_put_self (s : Store) (id : String) (a : StoredAnalysis) :
    (s.put id a).find? id = some a := by
  rw [find?_put, if_pos rfl]

/-- An id is in a store if it is one of its ids. -/
lemma contains_iff {s : Store} {id : String} : s.contains id = true ↔ id ∈ s.ids :=
  isSome_lookup_iff

/-- What is in the store stays there, and the id of the new record comes in. -/
lemma contains_put (s : Store) (id k : String) (a : StoredAnalysis) :
    (s.put id a).contains k = (decide (k = id) || s.contains k) := by
  rw [contains, contains, find?_put]
  by_cases hk : k = id <;> simp [hk]

/-- The ids after a record has been put under an id. -/
lemma ids_put (s : Store) (id : String) (a : StoredAnalysis) :
    (s.put id a).ids = if id ∈ s.ids then s.ids else s.ids ++ [id] := by
  rcases s.put_cases id a with ⟨before, b, after, hentries, -, hput⟩ | ⟨hnew, hput⟩
  · simp [ids, hput, hentries]
  · rw [if_neg hnew, ids, hput, List.map_append]
    rfl

/-- Ids that stand once each stay so. -/
lemma nodup_ids_put {s : Store} (h : s.ids.Nodup) (id : String) (a : StoredAnalysis) :
    (s.put id a).ids.Nodup := by
  rw [ids_put]
  by_cases hmem : id ∈ s.ids
  · rwa [if_pos hmem]
  · rw [if_neg hmem]
    exact List.Nodup.append h (List.nodup_singleton id) (by simpa using hmem)

/-- What is in a store after a record has been put there is the record, or has been there before. -/
lemma mem_entries_put {s : Store} {id : String} {a : StoredAnalysis} {e : String × StoredAnalysis}
    (h : e ∈ (s.put id a).entries) : e = (id, a) ∨ e ∈ s.entries := by
  rcases s.put_cases id a with ⟨before, b, after, hentries, -, hput⟩ | ⟨-, hput⟩
  · rw [hput, List.mem_append, List.mem_cons] at h
    rw [hentries, List.mem_append, List.mem_cons]
    tauto
  · rw [hput, List.mem_append, List.mem_singleton] at h
    exact h.symm

/-- A record with a new id comes at the end. -/
lemma entries_insert {s : Store} {a : StoredAnalysis} (h : s.contains a.id = false) :
    (s.insert a).entries = s.entries ++ [(a.id, a)] := by
  rcases s.put_cases a.id a with ⟨before, b, after, hentries, -, -⟩ | ⟨-, hput⟩
  · have hmem : a.id ∈ s.ids := by simp [ids, hentries]
    rw [contains_iff.mpr hmem] at h
    cases h
  · exact hput

/-- A record takes the place of the one that is found under its id. -/
lemma put_of_find? {s : Store} {id : String} {a : StoredAnalysis} (h : s.find? id = some a)
    (b : StoredAnalysis) :
    ∃ before after, s.entries = before ++ (id, a) :: after ∧
      (s.put id b).entries = before ++ (id, b) :: after := by
  rcases s.put_cases id b with ⟨before, c, after, hentries, hbefore, hput⟩ | ⟨hnew, -⟩
  · rw [find?, hentries, List.lookup_append, lookup_eq_none_iff_not_mem.mpr hbefore,
      Option.none_or, List.lookup_cons_self, Option.some_inj] at h
    rw [h] at hentries
    exact ⟨before, after, hentries, hput⟩
  · rw [find?, lookup_eq_none_iff_not_mem.mpr hnew] at h
    cases h

lemma mem_entries_of_find? {s : Store} {id : String} {a : StoredAnalysis}
    (h : s.find? id = some a) : (id, a) ∈ s.entries := by
  obtain ⟨before, after, hentries, -⟩ := List.lookup_eq_some_iff.mp h
  rw [hentries]
  exact List.mem_append_right _ List.mem_cons_self

/-- When every id stands once, a record is found under the id with which it stands. -/
lemma find?_of_mem_entries {s : Store} (hs : s.ids.Nodup) {id : String} {a : StoredAnalysis}
    (h : (id, a) ∈ s.entries) : s.find? id = some a := by
  obtain ⟨before, after, hentries⟩ := List.append_of_mem h
  refine List.lookup_eq_some_iff.mpr ⟨before, after, hentries, ?_⟩
  intro f hf
  rw [ids, hentries, List.map_append, List.map_cons] at hs
  rw [bne_iff_ne]
  rintro rfl
  exact (List.disjoint_of_nodup_append hs) (List.mem_map.mpr ⟨f, hf, rfl⟩) List.mem_cons_self

end Store

/-! ## New ids -/

namespace Service

/-- Different numbers make different ids. -/
lemma idOf_injective {m n : Int} (h : idOf m = idOf n) : m = n :=
  Int.repr_injective ((String.append_right_inj _).mp h)

/-- The search passes taken numbers only, and ends at a free one or when its steps are used up. -/
lemma freeFrom_spec (s : Store) (steps : Nat) (n : Int) :
    ∃ k ≤ steps, freeFrom s steps n = n + k ∧ (∀ j < k, s.contains (idOf (n + j)) = true) ∧
      (s.contains (idOf (n + k)) = false ∨ k = steps) := by
  induction steps generalizing n with
  | zero => exact ⟨0, Nat.le_refl 0, by simp [freeFrom], by simp, .inr rfl⟩
  | succ steps ih =>
    cases hn : s.contains (idOf n) with
    | false => exact ⟨0, Nat.zero_le _, by simp [freeFrom, hn], by simp, .inl (by simpa using hn)⟩
    | true =>
      obtain ⟨k, hk, hfree, htaken, hend⟩ := ih (n + 1)
      have hshift (j : Nat) : n + 1 + (j : Int) = n + ((j + 1 : Nat) : Int) := by omega
      simp only [hshift] at hfree htaken hend
      have hstep : freeFrom s (steps + 1) n = freeFrom s steps (n + 1) := by simp [freeFrom, hn]
      refine ⟨k + 1, by omega, hstep.trans hfree, ?_, hend.imp_right (by omega)⟩
      intro j hj
      cases j with
      | zero => simpa using hn
      | succ j => exact htaken j (by omega)

/-- The number of a new id is the first free one from the given number on. -/
lemma newId_spec (s : Store) (n : Int) :
    ∃ k ≤ s.count, newId s n = idOf (n + k) ∧ s.contains (idOf (n + k)) = false ∧
      ∀ j < k, s.contains (idOf (n + j)) = true := by
  obtain ⟨k, hk, hfree, htaken, hend⟩ := freeFrom_spec s s.count n
  refine ⟨k, hk, by rw [newId, hfree], ?_, htaken⟩
  rcases hend with hfree | rfl
  · exact hfree
  · -- one more taken number than there are analyses
    by_contra hlast
    have htaken' : ∀ j ∈ List.range (s.count + 1), s.contains (idOf (n + (j : Nat))) = true := by
      intro j hj
      rcases Nat.lt_succ_iff_lt_or_eq.mp (List.mem_range.mp hj) with hlt | rfl
      · exact htaken j hlt
      · simpa using hlast
    have hnodup : ((List.range (s.count + 1)).map fun j : Nat => idOf (n + j)).Nodup := by
      refine List.Nodup.map ?_ List.nodup_range
      intro i j hij
      have := idOf_injective hij
      omega
    have hsubset : (List.range (s.count + 1)).map (fun j : Nat => idOf (n + j)) ⊆ s.ids := by
      intro id hid
      obtain ⟨j, hj, rfl⟩ := List.mem_map.mp hid
      exact Store.contains_iff.mp (htaken' j hj)
    have hlength := (List.subperm_of_subset hnodup hsubset).length_le
    rw [List.length_map, List.length_range, ← Store.count_eq_length_ids] at hlength
    omega

/-- A new id is free. -/
lemma contains_newId (s : Store) (n : Int) : s.contains (newId s n) = false := by
  obtain ⟨k, -, hid, hfree, -⟩ := newId_spec s n
  rw [hid, hfree]

/-- The first id of a session that starts at an instant of 2023. -/
lemma newId_empty : newId .empty (numberOf 1700000000000) = "analysis-1700000000000" := by
  decide +kernel

end Service

end SolidityAudit
