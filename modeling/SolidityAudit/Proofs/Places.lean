import Mathlib.Data.List.Perm.Basic

/-!
# Lists by their places and by keys

What becomes of a list when the item at one place is replaced, and of what a function finds in it.
In a list of pairs the first parts are keys, and the first pair with a key is the one that is found.
-/

namespace SolidityAudit

section Places

variable {α β : Type} {f : α → Option β} {l : List α} {k : Nat} {a a' : α}

/-- A list after what stands at a place has been replaced. -/
lemma getElem?_set_of_getElem? (ha : l[k]? = some a) (a' : α) (i : Nat) :
    (l.set k a')[i]? = if i = k then some a' else l[i]? := by
  obtain ⟨hk, -⟩ := List.getElem?_eq_some_iff.mp ha
  by_cases hik : i = k
  · subst hik
    rw [if_pos rfl, List.getElem?_set_self hk]
  · rw [if_neg hik, List.getElem?_set_ne (Ne.symm hik)]

/-- Results of a list stand once each if those at different places differ. -/
lemma nodup_filterMap_iff :
    (l.filterMap f).Nodup ↔
      ∀ i j : Nat, i ≠ j → ∀ b, l[i]?.bind f = some b → l[j]?.bind f ≠ some b := by
  rw [List.Nodup, List.pairwise_filterMap, List.pairwise_iff_getElem]
  constructor
  · intro h i j hij b hi hj
    obtain ⟨x, hx, hxb⟩ := Option.bind_eq_some_iff.mp hi
    obtain ⟨y, hy, hyb⟩ := Option.bind_eq_some_iff.mp hj
    obtain ⟨hil, rfl⟩ := List.getElem?_eq_some_iff.mp hx
    obtain ⟨hjl, rfl⟩ := List.getElem?_eq_some_iff.mp hy
    rcases Nat.lt_or_gt_of_ne hij with hlt | hgt
    · exact h i j hil hjl hlt b hxb b hyb rfl
    · exact h j i hjl hil hgt b hyb b hxb rfl
  · rintro h i j hi hj hlt b hb _ hb' rfl
    exact h i j (Nat.ne_of_lt hlt) b (by simp [hi, hb]) (by simp [hj, hb'])

/-- The results of a list with one more item. -/
lemma filterMap_concat (f : α → Option β) (l : List α) (a : α) :
    (l ++ [a]).filterMap f = l.filterMap f ++ (f a).toList := by
  rw [List.filterMap_append]
  cases h : f a with
  | none =>
    rw [List.filterMap_cons_none h]
    rfl
  | some b =>
    rw [List.filterMap_cons_some h]
    rfl

/-- A replacement with the same result. -/
lemma filterMap_set_of_eq (ha : l[k]? = some a) (h : f a' = f a) :
    (l.set k a').filterMap f = l.filterMap f := by
  induction l generalizing k with
  | nil => rfl
  | cons b l ih =>
    cases k with
    | zero =>
      obtain rfl := Option.some.inj ha
      rw [List.set_cons_zero, List.filterMap_cons, List.filterMap_cons, h]
    | succ k =>
      rw [List.set_cons_succ, List.filterMap_cons, List.filterMap_cons, ih ha]

/-- A replacement with a result where there was none. -/
lemma filterMap_set_perm {b : β} (ha : l[k]? = some a) (h : f a = none) (h' : f a' = some b) :
    ((l.set k a').filterMap f).Perm (b :: l.filterMap f) := by
  induction l generalizing k with
  | nil => cases ha
  | cons c l ih =>
    cases k with
    | zero =>
      obtain rfl := Option.some.inj ha
      rw [List.set_cons_zero, List.filterMap_cons_some h', List.filterMap_cons_none h]
    | succ k =>
      rw [List.set_cons_succ]
      cases hc : f c with
      | none =>
        rw [List.filterMap_cons_none hc, List.filterMap_cons_none hc]
        exact ih ha
      | some d =>
        rw [List.filterMap_cons_some hc, List.filterMap_cons_some hc]
        exact ((ih ha).cons d).trans (List.Perm.swap b d _)

end Places

section Keys

variable {κ β : Type} [BEq κ] [LawfulBEq κ] [DecidableEq κ] {l : List (κ × β)} {k : κ}

/-- What is found under a key, from the front on. -/
lemma lookup_cons_eq_ite (e : κ × β) (l : List (κ × β)) (k : κ) :
    (e :: l).lookup k = if k = e.1 then some e.2 else l.lookup k := by
  rw [List.lookup_cons]
  by_cases hk : k = e.1
  · rw [hk, beq_self_eq_true, if_pos rfl]
  · rw [beq_false_of_ne hk, if_neg hk]

/-- Something is found under the keys of a list, and under no others. -/
lemma isSome_lookup_iff : (l.lookup k).isSome = true ↔ k ∈ l.map Prod.fst := by
  induction l with
  | nil => simp
  | cons e l ih =>
    rw [lookup_cons_eq_ite, List.map_cons, List.mem_cons, ← ih]
    by_cases hk : k = e.1
    · simp [hk]
    · simp [hk]

lemma lookup_eq_none_iff_not_mem : l.lookup k = none ↔ k ∉ l.map Prod.fst := by
  rw [← isSome_lookup_iff, Bool.not_eq_true, Option.isSome_eq_false_iff,
    Option.isNone_iff_eq_none]

end Keys

end SolidityAudit
