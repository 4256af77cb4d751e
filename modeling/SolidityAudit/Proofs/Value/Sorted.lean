import Mathlib.Data.List.Nodup
import Mathlib.Data.List.Sort
import SolidityAudit.Value.Sorted

/-!
# Documents and the order of their keys

A document is a value without fractions whose objects have each key once (`Value.IsDocument`).
Sorting the keys of a document at every depth forgets their order and nothing else: two documents
become equal exactly when they are the same up to the order of keys (`Value.sortKeys_eq_iff`).
-/

namespace SolidityAudit.Value

/-! ## Documents -/

/-- A value of null, booleans, integers, texts, lists, and objects with distinct keys. -/
inductive IsDocument : Value → Prop
  | null : IsDocument .null
  | bool (b : Bool) : IsDocument (.bool b)
  | int (n : Int) : IsDocument (.int n)
  | str (s : String) : IsDocument (.str s)
  | list {items : List Value} (h : ∀ v ∈ items, IsDocument v) : IsDocument (.list items)
  | object {fields : List (String × Value)} (distinct : (fields.map Prod.fst).Nodup)
    (h : ∀ f ∈ fields, IsDocument f.2) : IsDocument (.object fields)

lemma isDocument_list {items : List Value} :
    IsDocument (.list items) ↔ ∀ v ∈ items, v.IsDocument := by
  constructor
  · intro h
    cases h with
    | list h => exact h
  · exact .list

lemma isDocument_object {fields : List (String × Value)} :
    IsDocument (.object fields) ↔
      (fields.map Prod.fst).Nodup ∧ ∀ f ∈ fields, f.2.IsDocument := by
  constructor
  · intro h
    cases h with
    | object distinct h => exact ⟨distinct, h⟩
  · exact fun h => .object h.1 h.2

/-- Two values are the same but for the order of keys inside their objects. -/
inductive SameUpToOrder : Value → Value → Prop
  | null : SameUpToOrder .null .null
  | bool (b : Bool) : SameUpToOrder (.bool b) (.bool b)
  | int (n : Int) : SameUpToOrder (.int n) (.int n)
  | str (s : String) : SameUpToOrder (.str s) (.str s)
  | list {xs ys : List Value} (length : xs.length = ys.length)
    (h : ∀ (i : Nat) (v w : Value), xs[i]? = some v → ys[i]? = some w → SameUpToOrder v w) :
    SameUpToOrder (.list xs) (.list ys)
  | object {fs gs : List (String × Value)} (keys : (fs.map Prod.fst).Perm (gs.map Prod.fst))
    (h : ∀ (k : String) (v w : Value), (k, v) ∈ fs → (k, w) ∈ gs → SameUpToOrder v w) :
    SameUpToOrder (.object fs) (.object gs)

/-! ## The order of texts -/

section Order

variable {c d : Char} {s t u : List Char}

lemma charsLe_cons :
    charsLe (c :: s) (d :: t) = true ↔ c.toNat < d.toNat ∨ c = d ∧ charsLe s t = true := by
  simp [charsLe]

lemma charsLe_total (s t : List Char) : charsLe s t = true ∨ charsLe t s = true := by
  induction s generalizing t with
  | nil => exact .inl rfl
  | cons c s ih =>
    cases t with
    | nil => exact .inr rfl
    | cons d t =>
      rw [charsLe_cons, charsLe_cons]
      rcases Nat.lt_trichotomy c.toNat d.toNat with hlt | heq | hgt
      · exact .inl (.inl hlt)
      · have hcd : c = d := Char.toNat_inj.mp heq
        exact (ih t).imp (fun h => .inr ⟨hcd, h⟩) (fun h => .inr ⟨hcd.symm, h⟩)
      · exact .inr (.inl hgt)

lemma charsLe_antisymm (hst : charsLe s t = true) (hts : charsLe t s = true) : s = t := by
  induction s generalizing t with
  | nil =>
    cases t with
    | nil => rfl
    | cons d t => simp [charsLe] at hts
  | cons c s ih =>
    cases t with
    | nil => simp [charsLe] at hst
    | cons d t =>
      rw [charsLe_cons] at hst hts
      rcases hst with hlt | ⟨rfl, hst⟩
      · rcases hts with hgt | ⟨rfl, -⟩
        · omega
        · omega
      · rcases hts with hgt | ⟨-, hts⟩
        · omega
        · rw [ih hst hts]

lemma charsLe_trans (hst : charsLe s t = true) (htu : charsLe t u = true) : charsLe s u = true := by
  induction s generalizing t u with
  | nil => rfl
  | cons c s ih =>
    cases t with
    | nil => simp [charsLe] at hst
    | cons d t =>
      cases u with
      | nil => simp [charsLe] at htu
      | cons e u =>
        rw [charsLe_cons] at hst htu ⊢
        rcases hst with hlt | ⟨rfl, hst⟩
        · rcases htu with hlt' | ⟨rfl, -⟩
          · exact .inl (hlt.trans hlt')
          · exact .inl hlt
        · exact htu.imp_right fun htu => ⟨htu.1, ih hst htu.2⟩

end Order

/-- The order of fields by their keys. -/
def KeyLe (f g : String × Value) : Prop := codePointsLe f.1 g.1 = true

instance : DecidableRel KeyLe :=
  fun f g => inferInstanceAs (Decidable (codePointsLe f.1 g.1 = true))

instance : Std.Total KeyLe := ⟨fun f g => charsLe_total f.1.toList g.1.toList⟩

instance : IsTrans (String × Value) KeyLe := ⟨fun _ _ _ hst htu => charsLe_trans hst htu⟩

lemma KeyLe.antisymm {f g : String × Value} (hfg : KeyLe f g) (hgf : KeyLe g f) : f.1 = g.1 :=
  String.toList_inj.mp (charsLe_antisymm hfg hgf)

/-! ## Sorting -/

/-- A field with the keys of its value sorted. -/
def sortField (f : String × Value) : String × Value := (f.1, f.2.sortKeys)

lemma sortItems_eq_map (items : List Value) : sortItems items = items.map sortKeys := by
  induction items with
  | nil => rfl
  | cons v rest ih => rw [sortItems, ih, List.map_cons]

lemma insertSorted_eq_orderedInsert (k : String) (v : Value) (fields : List (String × Value)) :
    insertSorted k v fields = fields.orderedInsert KeyLe (k, v) := by
  induction fields with
  | nil => rfl
  | cons f rest ih => rw [insertSorted, ih, List.orderedInsert_cons]; rfl

lemma sortFields_eq_insertionSort (fields : List (String × Value)) :
    sortFields fields = (fields.map sortField).insertionSort KeyLe := by
  induction fields with
  | nil => rfl
  | cons f rest ih =>
    rw [sortFields, insertSorted_eq_orderedInsert, ih, List.map_cons, List.insertionSort_cons]
    rfl

lemma sortFields_perm (fields : List (String × Value)) :
    (sortFields fields).Perm (fields.map sortField) := by
  rw [sortFields_eq_insertionSort]
  exact List.perm_insertionSort ..

lemma pairwise_sortFields (fields : List (String × Value)) :
    (sortFields fields).Pairwise KeyLe := by
  rw [sortFields_eq_insertionSort]
  exact List.pairwise_insertionSort ..

lemma map_fst_sortField (fields : List (String × Value)) :
    (fields.map sortField).map Prod.fst = fields.map Prod.fst := by
  rw [List.map_map]
  rfl

/-- Sorting makes a document of a document. -/
lemma IsDocument.sortKeys {v : Value} (h : v.IsDocument) : v.sortKeys.IsDocument := by
  induction h with
  | null => exact .null
  | bool b => exact .bool b
  | int n => exact .int n
  | str s => exact .str s
  | list _ ih =>
    rw [Value.sortKeys, sortItems_eq_map]
    apply IsDocument.list
    intro w hw
    obtain ⟨v, hv, rfl⟩ := List.mem_map.mp hw
    exact ih v hv
  | @object fields distinct _ ih =>
    rw [Value.sortKeys]
    have hperm := sortFields_perm fields
    apply IsDocument.object
    · rw [(hperm.map Prod.fst).nodup_iff, map_fst_sortField]
      exact distinct
    · intro g hg
      obtain ⟨f, hf, rfl⟩ := List.mem_map.mp (hperm.mem_iff.mp hg)
      exact ih f hf

/-! ## What sorting forgets -/

/-- Under a key that stands once there is one field. -/
lemma eq_of_fst_eq {fields : List (String × Value)} (h : (fields.map Prod.fst).Nodup)
    {f g : String × Value} (hf : f ∈ fields) (hg : g ∈ fields) (hfg : f.1 = g.1) : f = g :=
  List.inj_on_of_nodup_map h hf hg hfg

/-- Fields with distinct keys are sorted alike when they are the same but for their order. -/
lemma sortFields_eq_iff {fs gs : List (String × Value)} (hfs : (fs.map Prod.fst).Nodup) :
    sortFields fs = sortFields gs ↔ (fs.map sortField).Perm (gs.map sortField) := by
  constructor
  · intro h
    have hsorted := sortFields_perm fs
    rw [h] at hsorted
    exact hsorted.symm.trans (sortFields_perm gs)
  · intro h
    have hperm : (sortFields fs).Perm (sortFields gs) :=
      (sortFields_perm fs).trans (h.trans (sortFields_perm gs).symm)
    have hnodup : ((sortFields fs).map Prod.fst).Nodup := by
      rw [((sortFields_perm fs).map Prod.fst).nodup_iff, map_fst_sortField]
      exact hfs
    have hunique : ∀ f g, f ∈ sortFields fs → g ∈ sortFields gs → KeyLe f g → KeyLe g f → f = g :=
      fun f g hf hg hfg hgf =>
        eq_of_fst_eq hnodup hf (hperm.mem_iff.mpr hg) (hfg.antisymm hgf)
    exact List.Perm.eq_of_pairwise hunique (pairwise_sortFields fs) (pairwise_sortFields gs) hperm

/-- Sorted fields are those of the other object when the keys are, and under each key the values. -/
lemma map_sortField_perm_iff {fs gs : List (String × Value)} (hfs : (fs.map Prod.fst).Nodup)
    (hgs : (gs.map Prod.fst).Nodup) :
    (fs.map sortField).Perm (gs.map sortField) ↔ (fs.map Prod.fst).Perm (gs.map Prod.fst) ∧
      ∀ k v w, (k, v) ∈ fs → (k, w) ∈ gs → v.sortKeys = w.sortKeys := by
  constructor
  · intro h
    have hkeys := h.map Prod.fst
    rw [map_fst_sortField, map_fst_sortField] at hkeys
    refine ⟨hkeys, ?_⟩
    intro k v w hv hw
    have hmem : (k, v.sortKeys) ∈ gs.map sortField :=
      h.mem_iff.mp (List.mem_map.mpr ⟨(k, v), hv, rfl⟩)
    have hmem' : (k, w.sortKeys) ∈ gs.map sortField := List.mem_map.mpr ⟨(k, w), hw, rfl⟩
    rw [← map_fst_sortField] at hgs
    exact congrArg Prod.snd (eq_of_fst_eq hgs hmem hmem' rfl)
  · intro h
    obtain ⟨hkeys, hvalues⟩ := h
    have hfs' : (fs.map sortField).Nodup := by
      rw [← map_fst_sortField] at hfs
      exact hfs.of_map
    have hgs' : (gs.map sortField).Nodup := by
      rw [← map_fst_sortField] at hgs
      exact hgs.of_map
    rw [List.perm_ext_iff_of_nodup hfs' hgs']
    intro f
    rw [List.mem_map, List.mem_map]
    constructor
    · intro hf
      obtain ⟨⟨k, v⟩, hv, rfl⟩ := hf
      have hk := hkeys.mem_iff.mp (List.mem_map.mpr ⟨_, hv, rfl⟩)
      obtain ⟨⟨l, w⟩, hw, rfl⟩ := List.mem_map.mp hk
      exact ⟨(l, w), hw, Prod.ext rfl (hvalues l v w hv hw).symm⟩
    · intro hf
      obtain ⟨⟨k, w⟩, hw, rfl⟩ := hf
      have hk := hkeys.mem_iff.mpr (List.mem_map.mpr ⟨_, hw, rfl⟩)
      obtain ⟨⟨l, v⟩, hv, rfl⟩ := List.mem_map.mp hk
      exact ⟨(l, v), hv, Prod.ext rfl (hvalues l v w hv hw)⟩

/-- Documents that are the same up to the order of keys are sorted alike. -/
lemma SameUpToOrder.sortKeys_eq {v w : Value} (h : SameUpToOrder v w) (hv : v.IsDocument)
    (hw : w.IsDocument) : v.sortKeys = w.sortKeys := by
  induction h with
  | null | bool | int | str => rfl
  | @list xs ys length _ ih =>
    have hxs := isDocument_list.mp hv
    have hys := isDocument_list.mp hw
    have hitems : xs.map Value.sortKeys = ys.map Value.sortKeys := by
      apply List.ext_getElem
      · rw [List.length_map, List.length_map, length]
      · intro i hi hi'
        rw [List.length_map] at hi hi'
        rw [List.getElem_map, List.getElem_map]
        exact ih i _ _ (List.getElem?_eq_getElem hi) (List.getElem?_eq_getElem hi')
          (hxs _ (List.getElem_mem hi)) (hys _ (List.getElem_mem hi'))
    rw [Value.sortKeys, Value.sortKeys, sortItems_eq_map, sortItems_eq_map, hitems]
  | @object fs gs keys _ ih =>
    obtain ⟨hfs, hvalues⟩ := isDocument_object.mp hv
    obtain ⟨hgs, hvalues'⟩ := isDocument_object.mp hw
    have hfields : sortFields fs = sortFields gs := by
      rw [sortFields_eq_iff hfs, map_sortField_perm_iff hfs hgs]
      refine ⟨keys, ?_⟩
      intro k v w hv hw
      exact ih k v w hv hw (hvalues _ hv) (hvalues' _ hw)
    rw [Value.sortKeys, Value.sortKeys, hfields]

/-- Documents that are sorted alike are the same up to the order of keys. -/
lemma IsDocument.sameUpToOrder {v w : Value} (hv : v.IsDocument) (hw : w.IsDocument)
    (h : v.sortKeys = w.sortKeys) : SameUpToOrder v w := by
  induction hv generalizing w with
  | null => cases hw <;> simp_all [Value.sortKeys, SameUpToOrder.null]
  | bool b => cases hw <;> simp_all [Value.sortKeys, SameUpToOrder.bool]
  | int n => cases hw <;> simp_all [Value.sortKeys, SameUpToOrder.int]
  | str s => cases hw <;> simp_all [Value.sortKeys, SameUpToOrder.str]
  | @list xs hxs ih =>
    cases hw with
    | null | bool | int | str | object => simp [Value.sortKeys] at h
    | @list ys hys =>
      rw [Value.sortKeys, Value.sortKeys, Value.list.injEq, sortItems_eq_map, sortItems_eq_map] at h
      apply SameUpToOrder.list
      · simpa using congrArg List.length h
      · intro i v w hv hw
        have hi := congrArg (·[i]?) h
        simp only [List.getElem?_map, hv, hw, Option.map_some, Option.some_inj] at hi
        exact ih v (List.mem_of_getElem? hv) (hys w (List.mem_of_getElem? hw)) hi
  | @object fs hfs _ ih =>
    cases hw with
    | null | bool | int | str | list => simp [Value.sortKeys] at h
    | @object gs hgs hvalues =>
      rw [Value.sortKeys, Value.sortKeys, Value.object.injEq, sortFields_eq_iff hfs,
        map_sortField_perm_iff hfs hgs] at h
      obtain ⟨keys, hsame⟩ := h
      apply SameUpToOrder.object keys
      intro k v w hv hw
      exact ih (k, v) hv (hvalues (k, w) hw) (hsame k v w hv hw)

/-- Sorting the keys of a document forgets their order and nothing else. -/
theorem sortKeys_eq_iff {v w : Value} (hv : v.IsDocument) (hw : w.IsDocument) :
    v.sortKeys = w.sortKeys ↔ SameUpToOrder v w :=
  ⟨hv.sameUpToOrder hw, fun h => h.sortKeys_eq hv hw⟩

end SolidityAudit.Value
