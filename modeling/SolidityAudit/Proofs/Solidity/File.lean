import SolidityAudit.Proofs.Solidity.Item
import SolidityAudit.Proofs.Solidity.Prefix

/-!
# Files one after the other

Since at most one item can begin a file, whatever follows it, a file is read item by item
(`itemsOf_cons`). So the items of some tokens followed by others are the items of the one and then
those of the other (`itemsOf_append`), and the same holds of sources with a line break between them
(`readSource_append`).
-/

namespace SolidityAudit.Solidity

namespace Outcome

/-- The preferred reading that takes the given number of tokens. -/
def ofLength? (n : Nat) (a : Outcome) : Option Reading :=
  a.readings.find? (·.taken == n)

variable {n : Nat}

lemma ofLength?_or (a b : Outcome) :
    (a.or b).ofLength? n = (a.ofLength? n).or (b.ofLength? n) := by
  rw [ofLength?, Outcome.or, List.find?_append]
  cases ha : a.ofLength? n with
  | some r =>
    rw [ofLength?] at ha
    rw [ha]
    rfl
  | none =>
    -- no reading of the second is left out for its length
    rw [ofLength?] at ha
    rw [ha, Option.none_or, Option.none_or, List.find?_filter, ofLength?]
    refine List.find?_congr fun r _ => ?_
    by_cases hr : r.taken = n
    · have hnone : ∀ q ∈ a.readings, q.taken ≠ n := by simpa using ha
      simpa [hr] using hnone
    · simp [hr]

lemma ofLength?_foldl_or (next : Reading → Outcome) (qs : List Reading) (done : Outcome) :
    (qs.foldl (fun done q => done.or (next q)) done).ofLength? n =
      (done.ofLength? n).or (qs.findSome? fun q => (next q).ofLength? n) := by
  induction qs generalizing done with
  | nil => simp
  | cons q qs ih =>
    rw [List.foldl_cons, ih, ofLength?_or, List.findSome?_cons, Option.or_assoc]
    cases (next q).ofLength? n <;> rfl

lemma ofLength?_bind (a : Outcome) (next : Reading → Outcome) :
    (a.bind next).ofLength? n = a.readings.findSome? fun q => (next q).ofLength? n := by
  rw [Outcome.bind, ofLength?_foldl_or]
  rfl

end Outcome

/-! ## Items -/

/-- The items that the given tokens may begin with. -/
def firstItems (ts : List Token) : List Reading := (phrases (chart ts) 0 .sourceItem).readings

/-- The items of a file of tokens. -/
def itemsOf (ts : List Token) : Option (List Tree) :=
  ((fileReadings ts).ofLength? ts.length).map (·.trees)

lemma readTokens_eq_ok {ts : List Token} {items : List Tree} :
    readTokens ts = .ok items ↔ itemsOf ts = some items := by
  rw [readTokens, itemsOf, Outcome.ofLength?]
  cases (fileReadings ts).readings.find? (·.taken == ts.length) <;> simp

lemma item_of_firstItems {ts : List Token} {q : Reading} (h : q ∈ firstItems ts) :
    q.taken ≤ ts.length ∧ Derives (.part .sourceItem) (ts.take q.taken) := by
  have hitem := derives_of_phrase ts 0 .sourceItem q h
  rwa [Nat.zero_add, List.drop_zero] at hitem

lemma taken_pos {ts : List Token} {q : Reading} (h : q ∈ firstItems ts) : 0 < q.taken := by
  rcases Nat.eq_zero_or_pos q.taken with hzero | hpos
  · have hitem := (item_of_firstItems h).2
    rw [hzero, List.take_zero] at hitem
    exact absurd rfl (ne_nil_of_item hitem)
  · exact hpos

/-- All items that some tokens may begin with have the same length. -/
lemma taken_eq {ts : List Token} {q r : Reading} (hq : q ∈ firstItems ts)
    (hr : r ∈ firstItems ts) : q.taken = r.taken := by
  have hle {q r : Reading} (hq : q ∈ firstItems ts) (hr : r ∈ firstItems ts)
      (hqr : q.taken ≤ r.taken) : q.taken = r.taken := by
    obtain ⟨hqle, hqitem⟩ := item_of_firstItems hq
    obtain ⟨hrle, hritem⟩ := item_of_firstItems hr
    obtain ⟨k, hk⟩ := Nat.exists_eq_add_of_le hqr
    -- the longer item would go on after the end of the shorter one
    have hrest := item_unique hqitem hritem (by rw [hk, List.take_add])
    have hlength := congrArg List.length hrest
    rw [List.length_take, List.length_drop, List.length_nil] at hlength
    omega
  rcases Nat.le_total q.taken r.taken with hqr | hrq
  · exact hle hq hr hqr
  · exact (hle hr hq hrq).symm

/-- What follows an item does not change it. -/
lemma firstItems_append {ts : List Token} (h : firstItems ts ≠ []) (us : List Token) :
    firstItems (ts ++ us) = firstItems ts := by
  have hupTo : firstItems ts = (firstItems (ts ++ us)).filter (·.taken ≤ ts.length) :=
    phrases_append ts us .sourceItem
  obtain ⟨q, hq⟩ := List.exists_mem_of_ne_nil _ h
  have hqboth : q ∈ firstItems (ts ++ us) := by
    rw [hupTo] at hq
    exact List.mem_of_mem_filter hq
  rw [hupTo, List.filter_eq_self.mpr]
  intro r hr
  rw [taken_eq hr hqboth]
  exact decide_eq_true (item_of_firstItems hq).1

/-! ## Files -/

/-- The phrases behind some tokens are those at the front of the rest. -/
lemma phrases_drop (ts : List Token) {k : Nat} (hk : k ≤ ts.length) (c : Category) :
    phrases (chart ts) k c = phrases (chart (ts.drop k)) 0 c := by
  induction ts generalizing k with
  | nil =>
    obtain rfl : k = 0 := by simpa using hk
    rfl
  | cons t ts ih =>
    cases k with
    | zero => rfl
    | succ k => exact ih (by simpa using hk)

/-- A file is a repetition of items over rows that hold what the chart holds. -/
lemma fileReadings_eq (ts : List Token) :
    ∃ rows, fileReadings ts = repetitions rows .sourceItems .sourceItem ∧
      (phrases rows 0 .sourceItem).readings = firstItems ts ∧
      ∀ k, 0 < k → k ≤ ts.length → phrases rows k .sourceItems = fileReadings (ts.drop k) := by
  -- the category of files comes first in the list, so its rule sees the row without it
  refine ⟨fillRow ts (chart ts).tail Category.everyCategory.tail :: (chart ts).tail, ?_, ?_, ?_⟩
  · rw [fileReadings, chart_eq]
    rfl
  · rw [firstItems, chart_eq]
    rfl
  · intro k hpos hk
    rw [fileReadings, ← phrases_drop ts hk, chart_eq ts]
    cases k with
    | zero => exact absurd hpos (Nat.lt_irrefl 0)
    | succ k => rfl

/-- Some tokens are a file if they begin with an item and the rest is a file. -/
lemma itemsOf_cons {ts : List Token} (h : ts ≠ []) :
    itemsOf ts = (firstItems ts).head?.bind fun q =>
      (itemsOf (ts.drop q.taken)).map (.node .sourceItem q.trees :: ·) := by
  obtain ⟨rows, hfile, hfirst, hlater⟩ := fileReadings_eq ts
  have hlength : ts.length ≠ 0 := by simpa using h
  have hlast : (⟨0, [⟨0, []⟩]⟩ : Outcome).ofLength? ts.length = none := by
    simpa [Outcome.ofLength?] using hlength.symm
  rw [itemsOf, hfile, repetitions, Outcome.ofLength?_or, hlast, Option.or_none,
    Outcome.ofLength?_bind, hfirst, List.map_findSome?]
  -- what follows an item is a file of its own
  have hstep : ∀ q ∈ firstItems ts,
      ((⟨q.taken + (phrases rows q.taken .sourceItems).reach,
        (phrases rows q.taken .sourceItems).readings.map fun s =>
          ⟨q.taken + s.taken, .node .sourceItem q.trees :: s.trees⟩⟩ : Outcome).ofLength?
        ts.length).map (·.trees) =
      (itemsOf (ts.drop q.taken)).map (.node .sourceItem q.trees :: ·) := by
    intro q hq
    have hle := (item_of_firstItems hq).1
    rw [hlater q.taken (taken_pos hq) hle, itemsOf, Outcome.ofLength?, Outcome.ofLength?,
      List.find?_map, List.length_drop]
    have hsame : (fun s : Reading => s.taken == ts.length - q.taken) =
        fun s : Reading => q.taken + s.taken == ts.length := by
      funext s
      rw [Bool.eq_iff_iff, beq_iff_eq, beq_iff_eq]
      omega
    rw [hsame, Option.map_map, Option.map_map]
    rfl
  cases hitems : firstItems ts with
  | nil => rfl
  | cons q others =>
    have hq : q ∈ firstItems ts := by simp [hitems]
    rw [List.findSome?_cons, Function.comp_apply, hstep q hq, List.head?_cons, Option.bind_some]
    cases hrest : itemsOf (ts.drop q.taken) with
    | some items => rfl
    | none =>
      -- the other items have the same length
      refine List.findSome?_eq_none_iff.mpr fun r hr => ?_
      have hr' : r ∈ firstItems ts := by simp [hitems, hr]
      rw [Function.comp_apply, hstep r hr', ← taken_eq hq hr', hrest]
      rfl

lemma itemsOf_nil : itemsOf [] = some [] := by
  obtain ⟨rows, hfile, hfirst, -⟩ := fileReadings_eq []
  have hnone : firstItems [] = [] := by
    rw [List.eq_nil_iff_forall_not_mem]
    intro q hq
    have hle := (item_of_firstItems hq).1
    have hpos := taken_pos hq
    rw [List.length_nil] at hle
    omega
  rw [itemsOf, hfile, repetitions, Outcome.ofLength?_or, Outcome.ofLength?_bind, hfirst, hnone]
  rfl

/-- The items of a file and of another one after it are those of both. -/
theorem itemsOf_append {ts us : List Token} {items items' : List Tree}
    (ht : itemsOf ts = some items) (hu : itemsOf us = some items') :
    itemsOf (ts ++ us) = some (items ++ items') := by
  -- what follows the first item is a shorter file
  induction hn : ts.length using Nat.strong_induction_on generalizing ts items with
  | _ n ih =>
    by_cases hts : ts = []
    · subst hts
      obtain rfl := Option.some.inj (itemsOf_nil.symm.trans ht)
      exact hu
    · rw [itemsOf_cons hts] at ht
      obtain ⟨q, hhead, hrest⟩ := Option.bind_eq_some_iff.mp ht
      obtain ⟨later, hlater, rfl⟩ := Option.map_eq_some_iff.mp hrest
      have hq : q ∈ firstItems ts := List.mem_of_head? hhead
      have hle := (item_of_firstItems hq).1
      have hpos := taken_pos hq
      have hshort : (ts.drop q.taken).length < n := by
        rw [List.length_drop]
        omega
      have hfirst := firstItems_append (List.ne_nil_of_mem hq) us
      rw [itemsOf_cons (List.append_ne_nil_of_left_ne_nil hts us), hfirst, hhead,
        Option.bind_some, List.drop_append_of_le_length hle, ih _ hshort hlater rfl]
      rfl

/-- The tokens of a file are a repetition of items. -/
lemma derives_of_itemsOf {ts : List Token} {items : List Tree} (h : itemsOf ts = some items) :
    Derives (.part .sourceItems) ts := by
  obtain ⟨r, hr, -⟩ := Option.map_eq_some_iff.mp h
  have htaken : r.taken = ts.length := by simpa using List.find?_some hr
  have hderives := (derives_of_phrase ts 0 .sourceItems r (List.mem_of_find?_eq_some hr)).2
  rwa [htaken, List.drop_zero, List.take_length] at hderives

/-- The items of a source, a line break and another source are those of both. -/
theorem readSource_append {s t : String} {items items' : List Tree}
    (hs : readSource s = .ok items) (ht : readSource t = .ok items') :
    readSource (s ++ "\n" ++ t) = .ok (items ++ items') := by
  obtain ⟨ts, hts, hitems⟩ := readSource_eq_ok.mp hs
  obtain ⟨us, hus, hitems'⟩ := readSource_eq_ok.mp ht
  rw [readTokens_eq_ok] at hitems hitems'
  refine readSource_eq_ok.mpr ⟨ts ++ us, ?_, readTokens_eq_ok.mpr (itemsOf_append hitems hitems')⟩
  have hopens : ¬ OpensComment ts := not_opensComment_of_derives (derives_of_itemsOf hitems)
  rw [tokensOf_append hts hopens, hus]
  rfl

end SolidityAudit.Solidity
