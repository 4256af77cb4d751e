import SolidityAudit.Contract.Parse
import SolidityAudit.Proofs.Contract.Outline
import SolidityAudit.Proofs.Solidity.File

/-!
# The facts of sources one after the other

The items of two sources one after the other are those of both, so the nodes of the outline are
too, kind by kind, and the facts follow from the nodes (`Collected`). Only the name is not a list:
the first contract gives it. More declarations never lower the complexity.
-/

namespace SolidityAudit

open Solidity (Tree)

namespace Complexity

/-- The place of a complexity in the ascending order. -/
def rank : Complexity → Nat
  | low => 0
  | medium => 1
  | high => 2

instance : LE Complexity := ⟨fun c d => c.rank ≤ d.rank⟩

instance (c d : Complexity) : Decidable (c ≤ d) := inferInstanceAs (Decidable (c.rank ≤ d.rank))

/-- A larger weight has no lower complexity. -/
lemma ofWeight_mono {m n : Nat} (h : m ≤ n) : ofWeight m ≤ ofWeight n := by
  unfold ofWeight
  split_ifs <;> first | omega | decide

end Complexity

namespace Solidity.Defect

lemma findIn_append (items more : List Tree) :
    findIn (items ++ more) = findIn items ++ findIn more := by
  induction items with
  | nil => rfl
  | cons t ts ih => rw [List.cons_append, findIn, ih, findIn, List.cons_append]

/-- Items have a defect if some of them does. -/
lemma none_append {items more : List Tree} (hitems : (findIn items).findSome? (·.2) = none)
    (hmore : (findIn more).findSome? (·.2) = none) :
    (findIn (items ++ more)).findSome? (·.2) = none := by
  rw [findIn_append, List.findSome?_append, hitems, hmore]
  rfl

end Solidity.Defect

namespace Collect

/-- The nodes of the last list are those of the first and then those of the second, kind by kind;
the nodes of files need not be there. -/
def Joins (ns ms os : List Fields) : Prop :=
  ∀ kind, kind ≠ "SourceUnit" → ofKind kind os = ofKind kind ns ++ ofKind kind ms

/-- What nodes one after the other say about the facts, apart from the name. -/
lemma Collected.join {ns ms os : List Fields} {s t u : State} (hs : Collected ns s)
    (ht : Collected ms t) (hu : Collected os u) (hjoin : Joins ns ms os) :
    u.facts.functions = s.facts.functions ++ t.facts.functions ∧
    u.facts.events = s.facts.events ++ t.facts.events ∧
    u.facts.modifiers = s.facts.modifiers ++ t.facts.modifiers ∧
    u.facts.stateVariables = s.facts.stateVariables ++ t.facts.stateVariables ∧
    u.facts.imports = s.facts.imports ++ t.facts.imports := by
  refine ⟨map_ok_injective ?_, map_ok_injective ?_, map_ok_injective ?_, map_ok_injective ?_,
    map_ok_injective ?_⟩
  · rw [List.map_append, ← hu.functions, ← hs.functions, ← ht.functions, hjoin _ (by decide),
      List.map_append]
  · rw [List.map_append, ← hu.events, ← hs.events, ← ht.events, hjoin _ (by decide),
      List.map_append]
  · rw [List.map_append, ← hu.modifiers, ← hs.modifiers, ← ht.modifiers, hjoin _ (by decide),
      List.map_append]
  · rw [List.map_append, ← hu.stateVariables, ← hs.stateVariables, ← ht.stateVariables,
      hjoin _ (by decide), List.map_append]
  · rw [List.map_append, ← hu.imports, ← hs.imports, ← ht.imports, hjoin _ (by decide),
      List.map_append]

/-- The first contract gives the name, in whichever part it is. -/
lemma nameOfFirst_append (contracts more : List Fields) :
    nameOfFirst (contracts ++ more) =
      if contracts = [] then nameOfFirst more else nameOfFirst contracts := by
  cases contracts with
  | nil => rfl
  | cons n rest => rfl

/-- An outline that can be read collects its nodes. -/
lemma facts_eq_ok {items : List Tree} {f : ContractFacts}
    (h : facts (Solidity.outline items) = .ok f) :
    ∃ s, (Value.objectsInItems (Solidity.itemNodes items)).foldlM visit ⟨.empty, false⟩ = .ok s ∧
      Collected (Solidity.outline items).objects s ∧
      f = { s.facts with complexity := s.facts.estimate } := by
  obtain ⟨s, hfold, hs, hf⟩ := collected_of_facts (Solidity.outline_distinctKeys items) h
  rw [Solidity.foldlM_outline] at hfold
  exact ⟨s, hfold, hs, hf⟩

/-- Items one after the other can be read if both parts can. -/
lemma facts_append {items more : List Tree} {f g : ContractFacts}
    (hf : facts (Solidity.outline items) = .ok f) (hg : facts (Solidity.outline more) = .ok g) :
    ∃ h, facts (Solidity.outline (items ++ more)) = .ok h := by
  obtain ⟨s, hs, -⟩ := facts_eq_ok hf
  obtain ⟨t, ht, -⟩ := facts_eq_ok hg
  -- the nodes of the second part can be visited in whatever state the first part leaves
  obtain ⟨u, hu⟩ := foldlM_ok_of_ok ht s
  rw [facts, walk_eq_foldlM _ _ (Solidity.outline_distinctKeys _), Solidity.foldlM_outline,
    Solidity.itemNodes_append, List.foldlM_append, hs]
  show ∃ h, ((Value.objectsInItems (Solidity.itemNodes more)).foldlM visit s >>= _) = .ok h
  rw [hu]
  exact ⟨_, rfl⟩

end Collect

lemma Value.eq_str_of_text? {v : Value} {s : String} (h : v.text? = some s) : v = .str s := by
  cases v <;> simp_all [text?]

namespace ContractFacts

lemma ofOutline_eq_ok {tree : Value} {f : ContractFacts} :
    ofOutline tree = .ok f ↔ Collect.facts tree = .ok f := by
  unfold ofOutline
  cases Collect.facts tree with
  | error e => exact iff_of_false nofun nofun
  | ok g =>
    show Except.ok g = Except.ok f ↔ Except.ok g = Except.ok f
    rw [Except.ok.injEq, Except.ok.injEq]

/-- A source has an outline if it has items, none with a defect. -/
lemma outline_eq_ok {s : String} {tree : Value} :
    outline s = .ok tree ↔ ∃ items, Solidity.readSource s = .ok items ∧
      (Solidity.Defect.findIn items).findSome? (·.2) = none ∧ tree = Solidity.outline items := by
  unfold outline
  constructor
  · intro h
    split at h
    · cases h
    · next items hitems =>
      split at h
      · cases h
      · next hdefect => exact ⟨items, hitems, hdefect, (Except.ok.inj h).symm⟩
  · rintro ⟨items, hitems, hdefect, rfl⟩
    simp only [hitems, hdefect]

/-- A source has facts if it has an outline, and that can be read. -/
lemma parse_eq_ok {s : String} {f : ContractFacts} :
    parse (some s) = .ok f ↔ ∃ items, Solidity.readSource s = .ok items ∧
      (Solidity.Defect.findIn items).findSome? (·.2) = none ∧
      Collect.facts (Solidity.outline items) = .ok f := by
  show outline s >>= ofOutline = .ok f ↔ _
  simp only [bind_eq_ok_iff, outline_eq_ok, ofOutline_eq_ok]
  constructor
  · rintro ⟨_, ⟨items, hitems, hdefect, rfl⟩, hf⟩
    exact ⟨items, hitems, hdefect, hf⟩
  · rintro ⟨items, hitems, hdefect, hf⟩
    exact ⟨_, ⟨items, hitems, hdefect, rfl⟩, hf⟩

/-- The source declares a contract, an interface or a library. -/
def declaresContract (source : String) : Bool :=
  match Solidity.readSource source with
  | .ok items => items.any Tree.declaresContract
  | .error _ => false

/-- More declarations do not lower the complexity. -/
lemma estimate_le_append {f g h : ContractFacts}
    (hfunctions : h.functions = f.functions ++ g.functions)
    (hevents : h.events = f.events ++ g.events)
    (hmodifiers : h.modifiers = f.modifiers ++ g.modifiers)
    (hvariables : h.stateVariables = f.stateVariables ++ g.stateVariables)
    (himports : h.imports = f.imports ++ g.imports) :
    f.estimate ≤ h.estimate ∧ g.estimate ≤ h.estimate := by
  have hweight : h.weight = f.weight + g.weight := by
    simp only [weight, hfunctions, hevents, hmodifiers, hvariables, himports, List.length_append]
    omega
  rw [estimate, estimate, estimate, hweight]
  exact ⟨Complexity.ofWeight_mono (Nat.le_add_right ..),
    Complexity.ofWeight_mono (Nat.le_add_left ..)⟩

/-- Two sources with facts have facts when they stand one after the other with a line break between
them: the declarations of the first and then those of the second, the name of the first contract,
and a complexity no lower than that of either. -/
theorem parse_append {s t : String} {f g : ContractFacts} (hs : parse (some s) = .ok f)
    (ht : parse (some t) = .ok g) :
    ∃ both, parse (some (s ++ "\n" ++ t)) = .ok both ∧
      both.functions = f.functions ++ g.functions ∧
      both.events = f.events ++ g.events ∧
      both.modifiers = f.modifiers ++ g.modifiers ∧
      both.stateVariables = f.stateVariables ++ g.stateVariables ∧
      both.imports = f.imports ++ g.imports ∧
      both.name = (if declaresContract s then f.name else g.name) ∧
      f.complexity ≤ both.complexity ∧ g.complexity ≤ both.complexity := by
  obtain ⟨items, hitems, hnone, hf⟩ := parse_eq_ok.mp hs
  obtain ⟨more, hmore, hnoneMore, hg⟩ := parse_eq_ok.mp ht
  obtain ⟨both, hboth⟩ := Collect.facts_append hf hg
  have hparse : parse (some (s ++ "\n" ++ t)) = .ok both :=
    parse_eq_ok.mpr ⟨items ++ more, Solidity.readSource_append hitems hmore,
      Solidity.Defect.none_append hnone hnoneMore, hboth⟩
  obtain ⟨a, -, ha, rfl⟩ := Collect.facts_eq_ok hf
  obtain ⟨b, -, hb, rfl⟩ := Collect.facts_eq_ok hg
  obtain ⟨c, -, hc, rfl⟩ := Collect.facts_eq_ok hboth
  have hjoin : Collect.Joins (Solidity.outline items).objects (Solidity.outline more).objects
      (Solidity.outline (items ++ more)).objects :=
    fun kind hkind => Solidity.ofKind_outline_append hkind items more
  obtain ⟨hfunctions, hevents, hmodifiers, hvariables, himports⟩ := ha.join hb hc hjoin
  refine ⟨_, hparse, hfunctions, hevents, hmodifiers, hvariables, himports, ?_,
    estimate_le_append hfunctions hevents hmodifiers hvariables himports⟩
  show c.facts.name = if declaresContract s then a.facts.name else b.facts.name
  have hnothing := Solidity.ofKind_contract_eq_nil items
  rw [hc.name, hjoin _ (by decide), Collect.nameOfFirst_append, ha.name, hb.name, declaresContract,
    hitems]
  show _ = if items.any Tree.declaresContract then _ else _
  cases hany : items.any Tree.declaresContract with
  | false => rw [if_pos (hnothing.mpr hany), if_neg Bool.false_ne_true]
  | true =>
    have hsome := (not_congr hnothing).mpr (ne_false_of_eq_true hany)
    rw [if_neg hsome, if_pos rfl]

lemma eq_map_of_map_eq {α β γ : Type} {p : α → γ} {q : β → γ} {r : β → α} {xs : List α}
    {ys : List β} (h : ∀ a b, p a = q b → a = r b) (hxs : xs.map p = ys.map q) :
    xs = ys.map r := by
  induction xs generalizing ys with
  | nil =>
    cases ys with
    | nil => rfl
    | cons => cases hxs
  | cons a xs ih =>
    cases ys with
    | nil => cases hxs
    | cons b ys =>
      obtain ⟨hab, hrest⟩ := List.cons.inj hxs
      rw [List.map_cons, h a b hab, ih hrest]

/-- The facts of a source, from the texts in its events and imports. -/
lemma exists_parse (s : String) (events imports : List String)
    (h : (parse (some s)).toOption.map (fun f =>
        (f.events.map fun e => (e.name.text?, e.parameters.length), f.imports.map Value.text?)) =
      some (events.map fun name => (some name, 0), imports.map some)) :
    ∃ f, parse (some s) = .ok f ∧ f.events = (events.map fun name => ⟨.str name, []⟩) ∧
      f.imports = imports.map .str := by
  cases hparse : parse (some s) with
  | error e =>
    rw [hparse] at h
    cases h
  | ok f =>
    rw [hparse] at h
    obtain ⟨hevents, himports⟩ := Prod.mk.inj (Option.some.inj h)
    refine ⟨f, rfl, eq_map_of_map_eq ?_ hevents, eq_map_of_map_eq ?_ himports⟩
    · rintro ⟨v, parameters⟩ name hname
      obtain ⟨hv, hnone⟩ := Prod.mk.inj hname
      obtain rfl : v = .str name := Value.eq_str_of_text? hv
      obtain rfl : parameters = [] := List.length_eq_zero_iff.mp hnone
      rfl
    · exact fun v path hv => Value.eq_str_of_text? hv

/-- The first source ends in a comment, which the line break closes. -/
theorem commentThenImport_append :
    ∃ f g both, parse (some "library A { event E(); } // end") = .ok f ∧
      parse (some "import 'b.sol';") = .ok g ∧
      parse (some "library A { event E(); } // end\nimport 'b.sol';") = .ok both ∧
      both.events = [⟨.str "E", []⟩] ∧ both.imports = [.str "b.sol"] ∧ both.name = f.name := by
  obtain ⟨f, hf, hfevents, hfimports⟩ :=
    exists_parse "library A { event E(); } // end" ["E"] [] (by decide +kernel)
  obtain ⟨g, hg, hgevents, hgimports⟩ :=
    exists_parse "import 'b.sol';" [] ["b.sol"] (by decide +kernel)
  obtain ⟨both, hboth, -, hevents, -, -, himports, hname, -⟩ := parse_append hf hg
  have hdeclares : declaresContract "library A { event E(); } // end" = true := by decide +kernel
  rw [hdeclares, if_pos rfl] at hname
  rw [hfevents, hgevents] at hevents
  rw [hfimports, hgimports] at himports
  exact ⟨f, g, both, hf, hg, hboth, hevents, himports, hname⟩

end ContractFacts

end SolidityAudit
