import SolidityAudit.Proofs.Contract.Append
import SolidityAudit.Proofs.Json.Writer

/-!
# Outlines that cannot be read

Four kinds of nodes of a wrong shape stop the walk through an outline, and besides them only a type
with an integer that is too long to be written (`visit_eq_error_iff`). The walk ends with the fault
of the first of these nodes. What has been collected up to the fault is dropped: a source with such
an outline gets the cautious record, unless the fault is that of an integer, which escapes
(`parseBy_refused_iff`). No such integer stands in an outline that has a JSON text, or in that of a
source (`parseOrFallbackBy_grammarOutline`).
-/

namespace SolidityAudit

namespace Collect

/-- The nodes that cannot be visited, each with the fault that it leads to. -/
inductive Offends (n : Fields) : Fault → Prop
  /-- a list or an object in the place of the kind -/
  | kind (hv : (Fields.get "type" n).kind = .list ∨ (Fields.get "type" n).kind = .object) :
    Offends n (.unhashable (Fields.get "type" n).kind)
  /-- an import of something that is no text -/
  | path (htype : Fields.get "type" n = .str "ImportDirective")
    (htruthy : (Fields.get "path" n).truthy = true) (hv : (Fields.get "path" n).kind ≠ .str) :
    Offends n (.noAttribute (Fields.get "path" n).kind "strip")
  /-- a number or a truth value in the place of the declared variables -/
  | declared (htype : Fields.get "type" n = .str "StateVariableDeclaration")
    (htruthy : (Fields.get "variables" n).truthy = true)
    (hv : (Fields.get "variables" n).kind = .bool ∨ (Fields.get "variables" n).kind = .int ∨
      (Fields.get "variables" n).kind = .float) :
    Offends n (.notIterable (Fields.get "variables" n).kind)
  /-- an object in their place, whose first item is asked for the visibility -/
  | firstDeclared (htype : Fields.get "type" n = .str "StateVariableDeclaration")
    (htruthy : (Fields.get "variables" n).truthy = true)
    (hv : (Fields.get "variables" n).kind = .object)
    (hvisibility : (Fields.get "visibility" n).truthy = false) : Offends n (.missingKey (.int 0))

/-- The nodes whose parameters have a type that cannot be written. -/
inductive Overflows (n : Fields) : Prop
  | parameters (htype : Fields.get "type" n = .str "FunctionDefinition" ∨
      Fields.get "type" n = .str "EventDefinition" ∨
      Fields.get "type" n = .str "ModifierDefinition")
    (h : Unlabelled (Fields.get "parameters" n))
  | returns (htype : Fields.get "type" n = .str "FunctionDefinition")
    (h : Unlabelled (Fields.get "returnParameters" n))

/-- The nodes that stop the walk, each with the fault that it leads to. -/
def Fails (n : Fields) (f : Fault) : Prop :=
  Offends n f ∨ Overflows n ∧ f = .unwritableInteger

variable {n : Fields} {s : State} {f : Fault}

/-! ## One node -/

lemma importPath_eq_error_iff :
    importPath n = .error f ↔ (Fields.get "path" n).truthy = true ∧
      (Fields.get "path" n).kind ≠ .str ∧
      Fault.noAttribute (Fields.get "path" n).kind "strip" = f := by
  unfold importPath
  by_cases htruthy : (Fields.get "path" n).truthy = true
  · rw [Value.orElse, if_pos htruthy]
    generalize Fields.get "path" n = v at htruthy ⊢
    cases v <;> simp [Value.kind, htruthy]
  · rw [Value.orElse, if_neg htruthy]
    simp [htruthy]

lemma variableFacts_eq_error_iff :
    variableFacts n = .error f ↔ (Fields.get "variables" n).truthy = true ∧
      (((Fields.get "variables" n).kind = .bool ∨ (Fields.get "variables" n).kind = .int ∨
          (Fields.get "variables" n).kind = .float) ∧
          Fault.notIterable (Fields.get "variables" n).kind = f ∨
        (Fields.get "variables" n).kind = .object ∧
          (Fields.get "visibility" n).truthy = false ∧ Fault.missingKey (.int 0) = f) := by
  unfold variableFacts
  by_cases htruthy : (Fields.get "variables" n).truthy = true
  · rw [Value.orElse, if_pos htruthy]
    generalize Fields.get "variables" n = v at htruthy ⊢
    cases v with
    | null => cases htruthy
    | object fields =>
      cases hown : (Fields.get "visibility" n).truthy <;> simp [Value.kind, htruthy, hown]
    | _ => simp [Value.kind, htruthy]
  · rw [Value.orElse, if_neg htruthy]
    simp [htruthy]

/-- A node stops the walk with a fault exactly when it offends or a type in it cannot be written,
whatever has been collected. -/
lemma visit_eq_error_iff : visit s n = .error f ↔ Fails n f := by
  unfold visit
  constructor
  · intro h
    split at h
    case h_1 => split at h <;> cases h
    case h_2 htype =>
      obtain ⟨rfl, hgiven | hreturns⟩ := function_eq_error_iff.mp (bind_pure_eq_error_iff.mp h)
      · exact .inr ⟨.parameters (.inl htype) hgiven, rfl⟩
      · exact .inr ⟨.returns htype hreturns, rfl⟩
    case h_3 htype =>
      obtain ⟨rfl, hgiven⟩ := signature_eq_error_iff.mp (bind_pure_eq_error_iff.mp h)
      exact .inr ⟨.parameters (.inr (.inl htype)) hgiven, rfl⟩
    case h_4 htype =>
      obtain ⟨rfl, hgiven⟩ := signature_eq_error_iff.mp (bind_pure_eq_error_iff.mp h)
      exact .inr ⟨.parameters (.inr (.inr htype)) hgiven, rfl⟩
    case h_5 htype =>
      obtain ⟨htruthy, ⟨hv, rfl⟩ | ⟨hv, hvisibility, rfl⟩⟩ :=
        variableFacts_eq_error_iff.mp (bind_pure_eq_error_iff.mp h)
      · exact .inl (.declared htype htruthy hv)
      · exact .inl (.firstDeclared htype htruthy hv hvisibility)
    case h_6 htype =>
      obtain ⟨htruthy, hv, rfl⟩ := importPath_eq_error_iff.mp (bind_pure_eq_error_iff.mp h)
      exact .inl (.path htype htruthy hv)
    case h_7 items htype | h_8 items htype =>
      have hkind := Offends.kind (n := n) (by rw [htype]; simp [Value.kind])
      rw [htype] at hkind
      obtain rfl := Except.error.inj h
      exact .inl hkind
    case h_9 => cases h
  · rintro (h | ⟨h, rfl⟩)
    · cases h with
      | kind hv => generalize Fields.get "type" n = v at hv ⊢; cases v <;> simp_all [Value.kind]
      | path htype htruthy hv =>
        rw [htype]
        exact bind_pure_eq_error_iff.mpr (importPath_eq_error_iff.mpr ⟨htruthy, hv, rfl⟩)
      | declared htype htruthy hv =>
        rw [htype]
        exact bind_pure_eq_error_iff.mpr
          (variableFacts_eq_error_iff.mpr ⟨htruthy, .inl ⟨hv, rfl⟩⟩)
      | firstDeclared htype htruthy hv hvisibility =>
        rw [htype]
        exact bind_pure_eq_error_iff.mpr
          (variableFacts_eq_error_iff.mpr ⟨htruthy, .inr ⟨hv, hvisibility, rfl⟩⟩)
    · cases h with
      | parameters htype h =>
        rcases htype with htype | htype | htype
        · rw [htype]
          exact bind_pure_eq_error_iff.mpr (function_eq_error_iff.mpr ⟨rfl, .inl h⟩)
        · rw [htype]
          exact bind_pure_eq_error_iff.mpr (signature_eq_error_iff.mpr ⟨rfl, h⟩)
        · rw [htype]
          exact bind_pure_eq_error_iff.mpr (signature_eq_error_iff.mpr ⟨rfl, h⟩)
      | returns htype h =>
        rw [htype]
        exact bind_pure_eq_error_iff.mpr (function_eq_error_iff.mpr ⟨rfl, .inr h⟩)

/-! ## A whole outline -/

/-- The first of the nodes with an outcome has this one. -/
def First {ε : Type} (r : Fields → ε → Prop) (nodes : List Fields) (e : ε) : Prop :=
  ∃ before n after, nodes = before ++ n :: after ∧ (∀ m ∈ before, ∀ e', ¬ r m e') ∧ r n e

section First

variable {ε : Type} {r r' : Fields → ε → Prop} {nodes : List Fields} {e : ε}

/-- The first outcome among a node and others. -/
lemma first_cons {n : Fields} :
    First r (n :: nodes) e ↔ r n e ∨ (∀ e', ¬ r n e') ∧ First r nodes e := by
  constructor
  · rintro ⟨before, m, after, hnodes, hbefore, hm⟩
    cases before with
    | nil =>
      obtain ⟨rfl, -⟩ := List.cons.inj hnodes
      exact .inl hm
    | cons k before =>
      obtain ⟨rfl, hrest⟩ := List.cons.inj hnodes
      exact .inr ⟨hbefore n (by simp), before, m, after, hrest,
        fun k hk => hbefore k (by simp [hk]), hm⟩
  · rintro (hn | ⟨hn, before, m, after, rfl, hbefore, hm⟩)
    · exact ⟨[], n, nodes, rfl, by simp, hn⟩
    · refine ⟨n :: before, m, after, rfl, ?_, hm⟩
      intro k hk
      rcases List.mem_cons.mp hk with rfl | hk
      · exact hn
      · exact hbefore k hk

/-- The first outcome when each of them is turned into another. -/
lemma first_map_iff {ε' : Type} {q : Fields → ε' → Prop} {g : ε → ε'}
    (h : ∀ n e', q n e' ↔ ∃ e, r n e ∧ e' = g e) {e' : ε'} :
    First q nodes e' ↔ ∃ e, First r nodes e ∧ e' = g e := by
  have hnone (n : Fields) : (∀ e', ¬ q n e') ↔ ∀ e, ¬ r n e := by
    simp only [h, not_exists, not_and]
    exact ⟨fun hq e he => hq (g e) e he rfl, fun hr e' e he _ => hr e he⟩
  induction nodes with
  | nil => simp [First]
  | cons n nodes ih =>
    rw [first_cons, hnone]
    simp only [first_cons, ih, h]
    constructor
    · rintro (⟨e, he, rfl⟩ | ⟨hn, e, he, rfl⟩)
      · exact ⟨e, .inl he, rfl⟩
      · exact ⟨e, .inr ⟨hn, he⟩, rfl⟩
    · rintro ⟨e, he | ⟨hn, he⟩, rfl⟩
      · exact .inl ⟨e, he, rfl⟩
      · exact .inr ⟨hn, e, he, rfl⟩

end First

/-- A run of visits fails with the fault of the first node that stops it. -/
lemma foldlM_visit_eq_error_iff {nodes : List Fields} :
    nodes.foldlM visit s = .error f ↔ First Fails nodes f := by
  induction nodes generalizing s with
  | nil => exact iff_of_false nofun (by rintro ⟨before, n, after, hnodes, -⟩; simp at hnodes)
  | cons first rest ih =>
    rw [List.foldlM_cons, first_cons, bind_eq_error_iff, visit_eq_error_iff]
    refine or_congr_right ?_
    constructor
    · rintro ⟨s', hs', hrest⟩
      refine ⟨fun g hg => ?_, ih.mp hrest⟩
      rw [visit_eq_error_iff.mpr hg] at hs'
      cases hs'
    · rintro ⟨hfirst, hrest⟩
      cases hvisit : visit s first with
      | error g => exact absurd (visit_eq_error_iff.mp hvisit) (hfirst g)
      | ok s' => exact ⟨s', rfl, ih.mpr hrest⟩

lemma facts_eq_error_iff {tree : Value} (hk : tree.DistinctKeys) :
    facts tree = .error f ↔ First Fails tree.objects f := by
  rw [← foldlM_visit_eq_error_iff (s := ⟨.empty, false⟩), facts, walk_eq_foldlM tree _ hk]
  exact bind_pure_eq_error_iff

/-- No type overflows where all integers can be written. -/
lemma not_overflows {n : Fields} (h : (Value.object n).hasLong = false) : ¬ Overflows n := by
  rintro (⟨-, hgiven⟩ | ⟨-, hreturns⟩)
  · exact not_unlabelled (hasLong_get h) hgiven
  · exact not_unlabelled (hasLong_get h) hreturns

end Collect

namespace ContractFacts

open Collect

/-! ## Sources with an outline -/

/-- The nodes for which the parser gives up, each with what it makes of them. -/
inductive Refuses (n : Fields) : ParseFault → Prop
  | offends {f : Fault} (h : Offends n f) : Refuses n (.shape f)
  | overflows (h : Overflows n) : Refuses n (.escaped .unwritableInteger)

lemma refuses_iff {n : Fields} {e : ParseFault} :
    Refuses n e ↔ ∃ f, Fails n f ∧ e = .ofFault f := by
  have hshape {f : Fault} (h : Offends n f) : ParseFault.ofFault f = .shape f := by
    cases h <;> rfl
  constructor
  · rintro (h | h)
    · exact ⟨_, .inl h, (hshape h).symm⟩
    · exact ⟨_, .inr ⟨h, rfl⟩, rfl⟩
  · rintro ⟨f, h | ⟨h, rfl⟩, rfl⟩
    · rw [hshape h]
      exact .offends h
    · exact .overflows h

lemma ofOutline_eq_error_iff {tree : Value} (hk : tree.DistinctKeys) {e : ParseFault} :
    ofOutline tree = .error e ↔ First Refuses tree.objects e := by
  rw [first_map_iff (q := Refuses) fun _ _ => refuses_iff]
  simp only [← facts_eq_error_iff hk, ofOutline]
  cases facts tree with
  | error f =>
    show Except.error (ParseFault.ofFault f) = _ ↔ _
    simp only [Except.error.injEq, exists_eq_left']
    exact eq_comm
  | ok g => exact iff_of_false nofun (by simp)

/-- In an outline that has a JSON text, only the nodes of a wrong shape are refused. -/
lemma refuses_of_writable {tree : Value} (h : tree.hasLong = false) {n : Fields}
    (hn : n ∈ tree.objects) (e : ParseFault) :
    Refuses n e ↔ ∃ f, Offends n f ∧ e = .shape f := by
  constructor
  · rintro (hoffends | hoverflows)
    · exact ⟨_, hoffends, rfl⟩
    · exact absurd hoverflows (not_overflows (Value.hasLong_of_mem_objects tree h hn))
  · rintro ⟨f, hf, rfl⟩
    exact .offends hf

/-- No fault escapes from the parser of a source. -/
lemma parse_ne_escaped (source : Option String) (f : Fault) :
    parse source ≠ .error (.escaped f) := by
  intro h
  cases source with
  | none => cases h
  | some s =>
    rcases bind_eq_error_iff.mp h with houtline | ⟨tree, houtline, hfacts⟩
    · simp only [grammarOutline, outline] at houtline
      split at houtline
      · cases houtline
      · split at houtline <;> cases houtline
    · obtain ⟨items, -, -, rfl⟩ := outline_eq_ok.mp houtline
      have hk := Solidity.outline_distinctKeys items
      obtain ⟨before, n, after, hnodes, -, hn⟩ := (ofOutline_eq_error_iff hk).mp hfacts
      have hmem : n ∈ (Solidity.outline items).objects := by rw [hnodes]; simp
      obtain ⟨g, -, hg⟩ := (refuses_of_writable (Solidity.hasLong_outline items) hmem _).mp hn
      cases hg

/-- The facts of a source, or the cautious record, are always there. -/
theorem parseOrFallbackBy_grammarOutline (source : Option String) :
    parseOrFallbackBy grammarOutline source = .ok (parseOrFallback source) := by
  have hparsed : parseBy grammarOutline source = parse source := rfl
  rw [parseOrFallbackBy, parseOrFallback, hparsed]
  cases hparse : parse source with
  | ok facts => rfl
  | error e =>
    cases e with
    | escaped f => exact absurd hparse (parse_ne_escaped source f)
    | noSource | syntaxAt | defect | shape => rfl

end ContractFacts

end SolidityAudit
