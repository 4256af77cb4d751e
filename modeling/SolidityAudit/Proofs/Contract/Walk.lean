import Mathlib.Data.List.Nodup
import SolidityAudit.Contract.Parse
import SolidityAudit.Proofs.Contract.Visitors

/-!
# The facts of an outline, node by node

The walk through an outline carries the facts collected so far and a flag. Here it is compared with
the list of all nodes of the outline, each before those inside it:

* the walk visits exactly the nodes of the list, in its order (`walk_eq_foldlM`);
* after any run of visits the facts are those of the nodes seen so far, sorted by their kind
  (`Collected`), so that the flag and the order of the visits leave no trace;
* whether a node can be visited does not depend on what has been collected (`visit_isOk`).
-/

namespace SolidityAudit

/-! ## Nodes -/

namespace Value

mutual

/-- All objects in a value, each before those inside it. -/
def objects : Value → List Fields
  | object fields => fields :: objectsInFields fields
  | list items => objectsInItems items
  | _ => []

/-- All objects in the items of a list. -/
def objectsInItems : List Value → List Fields
  | [] => []
  | v :: rest => objects v ++ objectsInItems rest

/-- All objects in the fields of an object. -/
def objectsInFields : List (String × Value) → List Fields
  | [] => []
  | (_, v) :: rest => objects v ++ objectsInFields rest

end

/-- Every object in the value has each of its keys once. -/
def DistinctKeys (v : Value) : Prop :=
  ∀ n ∈ v.objects, (n.map Prod.fst).Nodup

mutual

/-- The objects in a value can be written if the value can. -/
lemma hasLong_of_mem_objects (v : Value) (h : v.hasLong = false) {n : Fields}
    (hn : n ∈ v.objects) : (object n).hasLong = false := by
  match v with
  | .object fields =>
    rw [objects, List.mem_cons] at hn
    rcases hn with rfl | hn
    · exact h
    · exact hasLong_of_mem_objectsInFields fields h hn
  | .list items => exact hasLong_of_mem_objectsInItems items h hn
  | .null | .bool _ | .int _ | .float _ | .str _ => cases hn

lemma hasLong_of_mem_objectsInItems (items : List Value) (h : (list items).hasLong = false)
    {n : Fields} (hn : n ∈ objectsInItems items) : (object n).hasLong = false := by
  match items with
  | [] => cases hn
  | v :: rest =>
    rw [hasLong_list, List.any_cons, Bool.or_eq_false_iff] at h
    rcases List.mem_append.mp hn with hn | hn
    · exact hasLong_of_mem_objects v h.1 hn
    · exact hasLong_of_mem_objectsInItems rest (by rw [hasLong_list, h.2]) hn

lemma hasLong_of_mem_objectsInFields (fields : Fields) (h : (object fields).hasLong = false)
    {n : Fields} (hn : n ∈ objectsInFields fields) : (object n).hasLong = false := by
  match fields with
  | [] => cases hn
  | (_, v) :: rest =>
    rw [hasLong_object, List.any_cons, Bool.or_eq_false_iff] at h
    rcases List.mem_append.mp hn with hn | hn
    · exact hasLong_of_mem_objects v h.1 hn
    · exact hasLong_of_mem_objectsInFields rest (by rw [hasLong_object, h.2]) hn

end

end Value

/-- Whether a node is of the kind. -/
def Fields.isOf (kind : String) (n : Fields) : Bool :=
  match Fields.get "type" n with
  | .str s => s == kind
  | _ => false

namespace Collect

/-- The nodes of a kind. -/
def ofKind (kind : String) (nodes : List Fields) : List Fields :=
  nodes.filter (Fields.isOf kind)

/-- The name that the nodes of contracts give to a file. -/
def nameOfFirst (contracts : List Fields) : Value :=
  match contracts.head? with
  | some n => (Fields.get "name" n).orElse (.str ContractFacts.unknownName)
  | none => .str ContractFacts.unknownName

@[simp] lemma ofKind_append (kind : String) (ns ms : List Fields) :
    ofKind kind (ns ++ ms) = ofKind kind ns ++ ofKind kind ms :=
  List.filter_append ..

/-! ## The order of the visits -/

/-- A node that can be visited holds neither a list nor an object as its kind. -/
lemma objects_type_of_visit {s s' : State} {n : Fields} (h : visit s n = .ok s') :
    (Fields.get "type" n).objects = [] := by
  unfold visit at h
  split at h <;> simp_all [Value.objects]

/-- Under a key that stands once in an object, there is the value found under it. -/
lemma get_eq_of_mem {n : Fields} (hn : (n.map Prod.fst).Nodup) {k : String} {v : Value}
    (h : (k, v) ∈ n) : Fields.get k n = v := by
  induction n with
  | nil => simp at h
  | cons f rest ih =>
    obtain ⟨hf, hrest⟩ := List.nodup_cons.mp hn
    rcases List.mem_cons.mp h with rfl | hmem
    · simp [Fields.get, fieldOf]
    · have hne : k ≠ f.1 := by
        rintro rfl
        exact hf (List.mem_map.mpr ⟨_, hmem, rfl⟩)
      have hlookup : List.lookup k (f :: rest) = List.lookup k rest := by
        obtain ⟨l, w⟩ := f
        rw [List.lookup_cons, beq_false_of_ne hne]
      rw [Fields.get, fieldOf, hlookup]
      exact ih hrest hmem

mutual

/-- The walk visits the objects of a value in their order. -/
theorem walk_eq_foldlM (v : Value) (s : State) (hv : v.DistinctKeys) :
    walk s v = v.objects.foldlM visit s := by
  match v with
  | .object fields =>
    rw [walk, Value.objects, List.foldlM_cons]
    cases hs : visit s fields with
    | error f => rfl
    | ok s' =>
      -- what stands under `type` is passed over by the walk, and holds no object
      have hnodup : (fields.map Prod.fst).Nodup := hv fields (by simp [Value.objects])
      have htype : ∀ v, ("type", v) ∈ fields → v.objects = [] := by
        intro v hmem
        rw [← get_eq_of_mem hnodup hmem]
        exact objects_type_of_visit hs
      exact walkFields_eq_foldlM fields s' htype fun n hn => hv n (by simp [Value.objects, hn])
  | .list items =>
    rw [walk, Value.objects]
    exact walkItems_eq_foldlM items s fun n hn => hv n (by simpa [Value.objects] using hn)
  | .null | .bool _ | .int _ | .float _ | .str _ => rfl

theorem walkItems_eq_foldlM (items : List Value) (s : State)
    (hv : ∀ n ∈ Value.objectsInItems items, (n.map Prod.fst).Nodup) :
    walkItems s items = (Value.objectsInItems items).foldlM visit s := by
  match items with
  | [] => rfl
  | v :: rest =>
    simp only [Value.objectsInItems, List.mem_append] at hv
    rw [walkItems, Value.objectsInItems, List.foldlM_append,
      walk_eq_foldlM v s fun n hn => hv n (.inl hn)]
    cases v.objects.foldlM visit s with
    | error f => rfl
    | ok s' => exact walkItems_eq_foldlM rest s' fun n hn => hv n (.inr hn)

theorem walkFields_eq_foldlM (fields : List (String × Value)) (s : State)
    (htype : ∀ v, ("type", v) ∈ fields → v.objects = [])
    (hv : ∀ n ∈ Value.objectsInFields fields, (n.map Prod.fst).Nodup) :
    walkFields s fields = (Value.objectsInFields fields).foldlM visit s := by
  match fields with
  | [] => rfl
  | (k, v) :: rest =>
    simp only [Value.objectsInFields, List.mem_append] at hv
    have hrest : ∀ v, ("type", v) ∈ rest → v.objects = [] :=
      fun v hmem => htype v (List.mem_cons_of_mem _ hmem)
    rw [walkFields, Value.objectsInFields, List.foldlM_append]
    by_cases hk : k = "type"
    · subst hk
      rw [if_pos rfl, htype v List.mem_cons_self]
      exact walkFields_eq_foldlM rest s hrest fun n hn => hv n (.inr hn)
    · rw [if_neg hk, walk_eq_foldlM v s fun n hn => hv n (.inl hn)]
      cases v.objects.foldlM visit s with
      | error f => rfl
      | ok s' => exact walkFields_eq_foldlM rest s' hrest fun n hn => hv n (.inr hn)

end

/-! ## What the visits amount to -/

/-- The state holds the facts of the nodes, kind by kind. -/
structure Collected (nodes : List Fields) (s : State) : Prop where
  functions : (ofKind "FunctionDefinition" nodes).map function = s.facts.functions.map .ok
  events : (ofKind "EventDefinition" nodes).map signature = s.facts.events.map .ok
  modifiers : (ofKind "ModifierDefinition" nodes).map signature = s.facts.modifiers.map .ok
  stateVariables : (ofKind "StateVariableDeclaration" nodes).map variableFacts =
    s.facts.stateVariables.map .ok
  imports : (ofKind "ImportDirective" nodes).map importPath = s.facts.imports.map .ok
  name : s.facts.name = nameOfFirst (ofKind "ContractDefinition" nodes)
  named : s.named = !(ofKind "ContractDefinition" nodes).isEmpty

lemma collected_nil : Collected [] ⟨.empty, false⟩ := by
  constructor <;> rfl

/-- One more node is the last of its kind and of no other kind. -/
lemma ofKind_push {nodes : List Fields} {n : Fields} {k : String}
    (h : Fields.get "type" n = .str k) (kind : String) :
    ofKind kind (nodes ++ [n]) =
      if k = kind then ofKind kind nodes ++ [n] else ofKind kind nodes := by
  have hkind : Fields.isOf kind n = (k == kind) := by simp [Fields.isOf, h]
  by_cases hk : k = kind <;> simp [ofKind, hkind, hk]

/-- A node without a kind of its own changes no list. -/
lemma ofKind_push_other {nodes : List Fields} {n : Fields} {kind : String}
    (h : Fields.get "type" n = .str kind → False) :
    ofKind kind (nodes ++ [n]) = ofKind kind nodes := by
  have hkind : Fields.isOf kind n = false := by
    cases htype : Fields.get "type" n with
    | str k =>
      have hne : k ≠ kind := by
        rintro rfl
        exact h htype
      simp [Fields.isOf, htype, hne]
    | _ => simp [Fields.isOf, htype]
  simp [ofKind, hkind]

/-- One more visit adds the facts of its node. -/
lemma Collected.visit {nodes : List Fields} {s s' : State} {n : Fields} (hs : Collected nodes s)
    (h : visit s n = .ok s') : Collected (nodes ++ [n]) s' := by
  obtain ⟨hf, he, hm, hv, hi, hname, hnamed⟩ := hs
  unfold Collect.visit at h
  split at h
  case h_1 htype =>
    -- only the first contract gives its name
    cases hnodes : ofKind "ContractDefinition" nodes with
    | nil =>
      rw [hnodes] at hnamed hname
      obtain rfl : _ = s' := by simpa [hnamed] using h
      constructor <;> simp [ofKind_push htype, nameOfFirst, *]
    | cons first rest =>
      rw [hnodes] at hnamed hname
      obtain rfl : _ = s' := by simpa [hnamed] using h
      constructor <;> simp [ofKind_push htype, nameOfFirst, *]
  case h_2 htype | h_3 htype | h_4 htype | h_5 htype | h_6 htype =>
    obtain ⟨fact, hfact, ⟨⟩⟩ := bind_eq_ok_iff.mp h
    constructor <;> simp [ofKind_push htype, *]
  case h_7 | h_8 => cases h
  case h_9 hc hfn hev hmod hvar himp hlist hobj =>
    obtain rfl := Except.ok.inj h
    constructor <;> simp [ofKind_push_other hc, ofKind_push_other hfn, ofKind_push_other hev,
      ofKind_push_other hmod, ofKind_push_other hvar, ofKind_push_other himp, *]

/-- A run of visits adds the facts of its nodes. -/
lemma Collected.foldlM {nodes more : List Fields} {s s' : State} (hs : Collected nodes s)
    (h : more.foldlM Collect.visit s = .ok s') : Collected (nodes ++ more) s' := by
  induction more generalizing nodes s with
  | nil =>
    obtain rfl : s = s' := by simpa [pure, Except.pure] using h
    simpa using hs
  | cons n rest ih =>
    rw [List.foldlM_cons] at h
    cases hn : Collect.visit s n with
    | error f => rw [hn] at h; cases h
    | ok t =>
      rw [hn] at h
      have := ih (hs.visit hn) h
      rwa [List.append_assoc] at this

/-- Whether a node can be visited does not depend on the facts so far. -/
lemma visit_ok_of_ok {s s' : State} {n : Fields} (h : Collect.visit s n = .ok s') (t : State) :
    ∃ t', Collect.visit t n = .ok t' := by
  unfold Collect.visit at h ⊢
  split at h
  case h_1 => split <;> exact ⟨_, rfl⟩
  case h_2 | h_3 | h_4 | h_5 | h_6 =>
    obtain ⟨fact, hfact, -⟩ := bind_eq_ok_iff.mp h
    rw [hfact]
    exact ⟨_, rfl⟩
  case h_7 | h_8 => cases h
  case h_9 => exact ⟨_, rfl⟩

/-- Nodes that can be visited in one state can be visited in any. -/
lemma foldlM_ok_of_ok {nodes : List Fields} {s s' : State}
    (h : nodes.foldlM Collect.visit s = .ok s') (t : State) :
    ∃ t', nodes.foldlM Collect.visit t = .ok t' := by
  induction nodes generalizing s t with
  | nil => exact ⟨t, rfl⟩
  | cons n rest ih =>
    rw [List.foldlM_cons] at h ⊢
    cases hn : Collect.visit s n with
    | error f => rw [hn] at h; cases h
    | ok u =>
      -- the two runs go on in different states, but both go on
      rw [hn] at h
      obtain ⟨v, hv⟩ := visit_ok_of_ok hn t
      rw [hv]
      exact ih h v

/-- The facts of an outline are those collected from its nodes, and the estimate that follows. -/
lemma collected_of_facts {tree : Value} {f : ContractFacts} (hk : tree.DistinctKeys)
    (h : facts tree = .ok f) :
    ∃ s, tree.objects.foldlM Collect.visit ⟨.empty, false⟩ = .ok s ∧ Collected tree.objects s ∧
      f = { s.facts with complexity := s.facts.estimate } := by
  rw [facts, walk_eq_foldlM tree _ hk] at h
  cases hs : tree.objects.foldlM Collect.visit ⟨.empty, false⟩ with
  | error f => rw [hs] at h; cases h
  | ok s =>
    rw [hs] at h
    have hc := collected_nil.foldlM hs
    rw [List.nil_append] at hc
    exact ⟨s, rfl, hc, (Except.ok.inj h).symm⟩

/-- The visibility of a function is one of the known ones. -/
lemma function_visibility {n : Fields} {g : FunctionFacts} (h : function n = .ok g) :
    ∃ name ∈ visibilities, g.visibility = .str name := by
  obtain ⟨-, hvisibility, -⟩ := function_eq_ok_iff.mp h
  rw [hvisibility]
  rcases visibilityOf_cases n with ⟨name, hname, -, hknown⟩ | ⟨-, hunknown⟩
  · exact ⟨name, hname, hknown⟩
  · exact ⟨"default", by simp [visibilities], hunknown⟩

end Collect

/-- An outline that can be read gives the facts of its nodes, kind by kind and each in the order of
the outline. The first contract gives the name, the numbers of the nodes give the complexity. -/
theorem ofOutline_eq_images {tree : Value} {f : ContractFacts} (hk : tree.DistinctKeys)
    (h : ContractFacts.ofOutline tree = .ok f) :
    let nodes (kind : String) : List Fields := Collect.ofKind kind tree.objects
    f.functions.map .ok = (nodes "FunctionDefinition").map Collect.function ∧
    f.events.map .ok = (nodes "EventDefinition").map Collect.signature ∧
    f.modifiers.map .ok = (nodes "ModifierDefinition").map Collect.signature ∧
    f.stateVariables.map .ok = (nodes "StateVariableDeclaration").map Collect.variableFacts ∧
    f.imports.map .ok = (nodes "ImportDirective").map Collect.importPath ∧
    f.name = Collect.nameOfFirst (nodes "ContractDefinition") ∧
    (∀ g ∈ f.functions, ∃ name ∈ Collect.visibilities, g.visibility = .str name) ∧
    f.complexity = .ofWeight (2 * (nodes "FunctionDefinition").length
      + (nodes "StateVariableDeclaration").length + (nodes "EventDefinition").length
      + (nodes "ModifierDefinition").length + 3 * (nodes "ImportDirective").length) := by
  dsimp only
  have hfacts : Collect.facts tree = .ok f := by
    unfold ContractFacts.ofOutline at h
    cases hf : Collect.facts tree with
    | error e => rw [hf] at h; cases h
    | ok g => rw [hf] at h; cases h; rfl
  obtain ⟨s, -, hs, rfl⟩ := Collect.collected_of_facts hk hfacts
  refine ⟨hs.functions.symm, hs.events.symm, hs.modifiers.symm, hs.stateVariables.symm,
    hs.imports.symm, hs.name, ?_, ?_⟩
  · intro g hg
    have hfound : .ok g ∈ s.facts.functions.map (Except.ok (ε := Fault)) := List.mem_map_of_mem hg
    rw [← hs.functions] at hfound
    obtain ⟨n, -, hn⟩ := List.mem_map.mp hfound
    exact Collect.function_visibility hn
  · have hfunctions := congrArg List.length hs.functions
    have hevents := congrArg List.length hs.events
    have hmodifiers := congrArg List.length hs.modifiers
    have hvariables := congrArg List.length hs.stateVariables
    have himports := congrArg List.length hs.imports
    refine congrArg Complexity.ofWeight ?_
    show s.facts.weight = _
    simp only [List.length_map] at hfunctions hevents hmodifiers hvariables himports
    rw [ContractFacts.weight, hfunctions, hevents, hmodifiers, hvariables, himports]
    omega

/-- The node of a parameter that is a list of addresses. -/
def receiversNode : Value :=
  .object
    [("type", .str "Parameter"), ("name", .str "receivers"),
     ("typeName", .object
      [("type", .str "ArrayTypeName"),
       ("baseTypeName", .object
        [("type", .str "ElementaryTypeName"), ("name", .str "address")])])]

/-- An outline with a nameless contract, an event inside a function with a parameter, and a second
contract. -/
def nestedOutline : Value :=
  .list
    [.object [("name", .str ""), ("type", .str "ContractDefinition"),
       ("subNodes", .list
        [.object [("type", .str "FunctionDefinition"), ("name", .str "pay"),
           ("visibility", .str "hidden"),
           ("parameters", .object [("parameters", .list [receiversNode])]),
           ("body", .object [("type", .str "EventDefinition"), ("name", .int 7)])]])],
     .object [("type", .str "ContractDefinition"), ("name", .str "B")],
     .object [("path", .str "\"a.sol\""), ("type", .str "ImportDirective")]]

theorem nestedOutline_images :
    nestedOutline.DistinctKeys ∧ ∃ f, ContractFacts.ofOutline nestedOutline = .ok f ∧
      f.name = .str "Unknown" ∧
      f.functions = [⟨.str "pay", .str "default", .null,
        [⟨.str "receivers", .str "address[]"⟩], []⟩] ∧
      f.events = [⟨.int 7, []⟩] ∧ f.imports = [.str "a.sol"] ∧ f.complexity = .low := by
  have hk : nestedOutline.DistinctKeys := by
    simp [nestedOutline, receiversNode, Value.DistinctKeys, Value.objects, Value.objectsInFields,
      Value.objectsInItems]
  obtain ⟨f, hf⟩ : ∃ f, ContractFacts.ofOutline nestedOutline = .ok f := ⟨_, rfl⟩
  obtain ⟨hfunctions, hevents, -, -, himports, hname, -, hcomplexity⟩ := ofOutline_eq_images hk hf
  exact ⟨hk, f, hf, hname.trans rfl, map_ok_injective (hfunctions.trans rfl),
    map_ok_injective (hevents.trans rfl), map_ok_injective (himports.trans rfl),
    hcomplexity.trans rfl⟩

end SolidityAudit
