import SolidityAudit.Proofs.Contract.Walk
import SolidityAudit.Solidity.Outline

/-!
# The nodes of an outline

An outline has the nodes of one item after those of the other (`ofKind_outline_append`). All of its
nodes have each key once (`outline_distinctKeys`), and no integer in them is too long to be written
(`hasLong_outline`). There is a contract among them if some item is one (`ofKind_contract_eq_nil`):
the nodes inside an item of any other kind, and those inside a contract, are no contracts.
-/

namespace SolidityAudit

namespace Value

/-- All objects in the value have the property. -/
def Every (p : Fields → Prop) (v : Value) : Prop :=
  ∀ n ∈ v.objects, p n

section Every

variable {p q : Fields → Prop}

lemma Every.mono {v : Value} (h : v.Every p) (hpq : ∀ n, p n → q n) : v.Every q :=
  fun n hn => hpq n (h n hn)

@[simp] lemma every_null : (null).Every p := by simp [Every, objects]

@[simp] lemma every_str (s : String) : (str s).Every p := by simp [Every, objects]

lemma mem_objectsInItems {n : Fields} {items : List Value} :
    n ∈ objectsInItems items ↔ ∃ v ∈ items, n ∈ v.objects := by
  induction items with
  | nil => simp [objectsInItems]
  | cons v rest ih => simp [objectsInItems, ih]

lemma mem_objectsInFields {n : Fields} {fields : Fields} :
    n ∈ objectsInFields fields ↔ ∃ f ∈ fields, n ∈ f.2.objects := by
  induction fields with
  | nil => simp [objectsInFields]
  | cons f rest ih => simp [objectsInFields, ih]

lemma every_list {items : List Value} : (list items).Every p ↔ ∀ v ∈ items, v.Every p := by
  simp only [Every, objects, mem_objectsInItems]
  constructor
  · exact fun h v hv n hn => h n ⟨v, hv, hn⟩
  · rintro h n ⟨v, hv, hn⟩
    exact h v hv n hn

lemma every_object {fields : Fields} :
    (object fields).Every p ↔ p fields ∧ ∀ f ∈ fields, f.2.Every p := by
  simp only [Every, objects, List.forall_mem_cons, mem_objectsInFields]
  refine and_congr_right fun _ => ⟨fun h f hf n hn => h n ⟨f, hf, hn⟩, ?_⟩
  rintro h n ⟨f, hf, hn⟩
  exact h f hf n hn

end Every

/-- The node has each of its keys once and is no contract. -/
def PlainNode (n : Fields) : Prop :=
  (n.map Prod.fst).Nodup ∧ n.isOf "ContractDefinition" = false

/-- All objects in the value are plain nodes, and no integer in it is too long to be written. -/
structure IsPlain (v : Value) : Prop where
  nodes : v.Every PlainNode
  writable : v.hasLong = false

@[simp] lemma isPlain_null : (null).IsPlain := ⟨every_null, rfl⟩

@[simp] lemma isPlain_str (s : String) : (str s).IsPlain := ⟨every_str s, rfl⟩

lemma isPlain_list {items : List Value} : (list items).IsPlain ↔ ∀ v ∈ items, v.IsPlain := by
  constructor
  · rintro ⟨hnodes, hwritable⟩ v hv
    rw [hasLong_list, List.any_eq_false] at hwritable
    exact ⟨every_list.mp hnodes v hv, eq_false_of_ne_true (hwritable v hv)⟩
  · intro h
    refine ⟨every_list.mpr fun v hv => (h v hv).nodes, ?_⟩
    rw [hasLong_list, List.any_eq_false]
    exact fun v hv => ne_true_of_eq_false (h v hv).writable

/-- An object of plain values can be written. -/
lemma hasLong_of_isPlain {fields : Fields} (h : ∀ f ∈ fields, f.2.IsPlain) :
    (object fields).hasLong = false := by
  rw [hasLong_object, List.any_eq_false]
  exact fun f hf => ne_true_of_eq_false (h f hf).writable

lemma isPlain_object {fields : Fields} (hnode : PlainNode fields) (h : ∀ f ∈ fields, f.2.IsPlain) :
    (object fields).IsPlain :=
  ⟨every_object.mpr ⟨hnode, fun f hf => (h f hf).nodes⟩, hasLong_of_isPlain h⟩

end Value

open Value

namespace Solidity

lemma isOf_outlineNode (kind k : String) (fields : Fields) :
    Fields.isOf kind (("type", .str k) :: fields) = (k == kind) := rfl

/-- A node is plain if it is of another kind and what it holds is plain. -/
lemma plain_outlineNode {kind : String} {fields : Fields} (hkind : kind ≠ "ContractDefinition")
    (hkeys : ("type" :: fields.map Prod.fst).Nodup) (hfields : ∀ f ∈ fields, f.2.IsPlain) :
    (outlineNode kind fields).IsPlain := by
  refine isPlain_object ⟨hkeys, ?_⟩ (List.forall_mem_cons.mpr ⟨isPlain_str kind, hfields⟩)
  rw [isOf_outlineNode]
  exact beq_false_of_ne hkind

lemma plain_textOrNull (s : Option String) : (textOrNull s).IsPlain := by
  cases s with
  | none => exact isPlain_null
  | some s => exact isPlain_str s

namespace Tree

lemma plain_arrayOf {base : Value} (h : base.IsPlain) (n : Nat) :
    (arrayOf base n).IsPlain := by
  induction n with
  | zero => exact h
  | succ n ih => exact plain_outlineNode (by decide) (by simp) (by simpa using ih)

mutual

lemma plain_typeNode (t : Tree) : (typeNode t).IsPlain := by
  match t with
  | .leaf _ => exact plain_outlineNode (by decide) (by simp) (by simp)
  | .node c children =>
    have hchildren := plain_typeNodes children
    cases c
    case elementaryTypeName => exact plain_outlineNode (by decide) (by simp) (by simp)
    case userDefinedTypeName => exact plain_outlineNode (by decide) (by simp) (by simp)
    case functionTypeName => exact plain_outlineNode (by decide) (by simp) (by simp)
    case mapping =>
      rw [typeNode]
      split
      · next key value hnodes =>
        rw [hnodes] at hchildren
        exact plain_outlineNode (by decide) (by simp) (by simpa using hchildren)
      · exact isPlain_null
    case typeName =>
      match children with
      | [] => exact isPlain_null
      | .leaf _ :: _ => exact plain_arrayOf (plain_outlineNode (by decide) (by simp) (by simp)) _
      | .node _ _ :: _ => exact plain_arrayOf (hchildren _ List.mem_cons_self) _
    -- no other phrase is a type
    all_goals exact isPlain_null

lemma plain_typeNodes (ts : List Tree) : ∀ v ∈ typeNodes ts, v.IsPlain := by
  match ts with
  | [] => simp [typeNodes]
  | .leaf _ :: ts => exact plain_typeNodes ts
  | .node c children :: ts =>
    exact List.forall_mem_cons.mpr ⟨plain_typeNode (.node c children), plain_typeNodes ts⟩

end

lemma plain_parameterNode (t : Tree) : t.parameterNode.IsPlain := by
  have htype : (((t.part? .typeName).map typeNode).getD .null).IsPlain := by
    cases t.part? .typeName with
    | none => exact isPlain_null
    | some name => exact plain_typeNode name
  exact plain_outlineNode (by decide) (by simp) (by simpa using ⟨htype, plain_textOrNull _⟩)

lemma plain_parameterNodes (list item : Category) (t : Tree) :
    (parameterNodes list item t).IsPlain := by
  rw [parameterNodes]
  split
  · refine isPlain_list.mpr fun v hv => ?_
    obtain ⟨parameter, -, rfl⟩ := List.mem_map.mp hv
    exact plain_parameterNode parameter
  · exact isPlain_list.mpr (by simp)

lemma plain_functionNode (t : Tree) : t.functionNode.IsPlain := by
  have hreturns : (((t.part? .returnParameters).map
      (parameterNodes .parameterList .parameter)).getD (.list [])).IsPlain := by
    cases t.part? .returnParameters with
    | none => exact isPlain_list.mpr (by simp)
    | some returns => exact plain_parameterNodes _ _ returns
  have hparameters := plain_parameterNodes .parameterList .parameter t
  exact plain_outlineNode (by decide) (by simp)
    (by simpa using ⟨hparameters, hreturns, plain_textOrNull _⟩)

lemma plain_stateVariableNode (t : Tree) : t.stateVariableNode.IsPlain := by
  refine plain_outlineNode (by decide) (by simp) ?_
  simp only [List.forall_mem_singleton, isPlain_list]
  exact plain_outlineNode (by decide) (by simp) (by simpa using plain_textOrNull _)

/-- An event or a modifier. -/
lemma plain_signatureNode {kind : String} (hkind : kind ≠ "ContractDefinition")
    (list item : Category) (t : Tree) :
    (outlineNode kind [("name", textOrNull t.name?),
      ("parameters", parameterNodes list item t)]).IsPlain :=
  plain_outlineNode hkind (by simp)
    (by simpa using ⟨plain_textOrNull _, plain_parameterNodes list item t⟩)

lemma plain_contractPartNode {t : Tree} {v : Value} (h : t.contractPartNode? = some v) :
    v.IsPlain := by
  unfold contractPartNode? at h
  split at h
  · cases h
    exact plain_stateVariableNode _
  · cases h
    exact plain_functionNode _
  · cases h
    exact plain_signatureNode (by decide) _ _ _
  · cases h
    exact plain_signatureNode (by decide) _ _ _
  · cases h

lemma plain_importNode (t : Tree) : t.importNode.IsPlain :=
  plain_outlineNode (by decide) (by simp) (by simp)

/-- A contract is the only one among its nodes. -/
lemma contractNode_eq (t : Tree) :
    ∃ fields : Fields, t.contractNode = .object fields ∧ (fields.map Prod.fst).Nodup ∧
      fields.isOf "ContractDefinition" = true ∧ ∀ f ∈ fields, f.2.IsPlain := by
  refine ⟨_, rfl, by simp, rfl, ?_⟩
  have hparts : (list ((((t.part? .contractParts).map children).getD []).filterMap fun p =>
      p.children.head?.bind contractPartNode?)).IsPlain := by
    refine isPlain_list.mpr fun v hv => ?_
    obtain ⟨p, -, hp⟩ := List.mem_filterMap.mp hv
    obtain ⟨part, -, hpart⟩ := Option.bind_eq_some_iff.mp hp
    exact plain_contractPartNode hpart
  simpa using ⟨plain_textOrNull _, hparts⟩

/-- The phrase of an item is a contract, an interface or a library. -/
def declaresContract (item : Tree) : Bool :=
  item.children.head?.any (·.isA .contractDefinition)

/-- The node of an item, if it has one. -/
def node? (item : Tree) : Option Value :=
  item.children.head?.bind itemNode?

lemma node?_of_declaresContract {item : Tree} (h : item.declaresContract = true) :
    ∃ t : Tree, item.node? = some t.contractNode := by
  obtain ⟨t, hhead, hcontract⟩ := (Option.any_eq_true _ _).mp h
  rw [node?, hhead, Option.bind_some]
  cases t with
  | leaf t => simp [isA] at hcontract
  | node c children =>
    obtain rfl : Category.contractDefinition = c := by simpa [isA] using hcontract
    exact ⟨_, rfl⟩

lemma plain_node {item : Tree} {v : Value} (h : item.declaresContract = false)
    (hv : item.node? = some v) : v.IsPlain := by
  obtain ⟨t, hhead, hnode⟩ := Option.bind_eq_some_iff.mp hv
  unfold itemNode? at hnode
  split at hnode
  · cases hnode
    exact plain_importNode _
  · -- a contract, which the item is not
    simp [declaresContract, hhead, isA] at h
  · cases hnode
    exact plain_functionNode _
  · cases hnode

/-- The nodes of an item have each key once, and its integers can be written. -/
lemma wellFormed_node {item : Tree} {v : Value} (hv : item.node? = some v) :
    (v.Every fun n => (n.map Prod.fst).Nodup) ∧ v.hasLong = false := by
  cases hcontract : item.declaresContract with
  | false =>
    obtain ⟨hnodes, hwritable⟩ := plain_node hcontract hv
    exact ⟨hnodes.mono fun n hn => hn.1, hwritable⟩
  | true =>
    obtain ⟨t, ht⟩ := node?_of_declaresContract hcontract
    obtain ⟨fields, hnode, hkeys, -, hplain⟩ := contractNode_eq t
    obtain rfl := Option.some.inj (hv.symm.trans ht)
    rw [hnode]
    refine ⟨every_object.mpr ⟨hkeys, fun f hf => ?_⟩, hasLong_of_isPlain hplain⟩
    exact (hplain f hf).nodes.mono fun n hn => hn.1

/-- There is a contract among the nodes of an item if the item is one. -/
lemma any_isContract_node {item : Tree} {v : Value} (hv : item.node? = some v) :
    v.objects.any (Fields.isOf "ContractDefinition") = item.declaresContract := by
  cases hcontract : item.declaresContract with
  | false =>
    rw [List.any_eq_false]
    intro n hn
    rw [((plain_node hcontract hv).nodes n hn).2]
    exact Bool.false_ne_true
  | true =>
    obtain ⟨t, ht⟩ := node?_of_declaresContract hcontract
    obtain ⟨fields, hnode, -, hkind, -⟩ := contractNode_eq t
    obtain rfl := Option.some.inj (hv.symm.trans ht)
    rw [hnode, objects, List.any_cons, hkind, Bool.true_or]

end Tree

/-! ## Outlines -/

/-- The nodes of the items. -/
def itemNodes (items : List Tree) : List Value := items.filterMap Tree.node?

/-- The node of a file stands before those of its items. -/
lemma outline_objects (items : List Tree) :
    (outline items).objects =
      [("type", .str "SourceUnit"), ("children", .list (itemNodes items))]
        :: objectsInItems (itemNodes items) := by
  show objects (.object [_, ("children", .list (itemNodes items))]) = _
  simp [objects, objectsInFields]

lemma outline_distinctKeys (items : List Tree) : (outline items).DistinctKeys := by
  intro n hn
  rw [outline_objects, List.mem_cons] at hn
  rcases hn with rfl | hn
  · simp
  · obtain ⟨v, hv, hn⟩ := mem_objectsInItems.mp hn
    obtain ⟨item, -, hitem⟩ := List.mem_filterMap.mp hv
    exact (Tree.wellFormed_node hitem).1 n hn

/-- No integer in an outline is too long to be written. -/
lemma hasLong_outline (items : List Tree) : (outline items).hasLong = false := by
  have hnodes : (Value.list (itemNodes items)).hasLong = false := by
    rw [hasLong_list, List.any_eq_false]
    intro v hv
    obtain ⟨item, -, hitem⟩ := List.mem_filterMap.mp hv
    exact ne_true_of_eq_false (Tree.wellFormed_node hitem).2
  show (Value.object [_, ("children", .list (itemNodes items))]).hasLong = false
  rw [hasLong_object, List.any_cons, List.any_cons, hnodes]
  rfl

lemma ofKind_outline {kind : String} (hkind : kind ≠ "SourceUnit") (items : List Tree) :
    Collect.ofKind kind (outline items).objects =
      Collect.ofKind kind (objectsInItems (itemNodes items)) := by
  rw [outline_objects, Collect.ofKind, List.filter_cons_of_neg, Collect.ofKind]
  rw [isOf_outlineNode, beq_false_of_ne hkind.symm]
  exact Bool.false_ne_true

lemma objectsInItems_append (vs ws : List Value) :
    objectsInItems (vs ++ ws) = objectsInItems vs ++ objectsInItems ws := by
  induction vs with
  | nil => rfl
  | cons v vs ih => rw [List.cons_append, objectsInItems, ih, objectsInItems, List.append_assoc]

lemma itemNodes_append (items more : List Tree) :
    objectsInItems (itemNodes (items ++ more)) =
      objectsInItems (itemNodes items) ++ objectsInItems (itemNodes more) := by
  rw [itemNodes, List.filterMap_append, objectsInItems_append]
  rfl

/-- The nodes of a kind in an outline are those of its items, in their order. -/
lemma ofKind_outline_append {kind : String} (hkind : kind ≠ "SourceUnit")
    (items more : List Tree) :
    Collect.ofKind kind (outline (items ++ more)).objects =
      Collect.ofKind kind (outline items).objects ++
        Collect.ofKind kind (outline more).objects := by
  rw [ofKind_outline hkind, ofKind_outline hkind, ofKind_outline hkind, itemNodes_append,
    Collect.ofKind_append]

/-- There is no contract in an outline if no item is one. -/
lemma ofKind_contract_eq_nil (items : List Tree) :
    Collect.ofKind "ContractDefinition" (outline items).objects = [] ↔
      items.any Tree.declaresContract = false := by
  have hany : (objectsInItems (itemNodes items)).any (Fields.isOf "ContractDefinition") =
      items.any Tree.declaresContract := by
    induction items with
    | nil => rfl
    | cons item rest ih =>
      rw [List.any_cons, ← ih]
      cases hnode : item.node? with
      | none =>
        have hcontract : item.declaresContract = false := by
          by_contra h
          obtain ⟨t, ht⟩ := Tree.node?_of_declaresContract (eq_true_of_ne_false h)
          rw [hnode] at ht
          cases ht
        rw [itemNodes, List.filterMap_cons_none hnode, hcontract, Bool.false_or]
        rfl
      | some v =>
        rw [itemNodes, List.filterMap_cons_some hnode, objectsInItems, List.any_append,
          Tree.any_isContract_node hnode]
        rfl
  rw [ofKind_outline (by decide), ← hany, Collect.ofKind, List.filter_eq_nil_iff, List.any_eq_false]

/-- The node of a file adds nothing to the facts. -/
lemma foldlM_outline (items : List Tree) (s : Collect.State) :
    (outline items).objects.foldlM Collect.visit s =
      (objectsInItems (itemNodes items)).foldlM Collect.visit s := by
  rw [outline_objects]
  rfl

end Solidity

end SolidityAudit
