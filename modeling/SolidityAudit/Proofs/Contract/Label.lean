import Mathlib.Tactic.Lemma
import SolidityAudit.Contract.Collect
import SolidityAudit.Proofs.Places

/-!
# Labels of types

A label is the text of a type: the name of a simple type, `mapping(key => value)`, or the label of
the items with `[]` behind it. Mappings and arrays stand inside each other to any depth, so a label
is read from its last character, which tells the form of the type. The parts of a mapping meet at
the only equals sign that stands outside of the parentheses inside it (`beforeEquals_label`).

So two types have the same label exactly when they are the same up to the lengths of arrays and the
kinds of simple types (`Value.typeLabel_eq_iff`), as long as no name holds a character from which
labels are built.
-/

namespace SolidityAudit

/-! ## Shapes -/

/-- A type without the lengths of its arrays and without the kinds of its simple types. -/
inductive TypeShape
  | named (name : String)
  | mapping (key value : TypeShape)
  | array (item : TypeShape)
deriving DecidableEq, Repr

namespace TypeShape

/-- The characters that tell how a type is built. -/
def marks : List Char := ['(', ')', '[', ']', '=']

/-- The names in a type. -/
def names : TypeShape → List String
  | named name => [name]
  | mapping key value => key.names ++ value.names
  | array item => item.names

/-- No name in the type holds one of the marks. -/
def Clean (s : TypeShape) : Prop :=
  ∀ name ∈ s.names, ∀ c ∈ name.toList, c ∉ marks

instance (s : TypeShape) : Decidable s.Clean :=
  inferInstanceAs (Decidable (∀ name ∈ s.names, ∀ c ∈ name.toList, c ∉ marks))

/-- What begins the label of a mapping. -/
def opening : List Char := "mapping(".toList

/-- What stands between the parts of a mapping. -/
def arrow : List Char := " => ".toList

/-- What ends the label of an array. -/
def brackets : List Char := "[]".toList

/-- The label of a type. -/
def label : TypeShape → List Char
  | named name => name.toList
  | mapping key value => opening ++ (key.label ++ (arrow ++ (value.label ++ [')'])))
  | array item => item.label ++ brackets

variable {s t key value item : TypeShape} {name : String}

lemma clean_named : (named name).Clean ↔ ∀ c ∈ name.toList, c ∉ marks := by
  simp [Clean, names]

lemma clean_mapping : (mapping key value).Clean ↔ key.Clean ∧ value.Clean := by
  simp only [Clean, names, List.forall_mem_append]

/-! ## The form of a type -/

lemma getLast?_label_mapping : (mapping key value).label.getLast? = some ')' := by
  simp only [label, ← List.append_assoc, List.getLast?_append, List.getLast?_singleton,
    Option.some_or]

lemma getLast?_label_array : (array item).label.getLast? = some ']' := by
  rw [label, List.getLast?_append]
  rfl

/-- The label of a simple type does not end in a mark. -/
lemma getLast?_label_named (h : (named name).Clean) {c : Char} (hc : c ∈ marks) :
    (named name).label.getLast? ≠ some c :=
  fun hlast => clean_named.mp h c (List.mem_of_getLast? hlast) hc

/-! ## The parts of a mapping -/

/-- What stands in front of the first equals sign that is outside of all parentheses, when some
parentheses are open at the start. -/
def beforeEquals : Nat → List Char → List Char
  | _, [] => []
  | opened, c :: cs =>
    if c = '=' ∧ opened = 0 then []
    else if c = '(' then c :: beforeEquals (opened + 1) cs
    else if c = ')' then c :: beforeEquals (opened - 1) cs
    else c :: beforeEquals opened cs

/-- A text without marks is passed over. -/
lemma beforeEquals_append_of_clean {front : List Char} (h : ∀ c ∈ front, c ∉ marks) (opened : Nat)
    (rest : List Char) :
    beforeEquals opened (front ++ rest) = front ++ beforeEquals opened rest := by
  induction front with
  | nil => rfl
  | cons c front ih =>
    obtain ⟨hc, hfront⟩ := List.forall_mem_cons.mp h
    simp only [marks, List.mem_cons, not_or] at hc
    rw [List.cons_append, beforeEquals, if_neg (fun hequals => hc.2.2.2.2.1 hequals.1),
      if_neg hc.1, if_neg hc.2.1, ih hfront, List.cons_append]

lemma beforeEquals_opening (opened : Nat) (rest : List Char) :
    beforeEquals opened (opening ++ rest) = opening ++ beforeEquals (opened + 1) rest := by
  have hopening : opening = "mapping".toList ++ ['('] := by decide
  have hparenthesis : beforeEquals opened ('(' :: rest) = '(' :: beforeEquals (opened + 1) rest :=
    rfl
  have hword : ∀ c ∈ "mapping".toList, c ∉ marks := by simp [marks]
  rw [hopening, List.append_assoc, List.append_assoc, beforeEquals_append_of_clean hword]
  exact congrArg _ hparenthesis

lemma beforeEquals_closing (opened : Nat) (rest : List Char) :
    beforeEquals (opened + 1) (')' :: rest) = ')' :: beforeEquals opened rest := rfl

/-- Inside of parentheses an equals sign is passed over as well. -/
lemma beforeEquals_arrow (opened : Nat) (rest : List Char) :
    beforeEquals (opened + 1) (arrow ++ rest) = arrow ++ beforeEquals (opened + 1) rest := by
  simp [arrow, beforeEquals]

/-- A label is passed over: each equals sign in it stands inside of parentheses. -/
lemma beforeEquals_label (h : s.Clean) (opened : Nat) (rest : List Char) :
    beforeEquals opened (s.label ++ rest) = s.label ++ beforeEquals opened rest := by
  induction s generalizing opened rest with
  | named name => exact beforeEquals_append_of_clean (clean_named.mp h) opened rest
  | array item ih =>
    have hbrackets : beforeEquals opened (brackets ++ rest) =
        brackets ++ beforeEquals opened rest := by simp [brackets, beforeEquals]
    rw [label, List.append_assoc, ih h, hbrackets, List.append_assoc]
  | mapping key value ihkey ihvalue =>
    obtain ⟨hkey, hvalue⟩ := clean_mapping.mp h
    simp only [label, List.append_assoc]
    rw [beforeEquals_opening, ihkey hkey, beforeEquals_arrow, ihvalue hvalue, List.singleton_append,
      beforeEquals_closing, List.singleton_append]

/-- A mapping is told by the inner part of its label. -/
lemma label_inj_of_inner {key' value' : TypeShape} (hkey : key.Clean) (hkey' : key'.Clean)
    (h : key.label ++ (arrow ++ value.label) = key'.label ++ (arrow ++ value'.label)) :
    key.label = key'.label ∧ value.label = value'.label := by
  have hstop (rest : List Char) : beforeEquals 0 (arrow ++ rest) = [' '] := by
    simp [arrow, beforeEquals]
  have hkeys := congrArg (beforeEquals 0) h
  rw [beforeEquals_label hkey, beforeEquals_label hkey', hstop, hstop] at hkeys
  have hlabels : key.label = key'.label := List.append_cancel_right hkeys
  rw [hlabels] at h
  exact ⟨hlabels, List.append_cancel_left (List.append_cancel_left h)⟩

/-! ## Reading a label -/

/-- A label tells its type. -/
theorem label_inj (hs : s.Clean) (ht : t.Clean) (h : s.label = t.label) : s = t := by
  have hlast := congrArg List.getLast? h
  induction s generalizing t with
  | named name =>
    cases t with
    | named name' => exact congrArg named (String.toList_inj.mp h)
    | mapping key' value' =>
      rw [getLast?_label_mapping] at hlast
      exact absurd hlast (getLast?_label_named hs (by decide))
    | array item' =>
      rw [getLast?_label_array] at hlast
      exact absurd hlast (getLast?_label_named hs (by decide))
  | mapping key value ihkey ihvalue =>
    cases t with
    | named name' =>
      rw [getLast?_label_mapping] at hlast
      exact absurd hlast.symm (getLast?_label_named ht (by decide))
    | mapping key' value' =>
      obtain ⟨hkey, hvalue⟩ := clean_mapping.mp hs
      obtain ⟨hkey', hvalue'⟩ := clean_mapping.mp ht
      have hinner := List.append_cancel_left h
      simp only [← List.append_assoc] at hinner
      have hparts := List.append_cancel_right hinner
      simp only [List.append_assoc] at hparts
      obtain ⟨hkeys, hvalues⟩ := label_inj_of_inner hkey hkey' hparts
      rw [ihkey hkey hkey' hkeys (congrArg _ hkeys),
        ihvalue hvalue hvalue' hvalues (congrArg _ hvalues)]
    | array item' =>
      rw [getLast?_label_mapping, getLast?_label_array] at hlast
      exact absurd hlast (by decide)
  | array item ih =>
    cases t with
    | named name' =>
      rw [getLast?_label_array] at hlast
      exact absurd hlast.symm (getLast?_label_named ht (by decide))
    | mapping key' value' =>
      rw [getLast?_label_mapping, getLast?_label_array] at hlast
      exact absurd hlast (by decide)
    | array item' =>
      have hitems : item.label = item'.label := List.append_cancel_right h
      exact congrArg array (ih hs ht hitems (congrArg _ hitems))

end TypeShape

/-! ## Nodes of types -/

namespace Value

/-- The node is that of a type with the shape. Nothing is asked of its other fields. -/
inductive HasShape : Value → TypeShape → Prop
  | elementary {fields : Fields} {name : String}
    (htype : fieldOf "type" fields = some (.str "ElementaryTypeName"))
    (hname : fieldOf "name" fields = some (.str name)) :
    HasShape (.object fields) (.named name)
  | userDefined {fields : Fields} {name : String}
    (htype : fieldOf "type" fields = some (.str "UserDefinedTypeName"))
    (hname : fieldOf "namePath" fields = some (.str name)) :
    HasShape (.object fields) (.named name)
  | mapping {fields : Fields} {k v : Value} {key value : TypeShape}
    (htype : fieldOf "type" fields = some (.str "Mapping"))
    (hk : fieldOf "keyType" fields = some k) (hv : fieldOf "valueType" fields = some v)
    (hkey : HasShape k key) (hvalue : HasShape v value) :
    HasShape (.object fields) (.mapping key value)
  | array {fields : Fields} {base : Value} {item : TypeShape}
    (htype : fieldOf "type" fields = some (.str "ArrayTypeName"))
    (hbase : fieldOf "baseTypeName" fields = some base) (hitem : HasShape base item) :
    HasShape (.object fields) (.array item)

lemma labelUnder_of_fieldOf {key : String} {fields : Fields} {v : Value}
    (h : fieldOf key fields = some v) : labelUnder key fields = v.typeLabel := by
  induction fields with
  | nil => cases h
  | cons f rest ih =>
    obtain ⟨k, w⟩ := f
    rw [fieldOf, lookup_cons_eq_ite] at h
    rw [labelUnder]
    by_cases hk : k = key
    · rw [if_pos hk.symm] at h
      rw [if_pos hk]
      exact congrArg typeLabel (Option.some.inj h)
    · rw [if_neg (Ne.symm hk)] at h
      rw [if_neg hk]
      exact ih h

lemma isEmpty_of_fieldOf {key : String} {fields : Fields} {v : Value}
    (h : fieldOf key fields = some v) : fields.isEmpty = false := by
  cases fields with
  | nil => cases h
  | cons f rest => rfl

lemma same_str (s t : String) : (str s).same (str t) = (s == t) := by
  rw [same]

/-- The label of a node by its kind. -/
lemma typeLabel_of_kind {fields : Fields} {kind : String}
    (htype : fieldOf "type" fields = some (.str kind)) :
    (object fields).typeLabel =
      if kind = "ElementaryTypeName" then .ok ((fieldOf "name" fields).getD (.str ""))
      else if kind = "UserDefinedTypeName" then .ok ((fieldOf "namePath" fields).getD (.str ""))
      else if kind = "Mapping" then do
        let key ← labelUnder "keyType" fields
        let value ← labelUnder "valueType" fields
        return .str ("mapping(" ++ (← key.shown) ++ " => " ++ (← value.shown) ++ ")")
      else if kind = "ArrayTypeName" then do
        let item ← labelUnder "baseTypeName" fields
        return .str ((← item.shown) ++ "[]")
      else .ok (((fieldOf "name" fields).getD (.str "")).orElse (.str kind)) := by
  rw [typeLabel]
  simp only [htype, isEmpty_of_fieldOf htype, Option.getD_some, same_str, beq_iff_eq,
    Bool.false_eq_true, if_false]

/-- The label of a node is that of its shape. -/
lemma HasShape.typeLabel_eq {v : Value} {s : TypeShape} (h : v.HasShape s) :
    v.typeLabel = .ok (.str (String.ofList s.label)) := by
  induction h with
  | elementary htype hname =>
    rw [typeLabel_of_kind htype, if_pos rfl, hname, TypeShape.label, String.ofList_toList]
    rfl
  | userDefined htype hname =>
    rw [typeLabel_of_kind htype, if_neg (by decide), if_pos rfl, hname, TypeShape.label,
      String.ofList_toList]
    rfl
  | mapping htype hk hv hkey hvalue ihkey ihvalue =>
    rw [typeLabel_of_kind htype, if_neg (by decide), if_neg (by decide), if_pos rfl,
      labelUnder_of_fieldOf hk, labelUnder_of_fieldOf hv, ihkey, ihvalue]
    have hopening : String.ofList TypeShape.opening = "mapping(" := String.ofList_toList
    have harrow : String.ofList TypeShape.arrow = " => " := String.ofList_toList
    have hclosing : String.ofList [')'] = ")" := rfl
    rw [TypeShape.label, String.ofList_append, String.ofList_append, String.ofList_append,
      String.ofList_append, hopening, harrow, hclosing, ← String.append_assoc,
      ← String.append_assoc, ← String.append_assoc]
    rfl
  | array htype hbase hitem ih =>
    rw [typeLabel_of_kind htype, if_neg (by decide), if_neg (by decide), if_neg (by decide),
      if_pos rfl, labelUnder_of_fieldOf hbase, ih]
    have hbrackets : String.ofList TypeShape.brackets = "[]" := String.ofList_toList
    rw [TypeShape.label, String.ofList_append, hbrackets]
    rfl

/-- Types whose names hold none of the marks have labels, and these are the same text if and only if
the types have the same shape. -/
theorem typeLabel_eq_iff {v w : Value} {s t : TypeShape} (hv : v.HasShape s) (hw : w.HasShape t)
    (hs : s.Clean) (ht : t.Clean) :
    (∃ label, v.typeLabel = .ok (.str label)) ∧ (v.typeLabel = w.typeLabel ↔ s = t) := by
  rw [hv.typeLabel_eq, hw.typeLabel_eq]
  refine ⟨⟨_, rfl⟩, ?_⟩
  constructor
  · intro h
    exact TypeShape.label_inj hs ht (String.ofList_injective (Value.str.inj (Except.ok.inj h)))
  · rintro rfl
    rfl

/-- The node of a mapping from addresses. -/
def byAddress (value : Value) : Value :=
  .object
    [("type", .str "Mapping"),
     ("keyType", .object [("type", .str "ElementaryTypeName"), ("name", .str "address")]),
     ("valueType", value)]

/-- The node of an array. -/
def arrayNode (length base : Value) : Value :=
  .object [("type", .str "ArrayTypeName"), ("baseTypeName", base), ("length", length)]

/-- The node of a type that a source declares. -/
def tokenNode : Value :=
  .object [("type", .str "UserDefinedTypeName"), ("namePath", .str "Token")]

/-- A mapping to arrays of eight items has the label of a mapping to arrays of any length, and not
that of an array of mappings. -/
theorem tokens_typeLabel :
    (byAddress (arrayNode (.int 8) tokenNode)).HasShape
      (.mapping (.named "address") (.array (.named "Token"))) ∧
    (byAddress (arrayNode (.int 8) tokenNode)).typeLabel =
      (byAddress (arrayNode .null tokenNode)).typeLabel ∧
    (byAddress (arrayNode (.int 8) tokenNode)).typeLabel ≠
      (arrayNode (.int 8) (byAddress tokenNode)).typeLabel := by
  have harrays (length : Value) : (byAddress (arrayNode length tokenNode)).HasShape
      (.mapping (.named "address") (.array (.named "Token"))) :=
    .mapping rfl rfl rfl (.elementary rfl rfl) (.array rfl rfl (.userDefined rfl rfl))
  have hmappings : (arrayNode (.int 8) (byAddress tokenNode)).HasShape
      (.array (.mapping (.named "address") (.named "Token"))) :=
    .array rfl rfl (.mapping rfl rfl rfl (.elementary rfl rfl) (.userDefined rfl rfl))
  have hclean : (TypeShape.mapping (.named "address") (.array (.named "Token"))).Clean := by
    simp [TypeShape.Clean, TypeShape.names, TypeShape.marks]
  have hclean' : (TypeShape.array (.mapping (.named "address") (.named "Token"))).Clean := by
    simp [TypeShape.Clean, TypeShape.names, TypeShape.marks]
  refine ⟨harrays _, (typeLabel_eq_iff (harrays _) (harrays _) hclean hclean).2.mpr rfl, ?_⟩
  intro h
  exact absurd ((typeLabel_eq_iff (harrays _) hmappings hclean hclean').2.mp h) (by decide)

end Value

end SolidityAudit
