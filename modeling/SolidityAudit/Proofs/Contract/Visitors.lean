import SolidityAudit.Contract.Collect
import SolidityAudit.Proofs.Fault
import SolidityAudit.Proofs.Value.Leaves

/-!
# What a node tells

Each kind of node has a visitor, which reads the facts of the node from its fields. Here is what
each of them reads. A visitor of functions, events and modifiers fails in one way only: a type among
the parameters holds an integer that cannot be written (`parameters_eq_error_iff`).
-/

namespace SolidityAudit

namespace Value

/-! ## Labels -/

lemma shown_of_writable {v : Value} (h : v.hasLong = false) : v.shown = .ok v.display := by
  rw [shown, shown?, h]
  rfl

lemma shown_eq_error {v : Value} {f : Fault} (h : v.shown = .error f) : f = .unwritableInteger := by
  rw [shown, shown?] at h
  cases hv : v.hasLong with
  | false =>
    rw [hv] at h
    cases h
  | true =>
    rw [hv] at h
    exact (Except.error.inj h).symm

mutual

/-- A type without a long integer has a label, which holds none either. -/
lemma exists_typeLabel (v : Value) (h : v.hasLong = false) :
    ∃ label, v.typeLabel = .ok label ∧ label.hasLong = false := by
  match v with
  | .object fields =>
    have hfield (key : String) : ((fieldOf key fields).getD (.str "")).hasLong = false := by
      cases hv : fieldOf key fields with
      | none => rfl
      | some w => exact hasLong_of_fieldOf h hv
    obtain ⟨key, hkey, hkeyShort⟩ := exists_labelUnder "keyType" fields h
    obtain ⟨value, hvalue, hvalueShort⟩ := exists_labelUnder "valueType" fields h
    obtain ⟨item, hitem, hitemShort⟩ := exists_labelUnder "baseTypeName" fields h
    rw [typeLabel]
    simp only [hkey, hvalue, hitem]
    split_ifs
    · exact ⟨_, rfl, rfl⟩
    · exact ⟨_, rfl, hfield "name"⟩
    · exact ⟨_, rfl, hfield "namePath"⟩
    · refine ⟨.str ("mapping(" ++ key.display ++ " => " ++ value.display ++ ")"), ?_, rfl⟩
      show (key.shown >>= fun k => value.shown >>= _) = _
      rw [shown_of_writable hkeyShort, shown_of_writable hvalueShort]
      rfl
    · refine ⟨.str (item.display ++ "[]"), ?_, rfl⟩
      show (item.shown >>= _) = _
      rw [shown_of_writable hitemShort]
      rfl
    · refine ⟨_, rfl, ?_⟩
      unfold orElse
      split
      · exact hfield "name"
      · exact hfield "type"
  | .null | .bool _ | .int _ | .float _ | .str _ | .list _ =>
    rw [typeLabel]
    · split
      · rw [shown_of_writable h]
        exact ⟨_, rfl, rfl⟩
      · exact ⟨_, rfl, rfl⟩
    · nofun

lemma exists_labelUnder (key : String) (fields : List (String × Value))
    (h : (Value.object fields).hasLong = false) :
    ∃ label, labelUnder key fields = .ok label ∧ label.hasLong = false := by
  match fields with
  | [] => exact ⟨_, rfl, rfl⟩
  | (k, v) :: rest =>
    rw [hasLong_object, List.any_cons, Bool.or_eq_false_iff] at h
    rw [labelUnder]
    split
    · exact exists_typeLabel v h.1
    · exact exists_labelUnder key rest (by rw [hasLong_object, h.2])

end

mutual

/-- A type has no label only because of an integer that cannot be written. -/
lemma typeLabel_eq_error (v : Value) {f : Fault} (h : v.typeLabel = .error f) :
    f = .unwritableInteger := by
  match v with
  | .object fields =>
    rw [typeLabel] at h
    split_ifs at h
    · rcases bind_eq_error_iff.mp h with h | ⟨key, -, h⟩
      · exact labelUnder_eq_error "keyType" fields h
      rcases bind_eq_error_iff.mp h with h | ⟨value, -, h⟩
      · exact labelUnder_eq_error "valueType" fields h
      rcases bind_eq_error_iff.mp h with h | ⟨text, -, h⟩
      · exact shown_eq_error h
      rcases bind_eq_error_iff.mp h with h | ⟨text, -, h⟩
      · exact shown_eq_error h
      · cases h
    · rcases bind_eq_error_iff.mp h with h | ⟨item, -, h⟩
      · exact labelUnder_eq_error "baseTypeName" fields h
      rcases bind_eq_error_iff.mp h with h | ⟨text, -, h⟩
      · exact shown_eq_error h
      · cases h
  | .null | .bool _ | .int _ | .float _ | .str _ | .list _ =>
    rw [typeLabel] at h
    · split at h
      · cases hshown : shown _ with
        | ok text => rw [hshown] at h; cases h
        | error e =>
          rw [hshown] at h
          obtain rfl := Except.error.inj h
          exact shown_eq_error hshown
      · cases h
    · nofun

lemma labelUnder_eq_error (key : String) (fields : List (String × Value)) {f : Fault}
    (h : labelUnder key fields = .error f) : f = .unwritableInteger := by
  match fields with
  | [] => cases h
  | (k, v) :: rest =>
    rw [labelUnder] at h
    split at h
    · exact typeLabel_eq_error v h
    · exact labelUnder_eq_error key rest h

end

end Value

namespace Collect

variable {n : Fields} {v : Value} {f : Fault}

/-! ## Parameters -/

/-- A parameter has the name of its node and the label of the type there. -/
lemma parameter_eq_ok_iff {p : Parameter} :
    parameter n = .ok p ↔
      p.name = nameOf n ∧ (Fields.get "typeName" n).typeLabel = .ok p.type := by
  unfold parameter
  rw [bind_eq_ok_iff]
  constructor
  · rintro ⟨label, hlabel, ⟨⟩⟩
    exact ⟨rfl, hlabel⟩
  · rintro ⟨hname, hlabel⟩
    exact ⟨_, hlabel, by rw [← hname]; rfl⟩

lemma parameter_eq_error_iff :
    parameter n = .error f ↔ (Fields.get "typeName" n).typeLabel = .error f := by
  exact bind_pure_eq_error_iff

/-- The parameters are those of the nodes in a list, in its order. -/
lemma parameters_eq_ok_iff {ps : List Parameter} :
    parameters v = .ok ps ↔
      List.Forall₂ (fun n p =>
          p.name = nameOf n ∧ (Fields.get "typeName" n).typeLabel = .ok p.type)
        (parameterNodes v) ps := by
  simp only [parameters, mapM_eq_ok_iff, parameter_eq_ok_iff]

/-- A type in the list has no label. -/
def Unlabelled (v : Value) : Prop :=
  ∃ n ∈ parameterNodes v, (Fields.get "typeName" n).typeLabel = .error .unwritableInteger

lemma parameters_eq_error_iff :
    parameters v = .error f ↔ f = .unwritableInteger ∧ Unlabelled v := by
  have honly : ∀ n ∈ parameterNodes v, ∀ e, parameter n = .error e → e = .unwritableInteger :=
    fun n _ e he => Value.typeLabel_eq_error _ (parameter_eq_error_iff.mp he)
  simp only [parameters, mapM_eq_error_iff honly, parameter_eq_error_iff, Unlabelled]

lemma hasLong_get {key : String} (h : (Value.object n).hasLong = false) :
    (Fields.get key n).hasLong = false := by
  unfold Fields.get
  cases hv : fieldOf key n with
  | none => rfl
  | some w => exact Value.hasLong_of_fieldOf h hv

lemma hasLong_of_mem_objectItems (h : v.hasLong = false) (hn : n ∈ objectItems v) :
    (Value.object n).hasLong = false := by
  cases v with
  | list items =>
    obtain ⟨w, hw, hfields⟩ := List.mem_filterMap.mp hn
    rw [Value.hasLong_list, List.any_eq_false] at h
    cases w with
    | object fields =>
      obtain rfl := Option.some.inj hfields
      exact eq_false_of_ne_true (h _ hw)
    | _ => cases hfields
  | _ => cases hn

lemma hasLong_of_mem_parameterNodes (h : v.hasLong = false) (hn : n ∈ parameterNodes v) :
    (Value.object n).hasLong = false := by
  cases v with
  | object fields => exact hasLong_of_mem_objectItems (hasLong_get h) hn
  | _ => exact hasLong_of_mem_objectItems h hn

/-- Where all integers can be written, so can all labels. -/
lemma not_unlabelled (h : v.hasLong = false) : ¬ Unlabelled v := by
  rintro ⟨n, hn, hlabel⟩
  have hwritable : (Fields.get "typeName" n).hasLong = false :=
    hasLong_get (hasLong_of_mem_parameterNodes h hn)
  obtain ⟨label, hfound, -⟩ := Value.exists_typeLabel _ hwritable
  rw [hlabel] at hfound
  cases hfound

/-! ## Functions, events and modifiers -/

/-- A function has the name, the visibility and the mutability of its node, and the parameters of
both lists there. -/
lemma function_eq_ok_iff {g : FunctionFacts} :
    function n = .ok g ↔ g.name = nameOf n ∧ g.visibility = visibilityOf n ∧
      g.mutability = Fields.get "stateMutability" n ∧
      parameters (Fields.get "parameters" n) = .ok g.parameters ∧
      parameters (Fields.get "returnParameters" n) = .ok g.returns := by
  unfold function
  simp only [bind_eq_ok_iff]
  constructor
  · rintro ⟨given, hgiven, returns, hreturns, ⟨⟩⟩
    exact ⟨rfl, rfl, rfl, hgiven, hreturns⟩
  · rintro ⟨hname, hvisibility, hmutability, hgiven, hreturns⟩
    refine ⟨_, hgiven, _, hreturns, ?_⟩
    rw [← hname, ← hvisibility, ← hmutability]
    rfl

/-- A text is the same only as itself. -/
lemma eq_str_of_same {s : String} (h : v.same (.str s) = true) : v = .str s := by
  cases v <;> simp_all [Value.same, Value.sameNumber, Value.integer?]

lemma truthy_of_mem_visibilities {name : String} (h : name ∈ visibilities) :
    (Value.str name).truthy = true := by
  simp only [visibilities, List.mem_cons, List.not_mem_nil, or_false] at h
  rcases h with rfl | rfl | rfl | rfl | rfl <;> decide

/-- The visibility of a function is the one in its node, if that is a known one. -/
lemma visibilityOf_cases (n : Fields) :
    (∃ name ∈ visibilities, Fields.get "visibility" n = .str name ∧ visibilityOf n = .str name) ∨
      (∀ name ∈ visibilities, Fields.get "visibility" n ≠ .str name) ∧
        visibilityOf n = .str "default" := by
  unfold visibilityOf
  generalize Fields.get "visibility" n = v
  dsimp only
  by_cases htruthy : v.truthy = true
  · rw [Value.orElse, if_pos htruthy]
    split
    · next hknown =>
      obtain ⟨name, hname, hsame⟩ := List.any_eq_true.mp hknown
      exact .inl ⟨name, hname, eq_str_of_same hsame, eq_str_of_same hsame⟩
    · next hunknown =>
      refine .inr ⟨?_, rfl⟩
      rintro name hname rfl
      exact hunknown (List.any_eq_true.mpr ⟨name, hname, by simp [Value.same]⟩)
  · rw [Value.orElse, if_neg htruthy]
    refine .inr ⟨?_, ite_self _⟩
    rintro name hname rfl
    exact htruthy (truthy_of_mem_visibilities hname)

lemma function_eq_error_iff :
    function n = .error f ↔ f = .unwritableInteger ∧
      (Unlabelled (Fields.get "parameters" n) ∨
        Unlabelled (Fields.get "returnParameters" n)) := by
  have hread : function n = .error f ↔ parameters (Fields.get "parameters" n) = .error f ∨
      ∃ given, parameters (Fields.get "parameters" n) = .ok given ∧
        parameters (Fields.get "returnParameters" n) = .error f := by
    unfold function
    rw [bind_eq_error_iff]
    simp only [bind_pure_eq_error_iff]
  rw [hread]
  cases hgiven : parameters (Fields.get "parameters" n) with
  | error e =>
    -- the first list fails already, and in the one way
    obtain ⟨rfl, hunlabelled⟩ := parameters_eq_error_iff.mp hgiven
    constructor
    · rintro (h | ⟨given, h, -⟩)
      · exact ⟨(Except.error.inj h).symm, .inl hunlabelled⟩
      · cases h
    · rintro ⟨rfl, -⟩
      exact .inl rfl
  | ok given =>
    have hlabelled : ¬ Unlabelled (Fields.get "parameters" n) := by
      intro h
      rw [parameters_eq_error_iff.mpr ⟨rfl, h⟩] at hgiven
      cases hgiven
    rw [or_iff_right hlabelled, ← parameters_eq_error_iff]
    constructor
    · rintro (h | ⟨_, -, h⟩)
      · cases h
      · exact h
    · exact fun h => .inr ⟨given, rfl, h⟩

/-- An event or a modifier has the name and the parameters of its node. -/
lemma signature_eq_ok_iff {g : Signature} :
    signature n = .ok g ↔
      g.name = nameOf n ∧ parameters (Fields.get "parameters" n) = .ok g.parameters := by
  unfold signature
  rw [bind_eq_ok_iff]
  constructor
  · rintro ⟨given, hgiven, ⟨⟩⟩
    exact ⟨rfl, hgiven⟩
  · rintro ⟨hname, hgiven⟩
    exact ⟨_, hgiven, by rw [← hname]; rfl⟩

lemma signature_eq_error_iff :
    signature n = .error f ↔
      f = .unwritableInteger ∧ Unlabelled (Fields.get "parameters" n) := by
  rw [← parameters_eq_error_iff]
  exact bind_pure_eq_error_iff

/-! ## State variables and imports -/

/-- The visibility of the first of several declared variables. -/
def visibilityOfFirst : List Value → Value
  | .object v :: _ => Fields.get "visibility" v
  | _ => .null

/-- State variables have the names that are declared, and the visibility of their node, or else that
of the first of them. -/
lemma variableFacts_of_list {items : List Value} (h : Fields.get "variables" n = .list items) :
    variableFacts n = .ok ⟨items.filterMap variableName?,
      ((Fields.get "visibility" n).orElse (visibilityOfFirst items)).orElse (.str "default")⟩ := by
  have hdeclared : (Value.list items).orElse (.list []) = .list items := by
    cases items <;> rfl
  have hnull (own : Value) (hown : ¬ own.truthy = true) :
      own.orElse (.str "default") = Value.null.orElse (.str "default") := by
    rw [Value.orElse, if_neg hown]
    rfl
  unfold variableFacts
  rw [h, hdeclared]
  dsimp only
  by_cases hown : (Fields.get "visibility" n).truthy = true
  · have hfirst : (Fields.get "visibility" n).orElse (visibilityOfFirst items) =
        Fields.get "visibility" n := if_pos hown
    rw [if_pos hown, hfirst]
  · have hfirst : (Fields.get "visibility" n).orElse (visibilityOfFirst items) =
        visibilityOfFirst items := if_neg hown
    rw [if_neg hown, hfirst]
    match items with
    | .object v :: _ => rfl
    | [] | .null :: _ | .bool _ :: _ | .int _ :: _ | .float _ :: _ | .str _ :: _ | .list _ :: _ =>
      exact congrArg (fun w => Except.ok (VariableFacts.mk _ w)) (hnull _ hown)

/-- An import has the path of its node without quotes. -/
lemma importPath_eq_ok_iff {path : Value} :
    importPath n = .ok path ↔ ∃ s, (Fields.get "path" n).orElse (.str "") = .str s ∧
      path = .str (String.ofList
        (Text.stripBoth (fun c => c == '"' || c == '\'') s.toList)) := by
  unfold importPath
  cases (Fields.get "path" n).orElse (.str "") with
  | str s =>
    constructor
    · intro h
      exact ⟨s, rfl, (Except.ok.inj h).symm⟩
    · rintro ⟨_, ⟨⟩, rfl⟩
      rfl
  | _ => exact iff_of_false nofun (by simp)

end Collect

end SolidityAudit
