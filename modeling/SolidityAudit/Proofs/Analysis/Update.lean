import Mathlib.Data.List.TakeWhile
import SolidityAudit.Proofs.Analysis.Store

/-!
# Updates of a record

An update sets the status of a record and then the given fields, one after the other, and stops at
the first name that is no field (`setAll_spec`). What was set before stays set, so an update that
fails leaves the store as it was if it had changed nothing up to there, and an update that returns
has set everything (`updateStatus_allOrNothing_iff`). Some names cannot be passed on as fields, and
others are found on a record without being fields; a call that passes a value under one of these is
not looked at (`Passable`).
-/

namespace SolidityAudit

namespace StoredAnalysis

variable {a b : StoredAnalysis} {key : String} {v : Value}

/-! ## The fields of a record -/

/-- The names of the fields. -/
def fieldNames : List String := requiredFields ++ optionalFields

/-- The names of the fields that can be given: all but the status. -/
def givenNames : List String := fieldNames.filter (· ≠ "status")

/-- The fields of a record under their names. -/
def fields (a : StoredAnalysis) : List (String × Value) :=
  [("id", .str a.id), ("contract_name", a.contractName), ("original_filename", a.filename),
   ("risk_score", a.riskScore), ("timestamp", a.timestamp), ("file_id", a.fileId),
   ("contract_id", a.contractId), ("transaction_id", a.transactionId), ("summary", a.summary),
   ("security_report", a.securityReport)]

/-- The value of a field. -/
def field? (a : StoredAnalysis) (key : String) : Option Value := a.fields.lookup key

/-- What a field keeps of a value; an id is a text. -/
def kept (key : String) (v : Value) : Value := if key = "id" then .str v.display else v

lemma kept_of_text (h : key = "id" → ∃ s, v = .str s) : kept key v = v := by
  unfold kept
  split
  · obtain ⟨s, rfl⟩ := h ‹_›
    rfl
  · rfl

lemma map_fst_fields (a : StoredAnalysis) : a.fields.map Prod.fst = givenNames := rfl

lemma fields_eq_map (a : StoredAnalysis) :
    a.fields = givenNames.map fun k => (k, (a.field? k).getD .null) :=
  rfl

/-- Records with the same status and the same fields are the same. -/
lemma eq_of_field? (hstatus : a.status = b.status) (h : ∀ k, a.field? k = b.field? k) : a = b := by
  have hfields : a.fields = b.fields := by
    rw [fields_eq_map a, fields_eq_map b]
    simp only [h]
  cases a
  cases b
  simp_all [fields]

/-- A record has no other fields. -/
lemma isSome_field? : (a.field? key).isSome = true ↔ key ∈ givenNames := by
  rw [← map_fst_fields a]
  exact isSome_lookup_iff

/-! ## One field -/

/-- A field can be set if the record has it. -/
lemma isSome_set? : (a.set? key v).isSome = true ↔ key ∈ givenNames := by
  unfold set? givenNames fieldNames requiredFields optionalFields
  split <;> simp_all

/-- Setting a field changes this field alone. -/
lemma fields_set? (h : a.set? key v = some b) :
    b.status = a.status ∧
      b.fields = a.fields.map fun e => if e.1 = key then (e.1, kept key v) else e := by
  unfold set? at h
  split at h
  case h_11 => simp at h
  all_goals
    obtain rfl := Option.some.inj h
    exact ⟨rfl, rfl⟩

lemma lookup_map_replace (l : List (String × Value)) (key k : String) (w : Value) :
    (l.map fun e => if e.1 = key then (e.1, w) else e).lookup k =
      if k = key then (l.lookup k).map fun _ => w else l.lookup k := by
  induction l with
  | nil => simp
  | cons e l ih =>
    rw [List.map_cons, lookup_cons_eq_ite, lookup_cons_eq_ite, ih]
    by_cases he : e.1 = key
    · rw [if_pos he, ← he]
      by_cases hk : k = e.1
      · simp [hk]
      · simp [hk]
    · rw [if_neg he]
      by_cases hk : k = e.1
      · simp [hk, he]
      · simp [hk]

lemma field?_set? (h : a.set? key v = some b) (k : String) :
    b.field? k = if k = key then some (kept key v) else a.field? k := by
  rw [field?, (fields_set? h).2, lookup_map_replace]
  by_cases hk : k = key
  · subst hk
    have hname : k ∈ givenNames := isSome_set?.mp (Option.isSome_of_eq_some h)
    obtain ⟨w, hw⟩ := Option.isSome_iff_exists.mp ((isSome_field? (a := a)).mpr hname)
    rw [if_pos rfl, if_pos rfl, ← field?, hw]
    rfl
  · rw [if_neg hk, if_neg hk]
    rfl

/-! ## Several fields -/

/-- The names that a call has for values of its own. -/
def ownNames : List String := ["self", "analysis_id", "status"]

/-- The names under which there is something on every record that is no field of it. -/
def otherNames : List String :=
  ["to_dict", "__annotations__", "__class__", "__dataclass_fields__", "__dataclass_params__",
   "__delattr__", "__dict__", "__dir__", "__doc__", "__eq__", "__format__", "__ge__",
   "__getattribute__", "__getstate__", "__gt__", "__hash__", "__init__", "__init_subclass__",
   "__le__", "__lt__", "__match_args__", "__module__", "__ne__", "__new__", "__reduce__",
   "__reduce_ex__", "__repr__", "__setattr__", "__sizeof__", "__str__", "__subclasshook__",
   "__weakref__"]

/-- Values that a call passes on under names of fields or under names that are not found on a record
at all. An id is a text. -/
structure Passable (extra : List (String × Value)) : Prop where
  name : ∀ e ∈ extra, e.1 ∉ ownNames ++ otherNames
  id : ∀ e ∈ extra, e.1 = "id" → ∃ s, e.2 = .str s

lemma Passable.tail {e : String × Value} {extra : List (String × Value)}
    (h : Passable (e :: extra)) : Passable extra :=
  ⟨fun f hf => h.name f (List.mem_cons_of_mem _ hf), fun f hf => h.id f (List.mem_cons_of_mem _ hf)⟩

/-- The status is not passed on, but every other field can be. -/
lemma Passable.mem_fieldNames {e : String × Value} {extra : List (String × Value)}
    (h : Passable extra) (he : e ∈ extra) : e.1 ∈ fieldNames ↔ e.1 ∈ givenNames := by
  have hstatus : e.1 ≠ "status" := by
    intro heq
    exact h.name e he (heq ▸ by decide)
  simp [givenNames, hstatus]

/-- The value that a list gives to a field, the last one if there are several. -/
def given (extra : List (String × Value)) (key : String) : Option Value :=
  extra.reverse.lookup key

/-- The record has the status and the values that the list gives, and otherwise what it had. -/
structure Updated (a : StoredAnalysis) (status : Status) (extra : List (String × Value))
    (b : StoredAnalysis) : Prop where
  status : b.status = status
  field : ∀ key, b.field? key = (given extra key).or (a.field? key)

lemma given_cons (e : String × Value) (extra : List (String × Value)) (k : String) :
    given (e :: extra) k = (given extra k).or (if k = e.1 then some e.2 else none) := by
  rw [given, List.reverse_cons, List.lookup_append, ← given, lookup_cons_eq_ite]
  rfl

/-- The part of a list in front of the first name that is no field. -/
def known (extra : List (String × Value)) : List (String × Value) :=
  extra.takeWhile fun e => e.1 ∈ fieldNames

/-- The fields are set up to the first name that is no field, and this name is the fault. -/
theorem setAll_spec (a : StoredAnalysis) {extra : List (String × Value)} (h : Passable extra) :
    Updated a a.status (known extra) (a.setAll extra).1 ∧
      (a.setAll extra).2 =
        (extra.find? fun e => e.1 ∉ fieldNames).map fun e => .noField recordName e.1 := by
  induction extra generalizing a with
  | nil => exact ⟨⟨rfl, fun _ => rfl⟩, rfl⟩
  | cons e extra ih =>
    obtain ⟨key, v⟩ := e
    have hmem : key ∈ fieldNames ↔ key ∈ givenNames := h.mem_fieldNames List.mem_cons_self
    have hkept : kept key v = v := kept_of_text (h.id _ List.mem_cons_self)
    unfold setAll known
    cases hset : a.set? key v with
    | some b =>
      have hname : key ∈ fieldNames :=
        hmem.mpr (isSome_set?.mp (Option.isSome_of_eq_some hset))
      obtain ⟨⟨hstatus, hfield⟩, hfault⟩ := ih b h.tail
      rw [List.takeWhile_cons_of_pos (by simpa using hname),
        List.find?_cons_of_neg (by simpa using hname)]
      refine ⟨⟨hstatus.trans (fields_set? hset).1, ?_⟩, hfault⟩
      intro k
      rw [hfield k, given_cons, field?_set? hset, hkept, Option.or_assoc, known]
      by_cases hk : k = key
      · simp [hk]
      · simp [hk]
    | none =>
      have hname : key ∉ fieldNames := by
        rw [hmem, ← isSome_set? (a := a) (v := v), hset]
        simp
      rw [List.takeWhile_cons_of_neg (by simpa using hname),
        List.find?_cons_of_pos (by simpa using hname)]
      exact ⟨⟨rfl, fun _ => rfl⟩, rfl⟩

/-- An update that fits has one outcome. -/
lemma Updated.unique {status : Status} {extra : List (String × Value)} {c : StoredAnalysis}
    (hb : Updated a status extra b) (hc : Updated a status extra c) : b = c :=
  eq_of_field? (hb.status.trans hc.status.symm) fun k => (hb.field k).trans (hc.field k).symm

end StoredAnalysis

namespace Store

open StoredAnalysis (Passable Updated fieldNames known)

variable {s : Store} {id : Value} {a : StoredAnalysis} {status : Status}
  {extra : List (String × Value)}

/-! ## The store -/

/-- A record that is got has been looked for under a text. -/
lemma get_eq_ok : s.get id = .ok a ↔ ∃ key, id = .str key ∧ s.find? key = some a := by
  constructor
  · intro h
    cases id with
    | str key =>
      refine ⟨key, rfl, ?_⟩
      cases hfind : s.find? key with
      | none => simp [get, lookUp, Value.text?, hfind] at h
      | some b => simpa [get, lookUp, Value.text?, hfind] using h
    | _ => simp [get, lookUp, Value.text?] at h
  · intro h
    obtain ⟨key, rfl, hfind⟩ := h
    simp [get, lookUp, Value.text?, hfind]

/-- Either the call raises and the store is as before, or it returns the record with the status and
all the given values, which takes the place of the record before it. -/
def AllOrNothing (s : Store) (id : Value) (status : Status) (extra : List (String × Value)) :
    Prop :=
  match s.updateStatus id status extra with
  | (s', .error _) => s' = s
  | (s', .ok b) => ∃ key a before after, id = .str key ∧ Updated a status extra b ∧
      s.entries = before ++ (key, a) :: after ∧ s'.entries = before ++ (key, b) :: after

lemma updateStatus_of_error {f : Fault} (h : s.get id = .error f) :
    s.updateStatus id status extra = (s, .error f) := by
  unfold updateStatus
  rw [h]
  cases id <;> rfl

/-- The outcome for a record that is there, by the names of the given fields. -/
lemma updateStatus_of_find? {key : String} (h : s.find? key = some a) (status : Status)
    (hextra : Passable extra) :
    ∃ b, Updated a status (known extra) b ∧
      s.updateStatus (.str key) status extra =
        (s.put key b, match extra.find? fun e => e.1 ∉ fieldNames with
          | none => .ok b
          | some e => .error (.noField StoredAnalysis.recordName e.1)) := by
  have hget : s.get (.str key) = .ok a := get_eq_ok.mpr ⟨key, rfl, h⟩
  obtain ⟨⟨hstatus, hfield⟩, hfault⟩ := StoredAnalysis.setAll_spec { a with status } hextra
  refine ⟨_, ⟨hstatus, hfield⟩, ?_⟩
  unfold updateStatus
  rw [hget]
  dsimp only
  rw [hfault]
  cases extra.find? fun e => e.1 ∉ fieldNames <;> rfl

/-- A name that is no field stands in the list, or all its values count. -/
lemma find?_names (extra : List (String × Value)) :
    (∃ e, (extra.find? fun e => e.1 ∉ fieldNames) = some e ∧ e ∈ extra ∧ e.1 ∉ fieldNames) ∨
    (extra.find? fun e => e.1 ∉ fieldNames) = none ∧ (∀ e ∈ extra, e.1 ∈ fieldNames) ∧
      known extra = extra := by
  cases hfind : extra.find? fun e => e.1 ∉ fieldNames with
  | some e =>
    have hname : e.1 ∉ fieldNames := by simpa using List.find?_some hfind
    exact .inl ⟨e, rfl, List.mem_of_find?_eq_some hfind, hname⟩
  | none =>
    have hall : ∀ e ∈ extra, e.1 ∈ fieldNames := by simpa using hfind
    have hknown : known extra = extra :=
      List.takeWhile_eq_self_iff.mpr fun e he => by simpa using hall e he
    exact .inr ⟨rfl, hall, hknown⟩

/-- A call raises for an id that is not there and for a name that is no field. It does everything or
nothing, unless there is a record and the list has a name that is no field: then the store is as
before exactly if the record had the status already, and the values in front of that name too. -/
theorem updateStatus_allOrNothing_iff (s : Store) (id : Value) (status : Status)
    (hextra : Passable extra) :
    ((∃ f, (s.updateStatus id status extra).2 = .error f) ↔
      (∃ f, s.get id = .error f) ∨ ∃ e ∈ extra, e.1 ∉ fieldNames) ∧
    (s.AllOrNothing id status extra ↔ ∀ a, s.get id = .ok a →
      (∀ e ∈ extra, e.1 ∈ fieldNames) ∨ Updated a status (known extra) a) := by
  cases hget : s.get id with
  | error f =>
    unfold AllOrNothing
    rw [updateStatus_of_error hget]
    simp
  | ok a =>
    obtain ⟨key, rfl, hfind⟩ := get_eq_ok.mp hget
    obtain ⟨b, hb, hupdate⟩ := updateStatus_of_find? hfind status hextra
    obtain ⟨before, after, hentries, hput⟩ := put_of_find? hfind b
    unfold AllOrNothing
    rw [hupdate]
    rcases find?_names extra with ⟨e, hfault, he, hname⟩ | ⟨hfault, hall, hknown⟩
    · rw [hfault]
      refine ⟨⟨fun _ => .inr ⟨e, he, hname⟩, fun _ => ⟨_, rfl⟩⟩, ?_⟩
      show s.put key b = s ↔ _
      constructor
      · intro hs c hc
        obtain rfl := Except.ok.inj hc
        right
        have hsame : before ++ (key, b) :: after = before ++ (key, a) :: after := by
          rw [← hput, hs, hentries]
        obtain rfl : b = a := by simpa using hsame
        exact hb
      · intro h
        rcases h a rfl with hall | ha
        · exact absurd (hall e he) hname
        · obtain rfl : b = a := hb.unique ha
          have hsame : (s.put key b).entries = s.entries := hput.trans hentries.symm
          cases s
          exact congrArg Store.mk hsame
    · rw [hfault]
      rw [hknown] at hb
      refine ⟨⟨fun h => ?_, fun h => ?_⟩, fun _ a _ => .inl hall, fun _ => ?_⟩
      · simp at h
      · obtain ⟨f, hf⟩ | ⟨e, he, hname⟩ := h
        · simp at hf
        · exact absurd (hall e he) hname
      · exact ⟨key, a, before, after, rfl, hb, hentries, hput⟩

/-- A store with one analyzed contract. -/
def oneAnalyzed : Store :=
  Store.empty.insert
    { id := "a", contractName := .str "A", filename := .str "a.sol", riskScore := .int 8,
      timestamp := .str "2023-11-14T22:13:20+00:00", status := .analyzed, fileId := .null,
      contractId := .null, transactionId := .null, summary := .object [],
      securityReport := .object [] }

/-- The record gets the status and the id of its contract, and nothing else. -/
theorem contractId_allOrNothing :
    Passable [("contract_id", .str "0.0.7")] ∧
      oneAnalyzed.AllOrNothing (.str "a") .deployed [("contract_id", .str "0.0.7")] := by
  have hextra : Passable [("contract_id", .str "0.0.7")] := ⟨by decide, by simp⟩
  refine ⟨hextra, (updateStatus_allOrNothing_iff oneAnalyzed (.str "a") .deployed hextra).2.mpr ?_⟩
  intro a _
  left
  decide

/-- The record has no colour, so the call raises, and the record is deployed nevertheless. -/
theorem colour_not_allOrNothing :
    Passable [("colour", .str "blue")] ∧
      ¬ oneAnalyzed.AllOrNothing (.str "a") .deployed [("colour", .str "blue")] ∧
      (∃ f, (oneAnalyzed.updateStatus (.str "a") .deployed [("colour", .str "blue")]).2 =
        .error f) ∧
      (oneAnalyzed.updateStatus (.str "a") .deployed [("colour", .str "blue")]).1.deployedCount =
        1 := by
  refine ⟨⟨by decide, by simp⟩, ?_, ⟨_, rfl⟩, rfl⟩
  intro h
  have hsame : (oneAnalyzed.updateStatus (.str "a") .deployed [("colour", .str "blue")]).1 =
      oneAnalyzed := h
  have hcount := congrArg deployedCount hsame
  simp [oneAnalyzed, updateStatus, deployedCount, get, lookUp, Value.text?, find?, insert, put,
    putIn, empty, all, StoredAnalysis.setAll, StoredAnalysis.set?] at hcount

end Store

end SolidityAudit
