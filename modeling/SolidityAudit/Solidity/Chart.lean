import SolidityAudit.Solidity.Grammar

/-!
# Phrases of a token list

For every suffix of a token list the chart holds, for every category, the phrases of that category
at the front of the suffix: how many tokens each takes and the tree of the preferred reading. The
rows are filled from the end of the list, so that what a rule asks of later suffixes is there; what
it asks of the same suffix comes later in the list of categories. Next to the phrases the chart
holds how far any attempt reached, which is where a wrong text goes wrong first.
-/

namespace SolidityAudit.Solidity

/-- A reading of tokens. -/
inductive Tree
  | leaf (t : Token)
  | node (c : Category) (children : List Tree)
deriving Repr, Inhabited

/-- A reading that takes `taken` tokens. -/
structure Reading where
  taken : Nat
  trees : List Tree
deriving Repr

/-- What an attempt gives: the readings in the order of preference, at most one for each length,
and the number of tokens up to which some attempt agreed with the grammar. -/
structure Outcome where
  reach : Nat
  readings : List Reading
deriving Repr, Inhabited

namespace Outcome

/-- No reading, and no token agreed on. -/
def failed (reach : Nat) : Outcome := ⟨reach, []⟩

/-- The readings of the first, and those of the second that have another length. -/
def or (a b : Outcome) : Outcome :=
  ⟨max a.reach b.reach,
    a.readings ++ b.readings.filter fun r => !a.readings.any (·.taken == r.taken)⟩

/-- Every reading followed by what the continuation makes of it. -/
def bind (a : Outcome) (next : Reading → Outcome) : Outcome :=
  a.readings.foldl (fun done r => done.or (next r)) ⟨a.reach, []⟩

/-- The readings as phrases of a category that begin after `k` tokens. -/
def wrap (c : Category) (k : Nat) (a : Outcome) : Outcome :=
  ⟨k + a.reach, a.readings.map fun r => ⟨k + r.taken, [.node c r.trees]⟩⟩

end Outcome

/-- The phrases of the later categories at one suffix. -/
abbrev Row := List (Category × Thunk Outcome)

/-- The phrases of a category in a row. -/
def Row.find (row : Row) (c : Category) : Outcome :=
  match row.lookup c with
  | some t => t.get
  | none => .failed 0

/-- The phrases of a category after `k` tokens, where `rows` begins with the row of the suffix. -/
def phrases (rows : List Row) (k : Nat) (c : Category) : Outcome :=
  match rows[k]? with
  | some row => row.find c
  | none => .failed 0

namespace Form

/-- The readings of a form that begin after `k` tokens. -/
def readings (tokens : List Token) (rows : List Row) : Form → Nat → Outcome
  | nothing, k => ⟨k, [⟨k, []⟩]⟩
  | token t, k =>
    match tokens[k]? with
    | some found => if t.accepts found then ⟨k + 1, [⟨k + 1, [.leaf found]⟩]⟩ else .failed k
    | none => .failed k
  | part c, k => (phrases rows k c).wrap c k
  | both first second, k =>
    (readings tokens rows first k).bind fun r =>
      let later := readings tokens rows second r.taken
      ⟨later.reach, later.readings.map fun s => ⟨s.taken, r.trees ++ s.trees⟩⟩
  | either first second, k =>
    (readings tokens rows first k).or (readings tokens rows second k)

end Form

/-- The readings of any number of phrases of a category, more of them first. The readings of further
repetitions after the first phrase are those of the category `self`. -/
def repetitions (rows : List Row) (self c : Category) : Outcome :=
  let more := (phrases rows 0 c).bind fun r =>
    let later := phrases rows r.taken self
    ⟨r.taken + later.reach,
      later.readings.map fun s => ⟨r.taken + s.taken, .node c r.trees :: s.trees⟩⟩
  more.or ⟨0, [⟨0, []⟩]⟩

/-- The phrases of a category at the front of the tokens. -/
def Category.outcome (tokens : List Token) (rows : List Row) (c : Category) : Outcome :=
  match c.rule with
  | .form f => f.readings tokens rows 0
  | .repeated d => repetitions rows c d

/-- The row of the categories in the list. -/
def fillRow (tokens : List Token) (later : List Row) : List Category → Row
  | [] => []
  | c :: cs =>
    let row := fillRow tokens later cs
    (c, Thunk.mk fun _ => c.outcome tokens (row :: later)) :: row

/-- The rows of a token list, one for each suffix, the whole list first. -/
def chart : List Token → List Row
  | [] => [fillRow [] [] Category.everyCategory]
  | t :: ts =>
    let later := chart ts
    fillRow (t :: ts) later Category.everyCategory :: later

/-- A repetition's self reference needs at least one token. -/
def fileReadings (tokens : List Token) : Outcome :=
  phrases (chart tokens) 0 .sourceItems

end SolidityAudit.Solidity
