import SolidityAudit.Proofs.Ledger.Stage

/-!
# Calls that share an account

Many calls of one client send transactions from its account, and nobody else does. What they ask the
outside for is answered one request after the other, in any order of the calls (`Run`). The node
counts the transactions that it has taken from the account, tells the count, and takes a transaction
if it carries the number that comes next (`Answers`); all else may be answered in any way.
-/

namespace SolidityAudit.LedgerClient

open Outside

/-! ## Calls that go on together -/

/-- What is left of a call. -/
abbrev Rest := Script Request Answer (Except Fault Value)

/-- A call that sends a transaction. -/
inductive Call
  | anchor (document memo : Value)
  | deploy (source arguments : Value)

/-- The script of a call. -/
def Call.script (c : LedgerClient) : Call → Rest
  | anchor document memo => (do return .str (← c.anchor document memo) : Action Value).run
  | deploy source arguments => (do return (← c.deploy source arguments).toValue : Action Value).run

/-- How many transactions the node has taken from the account, and what is left of the calls. -/
structure Pool where
  accepted : Nat
  jobs : List Rest

/-- A request and its answer. -/
structure Exchange where
  request : Request
  answer : Answer request

/-- The transaction that an exchange has signed. -/
def Exchange.signed? : Exchange → Option Value
  | ⟨.sign transaction _, .ok _⟩ => some transaction
  | _ => none

/-- An exchange with the outside, and how many transactions the node has taken before and after it.
The node counts what it has taken, and takes the transaction with the number that comes next;
`nonceIn` is the number that it reads in what a call has signed. -/
inductive Answers (nonceIn : Value → Option Int) : Nat → Exchange → Nat → Prop
  | counted (accepted : Nat) (address : String) :
    Answers nonceIn accepted ⟨.transactionCount address, .ok accepted⟩ accepted
  | notCounted (accepted : Nat) (address : String) (f : Fault) :
    Answers nonceIn accepted ⟨.transactionCount address, .error f⟩ accepted
  | signed {transaction v : Value} (accepted : Nat) (key : Value)
    (hv : nonceIn v = nonceOf transaction) :
    Answers nonceIn accepted ⟨.sign transaction key, .ok v⟩ accepted
  | notSigned (accepted : Nat) (transaction key : Value) (f : Fault) :
    Answers nonceIn accepted ⟨.sign transaction key, .error f⟩ accepted
  | taken {accepted : Nat} {v : Value} (x : Except Fault Value)
    (hv : nonceIn v = some (accepted : Int)) :
    Answers nonceIn accepted ⟨.send v, x⟩ (accepted + 1)
  | refused {accepted : Nat} {v : Value} (x : Except Fault Value)
    (hv : nonceIn v ≠ some (accepted : Int)) : Answers nonceIn accepted ⟨.send v, x⟩ accepted
  | priced (accepted : Nat) (x : Except Fault Int) :
    Answers nonceIn accepted ⟨.gasPrice, x⟩ accepted
  | quiet (accepted : Nat) {q : Request} (x : Answer q) (hq : isQuiet q = true) :
    Answers nonceIn accepted ⟨q, x⟩ accepted

/-- The call at the place is answered, and goes on to its next request. -/
inductive Step (nonceIn : Value → Option Int) : Pool → Nat → Exchange → Pool → Prop
  | answered {p : Pool} {i accepted : Nat} {q : Request} {next : Answer q → Rest} {x : Answer q}
    (hjob : p.jobs[i]? = some (.ask q next)) (h : Answers nonceIn p.accepted ⟨q, x⟩ accepted) :
    Step nonceIn p i ⟨q, x⟩ ⟨accepted, p.jobs.set i (next x)⟩

/-- One step of a run: the pool before it, and which call is answered what. -/
structure Moment where
  pool : Pool
  place : Nat
  exchange : Exchange

/-- A run from a pool: the steps so far, and the pool that they lead to. -/
inductive Run (nonceIn : Value → Option Int) (start : Pool) : List Moment → Pool → Prop
  | start : Run nonceIn start [] start
  | step {past : List Moment} {p q : Pool} {i : Nat} {e : Exchange}
    (hrun : Run nonceIn start past p) (h : Step nonceIn p i e q) :
    Run nonceIn start (past ++ [⟨p, i, e⟩]) q

/-- The calls before any of them has begun. -/
def opening (c : LedgerClient) (accepted : Nat) (calls : List Call) : Pool :=
  ⟨accepted, calls.map (Call.script c)⟩

/-- Whether a call has a number in hand: it has been told one, and has not sent it yet. -/
def inHand : Rest → Bool
  | .ask q _ => usesNumber q
  | .done _ => false

/-- Two calls have a number in hand. -/
def Pool.Overlap (p : Pool) (i j : Nat) : Prop :=
  i ≠ j ∧ p.jobs[i]?.any inHand = true ∧ p.jobs[j]?.any inHand = true

/-- The transactions that have been signed. -/
def signedIn (past : List Moment) : List Value := past.filterMap (·.exchange.signed?)

/-- The call at the place has signed a transaction. -/
def HasSigned (past : List Moment) (i : Nat) : Prop :=
  ∃ m ∈ past, m.place = i ∧ m.exchange.signed?.isSome = true

/-! ## Moves between stages -/

namespace Stage

/-- The number of a call. -/
def number? : Stage → Option Int
  | numbered n | signed n _ | sent n => some n
  | _ => none

/-- The number that a call has signed. -/
def signed? : Stage → Option Int
  | signed n _ | sent n => some n
  | _ => none

/-- What a later stage of a call keeps of an earlier one. -/
structure Leads (σ τ : Stage) : Prop where
  number : ∀ n, σ.number? = some n → τ.number? = some n ∨ τ = dropped
  sent : ∀ n, σ = .sent n → τ = .sent n
  dropped : σ = .dropped → τ = .dropped

variable {σ τ υ : Stage} {n : Int}

lemma Leads.refl (σ : Stage) : σ.Leads σ := ⟨fun _ h => .inl h, fun _ h => h, fun h => h⟩

lemma Leads.trans (h : σ.Leads τ) (h' : τ.Leads υ) : σ.Leads υ where
  number n hn := by
    rcases h.number n hn with hτ | hτ
    · exact h'.number n hτ
    · exact .inr (h'.dropped hτ)
  sent n hn := h'.sent n (h.sent n hn)
  dropped hσ := h'.dropped (h.dropped hσ)

lemma number?_of_signed? (h : σ.signed? = some n) : σ.number? = some n := by
  cases σ with
  | signed | sent => exact h
  | _ => cases h

/-- A number that has not been sent is in hand. -/
lemma holds_of_number? (h : σ.number? = some n) (hsent : σ ≠ .sent n) : σ.holds = true := by
  cases σ with
  | numbered | signed => rfl
  | sent k =>
    obtain rfl := Option.some.inj h
    exact absurd rfl hsent
  | _ => cases h

lemma number?_of_holds (h : σ.holds = true) : ∃ n, σ.number? = some n := by
  cases σ with
  | numbered n | signed n => exact ⟨n, rfl⟩
  | _ => cases h

end Stage

/-- What an exchange does to the stage of a call and to the node, and what it signs. -/
inductive Move (nonceIn : Value → Option Int) (accepted : Nat) :
    Stage → Option Value → Nat → Stage → Prop
  | stay (σ : Stage) : Move nonceIn accepted σ none accepted σ
  | count : Move nonceIn accepted .unnumbered none accepted (.numbered accepted)
  | drop {σ : Stage} (hσ : σ.signed? = none) : Move nonceIn accepted σ none accepted .dropped
  | sign {n : Int} {transaction v : Value} (hn : nonceOf transaction = some n)
    (hv : nonceIn v = some n) :
    Move nonceIn accepted (.numbered n) (some transaction) accepted (.signed n v)
  | taken (v : Value) :
    Move nonceIn accepted (.signed accepted v) none (accepted + 1) (.sent accepted)
  | refused {n : Int} (v : Value) (hn : n ≠ accepted) :
    Move nonceIn accepted (.signed n v) none accepted (.sent n)

section Moves

variable {nonceIn : Value → Option Int} {accepted accepted' : Nat} {σ τ : Stage}
  {signed : Option Value} {q : Request} {x : Answer q}

lemma signed?_of_isQuiet (hq : isQuiet q = true) : Exchange.signed? ⟨q, x⟩ = none := by
  cases q with
  | sign => cases hq
  | _ => rfl

/-- The node answers a call on its way from a stage to the next. -/
lemma move_of_next (hnext : σ.Next q x τ) (h : Answers nonceIn accepted ⟨q, x⟩ accepted')
    (hread : ∀ n v, σ = .signed n v → nonceIn v = some n) :
    Move nonceIn accepted σ (Exchange.signed? ⟨q, x⟩) accepted' τ := by
  cases hnext with
  | quiet _ _ hq =>
    rw [signed?_of_isQuiet hq]
    cases h with
    | quiet => exact .stay σ
    | _ => cases hq
  | counted =>
    cases h with
    | counted => exact .count
    | quiet _ _ hq => cases hq
  | notCounted =>
    cases h with
    | notCounted => exact .drop rfl
    | quiet _ _ hq => cases hq
  | priced =>
    cases h with
    | priced => exact .stay _
    | quiet _ _ hq => cases hq
  | notPriced =>
    cases h with
    | priced => exact .drop rfl
    | quiet _ _ hq => cases hq
  | signed _ _ hn =>
    cases h with
    | signed _ _ hv => exact .sign hn (hv.trans hn)
    | quiet _ _ hq => cases hq
  | notSigned =>
    cases h with
    | notSigned => exact .drop rfl
    | quiet _ _ hq => cases hq
  | sent n v x =>
    have hv := hread n v rfl
    cases h with
    | taken _ htaken =>
      obtain rfl := Option.some.inj (hv.symm.trans htaken)
      exact .taken v
    | refused _ hrefused => exact .refused v fun hn => hrefused (hn ▸ hv)
    | quiet _ _ hq => cases hq

lemma Move.leads (h : Move nonceIn accepted σ signed accepted' τ) : σ.Leads τ := by
  cases h with
  | stay => exact .refl _
  | count => exact ⟨nofun, nofun, nofun⟩
  | drop hσ =>
    refine ⟨fun _ _ => .inr rfl, ?_, fun _ => rfl⟩
    rintro n rfl
    cases hσ
  | sign | taken | refused => exact ⟨fun _ h => .inl h, nofun, nofun⟩

/-- A number after a move was there before, or is the one that the node has told. -/
lemma Move.number_before (h : Move nonceIn accepted σ signed accepted' τ) {n : Int}
    (hn : τ.number? = some n) : σ.number? = some n ∨ τ = .numbered accepted ∧ n = accepted := by
  cases h with
  | stay | sign | taken | refused => exact .inl hn
  | count => exact .inr ⟨rfl, (Option.some.inj hn).symm⟩
  | drop => cases hn

/-- A call that has sent its number has done so before, or the number is behind the count then. -/
lemma Move.sent_before (h : Move nonceIn accepted σ signed accepted' τ) {n : Int}
    (hτ : τ = .sent n) : σ = .sent n ∨ σ.number? = some n ∧ (n ≤ accepted → n < accepted') := by
  subst hτ
  cases h with
  | stay => exact .inl rfl
  | taken => exact .inr ⟨rfl, fun _ => by omega⟩
  | refused _ hn => exact .inr ⟨rfl, fun hle => by omega⟩

lemma Move.read_before (h : Move nonceIn accepted σ signed accepted' τ) {n : Int} {v : Value}
    (hτ : τ = .signed n v) : σ = .signed n v ∨ nonceIn v = some n := by
  subst hτ
  cases h with
  | stay => exact .inl rfl
  | sign _ hv => exact .inr hv

/-- If the node has taken a transaction, its call has sent the number that was next. -/
lemma Move.accepted_after (h : Move nonceIn accepted σ signed accepted' τ) :
    accepted' = accepted ∨ accepted' = accepted + 1 ∧ τ = .sent accepted := by
  cases h with
  | taken => exact .inr ⟨rfl, rfl⟩
  | _ => exact .inl rfl

/-- What a call has signed after a move. -/
lemma Move.signed_after (h : Move nonceIn accepted σ signed accepted' τ) :
    signed = none ∧ τ.signed? = σ.signed? ∨
      ∃ transaction n, signed = some transaction ∧ nonceOf transaction = some n ∧
        σ.signed? = none ∧ τ.signed? = some n := by
  cases h with
  | sign hn => exact .inr ⟨_, _, rfl, hn, rfl, rfl⟩
  | drop hσ => exact .inl ⟨rfl, hσ.symm⟩
  | _ => exact .inl ⟨rfl, rfl⟩

lemma Move.accepted_le (h : Move nonceIn accepted σ signed accepted' τ) : accepted ≤ accepted' := by
  cases h with
  | taken => exact Nat.le_succ accepted
  | _ => exact Nat.le_refl _

end Moves

/-! ## Stations of calls -/

/-- What is left of a call, which follows the stages from its own on. -/
structure Station where
  stage : Stage
  rest : Rest
  follows : Follows Free stage rest

/-- A call has a number in hand if its stage says so. -/
lemma Station.inHand_rest (σ : Station) : inHand σ.rest = σ.stage.holds := by
  obtain ⟨stage, rest, follows⟩ := σ
  cases rest with
  | done r => exact follows.symm
  | ask q next => exact follows.1

/-- The pool of calls at stations. -/
def standing (accepted : Nat) (stations : List Station) : Pool :=
  ⟨accepted, stations.map (·.rest)⟩

/-- The stages of calls at stations. -/
def stagesOf (stations : List Station) : List Stage := stations.map (·.stage)

section Standing

variable {nonceIn : Value → Option Int} {accepted : Nat} {stations : List Station} {i j k : Nat}

lemma any_inHand_standing :
    (standing accepted stations).jobs[i]?.any inHand = (stagesOf stations)[i]?.any Stage.holds := by
  rw [standing, stagesOf, List.getElem?_map, List.getElem?_map]
  cases stations[i]? with
  | none => rfl
  | some σ => exact σ.inHand_rest

lemma overlap_standing :
    (standing accepted stations).Overlap i j ↔
      i ≠ j ∧ (stagesOf stations)[i]?.any Stage.holds = true ∧
        (stagesOf stations)[j]?.any Stage.holds = true := by
  rw [Pool.Overlap, any_inHand_standing, any_inHand_standing]

lemma Pool.Overlap.symm {p : Pool} (h : p.Overlap i j) : p.Overlap j i := ⟨h.1.symm, h.2.2, h.2.1⟩

/-- A call that is answered moves to a station from which it follows the stages. -/
lemma move_of_step {e : Exchange} {q : Pool} (h : Step nonceIn (standing accepted stations) k e q)
    (hread : ∀ n v, .signed n v ∈ stagesOf stations → nonceIn v = some n) :
    ∃ (σ τ : Station) (accepted' : Nat), stations[k]? = some σ ∧
      Move nonceIn accepted σ.stage e.signed? accepted' τ.stage ∧
        q = standing accepted' (stations.set k τ) := by
  cases h with
  | @answered accepted' _ next x hjob hanswers =>
    rw [standing, List.getElem?_map, Option.map_eq_some_iff] at hjob
    obtain ⟨σ, hσ, hrest⟩ := hjob
    have hfollows := σ.follows
    rw [hrest] at hfollows
    obtain ⟨τ, hnext, hτ⟩ := hfollows.2 x
    have hstage : σ.stage ∈ stagesOf stations := List.mem_map_of_mem (List.mem_of_getElem? hσ)
    refine ⟨σ, ⟨τ, next x, hτ⟩, accepted', hσ, ?_, ?_⟩
    · exact move_of_next hnext hanswers fun n v hv => hread n v (hv ▸ hstage)
    · rw [standing, standing, List.map_set]

end Standing

end SolidityAudit.LedgerClient
