import Mathlib.Data.List.Basic
import SolidityAudit.Ledger.Transaction
import SolidityAudit.Proofs.Script

/-!
# Stages of a transaction

A call that sends a transaction asks the node how many it has taken from the account, numbers its
transaction by the answer, asks for the price of gas, signs and sends. Until the transaction is
sent, the call has a number in hand that another call may have as well. `Follows` says of a script
that it goes through these stages whatever it is answered; there is one lemma for each program of a
client.
-/

namespace SolidityAudit.LedgerClient

open Outside

/-! ## Stages -/

/-- The number that a transaction carries. -/
def nonceOf (transaction : Value) : Option Int :=
  match transaction.get "nonce" with
  | .ok (.int n) => some n
  | _ => none

/-- Requests for which a call has a number in hand. -/
def usesNumber : Request → Bool
  | .gasPrice | .sign .. | .send _ => true
  | _ => false

/-- Requests that have nothing to do with a number. -/
def isQuiet : Request → Bool
  | .transactionCount _ | .gasPrice | .sign .. | .send _ => false
  | _ => true

/-- How far a call has come with its transaction. -/
inductive Stage
  | unnumbered
  | numbered (n : Int)
  /-- the transaction is signed, as given -/
  | signed (n : Int) (transaction : Value)
  | sent (n : Int)
  /-- the call has failed on the way -/
  | dropped

namespace Stage

/-- Whether the call has a number in hand. -/
def holds : Stage → Bool
  | numbered _ | signed .. => true
  | _ => false

/-- One exchange of a call, and the stages before and after it. -/
inductive Next : Stage → (q : Request) → Answer q → Stage → Prop
  | quiet {σ : Stage} {q : Request} (x : Answer q) (hσ : σ.holds = false) (hq : isQuiet q = true) :
    Next σ q x σ
  | counted (address : String) (n : Int) :
    Next unnumbered (.transactionCount address) (.ok n) (numbered n)
  | notCounted (address : String) (f : Fault) :
    Next unnumbered (.transactionCount address) (.error f) dropped
  | priced (n price : Int) : Next (numbered n) .gasPrice (.ok price) (numbered n)
  | notPriced (n : Int) (f : Fault) : Next (numbered n) .gasPrice (.error f) dropped
  | signed {n : Int} {transaction : Value} (key v : Value) (hn : nonceOf transaction = some n) :
    Next (numbered n) (.sign transaction key) (.ok v) (signed n v)
  | notSigned (n : Int) (transaction key : Value) (f : Fault) :
    Next (numbered n) (.sign transaction key) (.error f) dropped
  | sent (n : Int) (v : Value) (x : Except Fault Value) : Next (signed n v) (.send v) x (sent n)

end Stage

/-! ## Scripts that follow the stages -/

/-- From a stage on, whatever the answers are, a script goes through the stages and comes to an end
as described. -/
def Follows {α : Type} (P : Stage → α → Prop) : Stage → Script Request Answer α → Prop
  | σ, .done a => P σ a
  | σ, .ask q next => usesNumber q = σ.holds ∧ ∀ x, ∃ τ, σ.Next q x τ ∧ Follows P τ (next x)

/-- At the end no number is in hand. -/
def Free {α : Type} (σ : Stage) (_ : α) : Prop := σ.holds = false

section Scripts

variable {α β : Type} {P Q : Stage → α → Prop} {σ : Stage}

/-- One script after the other. -/
lemma Follows.script_bind {R : Stage → β → Prop} {x : Script Request Answer α}
    {k : α → Script Request Answer β} (h : Follows P σ x)
    (hk : ∀ τ a, P τ a → Follows R τ (k a)) : Follows R σ (x.bind k) := by
  induction x generalizing σ with
  | done a => exact hk σ a h
  | ask q next ih =>
    refine ⟨h.1, fun x => ?_⟩
    obtain ⟨τ, hτ, hnext⟩ := h.2 x
    exact ⟨τ, hτ, ih x hnext⟩

lemma Follows.mono {x : Script Request Answer α} (h : Follows P σ x) (hPQ : ∀ τ a, P τ a → Q τ a) :
    Follows Q σ x := by
  rw [← Script.bind_done x]
  exact h.script_bind hPQ

end Scripts

-- the same for programs, where a fault ends all

section Programs

variable {α β : Type} {P : Stage → Except Fault α → Prop} {R : Stage → Except Fault β → Prop}
  {σ : Stage}

lemma Follows.bind {x : Action α} {k : α → Action β} (h : Follows P σ x.run)
    (hok : ∀ τ a, P τ (.ok a) → Follows R τ (k a).run)
    (herror : ∀ τ f, P τ (.error f) → R τ (.error f)) : Follows R σ (x >>= k).run := by
  refine Follows.script_bind h fun τ r hr => ?_
  cases r with
  | ok a => exact hok τ a hr
  | error f => exact herror τ f hr

lemma Follows.attempt {x : Action α} (h : Follows P σ x.run) :
    Follows (fun τ r => ∃ a, r = .ok a ∧ P τ a) σ (Action.attempt x).run :=
  Follows.script_bind h fun _ a ha => ⟨a, rfl, ha⟩

end Programs

/-! ## Programs that stay at a stage -/

/-- A program that leaves the call at its stage. -/
def Stays {α : Type} (σ : Stage) (x : Action α) : Prop := Follows (fun τ _ => τ = σ) σ x.run

section Staying

variable {α β : Type} {σ : Stage}

lemma Stays.bind {x : Action α} {k : α → Action β} (h : Stays σ x) (hk : ∀ a, Stays σ (k a)) :
    Stays σ (x >>= k) := by
  refine Follows.bind h ?_ fun _ _ hτ => hτ
  rintro _ a rfl
  exact hk a

lemma Stays.attempt {x : Action α} (h : Stays σ x) : Stays σ (Action.attempt x) :=
  Follows.mono (Follows.attempt h) fun _ _ ⟨_, _, hτ⟩ => hτ

lemma stays_pure (a : α) : Stays σ (pure a) := rfl

lemma stays_throw (f : Fault) : Stays σ (throw f : Action α) := rfl

lemma stays_settle (r : Except Fault α) : Stays σ (Action.settle r) := rfl

lemma usesNumber_of_isQuiet {q : Request} (hq : isQuiet q = true) : usesNumber q = false := by
  cases q with
  | gasPrice | sign | send => cases hq
  | _ => rfl

lemma stays_ask {q : Request} (hσ : σ.holds = false) (hq : isQuiet q = true) :
    Stays σ (Action.ask q) :=
  ⟨(usesNumber_of_isQuiet hq).trans hσ.symm, fun x => ⟨σ, .quiet x hσ hq, rfl⟩⟩

lemma stays_log (hσ : σ.holds = false) (level : Level) (text : String) :
    Stays σ (Action.log level text) := stays_ask hσ rfl

/-- An exchange that has nothing to do with a number, and what comes after it. -/
lemma stays_exchange {q : Request} {f : Answer q → Except Fault α} {k : α → Action β}
    (hσ : σ.holds = false) (hq : isQuiet q = true) (hk : ∀ a, Stays σ (k a)) :
    Stays σ (Action.ask q >>= fun x => Action.settle (f x) >>= k) := by
  refine (stays_ask hσ hq).bind fun x => ?_
  exact (stays_settle (f x)).bind hk

lemma Stays.follows {x : Action α} (h : Stays σ x) (hσ : σ.holds = false) :
    Follows Free σ x.run := Follows.mono h fun _ _ hτ => by rw [Free, hτ, hσ]

lemma Stays.follows_bind {x : Action α} {k : α → Action β} (h : Stays σ x) (hσ : σ.holds = false)
    (hk : ∀ a, Follows Free σ (k a).run) : Follows Free σ (x >>= k).run := by
  refine Follows.bind h ?_ ?_
  · rintro _ a rfl
    exact hk a
  · rintro _ f rfl
    exact hσ

/-- A program that stays where it is comes after one that has no number in hand at its end. -/
lemma follows_bind_stays {x : Action α} {k : α → Action β} (h : Follows Free σ x.run)
    (hk : ∀ {τ : Stage}, τ.holds = false → ∀ a, Stays τ (k a)) :
    Follows Free σ (x >>= k).run :=
  Follows.bind h (fun _ a hτ => (hk hτ a).follows hτ) fun _ _ hτ => hτ

end Staying

/-! ## Compiling -/

section Compiling

variable {σ : Stage} (hσ : σ.holds = false)

include hσ

lemma stays_prepare (c : Compiler) : Stays σ c.prepare := by
  have hselect : Stays σ (do Action.settle (← Action.ask (.selectCompiler c.version))) :=
    (stays_ask hσ rfl).bind fun x => stays_settle x
  have hinstall : ∀ present : Bool, Stays σ (do
      if !present then
        Action.log .info ("Installing solc " ++ c.version.display)
        Action.settle (← Action.ask (.installCompiler c.version))
      Action.settle (← Action.ask (.selectCompiler c.version))) := by
    intro present
    cases present with
    | true => exact hselect
    | false =>
      refine (stays_log hσ _ _).bind fun _ => ?_
      exact stays_exchange hσ rfl fun _ => hselect
  unfold Compiler.prepare
  refine stays_exchange hσ rfl fun installed => ?_
  split
  · exact (stays_throw _).bind hinstall
  · exact (stays_throw _).bind hinstall
  · exact (stays_pure _).bind hinstall

lemma stays_output (c : Compiler) (source : Value) : Stays σ (c.output source) := by
  have hrun : Stays σ (do
      c.prepare
      Action.settle (← Action.ask (.compile (c.input source) true))) := by
    refine (stays_prepare hσ c).bind fun _ => ?_
    exact (stays_ask hσ rfl).bind fun x => stays_settle x
  unfold Compiler.output
  refine hrun.attempt.bind fun r => ?_
  cases r with
  | ok v => exact stays_pure v
  | error f =>
    dsimp only
    split
    · exact stays_throw _
    · exact stays_throw _

lemma stays_compile (c : Compiler) (source : Value) : Stays σ (c.compile source) := by
  unfold Compiler.compile
  refine (stays_output hσ c source).bind fun output => ?_
  refine (stays_settle _).bind fun contract => ?_
  refine (stays_settle _).bind fun size => ?_
  exact (stays_log hσ _ _).bind fun _ => stays_pure contract

end Compiling

/-! ## Numbering, signing and sending -/

section Sending

variable (c : LedgerClient)

/-- A transaction is numbered by what the node has answered. -/
lemma follows_envelope (gas : Value) :
    Follows (fun τ r => match r with
      | .ok fields => ∃ n, τ = .numbered n ∧ ∃ rest, fields = ("nonce", .int n) :: rest
      | .error _ => τ = .dropped) .unnumbered (c.envelope gas).run := by
  refine ⟨rfl, fun count => ?_⟩
  cases count with
  | error f => exact ⟨.dropped, .notCounted _ f, rfl⟩
  | ok n =>
    refine ⟨.numbered n, .counted _ n, rfl, fun price => ?_⟩
    cases price with
    | error f => exact ⟨.dropped, .notPriced n f, rfl⟩
    | ok price => exact ⟨.numbered n, .priced n price, n, rfl, _, rfl⟩

/-- A transaction with the number in hand is signed and sent, and nothing is in hand then. -/
lemma follows_submit {transaction : Value} {n : Int} (hn : nonceOf transaction = some n)
    (timeout : Nat) : Follows Free (.numbered n) (c.submit transaction timeout).run := by
  refine ⟨rfl, fun signed => ?_⟩
  cases signed with
  | error f => exact ⟨.dropped, .notSigned n _ _ f, rfl⟩
  | ok v =>
    refine ⟨.signed n v, .signed _ v hn, rfl, fun hash => ⟨.sent n, .sent n v hash, ?_⟩⟩
    -- the receipt is waited for
    cases hash with
    | error f => exact rfl
    | ok hash => exact ⟨rfl, fun x => ⟨.sent n, .quiet x rfl rfl, rfl⟩⟩

/-- The fields of a transaction in front of its number leave the number as it is. -/
lemma nonceOf_object {fields rest : List (String × Value)} {n : Int}
    (h : fieldOf "nonce" fields = none) :
    nonceOf (.object (fields ++ ("nonce", .int n) :: rest)) = some n := by
  have hfield : fieldOf "nonce" (fields ++ ("nonce", .int n) :: rest) = some (.int n) := by
    rw [fieldOf] at h
    rw [fieldOf, List.lookup_append, h, List.lookup_cons_self, Option.none_or]
  rw [nonceOf, Value.get, Value.getD, hfield]
  rfl

/-- A transaction that is numbered, signed and sent. -/
lemma follows_transaction (gas : Value) (timeout : Nat) (fields : List (String × Value))
    (h : fieldOf "nonce" fields = none) :
    Follows Free .unnumbered
      (c.envelope gas >>= fun rest => c.submit (.object (fields ++ rest)) timeout).run := by
  refine Follows.bind (follows_envelope c gas) ?_ ?_
  · rintro τ _ ⟨n, rfl, rest, rfl⟩
    exact follows_submit c (nonceOf_object h) timeout
  · rintro τ f rfl
    exact rfl

lemma follows_create (contract : CompiledContract) (arguments : Value) :
    Follows Free .unnumbered (c.create contract arguments).run := by
  unfold create
  refine (stays_settle _).follows_bind rfl fun arguments => ?_
  refine (stays_ask rfl rfl).follows_bind rfl fun x => ?_
  refine (stays_settle x).follows_bind rfl fun _ => ?_
  exact follows_transaction c _ _ [("from", .str c.address)] rfl

lemma follows_carry (digest : String) : Follows Free .unnumbered (c.carry digest).run := by
  unfold carry
  exact follows_transaction c _ _ [_, _, _, _] rfl

lemma follows_receiptOr (what : String) {exchange : Action Value} {σ : Stage}
    (h : Follows Free σ exchange.run) : Follows Free σ (receiptOr what exchange).run := by
  unfold receiptOr
  refine Follows.bind (Follows.attempt h) ?_ ?_
  · rintro τ r ⟨_, -, hτ⟩
    cases r with
    | ok receipt => exact (stays_pure receipt).follows hτ
    | error f =>
      dsimp only
      split
      · exact (stays_throw _).follows hτ
      · exact (stays_throw _).follows hτ
  · rintro τ f ⟨_, hf, -⟩
    cases hf

lemma follows_anchor (document memo : Value) :
    Follows Free .unnumbered (c.anchor document memo).run := by
  unfold anchor
  refine (stays_settle _).follows_bind rfl fun digest => ?_
  refine follows_bind_stays (follows_receiptOr _ (follows_carry c _)) fun hτ receipt => ?_
  refine (stays_settle _).bind fun success => ?_
  have hid : ∀ τ : Stage, τ.holds = false → Stays τ (do
      let id ← Action.settle (transactionIdOf receipt)
      Action.log .info
        ("Stored document '" ++ memo.display ++ "' as " ++ id ++ " (sha256 "
          ++ String.ofList (digest.toList.take 16) ++ "…)")
      return id) := by
    intro τ hτ
    refine (stays_settle _).bind fun id => ?_
    exact (stays_log hτ _ _).bind fun _ => stays_pure id
  cases success with
  | true => exact hid _ hτ
  | false => exact (stays_throw _).bind fun _ => hid _ hτ

lemma follows_deploy (source arguments : Value) :
    Follows Free .unnumbered (c.deploy source arguments).run := by
  unfold deploy
  refine (stays_compile rfl c.compiler source).follows_bind rfl fun contract => ?_
  refine follows_bind_stays (follows_receiptOr _ (follows_create c contract arguments)) ?_
  intro τ hτ receipt
  refine (stays_settle _).bind fun d => ?_
  exact (stays_log hτ _ _).bind fun _ => stays_pure d

end Sending

end SolidityAudit.LedgerClient
