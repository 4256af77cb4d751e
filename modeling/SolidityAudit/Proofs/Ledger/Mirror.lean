import SolidityAudit.Proofs.Analysis.Recorded
import SolidityAudit.Proofs.Ledger.Nonce
import SolidityAudit.Proofs.Number.Decimal
import SolidityAudit.Proofs.Value.Equality

/-!
# What becomes of the pages of the mirror

A query takes the next page of the mirror. A page that cannot be had, reports a failure or holds no
JSON ends well: the answer or the failure of the ledger says so. But a page may bring any value, and
a query takes it apart as if it were of the right shape. So the queries, and with them the report on
the health of a service, end well exactly when the value has that shape (`mirror_answered_iff`).
-/

namespace SolidityAudit

namespace LedgerClient

open Outside (Recorded ServerReply)
open Outside.Recorded

lemma unreported_amountText (v : Value) : Unreported (amountText v) :=
  .bind (Decimal.unreported_ofValue v) fun _ =>
    .bind (Decimal.unreported_movePoint ..) fun _ => .ok _

/-! ## Pages -/

variable {α : Type} {w w' : Recorded} {page : Except Fault ServerReply} {c : LedgerClient}
  {v contractId : Value}

/-- What a page of the mirror brings. -/
inductive Brought
  | value (v : Value)
  /-- an integer with more digits than can be read -/
  | longInteger
  /-- the page cannot be had, reports a failure or holds no JSON -/
  | nothing

/-- What a page of the mirror brings. -/
def broughtBy : Except Fault ServerReply → Brought
  | .error _ => .nothing
  | .ok r =>
    if 400 ≤ r.status ∧ r.status < 600 then .nothing
    else
      match Json.read .strict r.body with
      | .ok v => .value v
      | .error e =>
        match e.reason with
        | .tooManyDigits _ => .longInteger
        | _ => .nothing

/-- The value of a page. -/
def valueOf (page : Except Fault ServerReply) (url : String) : Except Fault Value := do
  let r ← page
  r.check url
  r.content

lemma check_of_success {r : ServerReply} (h : ¬ (400 ≤ r.status ∧ r.status < 600)) (url : String) :
    r.check url = .ok () := by
  unfold ServerReply.check
  rw [if_neg (by omega), if_neg (by omega)]

lemma check_of_failure {r : ServerReply} (h : 400 ≤ r.status ∧ r.status < 600) (url : String) :
    ∃ text, r.check url = .error (.outside .http text) := by
  unfold ServerReply.check
  by_cases hclient : r.status < 500
  · rw [if_pos ⟨h.1, hclient⟩]
    exact ⟨_, rfl⟩
  · rw [if_neg (by omega), if_pos ⟨by omega, h.2⟩]
    exact ⟨_, rfl⟩

/-- A query gets the value that a page brings, or else a fault that ends the exchange, but for an
integer that is too long. -/
lemma valueOf_cases (hend : ∀ f, page = .error f → endsExchange f = true) (url : String) :
    (∃ v, broughtBy page = .value v ∧ valueOf page url = .ok v) ∨
    (broughtBy page = .longInteger ∧ ∃ e, valueOf page url = .error (.unreadable e)) ∨
    (broughtBy page = .nothing ∧ ∃ f, valueOf page url = .error f ∧ endsExchange f = true) := by
  cases page with
  | error f => exact .inr (.inr ⟨rfl, f, rfl, hend f rfl⟩)
  | ok r =>
    have hvalue : valueOf (.ok r) url = r.check url >>= fun _ => r.content := rfl
    rw [hvalue, broughtBy]
    by_cases hstatus : 400 ≤ r.status ∧ r.status < 600
    · obtain ⟨text, hcheck⟩ := check_of_failure hstatus url
      rw [if_pos hstatus, hcheck]
      exact .inr (.inr ⟨rfl, _, rfl, rfl⟩)
    · rw [if_neg hstatus, check_of_success hstatus]
      show (∃ v, _ ∧ r.content = .ok v) ∨ (_ ∧ ∃ e, r.content = _) ∨ (_ ∧ ∃ f, r.content = _ ∧ _)
      unfold ServerReply.content
      cases Json.read .strict r.body with
      | ok v => exact .inl ⟨v, rfl, rfl⟩
      | error e =>
        dsimp only
        cases e.reason with
        | tooManyDigits n => exact .inr (.inl ⟨rfl, e, rfl⟩)
        | _ => exact .inr (.inr ⟨rfl, _, rfl, rfl⟩)

/-- The rest of a query goes on with what the body of a reply holds. -/
lemma run_body {url : String} {k : Value → Action α} {g : Value → Except Fault α}
    (hk : ∀ v, w.run (k v) = (g v, w)) (r : ServerReply) :
    w.run (Action.settle (r.check url) >>= fun _ => Action.settle r.content >>= k) =
      (valueOf (.ok r) url >>= g, w) := by
  have hvalue : valueOf (.ok r) url = r.check url >>= fun _ => r.content := rfl
  rw [hvalue]
  cases r.check url with
  | error f =>
    rw [run_bind_error (run_settle ..)]
    rfl
  | ok done =>
    rw [run_bind (run_settle ..)]
    cases r.content with
    | error f =>
      rw [run_bind_error (run_settle ..)]
      rfl
    | ok v =>
      rw [run_bind (run_settle ..), hk]
      rfl

/-! ## Contracts -/

/-- A page says that nothing is there. -/
def Missing (page : Except Fault ServerReply) : Prop :=
  ∃ r, page = .ok r ∧ r.status = 404

lemma broughtBy_of_missing (h : Missing page) : broughtBy page = .nothing := by
  obtain ⟨r, rfl, hstatus⟩ := h
  rw [broughtBy, if_pos (by omega)]

lemma run_contractRecord_of_missing (h : Missing w.pages.next.1) (c : LedgerClient)
    (contractId : Value) :
    ∃ w', w.run (c.contractRecord contractId) = (.ok none, w') := by
  obtain ⟨r, hr, hstatus⟩ := h
  unfold contractRecord
  dsimp only
  rw [run_bind (run_fetch ..), hr, run_bind (run_settle ..), if_pos hstatus]
  exact ⟨_, rfl⟩

lemma run_contractRecord (h : ¬ Missing w.pages.next.1) (c : LedgerClient) (contractId : Value) :
    ∃ url w', w.run (c.contractRecord contractId) =
      (valueOf w.pages.next.1 url >>= fun v => .ok (some v), w') := by
  refine ⟨c.mirrorUrl ++ "/api/v1/contracts/" ++ contractId.display, ?_⟩
  unfold contractRecord
  dsimp only
  rw [run_bind (run_fetch ..)]
  cases hpage : w.pages.next.1 with
  | error f =>
    rw [run_bind_error (run_settle ..)]
    exact ⟨_, rfl⟩
  | ok r =>
    have hstatus : r.status ≠ 404 := fun hstatus => h ⟨r, hpage, hstatus⟩
    rw [run_bind (run_settle ..), if_neg hstatus]
    exact ⟨_, run_body (fun v => run_pure _ (some v)) r⟩

/-- A value tells about a contract when it is an object. -/
lemma exists_verifiedAnswer_iff (contractId record : Value) :
    (∃ answer, verifiedAnswer contractId record = .ok answer) ↔ record.kind = .object := by
  cases record with
  | object fields => exact iff_of_true ⟨_, rfl⟩ rfl
  | _ => exact iff_of_false nofun nofun

/-- Whether a contract is on the network is told when the page brings an object or nothing. -/
lemma verify_returns_iff (hend : ∀ f, w.pages.next.1 = .error f → endsExchange f = true)
    (c : LedgerClient) (contractId : Value) :
    (∃ answer, (w.run (c.verify contractId)).1 = .ok answer) ↔
      broughtBy w.pages.next.1 ≠ .longInteger ∧
      ∀ v, broughtBy w.pages.next.1 = .value v → v.kind = .object := by
  unfold verify
  by_cases hmissing : Missing w.pages.next.1
  · obtain ⟨w', hrecord⟩ := run_contractRecord_of_missing hmissing c contractId
    rw [run_bind (run_attempt hrecord), broughtBy_of_missing hmissing]
    exact iff_of_true ⟨_, rfl⟩ ⟨nofun, nofun⟩
  · obtain ⟨url, w', hrecord⟩ := run_contractRecord hmissing c contractId
    rw [run_bind (run_attempt hrecord)]
    rcases valueOf_cases hend url with
      ⟨v, hbrought, hv⟩ | ⟨hbrought, e, he⟩ | ⟨hbrought, f, hf, hends⟩
    · rw [hv, hbrought]
      show (∃ answer, verifiedAnswer contractId v = .ok answer) ↔ _
      rw [exists_verifiedAnswer_iff]
      constructor
      · intro hkind
        refine ⟨nofun, ?_⟩
        rintro v' ⟨⟩
        exact hkind
      · intro h
        exact h.2 v rfl
    · rw [he, hbrought]
      exact iff_of_false nofun fun h => h.1 rfl
    · rw [hf, hbrought]
      refine iff_of_true ?_ ⟨nofun, nofun⟩
      show ∃ answer, (w'.run (if endsExchange f = true then _ else _)).1 = _
      rw [if_pos hends, run_bind (run_log ..)]
      exact ⟨_, rfl⟩

/-- What is told says whether the contract was verified. -/
lemma verify_verdict {answer : Value} (h : (w.run (c.verify contractId)).1 = .ok answer) :
    ∃ b more, answer = .object (("verified", .bool b) :: more) := by
  unfold verify at h
  obtain ⟨outcome, w', hrecord⟩ :
      ∃ outcome w', w.run (c.contractRecord contractId) = (outcome, w') := ⟨_, _, rfl⟩
  rw [run_bind (run_attempt hrecord)] at h
  cases outcome with
  | error f =>
    replace h : (w'.run (if endsExchange f = true then _ else _)).1 = .ok answer := h
    split at h
    · rw [run_bind (run_log ..)] at h
      obtain rfl := Except.ok.inj h
      exact ⟨false, _, rfl⟩
    · cases h
  | ok found =>
    cases found with
    | none =>
      obtain rfl := Except.ok.inj h
      exact ⟨false, _, rfl⟩
    | some record =>
      cases record with
      | object fields =>
        obtain rfl := Except.ok.inj h
        exact ⟨true, _, rfl⟩
      | _ => cases h

/-! ## Balances -/

/-- An answer about balances has the right shape: it has no entries, or the first one is an object
with an amount that can be shown. -/
def HoldsBalance (v : Value) : Prop :=
  ∃ fields, v = .object fields ∧
    let entries := (fieldOf "balances" fields).getD (.list [])
    entries.truthy = false ∨ ∃ amount entry rest, entries = .list (.object entry :: rest) ∧
      amountText ((fieldOf "balance" entry).getD (.int 0)) = .ok amount

/-- An outcome is a result, or a failure that the ledger reports. -/
def Settles (outcome : Except Fault α) : Prop :=
  (∃ a, outcome = .ok a) ∨ ∃ r, outcome = .error (.report r) ∧ r.family = .ledger

lemma settles_failure (message : String) (details : List (String × Value)) :
    Settles (.error (failure message details) : Except Fault α) :=
  .inr ⟨_, rfl, rfl⟩

lemma settles_iff_of_unreported {outcome : Except Fault α} (h : Unreported outcome) :
    Settles outcome ↔ ∃ a, outcome = .ok a := by
  constructor
  · rintro (hok | ⟨r, rfl, -⟩)
    · exact hok
    · cases h with
      | error hreport => cases hreport
  · exact .inl

/-- The amount in the first of the entries. -/
def amountOf (entries : Value) : Except Fault String :=
  (firstEntry entries >>= fun entry => entry.getD "balance" (.int 0)) >>= amountText

lemma unreported_getD (v : Value) (key : String) (default : Value) :
    Unreported (v.getD key default) := by
  cases v with
  | object fields => exact .ok _
  | _ => exact .error rfl

lemma unreported_amountOf (entries : Value) : Unreported (amountOf entries) := by
  refine .bind (.bind ?_ fun _ => unreported_getD ..) unreported_amountText
  unfold firstEntry
  split
  · exact .ok _
  · exact .ok _
  · exact .error rfl
  · exact .error rfl

/-- The first of the entries has an amount when it is an object. -/
lemma amountOf_eq_ok_iff {entries : Value} {amount : String} :
    amountOf entries = .ok amount ↔
      ∃ entry rest, entries = .list (.object entry :: rest) ∧
        amountText ((fieldOf "balance" entry).getD (.int 0)) = .ok amount := by
  constructor
  · intro h
    match entries, h with
    | .list (.object entry :: rest), h => exact ⟨entry, rest, rfl, h⟩
  · rintro ⟨entry, rest, rfl, h⟩
    exact h

/-- A trouble with the page is a failure of the ledger, unless the value of the page is to blame. -/
lemma run_balanceEntries (w : Recorded) (c : LedgerClient) :
    ∃ url w', w.run c.balanceEntries =
      (match valueOf w.pages.next.1 url >>= (·.getD "balances" (.list [])) with
        | .ok v => .ok v
        | .error f =>
          if endsExchange f || isValueFault f then
            .error (failure ("Failed to get account balance: " ++ f.message) [])
          else .error f, w') := by
  have hquery : ∃ w', w.run (do
      let reply ← Action.settle (← Action.ask (.fetch (c.mirrorUrl ++ "/api/v1/balances")
        (some [("account.id", c.accountId)]) c.timeout))
      Action.settle (reply.check (c.mirrorUrl ++ "/api/v1/balances"))
      let answer ← Action.settle reply.content
      Action.settle (answer.getD "balances" (.list []))) =
        (valueOf w.pages.next.1 (c.mirrorUrl ++ "/api/v1/balances") >>=
          (·.getD "balances" (.list [])), w') := by
    rw [run_bind (run_fetch ..)]
    cases w.pages.next.1 with
    | error f =>
      rw [run_bind_error (run_settle ..)]
      exact ⟨_, rfl⟩
    | ok r =>
      rw [run_bind (run_settle ..)]
      exact ⟨_, run_body (fun v => run_settle ..) r⟩
  obtain ⟨w', hquery⟩ := hquery
  refine ⟨c.mirrorUrl ++ "/api/v1/balances", w', ?_⟩
  unfold balanceEntries
  dsimp only
  rw [run_bind (run_attempt hquery)]
  cases valueOf w.pages.next.1 (c.mirrorUrl ++ "/api/v1/balances") >>=
      (·.getD "balances" (.list [])) with
  | ok v => rfl
  | error f =>
    dsimp only
    split <;> rfl

/-- The balance is the amount in the first of the entries, if there are some. -/
lemma run_balance {outcome : Except Fault Value} (h : w.run c.balanceEntries = (outcome, w')) :
    w.run c.balance = (outcome >>= fun entries =>
      if !entries.truthy then .error (failure ("Account not found: " ++ c.accountId.display) [])
      else amountOf entries, w') := by
  unfold balance
  cases outcome with
  | error f =>
    rw [run_bind_error h]
    rfl
  | ok entries =>
    rw [run_bind h]
    show w'.run (if (!entries.truthy) = true then _ else _) = (if _ then _ else _, _)
    split
    · rfl
    · unfold amountOf
      cases (firstEntry entries >>= fun entry => entry.getD "balance" (.int 0)) with
      | error f =>
        rw [run_bind_error (run_settle ..)]
        rfl
      | ok amount =>
        rw [run_bind (run_settle ..)]
        rfl

/-- The entries under a key settle the balance when there is none, or the first has an amount. -/
lemma settles_amount_iff (entries : Value) (accountId : String) :
    Settles (if !entries.truthy then .error (failure ("Account not found: " ++ accountId) [])
      else amountOf entries) ↔
    entries.truthy = false ∨ ∃ amount, amountOf entries = .ok amount := by
  cases htruthy : entries.truthy with
  | false => exact iff_of_true (settles_failure ..) (.inl rfl)
  | true =>
    show Settles (amountOf entries) ↔ _
    rw [settles_iff_of_unreported (unreported_amountOf entries)]
    simp

/-- The balance is told, or the ledger reports a failure, when the page brings nothing, an integer
that is too long, or an answer of the right shape. -/
lemma balance_settles_iff (hend : ∀ f, w.pages.next.1 = .error f → endsExchange f = true)
    (c : LedgerClient) :
    Settles (w.run c.balance).1 ↔
      ∀ v, broughtBy w.pages.next.1 = .value v → HoldsBalance v := by
  obtain ⟨url, w', hentries⟩ := run_balanceEntries w c
  rw [run_balance hentries]
  rcases valueOf_cases hend url with
    ⟨v, hbrought, hv⟩ | ⟨hbrought, e, he⟩ | ⟨hbrought, f, hf, hends⟩
  · have hvalue : (∀ v', Brought.value v = .value v' → HoldsBalance v') ↔ HoldsBalance v := by simp
    rw [hv, hbrought, hvalue]
    cases v with
    | object fields =>
      refine (settles_amount_iff ((fieldOf "balances" fields).getD (.list [])) _).trans ?_
      simp only [amountOf_eq_ok_iff]
      constructor
      · exact fun h => ⟨fields, rfl, h⟩
      · rintro ⟨_, ⟨⟩, h⟩
        exact h
    | _ => exact iff_of_false (by rintro (⟨_, ⟨⟩⟩ | ⟨_, ⟨⟩, _⟩)) (by rintro ⟨_, ⟨⟩, _⟩)
  · rw [he, hbrought]
    exact iff_of_true (settles_failure ..) nofun
  · rw [hf, hbrought]
    refine iff_of_true ?_ nofun
    show Settles ((match (.error f : Except Fault Value) with
      | .ok v => .ok v
      | .error f => if endsExchange f || isValueFault f then _ else _) >>= _)
    dsimp only
    rw [hends, Bool.true_or, if_pos rfl]
    exact settles_failure ..

/-! ## The state of the network -/

/-- An answer on the state of the network tells the balance of an account that is connected, or an
error and no balance. -/
def TellsState (answer : Value) : Prop :=
  (∃ amount, answer.get "status" = .ok (.str "connected") ∧
    answer.get "balance" = .ok (.str amount)) ∨
  (answer.get "status" = .ok (.str "error") ∧ answer.get "balance" = .ok .null)

/-- How the account stands is told when its balance is, or when the ledger reports a failure. -/
lemma run_status (w : Recorded) (c : LedgerClient) :
    ∃ w' outcome, w.run c.status = (outcome, w') ∧
      (∀ answer, outcome = .ok answer → ∃ fields, answer = .object fields ∧ TellsState answer) ∧
      ((∃ answer, outcome = .ok answer) ↔ Settles ((w.noting [.clock]).run c.balance).1) := by
  obtain ⟨balance, w', hbalance⟩ :
      ∃ balance w', (w.noting [.clock]).run c.balance = (balance, w') := ⟨_, _, rfl⟩
  unfold status
  rw [run_bind (run_clock w)]
  dsimp only
  rw [run_bind (run_attempt hbalance), hbalance]
  cases balance with
  | ok amount =>
    refine ⟨_, _, rfl, ?_, iff_of_true ⟨_, rfl⟩ (.inl ⟨amount, rfl⟩)⟩
    rintro answer ⟨⟩
    exact ⟨_, rfl, .inl ⟨amount, rfl, rfl⟩⟩
  | error f =>
    cases f with
    | report r =>
      dsimp only
      by_cases hfamily : r.family = .ledger
      · rw [if_pos hfamily]
        refine ⟨_, _, rfl, ?_, iff_of_true ⟨_, rfl⟩ (.inr ⟨r, rfl, hfamily⟩)⟩
        rintro answer ⟨⟩
        exact ⟨_, rfl, .inr ⟨rfl, rfl⟩⟩
      · rw [if_neg hfamily]
        refine ⟨_, _, rfl, nofun, iff_of_false nofun ?_⟩
        rintro (⟨_, ⟨⟩⟩ | ⟨_, ⟨⟩, h⟩)
        exact hfamily h
    | _ =>
      refine ⟨_, _, rfl, nofun, iff_of_false nofun ?_⟩
      rintro (⟨_, ⟨⟩⟩ | ⟨_, ⟨⟩, _⟩)

end LedgerClient

/-! ## The health of a service -/

namespace Session

open Outside (Recorded)
open Outside.Recorded
open LedgerClient (Settles run_status)

variable {w w' : Recorded} {s : Session} {c : LedgerClient} {st : Store}

lemma runJob_status {outcome : Except Fault Value} (hledger : s.ledger = some c)
    (h : w.run c.status = (outcome, w')) :
    s.runJob w st (Service.ask .status) = ((.ok outcome, st), w') :=
  runJob_ask _ (run_exchange ((run_bind (run_requireLedger hledger)).trans h))

/-- A part of an answer, or something else if the answer is empty. -/
lemma runJob_field (s : Session) (w : Recorded) (st : Store) (fields : List (String × Value))
    (key : String) (default : Value) :
    ∃ v, s.runJob w st (if (Value.object fields).truthy then
        Service.settle ((Value.object fields).get key) else pure default) = ((.ok v, st), w) := by
  split
  · exact ⟨_, rfl⟩
  · exact ⟨_, rfl⟩

/-- The health of a service is told when the state of the network is. -/
lemma health_returns_iff (hledger : s.ledger = some c) (w : Recorded) (st : Store) :
    (∃ answer, (s.runJob w st s.service.health).1.1 = .ok answer) ↔
      ∃ answer, (w.run c.status).1 = .ok answer := by
  obtain ⟨w', outcome, hstatus, hobject, -⟩ := run_status w c
  have hsome : s.service.explorerUrl.isSome = true := by
    rw [service, hledger]
    rfl
  unfold Service.health
  rw [if_pos hsome, hstatus, runJob_bind (runJob_status hledger hstatus)]
  cases outcome with
  | error f =>
    rw [runJob_bind_error (runJob_settle _)]
  | ok answer =>
    obtain ⟨fields, rfl, -⟩ := hobject answer rfl
    refine iff_of_true ?_ ⟨_, rfl⟩
    rw [runJob_bind (runJob_settle _)]
    dsimp only
    rw [runJob_bind runJob_now, runJob_bind runJob_load]
    obtain ⟨status, hfield⟩ := runJob_field s (w'.noting [.clock]) st fields "status" .null
    rw [runJob_bind hfield]
    obtain ⟨network, hfield⟩ :=
      runJob_field s (w'.noting [.clock]) st fields "network" s.service.network
    rw [runJob_bind hfield]
    obtain ⟨balance, hfield⟩ := runJob_field s (w'.noting [.clock]) st fields "balance" .null
    rw [runJob_bind hfield]
    exact ⟨_, rfl⟩

end Session

namespace LedgerClient

open Outside (Recorded ServerReply)
open Outside.Recorded

variable {w : Recorded}

/-- Whether a contract is known can be told when the page brings an object or nothing. The balance,
the state of the network and the health of a service can be told, or the ledger reports a failure,
when the page brings anything but a value of the wrong shape. -/
theorem mirror_answered_iff (hend : ∀ f, w.pages.next.1 = .error f → endsExchange f = true)
    (c : LedgerClient) :
    (∀ contractId, ((∃ answer, (w.run (c.verify contractId)).1 = .ok answer) ↔
        broughtBy w.pages.next.1 ≠ .longInteger ∧
          ∀ v, broughtBy w.pages.next.1 = .value v → v.kind = .object) ∧
      ∀ answer, (w.run (c.verify contractId)).1 = .ok answer →
        ∃ b, answer.get "verified" = .ok (.bool b)) ∧
    (((∃ amount, (w.run c.balance).1 = .ok amount) ∨
        ∃ r, (w.run c.balance).1 = .error (.report r) ∧ r.family = .ledger) ↔
      ∀ v, broughtBy w.pages.next.1 = .value v → HoldsBalance v) ∧
    ((∃ answer, (w.run c.status).1 = .ok answer) ↔
      ∀ v, broughtBy w.pages.next.1 = .value v → HoldsBalance v) ∧
    (∀ answer, (w.run c.status).1 = .ok answer → TellsState answer) ∧
    ∀ (s : Session) (st : Store), s.ledger = some c →
      ((∃ answer, (s.runJob w st s.service.health).1.1 = .ok answer) ↔
        ∀ v, broughtBy w.pages.next.1 = .value v → HoldsBalance v) := by
  obtain ⟨w', outcome, hstatus, htells, hsettles⟩ := run_status w c
  have hbalance := balance_settles_iff hend c
  have hstate : (∃ answer, (w.run c.status).1 = .ok answer) ↔
      ∀ v, broughtBy w.pages.next.1 = .value v → HoldsBalance v := by
    rw [hstatus]
    exact hsettles.trans (balance_settles_iff (w := w.noting [.clock]) hend c)
  refine ⟨fun contractId => ⟨verify_returns_iff hend c contractId, ?_⟩, hbalance, hstate, ?_, ?_⟩
  · intro answer h
    obtain ⟨b, more, rfl⟩ := verify_verdict h
    exact ⟨b, rfl⟩
  · intro answer h
    rw [hstatus] at h
    obtain ⟨fields, -, htold⟩ := htells answer h
    exact htold
  · intro s st hledger
    exact (Session.health_returns_iff hledger w st).trans hstate

/-! ## Two pages -/

/-- A world in which the mirror answers the next query with a body. -/
def pageWorld (body : String) : Recorded where
  clock := 1700000000000
  environment := []
  files := { entries := [] }
  replies := ⟨[], .noFile ""⟩
  receipts := ⟨[], .noFile ""⟩
  pages := ⟨[.ok ⟨200, "OK", body⟩], .noFile ""⟩
  outputs := ⟨[], .noFile ""⟩
  compilers := []
  nonce := 7
  gasPrice := 10
  account := .ok "0xA"
  history := []

/-- The body of an answer about balances. -/
def oneBalance : String := "\x7b\"balances\": [\x7b\"balance\": 150000000\x7d]\x7d"

lemma eq_ok_of_toOption {ε : Type} {x : Except ε α} {a : α} (h : x.toOption = some a) :
    x = .ok a := by
  cases x with
  | error e => cases h
  | ok b => exact congrArg Except.ok (Option.some.inj h)

lemma read_oneBalance : (Json.read .strict oneBalance).toOption =
    some (.object [("balances", .list [.object [("balance", .int 150000000)]])]) := by
  decide +kernel

lemma valueOf_page {body : String} (h : (Json.read .strict body).toOption = some v)
    (url : String) : valueOf (pageWorld body).pages.next.1 url = .ok v := by
  have hvalue : valueOf (pageWorld body).pages.next.1 url =
      ServerReply.check ⟨200, "OK", body⟩ url >>= fun _ =>
        ServerReply.content ⟨200, "OK", body⟩ := rfl
  rw [hvalue, check_of_success (by simp)]
  show ServerReply.content _ = _
  unfold ServerReply.content
  rw [eq_ok_of_toOption h]

lemma broughtBy_page {body : String} (h : (Json.read .strict body).toOption = some v) :
    broughtBy (pageWorld body).pages.next.1 = .value v := by
  have hend : ∀ f, (pageWorld body).pages.next.1 = .error f → endsExchange f = true := nofun
  rcases valueOf_cases hend "" with ⟨v', hbrought, hv⟩ | ⟨-, e, he⟩ | ⟨-, f, hf, -⟩
  · rw [valueOf_page h] at hv
    obtain rfl := Except.ok.inj hv
    exact hbrought
  · rw [valueOf_page h] at he
    cases he
  · rw [valueOf_page h] at hf
    cases hf

lemma amountText_oneBalance : amountText (.int 150000000) = .ok "1.5 ℏ" := rfl

/-- A balance is told, and an object tells about a contract. -/
theorem oneBalance_answered :
    (∀ f, (pageWorld oneBalance).pages.next.1 = .error f → endsExchange f = true) ∧
    (∃ answer, ((pageWorld oneBalance).run (tester.verify (.str "0.0.7"))).1 = .ok answer) ∧
    ∃ answer, ((pageWorld oneBalance).run tester.status).1 = .ok answer ∧ TellsState answer := by
  have hend : ∀ f, (pageWorld oneBalance).pages.next.1 = .error f → endsExchange f = true := nofun
  obtain ⟨hverify, -, hstatus, htells, -⟩ := mirror_answered_iff hend tester
  have hshape : ∀ v, broughtBy (pageWorld oneBalance).pages.next.1 = .value v → HoldsBalance v := by
    rw [broughtBy_page read_oneBalance]
    rintro v ⟨⟩
    exact ⟨_, rfl, .inr ⟨"1.5 ℏ", _, _, rfl, amountText_oneBalance⟩⟩
  obtain ⟨answer, hanswer⟩ := hstatus.mpr hshape
  refine ⟨hend, (hverify _).1.mpr ?_, answer, hanswer, htells answer hanswer⟩
  rw [broughtBy_page read_oneBalance]
  refine ⟨nofun, ?_⟩
  rintro v ⟨⟩
  rfl

/-- A page that holds a list ends the queries with a fault of another kind. -/
theorem emptyList_not_answered :
    ((pageWorld "[]").run (tester.verify (.str "0.0.7"))).1 = .error (.noAttribute .list "get") ∧
    ((pageWorld "[]").run tester.balance).1 = .error (.noAttribute .list "get") ∧
    ((pageWorld "[]").run tester.status).1 = .error (.noAttribute .list "get") := by
  have hread : (Json.read .strict "[]").toOption = some (.list []) := rfl
  have hbalance (w : Recorded) (hpage : w.pages = (pageWorld "[]").pages) :
      ∃ w', w.run tester.balance = (.error (.noAttribute .list "get"), w') := by
    obtain ⟨url, w', hentries⟩ := run_balanceEntries w tester
    rw [hpage, valueOf_page hread] at hentries
    exact ⟨w', run_balance hentries⟩
  obtain ⟨w', hclocked⟩ := hbalance ((pageWorld "[]").noting [.clock]) rfl
  obtain ⟨w'', htold⟩ := hbalance (pageWorld "[]") rfl
  refine ⟨?_, congrArg Prod.fst htold, ?_⟩
  · have hpresent : ¬ Missing (pageWorld "[]").pages.next.1 := by
      rintro ⟨r, hr, hstatus⟩
      obtain rfl := Except.ok.inj hr
      cases hstatus
    obtain ⟨url, w', hrecord⟩ := run_contractRecord hpresent tester (.str "0.0.7")
    rw [valueOf_page hread] at hrecord
    unfold verify
    rw [run_bind (run_attempt hrecord)]
    rfl
  · unfold status
    rw [run_bind (run_clock _)]
    dsimp only
    rw [run_bind (run_attempt hclocked)]
    rfl

end LedgerClient

end SolidityAudit
