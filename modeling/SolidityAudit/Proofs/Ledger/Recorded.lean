import SolidityAudit.Analysis.Session
import SolidityAudit.Proofs.Outside.Recorded

/-!
# The ledger in a recorded world

When the settings name a network, the node knows the account, and the next receipt tells of success
(`LedgerWorks`), a client opens (`run_start`) and the next document is anchored (`run_anchor`). A
document that cannot be written has no digest, so the ledger is not asked to anchor it
(`run_anchor_of_hasLong`).
-/

namespace SolidityAudit

namespace Outside.Recorded

variable (w : Recorded)

/-- The world after some requests of which one has been answered with a receipt. -/
def settled (asked : List Request) : Recorded :=
  { w.noting asked with receipts := w.receipts.next.2 }

lemma noting_settled (asked more : List Request) :
    (w.noting asked).settled more = w.settled (asked ++ more) := by
  unfold settled
  rw [noting_noting]
  rfl

lemma settled_noting (asked more : List Request) :
    (w.settled asked).noting more = w.settled (asked ++ more) := by
  unfold settled noting
  rw [List.append_assoc]

/-- The world after some requests of which one has been answered with a page. -/
def served (asked : List Request) : Recorded :=
  { w.noting asked with pages := w.pages.next.2 }

/-! ## Exchanges -/

lemma run_openNode (url timeout : Value) :
    w.run (Action.ask (.openNode url timeout)) = (.ok (.ok ()), w.noting [.openNode url timeout]) :=
  rfl

lemma run_retry (scheme : String) (policy : RetryPolicy) :
    w.run (Action.ask (.retry scheme policy)) = (.ok (.ok ()), w.noting [.retry scheme policy]) :=
  rfl

lemma run_useKey (key : Value) :
    w.run (Action.ask (.useKey key)) = (.ok w.account, w.noting [.useKey key]) :=
  rfl

lemma run_transactionCount (address : String) :
    w.run (Action.ask (.transactionCount address)) =
      (.ok (.ok w.nonce), w.noting [.transactionCount address]) :=
  rfl

lemma run_gasPrice :
    w.run (Action.ask .gasPrice) = (.ok (.ok w.gasPrice), w.noting [.gasPrice]) :=
  rfl

lemma run_sign (transaction key : Value) :
    w.run (Action.ask (.sign transaction key)) =
      (.ok (.ok transaction), w.noting [.sign transaction key]) :=
  rfl

lemma run_send (signed : Value) :
    w.run (Action.ask (.send signed)) = (.ok (.ok signed), w.noting [.send signed]) :=
  rfl

lemma run_awaitReceipt (hash : Value) (timeout : Nat) :
    w.run (Action.ask (.awaitReceipt hash timeout)) =
      (.ok w.receipts.next.1, w.settled [.awaitReceipt hash timeout]) :=
  rfl

lemma run_fetch (url : String) (query : Option (List (String × Value))) (timeout : Value) :
    w.run (Action.ask (.fetch url query timeout)) =
      (.ok w.pages.next.1, w.served [.fetch url query timeout]) :=
  rfl

/-! ## A ledger that works -/

/-- The next receipt tells of a transaction that succeeded. -/
def Confirms (w : Recorded) : Prop :=
  ∃ receipt id, w.receipts.next.1 = .ok receipt ∧
    LedgerClient.isSuccess receipt = .ok true ∧ LedgerClient.transactionIdOf receipt = .ok id

/-- The ledger of the settings can be reached, and takes the next transaction. -/
structure LedgerWorks (c : Settings) : Prop where
  network : ∃ n ∈ Network.every, c .network = .str n.name
  mirrorUrl : (c .mirrorUrl).truthy = false ∨ (c .mirrorUrl).kind = .str
  explorerUrl : (c .explorerUrl).truthy = false ∨ (c .explorerUrl).kind = .str
  account : ∃ address, w.account = .ok address
  confirms : w.Confirms

end Outside.Recorded

namespace LedgerClient

open Outside (Recorded)
open Outside.Recorded

variable {w : Recorded} {c : Settings}

/-! ## Opening -/

lemma network_of_name {n : Network} (h : n ∈ Network.every) :
    Network.ofValue (.str n.name) = .ok n := by
  simp only [Network.every, List.mem_cons, List.not_mem_nil, or_false] at h
  rcases h with rfl | rfl <;> rfl

/-- An address that is a text, or left empty, can be used. -/
lemma baseUrl_of_text {given : Value} (h : given.truthy = false ∨ given.kind = .str)
    (ofNetwork : String) : ∃ url, baseUrl (given.orElse .null) ofNetwork = .ok url := by
  by_cases htruthy : given.truthy = true
  · rw [Value.orElse, if_pos htruthy]
    have htext : given.kind = .str := h.resolve_left (by simp [htruthy])
    cases given with
    | str s =>
      rw [baseUrl, Value.orElse, if_pos htruthy]
      exact ⟨_, rfl⟩
    | _ => cases htext
  · rw [Value.orElse, if_neg htruthy]
    exact ⟨_, rfl⟩

/-- A client opens by the settings of a ledger that works. -/
lemma run_start (hcredentials : c.hasCredentials = true) (h : w.LedgerWorks c) :
    ∃ client asked, w.run (start (Session.ledgerOptions c)) = (.ok client, w.noting asked) := by
  obtain ⟨⟨n, hn, hnetwork⟩, hmirror, hexplorer, ⟨address, haddress⟩, -⟩ := h
  obtain ⟨mirrorUrl, hmirror⟩ := baseUrl_of_text hmirror n.mirrorUrl
  obtain ⟨explorerUrl, hexplorer⟩ := baseUrl_of_text hexplorer n.explorerUrl
  obtain ⟨haccount, hkey⟩ := Bool.and_eq_true_iff.mp hcredentials
  have hgiven : ¬ (!(c .accountId).truthy || !(c .privateKey).truthy) = true := by
    simp [haccount, hkey]
  have hknown : Network.ofValue (c .network) = .ok n := by
    rw [hnetwork, network_of_name hn]
  unfold start Session.ledgerOptions
  dsimp only
  rw [if_neg hgiven, hknown, run_bind (run_settle ..), hmirror, run_bind (run_settle ..), hexplorer,
    run_bind (run_settle ..), run_bind (run_openNode ..), run_bind (run_settle ..),
    run_bind (run_retry ..), run_bind (run_settle ..), run_bind (run_retry ..),
    run_bind (run_settle ..), run_bind (run_useKey ..)]
  simp only [account_noting, haddress]
  rw [run_bind (run_log ..), run_pure]
  simp only [noting_noting]
  exact ⟨_, _, rfl⟩

/-! ## Anchoring -/

variable {receipt : Value}

lemma run_envelope (w : Recorded) (client : LedgerClient) (gas : Value) :
    ∃ rest asked, w.run (client.envelope gas) = (.ok rest, w.noting asked) := by
  unfold envelope
  rw [run_bind (run_transactionCount ..), run_bind (run_settle ..), run_bind (run_gasPrice ..),
    run_bind (run_settle ..), run_pure, noting_noting]
  exact ⟨_, _, rfl⟩

lemma run_submit (hreceipt : w.receipts.next.1 = .ok receipt) (client : LedgerClient)
    (transaction : Value) (timeout : Nat) :
    ∃ asked, w.run (client.submit transaction timeout) = (.ok receipt, w.settled asked) := by
  unfold submit
  rw [run_bind (run_sign ..), run_bind (run_settle ..), run_bind (run_send ..),
    run_bind (run_settle ..), run_bind (run_awaitReceipt ..), run_settle, noting_noting,
    noting_settled, receipts_noting, hreceipt]
  exact ⟨_, rfl⟩

lemma run_carry (hreceipt : w.receipts.next.1 = .ok receipt) (client : LedgerClient)
    (digest : String) :
    ∃ asked, w.run (client.carry digest) = (.ok receipt, w.settled asked) := by
  obtain ⟨rest, asked, henvelope⟩ := run_envelope w client (.int anchorGas)
  have hkept : (w.noting asked).receipts.next.1 = .ok receipt := hreceipt
  unfold carry
  rw [run_bind henvelope]
  dsimp only
  obtain ⟨more, hsubmit⟩ := run_submit hkept client (.object (_ ++ rest)) 60
  rw [hsubmit, noting_settled]
  exact ⟨_, rfl⟩

/-- A document has a digest if its integers can be written. -/
lemma digestOf_of_writable {document : Value} (h : document.hasLong = false) :
    digestOf document =
      .ok (Sha256.digest (Text.Utf8.encode (Json.write .tight document.sortKeys))) := by
  have hsorted : document.sortKeys.hasLong = false := by rw [Value.hasLong_sortKeys, h]
  rw [digestOf, Json.canonical?, Json.writtenText_textBy? hsorted]
  rfl

/-- A document that can be written is anchored when the next receipt tells of success. -/
lemma run_anchor (h : w.Confirms) (client : LedgerClient) {document : Value}
    (hdocument : document.hasLong = false) (memo : Value) :
    ∃ id asked, w.run (client.anchor document memo) = (.ok id, w.settled asked) := by
  obtain ⟨receipt, id, hreceipt, hsuccess, hid⟩ := h
  have hdigest := digestOf_of_writable hdocument
  generalize Sha256.digest _ = digest at hdigest
  obtain ⟨asked, hcarry⟩ := run_carry hreceipt client digest
  have hreceived : w.run (receiptOr "Failed to store document on Hedera" (client.carry digest)) =
      (.ok receipt, w.settled asked) := by
    unfold receiptOr
    rw [run_bind (run_attempt hcarry)]
    rfl
  unfold anchor
  dsimp only
  rw [hdigest, run_bind (run_settle ..), run_bind hreceived, hsuccess, run_bind (run_settle ..),
    if_neg (by decide), hid, run_bind (run_settle ..), run_bind (run_log ..), run_pure,
    settled_noting]
  exact ⟨_, _, rfl⟩

/-- A document with an integer that is too long is not anchored, and the ledger is not asked. -/
lemma run_anchor_of_hasLong (w : Recorded) (client : LedgerClient) {document : Value}
    (h : document.hasLong = true) (memo : Value) :
    w.run (client.anchor document memo) = (.error .unwritableInteger, w) := by
  have hsorted : document.sortKeys.hasLong = true := by rw [Value.hasLong_sortKeys, h]
  have hdigest : digestOf document = .error .unwritableInteger := by
    rw [digestOf, Json.canonical?, Json.textBy?_eq_none.mpr hsorted]
    rfl
  unfold anchor
  rw [hdigest]
  exact run_bind_error (run_settle ..)

end LedgerClient

end SolidityAudit
