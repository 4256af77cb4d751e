import SolidityAudit.Proofs.Ledger.Mirror
import SolidityAudit.Proofs.Number.Plain

/-!
# Balances as shown

The mirror tells a balance in the smallest unit. A balance of at most 28 digits is shown in the unit
of a hundred million of them without a loss: as the plain numeral of its value (`balance_exact`).
-/

namespace SolidityAudit.LedgerClient

open Outside (Recorded ServerReply)
open Outside.Recorded

variable {w : Recorded} {b : Int} {fields entry : List (String × Value)} {rest : List Value}

/-- An amount of at most 28 digits is shown exactly. -/
lemma amountText_int (hb : b.natAbs < 10 ^ 28) :
    ∃ t : Numeral, amountText (.int b) = .ok (t.text ++ " ℏ") ∧ t.negative = decide (b < 0) ∧
      t.value * 10 ^ 8 = b := by
  obtain ⟨m, e, hround, hnormal, hvalue⟩ :=
    Decimal.round_exact (e := -8) hb (by decide) (by decide) (decide (b < 0))
  obtain ⟨t, htext, hnegative, ht⟩ := Decimal.plain_of_normal hnormal (decide (b < 0))
  refine ⟨t, ?_, hnegative, ?_⟩
  · have hmoved : (Decimal.ofInt b).movePoint unitPlaces = .ok (.finite (decide (b < 0)) m e) :=
      hround
    have hread : Decimal.ofValue (.int b) = .ok (Decimal.ofInt b) := rfl
    rw [amountText, hread, ← htext]
    dsimp only [bind, Except.bind]
    rw [hmoved]
    rfl
  · have hsign : (if decide (b < 0) = true then (-1 : ℚ) else 1) * b.natAbs = b := by
      by_cases hneg : b < 0
      · obtain ⟨n, rfl⟩ := Int.exists_eq_neg_ofNat (Int.le_of_lt hneg)
        simp only [hneg, decide_true, if_true, Int.natAbs_neg, Int.natAbs_natCast]
        push_cast
        ring
      · obtain ⟨n, rfl⟩ := Int.eq_ofNat_of_zero_le (Int.not_lt.mp hneg)
        simp
    have hunit : (10 : ℚ) ^ (-8 : Int) * 10 ^ 8 = 1 := by norm_num
    rw [ht, hvalue, Decimal.valueOf, hsign, mul_assoc, hunit, mul_one]

/-- The value that a page brings is the value of the page. -/
lemma valueOf_of_broughtBy {page : Except Fault ServerReply} {v : Value}
    (h : broughtBy page = .value v) (url : String) : valueOf page url = .ok v := by
  have hend : ∀ f, page = .error f → endsExchange f = true := by
    rintro f rfl
    cases h
  rcases valueOf_cases hend url with ⟨v', hbrought, hv⟩ | ⟨hbrought, -⟩ | ⟨hbrought, -⟩
  · obtain rfl := Brought.value.inj (hbrought.symm.trans h)
    exact hv
  · cases hbrought.symm.trans h
  · cases hbrought.symm.trans h

/-- When the mirror tells a balance of at most 28 digits, negative or not, the text is a plain
numeral with the sign of currency, and a hundred million times its value is the balance. -/
theorem balance_exact (hpage : broughtBy w.pages.next.1 = .value (.object fields))
    (hentries : fieldOf "balances" fields = some (.list (.object entry :: rest)))
    (hbalance : fieldOf "balance" entry = some (.int b)) (hb : b.natAbs < 10 ^ 28)
    (c : LedgerClient) :
    ∃ t : Numeral, (w.run c.balance).1 = .ok (t.text ++ " ℏ") ∧ t.negative = decide (b < 0) ∧
      t.value * 10 ^ 8 = b := by
  obtain ⟨t, htext, ht⟩ := amountText_int hb
  obtain ⟨url, w', hrun⟩ := run_balanceEntries w c
  have hvalue : valueOf w.pages.next.1 url >>= (·.getD "balances" (.list [])) =
      .ok (.list (.object entry :: rest)) := by
    rw [valueOf_of_broughtBy hpage]
    show Except.ok ((fieldOf "balances" fields).getD (.list [])) = _
    rw [hentries]
    rfl
  rw [hvalue] at hrun
  refine ⟨t, ?_, ht⟩
  rw [run_balance hrun]
  exact amountOf_eq_ok_iff.mpr ⟨entry, rest, rfl, by rw [hbalance]; exact htext⟩

/-- One and a half units are shown as such. -/
theorem oneBalance_exact :
    broughtBy (pageWorld oneBalance).pages.next.1 =
      .value (.object [("balances", .list [.object [("balance", .int 150000000)]])]) ∧
    (150000000 : Int).natAbs < 10 ^ 28 ∧
    ∃ t : Numeral, ((pageWorld oneBalance).run tester.balance).1 = .ok (t.text ++ " ℏ") ∧
      t.negative = false ∧ t.value * 10 ^ 8 = (150000000 : Int) := by
  have hpage := broughtBy_page read_oneBalance
  exact ⟨hpage, by decide, balance_exact hpage rfl rfl (by decide) tester⟩

end SolidityAudit.LedgerClient
