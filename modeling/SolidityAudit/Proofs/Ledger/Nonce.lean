import Mathlib.Data.List.Nodup
import SolidityAudit.Proofs.Ledger.Pool
import SolidityAudit.Proofs.Places

/-!
# The numbers of transactions

A transaction is numbered by the count that the node tells, but the count goes on only when the
transaction has been sent. Until then another call may be told the same number. So the transactions
that are signed carry different numbers if and only if no two of the calls that sign them have a
number in hand at the same time (`nonces_nodup_iff`).
-/

namespace SolidityAudit.LedgerClient

/-! ## What holds all along -/

/-- What later stages of calls keep of earlier ones. -/
def Later (before after : List Stage) : Prop :=
  ∀ (i : Nat) (σ : Stage), before[i]? = some σ → ∃ τ, after[i]? = some τ ∧ σ.Leads τ

/-- What holds of the count of a node and the stages of calls: the node has taken a transaction of a
call for each number that it has passed. -/
structure Counts (nonceIn : Value → Option Int) (start accepted : Nat) (stages : List Stage) :
    Prop where
  start_le : start ≤ accepted
  between : ∀ σ ∈ stages, ∀ n, σ.number? = some n → start ≤ n ∧ n ≤ accepted
  sent_lt : ∀ n : Int, .sent n ∈ stages → n < accepted
  read : ∀ n v, .signed n v ∈ stages → nonceIn v = some n
  taken : ∀ n : Int, start ≤ n → n < accepted → .sent n ∈ stages

section Counting

variable {nonceIn : Value → Option Int} {start accepted accepted' : Nat} {signed : Option Value}
  {stages before after later : List Stage} {σ τ : Stage} {k : Nat} {n : Int}

lemma Later.trans (h : Later before after) (h' : Later after later) : Later before later := by
  intro i σ hσ
  obtain ⟨τ, hτ, hστ⟩ := h i σ hσ
  obtain ⟨υ, hυ, hτυ⟩ := h' i τ hτ
  exact ⟨υ, hυ, hστ.trans hτυ⟩

lemma later_set (hσ : stages[k]? = some σ) (h : σ.Leads τ) : Later stages (stages.set k τ) := by
  intro i ρ hρ
  rw [getElem?_set_of_getElem? hσ]
  by_cases hik : i = k
  · subst hik
    obtain rfl := Option.some.inj (hσ.symm.trans hρ)
    exact ⟨τ, if_pos rfl, h⟩
  · exact ⟨ρ, by rw [if_neg hik, hρ], .refl ρ⟩

lemma Later.sent_mem (h : Later before after) (hn : .sent n ∈ before) : .sent n ∈ after := by
  obtain ⟨i, hi⟩ := List.getElem?_of_mem hn
  obtain ⟨τ, hτ, hleads⟩ := h i _ hi
  rw [hleads.sent n rfl] at hτ
  exact List.mem_of_getElem? hτ

lemma counts_of_unnumbered (h : ∀ σ ∈ stages, σ = .unnumbered) :
    Counts nonceIn start start stages where
  start_le := Nat.le_refl start
  between σ hσ n hn := by
    rw [h σ hσ] at hn
    cases hn
  sent_lt n hn := by cases h _ hn
  read n v hv := by cases h _ hv
  taken n hn hlt := by omega

/-- A move keeps the count right. -/
lemma Counts.move (h : Counts nonceIn start accepted stages) (hσ : stages[k]? = some σ)
    (hm : Move nonceIn accepted σ signed accepted' τ) :
    Counts nonceIn start accepted' (stages.set k τ) where
  start_le := Nat.le_trans h.start_le hm.accepted_le
  between ρ hρ n hn := by
    have hstart : start ≤ accepted := h.start_le
    have hle : accepted ≤ accepted' := hm.accepted_le
    rcases List.mem_or_eq_of_mem_set hρ with hold | rfl
    · have hbetween := h.between ρ hold n hn
      omega
    · rcases hm.number_before hn with hbefore | ⟨-, rfl⟩
      · have hbetween := h.between σ (List.mem_of_getElem? hσ) n hbefore
        omega
      · omega
  sent_lt n hn := by
    have hle : accepted ≤ accepted' := hm.accepted_le
    have hmem : σ ∈ stages := List.mem_of_getElem? hσ
    rcases List.mem_or_eq_of_mem_set hn with hold | hnew
    · have hlt := h.sent_lt n hold
      omega
    · rcases hm.sent_before hnew.symm with rfl | ⟨hnumber, hlt⟩
      · have hlt := h.sent_lt n hmem
        omega
      · exact hlt (h.between σ hmem n hnumber).2
  read n v hv := by
    rcases List.mem_or_eq_of_mem_set hv with hold | hnew
    · exact h.read n v hold
    · rcases hm.read_before hnew.symm with rfl | hv
      · exact h.read n v (List.mem_of_getElem? hσ)
      · exact hv
  taken n hn hlt := by
    obtain ⟨hk, -⟩ := List.getElem?_eq_some_iff.mp hσ
    rcases hm.accepted_after with rfl | ⟨rfl, rfl⟩
    · exact (later_set hσ hm.leads).sent_mem (h.taken n hn hlt)
    · -- the number has just been taken, or was taken before
      by_cases hnow : n = accepted
      · rw [hnow]
        exact List.mem_set hk _
      · exact (later_set hσ hm.leads).sent_mem (h.taken n hn (by omega))

/-- A call that has a number in hand and signs in the end has signed this number. -/
lemma Later.signed? (h : Later before after) {i : Nat} (hi : before[i]?.any Stage.holds = true)
    (hsigned : (after[i]?.bind Stage.signed?).isSome = true) :
    ∃ σ n, before[i]? = some σ ∧ σ.holds = true ∧ σ.number? = some n ∧
      after[i]?.bind Stage.signed? = some n := by
  cases hσ : before[i]? with
  | none =>
    rw [hσ] at hi
    cases hi
  | some σ =>
    rw [hσ] at hi
    obtain ⟨n, hn⟩ := Stage.number?_of_holds hi
    obtain ⟨τ, hτ, hleads⟩ := h i σ hσ
    refine ⟨σ, n, rfl, hi, hn, ?_⟩
    rw [hτ, Option.bind_some] at hsigned ⊢
    obtain ⟨k, hk⟩ := Option.isSome_iff_exists.mp hsigned
    rcases hleads.number n hn with hnumber | rfl
    · have hkn : k = n := Option.some.inj ((Stage.number?_of_signed? hk).symm.trans hnumber)
      rw [hk, hkn]
    · cases hk

/-- A number that the node has passed while a call has it in hand is signed by another call. -/
lemma Counts.other_signed (h : Counts nonceIn start accepted before) (hlater : Later before after)
    {i : Nat} (hσ : before[i]? = some σ) (hholds : σ.holds = true) (hn : σ.number? = some n)
    (hlt : n < accepted) :
    ∃ k ≠ i, after[k]?.bind Stage.signed? = some n := by
  have hbetween := h.between σ (List.mem_of_getElem? hσ) n hn
  obtain ⟨k, hk⟩ := List.getElem?_of_mem (h.taken n hbetween.1 hlt)
  obtain ⟨τ, hτ, hleads⟩ := hlater k _ hk
  refine ⟨k, ?_, ?_⟩
  · rintro rfl
    obtain rfl := Option.some.inj (hσ.symm.trans hk)
    cases hholds
  · rw [hτ, hleads.sent n rfl]
    rfl

end Counting

/-- What holds of the stations of calls after a run. -/
structure Tracked (nonceIn : Value → Option Int) (start : Nat) (past : List Moment) (accepted : Nat)
    (stations : List Station) : Prop where
  counts : Counts nonceIn start accepted (stagesOf stations)
  /-- the numbers that have been signed are those of the calls -/
  numbers : ((signedIn past).map nonceOf).Perm
    (((stagesOf stations).filterMap Stage.signed?).map some)
  hasSigned : ∀ i, HasSigned past i ↔ ((stagesOf stations)[i]?.bind Stage.signed?).isSome = true
  /-- two calls with one number have had it in hand together, at the latest now, when one of them
  has not signed yet -/
  shared : ∀ (i j : Nat) n, i ≠ j → (stagesOf stations)[i]?.bind Stage.number? = some n →
    (stagesOf stations)[j]?.bind Stage.number? = some n →
      (∃ m ∈ past, m.pool.Overlap i j) ∨ (standing accepted stations).Overlap i j ∧
        ((stagesOf stations)[i]?.bind Stage.signed? = none ∨
          (stagesOf stations)[j]?.bind Stage.signed? = none)
  /-- the calls come from stations for which the count was right as well -/
  before : ∀ m ∈ past, ∃ (accepted' : Nat) (stations' : List Station),
    m.pool = standing accepted' stations' ∧ Counts nonceIn start accepted' (stagesOf stations') ∧
      Later (stagesOf stations') (stagesOf stations)

section Tracking

variable {nonceIn : Value → Option Int} {start accepted accepted' : Nat} {past : List Moment}
  {stations : List Station} {σ τ : Station} {k : Nat} {e : Exchange}

lemma stagesOf_set (stations : List Station) (k : Nat) (τ : Station) :
    stagesOf (stations.set k τ) = (stagesOf stations).set k τ.stage := List.map_set

lemma getElem?_stagesOf (hσ : stations[k]? = some σ) : (stagesOf stations)[k]? = some σ.stage := by
  rw [stagesOf, List.getElem?_map, hσ, Option.map_some]

lemma signedIn_append (m : Moment) :
    signedIn (past ++ [m]) = signedIn past ++ m.exchange.signed?.toList :=
  filterMap_concat _ past m

lemma hasSigned_append {m : Moment} {i : Nat} :
    HasSigned (past ++ [m]) i ↔
      HasSigned past i ∨ m.place = i ∧ m.exchange.signed?.isSome = true := by
  unfold HasSigned
  simp only [List.mem_append, List.mem_singleton]
  constructor
  · rintro ⟨n, hn | rfl, h⟩
    · exact .inl ⟨n, hn, h⟩
    · exact .inr h
  · rintro (⟨n, hn, h⟩ | h)
    · exact ⟨n, .inl hn, h⟩
    · exact ⟨m, .inr rfl, h⟩

/-- Two calls have one number when the second of them is told it. -/
lemma Tracked.overlap_counted (h : Tracked nonceIn start past accepted stations)
    (hσ : stations[k]? = some σ) (hτ : τ.stage = .numbered accepted) {j : Nat} (hkj : k ≠ j)
    (hj : (stagesOf stations)[j]?.bind Stage.number? = some accepted) :
    (standing accepted' (stations.set k τ)).Overlap k j ∧
      (stagesOf (stations.set k τ))[k]?.bind Stage.signed? = none := by
  have hk := getElem?_stagesOf hσ
  obtain ⟨ρ, hρ, hnumber⟩ := Option.bind_eq_some_iff.mp hj
  have hholds : ρ.holds = true := by
    refine Stage.holds_of_number? hnumber ?_
    rintro rfl
    have hlt := h.counts.sent_lt accepted (List.mem_of_getElem? hρ)
    omega
  rw [overlap_standing, stagesOf_set, getElem?_set_of_getElem? hk, getElem?_set_of_getElem? hk,
    if_pos rfl, if_neg hkj.symm, hρ, hτ]
  exact ⟨⟨hkj, rfl, hholds⟩, rfl⟩

lemma Tracked.shared_move (h : Tracked nonceIn start past accepted stations)
    (hσ : stations[k]? = some σ)
    (hm : Move nonceIn accepted σ.stage e.signed? accepted' τ.stage) (i j : Nat) (n : Int)
    (hij : i ≠ j) (hi : (stagesOf (stations.set k τ))[i]?.bind Stage.number? = some n)
    (hj : (stagesOf (stations.set k τ))[j]?.bind Stage.number? = some n) :
    (∃ m ∈ past ++ [⟨standing accepted stations, k, e⟩], m.pool.Overlap i j) ∨
      (standing accepted' (stations.set k τ)).Overlap i j ∧
        ((stagesOf (stations.set k τ))[i]?.bind Stage.signed? = none ∨
          (stagesOf (stations.set k τ))[j]?.bind Stage.signed? = none) := by
  -- a call has had its number before, or is told it now
  have hbefore (p : Nat) (hp : (stagesOf (stations.set k τ))[p]?.bind Stage.number? = some n) :
      (stagesOf stations)[p]?.bind Stage.number? = some n ∨
        p = k ∧ τ.stage = .numbered accepted ∧ n = accepted := by
    have hk := getElem?_stagesOf hσ
    rw [stagesOf_set, getElem?_set_of_getElem? hk] at hp
    by_cases hpk : p = k
    · rw [if_pos hpk, Option.bind_some] at hp
      refine (hm.number_before hp).imp (fun hnumber => ?_) fun hnow => ⟨hpk, hnow⟩
      rw [hpk, hk, Option.bind_some, hnumber]
    · rw [if_neg hpk] at hp
      exact .inl hp
  rcases hbefore i hi with hi' | ⟨rfl, hτ, rfl⟩
  · rcases hbefore j hj with hj' | ⟨rfl, hτ, rfl⟩
    · left
      rcases h.shared i j n hij hi' hj' with ⟨m, hm, hpast⟩ | ⟨hnow, -⟩
      · exact ⟨m, List.mem_append_left _ hm, hpast⟩
      · exact ⟨⟨standing accepted stations, k, e⟩, by simp, hnow⟩
    · obtain ⟨hnow, hnone⟩ := h.overlap_counted hσ hτ hij.symm hi'
      exact .inr ⟨hnow.symm, .inr hnone⟩
  · rcases hbefore j hj with hj' | ⟨hj', -⟩
    · obtain ⟨hnow, hnone⟩ := h.overlap_counted hσ hτ hij hj'
      exact .inr ⟨hnow, .inl hnone⟩
    · exact absurd hj'.symm hij

/-- A move keeps all of this. -/
lemma Tracked.move (h : Tracked nonceIn start past accepted stations)
    (hσ : stations[k]? = some σ)
    (hm : Move nonceIn accepted σ.stage e.signed? accepted' τ.stage) :
    Tracked nonceIn start (past ++ [⟨standing accepted stations, k, e⟩]) accepted'
      (stations.set k τ) where
  counts := by
    rw [stagesOf_set]
    exact h.counts.move (getElem?_stagesOf hσ) hm
  numbers := by
    have hk := getElem?_stagesOf hσ
    rw [signedIn_append, stagesOf_set]
    rcases hm.signed_after with ⟨hnone, heq⟩ | ⟨transaction, n, hsome, hn, hnone, hnow⟩
    · rw [hnone, Option.toList_none, List.append_nil, filterMap_set_of_eq hk heq]
      exact h.numbers
    · rw [hsome, Option.toList_some, List.map_append, List.map_singleton, hn]
      calc (signedIn past).map nonceOf ++ [some n]
          _ |>.Perm (some n :: (signedIn past).map nonceOf) := List.perm_append_singleton _ _
          _ |>.Perm (some n :: ((stagesOf stations).filterMap Stage.signed?).map some) :=
            h.numbers.cons _
          _ |>.Perm _ := ((filterMap_set_perm hk hnone hnow).map some).symm
  hasSigned i := by
    have hk := getElem?_stagesOf hσ
    rw [hasSigned_append, h.hasSigned, stagesOf_set, getElem?_set_of_getElem? hk]
    by_cases hik : i = k
    · subst hik
      rw [if_pos rfl, hk, Option.bind_some, Option.bind_some]
      rcases hm.signed_after with ⟨hnone, heq⟩ | ⟨transaction, n, hsome, -, hnone, hnow⟩
      · simp [hnone, heq]
      · simp [hsome, hnow]
    · simp [hik, Ne.symm hik]
  shared := h.shared_move hσ hm
  before m hmem := by
    have hlater : Later (stagesOf stations) (stagesOf (stations.set k τ)) := by
      rw [stagesOf_set]
      exact later_set (getElem?_stagesOf hσ) hm.leads
    rcases List.mem_append.mp hmem with hpast | hnow
    · obtain ⟨accepted', stations', hpool, hcounts, hbefore⟩ := h.before m hpast
      exact ⟨accepted', stations', hpool, hcounts, hbefore.trans hlater⟩
    · obtain rfl := List.mem_singleton.mp hnow
      exact ⟨accepted, stations, rfl, h.counts, hlater⟩

end Tracking

/-! ## When no two transactions carry one number -/

/-- A call before it has begun. -/
def Call.station (c : LedgerClient) (call : Call) : Station where
  stage := .unnumbered
  rest := call.script c
  follows := by
    cases call with
    | anchor document memo =>
      exact follows_bind_stays (follows_anchor c document memo) fun _ _ => stays_pure _
    | deploy source arguments =>
      exact follows_bind_stays (follows_deploy c source arguments) fun _ _ => stays_pure _

lemma opening_eq_standing (c : LedgerClient) (start : Nat) (calls : List Call) :
    opening c start calls = standing start (calls.map (Call.station c)) := by
  rw [opening, standing, List.map_map]
  rfl

lemma tracked_opening (nonceIn : Value → Option Int) (start : Nat) {stations : List Station}
    (h : ∀ σ ∈ stagesOf stations, σ = .unnumbered) :
    Tracked nonceIn start [] start stations := by
  have hnone {f : Stage → Option Int} (hf : f .unnumbered = none) (i : Nat) :
      (stagesOf stations)[i]?.bind f = none := by
    cases hi : (stagesOf stations)[i]? with
    | none => rfl
    | some σ => rw [Option.bind_some, h σ (List.mem_of_getElem? hi), hf]
  have hsigned : (stagesOf stations).filterMap Stage.signed? = [] :=
    List.filterMap_eq_nil_iff.mpr fun σ hσ => by rw [h σ hσ]; rfl
  refine ⟨counts_of_unnumbered h, ?_, ?_, ?_, fun m hm => by cases hm⟩
  · rw [hsigned]
    exact List.Perm.refl []
  · intro i
    rw [hnone rfl]
    simp [HasSigned]
  · intro i j n hij hi
    rw [hnone rfl] at hi
    cases hi

lemma tracked_of_run {c : LedgerClient} {nonceIn : Value → Option Int} {start : Nat}
    {calls : List Call} {past : List Moment} {p : Pool}
    (hrun : Run nonceIn (opening c start calls) past p) :
    ∃ accepted stations, p = standing accepted stations ∧
      Tracked nonceIn start past accepted stations := by
  induction hrun with
  | start =>
    refine ⟨start, _, opening_eq_standing c start calls, tracked_opening nonceIn start ?_⟩
    intro σ hσ
    rw [stagesOf, List.map_map] at hσ
    obtain ⟨call, -, rfl⟩ := List.mem_map.mp hσ
    rfl
  | step hrun hstep ih =>
    obtain ⟨accepted, stations, rfl, h⟩ := ih
    obtain ⟨σ, τ, accepted', hσ, hm, rfl⟩ := move_of_step hstep h.counts.read
    exact ⟨accepted', _, rfl, h.move hσ hm⟩

section Directions

variable {nonceIn : Value → Option Int} {start accepted : Nat} {past : List Moment}
  {stations : List Station} {i j : Nat}

/-- Of two calls that have had a number in hand together and have signed, one has signed the number
of another call. -/
lemma Tracked.same_of_overlap (h : Tracked nonceIn start past accepted stations) {m : Moment}
    (hm : m ∈ past) (hoverlap : m.pool.Overlap i j) (hi : HasSigned past i)
    (hj : HasSigned past j) :
    ∃ (k l : Nat) (n : Int), k ≠ l ∧ (stagesOf stations)[k]?.bind Stage.signed? = some n ∧
      (stagesOf stations)[l]?.bind Stage.signed? = some n := by
  obtain ⟨accepted', stations', hpool, hcounts, hlater⟩ := h.before m hm
  rw [hpool, overlap_standing] at hoverlap
  obtain ⟨hij, hi', hj'⟩ := hoverlap
  obtain ⟨σ, a, hσ, hσ', ha, hsigned⟩ := hlater.signed? hi' ((h.hasSigned i).mp hi)
  obtain ⟨τ, b, hτ, hτ', hb, hsigned'⟩ := hlater.signed? hj' ((h.hasSigned j).mp hj)
  have hale := (hcounts.between σ (List.mem_of_getElem? hσ) a ha).2
  have hble := (hcounts.between τ (List.mem_of_getElem? hτ) b hb).2
  -- of two different numbers the node has passed the smaller one
  rcases Int.lt_trichotomy a b with hlt | rfl | hgt
  · obtain ⟨k, hki, hk⟩ := hcounts.other_signed hlater hσ hσ' ha (by omega)
    exact ⟨k, i, a, hki, hk, hsigned⟩
  · exact ⟨i, j, a, hij, hsigned, hsigned'⟩
  · obtain ⟨k, hkj, hk⟩ := hcounts.other_signed hlater hτ hτ' hb (by omega)
    exact ⟨k, j, b, hkj, hk, hsigned'⟩

/-- Two calls that have signed one number have had it in hand together. -/
lemma Tracked.overlap_of_same (h : Tracked nonceIn start past accepted stations) {n : Int}
    (hij : i ≠ j) (hi : (stagesOf stations)[i]?.bind Stage.signed? = some n)
    (hj : (stagesOf stations)[j]?.bind Stage.signed? = some n) :
    ∃ m ∈ past, m.pool.Overlap i j ∧ HasSigned past i ∧ HasSigned past j := by
  have hnumber {k : Nat} (hk : (stagesOf stations)[k]?.bind Stage.signed? = some n) :
      (stagesOf stations)[k]?.bind Stage.number? = some n := by
    obtain ⟨σ, hσ, hn⟩ := Option.bind_eq_some_iff.mp hk
    rw [hσ, Option.bind_some, Stage.number?_of_signed? hn]
  have hsigned {k : Nat} (hk : (stagesOf stations)[k]?.bind Stage.signed? = some n) :
      HasSigned past k := by rw [h.hasSigned, hk, Option.isSome_some]
  rcases h.shared i j n hij (hnumber hi) (hnumber hj) with ⟨m, hm, hpast⟩ | ⟨-, hnone⟩
  · exact ⟨m, hm, hpast, hsigned hi, hsigned hj⟩
  · rw [hi, hj] at hnone
    rcases hnone with hnone | hnone
    · cases hnone
    · cases hnone

end Directions

/-- Any number of calls that go on together, with any answers of the outside, sign transactions that
carry different numbers if and only if no two calls that have signed have ever had a number in hand
at the same time. -/
theorem nonces_nodup_iff {c : LedgerClient} {nonceIn : Value → Option Int} {start : Nat}
    {calls : List Call} {past : List Moment} {p : Pool}
    (hrun : Run nonceIn (opening c start calls) past p) :
    ((signedIn past).map nonceOf).Nodup ↔
      ∀ m ∈ past, ∀ i j, m.pool.Overlap i j → ¬ (HasSigned past i ∧ HasSigned past j) := by
  obtain ⟨accepted, stations, rfl, h⟩ := tracked_of_run hrun
  have hnodup : ((signedIn past).map nonceOf).Nodup ↔
      ((stagesOf stations).filterMap Stage.signed?).Nodup := by
    rw [h.numbers.nodup_iff, List.nodup_map_iff fun _ _ => Option.some.inj]
  rw [hnodup, nodup_filterMap_iff]
  constructor
  · rintro hdistinct m hm i j hoverlap ⟨hi, hj⟩
    obtain ⟨k, l, n, hkl, hk, hl⟩ := h.same_of_overlap hm hoverlap hi hj
    exact hdistinct k l hkl n hk hl
  · intro hno i j hij n hi hj
    obtain ⟨m, hm, hoverlap, hsigned⟩ := h.overlap_of_same hij hi hj
    exact hno m hm i j hoverlap hsigned

/-! ## Two documents at once -/

/-- A client of the test network. -/
def tester : LedgerClient where
  network := .testnet
  accountId := .str "0.0.1"
  privateKey := .str "0x11"
  address := "0xA"
  nodeUrl := .str "https://testnet.hashio.io/api"
  mirrorUrl := "https://testnet.mirrornode.hedera.com"
  explorerUrl := "https://hashscan.io/testnet"
  compiler := {}
  gasLimit := .int 1000000
  timeout := .int 30

/-- Two documents that are anchored at once. -/
def twoDocuments : List Call :=
  [.anchor (.object [("id", .str "A")]) (.str "A"), .anchor (.object [("id", .str "B")]) (.str "B")]

/-- The transaction that carries a digest. -/
def carrier (c : LedgerClient) (digest : String) (n price : Int) : Value :=
  .object
    [("from", .str c.address), ("to", .str c.address), ("value", .int 0),
     ("data", .str ("0x" ++ digest)), ("nonce", .int n), ("gas", .int anchorGas),
     ("gasPrice", .int price), ("chainId", .int c.network.chainId)]

/-- Both calls are told a number, and sign with it, before either of them has sent its
transaction. -/
lemma run_twoDocuments :
    ∃ past p digest other, Run nonceOf (opening tester 7 twoDocuments) past p ∧
      signedIn past = [carrier tester digest 7 10, carrier tester other 7 10] := by
  have h0 : Run nonceOf (opening tester 7 twoDocuments) [] (opening tester 7 twoDocuments) := .start
  have h1 := h0.step (.answered (i := 0) rfl (.counted 7 tester.address))
  have h2 := h1.step (.answered (i := 1) rfl (.counted 7 tester.address))
  have h3 := h2.step (.answered (i := 0) rfl (.priced 7 (.ok 10)))
  have h4 := h3.step (.answered (i := 1) rfl (.priced 7 (.ok 10)))
  -- the transactions are signed as they are
  have hsigned (digest : String) : Answers nonceOf 7
      ⟨.sign (carrier tester digest 7 10) tester.privateKey,
        .ok (carrier tester digest 7 10)⟩ 7 := .signed 7 _ rfl
  have h5 := h4.step (.answered (i := 0) rfl (hsigned _))
  have h6 := h5.step (.answered (i := 1) rfl (hsigned _))
  exact ⟨_, _, _, _, h6, rfl⟩

lemma nonceOf_carrier (c : LedgerClient) (digest : String) (n price : Int) :
    nonceOf (carrier c digest n price) = some n := rfl

/-- Two documents that are anchored at once may be carried by transactions with one number. -/
theorem twoDocuments_one_nonce :
    ∃ past p, Run nonceOf (opening tester 7 twoDocuments) past p ∧
      (signedIn past).map nonceOf = [some 7, some 7] ∧ ¬ ((signedIn past).map nonceOf).Nodup := by
  obtain ⟨past, p, digest, other, hrun, hsigned⟩ := run_twoDocuments
  have hnonces : (signedIn past).map nonceOf = [some 7, some 7] := by
    rw [hsigned, List.map_cons, List.map_singleton, nonceOf_carrier, nonceOf_carrier]
  exact ⟨past, p, hrun, hnonces, by rw [hnonces]; decide⟩

/-- Both calls have had a number in hand at the same time. -/
theorem twoDocuments_overlap :
    ∃ past p, Run nonceOf (opening tester 7 twoDocuments) past p ∧
      ∃ m ∈ past, ∃ i j, m.pool.Overlap i j ∧ HasSigned past i ∧ HasSigned past j := by
  obtain ⟨past, p, digest, other, hrun, hsigned⟩ := run_twoDocuments
  refine ⟨past, p, hrun, ?_⟩
  by_contra hno
  have hnodup : ((signedIn past).map nonceOf).Nodup := (nonces_nodup_iff hrun).mpr
    fun m hm i j hij ⟨hi, hj⟩ => hno ⟨m, hm, i, j, hij, hi, hj⟩
  rw [hsigned, List.map_cons, List.map_singleton, nonceOf_carrier, nonceOf_carrier] at hnodup
  exact absurd hnodup (by decide)

end SolidityAudit.LedgerClient
