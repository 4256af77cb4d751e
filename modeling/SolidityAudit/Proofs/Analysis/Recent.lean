import SolidityAudit.Proofs.Analysis.Log

/-!
# The newest analyses

Whoever asks a service for the last analyses gets the newest ones in the store, newest first, as
many as the limit allows (`Newest`), and more of them with a greater limit. Only the limit zero is
not taken at its word: it is empty, as if no limit were given, and the limit of the service stands
in for it. So zero is honoured only where the limit of the service gives nothing either
(`limit_honoured_iff`).
-/

namespace SolidityAudit

/-! ## The end of a store -/

namespace Store

variable {st : Store} {n n' : Int} {entries entries' : List StoredAnalysis}

/-- The newest analyses in a store, newest first: as many as a limit allows or as there are, and
from the end. A negative limit allows none. -/
structure Newest (st : Store) (n : Int) (entries : List StoredAnalysis) : Prop where
  length : (entries.length : Int) = min (max n 0) st.count
  suffix : entries.reverse <:+ st.all

lemma newest_recent (st : Store) (n : Int) : st.Newest n (st.recent n) where
  length := by
    rw [recent, List.length_take, List.length_reverse, ← count_eq_length_all]
    omega
  suffix := by
    rw [recent, List.take_reverse, List.reverse_reverse]
    exact List.drop_suffix ..

lemma recent_eq_nil_iff : st.recent n = [] ↔ n ≤ 0 ∨ st.count = 0 := by
  have hlength := (newest_recent st n).length
  rw [← List.length_eq_zero_iff]
  omega

/-- A greater limit gives more of the same. -/
lemma Newest.isPrefix (h : st.Newest n entries) (h' : st.Newest n' entries') (hle : n ≤ n') :
    entries <+: entries' := by
  rw [← List.reverse_suffix]
  refine List.suffix_of_suffix_length_le h.suffix h'.suffix ?_
  have hlength := h.length
  have hlength' := h'.length
  rw [List.length_reverse, List.length_reverse]
  omega

end Store

/-! ## Asking for the newest -/

namespace Service

variable {s : Service} {st st' : Store} {x : Except Fault Value} {n : Int}

/-- The records of a store that are listed for a number of them. -/
def listing (st : Store) (n : Int) : Value :=
  .list ((st.recent n).map StoredAnalysis.toValue)

/-- A list is told at once, and nothing changes. -/
lemma ends_recent {limit : Value} :
    Ends st (s.recent limit).run x st' ↔
      x = (limitOf (limit.orElse s.recentLimit)).map (listing st) ∧ st' = st := by
  refine ends_load ?_
  intro st₁ r
  rw [turn_bind_settle]
  cases limitOf (limit.orElse s.recentLimit) with
  | ok k => exact turn_done
  | error f => exact Iff.rfl

/-- A service answers to a limit with some records: this is how the call ends, and in no other way,
and the store stays as it is. -/
def Lists (s : Service) (st : Store) (n : Int) (entries : List StoredAnalysis) : Prop :=
  ∀ x st', Ends st (s.recent (.int n)).run x st' ↔
    x = .ok (.list (entries.map StoredAnalysis.toValue)) ∧ st' = st

/-- A limit is honoured: the service answers with the newest analyses, as many as it allows. -/
def Honours (s : Service) (st : Store) (n : Int) : Prop :=
  ∃ entries, st.Newest n entries ∧ s.Lists st n entries

lemma honours_of_ne_zero (hn : n ≠ 0) : s.Honours st n := by
  refine ⟨st.recent n, st.newest_recent n, fun x st' => ?_⟩
  have hlimit : (Value.int n).orElse s.recentLimit = .int n := if_pos (bne_iff_ne.mpr hn)
  have hsame : st.recent (max n 0) = st.recent n := by
    rw [Store.recent, Store.recent]
    congr 1
    omega
  rw [ends_recent, hlimit, ← hsame]
  rfl

/-- For the limit zero the limit of the service is asked. -/
lemma honours_zero_iff :
    s.Honours st 0 ↔ ∃ k, limitOf s.recentLimit = .ok k ∧ (k ≤ 0 ∨ st.count = 0) := by
  have hlimit : (Value.int 0).orElse s.recentLimit = s.recentLimit := rfl
  constructor
  · rintro ⟨entries, hnewest, hlists⟩
    have hnone : entries = [] := by
      rw [← List.length_eq_zero_iff]
      have := hnewest.length
      omega
    obtain ⟨hanswer, -⟩ := ends_recent.mp ((hlists _ st).mpr ⟨rfl, rfl⟩)
    rw [hlimit, hnone] at hanswer
    cases hk : limitOf s.recentLimit with
    | error f =>
      rw [hk] at hanswer
      cases hanswer
    | ok k =>
      rw [hk] at hanswer
      have hempty := Value.list.inj (Except.ok.inj hanswer)
      exact ⟨k, rfl, Store.recent_eq_nil_iff.mp (List.map_eq_nil_iff.mp hempty.symm)⟩
  · rintro ⟨k, hk, hnone⟩
    refine ⟨[], st.newest_recent 0, fun x st' => ?_⟩
    rw [ends_recent, hlimit, hk, ← Store.recent_eq_nil_iff.mpr hnone]
    rfl

/-- A limit is honoured exactly when it is not zero, or the limit of the service can be read and
gives nothing either, or the store is empty. Two limits that follow one another and are both
honoured give lists of which the first is a prefix of the second. -/
theorem limit_honoured_iff (s : Service) (st : Store) (n : Int) :
    (s.Honours st n ↔
      n ≠ 0 ∨ ∃ k, limitOf s.recentLimit = .ok k ∧ (k ≤ 0 ∨ st.count = 0)) ∧
    (s.Honours st n → s.Honours st (n + 1) → ∃ fewer more, s.Lists st n fewer ∧
      s.Lists st (n + 1) more ∧ fewer <+: more) := by
  constructor
  · by_cases hn : n = 0
    · rw [hn, honours_zero_iff]
      simp
    · exact iff_of_true (honours_of_ne_zero hn) (.inl hn)
  · rintro ⟨fewer, hfewer, hlists⟩ ⟨more, hmore, hlists'⟩
    exact ⟨fewer, more, hlists, hlists', hfewer.isPrefix hmore (by omega)⟩

/-- With a limit of ten in the service, zero is not honoured as soon as there is an analysis. -/
theorem zero_not_honoured : ∃ log st, Logged ledgered log st ∧ ledgered.recentLimit = .int 10 ∧
    (∃ a, ledgered.Lists st 0 [a]) ∧ ¬ ledgered.Honours st 0 := by
  obtain ⟨e, f, st, hlogged, hstores, -, hother⟩ := logged_analyzedAndDeployed
  have htells := (mirrors_of_logged hlogged).tells
  have hanalyses : analyses [e, f] = [e] := by
    rw [analyses, List.filter_cons_of_pos hstores.1, List.filter_cons_of_neg (by simp [hother]),
      List.filter_nil]
  rw [hanalyses] at htells
  obtain ⟨a, hall⟩ := List.length_eq_one_iff.mp htells.length_eq.symm
  have hcount : st.count = 1 := by rw [st.count_eq_length_all, hall, List.length_singleton]
  refine ⟨[e, f], st, hlogged, rfl, ⟨a, fun x st' => ?_⟩, fun hhonours => ?_⟩
  · have hrecent : st.recent 10 = [a] := by
      rw [Store.recent, hall]
      rfl
    rw [ends_recent, ← hrecent]
    rfl
  · obtain ⟨k, hk, hnone⟩ := honours_zero_iff.mp hhonours
    obtain rfl : 10 = k := Except.ok.inj hk
    omega

end Service

end SolidityAudit
