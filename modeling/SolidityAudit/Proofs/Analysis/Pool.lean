import Mathlib.Data.List.Basic
import SolidityAudit.Proofs.Analysis.Store
import SolidityAudit.Proofs.Script

/-!
# Calls that go on together

Many calls of one service share its store. A call goes on at once until it asks a collaborator for
something and waits, or ends (`Turn`); only then may another call go on. The clock and the
collaborators may answer anything at any time, so a run of a pool of calls (`Run`) is any order of
their turns with any answers.
-/

namespace SolidityAudit.Service

/-- What is left of a job. -/
abbrev Rest := Script Request Answer (Except Fault Value)

/-! ## Turns -/

/-- A job goes on at once, with the store as it finds it, until it ends or waits. -/
inductive Turn : Store → Rest → Store → Rest → Prop
  | ended (s : Store) (x : Except Fault Value) : Turn s (.done x) s (.done x)
  | waiting (s : Store) (q : Request) (next : Answer q → Rest) (h : q.waits = true) :
    Turn s (.ask q next) s (.ask q next)
  | log {s s' : Store} {r : Rest} (level : Outside.Level) (text : String) (next : Unit → Rest)
    (h : Turn s (next ()) s' r) : Turn s (.ask (.log level text) next) s' r
  | now {s s' : Store} {r : Rest} (next : Instant → Rest) (t : Instant) (h : Turn s (next t) s' r) :
    Turn s (.ask .now next) s' r
  | load {s s' : Store} {r : Rest} (next : Store → Rest) (h : Turn s (next s) s' r) :
    Turn s (.ask .load next) s' r
  | save {s s' : Store} {r : Rest} (t : Store) (next : Unit → Rest) (h : Turn t (next ()) s' r) :
    Turn s (.ask (.save t) next) s' r

section Turns

variable {s s' : Store} {r : Rest}

lemma turn_done {x : Except Fault Value} : Turn s (.done x) s' r ↔ s' = s ∧ r = .done x := by
  constructor
  · intro h
    cases h
    exact ⟨rfl, rfl⟩
  · rintro ⟨rfl, rfl⟩
    exact .ended ..

lemma turn_waiting {q : Request} {next : Answer q → Rest} (hq : q.waits = true) :
    Turn s (.ask q next) s' r ↔ s' = s ∧ r = .ask q next := by
  constructor
  · intro h
    cases h with
    | waiting => exact ⟨rfl, rfl⟩
    -- the other requests are answered at once
    | log | now | load | save => simp [Request.waits] at hq
  · rintro ⟨rfl, rfl⟩
    exact .waiting _ _ _ hq

lemma turn_log {level : Outside.Level} {text : String} {next : Unit → Rest} :
    Turn s (.ask (.log level text) next) s' r ↔ Turn s (next ()) s' r := by
  constructor
  · intro h
    cases h with
    | waiting _ _ _ hq => simp [Request.waits] at hq
    | log _ _ _ h => exact h
  · exact .log _ _ _

lemma turn_now {next : Instant → Rest} :
    Turn s (.ask .now next) s' r ↔ ∃ t, Turn s (next t) s' r := by
  constructor
  · intro h
    cases h with
    | waiting _ _ _ hq => simp [Request.waits] at hq
    | now _ t h => exact ⟨t, h⟩
  · rintro ⟨t, h⟩
    exact .now _ t h

lemma turn_load {next : Store → Rest} : Turn s (.ask .load next) s' r ↔ Turn s (next s) s' r := by
  constructor
  · intro h
    cases h with
    | waiting _ _ _ hq => simp [Request.waits] at hq
    | load _ h => exact h
  · exact .load _

lemma turn_save {t : Store} {next : Unit → Rest} :
    Turn s (.ask (.save t) next) s' r ↔ Turn t (next ()) s' r := by
  constructor
  · intro h
    cases h with
    | waiting _ _ _ hq => simp [Request.waits] at hq
    | save _ _ h => exact h
  · exact .save _ _

-- the same for jobs, where a fault ends a job

section Jobs

variable {α : Type}

lemma turn_bind_note {level : Outside.Level} {text : String} {k : Unit → Job Value} :
    Turn s (note level text >>= k).run s' r ↔ Turn s (k ()).run s' r :=
  turn_log

lemma turn_bind_load {k : Store → Job Value} :
    Turn s (ask .load >>= k).run s' r ↔ Turn s (k s).run s' r :=
  turn_load

lemma turn_bind_now {k : Instant → Job Value} :
    Turn s (ask .now >>= k).run s' r ↔ ∃ t, Turn s (k t).run s' r :=
  turn_now

lemma turn_bind_save {t : Store} {k : Unit → Job Value} :
    Turn s (ask (.save t) >>= k).run s' r ↔ Turn t (k ()).run s' r :=
  turn_save

lemma turn_bind_waiting {q : Request} (hq : q.waits = true) {k : Answer q → Job Value} :
    Turn s (ask q >>= k).run s' r ↔ s' = s ∧ r = .ask q fun x => (k x).run :=
  turn_waiting hq

lemma turn_bind_settle {x : Except Fault α} {k : α → Job Value} :
    Turn s (settle x >>= k).run s' r ↔
      match x with
      | .ok a => Turn s (k a).run s' r
      | .error f => s' = s ∧ r = .done (.error f) := by
  cases x with
  | ok a => rfl
  | error f => exact turn_done

end Jobs

end Turns

/-! ## Pools of calls -/

/-- A call of an operation that changes the store. -/
inductive Call
  | analyze (source filename : Value)
  | deploy (analysisId source arguments : Value)
  | verify (contractId : Value)

/-- The job of a call. -/
def Call.job (s : Service) : Call → Rest
  | analyze source filename => (s.analyze source filename).run
  | deploy analysisId source arguments => (s.deploy analysisId source arguments).run
  | verify contractId => (s.verify contractId).run

/-- The store of a service, and what is left of the calls that go on. -/
structure Pool where
  store : Store
  jobs : List Rest

/-- What lets a call go on. -/
inductive Event
  | begins
  | answered (q : Request) (x : Answer q)

/-- What is left of a job when the event has come. -/
inductive Resumes : Rest → Event → Rest → Prop
  | begins {q : Request} {next : Answer q → Rest} (hq : q.waits = false) :
    Resumes (.ask q next) .begins (.ask q next)
  | answered {q : Request} {next : Answer q → Rest} (hq : q.waits = true) (x : Answer q) :
    Resumes (.ask q next) (.answered q x) (next x)

section Events

variable {e : Event} {r : Rest}

lemma not_resumes_done {x : Except Fault Value} : ¬ Resumes (.done x) e r := nofun

lemma resumes_at_once {q : Request} {next : Answer q → Rest} (hq : q.waits = false) :
    Resumes (.ask q next) e r ↔ e = .begins ∧ r = .ask q next := by
  constructor
  · intro h
    cases h with
    | begins => exact ⟨rfl, rfl⟩
    | answered hq' => simp [hq] at hq'
  · rintro ⟨rfl, rfl⟩
    exact .begins hq

lemma resumes_waiting {q : Request} {next : Answer q → Rest} (hq : q.waits = true) :
    Resumes (.ask q next) e r ↔ ∃ x, e = .answered q x ∧ r = next x := by
  constructor
  · intro h
    cases h with
    | begins hq' => simp [hq] at hq'
    | answered _ x => exact ⟨x, rfl, rfl⟩
  · rintro ⟨x, rfl, rfl⟩
    exact .answered hq x

end Events

/-- The call at the place takes its turn after the event. -/
inductive Step : Pool → Nat → Event → Pool → Prop
  | turn {p : Pool} {i : Nat} {e : Event} {job r r' : Rest} {store : Store}
    (hjob : p.jobs[i]? = some job) (hr : Resumes job e r) (h : Turn p.store r store r') :
    Step p i e ⟨store, p.jobs.set i r'⟩

/-- One step of a run: the pool before it, and which call goes on after which event. -/
structure Moment where
  pool : Pool
  place : Nat
  event : Event

/-- A run from a pool: the steps so far, and the pool that they lead to. -/
inductive Run (start : Pool) : List Moment → Pool → Prop
  | start : Run start [] start
  | step {past : List Moment} {p q : Pool} {i : Nat} {e : Event} (hrun : Run start past p)
    (h : Step p i e q) : Run start (past ++ [⟨p, i, e⟩]) q

/-- The calls before any of them has begun. -/
def opening (s : Service) (store : Store) (calls : List Call) : Pool :=
  ⟨store, calls.map (Call.job s)⟩

/-- A service with a ledger. -/
def ledgered : Service where
  explorerUrl := some "https://hashscan.io/testnet"
  network := .str "testnet"
  recentLimit := .int 10
  hasModel := false

end SolidityAudit.Service
