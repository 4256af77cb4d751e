import SolidityAudit.Legal.Summary
import SolidityAudit.Proofs.Json.Writable
import SolidityAudit.Proofs.Outside.Recorded

/-!
# Summaries in a recorded world

A summarizer with a key asks its model once, and whatever the model answers, there is a summary: the
object in the reply, or one of the fixed objects (`run_summarize`). Nothing goes wrong on the way,
and each of these can be written (`hasLong_summaryOf`), so a summary can only fail later, where it
is shown.
-/

namespace SolidityAudit

namespace Outside.Recorded

variable (w : Recorded)

/-- The world after some requests of which one has gone to the model. -/
def replied (asked : List Request) : Recorded :=
  { w.noting asked with replies := w.replies.next.2 }

lemma noting_replied (asked more : List Request) :
    (w.noting asked).replied more = w.replied (asked ++ more) := by
  unfold replied
  rw [noting_noting]
  rfl

lemma replied_noting (asked more : List Request) :
    (w.replied asked).noting more = w.replied (asked ++ more) := by
  unfold replied noting
  rw [List.append_assoc]

lemma run_openChat (key timeout retries : Value) :
    w.run (Action.ask (.openChat key timeout retries)) =
      (.ok (.ok ()), w.noting [.openChat key timeout retries]) :=
  rfl

lemma run_chat (query : ChatQuery) :
    w.run (Action.ask (.chat query)) = (.ok w.replies.next.1, w.replied [.chat query]) :=
  rfl

end Outside.Recorded

namespace Summarizer

open Outside (Recorded)
open Outside.Recorded

variable {w w' : Recorded} {s : Summarizer} {source reply : String}

/-- The summary that comes from a reply of the model. -/
def summaryOf (reply : String) : Value :=
  if reply = "" then unavailableSummary
  else
    match Reply.parse reply with
    | .ok (some v) => v
    | .ok none => pendingSummary reply
    | .error _ => unavailableSummary

lemma hasLong_of_readTolerant {text : String} {v : Value} (h : Reply.readTolerant text = .ok v) :
    v.hasLong = false := by
  unfold Reply.readTolerant at h
  split at h
  · next hread =>
    obtain rfl := Except.ok.inj h
    exact Json.hasLong_of_read hread
  · split at h
    · cases h
    · exact Json.hasLong_of_read h

lemma hasLong_of_parse {v : Value} (h : Reply.parse reply = .ok (some v)) : v.hasLong = false := by
  unfold Reply.parse at h
  split at h
  · cases h
  · split at h
    · next hread =>
      obtain rfl := Option.some.inj (Except.ok.inj h)
      exact hasLong_of_readTolerant hread
    · cases h
    · cases h

/-- Whatever the model replies, the summary can be written. -/
lemma hasLong_summaryOf (reply : String) : (summaryOf reply).hasLong = false := by
  unfold summaryOf
  split
  · rfl
  · split
    · next hparse => exact hasLong_of_parse hparse
    · rfl
    · rfl

/-! ## Opening -/

/-- The key that a summarizer has: the one of its options, or else the one of the environment. -/
def Options.keyIn (o : Options) (w : Recorded) : Value :=
  if o.key.truthy then o.key else ((w.environment.lookup "OPENAI_API_KEY").map .str).getD .null

/-- A summarizer opens, with the key that there is or without one. -/
lemma run_start (w : Recorded) (o : Options) :
    ∃ s asked, w.run (start o) = (.ok s, w.noting asked) ∧ s.hasKey = (o.keyIn w).truthy := by
  unfold start Options.keyIn
  dsimp only
  by_cases hgiven : o.key.truthy = true
  · rw [if_pos hgiven, if_pos hgiven, run_bind (run_pure w _), if_pos hgiven,
      run_bind (run_openChat ..), run_bind (run_settle ..), run_pure]
    exact ⟨_, _, rfl, rfl⟩
  · rw [if_neg hgiven, if_neg hgiven, run_bind (run_environment w _), run_bind (run_pure ..)]
    by_cases hfound :
        (((w.environment.lookup "OPENAI_API_KEY").map Value.str).getD .null).truthy = true
    · rw [if_pos hfound, run_bind (run_openChat ..), run_bind (run_settle ..), run_pure,
        noting_noting]
      exact ⟨_, _, rfl, rfl⟩
    · rw [if_neg hfound, run_bind (run_log ..), run_pure, noting_noting]
      exact ⟨_, _, rfl, rfl⟩

/-! ## Asking -/

lemma run_readReply (w : Recorded) (reply : String) :
    ∃ asked, w.run (readReply reply) = (Reply.parse reply, w.noting asked) := by
  unfold readReply
  cases Reply.retryNotice reply with
  | none => exact ⟨[], by rw [noting_nil]; rfl⟩
  | some notice =>
    dsimp only
    rw [run_bind (run_log ..), run_settle]
    exact ⟨_, rfl⟩

/-- What the model answers is a text that is not empty, or a fault. -/
lemma run_complete (hreply : w.replies.next.1 = .ok (.str reply)) (model : Value)
    (role prompt : String) (maxTokens : Nat) :
    ∃ asked, w.run (complete model role prompt maxTokens) =
      (if reply = "" then .error .noReply else .ok reply, w.replied asked) := by
  unfold complete
  dsimp only
  rw [run_bind (run_chat ..), hreply, run_bind (run_settle ..)]
  by_cases hempty : reply = ""
  · rw [if_pos hempty, hempty]
    exact ⟨_, rfl⟩
  · have htruthy : (Value.str reply).truthy = true := bne_iff_ne.mpr hempty
    rw [if_neg hempty, if_pos htruthy]
    exact ⟨_, rfl⟩

/-- With a key there is a summary, whatever the model replies. -/
lemma run_summarize (hkey : s.hasKey = true) (hreply : w.replies.next.1 = .ok (.str reply))
    (source : String) :
    ∃ asked, w.run (s.summarize source) = (.ok (summaryOf reply), w.replied asked) := by
  obtain ⟨asked, hcomplete⟩ := run_complete hreply s.model summaryRole (summaryPrompt source) 2000
  unfold summarize consult summaryOf
  rw [if_pos hkey]
  dsimp only
  by_cases hempty : reply = ""
  · rw [if_pos hempty] at hcomplete ⊢
    rw [run_bind (run_attempt (run_bind_error hcomplete))]
    dsimp only
    rw [run_bind (run_log ..), run_pure, replied_noting]
    exact ⟨_, rfl⟩
  · rw [if_neg hempty] at hcomplete ⊢
    obtain ⟨more, hread⟩ := run_readReply (w.replied asked) reply
    cases hparse : Reply.parse reply with
    | error f =>
      rw [hparse] at hread
      rw [run_bind (run_attempt ((run_bind hcomplete).trans (run_bind_error hread)))]
      dsimp only
      rw [run_bind (run_log ..), run_pure, replied_noting, replied_noting]
      exact ⟨_, rfl⟩
    | ok found =>
      rw [hparse] at hread
      rw [run_bind (run_attempt ((run_bind hcomplete).trans (run_bind hread)))]
      cases found with
      | none => exact ⟨asked ++ more, by rw [← replied_noting]; rfl⟩
      | some v => exact ⟨asked ++ more, by rw [← replied_noting]; rfl⟩

end Summarizer

end SolidityAudit
