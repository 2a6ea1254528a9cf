import ShejaneRuntime.Migration.EventLog

/-!
# Opening twice

What opening computes from event numbers it computes before it repairs them:
the watermark of an assistant item when the column is added, and the wait that
a plan approval belongs to. Both are right exactly when the repair does not
move the events they were read from; everything else opening does is done once
and found done the next time.
-/

namespace ShejaneRuntime.Migration

open Lib Store

variable {str : Json → String}

/-! ## What is done is found done -/

/-- The event that asked for a plan approval. -/
structure AsksFor (plan : PlanApproval) (e : Event) : Prop where
  runId : e.runId = plan.runId
  eventType : e.eventType = "plan.approval_required"
  approves : approves plan e = true

/-- A wait whose payload gives an identity for a plan approval. -/
structure Names (str : Json → String) (plan : PlanApproval) (e : Event) : Prop where
  runId : e.runId = plan.runId
  eventType : e.eventType = "run.waiting"
  identity : identityIn str plan e.payload.payload ≠ none

/-- For no plan approval without an identity do the waits that name it come
after the event that asked for it by time or id only, at one number. -/
def Database.Settled (str : Json → String) (db : Database) : Prop :=
  ∀ plan ∈ db.planApprovals, plan.unidentified = true →
    (∃ a ∈ db.events, ∃ e ∈ db.events, AsksFor plan a ∧ Names str plan e ∧ a.key < e.key) →
      ∃ a ∈ db.events, ∃ e ∈ db.events, AsksFor plan a ∧ Names str plan e ∧ a.seq < e.seq

section Promises

variable {db : Database} (hids : (db.events.map Event.id).Nodup)

include hids

end Promises

end ShejaneRuntime.Migration
