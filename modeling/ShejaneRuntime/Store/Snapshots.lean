import Mathlib.Data.Prod.Lex
import ShejaneRuntime.Lib.Paging
import ShejaneRuntime.Store.AgentMessages

/-!
# Reading threads

The snapshot of a thread and the two feeds that continue it: the events of
a run after a sequence number, and the changes of a principal after a
cursor. Each reads one state of the database.
-/

namespace ShejaneRuntime.Store

open Lib

/-- `_PRESENTATION_EVENT_TYPES` -/
def presentationEventTypes : List String :=
  ["assistant.round.committed", "tool.requested", "tool.completed", "tool.failed",
    "tool.canceled", "subagent.spawned", "subagent.started", "subagent.waiting",
    "subagent.completed", "subagent.failed", "subagent.canceled", "subagent.outcome_unknown",
    "permission.required", "permission.resolved", "question.asked", "question.answered",
    "plan.approval_required", "plan.resolved", "tool.reconciliation_required",
    "tool.reconciliation_resolved", "artifact.created", "run.completed", "run.failed",
    "run.canceled", "run.cleanup_required"]

/-! ## Feeds -/

/-- `events_since` -/
def eventsSince (db : Database) (runId : String) (afterSeq : ℤ) (limit : Option ℕ) : List Event :=
  let rows := orderBy Event.seq
    (db.journal.events.rows.filter fun e ↦ e.runId = runId && afterSeq < e.seq)
  match limit with
  | some limit => rows.take limit
  | none => rows

/-- `thread_changes_since`: the next changes, and the cursor after them. -/
def threadChangesSince (db : Database) (principalId : String) (afterCursor limit : ℤ) :
    List ThreadChange × ℤ :=
  let changes := (orderBy ThreadChange.cursor (db.journal.changes.filter fun row ↦
    row.principalId = principalId && max 0 afterCursor < row.cursor)).take
      (max 1 (min limit 1000)).toNat
  (changes, (changes.getLast?.map fun row ↦ (row.cursor : ℤ)).getD (max 0 afterCursor))

/-! ## Snapshots -/

structure SnapshotRun where
  run : Run
  commandId : Option String
  clientMessageId : Option String
  eventsCount : ℕ
  subagentInvocations : List Json

structure ThreadSnapshot where
  thread : Thread
  items : List ThreadItem
  runs : List SnapshotRun
  events : List Event
  presentationEvents : List Event
  presentationHighWatermarks : List (String × ℕ)
  toolReceiptsByRun : List (String × List ToolReceipt)
  waitCandidatesByRun : List (String × List WaitCandidate)
  artifactsByRun : List (String × List Artifact)
  eventHighWatermarks : List (String × ℕ)
  cursor : ℕ
  hasMoreItems : Bool
  nextBeforePosition : Option ℤ
  eventsTruncated : Bool

/-- The rows of each run that has one, under the run. -/
def groupByRun {α : Type} (runId : α → String) (rows : List α) : List (String × List α) :=
  (fromKeys (rows.map runId)).map fun id ↦ (id, rows.filter fun row ↦ runId row = id)

/-- The items a page is taken from, newest first. -/
def newestItems (db : Database) (threadId : String) (beforePosition : Option ℤ) :
    List ThreadItem :=
  orderBy (fun i ↦ OrderDual.toDual (toLex (i.position, i.id)))
    (db.journal.items.select fun i ↦ i.threadId = threadId && i.supersededAt.isNone &&
      beforePosition.all fun position ↦ i.position < position)

/-- The events of some runs of a principal; `datetime` is what a run is
ordered by of the time it was created. -/
def eventsOfRuns (datetime : Time → Time) (db : Database) (principalId : String)
    (runIds : List String) : List Event :=
  orderBy (fun e ↦ toLex (((db.runs.find? e.runId).map fun r ↦ datetime r.createdAt).getD 0,
      toLex (e.runId, e.seq)))
    (db.journal.events.rows.filter fun e ↦ runIds.contains e.runId &&
      (db.runs.find? e.runId).any fun r ↦ r.principalId = principalId)

/-- `_subagent_invocations_uncommitted`, for one run -/
def subagentInvocations (db : Database) (runId : String) : List Json :=
  (orderByTimeId ToolReceipt.createdAt ToolReceipt.operationId
    (db.ledger.toolReceipts.select fun r ↦ r.toolName = "task" && r.runId = runId)).map fun r ↦
      subagentInvocationProjection r
        (db.ledger.modelCalls.select fun c ↦ c.parentToolOperationId = some r.operationId)

/-- A run joined with the commands that started it. -/
def snapshotRun (db : Database) (run : Run) : List SnapshotRun :=
  let commands := db.commands.rows.filter fun c ↦ c.runId = some run.id &&
    c.principalId = run.principalId &&
    (c.commandType = "run.start" || c.commandType = "run.fork")
  let row (command : Option Command) : SnapshotRun :=
    ⟨run, command.map Command.id, command.map Command.clientMessageId,
      (db.journal.events.ofRun run.id).length, subagentInvocations db run.id⟩
  if commands.isEmpty then [row none] else commands.map fun c ↦ row (some c)

def snapshotRuns (datetime : Time → Time) (db : Database) (principalId : String)
    (runIds : List String) : List SnapshotRun :=
  (orderBy (fun r ↦ toLex (datetime r.createdAt, r.id)) (db.runs.select fun r ↦
    r.principalId = principalId && runIds.contains r.id)).flatMap (snapshotRun db)

/-- `COALESCE(MAX(cursor), 0)` over the changes of a thread. -/
def threadCursor (db : Database) (principalId threadId : String) : ℕ :=
  ((db.journal.changes.filter fun row ↦ row.principalId = principalId &&
    row.threadId = threadId).map ThreadChange.cursor).foldr max 0

def boundedItemLimit (itemLimit : ℤ) : ℕ := (max 2 (min itemLimit 500)).toNat

def boundedEventLimit (eventLimit : ℤ) : ℕ := (max 1 (min eventLimit 10000)).toNat

/-- What a snapshot says of a thread, from the items of its page. -/
def snapshotOf (datetime : Time → Time) (db : Database) (thread : Thread) (page : List ThreadItem)
    (hasMoreItems : Bool) (eventLimit : ℤ) : ThreadSnapshot :=
  let runIds := fromKeys (page.filterMap fun i ↦ nonEmpty i.runId)
  let found := eventsOfRuns datetime db thread.principalId runIds
  let events := found.take (boundedEventLimit eventLimit)
  let presentationEvents := found.filter fun e ↦ presentationEventTypes.contains e.eventType
  { thread := thread
    items := page
    runs := snapshotRuns datetime db thread.principalId runIds
    events := events
    presentationEvents := presentationEvents
    presentationHighWatermarks := runIds.map fun id ↦
      (id, ((presentationEvents.filter fun e ↦ e.runId = id).getLast?.map Event.seq).getD 0)
    toolReceiptsByRun := groupByRun ToolReceipt.runId
      (orderByTimeId ToolReceipt.createdAt ToolReceipt.operationId
        (db.ledger.toolReceipts.select fun r ↦ runIds.contains r.runId))
    waitCandidatesByRun := groupByRun WaitCandidate.runId
      (orderByTimeId WaitCandidate.createdAt WaitCandidate.id
        (db.waits.candidates.select fun c ↦ runIds.contains c.runId))
    artifactsByRun := groupByRun Artifact.runId
      (orderByTimeId Artifact.createdAt Artifact.id
        (db.content.artifacts.filter fun a ↦ runIds.contains a.runId))
    eventHighWatermarks := runIds.map fun id ↦ (id, maxSeq events id)
    cursor := threadCursor db thread.principalId thread.id
    hasMoreItems := hasMoreItems
    nextBeforePosition := if hasMoreItems then page.head?.map ThreadItem.position else none
    eventsTruncated := boundedEventLimit eventLimit < found.length }

/-- `get_thread_snapshot` -/
def getThreadSnapshot (datetime : Time → Time) (db : Database) (principalId threadId : String)
    (beforePosition : Option ℤ) (itemLimit eventLimit : ℤ) (expectedVersion : Option ℤ) :
    Except StoreError (Option ThreadSnapshot) :=
  match (db.journal.threads.find? threadId).filter fun t ↦
      t.principalId = principalId && t.deletedAt.isNone with
  | none => .ok none
  | some thread =>
    if expectedVersion.any fun version ↦ (thread.version : ℤ) ≠ version then
      .error (.runResultConflict "thread changed while reading snapshot")
    else
      let items := (newestItems db threadId beforePosition).take (boundedItemLimit itemLimit + 1)
      let page := (items.take (boundedItemLimit itemLimit)).reverse
      .ok (some (snapshotOf datetime db thread page
        (boundedItemLimit itemLimit < items.length) eventLimit))

end ShejaneRuntime.Store
