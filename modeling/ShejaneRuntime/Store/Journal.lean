import ShejaneRuntime.Store.Session

/-!
# Events and the thread projection

Appending an event, projecting the lifecycle of a child run into the log
of its parent, and keeping the thread and its assistant item in step with
the run. None of these functions writes anything but the journal.
-/

namespace ShejaneRuntime.Store

open Lib

/-- A column that counts as absent when it is null or empty. -/
def nonEmpty : Option String → Option String
  | some text => if text = "" then none else some text
  | none => none

def timeJson (t : Time) : Json := .str (toString t)

def optText : Option String → Json
  | some text => .str text
  | none => .null

/-- `_CHILD_EVENT_BY_RUN_EVENT` -/
def childEventByRunEvent : List (String × String × Option RunStatus) :=
  [("run.started", "child.started", some .running),
   ("run.resumed", "child.started", some .running),
   ("run.waiting", "child.waiting", none),
   ("run.completed", "child.completed", some .completed),
   ("run.failed", "child.failed", some .failed),
   ("run.canceled", "child.canceled", some .canceled),
   ("run.cleanup_required", "child.cleanup_required", some .cleanupRequired)]

/-- The events that report where a run is in its lifecycle. -/
def isLifecycleEvent (eventType : String) : Bool :=
  (childEventByRunEvent.lookup eventType).isSome

abbrev JournalTxn := Txn Journal World StoreError

namespace Journal

/-! The functions on the journal see the rest of the database read-only, as
the argument `db`. -/

def insertThread (thread : Thread) : JournalTxn Unit :=
  Txn.attempt (fun j ↦ (j.threads.insert? thread).map fun threads ↦ { j with threads := threads })
    (uniqueFailed "local_threads.id")

def insertThreadItem (item : ThreadItem) : JournalTxn Unit := do
  let clash ← Txn.read fun j ↦ j.items.rows.any fun i ↦
    (i.threadId = item.threadId && i.clientId.isSome && i.clientId = item.clientId) ||
      (i.runId.isSome && i.runId = item.runId && i.itemType = item.itemType)
  Txn.require (clash = false) (uniqueFailed "local_thread_items")
  Txn.attempt (fun j ↦ (j.items.insert? item).map fun items ↦ { j with items := items })
    (uniqueFailed "local_thread_items.id")

/-- Changes get the next cursor of the autoincrement column. -/
def insertThreadChange (principalId threadId : String) (threadVersion : ℕ) (changeType : String)
    (runId : Option String) (createdAt : Time) : JournalTxn Unit :=
  Txn.write fun j ↦
    { j with changes := j.changes ++
      [⟨j.changes.length + 1, principalId, threadId, threadVersion, changeType, runId,
        createdAt⟩] }

def updateThreads (p : Thread → Bool) (f : Thread → Thread)
    (hf : ∀ t, (f t).id = t.id := by intro; rfl) : JournalTxn Unit :=
  Txn.write fun j ↦ { j with threads := j.threads.update p f hf }

def updateItems (p : ThreadItem → Bool) (f : ThreadItem → ThreadItem)
    (hf : ∀ i, (f i).id = i.id := by intro; rfl) : JournalTxn Unit :=
  Txn.write fun j ↦ { j with items := j.items.update p f hf }

def insertEvent (db : Database) (runId eventType : String) (payloadJson : Json)
    (createdAt : Time) : JournalTxn Event := do
  let id ← newId "evt"
  Txn.require ((db.runs.find? runId).isSome = true)
    (.integrityError "FOREIGN KEY constraint failed")
  let event ← Txn.read fun j ↦ j.events.next id runId eventType payloadJson createdAt
  Txn.attempt (fun j ↦ (j.events.append? id runId eventType payloadJson createdAt).map
      fun events ↦ { j with events := events })
    (uniqueFailed "local_events.id")
  pure event

/-- Advance the version of a thread and record the change. -/
def bumpThread (run : Run) (runId threadId : String) (retitle : String → String)
    (changeType : String) (changedAt : Time) : JournalTxn Unit := do
  let found ← Txn.read fun j ↦
    (j.threads.find? threadId).filter fun t ↦ t.principalId = run.principalId
  let thread ← Txn.getOr found
    (.runResultConflict s!"run {runId} is missing its thread projection")
  let threadVersion := thread.version + 1
  updateThreads (fun t ↦ t.id = threadId) fun t ↦
    { t with version := threadVersion, title := retitle thread.title, updatedAt := changedAt }
  insertThreadChange run.principalId threadId threadVersion changeType (some runId) changedAt

/-- Advance the assistant item of a run, which must exist. -/
def bumpAssistantItem (runId itemId : String) (f : ThreadItem → ThreadItem)
    (hf : ∀ i, (f i).id = i.id := by intro; rfl) : JournalTxn Unit := do
  let rowcount ← Txn.read fun j ↦ j.items.rowcount fun i ↦ i.id = itemId && i.runId = some runId
  updateItems (fun i ↦ i.id = itemId && i.runId = some runId) f hf
  Txn.require (rowcount = 1)
    (.runResultConflict s!"run {runId} is missing its assistant projection")

/-- Publish a run event without changing assistant content or status. -/
def touchThreadForRunEvent (db : Database) (runId changeType : String)
    (eventHighWatermark : ℕ) (changedAt : Time) : JournalTxn Unit :=
  match db.runs.find? runId with
  | none => pure ()
  | some run =>
    match nonEmpty run.threadId, nonEmpty run.assistantItemId with
    | some threadId, some itemId => do
      bumpAssistantItem runId itemId fun i ↦
        { i with eventHighWatermark := max i.eventHighWatermark eventHighWatermark,
                 version := i.version + 1, updatedAt := changedAt }
      bumpThread run runId threadId (fun title ↦ title) changeType changedAt
    | _, _ => pure ()

/-- The keys of a result that a parent sees of its child. -/
def projectedResultKeys : List String :=
  ["error", "type", "category", "retryable", "input_tokens", "output_tokens", "model_calls",
    "final_answer_ref"]

def childLifecyclePayload (child : Run) (parentRunId : String) (status : String) (source : Event)
    (sourcePayload : Json) : Json :=
  let finalText := Json.textOrEmpty (sourcePayload.get? "final_text")
  .obj <|
    [("child_run_id", .str child.id),
     ("parent_run_id", .str parentRunId),
     ("root_run_id", .str (child.rootRunId.getD "None")),
     ("agent_definition_id", .str child.agentDefinitionId),
     ("agent_definition_version", .str child.agentDefinitionVersion),
     ("collaboration_depth", .num child.collaborationDepth),
     ("goal", .str child.goal),
     ("status", .str status),
     ("source_event_id", .str source.id),
     ("source_event_seq", .num source.seq),
     ("updated_at", timeJson child.updatedAt)] ++
    (if finalText = "" then [] else
      [("result_preview", .str (String.ofList (finalText.toList.take 4096))),
       ("result_truncated", .bool (4096 < finalText.length))]) ++
    projectedResultKeys.filterMap fun key ↦ (sourcePayload.get? key).map fun value ↦ (key, value)

def appendChildParentLifecycle (db : Database) (childRunId : String) (source : Event)
    (sourcePayload : Json) : JournalTxn (Option Event) :=
  match (db.runs.find? childRunId).filter fun r ↦ r.runKind = .child with
  | none => pure none
  | some child =>
    match nonEmpty child.parentRunId, childEventByRunEvent.lookup source.eventType with
    | some parentRunId, some (parentEventType, fixedStatus) => do
      let status := (fixedStatus.getD child.status).text
      let payload := childLifecyclePayload child parentRunId status source sourcePayload
      let parentEvent ← insertEvent db parentRunId parentEventType (encodePayload payload)
        source.createdAt
      touchThreadForRunEvent db parentRunId parentEventType parentEvent.seq source.createdAt
      pure (some parentEvent)
    | _, _ => pure none

/-- Lifecycle events of a child are projected into the log of its parent. -/
def projectToParent (db : Database) (runId eventType : String) (event : Event)
    (payloadJson : Json) : JournalTxn (Option Event) :=
  if isLifecycleEvent eventType then
    appendChildParentLifecycle db runId event (jsonPayload (some payloadJson))
  else pure none

def appendEvent (db : Database) (runId eventType : String) (payloadJson : Json)
    (createdAt : Time) : JournalTxn (Event × Option Event) := do
  let event ← insertEvent db runId eventType payloadJson createdAt
  let parentEvent ← projectToParent db runId eventType event payloadJson
  pure (event, parentEvent)

/-- The item status that shows a run status; the others are never projected. -/
def projectedItemStatus : RunStatus → Option String
  | .completed => some "completed"
  | .failed => some "failed"
  | .canceled => some "canceled"
  | .waitingPermission => some "in_progress"
  | .waitingInput => some "in_progress"
  | .cleanupRequired => some "cleanup_required"
  | .queued | .running => none

/-- A generated title replaces the title only while that is still its seed. -/
def nextTitle (payload : Json) (title : String) : String :=
  let generated := squeeze (Json.textOrEmpty (payload.get? "thread_title")) 80
  let seed := squeeze (Json.textOrEmpty (payload.get? "thread_title_seed")) 80
  if generated ≠ "" ∧ seed ≠ "" ∧ title = seed then generated else title

def updateThreadProjection (db : Database) (runId : String) (runStatus : RunStatus)
    (changeType : String) (payload : Json) (eventHighWatermark : ℕ) (changedAt : Time) :
    JournalTxn Unit :=
  match db.runs.find? runId with
  | none => pure ()
  | some run =>
    match nonEmpty run.threadId, nonEmpty run.assistantItemId with
    | some threadId, some itemId => do
      let finalText :=
        if runStatus = .completed then Json.textOrEmpty (payload.get? "final_text") else ""
      let draft := ((db.content.drafts.find? runId).map AssistantDraft.content).getD ""
      let content := if finalText = "" then draft else finalText
      let itemStatus ← Txn.getOr (projectedItemStatus runStatus) (.keyError runStatus.text)
      let completedAt := if runStatus.terminal then some changedAt else none
      bumpAssistantItem runId itemId fun i ↦
        { i with status := itemStatus, content := content,
                 eventHighWatermark := eventHighWatermark, version := i.version + 1,
                 updatedAt := changedAt, completedAt := completedAt }
      bumpThread run runId threadId (nextTitle payload) changeType changedAt
    | _, _ => pure ()

end Journal

/-! ## On the whole database -/

/-- A journal transaction as part of a store transaction. -/
def onJournal {α : Type} (m : Database → JournalTxn α) : StoreTxn α := do
  let db ← Txn.read fun db ↦ db
  Txn.zoom Database.journal (fun db journal ↦ { db with journal := journal }) (m db)

def appendEventUncommitted (runId eventType : String) (payloadJson : Json) (createdAt : Time) :
    StoreTxn (Event × Option Event) :=
  onJournal fun db ↦ Journal.appendEvent db runId eventType payloadJson createdAt

def touchThreadForRunEventUncommitted (runId changeType : String) (eventHighWatermark : ℕ)
    (changedAt : Time) : StoreTxn Unit :=
  onJournal fun db ↦ Journal.touchThreadForRunEvent db runId changeType eventHighWatermark changedAt

def updateThreadProjectionUncommitted (runId : String) (runStatus : RunStatus)
    (changeType : String) (payload : Json) (eventHighWatermark : ℕ) (changedAt : Time) :
    StoreTxn Unit :=
  onJournal fun db ↦
    Journal.updateThreadProjection db runId runStatus changeType payload eventHighWatermark changedAt

/-- `append_event` -/
def appendEvent (lease : Option ExecutionLease) (runId eventType : String) (payload : Json) :
    StoreTxn (Event × Option Event) :=
  runWriteTransaction runId lease do
    let createdAt ← utcNow
    appendEventUncommitted runId eventType (encodePayload payload) createdAt

end ShejaneRuntime.Store
