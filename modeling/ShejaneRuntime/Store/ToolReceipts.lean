import Mathlib.Data.List.Sort
import ShejaneRuntime.Store.Journal

/-!
# Tool receipts

The durable record of every tool operation: prepared, begun under the
attempt that runs it, and settled once. Receipts of subagent tasks project
their transitions into the event log of the run.
-/

namespace ShejaneRuntime.Store

open Lib

/-- `ORDER BY time, id` -/
def orderByTimeId {α : Type} (time : α → Time) (id : α → String) (rows : List α) : List α :=
  rows.insertionSort fun a b ↦ time a < time b ∨ (time a = time b ∧ id a ≤ id b)

theorem orderByTimeId_perm {α : Type} (time : α → Time) (id : α → String) (rows : List α) :
    (orderByTimeId time id rows).Perm rows :=
  List.perm_insertionSort _ _

theorem mem_orderByTimeId {α : Type} {time : α → Time} {id : α → String} {rows : List α} {x : α} :
    x ∈ orderByTimeId time id rows ↔ x ∈ rows :=
  (orderByTimeId_perm time id rows).mem_iff

/-! ## Subagent projections -/

/-- `_SUBAGENT_EVENT_BY_RECEIPT_STATUS` -/
def subagentEventByReceiptStatus : ReceiptStatus → String × String
  | .prepared => ("subagent.spawned", "queued")
  | .running => ("subagent.started", "running")
  | .paused => ("subagent.waiting", "waiting")
  | .completed => ("subagent.completed", "completed")
  | .failed => ("subagent.failed", "failed")
  | .rejected => ("subagent.failed", "failed")
  | .canceled => ("subagent.canceled", "canceled")
  | .outcomeUnknown => ("subagent.outcome_unknown", "unknown")

/-- The model usage charged to a subagent task. -/
def subagentUsage (calls : List ModelCall) : Json :=
  let total (f : ModelCall → Option ℕ) : ℕ := (calls.map fun c ↦ (f c).getD 0).foldr (· + ·) 0
  let count (status : ModelCallStatus) : ℤ := (calls.countP fun c ↦ c.status = status : ℕ)
  .obj [("model_calls", .num calls.length),
        ("input_tokens", .num (total ModelCall.inputTokens)),
        ("output_tokens", .num (total ModelCall.outputTokens)),
        ("unmetered_calls", .num (count .completedUnmetered)),
        ("outcome_unknown_calls", .num (count .outcomeUnknown))]

def optTime : Option Time → Json
  | some t => timeJson t
  | none => .null

def subagentInvocationProjection (receipt : ToolReceipt) (calls : List ModelCall) : Json :=
  let arguments := jsonPayload (some receipt.argumentsJson)
  .obj [("operation_id", .str receipt.operationId),
        ("parent_run_id", .str receipt.runId),
        ("parent_operation_id", optText receipt.parentOperationId),
        ("tool_call_id", .str receipt.toolCallId),
        ("subagent_type", .str (Json.textOrEmpty (arguments.get? "subagent_type"))),
        ("description", .str (Json.textOrEmpty (arguments.get? "description"))),
        ("status", .str (subagentEventByReceiptStatus receipt.status).2),
        ("receipt_status", .str receipt.status.text),
        ("attempt_count", .num receipt.attemptCount),
        ("usage", subagentUsage calls),
        ("error_type", optText receipt.errorType),
        ("created_at", timeJson receipt.createdAt),
        ("started_at", optTime receipt.startedAt),
        ("completed_at", optTime receipt.completedAt),
        ("updated_at", timeJson receipt.updatedAt)]

/-- Only receipts of the `task` tool have events. -/
def Journal.appendSubagentReceiptEvent (db : Database) (receipt : ToolReceipt) :
    JournalTxn Unit :=
  if receipt.toolName = "task" then do
    let calls := db.ledger.modelCalls.select fun c ↦
      c.parentToolOperationId = some receipt.operationId
    let eventType := (subagentEventByReceiptStatus receipt.status).1
    let (event, _) ← Journal.appendEvent db receipt.runId eventType
      (encodePayload (subagentInvocationProjection receipt calls)) receipt.updatedAt
    Journal.touchThreadForRunEvent db receipt.runId eventType event.seq receipt.updatedAt
  else pure ()

def appendSubagentReceiptEventUncommitted (receipt : ToolReceipt) : StoreTxn Unit :=
  onJournal fun db ↦ Journal.appendSubagentReceiptEvent db receipt

/-! ## Receipts of a lost or finished attempt -/

def markRunningToolReceiptsOutcomeUnknownUncommitted (runId : String)
    (executionAttemptId : AttemptId) (errorType : String) (now : Time) : StoreTxn Unit := do
  let settle (r : ToolReceipt) : ToolReceipt :=
    { r with status := .outcomeUnknown, errorType := some errorType, updatedAt := now,
             completedAt := some now }
  let lost (r : ToolReceipt) : Bool :=
    r.runId = runId && r.executionAttemptId = executionAttemptId && r.status = .running
  let running ← Txn.read fun db ↦
    orderByTimeId ToolReceipt.createdAt ToolReceipt.operationId (db.ledger.toolReceipts.select lost)
  updateToolReceipts lost settle
  forM running fun r ↦ appendSubagentReceiptEventUncommitted (settle r)

/-- `status IN ('prepared', 'paused')` -/
def ToolReceipt.unstarted (r : ToolReceipt) : Bool := r.status = .prepared || r.status = .paused

/-- Close queued or paused tools when their run can no longer resume them. -/
def cancelUnstartedToolReceiptsUncommitted (runId : String) (canceledAt : Time)
    (errorType : String) : StoreTxn Unit := do
  let settle (r : ToolReceipt) : ToolReceipt :=
    { r with status := .canceled, errorType := some errorType, completedAt := some canceledAt,
             updatedAt := canceledAt }
  let still (r : ToolReceipt) : Bool := r.runId = runId && r.unstarted
  let openReceipts ← Txn.read fun db ↦
    orderByTimeId ToolReceipt.createdAt ToolReceipt.operationId (db.ledger.toolReceipts.select still)
  updateToolReceipts still settle
  forM openReceipts fun r ↦ appendSubagentReceiptEventUncommitted (settle r)

/-- The receipts below some operations of a run, deepest first, down to a
number of levels. -/
def receiptDescendants (receipts : List ToolReceipt) (runId : String) :
    ℕ → List String → List ToolReceipt
  | 0, _ => []
  | depth + 1, parents =>
    let level := receipts.filter fun r ↦
      r.runId = runId && r.parentOperationId.any fun p ↦ decide (p ∈ parents)
    receiptDescendants receipts runId depth (level.map ToolReceipt.operationId) ++
      orderByTimeId ToolReceipt.createdAt ToolReceipt.operationId level

/-- What closing a task does to a receipt below it. -/
def descendantSettlement : ReceiptStatus → Option ReceiptStatus
  | .prepared | .paused => some .canceled
  | .running => some .outcomeUnknown
  | _ => none

def descendantError : ReceiptStatus → String
  | .completed => "ParentSubagentCompleted"
  | .failed => "ParentSubagentFailed"
  | _ => "ParentSubagentCanceled"

def settleTaskDescendantsUncommitted (runId operationId : String) (parentStatus : ReceiptStatus)
    (now : Time) : StoreTxn Unit := do
  let descendants ← Txn.read fun db ↦
    receiptDescendants db.ledger.toolReceipts.rows runId 64 [operationId]
  forM descendants fun child ↦
    match descendantSettlement child.status with
    | none => pure ()
    | some settledStatus => do
      let settle (r : ToolReceipt) : ToolReceipt :=
        { r with status := settledStatus, errorType := some (descendantError parentStatus),
                 completedAt := some now, updatedAt := now }
      updateToolReceipts (fun r ↦ r.operationId = child.operationId && r.runId = runId) settle
      appendSubagentReceiptEventUncommitted (settle child)

/-! ## The operations on one receipt -/

def findToolReceipt (operationId : String) : StoreTxn (Option ToolReceipt) :=
  Txn.read fun db ↦ db.ledger.toolReceipts.find? operationId

def findToolReceiptInRun (operationId runId : String) : StoreTxn (Option ToolReceipt) :=
  Txn.read fun db ↦ (db.ledger.toolReceipts.find? operationId).filter fun r ↦ r.runId = runId

/-- Read a receipt back after it was written and project it. -/
def projectedToolReceipt (operationId : String) : StoreTxn ToolReceipt := do
  let row ← findToolReceipt operationId
  let record ← Txn.getOr row (.runtimeError "assertion failed")
  appendSubagentReceiptEventUncommitted record
  pure record

def requireToolReceiptInRunUncommitted (operationId runId : String) : StoreTxn Unit := do
  let receipt? ← findToolReceipt operationId
  let receipt ← Txn.getOr receipt?
    (.toolReceiptState s!"parent tool receipt {operationId} does not exist")
  Txn.require (receipt.runId = runId)
    (.toolReceiptState s!"parent tool receipt {operationId} must belong to the same run")

structure PrepareToolReceipt where
  operationId : String
  runId : String
  executionAttemptId : AttemptId
  toolCallId : String
  toolName : String
  argumentsHash : String
  argumentsJson : Json
  risk : String
  toolVersion : String := ""
  executionNamespace : String := "main"
  parentOperationId : Option String := none

/-- Whether a recorded receipt is the one a prepare asks for again. -/
def PrepareToolReceipt.matches (p : PrepareToolReceipt) (r : ToolReceipt) : Bool :=
  r.operationId = p.operationId && r.executionNamespace = p.executionNamespace &&
    (p.parentOperationId.isNone || r.parentOperationId.isNone ||
      r.parentOperationId = p.parentOperationId) &&
    r.toolName = p.toolName && r.toolVersion = p.toolVersion && r.argumentsHash = p.argumentsHash

def PrepareToolReceipt.row (p : PrepareToolReceipt) (now : Time) : ToolReceipt where
  operationId := p.operationId
  runId := p.runId
  executionAttemptId := p.executionAttemptId
  executionNamespace := p.executionNamespace
  parentOperationId := p.parentOperationId
  toolCallId := p.toolCallId
  toolName := p.toolName
  toolVersion := p.toolVersion
  argumentsHash := p.argumentsHash
  argumentsJson := p.argumentsJson
  risk := p.risk
  status := .prepared
  attemptCount := 0
  resultJson := none
  resultHash := none
  errorType := none
  reviewDecision := none
  reviewSource := none
  reviewReason := none
  reviewModel := none
  reviewedAt := none
  createdAt := now
  startedAt := none
  completedAt := none
  updatedAt := now

/-- The parent a prepare names is another receipt of the run. -/
def PrepareToolReceipt.requireParent (p : PrepareToolReceipt) : StoreTxn Unit :=
  match p.parentOperationId with
  | none => pure ()
  | some parentOperationId => do
    Txn.require (parentOperationId ≠ p.operationId)
      (.toolReceiptState s!"tool receipt {p.operationId} cannot parent itself")
    requireToolReceiptInRunUncommitted parentOperationId p.runId

/-- A repeated prepare returns the recorded receipt, with its parent filled
in when only the repetition names it. -/
def PrepareToolReceipt.repeat (p : PrepareToolReceipt) (record : ToolReceipt) :
    StoreTxn ToolReceipt := do
  Txn.require (p.matches record = true)
    (.toolReceiptConflict
      s!"tool call {p.toolCallId} was reused with a different operation identity")
  if p.parentOperationId.isSome && record.parentOperationId.isNone then do
    updateToolReceipts (fun r ↦ r.operationId = p.operationId && r.parentOperationId.isNone)
      fun r ↦ { r with parentOperationId := p.parentOperationId }
    pure { record with parentOperationId := p.parentOperationId }
  else pure record

/-- `prepare_tool_receipt` -/
def prepareToolReceipt (lease : Option ExecutionLease) (p : PrepareToolReceipt) :
    StoreTxn ToolReceipt :=
  runWriteTransaction p.runId lease do
    p.requireParent
    let existing ← Txn.read fun db ↦ db.ledger.toolReceipts.rows.find? fun r ↦
      r.runId = p.runId && r.executionNamespace = p.executionNamespace &&
        r.toolCallId = p.toolCallId
    match existing with
    | some record => p.repeat record
    | none => do
      let now ← utcNow
      insertToolReceipt (p.row now)
      projectedToolReceipt p.operationId

structure ToolReview where
  decision : String
  source : String
  reason : String
  model : Option String
  deriving DecidableEq

/-- The review a receipt carries, if it was reviewed. -/
def ToolReceipt.review (r : ToolReceipt) : Option ToolReview :=
  r.reviewDecision.map fun decision ↦
    ⟨decision, r.reviewSource.getD "", r.reviewReason.getD "", r.reviewModel⟩

def reviewToolReceipt (operationId runId : String) (review : ToolReview) :
    StoreTxn ToolReceipt := do
  let reviewedAt ← utcNow
  updateToolReceipts
    (fun r ↦ r.operationId = operationId && r.runId = runId && r.reviewDecision.isNone)
    fun r ↦ { r with reviewDecision := some review.decision, reviewSource := some review.source,
                     reviewReason := some review.reason, reviewModel := review.model,
                     reviewedAt := some reviewedAt, updatedAt := reviewedAt }
  let updated ← findToolReceiptInRun operationId runId
  Txn.getOr updated (.runtimeError "assertion failed")

/-- `record_tool_review`: the first review of a receipt stands. -/
def recordToolReview (lease : Option ExecutionLease) (operationId runId : String)
    (review : ToolReview) : StoreTxn ToolReceipt := do
  Txn.require (review.decision ∈ ["allow", "ask", "deny"])
    (.valueError "tool review decision is invalid")
  Txn.require (review.source ∈ ["rule", "llm", "fallback", "user", "run_grant"])
    (.valueError "tool review source is invalid")
  runWriteTransaction runId lease do
    let row ← findToolReceiptInRun operationId runId
    let record ← Txn.getOr row (.keyError s!"unknown tool receipt: {operationId}")
    match record.review with
    | some recorded => do
      Txn.require (recorded = review) (.toolReceiptState
        s!"tool receipt {operationId} already has a different review decision")
      pure record
    | none => reviewToolReceipt operationId runId review

/-- Whether the job that holds the lease was asked to cancel. -/
def attemptCancelRequested (lease : Option ExecutionLease) (runId : String) : StoreTxn Bool :=
  match lease with
  | none => pure false
  | some held => do
    let job? ← Txn.read fun db ↦ db.jobs.rows.find? fun job ↦
      job.leasedTo { held with runId := runId }
    let job ← Txn.getOr job? (.leaseFence "tool execution lease is stale")
    pure job.cancelRequestedAt.isSome

def cancelBeforeToolStart (record : ToolReceipt) (operationId runId : String) (now : Time) :
    StoreTxn ToolReceipt := do
  Txn.when (record.toolName = "task")
    (settleTaskDescendantsUncommitted runId operationId .canceled now)
  updateToolReceipts (fun r ↦ r.operationId = operationId && r.runId = runId && r.unstarted)
    fun r ↦ { r with status := .canceled, errorType := some "RunCanceledBeforeToolStart",
                     completedAt := some now, updatedAt := now }
  projectedToolReceipt operationId

def startToolReceipt (operationId runId : String) (executionAttemptId : AttemptId) (now : Time) :
    StoreTxn ToolReceipt := do
  updateToolReceipts (fun r ↦ r.operationId = operationId && r.runId = runId)
    fun r ↦ { r with status := .running, executionAttemptId := executionAttemptId,
                     attemptCount := r.attemptCount + 1,
                     startedAt := some (r.startedAt.getD now), updatedAt := now }
  projectedToolReceipt operationId

/-- `completed`, `failed`, `rejected` and `canceled` receipts are final. -/
def ReceiptStatus.settled : ReceiptStatus → Bool
  | completed | failed | rejected | canceled => true
  | _ => false

/-- `begin_tool_receipt`: start a prepared or paused operation under the
current attempt. Settled operations are returned as they are; an operation
whose outcome is unresolved does not start. -/
def beginToolReceipt (lease : Option ExecutionLease) (operationId runId : String)
    (executionAttemptId : AttemptId) : StoreTxn ToolReceipt :=
  runWriteTransaction runId lease do
    let row ← findToolReceiptInRun operationId runId
    let record ← Txn.getOr row (.toolReceiptState s!"tool receipt {operationId} is missing")
    if record.status.settled then pure record
    else do
      Txn.require (record.unstarted = true) (.toolOutcomeUnknown
        s!"tool operation {operationId} has unresolved outcome {record.status.text}")
      let now ← utcNow
      let cancelRequested ← attemptCancelRequested lease runId
      if cancelRequested then cancelBeforeToolStart record operationId runId now
      else startToolReceipt operationId runId executionAttemptId now

/-- The statuses a receipt may be settled from. -/
def settleable (status : ReceiptStatus) (r : ToolReceipt) : Bool :=
  r.status = .running ||
    ((status = .rejected || status = .failed) && r.status = .prepared) ||
    (status = .canceled && r.unstarted)

structure Settlement where
  status : ReceiptStatus
  resultJson : Option Json := none
  resultHash : Option String := none
  errorType : Option String := none

/-- `settle_tool_receipt` -/
def settleToolReceipt (lease : Option ExecutionLease) (operationId runId : String)
    (settlement : Settlement) : StoreTxn ToolReceipt := do
  Txn.require (settlement.status ≠ .prepared ∧ settlement.status ≠ .running)
    (.valueError s!"invalid tool receipt status: {settlement.status.text}")
  runWriteTransaction runId lease do
    let now ← utcNow
    let target (r : ToolReceipt) : Bool :=
      r.operationId = operationId && r.runId = runId && settleable settlement.status r
    let rowcount ← updateToolReceiptsCounted target fun r ↦
      { r with status := settlement.status, resultJson := settlement.resultJson,
               resultHash := settlement.resultHash, errorType := settlement.errorType,
               updatedAt := now,
               completedAt := if settlement.status = .paused then r.completedAt else some now }
    Txn.require (rowcount = 1)
      (.toolReceiptState s!"tool operation {operationId} is not running")
    projectedToolReceipt operationId

/-- `settle_task_receipt`: settle a task and everything below it. -/
def settleTaskReceipt (lease : Option ExecutionLease) (operationId runId : String)
    (settlement : Settlement) : StoreTxn ToolReceipt := do
  Txn.require (settlement.status ∈ [ReceiptStatus.completed, .failed, .canceled])
    (.valueError s!"invalid task receipt status: {settlement.status.text}")
  runWriteTransaction runId lease do
    let parent ← findToolReceiptInRun operationId runId
    Txn.require (parent.any (fun r ↦ r.toolName = "task") = true)
      (.toolReceiptState s!"task receipt {operationId} is missing")
    let now ← utcNow
    settleTaskDescendantsUncommitted runId operationId settlement.status now
    let target (r : ToolReceipt) : Bool :=
      r.operationId = operationId && r.runId = runId &&
        (r.status = .running || (settlement.status = .canceled && r.unstarted))
    let rowcount ← updateToolReceiptsCounted target fun r ↦
      { r with status := settlement.status, resultJson := settlement.resultJson,
               resultHash := settlement.resultHash, errorType := settlement.errorType,
               updatedAt := now, completedAt := some now }
    Txn.require (rowcount = 1)
      (.toolReceiptState s!"task operation {operationId} is not running")
    projectedToolReceipt operationId

inductive ReconcileDecision where
  | confirmedCompleted | retryNotExecuted | abort
  deriving DecidableEq, Repr

namespace ReconcileDecision

def text : ReconcileDecision → String
  | confirmedCompleted => "confirmed_completed"
  | retryNotExecuted => "retry_not_executed"
  | abort => "abort"

def status : ReconcileDecision → ReceiptStatus
  | confirmedCompleted => .completed
  | retryNotExecuted => .prepared
  | abort => .failed

end ReconcileDecision

/-- `reconcile_tool_receipt` -/
def reconcileToolReceipt (lease : Option ExecutionLease) (operationId runId : String)
    (decision : ReconcileDecision) (resultJson : Option Json) (resultHash : Option String) :
    StoreTxn ToolReceipt :=
  runWriteTransaction runId lease do
    let now ← utcNow
    let retry := decision = .retryNotExecuted
    let target (r : ToolReceipt) : Bool :=
      r.operationId = operationId && r.runId = runId && r.status = .outcomeUnknown
    let rowcount ← updateToolReceiptsCounted target fun r ↦
      { r with status := decision.status,
               resultJson := if retry then none else resultJson,
               resultHash := if retry then none else resultHash,
               errorType := if decision = .abort then some "ReconciledByUser" else none,
               updatedAt := now,
               completedAt := if retry then none else some now }
    Txn.require (rowcount = 1)
      (.toolReceiptState s!"tool operation {operationId} is not awaiting reconciliation")
    projectedToolReceipt operationId

end ShejaneRuntime.Store
