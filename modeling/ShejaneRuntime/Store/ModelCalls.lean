import ShejaneRuntime.Store.ToolReceipts

/-!
# Model calls, sandboxes and the other writes of an attempt

What an execution attempt records besides its tool receipts: the model
calls it reserves and settles, the sandboxes it starts, the graph head of
its run, its assistant draft, and the steering instructions it takes up.
Sandbox records are written without a lease, since a reaper settles them
after the attempt is gone.
-/

namespace ShejaneRuntime.Store

open Lib

/-! ## Model calls -/

def modelCallPurposes : List String :=
  ["agent", "approval_review", "clarification_review", "completion_review", "title_generation",
    "summarization"]

structure ReserveModelCall where
  runId : String
  executionAttemptId : AttemptId
  model : String
  maxCalls : ℤ
  purpose : String := "agent"
  parentToolOperationId : Option String := none
  logicalCallId : Option String := none
  retryAttempt : ℕ := 0

def requireModelCallParent (request : ReserveModelCall) : StoreTxn Unit :=
  match request.parentToolOperationId with
  | none => pure ()
  | some operationId => requireToolReceiptInRunUncommitted operationId request.runId

/-- `reserve_model_call`: take the next slot within the budget of a purpose. -/
def reserveModelCall (lease : Option ExecutionLease) (request : ReserveModelCall) :
    StoreTxn ModelCall := do
  Txn.require (request.purpose ∈ modelCallPurposes) (.valueError "model call purpose is invalid")
  runWriteTransaction request.runId lease do
    requireModelCallParent request
    let calls ← Txn.read fun db ↦ db.ledger.modelCalls.select fun c ↦ c.runId = request.runId
    let purposeIndex : ℕ := (calls.countP fun c ↦ c.purpose = request.purpose) + 1
    Txn.require ((purposeIndex : ℤ) ≤ max 1 request.maxCalls) (.modelCallBudgetExceeded
      s!"{request.purpose} model call budget exhausted for run {request.runId}: {request.maxCalls}")
    let callId ← newId "model_call"
    let createdAt ← utcNow
    let call : ModelCall :=
      { id := callId, runId := request.runId, executionAttemptId := request.executionAttemptId,
        callIndex := calls.length + 1, model := request.model, purpose := request.purpose,
        parentToolOperationId := request.parentToolOperationId,
        logicalCallId := textOr request.logicalCallId callId,
        retryAttempt := request.retryAttempt, status := .reserved, outputStarted := false,
        inputTokens := none, outputTokens := none, errorCode := none, createdAt := createdAt, completedAt := none }
    insertModelCall call
    pure call

/-- `status IN ('reserved', 'streaming')` -/
def ModelCall.open (c : ModelCall) : Bool := c.status = .reserved || c.status = .streaming

/-- Change an open call of a run, which must exist. -/
def updateOpenModelCall (runId callId message : String) (f : ModelCall → ModelCall)
    (hf : ∀ c, (f c).id = c.id := by intro; rfl) : StoreTxn Unit := do
  let rowcount ← Txn.read fun db ↦
    db.ledger.modelCalls.rowcount fun c ↦ c.id = callId && c.runId = runId && c.open
  updateModelCalls (fun c ↦ c.id = callId && c.runId = runId && c.open) f hf
  Txn.require (rowcount = 1) (.runtimeError message)

/-- `mark_model_call_output` -/
def markModelCallOutput (lease : Option ExecutionLease) (runId callId : String) : StoreTxn Unit :=
  runWriteTransaction runId lease <|
    updateOpenModelCall runId callId s!"model call {callId} cannot record output" fun c ↦
      { c with status := .streaming, outputStarted := true }

/-- `settle_model_call` -/
def settleModelCall (lease : Option ExecutionLease) (runId callId : String)
    (inputTokens outputTokens : Option ℕ) : StoreTxn Unit := do
  let now ← utcNow
  let status := if inputTokens.isSome || outputTokens.isSome then ModelCallStatus.completed
    else .completedUnmetered
  runWriteTransaction runId lease <|
    updateOpenModelCall runId callId s!"model call {callId} cannot be settled twice" fun c ↦
      { c with status := status, inputTokens := inputTokens, outputTokens := outputTokens,
               completedAt := some now }

/-- `fail_model_call` -/
def failModelCall (lease : Option ExecutionLease) (runId callId : String) (outcomeUnknown : Bool)
    (errorCode : Option String) (inputTokens outputTokens : Option ℕ) : StoreTxn Unit :=
  runWriteTransaction runId lease do
    let now ← utcNow
    updateOpenModelCall runId callId s!"model call {callId} cannot be failed" fun c ↦
      { c with status := if outcomeUnknown then .outcomeUnknown else .failed,
               errorCode := errorCode, inputTokens := inputTokens, outputTokens := outputTokens,
               completedAt := some now }

/-! ## Sandbox records -/

/-- `record_sandbox_process` -/
def recordSandboxProcess (runId : String) (attempt : AttemptId) (pid : ℕ)
    (processStartedAt settingsPath : String) : StoreTxn String := do
  let now ← utcNow
  let id ← newId "sbx"
  insertSandboxProcess
    ⟨id, runId, attempt, pid, processStartedAt, settingsPath, .running, now, now⟩
  pure id

/-- `forget_sandbox_process` -/
def forgetSandboxProcess (id : String) : StoreTxn Unit :=
  Txn.write fun db ↦ { db with ledger := { db.ledger with
    sandboxProcesses := db.ledger.sandboxProcesses.delete fun s ↦ s.id = id } }

/-- `settle_sandbox_process` -/
def settleSandboxProcess (id : String) (status : SandboxStatus) : StoreTxn Unit := do
  Txn.require (status ∈ [SandboxStatus.reaped, .gone, .stale])
    (.valueError "sandbox process cannot settle as a live status")
  let now ← utcNow
  updateSandboxProcesses (fun s ↦ s.id = id) fun s ↦ { s with status := status, updatedAt := now }

/-! ## The graph head -/

/-- `bind_graph_definition` -/
def bindGraphDefinition (lease : Option ExecutionLease) (runId definitionId : String) :
    StoreTxn Unit :=
  runWriteTransaction runId lease do
    let run? ← Txn.read fun db ↦ db.runs.find? runId
    let run ← Txn.getOr run? (.keyError s!"unknown run: {runId}")
    Txn.require (run.graphDefinitionId.all (fun d ↦ d = definitionId) = true)
      (.graphDefinitionMismatch
        s!"run {runId} checkpoint is incompatible with the current agent definition")
    Txn.when (run.graphDefinitionId.isNone = true) do
      let now ← utcNow
      updateRuns (fun r ↦ r.id = runId) fun r ↦
        { r with graphDefinitionId := some definitionId, updatedAt := now }

/-- `advance_graph_checkpoint`: move the head of the run, compare and swap. -/
def advanceGraphCheckpoint (lease : Option ExecutionLease) (runId graphThreadId : String)
    (expectedCheckpointId : Option String) (checkpointId : String) : StoreTxn Unit :=
  runWriteTransaction runId lease do
    let run? ← Txn.read fun db ↦ db.runs.find? runId
    let run ← Txn.getOr run? (.keyError s!"unknown run: {runId}")
    Txn.require (run.graphThreadId = graphThreadId)
      (.graphHeadConflict s!"run {runId} graph branch head changed")
    Txn.when (run.graphCheckpointId ≠ some checkpointId) do
      Txn.require (run.graphCheckpointId = expectedCheckpointId)
        (.graphHeadConflict s!"run {runId} graph branch head changed")
      let now ← utcNow
      updateRuns (fun r ↦ r.id = runId) fun r ↦
        { r with graphCheckpointId := some checkpointId, updatedAt := now }

/-! ## Drafts and steering -/

def upsertDraft (draft : AssistantDraft) : StoreTxn Unit :=
  Txn.write fun db ↦ { db with content := { db.content with
    drafts := (db.content.drafts.insert? draft).getD
      (db.content.drafts.update (fun d ↦ d.runId = draft.runId) (fun d ↦
        { draft with runId := d.runId })) } }

/-- `update_assistant_draft`: a repeated round leaves the draft alone. -/
def updateAssistantDraft (lease : Option ExecutionLease) (runId messageKey content : String)
    (toolCalls : Json) : StoreTxn AssistantDraft := do
  let now ← utcNow
  runWriteTransaction runId lease do
    let existing ← Txn.read fun db ↦ db.content.drafts.find? runId
    match existing.filter fun d ↦ d.messageKey = messageKey with
    | some draft => pure draft
    | none => do
      let draft : AssistantDraft :=
        ⟨runId, (existing.map AssistantDraft.revision).getD 0 + 1, messageKey, content, toolCalls,
          (existing.map AssistantDraft.createdAt).getD now, now⟩
      requireRunRow runId
      upsertDraft draft
      pure draft

/-- What may not differ between two commits of one model round. -/
def sameRound (committed payload : Json) : Bool :=
  committed.get? "text" = payload.get? "text" &&
    committed.get? "reasoning_summary" = payload.get? "reasoning_summary"

/-- The committed event of a model round. -/
def committedRound (db : Database) (runId roundId : String) : Option Event :=
  db.journal.events.rows.find? fun e ↦ e.runId = runId &&
    e.eventType = "assistant.round.committed" && e.payloadJson.get? "round_id" = some (.str roundId)

/-- `commit_assistant_round`: one event for each model round. -/
def commitAssistantRound (lease : Option ExecutionLease) (runId : String) (payload : Json) :
    StoreTxn (Event × Bool) := do
  let roundId := Json.textOrEmpty (payload.get? "round_id")
  Txn.require (roundId ≠ "") (.valueError "assistant round requires round_id")
  runWriteTransaction runId lease do
    let existing ← Txn.read fun db ↦ committedRound db runId roundId
    match existing with
    | some event => do
      Txn.require (event.payloadJson = encodePayload payload ∨
          sameRound (jsonPayload (some event.payloadJson)) payload = true)
        (.runResultConflict s!"assistant round {roundId} was already committed differently")
      pure (event, false)
    | none => do
      let committedAt ← utcNow
      let (event, _) ← appendEventUncommitted runId "assistant.round.committed"
        (encodePayload payload) committedAt
      touchThreadForRunEventUncommitted runId "assistant.round.committed" event.seq committedAt
      pure (event, true)

/-- `claim_pending_steering` -/
def claimPendingSteering (lease : Option ExecutionLease) (runId : String) :
    StoreTxn (List Steering) :=
  runWriteTransaction runId lease do
    let rows ← Txn.read fun db ↦ orderByTimeId Steering.createdAt Steering.id
      (db.content.steering.select fun s ↦ s.runId = runId && s.status = .pending)
    if rows = [] then pure []
    else do
      let injectedAt ← utcNow
      Txn.write fun db ↦ { db with content := { db.content with
        steering := db.content.steering.update
          (fun s ↦ s.status = .pending && rows.any fun r ↦ r.id = s.id)
          fun s ↦ { s with status := .injected, injectedAt := some injectedAt } } }
      pure (rows.map fun r ↦ { r with status := .injected, injectedAt := some injectedAt })

end ShejaneRuntime.Store
