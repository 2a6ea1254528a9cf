import Mathlib.Data.List.Dedup
import ShejaneRuntime.Store.ToolReceipts

/-!
# Command receipts, cancellation and steering

Every accepted command leaves an immutable receipt; a repetition of the
command returns it. Cancelling a run cancels its children first: a pending
job is canceled with its run, a waiting run is canceled at once, and a
leased job is only asked to stop.
-/

namespace ShejaneRuntime.Store

open Lib

/-! ## Receipts -/

def findCommand (principalId commandId : String) : StoreTxn (Option Command) :=
  Txn.read fun db ↦ db.commands.find? (principalId, commandId)

def differentContent (commandId : String) : StoreError :=
  .commandConflict s!"command {commandId} was already accepted with different content"

/-- `_accepted_command_receipt_uncommitted` -/
def acceptedCommandReceiptUncommitted (principalId commandId commandType : String)
    (payloadJson : Json) : StoreTxn (Option Json) := do
  let existing ← findCommand principalId commandId
  match existing with
  | none => pure none
  | some command => do
    Txn.require (command.commandType = commandType ∧ command.payloadJson = payloadJson)
      (differentContent commandId)
    pure (some command.responseJson)

/-- `_record_command_receipt_uncommitted` -/
def recordCommandReceiptUncommitted (principalId commandId commandType : String)
    (payloadJson receipt : Json) (createdAt : Time) (runId : Option String) : StoreTxn Unit :=
  insertCommand ⟨principalId, commandId, commandType, "", payloadJson, encodePayload receipt,
    runId, createdAt⟩

/-- The frame the handlers of all commands but the run commands share: a
repetition returns the stored receipt and does nothing else. -/
def acceptCommand (principalId commandId commandType : String) (payloadJson : Json)
    (handle : StoreTxn Json) : StoreTxn (Json × Bool) := do
  let existing ← acceptedCommandReceiptUncommitted principalId commandId commandType payloadJson
  match existing with
  | some receipt => pure (receipt, false)
  | none => do
    let receipt ← handle
    pure (receipt, true)

def findRun (runId : String) : StoreTxn (Option Run) :=
  Txn.read fun db ↦ db.runs.find? runId

/-- `WHERE principal_id = ? AND id = ?` -/
def findOwnedRun (principalId runId : String) : StoreTxn (Option Run) :=
  Txn.read fun db ↦ (db.runs.find? runId).filter fun r ↦ r.principalId = principalId

/-- A run as the start command that created it sees it. -/
structure AcceptedRun where
  run : Run
  commandId : String
  clientMessageId : String

/-- `_accepted_run_for_command` -/
def acceptedRunForCommand (principalId commandId : String) (payloadJson : Json) :
    StoreTxn (Option AcceptedRun) := do
  let existing ← findCommand principalId commandId
  match existing with
  | none => pure none
  | some command => do
    Txn.require (command.payloadJson = payloadJson) (differentContent commandId)
    let run? ← Txn.read fun db ↦ (command.runId.bind db.runs.find?).filter fun r ↦
      r.principalId = principalId
    let run ← Txn.getOr run? (.runtimeError s!"command {commandId} references a missing run")
    pure (some ⟨run, command.id, command.clientMessageId⟩)

/-! ## Cancelling runs -/

def cancelDecision : Json :=
  encodePayload (.obj [("type", .str "cancel"), ("reason", .str "run_canceled")])

/-- Close every wait of a run that still expects an answer. -/
def cancelPendingWaits (runId : String) (requestedAt : Time) : StoreTxn Unit := do
  updatePermissions (fun p ↦ p.runId = runId && p.status = .pending) fun p ↦
    { p with status := .canceled, decisionJson := some cancelDecision,
             resolvedAt := some requestedAt }
  updateQuestions (fun q ↦ q.runId = runId && q.status = .pending) fun q ↦
    { q with status := .canceled }
  updateWaitCandidates (fun c ↦ c.runId = runId && c.status = .pending) fun c ↦
    { c with status := .resolved, decisionJson := some cancelDecision,
             resolvedAt := some requestedAt }
  updatePlanApprovals (fun p ↦ p.runId = runId && p.status = .pending) fun p ↦
    { p with status := .canceled, resolvedAt := some requestedAt }

def finishRunCancelUncommitted (runId : String) (requestedAt : Time) : StoreTxn Unit := do
  cancelPendingWaits runId requestedAt
  cancelUnstartedToolReceiptsUncommitted runId requestedAt "RunCanceled"
  updateRuns (fun r ↦ r.id = runId) fun r ↦
    { r with status := .canceled, updatedAt := requestedAt, completedAt := some requestedAt }
  let (event, _) ← appendEventUncommitted runId "run.canceled" (.obj []) requestedAt
  updateThreadProjectionUncommitted runId .canceled "run.canceled" (.obj []) event.seq requestedAt

inductive CancelState where
  | waiting | leased | pending
  deriving DecidableEq, Repr

/-- Cancel a run that has no job a worker could be running. -/
def cancelWaitingRun (runId : String) : StoreTxn (Option CancelState) := do
  let run? ← findRun runId
  if run?.any fun r ↦ r.status.waiting then do
    let requestedAt ← utcNow
    finishRunCancelUncommitted runId requestedAt
    pure (some .waiting)
  else pure none

/-- Ask the worker of a leased job to stop, or cancel a pending job with its run. -/
def cancelActiveJob (runId : String) (job : Job) : StoreTxn (Option CancelState) := do
  let requestedAt ← utcNow
  if job.status = .leased then do
    updateJobs (fun j ↦ j.id = job.id && j.status = .leased) fun j ↦
      { j with cancelRequestedAt := some requestedAt, updatedAt := requestedAt }
    pure (some .leased)
  else do
    updateJobs (fun j ↦ j.id = job.id && j.status = .pending) fun j ↦
      { j with status := .canceled, cancelRequestedAt := some requestedAt,
               updatedAt := requestedAt, finishedAt := some requestedAt }
    finishRunCancelUncommitted runId requestedAt
    pure (some .pending)

def requestRunCancelUncommitted (runId : String) : StoreTxn (Option CancelState) := do
  let job? ← Txn.read fun db ↦ db.jobs.rows.find? fun j ↦
    j.runId = runId && j.active && j.quarantinedAt.isNone
  match job? with
  | none => cancelWaitingRun runId
  | some job => cancelActiveJob runId job

/-- The runs below some runs, deepest first, down to a number of levels. -/
def runTree (runs : List Run) : ℕ → List String → List String
  | 0, _ => []
  | depth + 1, level =>
    let children := runs.filter fun r ↦
      r.runKind = .child && r.parentRunId.any fun p ↦ decide (p ∈ level)
    runTree runs depth (children.map Run.id) ++ level.insertionSort (· ≤ ·)

/-- The run and its descendants. A chain of parents is no longer than the
number of runs, so that many levels reach them all. -/
def cancelTree (db : Database) (runId : String) : List String :=
  runTree db.runs.rows (db.runs.rows.length + 1)
    ((db.runs.rows.filter fun r ↦ r.id = runId).map Run.id)

def cancelRunInTree (runId : String) : StoreTxn (Option (String × CancelState)) := do
  let state ← requestRunCancelUncommitted runId
  pure (state.map fun s ↦ (runId, s))

def requestRunCancelTreeUncommitted (runId : String) : StoreTxn (List (String × CancelState)) := do
  let targets ← Txn.read fun db ↦ cancelTree db runId
  let states ← targets.mapM cancelRunInTree
  pure (states.filterMap fun s ↦ s)

/-- `request_run_cancel_tree` -/
def requestRunCancelTree (runId : String) : StoreTxn (List (String × CancelState)) :=
  requestRunCancelTreeUncommitted runId

def cancelPayload (runId : String) : Json :=
  encodePayload (.obj [("type", .str "run.cancel"), ("run_id", .str runId)])

/-- `request_run_cancel_command` -/
def requestRunCancelCommand (principalId commandId runId : String) : StoreTxn (Json × Bool) :=
  acceptCommand principalId commandId "run.cancel" (cancelPayload runId) do
    let run ← findOwnedRun principalId runId
    Txn.require (run.isSome = true) (.keyError s!"unknown run: {runId}")
    let states ← requestRunCancelTreeUncommitted runId
    let receipt := Json.obj
      [("type", .str "run.cancel"), ("command_id", .str commandId), ("run_id", .str runId),
       ("canceled", .bool (states.any fun s ↦ s.1 = runId))]
    let createdAt ← utcNow
    recordCommandReceiptUncommitted principalId commandId "run.cancel" (cancelPayload runId) receipt
      createdAt (some runId)
    pure receipt

/-! ## Steering -/

def injectPayload (runId content : String) : Json :=
  encodePayload (.obj
    [("type", .str "run.inject"), ("run_id", .str runId), ("content", .str content)])

/-- `request_run_inject_command` -/
def requestRunInjectCommand (principalId commandId runId content : String) :
    StoreTxn (Json × Bool) :=
  acceptCommand principalId commandId "run.inject" (injectPayload runId content) do
    let run? ← findOwnedRun principalId runId
    let run ← Txn.getOr run? (.keyError s!"unknown run: {runId}")
    Txn.require (run.status.terminal = false ∧ run.status ≠ .cleanupRequired)
      (.runAdmission "run_not_active" "run is not active")
    let now ← utcNow
    let instructionId ← newId "steer"
    insertSteering ⟨instructionId, runId, content, .pending, now, none⟩
    let receipt := Json.obj
      [("command_id", .str commandId), ("run_id", .str runId),
       ("instruction_id", .str instructionId), ("queued", .bool true)]
    recordCommandReceiptUncommitted principalId commandId "run.inject" (injectPayload runId content)
      receipt now (some runId)
    pure receipt

end ShejaneRuntime.Store
