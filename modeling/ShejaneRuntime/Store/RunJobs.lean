import ShejaneRuntime.Store.RunControl
import ShejaneRuntime.Store.Workspaces

/-!
# The job queue, leases and quarantine

A job is pending, then leased to one worker under a generation, then
finished. A lease that runs out is not handed on: the attempt is
quarantined, its uncertain ledger rows are settled, and the run waits for
the owner of the attempt to confirm that its external work has stopped.
-/

namespace ShejaneRuntime.Store

open Lib

/-! ## Job records -/

/-- `_run_job_input` -/
def runJobInput (run : Run) : Json :=
  .obj [("principal_id", .str run.principalId),
        ("goal", .str run.goal),
        ("user_input", .str (textOr run.userInput run.goal)),
        ("workspace_path", optText run.workspacePath),
        ("mode", .str run.mode),
        ("history", run.historyJson),
        ("settings", run.settingsJson),
        ("metadata", run.metadataJson),
        ("run_kind", .str run.runKind.text),
        ("root_run_id", .str (textOr run.rootRunId run.id)),
        ("agent_definition_id", .str (textOr (some run.agentDefinitionId) "shejane.default")),
        ("agent_definition_version", .str (textOr (some run.agentDefinitionVersion) "1")),
        ("collaboration_depth", .num run.collaborationDepth),
        ("collaboration_policy", run.collaborationPolicyJson)]

/-- `_new_run_job_record` -/
def newRunJobRecord (runId : String) (kind : JobKind) (input : Json) (resume : Option Json) :
    StoreTxn Job := do
  let createdAt ← utcNow
  let id ← newId "job"
  pure { id := id, runId := runId, kind := kind, status := .pending,
         inputJson := encodePayload input, resumeJson := resume.map encodePayload,
         leaseOwner := none, leaseGeneration := 0, leaseExpiresAt := none, attempt := 0,
         cancelRequestedAt := none, quarantinedAt := none, quarantineReason := none,
         createdAt := createdAt, updatedAt := createdAt, finishedAt := none }

/-- The job a run has that is pending or leased, quarantined or not. -/
def findActiveJob (runId : String) : StoreTxn (Option Job) :=
  Txn.read fun db ↦ db.jobs.rows.find? fun j ↦ j.runId = runId && j.active

def createRunJob (run : Run) (kind : JobKind) (resume : Option Json) : StoreTxn Job := do
  let job ← newRunJobRecord run.id kind (runJobInput run) resume
  insertRunJob job
  pure job

/-- `enqueue_run_job`: the run may have at most one active job, and an
active job is returned as it is. The status of the run is not looked at. -/
def enqueueRunJob (runId : String) (kind : JobKind) (resume : Option Json) :
    StoreTxn (Option Job) := do
  let run? ← findRun runId
  match run? with
  | none => pure none
  | some run => do
    let pathError ← workspacePathError run.workspacePath
    refuseWorkspace pathError none
    let ownerError ← workspaceOwnerError run.principalId run.workspacePath
    refuseWorkspace ownerError none
    let active ← findActiveJob runId
    match active with
    | some job => pure (some job)
    | none => do
      let job ← createRunJob run kind resume
      pure (some job)

/-! ## Losing an attempt -/

/-- Close what an attempt may have left open in the ledger. -/
def settleLostLedgers (runId : String) (attempt : AttemptId) (errorType : String) (now : Time) :
    StoreTxn Unit := do
  updateModelCalls
    (fun c ↦ c.runId = runId && c.executionAttemptId = attempt &&
      (c.status = .reserved || c.status = .streaming))
    fun c ↦ { c with status := .outcomeUnknown, completedAt := some now }
  markRunningToolReceiptsOutcomeUnknownUncommitted runId attempt errorType now

def orphanSandboxProcesses (runId : String) (attempt : AttemptId) (now : Time) : StoreTxn Unit :=
  updateSandboxProcesses
    (fun s ↦ s.runId = runId && s.executionAttemptId = attempt && s.status = .running)
    fun s ↦ { s with status := .orphaned, updatedAt := now }

structure CleanupReport where
  completed : Bool
  json : Json

/-- `_sandbox_cleanup_report_uncommitted`: an attempt is known to have
stopped only when it recorded sandboxes and all of them are gone. -/
def sandboxCleanupReport (processes : List SandboxProcess) : CleanupReport :=
  let stopped := processes.countP fun s ↦ s.status = .reaped || s.status = .gone
  let total := processes.length
  if total = 0 then ⟨false, .obj [("status", .str "unconfirmed")]⟩
  else if stopped = total then
    ⟨true, .obj [("status", .str "completed"), ("sandboxes_stopped", .num stopped)]⟩
  else
    ⟨false, .obj [("status", .str "unconfirmed"), ("sandboxes_stopped", .num stopped),
      ("sandboxes_unaccounted", .num (total - stopped))]⟩

def sandboxCleanupReportUncommitted (runId : String) (attempt : AttemptId) :
    StoreTxn CleanupReport :=
  Txn.read fun db ↦ sandboxCleanupReport <| db.ledger.sandboxProcesses.select fun s ↦
    s.runId = runId && s.executionAttemptId = attempt

def leaseExpiryError (report : CleanupReport) : String :=
  if report.completed then
    "The execution lease expired. Every sandboxed command this attempt started has " ++
    "been stopped, but the run is quarantined and cannot be retried automatically."
  else
    "The execution lease expired before the Runtime could prove that external work " ++
    "stopped. This run is quarantined and cannot be retried automatically."

def leaseExpiredPayload (report : CleanupReport) : Json :=
  .obj [("error", .str (leaseExpiryError report)),
        ("type", .str "ExecutionLeaseExpiredError"),
        ("retryable", .bool false),
        ("category", .str "execution_lease_expired"),
        ("cleanup", report.json)]

/-- Record a lifecycle event of a run and show it in its thread. -/
def publishRunStatus (runId : String) (status : RunStatus) (eventType : String) (payload : Json)
    (at' : Time) : StoreTxn Event := do
  let (event, _) ← appendEventUncommitted runId eventType (encodePayload payload) at'
  updateThreadProjectionUncommitted runId status eventType payload event.seq at'
  pure event

/-- Move a run to `cleanup_required`. -/
def requireRunCleanup (runId : String) (now : Time) : StoreTxn Unit :=
  updateRuns (fun r ↦ r.id = runId) fun r ↦
    { r with status := .cleanupRequired, updatedAt := now, completedAt := none }

/-- The job status that goes with the status of a settled run. -/
def settledJobStatus : RunStatus → Option JobStatus
  | .completed => some .completed
  | .failed => some .dead
  | .canceled => some .canceled
  | .waitingPermission => some .completed
  | .waitingInput => some .completed
  | _ => none

/-- Why receipts that never started are canceled with their run. -/
def parentRunError : RunStatus → String
  | .completed => "ParentRunCompleted"
  | .failed => "ParentRunFailed"
  | _ => "RunCanceled"

/-- The run of an expired job has already settled: the job follows it. -/
def settleExpiredJob (job : Job) (runStatus : RunStatus) (status : JobStatus) (now : Time) :
    StoreTxn Unit := do
  Txn.when (runStatus.terminal = true)
    (cancelUnstartedToolReceiptsUncommitted job.runId now (parentRunError runStatus))
  updateJobs (fun j ↦ j.id = job.id && j.status = .leased) fun j ↦
    { j with status := status, updatedAt := now, finishedAt := some now, leaseOwner := none,
             leaseExpiresAt := none }

/-- The attempt of an expired job is lost: quarantine it. -/
def quarantineExpiredJob (job : Job) (now : Time) : StoreTxn Unit := do
  cancelUnstartedToolReceiptsUncommitted job.runId now "ParentRunCleanupRequired"
  updateJobs (fun j ↦ j.id = job.id && j.status = .leased) fun j ↦
    { j with quarantinedAt := some now, quarantineReason := some "execution_lease_expired",
             leaseExpiresAt := none, updatedAt := now }
  requireRunCleanup job.runId now
  let report ← sandboxCleanupReportUncommitted job.runId job.executionAttemptId
  let _ ← publishRunStatus job.runId .cleanupRequired "run.cleanup_required"
    (leaseExpiredPayload report) now
  pure ()

def requeueExpiredJob (now : Time) (row : Job × RunStatus) : StoreTxn Unit := do
  settleLostLedgers row.1.runId row.1.executionAttemptId "execution_lease_expired" now
  orphanSandboxProcesses row.1.runId row.1.executionAttemptId now
  match settledJobStatus row.2 with
  | some status => settleExpiredJob row.1 row.2 status now
  | none => quarantineExpiredJob row.1 now

/-- The leased jobs whose lease has run out, with the status of their run. -/
def expiredJobs (db : Database) (now : Time) : List (Job × RunStatus) :=
  let rows := db.jobs.select fun j ↦ j.status = .leased && j.expiredAt now
  let ordered := orderByTimeId (fun j ↦ j.leaseExpiresAt.getD 0) Job.id rows
  ordered.filterMap fun j ↦ (db.runs.find? j.runId).map fun r ↦ (j, r.status)

/-- `_requeue_expired_jobs_uncommitted` -/
def requeueExpiredJobsUncommitted (now : Time) : StoreTxn Unit := do
  let expired ← Txn.read fun db ↦ expiredJobs db now
  forM expired (requeueExpiredJob now)

/-! ## Claiming, renewing and finishing -/

/-- The status of the runs a child waits for. -/
def dependencyStatuses (db : Database) (runId : String) : List RunStatus :=
  (db.collaboration.dependencies.select fun d ↦ d.childRunId = runId).filterMap fun d ↦
    (db.runs.find? d.dependencyRunId).map Run.status

def pendingJobs (db : Database) : List Job :=
  orderByTimeId Job.createdAt Job.id (db.jobs.select fun j ↦ j.status = .pending)

/-- Pending runs one of whose dependencies can no longer complete. -/
def blockedRuns (db : Database) : List String :=
  let blocked (j : Job) : Bool := (dependencyStatuses db j.runId).any fun s ↦
    s = .failed || s = .canceled || s = .cleanupRequired
  (((pendingJobs db).filter blocked).map Job.runId).dedup

/-- The oldest pending job whose run waits for no dependency. -/
def nextPendingJob (db : Database) : Option Job :=
  (pendingJobs db).find? fun j ↦
    match db.runs.find? j.runId with
    | none => false
    | some run => run.runKind ≠ .child || (dependencyStatuses db j.runId).all fun s ↦ s = .completed

/-- Lease a pending job to a worker under the next generation. -/
def leasePendingJob (job : Job) (workerId : String) (leaseSeconds now : Time) :
    StoreTxn (Option Job) := do
  let leasedAt ← utcNow
  updateJobs (fun j ↦ j.id = job.id && j.status = .pending) fun j ↦
    { j with status := .leased, leaseOwner := some workerId,
             leaseGeneration := j.leaseGeneration + 1,
             leaseExpiresAt := some (leasedAt + leaseSeconds), attempt := j.attempt + 1,
             updatedAt := now }
  updateRuns (fun r ↦ r.id = job.runId) fun r ↦
    { r with status := .running, updatedAt := now, completedAt := none }
  Txn.read fun db ↦ db.jobs.find? job.id

/-- `claim_run_job` -/
def claimRunJob (workerId : String) (leaseSeconds : Time) : StoreTxn (Option Job) := do
  let now ← utcNow
  requeueExpiredJobsUncommitted now
  let blocked ← Txn.read blockedRuns
  forM blocked fun runId ↦ do
    let _ ← requestRunCancelUncommitted runId
    pure ()
  let job? ← Txn.read nextPendingJob
  match job? with
  | none => pure none
  | some job => leasePendingJob job workerId leaseSeconds now

/-- The lease of a job names this owner and generation. -/
def Job.ownedBy (job : Job) (jobId leaseOwner : String) (leaseGeneration : ℕ) : Bool :=
  job.id = jobId && job.status = .leased && job.leaseOwner = some leaseOwner &&
    job.leaseGeneration = leaseGeneration

/-- `renew_run_job`: whether the lease was extended, and whether the run was
asked to cancel. -/
def renewRunJob (jobId leaseOwner : String) (leaseGeneration : ℕ) (leaseSeconds : Time) :
    StoreTxn (Bool × Bool) := do
  let renewedAt ← utcNow
  let expiryBase ← utcNow
  let rowcount ← updateJobsCounted
    (fun j ↦ j.ownedBy jobId leaseOwner leaseGeneration && j.quarantinedAt.isNone &&
      j.unexpiredAt renewedAt)
    fun j ↦ { j with leaseExpiresAt := some (expiryBase + leaseSeconds), updatedAt := renewedAt }
  let job? ← Txn.read fun db ↦ db.jobs.find? jobId
  pure (if rowcount = 1 then (true, job?.any fun j ↦ j.cancelRequestedAt.isSome)
    else (false, false))

def JobStatus.text : JobStatus → String
  | .pending => "pending"
  | .leased => "leased"
  | .completed => "completed"
  | .dead => "dead"
  | .canceled => "canceled"

/-- `finish_run_job` -/
def finishRunJob (jobId leaseOwner : String) (leaseGeneration : ℕ) (status : JobStatus) :
    StoreTxn Bool := do
  Txn.require (status ∈ [JobStatus.completed, .canceled, .dead])
    (.valueError s!"invalid finished job status: {status.text}")
  let finishedAt ← utcNow
  let rowcount ← updateJobsCounted
    (fun j ↦ j.ownedBy jobId leaseOwner leaseGeneration && j.unexpiredAt finishedAt)
    fun j ↦ { j with status := status, updatedAt := finishedAt, finishedAt := some finishedAt,
                     leaseExpiresAt := none }
  pure (rowcount = 1)

/-! ## Quarantine -/

/-- `quarantine_execution_attempt`: fence an attempt whose resources cannot
be proven still. The job stays leased to its owner without an expiry. -/
def quarantineExecutionAttempt (lease? : Option ExecutionLease) (runId reason : String)
    (payload : Json) : StoreTxn Event := do
  let lease ← Txn.getOr (lease?.filter fun l ↦ l.runId = runId)
    (.leaseFence "execution quarantine requires the current run lease")
  let now ← utcNow
  runWriteTransaction runId (some lease) do
    settleLostLedgers runId lease.executionAttemptId reason now
    cancelUnstartedToolReceiptsUncommitted runId now "ParentRunCleanupRequired"
    requireRunCleanup runId now
    let event ← publishRunStatus runId .cleanupRequired "run.cleanup_required" payload now
    let rowcount ← updateJobsCounted (fun j ↦ j.leasedTo lease) fun j ↦
      { j with quarantinedAt := some now, quarantineReason := some reason,
               leaseExpiresAt := none, updatedAt := now }
    Txn.require (rowcount = 1) (.leaseFence "execution attempt could not be quarantined")
    pure event

/-- Fail a run whose quarantined attempt has been cleaned up. -/
def failQuarantinedRun (runId jobId : String) (payload : Json) (now : Time) : StoreTxn Event := do
  cancelUnstartedToolReceiptsUncommitted runId now "ParentRunCleanupRequired"
  updateRuns (fun r ↦ r.id = runId && r.status = .cleanupRequired) fun r ↦
    { r with status := .failed, updatedAt := now, completedAt := some now }
  let event ← publishRunStatus runId .failed "run.failed" payload now
  updateJobs (fun j ↦ j.id = jobId) fun j ↦
    { j with status := .dead, updatedAt := now, finishedAt := some now, leaseExpiresAt := none }
  pure event

/-- `confirm_quarantined_cleanup`: only the quarantined owner closes its attempt. -/
def confirmQuarantinedCleanup (runId jobId leaseOwner : String) (leaseGeneration : ℕ)
    (payload : Json) : StoreTxn (Option Event) := do
  let now ← utcNow
  let held ← Txn.read fun db ↦ db.jobs.rows.any fun j ↦
    j.leasedTo ⟨jobId, runId, leaseOwner, leaseGeneration⟩ && j.quarantinedAt.isSome
  if held then do
    let event ← failQuarantinedRun runId jobId payload now
    pure (some event)
  else pure none

/-- Turn a lease that the owner saw run out into a quarantine. -/
def quarantineLostJob (runId jobId : String) (report : CleanupReport) (now : Time) :
    StoreTxn Event := do
  updateJobs (fun j ↦ j.id = jobId) fun j ↦
    { j with quarantinedAt := some now, quarantineReason := some "execution_lease_expired",
             leaseExpiresAt := none, updatedAt := now }
  requireRunCleanup runId now
  publishRunStatus runId .cleanupRequired "run.cleanup_required" (leaseExpiredPayload report) now

/-- `ensure_lost_execution_quarantined`: an exact owner whose lease ran out
records the loss before it confirms its cleanup. -/
def ensureLostExecutionQuarantined (runId jobId leaseOwner : String) (leaseGeneration : ℕ) :
    StoreTxn (Bool × Option Event) := do
  let now ← utcNow
  let lease : ExecutionLease := ⟨jobId, runId, leaseOwner, leaseGeneration⟩
  let job? ← Txn.read fun db ↦ db.jobs.rows.find? fun j ↦ j.leasedTo lease
  match job?.filter fun j ↦ j.quarantinedAt.isSome || !j.unexpiredAt now with
  | none => pure (false, none)
  | some job => do
    settleLostLedgers runId lease.executionAttemptId "execution_lease_expired" now
    cancelUnstartedToolReceiptsUncommitted runId now "ParentRunCleanupRequired"
    orphanSandboxProcesses runId lease.executionAttemptId now
    let report ← sandboxCleanupReportUncommitted runId lease.executionAttemptId
    if job.quarantinedAt.isSome then pure (true, none)
    else do
      let event ← quarantineLostJob runId jobId report now
      pure (true, some event)

/-! ## Committing a result -/

/-- `_RUN_RESULT_EVENTS` -/
def runResultEvent : RunStatus → Option String
  | .completed => some "run.completed"
  | .failed => some "run.failed"
  | .canceled => some "run.canceled"
  | .waitingPermission => some "run.waiting"
  | .waitingInput => some "run.waiting"
  | _ => none

/-- `_settle_execution_job_uncommitted` checks the lease once more. -/
def settleExecutionJobUncommitted (lease : ExecutionLease) (runStatus : RunStatus)
    (settledAt : Time) : StoreTxn Unit := do
  let fenceAt ← utcNow
  let status ← Txn.getOr (settledJobStatus runStatus) (.keyError runStatus.text)
  let rowcount ← updateJobsCounted (fun j ↦ j.admits lease fenceAt) fun j ↦
    { j with status := status, updatedAt := settledAt, finishedAt := some settledAt,
             leaseExpiresAt := none }
  Txn.require (rowcount = 1) (.leaseFence
    s!"run {lease.runId} lease generation {lease.leaseGeneration} is stale")

/-- The latest event of a type in the log of a run. -/
def latestEvent (db : Database) (runId eventType : String) : Option Event :=
  ((db.journal.events.ofRun runId).filter fun e ↦ e.eventType = eventType).getLast?

/-- Without a lease only orphan recovery commits, and only for a run that
has no active job. -/
def requireOrphan (runId : String) (lease : Option ExecutionLease) (orphanRecovery : Bool) :
    StoreTxn Unit :=
  match lease with
  | some _ => pure ()
  | none => do
    Txn.require (orphanRecovery = true)
      (.leaseFence s!"run {runId} result requires the active execution lease")
    let active ← findActiveJob runId
    Txn.require (active.isNone = true)
      (.leaseFence s!"run {runId} still has an unsettled execution job")

def settleHeldJob (lease : Option ExecutionLease) (runStatus : RunStatus) (settledAt : Time) :
    StoreTxn Unit :=
  match lease with
  | some held => settleExecutionJobUncommitted held runStatus settledAt
  | none => pure ()

/-- The same result again: the job may still have to be settled. -/
def repeatRunResult (runId : String) (lease : Option ExecutionLease) (status : RunStatus)
    (payloadJson : Json) (existing : Event) : StoreTxn (Event × Bool) := do
  Txn.require (encodePayload existing.payloadJson = payloadJson)
    (.runResultConflict s!"run {runId} already has a different {status.text} result")
  let settledAt ← utcNow
  settleHeldJob lease status settledAt
  pure (existing, false)

def writeRunResult (runId : String) (lease : Option ExecutionLease) (status : RunStatus)
    (eventType : String) (payload : Json) : StoreTxn (Event × Bool) := do
  let committedAt ← utcNow
  Txn.when (status.terminal = true)
    (cancelUnstartedToolReceiptsUncommitted runId committedAt (parentRunError status))
  updateRuns (fun r ↦ r.id = runId) fun r ↦
    { r with status := status, updatedAt := committedAt,
             completedAt := if status.terminal then some committedAt else none }
  let event ← publishRunStatus runId status eventType payload committedAt
  settleHeldJob lease status committedAt
  pure (event, true)

/-- The `repr` of an optional text. -/
def quoted : Option String → String
  | some text => "'" ++ text ++ "'"
  | none => "None"

/-- `commit_run_result`: persist a waiting or terminal state with its event.
The flag tells whether the event is new. -/
def commitRunResult (lease : Option ExecutionLease) (runId : String) (status : RunStatus)
    (eventType : String) (payload : Json) (orphanRecovery : Bool) : StoreTxn (Event × Bool) := do
  Txn.require (runResultEvent status = some eventType)
    (.valueError (quoted (some status.text) ++ " must be committed with " ++
      quoted (runResultEvent status)))
  runWriteTransaction runId lease do
    let run? ← findRun runId
    let run ← Txn.getOr run? (.keyError s!"unknown run: {runId}")
    requireOrphan runId lease orphanRecovery
    let existing ← Txn.read fun db ↦
      if run.status = status then latestEvent db runId eventType else none
    match existing with
    | some event => repeatRunResult runId lease status (encodePayload payload) event
    | none => do
      Txn.require (run.status = status ∨ run.status.terminal = false)
        (.runResultConflict s!"run {runId} is already terminal with status {run.status.text}")
      writeRunResult runId lease status eventType payload

end ShejaneRuntime.Store
