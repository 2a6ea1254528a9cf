import ShejaneRuntime.Lib.Txn
import ShejaneRuntime.Store.Schema

/-!
# Write transactions and execution leases

The environment of a transaction supplies the readings of the clock, the
identifiers of `uuid4`, digests, and what the file system says about paths.
A transaction that acts for an execution attempt carries its lease and is
fenced: it runs only while the job is leased to that attempt.
-/

namespace ShejaneRuntime.Store

open Lib

inductive StoreError where
  | keyError (message : String)
  | valueError (message : String)
  | runtimeError (message : String)
  | integrityError (message : String)
  | leaseFence (message : String)
  | runResultConflict (message : String)
  | commandConflict (message : String)
  | workspaceAdmission (message : String)
  | parentRunAdmission (message : String)
  | threadAdmission (message : String)
  | runAdmission (code message : String)
  | graphHeadConflict (message : String)
  | graphDefinitionMismatch (message : String)
  | modelCallBudgetExceeded (message : String)
  | toolReceiptConflict (message : String)
  | toolOutcomeUnknown (message : String)
  | toolReceiptState (message : String)
  | permissionDecisionConflict (message : String)
  | waitDecisionConflict (message : String)
  | permissionScopeNotAllowed (message : String)
  | pluginVersionConflict (message : String)
  | pluginState (code message : String)
  deriving DecidableEq, Repr

/-- What a transaction draws from outside the database. -/
structure World where
  clock : ℕ → Time
  uuid : ℕ → String
  workspacePathErrorSync : String → Option String
  sha256Hex : String → String
  pluginActionCatalogHash : PluginManifest → String → String
  resolvePath : String → List String

abbrev StoreTxn := Txn Database World StoreError

/-- `utc_now()` -/
def utcNow {σ : Type} : Txn σ World StoreError Time :=
  Txn.draw fun w ↦ (w.clock 0, { w with clock := fun n ↦ w.clock (n + 1) })

/-- `f"{prefix}_{uuid.uuid4().hex}"` -/
def newId {σ : Type} (pre : String) : Txn σ World StoreError String :=
  Txn.draw fun w ↦ (pre ++ "_" ++ w.uuid 0, { w with uuid := fun n ↦ w.uuid (n + 1) })

def workspacePathError (path : Option String) : StoreTxn (Option String) :=
  Txn.draw fun w ↦ (path.bind w.workspacePathErrorSync, w)

structure ExecutionLease where
  jobId : String
  runId : String
  leaseOwner : String
  leaseGeneration : ℕ
  deriving DecidableEq, Repr

def ExecutionLease.executionAttemptId (lease : ExecutionLease) : AttemptId :=
  ⟨lease.jobId, lease.leaseGeneration⟩

/-- The job is leased to exactly this owner and generation. -/
def Job.leasedTo (job : Job) (lease : ExecutionLease) : Bool :=
  job.id = lease.jobId && job.runId = lease.runId && job.status = .leased &&
    job.leaseOwner = some lease.leaseOwner && job.leaseGeneration = lease.leaseGeneration

/-- `lease_expires_at > at`; a null expiry satisfies no comparison. -/
def Job.unexpiredAt (job : Job) (at' : Time) : Bool :=
  match job.leaseExpiresAt with
  | some expiry => at' < expiry
  | none => false

/-- `lease_expires_at <= at` -/
def Job.expiredAt (job : Job) (at' : Time) : Bool :=
  match job.leaseExpiresAt with
  | some expiry => expiry ≤ at'
  | none => false

/-- The condition under which a fenced transaction goes ahead. -/
def Job.admits (job : Job) (lease : ExecutionLease) (at' : Time) : Bool :=
  job.leasedTo lease && job.quarantinedAt.isNone && job.unexpiredAt at'

def requireLease (runId : String) : Option ExecutionLease → StoreTxn Unit
  | none => pure ()
  | some lease => do
    Txn.require (lease.runId = runId)
      (.leaseFence s!"lease for {lease.runId} cannot write run {runId}")
    let fenceAt ← utcNow
    let held ← Txn.read fun db ↦ db.jobs.rows.any fun job ↦ job.admits lease fenceAt
    Txn.require (held = true)
      (.leaseFence s!"run {runId} lease generation {lease.leaseGeneration} is stale")

/-- `run_write_transaction`: the body runs behind the fence of the lease the
execution context carries, if any. -/
def runWriteTransaction {α : Type} (runId : String) (lease : Option ExecutionLease)
    (body : StoreTxn α) : StoreTxn α := do
  requireLease runId lease
  body

/-! ## Inserting rows -/

def uniqueFailed (columns : String) : StoreError :=
  .integrityError s!"UNIQUE constraint failed: {columns}"

/-- Rows that name a run need the run to exist. -/
def requireRunRow (runId : String) : StoreTxn Unit := do
  let run ← Txn.read fun db ↦ db.runs.find? runId
  Txn.require (run.isSome = true) (.integrityError "FOREIGN KEY constraint failed")

def insertRun (run : Run) : StoreTxn Unit := do
  let spawned ← Txn.read fun db ↦ db.runs.rows.any fun r ↦
    r.spawnOperationId.isSome && r.spawnOperationId = run.spawnOperationId
  Txn.require (spawned = false) (uniqueFailed "local_runs.spawn_operation_id")
  Txn.attempt (fun db ↦ (db.runs.insert? run).map fun runs ↦ { db with runs := runs })
    (uniqueFailed "local_runs.id")

/-- At most one pending or leased job of a run: the partial unique index. -/
def insertRunJob (job : Job) : StoreTxn Unit := do
  requireRunRow job.runId
  let taken ← Txn.read fun db ↦ db.jobs.rows.any fun j ↦ j.active && j.runId = job.runId
  Txn.require ((taken && job.active) = false) (uniqueFailed "local_run_jobs.run_id")
  Txn.attempt (fun db ↦ (db.jobs.insert? job).map fun jobs ↦ { db with jobs := jobs })
    (uniqueFailed "local_run_jobs.id")

def insertCommand (command : Command) : StoreTxn Unit :=
  Txn.attempt (fun db ↦ (db.commands.insert? command).map fun commands ↦
      { db with commands := commands })
    (uniqueFailed "local_commands.principal_id, local_commands.id")

def insertPermission (permission : Permission) : StoreTxn Unit := do
  requireRunRow permission.runId
  let clash ← Txn.read fun db ↦ db.waits.permissions.rows.any fun p ↦
    p.runId = permission.runId &&
      ((p.operationId.isSome && p.operationId = permission.operationId) ||
        (p.interruptId = permission.interruptId && p.actionIndex = permission.actionIndex))
  Txn.require (clash = false) (uniqueFailed "local_permissions")
  Txn.attempt (fun db ↦ (db.waits.permissions.insert? permission).map fun permissions ↦
      { db with waits := { db.waits with permissions := permissions } })
    (uniqueFailed "local_permissions.id")

def insertGrantUse (use : GrantUse) : StoreTxn Unit :=
  Txn.attempt (fun db ↦ (db.waits.grantUses.insert? use).map fun grantUses ↦
      { db with waits := { db.waits with grantUses := grantUses } })
    (uniqueFailed "local_permission_grant_uses.run_id, local_permission_grant_uses.operation_id")

/-- One candidate for each position of an interrupt of a run. -/
def insertWaitCandidate (candidate : WaitCandidate) : StoreTxn Unit := do
  requireRunRow candidate.runId
  let clash ← Txn.read fun db ↦ db.waits.candidates.rows.any fun c ↦
    c.runId = candidate.runId && c.interruptId = candidate.interruptId &&
      c.position = candidate.position
  Txn.require (clash = false) (uniqueFailed "local_wait_candidates")
  Txn.attempt (fun db ↦ (db.waits.candidates.insert? candidate).map fun candidates ↦
      { db with waits := { db.waits with candidates := candidates } })
    (uniqueFailed "local_wait_candidates.id")

def insertQuestion (question : Question) : StoreTxn Unit := do
  requireRunRow question.runId
  let clash ← Txn.read fun db ↦ db.waits.questions.rows.any fun q ↦
    q.runId = question.runId && q.interruptId = question.interruptId
  Txn.require (clash = false) (uniqueFailed "local_questions")
  Txn.attempt (fun db ↦ (db.waits.questions.insert? question).map fun questions ↦
      { db with waits := { db.waits with questions := questions } })
    (uniqueFailed "local_questions.id")

def insertPlanApproval (plan : PlanApproval) : StoreTxn Unit := do
  requireRunRow plan.runId
  let clash ← Txn.read fun db ↦ db.waits.planApprovals.rows.any fun p ↦
    p.runId = plan.runId && p.toolCallId = plan.toolCallId
  Txn.require (clash = false) (uniqueFailed "local_plan_approvals")
  Txn.attempt (fun db ↦ (db.waits.planApprovals.insert? plan).map fun plans ↦
      { db with waits := { db.waits with planApprovals := plans } })
    (uniqueFailed "local_plan_approvals.id")

def insertToolReceipt (receipt : ToolReceipt) : StoreTxn Unit := do
  requireRunRow receipt.runId
  let clash ← Txn.read fun db ↦ db.ledger.toolReceipts.rows.any fun r ↦
    r.runId = receipt.runId && r.executionNamespace = receipt.executionNamespace &&
      r.toolCallId = receipt.toolCallId
  Txn.require (clash = false) (uniqueFailed "local_tool_receipts")
  Txn.attempt (fun db ↦ (db.ledger.toolReceipts.insert? receipt).map fun receipts ↦
      { db with ledger := { db.ledger with toolReceipts := receipts } })
    (uniqueFailed "local_tool_receipts.operation_id")

def insertModelCall (call : ModelCall) : StoreTxn Unit := do
  requireRunRow call.runId
  let clash ← Txn.read fun db ↦ db.ledger.modelCalls.rows.any fun c ↦
    c.runId = call.runId && c.executionAttemptId = call.executionAttemptId &&
      c.callIndex = call.callIndex
  Txn.require (clash = false) (uniqueFailed "local_model_calls")
  Txn.attempt (fun db ↦ (db.ledger.modelCalls.insert? call).map fun calls ↦
      { db with ledger := { db.ledger with modelCalls := calls } })
    (uniqueFailed "local_model_calls.id")

def insertSandboxProcess (process : SandboxProcess) : StoreTxn Unit := do
  requireRunRow process.runId
  Txn.attempt (fun db ↦ (db.ledger.sandboxProcesses.insert? process).map fun processes ↦
      { db with ledger := { db.ledger with sandboxProcesses := processes } })
    (uniqueFailed "local_sandbox_processes.id")

def insertSteering (steering : Steering) : StoreTxn Unit := do
  requireRunRow steering.runId
  Txn.attempt (fun db ↦ (db.content.steering.insert? steering).map fun rows ↦
      { db with content := { db.content with steering := rows } })
    (uniqueFailed "local_steering.id")

/-! ## Updating rows -/

def updateRuns (p : Run → Bool) (f : Run → Run) (hf : ∀ r, (f r).id = r.id := by intro; rfl) :
    StoreTxn Unit :=
  Txn.write fun db ↦ { db with runs := db.runs.update p f hf }

def updateJobs (p : Job → Bool) (f : Job → Job) (hf : ∀ j, (f j).id = j.id := by intro; rfl) :
    StoreTxn Unit :=
  Txn.write fun db ↦ { db with jobs := db.jobs.update p f hf }

/-- Update jobs and return `cursor.rowcount`. -/
def updateJobsCounted (p : Job → Bool) (f : Job → Job)
    (hf : ∀ j, (f j).id = j.id := by intro; rfl) : StoreTxn ℕ := do
  let count ← Txn.read fun db ↦ db.jobs.rowcount p
  updateJobs p f hf
  pure count

def updateToolReceipts (p : ToolReceipt → Bool) (f : ToolReceipt → ToolReceipt)
    (hf : ∀ r, (f r).operationId = r.operationId := by intro; rfl) : StoreTxn Unit :=
  Txn.write fun db ↦
    { db with ledger := { db.ledger with
      toolReceipts := db.ledger.toolReceipts.update p f hf } }

def updateToolReceiptsCounted (p : ToolReceipt → Bool) (f : ToolReceipt → ToolReceipt)
    (hf : ∀ r, (f r).operationId = r.operationId := by intro; rfl) : StoreTxn ℕ := do
  let count ← Txn.read fun db ↦ db.ledger.toolReceipts.rowcount p
  updateToolReceipts p f hf
  pure count

def updateModelCalls (p : ModelCall → Bool) (f : ModelCall → ModelCall)
    (hf : ∀ c, (f c).id = c.id := by intro; rfl) : StoreTxn Unit :=
  Txn.write fun db ↦
    { db with ledger := { db.ledger with modelCalls := db.ledger.modelCalls.update p f hf } }

def updateSandboxProcesses (p : SandboxProcess → Bool) (f : SandboxProcess → SandboxProcess)
    (hf : ∀ s, (f s).id = s.id := by intro; rfl) : StoreTxn Unit :=
  Txn.write fun db ↦
    { db with ledger := { db.ledger with
      sandboxProcesses := db.ledger.sandboxProcesses.update p f hf } }

def updatePermissions (p : Permission → Bool) (f : Permission → Permission)
    (hf : ∀ r, (f r).id = r.id := by intro; rfl) : StoreTxn Unit :=
  Txn.write fun db ↦
    { db with waits := { db.waits with permissions := db.waits.permissions.update p f hf } }

def updateQuestions (p : Question → Bool) (f : Question → Question)
    (hf : ∀ r, (f r).id = r.id := by intro; rfl) : StoreTxn Unit :=
  Txn.write fun db ↦
    { db with waits := { db.waits with questions := db.waits.questions.update p f hf } }

def updatePlanApprovals (p : PlanApproval → Bool) (f : PlanApproval → PlanApproval)
    (hf : ∀ r, (f r).id = r.id := by intro; rfl) : StoreTxn Unit :=
  Txn.write fun db ↦
    { db with waits := { db.waits with
      planApprovals := db.waits.planApprovals.update p f hf } }

def updateWaitCandidates (p : WaitCandidate → Bool) (f : WaitCandidate → WaitCandidate)
    (hf : ∀ r, (f r).id = r.id := by intro; rfl) : StoreTxn Unit :=
  Txn.write fun db ↦
    { db with waits := { db.waits with candidates := db.waits.candidates.update p f hf } }

end ShejaneRuntime.Store
