import ShejaneRuntime.Lib.Transition
import ShejaneRuntime.Store.AgentMessages
import ShejaneRuntime.Store.Children
import ShejaneRuntime.Store.ModelCalls
import ShejaneRuntime.Store.Threads
import ShejaneRuntime.Store.WaitCommands

/-!
# The store as a transition system

One step is one transaction with whatever the clock, the identifiers and
the file system give it. A transaction that fails leaves the database as it
was. What the rest of the Runtime does to tables of its own (workspaces,
plugins, artifacts) is one operation with arbitrary outcome.
-/

namespace ShejaneRuntime.Store

open Lib

inductive StoreOp where
  | acceptRunCommand (command : RunCommand)
  | acceptChildRun (lease : Option ExecutionLease) (request : ChildRequest)
  | enqueueRunJob (runId : String) (kind : JobKind) (resume : Option Json)
  | requeueExpiredRunJobs
  | claimRunJob (workerId : String) (leaseSeconds : Time)
  | renewRunJob (jobId leaseOwner : String) (leaseGeneration : ℕ) (leaseSeconds : Time)
  | finishRunJob (jobId leaseOwner : String) (leaseGeneration : ℕ) (status : JobStatus)
  | quarantineExecutionAttempt (lease : Option ExecutionLease) (runId reason : String)
      (payload : Json)
  | confirmQuarantinedCleanup (runId jobId leaseOwner : String) (leaseGeneration : ℕ)
      (payload : Json)
  | ensureLostExecutionQuarantined (runId jobId leaseOwner : String) (leaseGeneration : ℕ)
  | commitRunResult (lease : Option ExecutionLease) (runId : String) (status : RunStatus)
      (eventType : String) (payload : Json) (orphanRecovery : Bool)
  | requestRunCancelTree (runId : String)
  | requestRunCancelCommand (principalId commandId runId : String)
  | requestRunInjectCommand (principalId commandId runId content : String)
  | requestQuestionAnswerCommand (principalId commandId questionId : String) (answers : Json)
  | requestPermissionResolveCommand (principalId commandId permissionId : String)
      (decision : PermissionDecision) (scope : PermissionScope)
  | requestPlanResolveCommand (principalId commandId approvalId : String) (decision : PlanDecision)
      (instructions : Option String)
  | requestToolReconcileCommand (principalId commandId operationId : String)
      (decision : ReconcileDecision) (results : ReconciliationResults)
  | createPermission (lease : Option ExecutionLease) (request : CreatePermission)
  | createQuestion (lease : Option ExecutionLease) (runId : String) (toolCallId : Option String)
      (questions : Json) (waitCycleId interruptId : Option String)
  | createPlanApproval (lease : Option ExecutionLease) (runId toolCallId : String) (todos : Json)
      (summary : String) (waitCycleId interruptId : Option String)
  | createToolReconciliation (lease : Option ExecutionLease)
      (runId operationId waitCycleId interruptId : String) (payload : Json)
  | resolvePermission (lease : Option ExecutionLease) (permissionId : String)
      (status : PermissionStatus) (scope : Option PermissionScope)
      (decision eventPayload : Option Json)
  | answerQuestion (lease : Option ExecutionLease) (questionId : String) (answers : Json)
      (eventPayload : Option Json)
  | consumeRunPermissionGrant (lease : Option ExecutionLease)
      (runId operationId toolName toolVersion risk : String)
  | resolveToolReconciliation (lease : Option ExecutionLease) (candidateId : String)
      (decision : ReconcileDecision) (results : ReconciliationResults)
  | prepareToolReceipt (lease : Option ExecutionLease) (request : PrepareToolReceipt)
  | recordToolReview (lease : Option ExecutionLease) (operationId runId : String)
      (review : ToolReview)
  | beginToolReceipt (lease : Option ExecutionLease) (operationId runId : String)
      (executionAttemptId : AttemptId)
  | settleToolReceipt (lease : Option ExecutionLease) (operationId runId : String)
      (settlement : Settlement)
  | settleTaskReceipt (lease : Option ExecutionLease) (operationId runId : String)
      (settlement : Settlement)
  | reconcileToolReceipt (lease : Option ExecutionLease) (operationId runId : String)
      (decision : ReconcileDecision) (resultJson : Option Json) (resultHash : Option String)
  | reserveModelCall (lease : Option ExecutionLease) (request : ReserveModelCall)
  | markModelCallOutput (lease : Option ExecutionLease) (runId callId : String)
  | settleModelCall (lease : Option ExecutionLease) (runId callId : String)
      (inputTokens outputTokens : Option ℕ)
  | failModelCall (lease : Option ExecutionLease) (runId callId : String) (outcomeUnknown : Bool)
      (errorCode : Option String) (inputTokens outputTokens : Option ℕ)
  | recordSandboxProcess (runId : String) (executionAttemptId : AttemptId) (pid : ℕ)
      (processStartedAt settingsPath : String)
  | forgetSandboxProcess (id : String)
  | settleSandboxProcess (id : String) (status : SandboxStatus)
  | bindGraphDefinition (lease : Option ExecutionLease) (runId definitionId : String)
  | advanceGraphCheckpoint (lease : Option ExecutionLease) (runId graphThreadId : String)
      (expectedCheckpointId : Option String) (checkpointId : String)
  | updateAssistantDraft (lease : Option ExecutionLease) (runId messageKey content : String)
      (toolCalls : Json)
  | claimPendingSteering (lease : Option ExecutionLease) (runId : String)
  | commitAssistantRound (lease : Option ExecutionLease) (runId : String) (payload : Json)
  | appendEvent (lease : Option ExecutionLease) (runId eventType : String) (payload : Json)
  | recordCommandReceipt (principalId commandId commandType : String) (payload receipt : Json)
      (runId : Option String)
  | updateThread (principalId threadId : String) (title : Option String) (metadata : Option Json)
      (archived : Option Bool)
  | deleteThread (principalId threadId : String)
  | sendAgentMessage (lease : Option ExecutionLease)
      (senderRunId senderOperationId recipientRunId : String) (content : MessageContent)
  | replyAgentMessage (lease : Option ExecutionLease)
      (senderRunId senderOperationId inReplyTo : String) (content : MessageContent)
  | deliverAgentMessages (lease : Option ExecutionLease) (recipientRunId : String)
  | ackAgentMessages (lease : Option ExecutionLease) (recipientRunId : String)
      (messageIds : List String) (operationId : Option String)
  | administer (workspaces : List Workspace) (versions : List PluginVersion)
      (installations : List PluginInstallation) (artifacts : List Artifact)

/-- `requeue_expired_run_jobs` -/
def requeueExpiredRunJobs : StoreTxn Unit := do
  let now ← utcNow
  requeueExpiredJobsUncommitted now

/-- The receipt of a command of another subsystem. -/
def recordCommandReceipt (principalId commandId commandType : String) (payload receipt : Json)
    (runId : Option String) : StoreTxn (Json × Bool) :=
  acceptCommand principalId commandId commandType (encodePayload payload) do
    let createdAt ← utcNow
    recordCommandReceiptUncommitted principalId commandId commandType (encodePayload payload)
      receipt createdAt runId
    pure receipt

def administer (workspaces : List Workspace) (versions : List PluginVersion)
    (installations : List PluginInstallation) (artifacts : List Artifact) : StoreTxn Unit :=
  Txn.write fun db ↦
    { db with
      workspaces := workspaces
      plugins := { db.plugins with versions := versions, installations := installations }
      content := { db.content with artifacts := artifacts } }

/-- Run a transaction for its effect. -/
def effect {α : Type} (m : StoreTxn α) : StoreTxn Unit := (fun _ ↦ ()) <$> m

def StoreOp.exec : StoreOp → StoreTxn Unit
  | acceptRunCommand command => effect (Store.acceptRunCommand command)
  | acceptChildRun lease request => effect (Store.acceptChildRun lease request)
  | enqueueRunJob runId kind resume => effect (Store.enqueueRunJob runId kind resume)
  | requeueExpiredRunJobs => Store.requeueExpiredRunJobs
  | claimRunJob workerId leaseSeconds => effect (Store.claimRunJob workerId leaseSeconds)
  | renewRunJob jobId owner generation leaseSeconds =>
    effect (Store.renewRunJob jobId owner generation leaseSeconds)
  | finishRunJob jobId owner generation status =>
    effect (Store.finishRunJob jobId owner generation status)
  | quarantineExecutionAttempt lease runId reason payload =>
    effect (Store.quarantineExecutionAttempt lease runId reason payload)
  | confirmQuarantinedCleanup runId jobId owner generation payload =>
    effect (Store.confirmQuarantinedCleanup runId jobId owner generation payload)
  | ensureLostExecutionQuarantined runId jobId owner generation =>
    effect (Store.ensureLostExecutionQuarantined runId jobId owner generation)
  | commitRunResult lease runId status eventType payload orphanRecovery =>
    effect (Store.commitRunResult lease runId status eventType payload orphanRecovery)
  | requestRunCancelTree runId => effect (Store.requestRunCancelTree runId)
  | requestRunCancelCommand principalId commandId runId =>
    effect (Store.requestRunCancelCommand principalId commandId runId)
  | requestRunInjectCommand principalId commandId runId content =>
    effect (Store.requestRunInjectCommand principalId commandId runId content)
  | requestQuestionAnswerCommand principalId commandId questionId answers =>
    effect (Store.requestQuestionAnswerCommand principalId commandId questionId answers)
  | requestPermissionResolveCommand principalId commandId permissionId decision scope =>
    effect (Store.requestPermissionResolveCommand principalId commandId permissionId decision scope)
  | requestPlanResolveCommand principalId commandId approvalId decision instructions =>
    effect (Store.requestPlanResolveCommand principalId commandId approvalId decision instructions)
  | requestToolReconcileCommand principalId commandId operationId decision results =>
    effect (Store.requestToolReconcileCommand principalId commandId operationId decision results)
  | createPermission lease request => effect (Store.createPermission lease request)
  | createQuestion lease runId toolCallId questions waitCycleId interruptId =>
    effect (Store.createQuestion lease runId toolCallId questions waitCycleId interruptId)
  | createPlanApproval lease runId toolCallId todos summary waitCycleId interruptId =>
    effect (Store.createPlanApproval lease runId toolCallId todos summary waitCycleId interruptId)
  | createToolReconciliation lease runId operationId waitCycleId interruptId payload =>
    effect (Store.createToolReconciliation lease runId operationId waitCycleId interruptId payload)
  | resolvePermission lease permissionId status scope decision eventPayload =>
    effect (Store.resolvePermission lease permissionId status scope decision eventPayload)
  | answerQuestion lease questionId answers eventPayload =>
    effect (Store.answerQuestion lease questionId answers eventPayload)
  | consumeRunPermissionGrant lease runId operationId toolName toolVersion risk =>
    effect (Store.consumeRunPermissionGrant lease runId operationId toolName toolVersion risk)
  | resolveToolReconciliation lease candidateId decision results =>
    effect (Store.resolveToolReconciliation lease candidateId decision results)
  | prepareToolReceipt lease request => effect (Store.prepareToolReceipt lease request)
  | recordToolReview lease operationId runId review =>
    effect (Store.recordToolReview lease operationId runId review)
  | beginToolReceipt lease operationId runId attempt =>
    effect (Store.beginToolReceipt lease operationId runId attempt)
  | settleToolReceipt lease operationId runId settlement =>
    effect (Store.settleToolReceipt lease operationId runId settlement)
  | settleTaskReceipt lease operationId runId settlement =>
    effect (Store.settleTaskReceipt lease operationId runId settlement)
  | reconcileToolReceipt lease operationId runId decision resultJson resultHash =>
    effect (Store.reconcileToolReceipt lease operationId runId decision resultJson resultHash)
  | reserveModelCall lease request => effect (Store.reserveModelCall lease request)
  | markModelCallOutput lease runId callId => Store.markModelCallOutput lease runId callId
  | settleModelCall lease runId callId inputTokens outputTokens =>
    Store.settleModelCall lease runId callId inputTokens outputTokens
  | failModelCall lease runId callId outcomeUnknown errorCode inputTokens outputTokens =>
    Store.failModelCall lease runId callId outcomeUnknown errorCode inputTokens outputTokens
  | recordSandboxProcess runId attempt pid processStartedAt settingsPath =>
    effect (Store.recordSandboxProcess runId attempt pid processStartedAt settingsPath)
  | forgetSandboxProcess id => Store.forgetSandboxProcess id
  | settleSandboxProcess id status => Store.settleSandboxProcess id status
  | bindGraphDefinition lease runId definitionId =>
    Store.bindGraphDefinition lease runId definitionId
  | advanceGraphCheckpoint lease runId graphThreadId expectedCheckpointId checkpointId =>
    Store.advanceGraphCheckpoint lease runId graphThreadId expectedCheckpointId checkpointId
  | updateAssistantDraft lease runId messageKey content toolCalls =>
    effect (Store.updateAssistantDraft lease runId messageKey content toolCalls)
  | claimPendingSteering lease runId => effect (Store.claimPendingSteering lease runId)
  | appendEvent lease runId eventType payload =>
    effect (Store.appendEvent lease runId eventType payload)
  | recordCommandReceipt principalId commandId commandType payload receipt runId =>
    effect (Store.recordCommandReceipt principalId commandId commandType payload receipt runId)
  | commitAssistantRound lease runId payload =>
    effect (Store.commitAssistantRound lease runId payload)
  | updateThread principalId threadId title metadata archived =>
    effect (Store.updateThread principalId threadId title metadata archived)
  | deleteThread principalId threadId => effect (Store.deleteThread principalId threadId)
  | sendAgentMessage lease senderRunId senderOperationId recipientRunId content =>
    effect (Store.sendAgentMessage lease senderRunId senderOperationId recipientRunId content)
  | replyAgentMessage lease senderRunId senderOperationId inReplyTo content =>
    effect (Store.replyAgentMessage lease senderRunId senderOperationId inReplyTo content)
  | deliverAgentMessages lease recipientRunId =>
    effect (Store.deliverAgentMessages lease recipientRunId)
  | ackAgentMessages lease recipientRunId messageIds operationId =>
    effect (Store.ackAgentMessages lease recipientRunId messageIds operationId)
  | administer workspaces versions installations artifacts =>
    Store.administer workspaces versions installations artifacts

/-- The database after an operation, committed or rolled back. -/
def StoreOp.after (op : StoreOp) (db : Database) (w : World) : Database :=
  (Txn.commit op.exec db w).2

/-- The run is in a wait, as `resume_run` checks before it asks for a job. -/
def runWaiting (db : Database) (runId : String) : Bool :=
  (db.runs.find? runId).any fun r ↦ r.status.waiting

/-- What the code that calls an operation sees to. The lifecycle events that
the graph driver appends are appended by the attempt it drives. -/
def StoreOp.called : StoreOp → Prop
  | appendEvent none _ eventType _ => isLifecycleEvent eventType = false
  | _ => True

/-- A plain environment: the clock ticks from `n`, identifiers are counted
from `n`, and every folder is what it was. -/
def World.counting (n : ℕ) : World where
  clock k := n + k
  uuid k := String.ofList (List.replicate (n + k) 'x')
  workspacePathErrorSync _ := none
  sha256Hex text := text
  pluginActionCatalogHash _ digest := digest
  resolvePath path := [path]

/-- The store: any operation next, from an empty database. -/
def store : System Database (StoreOp × World) where
  initial db := db = Database.empty
  step i db db' := db' = i.1.after db i.2

end ShejaneRuntime.Store
