import ShejaneRuntime.Lib.Table
import ShejaneRuntime.Store.Codec

/-!
# The local store

One record type for each table of the Runtime-owned database, and the
database itself as a record of tables. Tables that are written together
are grouped, so that a frame condition names one group.
-/

namespace ShejaneRuntime.Store

open Lib

/-- Stored timestamps, which order as the instants they stand for. -/
abbrev Time := ℕ

/-! ## Statuses -/

inductive RunStatus where
  | queued | running | waitingPermission | waitingInput
  | completed | failed | canceled | cleanupRequired
  deriving DecidableEq, Repr

namespace RunStatus

def text : RunStatus → String
  | queued => "queued"
  | running => "running"
  | waitingPermission => "waiting_permission"
  | waitingInput => "waiting_input"
  | completed => "completed"
  | failed => "failed"
  | canceled => "canceled"
  | cleanupRequired => "cleanup_required"

/-- `TERMINAL_RUN_STATUSES` -/
def terminal : RunStatus → Bool
  | completed | failed | canceled => true
  | _ => false

def waiting : RunStatus → Bool
  | waitingPermission | waitingInput => true
  | _ => false

end RunStatus

inductive RunKind where
  | turn | fork | child
  deriving DecidableEq, Repr

def RunKind.text : RunKind → String
  | turn => "turn"
  | fork => "fork"
  | child => "child"

inductive GraphInputKind where
  | new | fork
  deriving DecidableEq, Repr

inductive JobKind where
  | start | resume
  deriving DecidableEq, Repr

inductive JobStatus where
  | pending | leased | completed | dead | canceled
  deriving DecidableEq, Repr

inductive ModelCallStatus where
  | reserved | streaming | completed | completedUnmetered | failed | outcomeUnknown
  deriving DecidableEq, Repr

inductive ReceiptStatus where
  | prepared | running | paused | completed | failed | outcomeUnknown | rejected | canceled
  deriving DecidableEq, Repr

def ReceiptStatus.text : ReceiptStatus → String
  | prepared => "prepared"
  | running => "running"
  | paused => "paused"
  | completed => "completed"
  | failed => "failed"
  | outcomeUnknown => "outcome_unknown"
  | rejected => "rejected"
  | canceled => "canceled"

inductive SandboxStatus where
  | running | orphaned | reaped | gone | stale
  deriving DecidableEq, Repr

inductive PermissionStatus where
  | pending | approved | denied | canceled
  deriving DecidableEq, Repr

inductive PermissionScope where
  | once | run
  deriving DecidableEq, Repr

def PermissionScope.text : PermissionScope → String
  | once => "once"
  | run => "run"

inductive QuestionStatus where
  | pending | answered | canceled
  deriving DecidableEq, Repr

inductive PlanStatus where
  | pending | approved | modified | rejected | canceled
  deriving DecidableEq, Repr

inductive WaitKind where
  | toolReview | question | plan | toolReconciliation
  deriving DecidableEq, Repr

inductive WaitStatus where
  | pending | resolved
  deriving DecidableEq, Repr

inductive SteeringStatus where
  | pending | injected
  deriving DecidableEq, Repr

inductive MessageKind where
  | request | question | update | result | cancel
  deriving DecidableEq, Repr

def MessageKind.text : MessageKind → String
  | request => "request"
  | question => "question"
  | update => "update"
  | result => "result"
  | cancel => "cancel"

inductive MessageStatus where
  | queued | delivered | acknowledged | expired
  deriving DecidableEq, Repr

def MessageStatus.text : MessageStatus → String
  | queued => "queued"
  | delivered => "delivered"
  | acknowledged => "acknowledged"
  | expired => "expired"

inductive CompletionMode where
  | required | bestEffort | quorum
  deriving DecidableEq, Repr

def CompletionMode.text : CompletionMode → String
  | required => "required"
  | bestEffort => "best_effort"
  | quorum => "quorum"

/-! ## Rows -/

structure Workspace where
  id : String
  principalId : String
  path : String
  label : String
  createdAt : Time
  lastUsedAt : Time

structure Run where
  id : String
  principalId : String
  runKind : RunKind
  rootRunId : Option String
  agentDefinitionId : String
  agentDefinitionVersion : String
  collaborationDepth : ℕ
  collaborationPolicyJson : Json
  spawnOperationId : Option String
  graphThreadId : String
  graphCheckpointId : Option String
  graphDefinitionId : Option String
  graphInputKind : GraphInputKind
  threadId : Option String
  assistantItemId : Option String
  userInput : Option String
  goal : String
  workspacePath : Option String
  status : RunStatus
  historyJson : Json
  parentRunId : Option String
  settingsJson : Json
  metadataJson : Json
  mode : String
  createdAt : Time
  updatedAt : Time
  completedAt : Option Time

structure Thread where
  id : String
  principalId : String
  title : String
  metadataJson : Json
  version : ℕ
  createdAt : Time
  updatedAt : Time
  archivedAt : Option Time
  deletedAt : Option Time

structure ThreadItem where
  id : String
  threadId : String
  runId : Option String
  clientId : Option String
  itemType : String
  status : String
  content : String
  metadataJson : Json
  position : ℤ
  eventHighWatermark : ℕ
  version : ℕ
  createdAt : Time
  updatedAt : Time
  completedAt : Option Time
  supersededAt : Option Time
  supersededByRunId : Option String

structure ThreadChange where
  cursor : ℕ
  principalId : String
  threadId : String
  threadVersion : ℕ
  changeType : String
  runId : Option String
  createdAt : Time

structure Event where
  id : String
  runId : String
  seq : ℕ
  eventType : String
  payloadJson : Json
  createdAt : Time

structure Command where
  principalId : String
  id : String
  commandType : String
  clientMessageId : String
  payloadJson : Json
  responseJson : Json
  runId : Option String
  createdAt : Time

def Command.key (c : Command) : String × String := (c.principalId, c.id)

structure PluginCommand where
  id : String
  title : String

/-- The part of a manifest that binding a plugin to a run reads. -/
structure PluginManifest where
  name : String
  commands : List PluginCommand
  json : Json

structure PluginVersion where
  pluginId : String
  version : String
  digest : String
  manifest : PluginManifest
  compatible : Bool
  retired : Bool

structure PluginInstallation where
  principalId : String
  pluginId : String
  activeDigest : String
  enabled : Bool
  modelBindingJson : Option Json
  retiredAt : Option Time

structure RunPluginBinding where
  runId : String
  pluginId : String
  version : String
  digest : String
  selectionSource : String
  required : Bool
  commandId : Option String
  actionCatalogHash : String
  modelBindingJson : Option Json

structure Job where
  id : String
  runId : String
  kind : JobKind
  status : JobStatus
  inputJson : Json
  resumeJson : Option Json
  leaseOwner : Option String
  leaseGeneration : ℕ
  leaseExpiresAt : Option Time
  attempt : ℕ
  cancelRequestedAt : Option Time
  quarantinedAt : Option Time
  quarantineReason : Option String
  createdAt : Time
  updatedAt : Time
  finishedAt : Option Time

/-- `status IN ('pending', 'leased')` -/
def Job.active (job : Job) : Bool := job.status = .pending || job.status = .leased

/-- `f"{job_id}:{lease_generation}"` -/
structure AttemptId where
  jobId : String
  leaseGeneration : ℕ
  deriving DecidableEq

def Job.executionAttemptId (job : Job) : AttemptId := ⟨job.id, job.leaseGeneration⟩

structure ModelCall where
  id : String
  runId : String
  executionAttemptId : AttemptId
  callIndex : ℕ
  model : String
  purpose : String
  parentToolOperationId : Option String
  logicalCallId : String
  retryAttempt : ℕ
  status : ModelCallStatus
  outputStarted : Bool
  inputTokens : Option ℕ
  outputTokens : Option ℕ
  errorCode : Option String
  createdAt : Time
  completedAt : Option Time

structure ToolReceipt where
  operationId : String
  runId : String
  executionAttemptId : AttemptId
  executionNamespace : String
  parentOperationId : Option String
  toolCallId : String
  toolName : String
  toolVersion : String
  argumentsHash : String
  argumentsJson : Json
  risk : String
  status : ReceiptStatus
  attemptCount : ℕ
  resultJson : Option Json
  resultHash : Option String
  errorType : Option String
  reviewDecision : Option String
  reviewSource : Option String
  reviewReason : Option String
  reviewModel : Option String
  reviewedAt : Option Time
  createdAt : Time
  startedAt : Option Time
  completedAt : Option Time
  updatedAt : Time

structure SandboxProcess where
  id : String
  runId : String
  executionAttemptId : AttemptId
  pid : ℕ
  processStartedAt : String
  settingsPath : String
  status : SandboxStatus
  createdAt : Time
  updatedAt : Time

structure ChildCoordination where
  childRunId : String
  rootRunId : String
  parentRunId : String
  completionMode : CompletionMode
  quorumGroup : Option String
  quorumRequired : Option ℕ
  createdAt : Time

structure ChildDependency where
  childRunId : String
  dependencyRunId : String
  createdAt : Time

def ChildDependency.key (d : ChildDependency) : String × String := (d.childRunId, d.dependencyRunId)

structure ResourceClaim where
  rootRunId : String
  resourceKey : String
  ownerRunId : String
  createdAt : Time

def ResourceClaim.key (c : ResourceClaim) : String × String := (c.rootRunId, c.resourceKey)

structure Permission where
  id : String
  runId : String
  toolCallId : Option String
  waitCycleId : String
  interruptId : String
  actionIndex : ℕ
  operationId : Option String
  toolName : String
  toolVersion : String
  argumentsHash : Option String
  argumentsJson : Json
  risk : Option String
  decisionJson : Option Json
  status : PermissionStatus
  scope : PermissionScope
  grantMaxUses : ℤ
  grantUseCount : ℕ
  grantExpiresAt : Option Time
  createdAt : Time
  resolvedAt : Option Time

structure GrantUse where
  permissionId : String
  runId : String
  operationId : String
  createdAt : Time

def GrantUse.key (u : GrantUse) : String × String := (u.runId, u.operationId)

structure WaitCandidate where
  id : String
  runId : String
  kind : WaitKind
  waitCycleId : String
  interruptId : String
  position : ℕ
  status : WaitStatus
  payloadJson : Json
  decisionJson : Option Json
  createdAt : Time
  resolvedAt : Option Time

structure Question where
  id : String
  runId : String
  toolCallId : Option String
  waitCycleId : String
  interruptId : String
  questionsJson : Json
  status : QuestionStatus
  answersJson : Option Json
  createdAt : Time
  answeredAt : Option Time

structure PlanApproval where
  id : String
  runId : String
  toolCallId : String
  waitCycleId : String
  interruptId : String
  todosJson : Json
  summary : String
  status : PlanStatus
  instructions : Option String
  createdAt : Time
  resolvedAt : Option Time

structure RunInput where
  runId : String
  inputId : String
  virtualPath : String
  originalName : String
  mediaType : String
  bytes : ℕ
  sha256 : String
  blobKey : String
  createdAt : Time

structure AssistantDraft where
  runId : String
  revision : ℕ
  messageKey : String
  content : String
  toolCallsJson : Json
  createdAt : Time
  updatedAt : Time

structure Steering where
  id : String
  runId : String
  content : String
  status : SteeringStatus
  createdAt : Time
  injectedAt : Option Time

structure Artifact where
  id : String
  runId : String
  title : String
  contentType : String
  createdAt : Time

structure AgentMessage where
  id : String
  rootRunId : String
  senderRunId : String
  recipientRunId : String
  senderOperationId : String
  kind : MessageKind
  text : String
  dataJson : Json
  artifactRefs : List String
  correlationId : String
  inReplyTo : Option String
  sequence : ℕ
  hopCount : ℕ
  status : MessageStatus
  ttlSeconds : ℕ
  deadlineAt : Time
  createdAt : Time
  deliveredAt : Option Time
  acknowledgedAt : Option Time

/-- `status IN ('queued', 'delivered')` -/
def AgentMessage.unacknowledged (m : AgentMessage) : Bool :=
  m.status = .queued || m.status = .delivered

/-! ## The event log -/

/-- `COALESCE(MAX(seq), 0)` over the events of a run. -/
def maxSeq (events : List Event) (runId : String) : ℕ :=
  ((events.filter fun e ↦ e.runId = runId).map Event.seq).foldr max 0

/-- Events in insertion order. Within a run the sequence numbers count
from one without a gap. -/
structure EventLog extends Table Event.id where
  gapless : ∀ runId, (rows.filter fun e ↦ e.runId = runId).map Event.seq =
    List.range' 1 (rows.filter fun e ↦ e.runId = runId).length

namespace EventLog

def empty : EventLog := ⟨Table.empty, fun _ ↦ rfl⟩

def ofRun (log : EventLog) (runId : String) : List Event :=
  log.rows.filter fun e ↦ e.runId = runId

theorem foldr_max_range' (s n : ℕ) : (List.range' (s + 1) n).foldr max 0 = if n = 0 then 0 else s + n := by
  induction n generalizing s with
  | zero => rfl
  | succ n ih =>
      rw [List.range'_succ, List.foldr_cons, ih]
      by_cases hn : n = 0
      · simp [hn]
      · simp only [hn, if_false, Nat.add_eq_zero_iff, one_ne_zero, and_false]
        omega

theorem maxSeq_eq_length (log : EventLog) (runId : String) :
    maxSeq log.rows runId = (log.ofRun runId).length := by
  unfold maxSeq
  rw [log.gapless runId, ← Nat.zero_add 1, foldr_max_range']
  unfold ofRun
  split <;> omega

/-- The next event of a run. -/
def next (log : EventLog) (id runId eventType : String) (payloadJson : Json)
    (createdAt : Time) : Event :=
  ⟨id, runId, maxSeq log.rows runId + 1, eventType, payloadJson, createdAt⟩

theorem gapless_next (log : EventLog) (id runId eventType : String) (payloadJson : Json)
    (createdAt : Time) (run : String) :
    let rows := log.rows ++ [log.next id runId eventType payloadJson createdAt]
    (rows.filter fun e ↦ e.runId = run).map Event.seq =
      List.range' 1 (rows.filter fun e ↦ e.runId = run).length := by
  intro rows
  simp only [rows, List.filter_append, List.map_append, List.length_append, log.gapless run]
  by_cases hrun : runId = run
  · subst hrun
    have hlen := log.maxSeq_eq_length runId
    unfold ofRun at hlen
    simp only [next, decide_true, List.filter_cons_of_pos, List.filter_nil, List.map_cons,
      List.map_nil, List.length_cons, List.length_nil, hlen]
    rw [List.range'_1_concat, Nat.add_comm 1]
  · simp [next, hrun]

/-- Append the next event of a run; `none` when the identifier is taken. -/
def append? (log : EventLog) (id runId eventType : String) (payloadJson : Json)
    (createdAt : Time) : Option EventLog :=
  match h : log.toTable.insert? (log.next id runId eventType payloadJson createdAt) with
  | none => none
  | some table => some ⟨table, by
      rw [Table.rows_of_insert? h]
      exact log.gapless_next id runId eventType payloadJson createdAt⟩

theorem rows_of_append? {log log' : EventLog} {id runId eventType : String} {payloadJson : Json}
    {createdAt : Time} (h : log.append? id runId eventType payloadJson createdAt = some log') :
    log'.rows = log.rows ++ [log.next id runId eventType payloadJson createdAt] := by
  unfold append? at h
  split at h
  · cases h
  · rename_i table htable
    cases h
    exact Table.rows_of_insert? htable

end EventLog

/-! ## The database -/

/-- The product projection: threads, their items and changes, and events. -/
structure Journal where
  threads : Table Thread.id
  items : Table ThreadItem.id
  changes : List ThreadChange
  events : EventLog

/-- What an execution attempt may have caused. -/
structure Ledger where
  toolReceipts : Table ToolReceipt.operationId
  modelCalls : Table ModelCall.id
  sandboxProcesses : Table SandboxProcess.id

structure Waits where
  permissions : Table Permission.id
  grantUses : Table GrantUse.key
  candidates : Table WaitCandidate.id
  questions : Table Question.id
  planApprovals : Table PlanApproval.id

structure Collaboration where
  coordination : Table ChildCoordination.childRunId
  dependencies : Table ChildDependency.key
  resourceClaims : Table ResourceClaim.key

structure Plugins where
  versions : List PluginVersion
  installations : List PluginInstallation
  bindings : List RunPluginBinding

structure Content where
  runInputs : List RunInput
  drafts : Table AssistantDraft.runId
  steering : Table Steering.id
  artifacts : List Artifact

structure Database where
  workspaces : List Workspace
  runs : Table Run.id
  jobs : Table Job.id
  commands : Table Command.key
  journal : Journal
  ledger : Ledger
  waits : Waits
  collaboration : Collaboration
  plugins : Plugins
  content : Content
  mailbox : Table AgentMessage.id

def Journal.empty : Journal := ⟨.empty, .empty, [], .empty⟩

def Ledger.empty : Ledger := ⟨.empty, .empty, .empty⟩

def Waits.empty : Waits := ⟨.empty, .empty, .empty, .empty, .empty⟩

/-- The database a fresh installation starts from. -/
def Database.empty : Database where
  workspaces := []
  runs := .empty
  jobs := .empty
  commands := .empty
  journal := .empty
  ledger := .empty
  waits := .empty
  collaboration := ⟨.empty, .empty, .empty⟩
  plugins := ⟨[], [], []⟩
  content := ⟨[], .empty, .empty, []⟩
  mailbox := .empty

end ShejaneRuntime.Store
