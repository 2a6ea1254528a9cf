import ShejaneRuntime.Store.RunJobs
import ShejaneRuntime.Store.Waits

/-!
# Commands that answer waits

Four commands decide the candidates of a waiting run: a question is
answered, a permission or a plan is resolved, a tool outcome is
reconciled. Each of them ends by resuming the run when the wait cycle of
the candidate it decided has no pending candidate left.
-/

namespace ShejaneRuntime.Store

open Lib

/-- The status of a run in which a decision counts as having resumed it. -/
def RunStatus.pastWait : RunStatus → Bool
  | .queued | .running | .completed | .failed => true
  | _ => false

/-- Enqueue the resume job of a waiting run, unless it has one. -/
def enqueueResumeJob (run : Run) (payload : Json) : StoreTxn Bool := do
  let active ← findActiveJob run.id
  match active with
  | none => do
    let _ ← createRunJob run .resume (some payload)
    pure true
  | some job => do
    Txn.require (job.kind = .resume)
      (.waitDecisionConflict "run already has a different active job")
    pure true

/-- `_resume_resolved_wait_uncommitted`. The run is the row the command
read when it began; the cycle is the one of the candidate it decided. -/
def resumeResolvedWaitUncommitted (run : Run) (waitCycleId : String) : StoreTxn Bool := do
  let payload ← waitCycleResumePayload run.id waitCycleId
  match payload with
  | some resume =>
    if run.status.waiting then enqueueResumeJob run resume else pure run.status.pastWait
  | none => pure run.status.pastWait

/-- The run of a wait, when it belongs to the principal. -/
def waitingRun (principalId runId : String) : StoreTxn (Option Run) :=
  findOwnedRun principalId runId

/-- Resume what can be resumed and record the receipt of the command. -/
def finishWaitCommand (principalId commandId commandType : String) (payloadJson : Json) (run : Run)
    (waitCycleId : String) (receipt : Bool → Json) (createdAt : StoreTxn Time) :
    StoreTxn Json := do
  let resumed ← resumeResolvedWaitUncommitted run waitCycleId
  let recordedAt ← createdAt
  recordCommandReceiptUncommitted principalId commandId commandType payloadJson (receipt resumed)
    recordedAt (some run.id)
  pure (receipt resumed)

/-- Record that a candidate was decided: both of its rows were pending. -/
def publishDecision (runId : String) (rowcount : ℕ) (candidateId : String) (decisionJson : Json)
    (now : Time) (conflict eventType : String) (payload : Json) : StoreTxn Unit := do
  let waitCount ← resolveCandidate candidateId decisionJson now
  Txn.require (rowcount = 1 ∧ waitCount = 1) (.waitDecisionConflict conflict)
  let _ ← appendEventUncommitted runId eventType (encodePayload payload) now
  pure ()

/-! ## Questions -/

def questionPayload (questionId : String) (answers : Json) : Json :=
  encodePayload (.obj
    [("type", .str "question.answer"), ("question_id", .str questionId), ("answers", answers)])

def questionReceipt (commandId questionId runId : String) (resumed : Bool) : Json :=
  .obj [("type", .str "question.answer"), ("command_id", .str commandId),
        ("question_id", .str questionId), ("run_id", .str runId), ("answered", .bool true),
        ("resumed", .bool resumed)]

def answerPendingQuestion (run : Run) (questionId : String) (answers : Json) : StoreTxn Unit := do
  Txn.require (run.status.waiting = true)
    (.waitDecisionConflict "run is not awaiting a question answer")
  let now ← utcNow
  let rowcount ← decideQuestion questionId (encodePayload answers) now
  publishDecision run.id rowcount questionId (encodePayload answers) now
    "question was answered concurrently" "question.answered"
    (.obj [("request_id", .str questionId), ("answers", answers)])

/-- Answer a pending question, or check a repeated answer. -/
def settleQuestion (run : Run) (question : Question) (answers : Json) : StoreTxn Unit :=
  if question.status = .pending then answerPendingQuestion run question.id answers
  else
    Txn.require (question.status = .answered ∧ question.answersJson = some (encodePayload answers))
      (.waitDecisionConflict "question was already resolved with different content")

/-- `request_question_answer_command` -/
def requestQuestionAnswerCommand (principalId commandId questionId : String) (answers : Json) :
    StoreTxn (Json × Bool) :=
  acceptCommand principalId commandId "question.answer" (questionPayload questionId answers) do
    let question? ← Txn.read fun db ↦ db.waits.questions.find? questionId
    let question ← Txn.getOr question? (.keyError s!"unknown question: {questionId}")
    let run? ← waitingRun principalId question.runId
    let run ← Txn.getOr run? (.keyError s!"unknown question: {questionId}")
    requireWorkspace principalId run.workspacePath
    settleQuestion run question answers
    finishWaitCommand principalId commandId "question.answer" (questionPayload questionId answers)
      run question.waitCycleId (questionReceipt commandId questionId run.id) utcNow

/-! ## Permissions -/

inductive PermissionDecision where
  | approve
  | edit (editedAction : Json)
  | deny
  deriving DecidableEq

namespace PermissionDecision

def text : PermissionDecision → String
  | approve => "approve"
  | edit _ => "edit"
  | deny => "deny"

def status : PermissionDecision → PermissionStatus
  | approve => .approved
  | edit _ => .approved
  | deny => .denied

/-- The decision the review middleware is resumed with. -/
def json : PermissionDecision → Json
  | approve => encodePayload (.obj [("type", .str "approve")])
  | edit editedAction => encodePayload (.obj [("type", .str "edit"), ("edited_action", editedAction)])
  | deny => encodePayload (.obj
      [("type", .str "reject"), ("message", .str "Tool execution denied by user.")])

/-- An edit may not replace the tool. -/
def keepsTool (decision : PermissionDecision) (toolName : String) : Bool :=
  match decision with
  | edit editedAction => editedAction.get? "name" = some (.str toolName)
  | _ => true

end PermissionDecision

def permissionPayload (permissionId : String) (decision : PermissionDecision)
    (scope : PermissionScope) : Json :=
  encodePayload (.obj <|
    [("type", .str "permission.resolve"), ("permission_id", .str permissionId),
     ("decision", .str decision.text), ("scope", .str scope.text)] ++
    match decision with
    | .edit editedAction => [("edited_action", editedAction)]
    | _ => [])

def permissionReceipt (commandId permissionId runId : String) (decision : PermissionDecision)
    (scope : PermissionScope) (resumed : Bool) : Json :=
  .obj [("type", .str "permission.resolve"), ("command_id", .str commandId),
        ("permission_id", .str permissionId), ("run_id", .str runId), ("resolved", .bool true),
        ("decision", .str decision.text), ("scope", .str scope.text), ("resumed", .bool resumed)]

def resolvePendingPermission (run : Run) (permission : Permission) (decision : PermissionDecision)
    (scope : PermissionScope) : StoreTxn Unit := do
  Txn.require (run.status.waiting = true)
    (.waitDecisionConflict "run is not awaiting a permission decision")
  let now ← utcNow
  let rowcount ← decidePermission permission.id decision.status scope decision.json now
  publishDecision run.id rowcount permission.id decision.json now
    "permission was resolved concurrently" "permission.resolved"
    (.obj [("request_id", .str permission.id), ("tool", .str permission.toolName),
           ("tool_name", .str permission.toolName),
           ("operation_id", optText permission.operationId), ("decision", .str decision.text),
           ("scope", .str scope.text)])

/-- Resolve a pending permission, or check a repeated decision. -/
def settlePermission (run : Run) (permission : Permission) (decision : PermissionDecision)
    (scope : PermissionScope) : StoreTxn Unit :=
  if permission.status = .pending then resolvePendingPermission run permission decision scope
  else
    Txn.require (permission.status = decision.status ∧ permission.scope = scope ∧
        permission.decisionJson = some decision.json)
      (.waitDecisionConflict "permission was already resolved with a different decision")

/-- `request_permission_resolve_command` -/
def requestPermissionResolveCommand (principalId commandId permissionId : String)
    (decision : PermissionDecision) (scope : PermissionScope) : StoreTxn (Json × Bool) :=
  acceptCommand principalId commandId "permission.resolve"
      (permissionPayload permissionId decision scope) do
    let permission? ← Txn.read fun db ↦ db.waits.permissions.find? permissionId
    let permission ← Txn.getOr permission? (.keyError s!"unknown permission: {permissionId}")
    let run? ← waitingRun principalId permission.runId
    let run ← Txn.getOr run? (.keyError s!"unknown permission: {permissionId}")
    requireWorkspace principalId run.workspacePath
    Txn.require (decision.keepsTool permission.toolName = true)
      (.waitDecisionConflict "tool name cannot be changed")
    requireAllowedPermissionScope permission.toolName permission.risk decision.status scope
    settlePermission run permission decision scope
    finishWaitCommand principalId commandId "permission.resolve"
      (permissionPayload permissionId decision scope) run permission.waitCycleId
      (permissionReceipt commandId permissionId run.id decision scope) utcNow

/-! ## Plan approvals -/

inductive PlanDecision where
  | approve | modify | reject
  deriving DecidableEq, Repr

namespace PlanDecision

def text : PlanDecision → String
  | approve => "approve"
  | modify => "modify"
  | reject => "reject"

def status : PlanDecision → PlanStatus
  | approve => .approved
  | modify => .modified
  | reject => .rejected

end PlanDecision

def planPayload (approvalId : String) (decision : PlanDecision) (instructions : Option String) :
    Json :=
  encodePayload (.obj <|
    [("type", .str "plan.resolve"), ("approval_id", .str approvalId),
     ("decision", .str decision.text)] ++
    match instructions with
    | some text => [("instructions", .str text)]
    | none => [])

def planDecisionJson (approvalId : String) (decision : PlanDecision)
    (instructions : Option String) : Json :=
  encodePayload (.obj
    [("approval_id", .str approvalId), ("decision", .str decision.text),
     ("instructions", optText instructions)])

def planReceipt (commandId approvalId runId : String) (decision : PlanDecision)
    (instructions : Option String) (resumed : Bool) : Json :=
  .obj [("type", .str "plan.resolve"), ("command_id", .str commandId),
        ("approval_id", .str approvalId), ("run_id", .str runId), ("resolved", .bool true),
        ("decision", .str decision.text), ("instructions", optText instructions),
        ("resumed", .bool resumed)]

/-- Record the decision on a plan and count the rows. -/
def decidePlan (approvalId : String) (status : PlanStatus) (instructions : Option String)
    (now : Time) : StoreTxn ℕ := do
  let count ← Txn.read fun db ↦
    db.waits.planApprovals.rowcount fun p ↦ p.id = approvalId && p.status = .pending
  updatePlanApprovals (fun p ↦ p.id = approvalId && p.status = .pending) fun p ↦
    { p with status := status, instructions := instructions, resolvedAt := some now }
  pure count

def resolvePendingPlan (run : Run) (approvalId : String) (decision : PlanDecision)
    (instructions : Option String) : StoreTxn Unit := do
  Txn.require (run.status.waiting = true)
    (.waitDecisionConflict "run is not awaiting a plan approval decision")
  let now ← utcNow
  let rowcount ← decidePlan approvalId decision.status instructions now
  publishDecision run.id rowcount approvalId (planDecisionJson approvalId decision instructions) now
    "plan approval was resolved concurrently" "plan.approval_resolved"
    (.obj [("request_id", .str approvalId), ("decision", .str decision.text),
           ("instructions", optText instructions)])

/-- Resolve a pending plan approval, or check a repeated decision. -/
def settlePlan (run : Run) (plan : PlanApproval) (decision : PlanDecision)
    (instructions : Option String) : StoreTxn Unit :=
  if plan.status = .pending then resolvePendingPlan run plan.id decision instructions
  else
    Txn.require (plan.status = decision.status ∧ plan.instructions = instructions)
      (.waitDecisionConflict "plan approval was already resolved with a different decision")

/-- `request_plan_resolve_command` -/
def requestPlanResolveCommand (principalId commandId approvalId : String) (decision : PlanDecision)
    (instructions : Option String) : StoreTxn (Json × Bool) :=
  acceptCommand principalId commandId "plan.resolve"
      (planPayload approvalId decision instructions) do
    let plan? ← Txn.read fun db ↦ db.waits.planApprovals.find? approvalId
    let plan ← Txn.getOr plan? (.keyError s!"unknown plan approval: {approvalId}")
    let run? ← waitingRun principalId plan.runId
    let run ← Txn.getOr run? (.keyError s!"unknown plan approval: {approvalId}")
    requireWorkspace principalId run.workspacePath
    settlePlan run plan decision instructions
    finishWaitCommand principalId commandId "plan.resolve"
      (planPayload approvalId decision instructions) run plan.waitCycleId
      (planReceipt commandId approvalId run.id decision instructions) utcNow

/-! ## Tool reconciliations -/

def reconcilePayload (operationId : String) (decision : ReconcileDecision) : Json :=
  encodePayload (.obj
    [("type", .str "tool.reconcile"), ("operation_id", .str operationId),
     ("decision", .str decision.text)])

def reconcileReceipt (commandId operationId runId : String) (decision : ReconcileDecision)
    (resumed : Bool) : Json :=
  .obj [("type", .str "tool.reconcile"), ("command_id", .str commandId),
        ("operation_id", .str operationId), ("run_id", .str runId), ("resolved", .bool true),
        ("decision", .str decision.text), ("resumed", .bool resumed)]

/-- Publish a reconciliation that was not decided before. -/
def publishReconciliation (runId operationId : String) (decision : ReconcileDecision)
    (newlyResolved : Bool) (now : Time) : StoreTxn Unit :=
  Txn.when (newlyResolved = true) do
    let _ ← appendEventUncommitted runId "tool.reconciliation_resolved"
      (encodePayload (.obj
        [("request_id", .str operationId), ("operation_id", .str operationId),
         ("decision", .str decision.text)]))
      now
    pure ()

/-- `request_tool_reconcile_command` -/
def requestToolReconcileCommand (principalId commandId operationId : String)
    (decision : ReconcileDecision) (results : ReconciliationResults) : StoreTxn (Json × Bool) :=
  acceptCommand principalId commandId "tool.reconcile" (reconcilePayload operationId decision) do
    let candidate? ← Txn.read fun db ↦ (db.waits.candidates.find? operationId).filter fun c ↦
      c.kind = .toolReconciliation
    let candidate ← Txn.getOr candidate?
      (.keyError s!"unknown tool reconciliation: {operationId}")
    let run? ← waitingRun principalId candidate.runId
    let run ← Txn.getOr run? (.keyError s!"unknown tool reconciliation: {operationId}")
    requireWorkspace principalId run.workspacePath
    Txn.require (candidate.status = .pending → run.status.waiting = true)
      (.waitDecisionConflict "run is not awaiting a tool reconciliation decision")
    let (updated, newlyResolved) ←
      resolveToolReconciliationUncommitted operationId decision results
    let now ← utcNow
    publishReconciliation run.id operationId decision newlyResolved now
    finishWaitCommand principalId commandId "tool.reconcile" (reconcilePayload operationId decision)
      run updated.waitCycleId (reconcileReceipt commandId operationId run.id decision) (pure now)

end ShejaneRuntime.Store
