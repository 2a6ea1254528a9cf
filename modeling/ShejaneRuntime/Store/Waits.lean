import ShejaneRuntime.Store.ToolReceipts

/-!
# Durable waits

A waiting run has wait candidates: reviews of tool calls, questions, plan
approvals and tool reconciliations. Each belongs to a wait cycle and to an
interrupt of the graph; when every candidate of a cycle is resolved the
decisions make up the payload that resumes the run.
-/

namespace ShejaneRuntime.Store

open Lib

/-! ## Permission policy -/

/-- `IRREVERSIBLE_TOOLS` -/
def irreversibleTools : List String := ["office.delete_paragraph", "office.delete_slide"]

/-- `RUN_GRANT_RISKS` -/
def runGrantRisks : List String :=
  ["control_flow", "read_only", "runtime_state", "sandboxed_command", "workspace_write"]

/-- `can_grant_for_run` -/
def canGrantForRun (toolName : String) (risk : Option String) : Bool :=
  decide (toolName ∉ irreversibleTools) && risk.any fun r ↦ decide (r ∈ runGrantRisks)

/-- `require_allowed_permission_scope` -/
def requireAllowedPermissionScope (toolName : String) (risk : Option String)
    (status : PermissionStatus) (scope : PermissionScope) : StoreTxn Unit :=
  Txn.require (¬(status = .approved ∧ scope = .run ∧ canGrantForRun toolName risk = false))
    (.permissionScopeNotAllowed "this operation cannot be approved for the rest of the run")

/-! ## Creating waits -/

def pendingCandidate (id runId : String) (kind : WaitKind) (waitCycleId interruptId : String)
    (position : ℕ) (payloadJson : Json) (createdAt : Time) : WaitCandidate :=
  ⟨id, runId, kind, waitCycleId, interruptId, position, .pending, payloadJson, none, createdAt,
    none⟩

structure CreatePermission where
  runId : String
  toolCallId : String
  toolName : String
  arguments : Json
  toolVersion : String := ""
  operationId : Option String := none
  argumentsHash : Option String := none
  risk : Option String := none
  waitCycleId : Option String := none
  interruptId : Option String := none
  actionIndex : ℕ := 0
  scope : PermissionScope := .once

def CreatePermission.matches (c : CreatePermission) (p : Permission) : Bool :=
  p.toolCallId = some c.toolCallId && p.toolName = c.toolName && p.toolVersion = c.toolVersion &&
    p.argumentsHash = c.argumentsHash

def CreatePermission.row (c : CreatePermission) (id : String) (createdAt : Time) : Permission where
  id := id
  runId := c.runId
  toolCallId := some c.toolCallId
  waitCycleId := textOr c.waitCycleId id
  interruptId := textOr c.interruptId id
  actionIndex := c.actionIndex
  operationId := c.operationId
  toolName := c.toolName
  toolVersion := c.toolVersion
  argumentsHash := c.argumentsHash
  argumentsJson := Json.orEmpty (some c.arguments)
  risk := c.risk
  decisionJson := none
  status := .pending
  scope := c.scope
  grantMaxUses := 0
  grantUseCount := 0
  grantExpiresAt := none
  createdAt := createdAt
  resolvedAt := none

def CreatePermission.payload (c : CreatePermission) : Json :=
  encodePayload (.obj
    [("tool_call_id", .str c.toolCallId), ("operation_id", optText c.operationId),
     ("tool_name", .str c.toolName), ("tool_version", .str c.toolVersion),
     ("arguments_hash", optText c.argumentsHash), ("arguments", Json.orEmpty (some c.arguments)),
     ("risk", optText c.risk)])

def permissionForOperation (db : Database) (runId : String) (operationId : Option String) :
    Option Permission :=
  (nonEmpty operationId).bind fun operation ↦ db.waits.permissions.rows.find? fun p ↦
    p.runId = runId && p.operationId = some operation

/-- `create_permission`: the permission of an operation is created once. -/
def createPermission (lease : Option ExecutionLease) (c : CreatePermission) :
    StoreTxn Permission := do
  let existing ← Txn.read fun db ↦ permissionForOperation db c.runId c.operationId
  match existing with
  | some permission => do
    Txn.require (c.matches permission = true) (.permissionDecisionConflict
      "permission operation identity was reused with different content")
    pure permission
  | none => do
    let id ← newId "perm"
    let createdAt ← utcNow
    let permission := c.row id createdAt
    runWriteTransaction c.runId lease do
      insertPermission permission
      insertWaitCandidate (pendingCandidate id c.runId .toolReview permission.waitCycleId
        permission.interruptId permission.actionIndex c.payload createdAt)
      pure permission

/-- `create_question`: one question for each interrupt of a run. -/
def createQuestion (lease : Option ExecutionLease) (runId : String) (toolCallId : Option String)
    (questions : Json) (waitCycleId interruptId : Option String) : StoreTxn Question := do
  let existing ← Txn.read fun db ↦ (nonEmpty interruptId).bind fun interrupt ↦
    db.waits.questions.rows.find? fun q ↦ q.runId = runId && q.interruptId = interrupt
  match existing with
  | some question => pure question
  | none => do
    let id ← newId "q"
    let createdAt ← utcNow
    let question : Question :=
      ⟨id, runId, toolCallId, textOr waitCycleId id, textOr interruptId id, questions, .pending,
        none, createdAt, none⟩
    runWriteTransaction runId lease do
      insertQuestion question
      insertWaitCandidate (pendingCandidate id runId .question question.waitCycleId
        question.interruptId 0 questions createdAt)
      pure question

def insertPlanWait (lease : Option ExecutionLease) (plan : PlanApproval) :
    StoreTxn PlanApproval :=
  runWriteTransaction plan.runId lease do
    insertPlanApproval plan
    insertWaitCandidate (pendingCandidate plan.id plan.runId .plan plan.waitCycleId
      plan.interruptId 0 plan.todosJson plan.createdAt)
    pure plan

/-- Give a plan approval without a wait identity the one it waits under now. -/
def adoptPlanWait (lease : Option ExecutionLease) (plan : PlanApproval)
    (waitCycleId interruptId : String) : StoreTxn PlanApproval :=
  runWriteTransaction plan.runId lease do
    updatePlanApprovals (fun p ↦ p.id = plan.id) fun p ↦
      { p with waitCycleId := waitCycleId, interruptId := interruptId }
    Txn.catchIf (fun e ↦ match e with | .integrityError _ => true | _ => false)
      (insertWaitCandidate (pendingCandidate plan.id plan.runId .plan waitCycleId interruptId 0
        plan.todosJson plan.createdAt))
      (pure ())
    pure { plan with waitCycleId := waitCycleId, interruptId := interruptId }

/-- The plan approval of a tool call that was recorded before. -/
def recordedPlanWait (lease : Option ExecutionLease) (runId toolCallId : String)
    (waitCycleId interruptId : Option String) : StoreTxn PlanApproval := do
  let existing ← Txn.read fun db ↦ db.waits.planApprovals.rows.find? fun p ↦
    p.runId = runId && p.toolCallId = toolCallId
  let plan ← Txn.getOr existing (.runtimeError "assertion failed")
  match nonEmpty waitCycleId, nonEmpty interruptId with
  | some cycle, some interrupt =>
    if plan.waitCycleId = "" ∨ plan.interruptId = "" then adoptPlanWait lease plan cycle interrupt
    else pure plan
  | _, _ => pure plan

/-- `create_plan_approval`: one plan approval for each tool call of a run. -/
def createPlanApproval (lease : Option ExecutionLease) (runId toolCallId : String) (todos : Json)
    (summary : String) (waitCycleId interruptId : Option String) : StoreTxn PlanApproval := do
  let id ← newId "plan"
  let createdAt ← utcNow
  Txn.catchIf (fun e ↦ match e with | .integrityError _ => true | _ => false)
    (insertPlanWait lease
      ⟨id, runId, toolCallId, textOr waitCycleId id, textOr interruptId id, todos, summary,
        .pending, none, createdAt, none⟩)
    (recordedPlanWait lease runId toolCallId waitCycleId interruptId)

/-- `create_tool_reconciliation`: the candidate carries the identity of the
operation whose outcome is in doubt. -/
def createToolReconciliation (lease : Option ExecutionLease) (runId operationId waitCycleId
    interruptId : String) (payload : Json) : StoreTxn WaitCandidate := do
  let existing ← Txn.read fun db ↦ db.waits.candidates.find? operationId
  match existing with
  | some candidate => do
    Txn.require (candidate.runId = runId ∧ candidate.kind = .toolReconciliation)
      (.waitDecisionConflict "tool reconciliation identity was reused with different content")
    pure candidate
  | none => do
    let createdAt ← utcNow
    let candidate := pendingCandidate operationId runId .toolReconciliation waitCycleId interruptId
      0 (encodePayload payload) createdAt
    runWriteTransaction runId lease do
      insertWaitCandidate candidate
      pure candidate

/-! ## Resolving waits -/

def updatePermissionsCounted (p : Permission → Bool) (f : Permission → Permission)
    (hf : ∀ r, (f r).id = r.id := by intro; rfl) : StoreTxn ℕ := do
  let count ← Txn.read fun db ↦ db.waits.permissions.rowcount p
  updatePermissions p f hf
  pure count

/-- Resolve the pending candidate with this identity and count the rows. -/
def resolveCandidate (id : String) (decisionJson : Json) (now : Time) : StoreTxn ℕ := do
  let count ← Txn.read fun db ↦
    db.waits.candidates.rowcount fun c ↦ c.id = id && c.status = .pending
  updateWaitCandidates (fun c ↦ c.id = id && c.status = .pending) fun c ↦
    { c with status := .resolved, decisionJson := some decisionJson, resolvedAt := some now }
  pure count

/-- The statuses in which no decision is awaited any more. -/
def RunStatus.over (status : RunStatus) : Bool := status.terminal || status = .cleanupRequired

def grantMaxUses (status : PermissionStatus) (scope : PermissionScope) : ℤ :=
  if scope = .run ∧ status = .approved then -1 else 0

/-- Record the decision on a permission and count the rows. -/
def decidePermission (permissionId : String) (status : PermissionStatus) (scope : PermissionScope)
    (decisionJson : Json) (now : Time) : StoreTxn ℕ :=
  updatePermissionsCounted (fun p ↦ p.id = permissionId && p.status = .pending) fun p ↦
    { p with status := status, scope := scope, decisionJson := some decisionJson,
             grantMaxUses := grantMaxUses status scope, grantExpiresAt := none,
             resolvedAt := some now }

def decideRecordedPermission (record : Permission) (status : PermissionStatus)
    (scope : PermissionScope) (decisionJson : Json) (eventPayload : Option Json) :
    StoreTxn Unit := do
  let run? ← Txn.read fun db ↦ db.runs.find? record.runId
  Txn.require (run?.any (fun r ↦ !r.status.over) = true)
    (.waitDecisionConflict "run is not awaiting a decision")
  let now ← utcNow
  let rowcount ← decidePermission record.id status scope decisionJson now
  Txn.require (rowcount = 1)
    (.permissionDecisionConflict "permission was resolved concurrently")
  let resolvedAt ← utcNow
  let waitCount ← resolveCandidate record.id decisionJson resolvedAt
  Txn.require (waitCount = 1)
    (.waitDecisionConflict "permission wait candidate was resolved concurrently")
  match eventPayload with
  | none => pure ()
  | some payload => do
    let createdAt ← utcNow
    let _ ← appendEventUncommitted record.runId "permission.resolved" (encodePayload payload)
      createdAt
    pure ()

def defaultPermissionDecision : PermissionStatus → Json
  | .approved => .obj [("type", .str "approve")]
  | _ => .obj [("type", .str "reject")]

/-- `resolve_permission` -/
def resolvePermission (lease : Option ExecutionLease) (permissionId : String)
    (status : PermissionStatus) (scope : Option PermissionScope) (decision eventPayload : Option Json) :
    StoreTxn (Option Permission) := do
  Txn.require (status = .approved ∨ status = .denied)
    (.valueError "permission status must be approved or denied")
  let record? ← Txn.read fun db ↦ db.waits.permissions.find? permissionId
  match record? with
  | none => pure none
  | some record => do
    let requested := scope.getD record.scope
    requireAllowedPermissionScope record.toolName record.risk status requested
    let decisionJson := encodePayload
      ((decision.filter Json.truthy).getD (defaultPermissionDecision status))
    if record.status = .pending then do
      runWriteTransaction record.runId lease
        (decideRecordedPermission record status requested decisionJson eventPayload)
      Txn.read fun db ↦ db.waits.permissions.find? permissionId
    else do
      Txn.require (record.status = status ∧ record.scope = requested ∧
          record.decisionJson = some decisionJson)
        (.permissionDecisionConflict
          "permission was already resolved with a different decision")
      pure (some record)

/-- Record the answers to a question and count the rows. -/
def decideQuestion (questionId : String) (answersJson : Json) (now : Time) : StoreTxn ℕ := do
  let count ← Txn.read fun db ↦
    db.waits.questions.rowcount fun q ↦ q.id = questionId && q.status = .pending
  updateQuestions (fun q ↦ q.id = questionId && q.status = .pending) fun q ↦
    { q with status := .answered, answersJson := some answersJson, answeredAt := some now }
  pure count

def answerRecordedQuestion (record : Question) (answersJson : Json)
    (eventPayload : Option Json) (now : Time) : StoreTxn Unit := do
  let run? ← Txn.read fun db ↦ db.runs.find? record.runId
  Txn.require (run?.any (fun r ↦ !r.status.over) = true)
    (.waitDecisionConflict "run is not awaiting a decision")
  let rowcount ← decideQuestion record.id answersJson now
  let waitCount ← resolveCandidate record.id answersJson now
  Txn.require (rowcount = 1 ∧ waitCount = 1)
    (.waitDecisionConflict "question was answered concurrently")
  match eventPayload with
  | none => pure ()
  | some payload => do
    let _ ← appendEventUncommitted record.runId "question.answered" (encodePayload payload) now
    pure ()

/-- `answer_question` -/
def answerQuestion (lease : Option ExecutionLease) (questionId : String) (answers : Json)
    (eventPayload : Option Json) : StoreTxn (Option Question) := do
  let record? ← Txn.read fun db ↦ db.waits.questions.find? questionId
  match record? with
  | none => pure none
  | some record =>
    if record.status = .pending then do
      let now ← utcNow
      runWriteTransaction record.runId lease
        (answerRecordedQuestion record (encodePayload answers) eventPayload now)
      Txn.read fun db ↦ db.waits.questions.find? questionId
    else do
      Txn.require (encodePayload (Json.orEmpty record.answersJson) = encodePayload answers)
        (.waitDecisionConflict "question was already answered with different content")
      pure (some record)

/-- The run grant that covers a tool at a version and risk: the latest. -/
def runGrant (db : Database) (runId toolName toolVersion risk : String) : Option Permission :=
  let grants := db.waits.permissions.select fun p ↦
    p.runId = runId && p.toolName = toolName && p.toolVersion = toolVersion &&
      p.risk = some risk && p.status = .approved && p.scope = .run
  (grants.insertionSort fun a b ↦ b.resolvedAt.getD 0 ≤ a.resolvedAt.getD 0).head?

def useRunGrant (grant : Permission) (runId operationId : String) : StoreTxn Bool := do
  let createdAt ← utcNow
  insertGrantUse ⟨grant.id, runId, operationId, createdAt⟩
  let rowcount ← updatePermissionsCounted (fun p ↦ p.id = grant.id) fun p ↦
    { p with grantUseCount := p.grantUseCount + 1 }
  Txn.require (rowcount = 1)
    (.permissionDecisionConflict "permission grant changed concurrently")
  pure true

/-- `consume_run_permission_grant`: apply a grant of the run to one operation. -/
def consumeRunPermissionGrant (lease : Option ExecutionLease) (runId operationId toolName
    toolVersion risk : String) : StoreTxn Bool :=
  runWriteTransaction runId lease do
    let existing ← Txn.read fun db ↦ db.waits.grantUses.find? (runId, operationId)
    let grant? ← Txn.read fun db ↦ runGrant db runId toolName toolVersion risk
    match existing, grant? with
    | some _, _ => pure true
    | none, none => pure false
    | none, some grant => useRunGrant grant runId operationId

/-! ## The payload of a wait cycle -/

/-- `ORDER BY interrupt_id, position` -/
def cycleCandidates (db : Database) (runId waitCycleId : String) : List WaitCandidate :=
  (db.waits.candidates.select fun c ↦ c.runId = runId && c.waitCycleId = waitCycleId).insertionSort
    fun a b ↦ a.interruptId < b.interruptId ∨
      (a.interruptId = b.interruptId ∧ a.position ≤ b.position)

def WaitCandidate.decision (c : WaitCandidate) : Json := c.decisionJson.getD (.obj [])

/-- What resumes one interrupt: the list of its review decisions, or the one
decision on anything else. -/
def interruptResume (candidates : List WaitCandidate) : Option Json :=
  if candidates.all fun c ↦ c.kind = .toolReview then
    some (.obj [("decisions", .arr (candidates.map WaitCandidate.decision))])
  else
    match candidates with
    | [candidate] => some candidate.decision
    | _ => none

/-- The candidates of each interrupt, in the order the interrupts come up. -/
def interruptGroups (rows : List WaitCandidate) : List (String × List WaitCandidate) :=
  (rows.map WaitCandidate.interruptId).dedup.map fun interrupt ↦
    (interrupt, rows.filter fun c ↦ c.interruptId = interrupt)

def unsupportedGroup (interruptId : String) : StoreError :=
  .waitDecisionConflict s!"unsupported wait candidate group for interrupt {interruptId}"

def resumeGroup (group : String × List WaitCandidate) : StoreTxn (String × Json) := do
  let resume ← Txn.getOr (interruptResume group.2) (unsupportedGroup group.1)
  pure (group.1, resume)

/-- `_wait_cycle_resume_payload_uncommitted`: the payload that resumes the
graph, once every candidate of the cycle is resolved. -/
def waitCycleResumePayload (runId waitCycleId : String) : StoreTxn (Option Json) := do
  let rows ← Txn.read fun db ↦ cycleCandidates db runId waitCycleId
  if rows = [] ∨ rows.any (fun c ↦ c.status ≠ .resolved) = true then pure none
  else do
    let resume ← (interruptGroups rows).mapM resumeGroup
    pure (some (.obj resume))

/-! ## Tool reconciliation -/

/-- The ancestors of a run that belong to its principal, nearest first; the
chain is followed through 65 parents at most. -/
def ownedAncestors (db : Database) (owner : String) : ℕ → Option String → List String
  | 0, _ => []
  | _, none => []
  | depth + 1, some id =>
    match db.runs.find? id with
    | none => []
    | some ancestor =>
      if ancestor.principalId = owner then
        id :: ownedAncestors db owner depth ancestor.parentRunId
      else []

def isOwnedAncestor (db : Database) (runId ancestorId : String) : Bool :=
  match db.runs.find? runId with
  | none => false
  | some run => decide (ancestorId ∈ ownedAncestors db run.principalId 65 run.parentRunId)

structure ReconciliationResults where
  currentResultJson : Option Json
  currentResultHash : Option String
  priorResultJson : Json
  priorResultHash : String

def priorOperationId (candidate : WaitCandidate) : String :=
  let prior := Json.textOrEmpty ((jsonPayload (some candidate.payloadJson)).get? "prior_operation_id")
  if prior = "" then candidate.id else prior

def reconciledStatus (decision : ReconcileDecision) : ReceiptStatus :=
  if decision = .confirmedCompleted then .completed else .failed

def reconciledError (decision : ReconcileDecision) : Option String :=
  if decision = .confirmedCompleted then none else some "ReconciledByUser"

/-- Settle the uncertain receipt, and the receipt of the repetition that
waits for it; a retry makes the operation startable again. -/
def reconcileReceipts (candidateId prior : String) (runId : String) (decision : ReconcileDecision)
    (results : ReconciliationResults) (now : Time) : StoreTxn (List String) := do
  let priorCount ← updateToolReceiptsCounted
    (fun r ↦ r.operationId = prior && r.status = .outcomeUnknown)
    fun r ↦ { r with status := reconciledStatus decision,
                     resultJson := some results.priorResultJson,
                     resultHash := some results.priorResultHash,
                     errorType := reconciledError decision, completedAt := some now,
                     updatedAt := now }
  Txn.require (priorCount = 1) (.waitDecisionConflict
    "tool reconciliation source is no longer outcome_unknown")
  if prior = candidateId then do
    Txn.when (decision = .retryNotExecuted) <|
      updateToolReceipts (fun r ↦ r.operationId = candidateId) fun r ↦
        { r with status := .prepared, resultJson := none, resultHash := none, errorType := none,
                 completedAt := none, updatedAt := now }
    pure [prior]
  else if decision = .retryNotExecuted then pure [prior]
  else do
    let currentCount ← updateToolReceiptsCounted
      (fun r ↦ r.operationId = candidateId && r.runId = runId && r.status = .prepared)
      fun r ↦ { r with status := reconciledStatus decision,
                       resultJson := results.currentResultJson,
                       resultHash := results.currentResultHash,
                       errorType := reconciledError decision, completedAt := some now,
                       updatedAt := now }
    Txn.require (currentCount = 1) (.waitDecisionConflict
      "current tool reconciliation receipt is no longer prepared")
    pure [prior, candidateId]

/-- The two receipts of a reconciliation exist, and the uncertain one belongs
to the run or to an ancestor of the same principal. -/
def requireReconciliationReceipts (candidate : WaitCandidate) : StoreTxn Unit := do
  let current ← findToolReceiptInRun candidate.id candidate.runId
  let prior? ← findToolReceipt (priorOperationId candidate)
  let prior ← Txn.getOr (current.bind fun _ ↦ prior?)
    (.waitDecisionConflict "tool reconciliation receipt is missing")
  let owned ← Txn.read fun db ↦ isOwnedAncestor db candidate.runId prior.runId
  Txn.require (prior.runId = candidate.runId ∨ owned = true)
    (.waitDecisionConflict "tool reconciliation source is not an owned ancestor")

def reconciliationDecision (decision : ReconcileDecision) : Json :=
  encodePayload (.obj [("decision", .str decision.text)])

/-- Apply a decision to a pending reconciliation. -/
def applyReconciliation (candidate : WaitCandidate) (decision : ReconcileDecision)
    (results : ReconciliationResults) : StoreTxn WaitCandidate := do
  requireReconciliationReceipts candidate
  let now ← utcNow
  let projected ← reconcileReceipts candidate.id (priorOperationId candidate) candidate.runId
    decision results now
  let rowcount ← resolveCandidate candidate.id (reconciliationDecision decision) now
  Txn.require (rowcount = 1)
    (.waitDecisionConflict "tool reconciliation was resolved concurrently")
  forM projected fun operationId ↦ do
    let _ ← projectedToolReceipt operationId
    pure ()
  let updated ← Txn.read fun db ↦ db.waits.candidates.find? candidate.id
  Txn.getOr updated (.runtimeError "assertion failed")

/-- `_resolve_tool_reconciliation_uncommitted`: the flag tells whether the
decision is new. -/
def resolveToolReconciliationUncommitted (candidateId : String) (decision : ReconcileDecision)
    (results : ReconciliationResults) : StoreTxn (WaitCandidate × Bool) := do
  let record? ← Txn.read fun db ↦ (db.waits.candidates.find? candidateId).filter fun c ↦
    c.kind = .toolReconciliation
  let candidate ← Txn.getOr record? (.keyError candidateId)
  if candidate.status = .pending then do
    let updated ← applyReconciliation candidate decision results
    pure (updated, true)
  else do
    Txn.require (candidate.decisionJson = some (reconciliationDecision decision))
      (.waitDecisionConflict "tool reconciliation was already resolved differently")
    pure (candidate, false)

/-- `resolve_tool_reconciliation` -/
def resolveToolReconciliation (lease : Option ExecutionLease) (candidateId : String)
    (decision : ReconcileDecision) (results : ReconciliationResults) :
    StoreTxn (Option WaitCandidate) := do
  let record? ← Txn.read fun db ↦ (db.waits.candidates.find? candidateId).filter fun c ↦
    c.kind = .toolReconciliation
  match record? with
  | none => pure none
  | some record =>
    runWriteTransaction record.runId lease do
      let (updated, _) ← resolveToolReconciliationUncommitted candidateId decision results
      pure (some updated)

end ShejaneRuntime.Store
