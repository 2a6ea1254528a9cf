import ShejaneRuntime.Lib.Trace
import ShejaneRuntime.Store.AgentMessages
import ShejaneRuntime.Store.Footprint
import ShejaneRuntime.Store.Threads

/-!
# The primitive writes

Every function of the store is a chain of the writes below. A write carries
what the statement behind it guarantees about the rows it touches, so that
an invariant of the database needs one check for each kind of write. Writes
that open something (a receipt, a wait) are kinds of their own and name the
run, since only an attempt of that run makes them.
-/

namespace ShejaneRuntime.Store

open Lib Lib.Txn

/-! ## What an update leaves alone -/

/-- A run without what its execution changes. -/
def Run.fixed (r : Run) : Run :=
  { r with status := .queued, graphDefinitionId := none, graphCheckpointId := none,
           updatedAt := 0, completedAt := none }

/-- A job without what the queue changes. -/
def Job.origin (j : Job) : Job :=
  { j with status := .pending, leaseOwner := none, leaseGeneration := 0, leaseExpiresAt := none,
           attempt := 0, cancelRequestedAt := none, quarantinedAt := none,
           quarantineReason := none, updatedAt := 0, finishedAt := none }

/-- An update of a job: only active jobs change, none becomes pending again,
and a job that stays leased stays with its attempt and its quarantine. -/
structure Job.Advances (j j' : Job) : Prop where
  origin : j'.origin = j.origin
  active : j.active = true
  taken : j'.status ≠ .pending
  pending : j.status = .pending → j'.status = .leased ∨ j'.status = .canceled
  held : j.status = .leased → j'.status = .leased →
    j'.leaseOwner = j.leaseOwner ∧ j'.leaseGeneration = j.leaseGeneration ∧
      (j.quarantinedAt.isSome → j'.quarantinedAt.isSome)
  generation : j.leaseGeneration ≤ j'.leaseGeneration

/-- A job as it is enqueued. -/
def Job.fresh (j : Job) : Prop :=
  j.status = .pending ∧ j.leaseGeneration = 0 ∧ j.quarantinedAt = none

/-- The identity of an operation. -/
def ToolReceipt.operation (r : ToolReceipt) : ToolReceipt :=
  { r with executionAttemptId := ⟨"", 0⟩, parentOperationId := none, status := .prepared,
           attemptCount := 0, resultJson := none, resultHash := none, errorType := none,
           reviewDecision := none, reviewSource := none, reviewReason := none,
           reviewModel := none, reviewedAt := none, startedAt := none, completedAt := none,
           updatedAt := 0 }

/-- The moves of a receipt. -/
def ReceiptStatus.reaches : ReceiptStatus → ReceiptStatus → Bool
  | prepared, status => status ∈ [prepared, running, rejected, failed, canceled]
  | paused, status => status ∈ [paused, running, canceled]
  | running, status => status ∉ [prepared]
  | outcomeUnknown, status => status ∈ [outcomeUnknown, completed, prepared, failed]
  | settled, status => status = settled

/-- An update of a receipt: it moves along an edge, and what is settled keeps
its result. Only a start changes the attempt. -/
structure ToolReceipt.Advances (r r' : ToolReceipt) : Prop where
  operation : r'.operation = r.operation
  status : r.status.reaches r'.status = true
  result : r.status.settled = true → r'.resultJson = r.resultJson ∧ r'.resultHash = r.resultHash
  attempt : r'.executionAttemptId = r.executionAttemptId ∨
    r.unstarted = true ∧ r'.status = .running

/-- `status IN ('prepared', 'paused', 'running')` -/
def ToolReceipt.open (r : ToolReceipt) : Bool := r.unstarted || r.status = .running

/-- What reserving a model call fixes for good. -/
def ModelCall.fixed (c : ModelCall) : ModelCall :=
  { c with status := .reserved, outputStarted := false, inputTokens := none, outputTokens := none,
           errorCode := none, completedAt := none }

/-- An open model call ends. -/
structure ModelCall.Ends (c c' : ModelCall) : Prop where
  wasOpen : c.open = true
  closed : c'.open = false
  fixed : c'.fixed = c.fixed
  output : c'.outputStarted = c.outputStarted

/-- A candidate without its decision. -/
def WaitCandidate.ask (c : WaitCandidate) : WaitCandidate :=
  { c with status := .pending, decisionJson := none, resolvedAt := none }

def Permission.ask (p : Permission) : Permission :=
  { p with status := .pending, scope := .once, decisionJson := none, grantMaxUses := 0,
           grantUseCount := 0, grantExpiresAt := none, resolvedAt := none }

def Question.ask (q : Question) : Question :=
  { q with status := .pending, answersJson := none, answeredAt := none }

def PlanApproval.ask (p : PlanApproval) : PlanApproval :=
  { p with status := .pending, instructions := none, resolvedAt := none }

/-- A message without the marks of its delivery. -/
def AgentMessage.sent (m : AgentMessage) : AgentMessage :=
  { m with status := .queued, deliveredAt := none, acknowledgedAt := none }

/-- The moves of a message. -/
def MessageStatus.reaches : MessageStatus → MessageStatus → Bool
  | queued, status => status ∈ [delivered, expired]
  | delivered, status => status ∈ [acknowledged, expired]
  | _, _ => false

/-- An update of a message: it moves along an edge. -/
structure AgentMessage.Moves (m m' : AgentMessage) : Prop where
  sent : m'.sent = m.sent
  status : m.status.reaches m'.status = true

/-! ## Journal calls that belong together -/

/-- Append an event of a run and show its status in the thread. -/
def publishEvent (runId : String) (status : RunStatus) (eventType : String)
    (payloadJson payload : Json) (at' : Time) : StoreTxn Event := do
  let (event, _) ← appendEventUncommitted runId eventType payloadJson at'
  updateThreadProjectionUncommitted runId status eventType payload event.seq at'
  pure event

/-- Append an event of a run and touch its thread. -/
def reportEvent (runId eventType : String) (payloadJson : Json) (at' : Time) :
    StoreTxn Event := do
  let (event, _) ← appendEventUncommitted runId eventType payloadJson at'
  touchThreadForRunEventUncommitted runId eventType event.seq at'
  pure event

/-! ## The writes -/

inductive Kind where
  | workspace | run | graphHead | newRun | job | newJob | command | event | subagent | lifecycle | turn
  | thread
  | receipt | openReceipt (runId : String) | reconcile (operationId : String) | call | openCall | sandbox
  | wait | openWait (runId : String) | grant | collaboration | plugin | content
  | message | newMessage
  deriving DecidableEq

def Kind.parts : Kind → List Part
  | workspace => [.workspaces]
  | run | graphHead | newRun => [.runs]
  | job | newJob => [.jobs]
  | command => [.commands]
  | event | subagent | turn | thread => [.journal]
  | lifecycle => [.journal, .lifecycle]
  | receipt | openReceipt _ | reconcile _ | call | openCall | sandbox => [.ledger]
  | wait | openWait _ | grant => [.waits]
  | collaboration => [.collaboration]
  | plugin => [.plugins]
  | content => [.content]
  | message | newMessage => [.mailbox]

inductive Write : Kind → Database → Database → Prop
  | workspaces {db : Database} (ws : List Workspace) :
      Write .workspace db { db with workspaces := ws }
  | runs {db : Database} {p : Run → Bool} {f : Run → Run} {hf : ∀ r, (f r).id = r.id} :
      (∀ r ∈ db.runs.rows, p r = true →
        (f r).fixed = r.fixed ∧ (f r).graphCheckpointId = r.graphCheckpointId) →
      Write .run db { db with runs := db.runs.update p f hf }
  | heads {db : Database} {p : Run → Bool} {f : Run → Run} {hf : ∀ r, (f r).id = r.id} :
      (∀ r ∈ db.runs.rows, p r = true →
        f r = { r with graphCheckpointId := (f r).graphCheckpointId,
                       updatedAt := (f r).updatedAt }) →
      Write .graphHead db { db with runs := db.runs.update p f hf }
  | newRun {db db' : Database} {run : Run} :
      Effect (insertRun run) db db' → run.status = .queued → Write .newRun db db'
  | jobs {db : Database} {p : Job → Bool} {f : Job → Job} {hf : ∀ j, (f j).id = j.id} :
      (∀ j ∈ db.jobs.rows, p j = true → j.Advances (f j)) →
      Write .job db { db with jobs := db.jobs.update p f hf }
  | newJob {db db' : Database} {job : Job} :
      Effect (insertRunJob job) db db' → job.fresh → Write .newJob db db'
  | command {db db' : Database} {command : Command} :
      Effect (insertCommand command) db db' → Write .command db db'
  | event {db db' : Database} {runId eventType : String} {payloadJson : Json} {at' : Time} :
      isLifecycleEvent eventType = false →
      Effect (appendEventUncommitted runId eventType payloadJson at') db db' → Write .event db db'
  | report {db db' : Database} {runId eventType : String} {payloadJson : Json} {at' : Time} :
      isLifecycleEvent eventType = false →
      Effect (reportEvent runId eventType payloadJson at') db db' → Write .event db db'
  | subagent {db db' : Database} {receipt : ToolReceipt} :
      Effect (appendSubagentReceiptEventUncommitted receipt) db db' → Write .subagent db db'
  | lifecycle {db db' : Database} {runId eventType : String} {payloadJson : Json} {at' : Time} :
      isLifecycleEvent eventType = true →
      Effect (appendEventUncommitted runId eventType payloadJson at') db db' →
      Write .lifecycle db db'
  | publish {db db' : Database} {runId eventType : String} {status : RunStatus}
      {payloadJson payload : Json} {at' : Time} :
      isLifecycleEvent eventType = true →
      Effect (publishEvent runId status eventType payloadJson payload at') db db' →
      Write .lifecycle db db'
  | turn {db : Database} (journal : Journal) :
      journal.events = db.journal.events → Write .turn db { db with journal := journal }
  | thread {db db' : Database} {thread : Thread} {f : Thread → Thread}
      {hf : ∀ t, (f t).id = t.id} {changeType : String} {now : Time} :
      db.journal.threads.find? thread.id = some thread →
      (∀ t, (f t).principalId = t.principalId) →
      Effect (onJournal fun _ ↦ Journal.advanceThread thread f changeType now hf) db db' →
      Write .thread db db'
  | receipts {db : Database} {p : ToolReceipt → Bool} {f : ToolReceipt → ToolReceipt}
      {hf : ∀ r, (f r).operationId = r.operationId} :
      (∀ r ∈ db.ledger.toolReceipts.rows, p r = true →
        r.Advances (f r) ∧ ((f r).open = true → r.open = true)) →
      (∀ r, (f r).parentOperationId = r.parentOperationId) →
      Write .receipt db { db with ledger := { db.ledger with
        toolReceipts := db.ledger.toolReceipts.update p f hf } }
  | backfilled {db : Database} {p : ToolReceipt → Bool} {f : ToolReceipt → ToolReceipt}
      {hf : ∀ r, (f r).operationId = r.operationId} (runId : String) :
      (∀ r ∈ db.ledger.toolReceipts.rows, p r = true →
        r.Advances (f r) ∧ ((f r).open = true → r.open = true)) →
      Write (.openReceipt runId) db { db with ledger := { db.ledger with
        toolReceipts := db.ledger.toolReceipts.update p f hf } }
  | newReceipt {db db' : Database} {receipt : ToolReceipt} :
      Effect (insertToolReceipt receipt) db db' → receipt.status = .prepared →
      Write (.openReceipt receipt.runId) db db'
  | retried {db : Database} {p : ToolReceipt → Bool} {f : ToolReceipt → ToolReceipt}
      {hf : ∀ r, (f r).operationId = r.operationId} {runId : String} :
      (∀ r ∈ db.ledger.toolReceipts.rows, p r = true → r.runId = runId ∧ r.Advances (f r)) →
      Write (.openReceipt runId) db { db with ledger := { db.ledger with
        toolReceipts := db.ledger.toolReceipts.update p f hf } }
  | reconcile {db db' : Database} {candidateId prior runId : String}
      {decision : ReconcileDecision} {results : ReconciliationResults} {now : Time} :
      Effect (reconcileReceipts candidateId prior runId decision results now) db db' →
      Write (.reconcile candidateId) db db'
  | calls {db : Database} {p : ModelCall → Bool} {f : ModelCall → ModelCall}
      {hf : ∀ c, (f c).id = c.id} :
      (∀ c ∈ db.ledger.modelCalls.rows, p c = true → c.Ends (f c)) →
      Write .call db { db with ledger := { db.ledger with
        modelCalls := db.ledger.modelCalls.update p f hf } }
  | newCall {db db' : Database} {call : ModelCall} :
      Effect (insertModelCall call) db db' → call.status = .reserved → Write .openCall db db'
  | output {db : Database} {p : ModelCall → Bool} {f : ModelCall → ModelCall}
      {hf : ∀ c, (f c).id = c.id} :
      (∀ c ∈ db.ledger.modelCalls.rows, p c = true →
        c.open = true ∧ f c = { c with status := .streaming, outputStarted := true }) →
      Write .openCall db { db with ledger := { db.ledger with
        modelCalls := db.ledger.modelCalls.update p f hf } }
  | sandboxes {db : Database} (processes : Table SandboxProcess.id) :
      Write .sandbox db { db with ledger := { db.ledger with sandboxProcesses := processes } }
  | permissions {db : Database} {p : Permission → Bool} {f : Permission → Permission}
      {hf : ∀ r, (f r).id = r.id} :
      (∀ r ∈ db.waits.permissions.rows, p r = true →
        (f r).ask = r.ask ∧ r.status = .pending ∧ (f r).status ≠ .pending) →
      Write .wait db { db with waits := { db.waits with
        permissions := db.waits.permissions.update p f hf } }
  | candidates {db : Database} {p : WaitCandidate → Bool} {f : WaitCandidate → WaitCandidate}
      {hf : ∀ r, (f r).id = r.id} :
      (∀ c ∈ db.waits.candidates.rows, p c = true →
        (f c).ask = c.ask ∧ c.status = .pending ∧ (f c).status = .resolved) →
      Write .wait db { db with waits := { db.waits with
        candidates := db.waits.candidates.update p f hf } }
  | questions {db : Database} {p : Question → Bool} {f : Question → Question}
      {hf : ∀ r, (f r).id = r.id} :
      (∀ q ∈ db.waits.questions.rows, p q = true →
        (f q).ask = q.ask ∧ q.status = .pending ∧ (f q).status ≠ .pending) →
      Write .wait db { db with waits := { db.waits with
        questions := db.waits.questions.update p f hf } }
  | plans {db : Database} {p : PlanApproval → Bool} {f : PlanApproval → PlanApproval}
      {hf : ∀ r, (f r).id = r.id} :
      (∀ q ∈ db.waits.planApprovals.rows, p q = true →
        (f q).ask = q.ask ∧ q.status = .pending ∧ (f q).status ≠ .pending) →
      Write .wait db { db with waits := { db.waits with
        planApprovals := db.waits.planApprovals.update p f hf } }
  | adopted {db : Database} {p : PlanApproval → Bool} {f : PlanApproval → PlanApproval}
      {hf : ∀ r, (f r).id = r.id} :
      (∀ q ∈ db.waits.planApprovals.rows, p q = true →
        f q = { q with waitCycleId := (f q).waitCycleId, interruptId := (f q).interruptId }) →
      Write .wait db { db with waits := { db.waits with
        planApprovals := db.waits.planApprovals.update p f hf } }
  | newPermission {db db' : Database} {permission : Permission} :
      Effect (insertPermission permission) db db' → Write (.openWait permission.runId) db db'
  | newCandidate {db db' : Database} {candidate : WaitCandidate} :
      Effect (insertWaitCandidate candidate) db db' → candidate.status = .pending →
      Write (.openWait candidate.runId) db db'
  | newQuestion {db db' : Database} {question : Question} :
      Effect (insertQuestion question) db db' → Write (.openWait question.runId) db db'
  | newPlan {db db' : Database} {plan : PlanApproval} :
      Effect (insertPlanApproval plan) db db' → Write (.openWait plan.runId) db db'
  | grantUse {db db' : Database} {use : GrantUse} :
      Effect (insertGrantUse use) db db' → Write .grant db db'
  | granted {db : Database} {p : Permission → Bool} {f : Permission → Permission}
      {hf : ∀ r, (f r).id = r.id} :
      (∀ r ∈ db.waits.permissions.rows, p r = true →
        f r = { r with grantUseCount := (f r).grantUseCount }) →
      Write .grant db { db with waits := { db.waits with
        permissions := db.waits.permissions.update p f hf } }
  | coordination {db db' : Database} {row : ChildCoordination} :
      Effect (insertCoordination row) db db' → Write .collaboration db db'
  | dependency {db db' : Database} {childRunId dependencyRunId : String} {createdAt : Time} :
      Effect (insertDependency childRunId createdAt dependencyRunId) db db' →
      Write .collaboration db db'
  | resourceClaim {db db' : Database} {rootRunId ownerRunId resourceKey : String}
      {createdAt : Time} :
      Effect (insertResourceClaim rootRunId ownerRunId createdAt resourceKey) db db' →
      Write .collaboration db db'
  | plugins {db : Database} (plugins : Plugins) : Write .plugin db { db with plugins := plugins }
  | content {db : Database} (content : Content) : Write .content db { db with content := content }
  | messages {db : Database} {p : AgentMessage → Bool} {f : AgentMessage → AgentMessage}
      {hf : ∀ m, (f m).id = m.id} :
      (∀ m ∈ db.mailbox.rows, p m = true → m.Moves (f m)) →
      Write .message db { db with mailbox := db.mailbox.update p f hf }
  | newMessage {db db' : Database} {message : AgentMessage} :
      Effect (insertAgentMessage message) db db' → message.status = .queued →
      Write .newMessage db db'

/-! ## Transactions as chains of writes -/

variable {α β : Type} {kinds kinds' : List Kind}

abbrev Writing (kinds : List Kind) : Database → Database → Prop := Trace Write kinds

/-- Every success of the transaction is a chain of writes of some kinds. -/
abbrev Does (kinds : List Kind) (m : StoreTxn α) : Prop := Keeps (Writing kinds) m

theorem Does.widen {m : StoreTxn α} (h : Does kinds m) (hsub : kinds ⊆ kinds') : Does kinds' m :=
  Keeps.mono h fun _ _ hdb ↦ hdb.widen hsub

theorem does_of_effect {k : Kind} {m : StoreTxn α}
    (h : ∀ db db', Effect m db db' → Write k db db') : Does [k] m :=
  keeps_of_effect fun db db' hm ↦ .single (h db db' hm) (by simp)

theorem reconcileReceipts_writes (candidateId prior runId : String) (decision : ReconcileDecision)
    (results : ReconciliationResults) (now : Time) :
    Writes [.ledger] (reconcileReceipts candidateId prior runId decision results now) := by
  refine .bind (updateToolReceiptsCounted_writes _ _ _) fun _ ↦ .bind (.require _ _) fun _ ↦ ?_
  refine .ite (.bind (.when (updateToolReceipts_writes _ _ _)) fun _ ↦ .pure _) ?_
  refine .ite (.pure _) ?_
  exact .bind (updateToolReceiptsCounted_writes _ _ _) fun _ ↦ .bind (.require _ _) fun _ ↦ .pure _

theorem onJournal_writes {m : Database → JournalTxn α} (h : ∀ db, Quiet (m db)) :
    Writes [.journal] (onJournal m) :=
  .bind (.read _) fun db ↦ .zoom (h db) fun db' _ hj ↦ .journal db' hj

theorem onJournal_writes_lifecycle {m : Database → JournalTxn α} :
    Writes [.journal, .lifecycle] (onJournal m) :=
  .bind (.read _) fun _ ↦ .zoom_any _ fun db' _ ↦ .lifecycle db' _

theorem appendEventUncommitted_writes (runId eventType : String) (payloadJson : Json)
    (createdAt : Time) (h : isLifecycleEvent eventType = false) :
    Writes [.journal] (appendEventUncommitted runId eventType payloadJson createdAt) :=
  onJournal_writes fun _ ↦ Journal.appendEvent_quiet _ _ _ _ _ h

theorem advanceThread_eventless (thread : Thread) (f : Thread → Thread) (changeType : String)
    (now : Time) (hf : ∀ t, (f t).id = t.id) :
    Eventless (Journal.advanceThread thread f changeType now hf) :=
  .bind (Journal.updateThreads_eventless _ _ _) fun _ ↦
    Journal.insertThreadChange_eventless _ _ _ _ _ _

theorem insertAgentMessage_writes (message : AgentMessage) :
    Writes [.mailbox] (insertAgentMessage message) :=
  .bind (keeps_requireRunRow _) fun _ ↦ .bind (keeps_requireRunRow _) fun _ ↦
    .bind (keeps_requireRunRow _) fun _ ↦ .bind (.read _) fun _ ↦ .bind (.require _ _) fun _ ↦
    .bind (.read _) fun _ ↦ .bind (.require _ _) fun _ ↦ keeps_insert fun db t ↦ .mailbox db t

theorem Write.within {k : Kind} {db db' : Database} (h : Write k db db') :
    Within k.parts db db' := by
  cases h with
  | workspaces ws =>
      intro p hp
      cases p <;> first | rfl | simp [Kind.parts] at hp
  | runs _ => exact .runs db _
  | heads _ => exact .runs db _
  | newRun h _ => exact h.relates (insertRun_writes _)
  | jobs _ => exact .jobs db _
  | newJob h _ => exact h.relates (insertRunJob_writes _)
  | command h => exact h.relates (insertCommand_writes _)
  | event hlife h => exact h.relates (appendEventUncommitted_writes _ _ _ _ hlife)
  | report hlife h =>
      exact h.relates (.bind (appendEventUncommitted_writes _ _ _ _ hlife) fun _ ↦
        .bind (onJournal_writes fun _ ↦ (Journal.touchThreadForRunEvent_eventless _ _ _ _ _).quiet)
          fun _ ↦ .pure _)
  | subagent h =>
      exact h.relates (onJournal_writes fun _ ↦ Journal.appendSubagentReceiptEvent_quiet _ _)
  | lifecycle _ h => exact h.relates onJournal_writes_lifecycle
  | publish _ h =>
      exact h.relates (.bind onJournal_writes_lifecycle fun _ ↦
        .bind onJournal_writes_lifecycle fun _ ↦ .pure _)
  | turn journal hevents =>
      apply Within.journal
      unfold Journal.lifecycle
      rw [hevents]
  | thread _ _ h =>
      exact h.relates (onJournal_writes fun _ ↦ (advanceThread_eventless _ _ _ _ _).quiet)
  | receipts _ _ => exact .ledger db _
  | backfilled _ _ => exact .ledger db _
  | newReceipt h _ => exact h.relates (insertToolReceipt_writes _)
  | retried _ => exact .ledger db _
  | reconcile h => exact h.relates (reconcileReceipts_writes _ _ _ _ _ _)
  | calls _ => exact .ledger db _
  | newCall h _ => exact h.relates (insertModelCall_writes _)
  | output _ => exact .ledger db _
  | sandboxes _ => exact .ledger db _
  | permissions _ => exact .waits db _
  | candidates _ => exact .waits db _
  | questions _ => exact .waits db _
  | plans _ => exact .waits db _
  | adopted _ => exact .waits db _
  | newPermission h => exact h.relates (insertPermission_writes _)
  | newCandidate h _ => exact h.relates (insertWaitCandidate_writes _)
  | newQuestion h => exact h.relates (insertQuestion_writes _)
  | newPlan h => exact h.relates (insertPlanApproval_writes _)
  | grantUse h => exact h.relates (insertGrantUse_writes _)
  | granted _ => exact .waits db _
  | coordination h => exact h.relates (keeps_insert fun db _ ↦ .collaboration db _)
  | dependency h => exact h.relates (keeps_insert fun db _ ↦ .collaboration db _)
  | resourceClaim h => exact h.relates (keeps_insert fun db _ ↦ .collaboration db _)
  | plugins plugins => exact .plugins db plugins
  | content content => exact .content db content
  | messages _ => exact .mailbox db _
  | newMessage h _ => exact h.relates (insertAgentMessage_writes _)

/-- A new head leaves the statuses of the runs alone. -/
theorem Write.statuses {db db' : Database} (h : Write .graphHead db db') (runId : String) :
    (db'.runs.find? runId).map Run.status = (db.runs.find? runId).map Run.status := by
  cases h with
  | heads hhead =>
      rw [Table.find?_update, Option.map_map]
      apply Option.map_congr
      intro r hr
      dsimp only [Function.comp_apply]
      split
      · rw [hhead r (Table.mem_of_find? hr) ‹_›]
      · rfl

/-- A chain of writes stays within the parts of its kinds. -/
theorem Writing.within {db db' : Database} (h : Writing kinds db db') :
    Within (kinds.flatMap Kind.parts) db db' :=
  h.relates fun k hk _ _ hw ↦ hw.within.widen fun _ hp ↦ List.mem_flatMap.mpr ⟨k, hk, hp⟩

theorem Does.writes {m : StoreTxn α} (h : Does kinds m) :
    Writes (kinds.flatMap Kind.parts) m :=
  Keeps.mono h fun _ _ hdb ↦ Writing.within hdb

/-- What a read returns may be what the writes after it rest on. -/
theorem does_bind_where {m : StoreTxn β} {f : β → StoreTxn α} {F : β → Prop}
    (hm : ∀ s, Post m s fun b s' ↦ Writing kinds s.db s'.db ∧ F b)
    (hf : ∀ b, F b → Does kinds (f b)) : Does kinds (m >>= f) := by
  intro s
  rw [post_bind]
  refine (hm s).mono ?_
  rintro b s' ⟨hdb, hF⟩
  exact (hf b hF s').mono fun _ _ hdb' ↦ trans_of (Writing kinds) hdb hdb'

/-! ## The writes of single statements -/

section Statements

theorem updateRuns_does {p : Run → Bool} {f : Run → Run} {hf : ∀ r, (f r).id = r.id}
    (h : ∀ r, (f r).fixed = r.fixed ∧ (f r).graphCheckpointId = r.graphCheckpointId) :
    Does [.run] (updateRuns p f hf) :=
  .write fun _ ↦ .single (.runs fun r _ _ ↦ h r) (by simp)

theorem insertRun_does {run : Run} (h : run.status = .queued) : Does [.newRun] (insertRun run) :=
  does_of_effect fun _ _ hm ↦ .newRun hm h

theorem updateJobs_post {p : Job → Bool} {f : Job → Job} {hf : ∀ j, (f j).id = j.id}
    {s : Session Database World} (h : ∀ j ∈ s.db.jobs.rows, p j = true → j.Advances (f j)) :
    Post (updateJobs p f hf) s fun _ s' ↦ Writing [.job] s.db s'.db :=
  (post_write _).mpr (.single (.jobs h) (by simp))

theorem updateJobs_does {p : Job → Bool} {f : Job → Job} {hf : ∀ j, (f j).id = j.id}
    (h : ∀ j, p j = true → j.Advances (f j)) : Does [.job] (updateJobs p f hf) :=
  fun _ ↦ updateJobs_post fun j _ ↦ h j

theorem updateJobsCounted_does {p : Job → Bool} {f : Job → Job} {hf : ∀ j, (f j).id = j.id}
    (h : ∀ j, p j = true → j.Advances (f j)) : Does [.job] (updateJobsCounted p f hf) :=
  .bind (.read _) fun _ ↦ .bind (updateJobs_does h) fun _ ↦ .pure _

theorem insertRunJob_does {job : Job} (h : job.fresh) : Does [.newJob] (insertRunJob job) :=
  does_of_effect fun _ _ hm ↦ .newJob hm h

theorem insertCommand_does (command : Command) : Does [.command] (insertCommand command) :=
  does_of_effect fun _ _ hm ↦ .command hm

theorem appendEventUncommitted_does (runId eventType : String) (payloadJson : Json) (at' : Time)
    (h : isLifecycleEvent eventType = false) :
    Does [.event] (appendEventUncommitted runId eventType payloadJson at') :=
  does_of_effect fun _ _ hm ↦ .event h hm

theorem reportEvent_does (runId eventType : String) (payloadJson : Json) (at' : Time)
    (h : isLifecycleEvent eventType = false) :
    Does [.event] (reportEvent runId eventType payloadJson at') :=
  does_of_effect fun _ _ hm ↦ .report h hm

theorem appendSubagentReceiptEventUncommitted_does (receipt : ToolReceipt) :
    Does [.subagent] (appendSubagentReceiptEventUncommitted receipt) :=
  does_of_effect fun _ _ hm ↦ .subagent hm

theorem publishEvent_does (runId : String) (status : RunStatus) (eventType : String)
    (payloadJson payload : Json) (at' : Time) (h : isLifecycleEvent eventType = true) :
    Does [.lifecycle] (publishEvent runId status eventType payloadJson payload at') :=
  does_of_effect fun _ _ hm ↦ .publish h hm

/-- A journal transaction of a turn appends no event. -/
theorem onJournal_does {m : Database → JournalTxn α} (h : ∀ db, Preserves Journal.events (m db)) :
    Does [.turn] (onJournal m) :=
  .bind (.read _) fun db ↦ .zoom (h db) fun _ journal hj ↦ .single (.turn journal hj) (by simp)

theorem updateToolReceipts_post {p : ToolReceipt → Bool} {f : ToolReceipt → ToolReceipt}
    {hf : ∀ r, (f r).operationId = r.operationId} {s : Session Database World}
    (hparent : ∀ r, (f r).parentOperationId = r.parentOperationId)
    (h : ∀ r ∈ s.db.ledger.toolReceipts.rows, p r = true →
      r.Advances (f r) ∧ ((f r).open = true → r.open = true)) :
    Post (updateToolReceipts p f hf) s fun _ s' ↦ Writing [.receipt] s.db s'.db :=
  (post_write _).mpr (.single (.receipts h hparent) (by simp))

theorem updateToolReceipts_does {p : ToolReceipt → Bool} {f : ToolReceipt → ToolReceipt}
    {hf : ∀ r, (f r).operationId = r.operationId}
    (hparent : ∀ r, (f r).parentOperationId = r.parentOperationId)
    (h : ∀ r, p r = true → r.Advances (f r) ∧ ((f r).open = true → r.open = true)) :
    Does [.receipt] (updateToolReceipts p f hf) :=
  fun _ ↦ updateToolReceipts_post hparent fun r _ ↦ h r

/-- An update that may name parents of receipts. -/
theorem backfillToolReceipts_does (runId : String) {p : ToolReceipt → Bool}
    {f : ToolReceipt → ToolReceipt} {hf : ∀ r, (f r).operationId = r.operationId}
    (h : ∀ r, p r = true → r.Advances (f r) ∧ ((f r).open = true → r.open = true)) :
    Does [.openReceipt runId] (updateToolReceipts p f hf) :=
  .write fun _ ↦ .single (.backfilled runId fun r _ ↦ h r) (by simp)

theorem updateToolReceiptsCounted_does {p : ToolReceipt → Bool} {f : ToolReceipt → ToolReceipt}
    {hf : ∀ r, (f r).operationId = r.operationId}
    (hparent : ∀ r, (f r).parentOperationId = r.parentOperationId)
    (h : ∀ r, p r = true → r.Advances (f r) ∧ ((f r).open = true → r.open = true)) :
    Does [.receipt] (updateToolReceiptsCounted p f hf) :=
  .bind (.read _) fun _ ↦ .bind (updateToolReceipts_does hparent h) fun _ ↦ .pure _

/-- An update that may open receipts of one run. -/
theorem reopenToolReceiptsCounted_does (runId : String) {p : ToolReceipt → Bool}
    {f : ToolReceipt → ToolReceipt} {hf : ∀ r, (f r).operationId = r.operationId}
    (h : ∀ r, p r = true → r.runId = runId ∧ r.Advances (f r)) :
    Does [.openReceipt runId] (updateToolReceiptsCounted p f hf) :=
  .bind (.read _) fun _ ↦ .bind (.write fun _ ↦ .single (.retried fun r _ ↦ h r) (by simp))
    fun _ ↦ .pure _

theorem insertToolReceipt_does {receipt : ToolReceipt} (h : receipt.status = .prepared) :
    Does [.openReceipt receipt.runId] (insertToolReceipt receipt) :=
  does_of_effect fun _ _ hm ↦ .newReceipt hm h

theorem updateModelCalls_does {p : ModelCall → Bool} {f : ModelCall → ModelCall}
    {hf : ∀ c, (f c).id = c.id} (h : ∀ c, p c = true → c.Ends (f c)) :
    Does [.call] (updateModelCalls p f hf) :=
  .write fun _ ↦ .single (.calls fun c _ ↦ h c) (by simp)

theorem insertModelCall_does {call : ModelCall} (h : call.status = .reserved) :
    Does [.openCall] (insertModelCall call) :=
  does_of_effect fun _ _ hm ↦ .newCall hm h

theorem updateSandboxProcesses_does (p : SandboxProcess → Bool)
    (f : SandboxProcess → SandboxProcess) (hf : ∀ s, (f s).id = s.id) :
    Does [.sandbox] (updateSandboxProcesses p f hf) :=
  .write fun _ ↦ .single (.sandboxes _) (by simp)

theorem insertSandboxProcess_does (process : SandboxProcess) :
    Does [.sandbox] (insertSandboxProcess process) :=
  .bind (keeps_requireRunRow _) fun _ ↦ keeps_insert fun _ _ ↦ .single (.sandboxes _) (by simp)

theorem updatePermissions_does {p : Permission → Bool} {f : Permission → Permission}
    {hf : ∀ r, (f r).id = r.id} (h : ∀ r, p r = true →
      (f r).ask = r.ask ∧ r.status = .pending ∧ (f r).status ≠ .pending) :
    Does [.wait] (updatePermissions p f hf) :=
  .write fun _ ↦ .single (.permissions fun r _ ↦ h r) (by simp)

theorem updateWaitCandidates_does {p : WaitCandidate → Bool}
    {f : WaitCandidate → WaitCandidate} {hf : ∀ r, (f r).id = r.id} (h : ∀ c, p c = true →
      (f c).ask = c.ask ∧ c.status = .pending ∧ (f c).status = .resolved) :
    Does [.wait] (updateWaitCandidates p f hf) :=
  .write fun _ ↦ .single (.candidates fun c _ ↦ h c) (by simp)

theorem updateQuestions_does {p : Question → Bool} {f : Question → Question}
    {hf : ∀ r, (f r).id = r.id} (h : ∀ q, p q = true →
      (f q).ask = q.ask ∧ q.status = .pending ∧ (f q).status ≠ .pending) :
    Does [.wait] (updateQuestions p f hf) :=
  .write fun _ ↦ .single (.questions fun q _ ↦ h q) (by simp)

theorem updatePlanApprovals_does {p : PlanApproval → Bool} {f : PlanApproval → PlanApproval}
    {hf : ∀ r, (f r).id = r.id} (h : ∀ q, p q = true →
      (f q).ask = q.ask ∧ q.status = .pending ∧ (f q).status ≠ .pending) :
    Does [.wait] (updatePlanApprovals p f hf) :=
  .write fun _ ↦ .single (.plans fun q _ ↦ h q) (by simp)

theorem insertPermission_does (permission : Permission) :
    Does [.openWait permission.runId] (insertPermission permission) :=
  does_of_effect fun _ _ hm ↦ .newPermission hm

theorem insertWaitCandidate_does {candidate : WaitCandidate} (h : candidate.status = .pending) :
    Does [.openWait candidate.runId] (insertWaitCandidate candidate) :=
  does_of_effect fun _ _ hm ↦ .newCandidate hm h

theorem insertQuestion_does (question : Question) :
    Does [.openWait question.runId] (insertQuestion question) :=
  does_of_effect fun _ _ hm ↦ .newQuestion hm

theorem insertPlanApproval_does (plan : PlanApproval) :
    Does [.openWait plan.runId] (insertPlanApproval plan) :=
  does_of_effect fun _ _ hm ↦ .newPlan hm

theorem insertGrantUse_does (use : GrantUse) : Does [.grant] (insertGrantUse use) :=
  does_of_effect fun _ _ hm ↦ .grantUse hm

theorem updateAgentMessages_does {p : AgentMessage → Bool} {f : AgentMessage → AgentMessage}
    {hf : ∀ m, (f m).id = m.id} (h : ∀ m, p m = true → m.Moves (f m)) :
    Does [.message] (updateAgentMessages p f hf) :=
  .write fun _ ↦ .single (.messages fun m _ ↦ h m) (by simp)

theorem insertAgentMessage_does {message : AgentMessage} (h : message.status = .queued) :
    Does [.newMessage] (insertAgentMessage message) :=
  does_of_effect fun _ _ hm ↦ .newMessage hm h

theorem insertSteering_does (steering : Steering) : Does [.content] (insertSteering steering) :=
  .bind (keeps_requireRunRow _) fun _ ↦ keeps_insert fun _ _ ↦ .single (.content _) (by simp)

end Statements

end ShejaneRuntime.Store
