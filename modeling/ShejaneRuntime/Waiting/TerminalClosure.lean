import ShejaneRuntime.Waiting.Endings

/-!
# Ended runs are closed

Only attempts open receipts and waits, and the run of an attempt is running.
So a run that was closed when it ended stays closed. A cancel closes the
waits of the run it ends, the other transactions do not, and none closes a
receipt that is running: runs must end clean.
-/

namespace ShejaneRuntime.Store

open Lib Lib.Txn Lockstep

/-! ## Attempts -/

/-- A job of the run is held by a worker. -/
def RunHeld (db : Database) (runId : String) : Prop :=
  ∃ job ∈ db.jobs.rows, job.runId = runId ∧ job.status = .leased ∧ job.quarantinedAt.isNone = true

theorem runHeld_of_fenced {db : Database} {runId : String} {lease : Option ExecutionLease}
    (h : Fenced db runId lease) (hsome : lease.isSome = true) : RunHeld db runId := by
  obtain ⟨held, rfl⟩ := Option.isSome_iff_exists.mp hsome
  obtain ⟨hrun, at', job, hjob, hadmits⟩ := h held rfl
  have hleased := leased_of_admits hadmits
  simp only [Job.admits, Job.leasedTo, Bool.and_eq_true, decide_eq_true_eq] at hadmits
  exact ⟨job, hjob, hadmits.1.1.1.1.1.2.trans hrun, hleased, hadmits.1.2⟩

theorem not_ended_of_held {db : Database} (h : Locked announces (fun _ ↦ True) (abs db))
    {runId : String} (hheld : RunHeld db runId) : ¬RunEnded db runId := by
  obtain ⟨job, hjob, rfl, hleased, hnot⟩ := hheld
  rintro ⟨run, hrun, hterminal⟩
  have hrunning := h.status_of_held (job_of_mem hjob)
    ⟨hleased, by simpa [Job.view, Option.isSome_eq_false_iff] using hnot⟩
  have hstatus := status_of_find? hrun
  rw [show job.view.run = job.runId from rfl, hstatus, Option.some.injEq] at hrunning
  rw [hrunning] at hterminal
  cases hterminal

theorem post_fenced {s : Session Database World} {runId : String} {lease : Option ExecutionLease}
    {body : StoreTxn α} (hsome : lease.isSome = true) :
    Post (runWriteTransaction runId lease body) s fun _ s' ↦
      s'.db = s.db ∨ RunHeld s.db runId :=
  post_runWriteTransaction fun _ hfenced _ _ _ ↦ .inr (runHeld_of_fenced hfenced hsome)

theorem createPermission_fenced {lease : Option ExecutionLease} (hsome : lease.isSome = true)
    (c : CreatePermission) (s : Session Database World) :
    Post (createPermission lease c) s fun _ s' ↦ s'.db = s.db ∨ RunHeld s.db c.runId := by
  unfold createPermission
  rw [post_bind, post_read]
  split
  · rw [post_bind, post_require]
    exact fun _ ↦ (post_pure _).mpr (.inl rfl)
  · rw [post_bind]
    refine post_newId fun id w ↦ ?_
    rw [post_bind]
    exact post_utcNow fun now w' ↦ post_fenced (s := ⟨s.db, w'⟩) hsome

theorem createQuestion_fenced {lease : Option ExecutionLease} (hsome : lease.isSome = true)
    (runId : String) (toolCallId : Option String) (questions : Json)
    (waitCycleId interruptId : Option String) (s : Session Database World) :
    Post (createQuestion lease runId toolCallId questions waitCycleId interruptId) s fun _ s' ↦
      s'.db = s.db ∨ RunHeld s.db runId := by
  unfold createQuestion
  rw [post_bind, post_read]
  split
  · exact (post_pure _).mpr (.inl rfl)
  · rw [post_bind]
    refine post_newId fun id w ↦ ?_
    rw [post_bind]
    exact post_utcNow fun now w' ↦ post_fenced (s := ⟨s.db, w'⟩) hsome

theorem recordedPlanWait_fenced {lease : Option ExecutionLease} (hsome : lease.isSome = true)
    (runId toolCallId : String) (waitCycleId interruptId : Option String)
    (s : Session Database World) :
    Post (recordedPlanWait lease runId toolCallId waitCycleId interruptId) s fun _ s' ↦
      s'.db = s.db ∨ RunHeld s.db runId := by
  unfold recordedPlanWait adoptPlanWait
  rw [post_bind, post_read, post_bind, post_getOr]
  intro plan hplan
  have hrun : plan.runId = runId := by
    have hfound := List.find?_some hplan
    simp only [Bool.and_eq_true, decide_eq_true_eq] at hfound
    exact hfound.1
  split
  · rw [post_ite]
    refine ⟨fun _ ↦ ?_, fun _ ↦ (post_pure _).mpr (.inl rfl)⟩
    rw [← hrun]
    exact post_fenced hsome
  · exact (post_pure _).mpr (.inl rfl)

theorem createPlanApproval_fenced {lease : Option ExecutionLease} (hsome : lease.isSome = true)
    (runId toolCallId : String) (todos : Json) (summary : String)
    (waitCycleId interruptId : Option String) (s : Session Database World) :
    Post (createPlanApproval lease runId toolCallId todos summary waitCycleId interruptId) s
      fun _ s' ↦ s'.db = s.db ∨ RunHeld s.db runId := by
  unfold createPlanApproval
  rw [post_bind]
  refine post_newId fun id w ↦ ?_
  rw [post_bind]
  exact post_utcNow fun now w' ↦ post_catchIf (post_fenced (s := ⟨s.db, w'⟩) hsome)
    (recordedPlanWait_fenced hsome runId toolCallId waitCycleId interruptId _)

theorem createToolReconciliation_fenced {lease : Option ExecutionLease}
    (hsome : lease.isSome = true) (runId operationId waitCycleId interruptId : String)
    (payload : Json) (s : Session Database World) :
    Post (createToolReconciliation lease runId operationId waitCycleId interruptId payload) s
      fun _ s' ↦ s'.db = s.db ∨ RunHeld s.db runId := by
  unfold createToolReconciliation
  rw [post_bind, post_read]
  split
  · rw [post_bind, post_require]
    exact fun _ ↦ (post_pure _).mpr (.inl rfl)
  · rw [post_bind]
    exact post_utcNow fun now w' ↦ post_fenced (s := ⟨s.db, w'⟩) hsome

/-! ## Reconciliations -/

/-- A reconciliation is applied to a candidate that is pending, of the run
whose receipt carries its identity. -/
def Reconcilable (db : Database) (candidateId : String) : Prop :=
  ∃ candidate ∈ db.waits.candidates.rows, candidate.status = .pending ∧
    ∃ receipt, db.ledger.toolReceipts.find? candidateId = some receipt ∧
      receipt.runId = candidate.runId

theorem resolveToolReconciliation_asks (candidateId : String) (decision : ReconcileDecision)
    (results : ReconciliationResults) (s : Session Database World) :
    Post (resolveToolReconciliationUncommitted candidateId decision results) s fun _ s' ↦
      s'.db = s.db ∨ Reconcilable s.db candidateId := by
  unfold resolveToolReconciliationUncommitted
  rw [post_bind, post_read, post_bind, post_getOr]
  intro candidate hcandidate
  have hfind := (Option.filter_eq_some_iff.mp hcandidate).1
  have hid : candidate.id = candidateId := Table.key_of_find? hfind
  rw [post_ite]
  refine ⟨fun hpending ↦ ?_, fun _ ↦ ?_⟩
  · unfold applyReconciliation requireReconciliationReceipts findToolReceiptInRun findToolReceipt
    rw [post_bind, post_bind, post_bind, post_read, post_bind, post_read, post_bind, post_getOr]
    intro prior hprior _ _ _ updated s₁ _
    obtain ⟨receipt, hreceipt, _⟩ := Option.bind_eq_some_iff.mp hprior
    obtain ⟨hfound, hrun⟩ := Option.filter_eq_some_iff.mp hreceipt
    rw [hid] at hfound
    have hof : receipt.runId = candidate.runId := by simpa using hrun
    rw [post_pure]
    exact .inr ⟨candidate, Table.mem_of_find? hfind, hpending, receipt, hfound, hof⟩
  · rw [post_bind, post_require]
    exact fun _ ↦ (post_pure _).mpr (.inl rfl)

theorem Reconcilable.elsewhere {db : Database} {candidateId runId : String}
    (h : Reconcilable db candidateId) (hclosed : Closed db runId) :
    OperationElsewhere db candidateId runId := by
  obtain ⟨candidate, hcandidate, hpending, receipt, hreceipt, hrun⟩ := h
  intro r hr hid hof
  have hsame : r = receipt := by
    rw [← hid, Table.find?_of_mem hr, Option.some.injEq] at hreceipt
    exact hreceipt
  subst hsame
  exact hclosed.waits.candidates candidate hcandidate (hrun.symm.trans hof) hpending

/-- What is closed stays closed. -/
def StaysClosed (db db' : Database) : Prop := ∀ r, Closed db r → Closed db' r

instance : Std.Refl StaysClosed := ⟨fun _ _ h ↦ h⟩

instance : IsTrans Database StaysClosed := ⟨fun _ _ _ h h' r hr ↦ h' r (h r hr)⟩

theorem Does.staysClosed {kinds : List Kind} {m : StoreTxn α} (h : Does kinds m)
    (hreceipt : ∀ r, Kind.openReceipt r ∉ kinds) (hwait : ∀ r, Kind.openWait r ∉ kinds)
    (hreconcile : ∀ c, Kind.reconcile c ∉ kinds) : Keeps StaysClosed m :=
  Keeps.mono h fun _ _ hwriting r hclosed ↦
    hwriting.closed (fun r' hr' ↦ absurd hr' (hreceipt r')) (hwait r) hreconcile hclosed

theorem resolveToolReconciliationUncommitted_staysClosed (candidateId : String)
    (decision : ReconcileDecision) (results : ReconciliationResults) :
    Keeps StaysClosed (resolveToolReconciliationUncommitted candidateId decision results) := by
  intro s
  refine ((resolveToolReconciliation_asks candidateId decision results s).and
    (resolveToolReconciliationUncommitted_does candidateId decision results s)).mono ?_
  rintro _ s' ⟨hsame | hasks, hwriting⟩ r hclosed
  · rwa [hsame]
  · have helse := hasks.elsewhere hclosed
    exact hwriting.closed_of_elsewhere (by simp) (by simp) (by simp) helse hclosed

theorem resolveToolReconciliation_staysClosed (lease : Option ExecutionLease)
    (candidateId : String) (decision : ReconcileDecision) (results : ReconciliationResults) :
    Keeps StaysClosed (resolveToolReconciliation lease candidateId decision results) := by
  refine .bind (.read _) fun record? ↦ ?_
  cases record? with
  | none => exact .pure _
  | some record =>
      exact keeps_runWriteTransaction <|
        .bind (resolveToolReconciliationUncommitted_staysClosed _ _ _) fun _ ↦ .pure _

theorem requestToolReconcileCommand_staysClosed (principalId commandId operationId : String)
    (decision : ReconcileDecision) (results : ReconciliationResults) :
    Keeps StaysClosed
      (requestToolReconcileCommand principalId commandId operationId decision results) :=
  keeps_acceptCommand <| .bind (.read _) fun _ ↦ .bind (.getOr _ _) fun _ ↦
    .bind (keeps_waitingRun _ _) fun _ ↦ .bind (.getOr _ _) fun _ ↦
    .bind (keeps_requireWorkspace _ _) fun _ ↦ .bind (.require _ _) fun _ ↦
    .bind (resolveToolReconciliationUncommitted_staysClosed _ _ _) fun _ ↦
    .bind keeps_utcNow fun _ ↦
    .bind ((publishReconciliation_does _ _ _ _ _).staysClosed (by simp) (by simp) (by simp))
      fun _ ↦
    (finishWaitCommand_does _ _ _ _ _ _ _ _ (.pure _)).staysClosed (by simp) (by simp) (by simp)

/-! ## Every operation -/

/-- What opens receipts and waits is called by attempts alone. -/
def StoreOp.fenced : StoreOp → Prop
  | createPermission lease _ => lease.isSome = true
  | createQuestion lease _ _ _ _ _ => lease.isSome = true
  | createPlanApproval lease _ _ _ _ _ _ => lease.isSome = true
  | createToolReconciliation lease _ _ _ _ _ => lease.isSome = true
  | prepareToolReceipt lease _ => lease.isSome = true
  | reconcileToolReceipt lease _ _ _ _ _ => lease.isSome = true
  | _ => True

/-- The store an operation finds when it ends runs. -/
def StoreOp.endsFrom : StoreOp → Database → World → Database
  | claimRunJob _ _, db, w => requeued db w
  | _, db, _ => db

/-- The runs an operation ends, if it goes through. -/
def StoreOp.endings (op : StoreOp) (db : Database) (w : World) : List String :=
  match op with
  | commitRunResult _ runId status _ _ _ => if status.terminal then [runId] else []
  | confirmQuarantinedCleanup runId _ _ _ _ => [runId]
  | requestRunCancelTree runId => (cancelTree db runId).filter (cancelable db)
  | requestRunCancelCommand _ _ runId => (cancelTree db runId).filter (cancelable db)
  | claimRunJob _ _ => blockedRuns (requeued db w)
  | _ => []

/-- Canceling a run closes its waits. -/
def StoreOp.cancels : StoreOp → Bool
  | requestRunCancelTree _ | requestRunCancelCommand _ _ _ | claimRunJob _ _ => true
  | _ => false

/-- No tool runs in a run that is ended, and, unless it is canceled, nothing
of it waits for an answer. -/
def StoreOp.endsClean (op : StoreOp) (db : Database) (w : World) : Prop :=
  ∀ runId ∈ op.endings db w, ¬RunEnded db runId →
    NoneRunning (op.endsFrom db w) runId ∧ (op.cancels = false → NonePending db runId)

theorem StoreOp.keeps_closed {op : StoreOp} {db : Database} (w : World) (hsound : Sound db)
    (hclosed : EndedRunsClosed db) (hfenced : op.fenced) (hclean : op.endsClean db w) :
    EndedRunsClosed (op.after db w) := by
  have hwriting := op.after_writing db w
  -- the transactions that end no run
  have hrest : Keeps EndsNone op.exec → Keeps StaysClosed op.exec →
      EndedRunsClosed (op.after db w) := by
    intro hends hstays r hr
    exact hstays.commit db w r (hclosed r (hends.commit db w r hr))
  have hplain : Kind.run ∉ op.kinds → (∀ r, Kind.openReceipt r ∉ op.kinds) →
      (∀ r, Kind.openWait r ∉ op.kinds) → (∀ c, Kind.reconcile c ∉ op.kinds) →
      EndedRunsClosed (op.after db w) := by
    intro hrun hreceipt hwait hreconcile
    exact hrest (op.exec_does.endsNone hrun) (op.exec_does.staysClosed hreceipt hwait hreconcile)
  -- the transactions that open something for a run that is held
  have hopens : ∀ runId, Kind.run ∉ op.kinds → (∀ r, Kind.openReceipt r ∈ op.kinds → r = runId) →
      (∀ r, Kind.openWait r ∈ op.kinds → r = runId) → (∀ c, Kind.reconcile c ∉ op.kinds) →
      Post op.exec ⟨db, w⟩ (fun _ s ↦ s.db = db ∨ RunHeld db runId) →
      EndedRunsClosed (op.after db w) := by
    intro runId hrun hreceipt hwait hreconcile hpost r hr
    have hbefore := (op.exec_does.endsNone hrun).commit db w r hr
    have hheld : op.after db w = db ∨ RunHeld db runId :=
      (StoreOp.after_post _ (Q := fun db' ↦ db' = db ∨ RunHeld db runId) hpost).elim .inl id
    rcases hheld with hsame | hheld
    · rw [hsame]
      exact hclosed r hbefore
    · have hne : r ≠ runId := fun hc ↦ not_ended_of_held hsound.locked hheld (hc ▸ hbefore)
      refine hwriting.closed (fun r' hr' ↦ ?_) (fun hr' ↦ hne (hwait r hr')) hreconcile
        (hclosed r hbefore)
      rw [hreceipt r' hr']
      exact hne.symm
  -- the transactions that end runs
  have hcancels : ∀ runId, op.endings db w = (cancelTree db runId).filter (cancelable db) →
      op.endsFrom db w = db → Post op.exec ⟨db, w⟩
        (fun _ s ↦ Cancels (· ∈ cancelTree db runId) db s.db) → EndedRunsClosed (op.after db w) := by
    intro runId hendings hfrom hpost r hr
    rcases StoreOp.after_post _ hpost with hsame | hcancels
    · rw [hsame] at hr ⊢
      exact hclosed r hr
    · rcases hcancels.ended r hr with hbefore | ⟨htarget, hcancelable, hcloses⟩
      · exact hcancels.closed r (hclosed r hbefore)
      · by_cases hbefore : RunEnded db r
        · exact hcancels.closed r (hclosed r hbefore)
        · have hmem : r ∈ op.endings db w := by
            rw [hendings]
            exact List.mem_filter.mpr ⟨htarget, hcancelable⟩
          have hnone := (hclean r hmem hbefore).1
          rw [hfrom] at hnone
          exact hcloses hnone
  have hresults : ∀ runId, runId ∈ op.endings db w ∨ op.endings db w = [] →
      op.endsFrom db w = db → op.cancels = false →
      (∀ r, Kind.openReceipt r ∉ op.kinds) → (∀ r, Kind.openWait r ∉ op.kinds) →
      (∀ c, Kind.reconcile c ∉ op.kinds) →
      Post op.exec ⟨db, w⟩ (fun _ s ↦ ∀ r, RunEnded s.db r → RunEnded db r ∨
        r = runId ∧ op.endings db w ≠ [] ∧ (NoneRunning db r → NoneOpen s.db r)) →
      EndedRunsClosed (op.after db w) := by
    intro runId hendings hfrom hcancel hreceipt hwait hreconcile hpost r hr
    have hstays := (op.exec_does.staysClosed hreceipt hwait hreconcile).commit db w
    rcases StoreOp.after_post _ (Q := fun db' ↦ ∀ r, RunEnded db' r → RunEnded db r ∨
        r = runId ∧ op.endings db w ≠ [] ∧ (NoneRunning db r → NoneOpen db' r)) hpost with
      hsame | hends
    · rw [hsame] at hr ⊢
      exact hclosed r hr
    · by_cases hbefore : RunEnded db r
      · exact hstays r (hclosed r hbefore)
      · obtain ⟨rfl, hsome, hcloses⟩ := (hends r hr).resolve_left hbefore
        obtain ⟨hnone, hpending⟩ := hclean r (hendings.resolve_right hsome) hbefore
        rw [hfrom] at hnone
        refine ⟨hcloses hnone, ?_⟩
        refine Trace.preserves (P := fun db ↦ NonePending db r) ?_ hwriting (hpending hcancel)
        rintro k hk db db' hw
        exact hw.nonePending fun hc ↦ hwait r (hc ▸ hk)
  cases op with
  | requeueExpiredRunJobs =>
      refine hrest (.bind keeps_utcNow fun now ↦ requeueExpiredJobs_endsNone now) ?_
      exact (StoreOp.exec_does _).staysClosed (by simp [StoreOp.kinds]) (by simp [StoreOp.kinds])
        (by simp [StoreOp.kinds])
  | quarantineExecutionAttempt lease runId reason payload =>
      refine hrest (.map _ (quarantineExecutionAttempt_endsNone _ _ _ _)) ?_
      exact (StoreOp.exec_does _).staysClosed (by simp [StoreOp.kinds]) (by simp [StoreOp.kinds])
        (by simp [StoreOp.kinds])
  | ensureLostExecutionQuarantined runId jobId leaseOwner leaseGeneration =>
      refine hrest (.map _ (ensureLostExecutionQuarantined_endsNone _ _ _ _)) ?_
      exact (StoreOp.exec_does _).staysClosed (by simp [StoreOp.kinds]) (by simp [StoreOp.kinds])
        (by simp [StoreOp.kinds])
  | bindGraphDefinition lease runId definitionId =>
      refine hrest (bindGraphDefinition_endsNone _ _ _) ?_
      exact (StoreOp.exec_does _).staysClosed (by simp [StoreOp.kinds]) (by simp [StoreOp.kinds])
        (by simp [StoreOp.kinds])
  | advanceGraphCheckpoint lease runId graphThreadId expectedCheckpointId checkpointId =>
      refine hrest (advanceGraphCheckpoint_endsNone _ _ _ _ _) ?_
      exact (StoreOp.exec_does _).staysClosed (by simp [StoreOp.kinds]) (by simp [StoreOp.kinds])
        (by simp [StoreOp.kinds])
  | commitRunResult lease runId status eventType payload orphanRecovery =>
      refine hresults runId ?_ rfl rfl (by simp [StoreOp.kinds]) (by simp [StoreOp.kinds])
        (by simp [StoreOp.kinds]) ((post_map _ _).mpr ?_)
      · by_cases hst : status.terminal = true
        · exact .inl (by simp [StoreOp.endings, hst])
        · exact .inr (by simp [StoreOp.endings, hst])
      · refine (commitRunResult_ends lease runId status eventType payload orphanRecovery
          ⟨db, w⟩).mono ?_
        intro _ s' h r hr
        refine (h r hr).imp id fun hend ↦ ⟨hend.1, ?_, hend.2.2⟩
        simp [StoreOp.endings, hend.2.1]
  | confirmQuarantinedCleanup runId jobId leaseOwner leaseGeneration payload =>
      refine hresults runId (.inl (by simp [StoreOp.endings])) rfl rfl (by simp [StoreOp.kinds])
        (by simp [StoreOp.kinds]) (by simp [StoreOp.kinds]) ((post_map _ _).mpr ?_)
      refine (confirmQuarantinedCleanup_ends runId jobId leaseOwner leaseGeneration payload
        ⟨db, w⟩).mono ?_
      intro _ s' h r hr
      exact (h r hr).imp id fun hend ↦ ⟨hend.1, by simp [StoreOp.endings], hend.2⟩
  | requestRunCancelTree runId =>
      exact hcancels runId rfl rfl ((post_map _ _).mpr (requestRunCancelTree_cancels runId _))
  | requestRunCancelCommand principalId commandId runId =>
      exact hcancels runId rfl rfl
        ((post_map _ _).mpr (requestRunCancelCommand_cancels principalId commandId runId _))
  | claimRunJob workerId leaseSeconds =>
      intro r hr
      have hstays := ((StoreOp.claimRunJob workerId leaseSeconds).exec_does.staysClosed
        (by simp [StoreOp.kinds]) (by simp [StoreOp.kinds]) (by simp [StoreOp.kinds])).commit db w
      rcases (StoreOp.claimRunJob workerId leaseSeconds).after_post
          (Q := fun db' ↦ ∀ r, RunEnded db' r → RunEnded db r ∨ r ∈ blockedRuns (requeued db w) ∧
            (NoneRunning (requeued db w) r → Closed db' r))
          ((post_map _ _).mpr (claimRunJob_ends workerId leaseSeconds db w)) with hsame | hends
      · rw [hsame] at hr ⊢
        exact hclosed r hr
      · by_cases hbefore : RunEnded db r
        · exact hstays r (hclosed r hbefore)
        · obtain ⟨hblocked, hcloses⟩ := (hends r hr).resolve_left hbefore
          exact hcloses (hclean r hblocked hbefore).1
  | createPermission lease request =>
      exact hopens request.runId (by simp [StoreOp.kinds]) (by simp [StoreOp.kinds])
        (by simp [StoreOp.kinds]) (by simp [StoreOp.kinds])
        ((post_map _ _).mpr (createPermission_fenced hfenced request _))
  | createQuestion lease runId toolCallId questions waitCycleId interruptId =>
      exact hopens runId (by simp [StoreOp.kinds]) (by simp [StoreOp.kinds])
        (by simp [StoreOp.kinds]) (by simp [StoreOp.kinds])
        ((post_map _ _).mpr (createQuestion_fenced hfenced _ _ _ _ _ _))
  | createPlanApproval lease runId toolCallId todos summary waitCycleId interruptId =>
      exact hopens runId (by simp [StoreOp.kinds]) (by simp [StoreOp.kinds])
        (by simp [StoreOp.kinds]) (by simp [StoreOp.kinds])
        ((post_map _ _).mpr (createPlanApproval_fenced hfenced _ _ _ _ _ _ _))
  | createToolReconciliation lease runId operationId waitCycleId interruptId payload =>
      exact hopens runId (by simp [StoreOp.kinds]) (by simp [StoreOp.kinds])
        (by simp [StoreOp.kinds]) (by simp [StoreOp.kinds])
        ((post_map _ _).mpr (createToolReconciliation_fenced hfenced _ _ _ _ _ _))
  | prepareToolReceipt lease request =>
      exact hopens request.runId (by simp [StoreOp.kinds]) (by simp [StoreOp.kinds])
        (by simp [StoreOp.kinds]) (by simp [StoreOp.kinds]) ((post_map _ _).mpr (post_fenced hfenced))
  | reconcileToolReceipt lease operationId runId decision resultJson resultHash =>
      exact hopens runId (by simp [StoreOp.kinds]) (by simp [StoreOp.kinds])
        (by simp [StoreOp.kinds]) (by simp [StoreOp.kinds]) ((post_map _ _).mpr (post_fenced hfenced))
  | resolveToolReconciliation lease candidateId decision results =>
      exact hrest ((StoreOp.exec_does _).endsNone (by simp [StoreOp.kinds]))
        (.map _ (resolveToolReconciliation_staysClosed _ _ _ _))
  | requestToolReconcileCommand principalId commandId operationId decision results =>
      exact hrest ((StoreOp.exec_does _).endsNone (by simp [StoreOp.kinds]))
        (.map _ (requestToolReconcileCommand_staysClosed _ _ _ _ _))
  | appendEvent lease runId eventType payload =>
      refine hplain ?_ ?_ ?_ ?_
      all_goals
        simp only [StoreOp.kinds]
        split <;> simp
  | _ =>
      exact hplain (by simp [StoreOp.kinds]) (by simp [StoreOp.kinds]) (by simp [StoreOp.kinds])
        (by simp [StoreOp.kinds])

/-! ## Runs of the store -/

/-- The calls of the Runtime: receipts and waits are opened by attempts. -/
def callsOfAttempts (i : StoreOp × World) (_ : Database) : Prop := i.1.called ∧ i.1.fenced

/-- A transaction that goes through ends runs clean. -/
def callsEndingClean (i : StoreOp × World) (db : Database) : Prop :=
  callsOfAttempts i db ∧ (i.1.after db i.2 = db ∨ i.1.endsClean db i.2)

/-- While runs end clean, a run that has ended has no open receipt and no
pending wait. -/
theorem ended_runs_closed {db : Database} (h : store.ReachableBy callsEndingClean db) :
    EndedRunsClosed db := by
  refine (System.ReachableBy.invariant (P := fun db ↦ Sound db ∧ EndedRunsClosed db) ?_ ?_ h).2
  · rintro db rfl
    refine ⟨sound_empty, ?_⟩
    rintro r ⟨run, hrun, _⟩
    cases hrun
  · rintro i db db' ⟨hsound, hclosed⟩ ⟨⟨hcalled, hfenced⟩, hclean⟩ rfl
    refine ⟨(StoreOp.keeps_sound i.2 hsound hcalled).1, ?_⟩
    rcases hclean with hsame | hclean
    · rw [hsame]
      exact hclosed
    · exact StoreOp.keeps_closed i.2 hsound hclosed hfenced hclean

end ShejaneRuntime.Store

namespace ShejaneRuntime.Coordinator.Race

open Store Lib

/-- The run that asks a question is canceled while it waits. -/
@[irreducible] def withdrawn : Database :=
  (StoreOp.requestRunCancelCommand localOwnerPrincipalId "cancel" runId).after waiting
    (.counting 50)

/-- The run fails while its question is open. -/
@[irreducible] def failedAsking : Database :=
  (StoreOp.commitRunResult (some lease) runId .failed "run.failed" (.obj []) false).after asked
    (.counting 30)

theorem calls_asked {ok : StoreOp × World → Database → Prop}
    (hok : ∀ i db, callsOfAttempts i db → i.1.endings db i.2 = [] → ok i db) :
    store.ReachableBy ok asked := by
  have hempty : store.ReachableBy ok Database.empty := ⟨_, rfl, .refl _⟩
  have haccepted : store.ReachableBy ok Database.accepted := by
    rw [Database.accepted]
    exact hempty.step (i := (.acceptRunCommand .sample, .counting 0))
      (hok _ _ ⟨trivial, trivial⟩ rfl) rfl
  have hblocked : blockedRuns (requeued Database.accepted (.counting 10)) = [] := by
    decide +kernel
  have hclaimed : store.ReachableBy ok Database.claimed := by
    rw [Database.claimed]
    exact haccepted.step (i := (.claimRunJob "worker" 50, .counting 10))
      (hok _ _ ⟨trivial, trivial⟩ hblocked) rfl
  rw [asked]
  exact hclaimed.step (i := (.createQuestion (some lease) runId none (.arr []) (some "cycle")
    (some "interrupt"), .counting 20)) (hok _ _ ⟨trivial, rfl⟩ rfl) rfl

theorem ended_runs_closed_withdrawn :
    (∃ q ∈ waiting.waits.questions.rows, q.runId = runId ∧ q.status = .pending) ∧
      RunEnded withdrawn runId ∧ EndedRunsClosed withdrawn := by
  have hclean : ∀ (i : StoreOp × World) (db : Database), callsOfAttempts i db →
      i.1.endings db i.2 = [] → callsEndingClean i db := by
    intro i db hcalls hnone
    refine ⟨hcalls, .inr fun r hr ↦ ?_⟩
    rw [hnone] at hr
    cases hr
  have hwaiting : store.ReachableBy callsEndingClean waiting := by
    rw [waiting]
    exact (calls_asked hclean).step (i := (.commitRunResult (some lease) runId .waitingInput
      "run.waiting" (.obj [("wait_cycle_id", .str "cycle")]) false, .counting 30))
      (hclean _ _ ⟨trivial, trivial⟩ rfl) rfl
  have hidle : waiting.ledger.toolReceipts.rows = [] := by decide +kernel
  have hwithdrawn : store.ReachableBy callsEndingClean withdrawn := by
    rw [withdrawn]
    refine hwaiting.step (i := (.requestRunCancelCommand localOwnerPrincipalId "cancel" runId,
      .counting 50)) ⟨⟨trivial, trivial⟩, .inr fun r _ _ ↦ ⟨fun x hx ↦ ?_, fun hcancels ↦ ?_⟩⟩ rfl
    · rw [show StoreOp.endsFrom _ waiting _ = waiting from rfl, hidle] at hx
      cases hx
    · cases hcancels
  have hended : withdrawn.runs.rows.any (fun r ↦ r.id = runId && r.status.terminal) = true := by
    decide +kernel
  obtain ⟨run, hmem, hcond⟩ := List.any_eq_true.mp hended
  simp only [Bool.and_eq_true, decide_eq_true_eq] at hcond
  refine ⟨by decide +kernel, ⟨run, ?_, hcond.2⟩, ended_runs_closed hwithdrawn⟩
  rw [← hcond.1]
  exact Table.find?_of_mem hmem

/-- A result closes no wait. -/
theorem not_ended_runs_closed :
    ¬∀ db, store.ReachableBy callsOfAttempts db → EndedRunsClosed db := by
  intro h
  have hfailed : store.ReachableBy callsOfAttempts failedAsking := by
    rw [failedAsking]
    exact (calls_asked fun _ _ hcalls _ ↦ hcalls).step (i := (.commitRunResult (some lease) runId
      .failed "run.failed" (.obj []) false, .counting 30)) ⟨trivial, trivial⟩ rfl
  have hended : failedAsking.runs.rows.any (fun r ↦ r.id = runId && r.status.terminal) = true := by
    decide +kernel
  have hasking : ∃ q ∈ failedAsking.waits.questions.rows, q.runId = runId ∧ q.status = .pending := by
    decide +kernel
  obtain ⟨run, hmem, hcond⟩ := List.any_eq_true.mp hended
  simp only [Bool.and_eq_true, decide_eq_true_eq] at hcond
  obtain ⟨q, hq, hof, hpending⟩ := hasking
  have hfind : failedAsking.runs.find? runId = some run := by
    rw [← hcond.1]
    exact Table.find?_of_mem hmem
  exact (h _ hfailed runId ⟨run, hfind, hcond.2⟩).waits.questions q hq hof hpending

end ShejaneRuntime.Coordinator.Race
