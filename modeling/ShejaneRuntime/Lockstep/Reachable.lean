import ShejaneRuntime.Lockstep.Refinement

/-!
# Runs and jobs in every reachable state

Every operation of the store is a run of the lockstep machine, so the
lockstep holds in every state the store reaches. What it says about rows
depends on who asks for jobs: with a check that the run is waiting at that
very moment, and with the check `resume_run` makes one transaction earlier.
-/

namespace ShejaneRuntime.Store

open Lib Lib.Txn Lockstep

variable {allowed : RunStatus → Prop}

/-! ## Every operation -/

/-- What an operation needs of its caller to stay in lockstep: a job is
enqueued only in a status that allows it. -/
def StoreOp.admitted (allowed : RunStatus → Prop) (op : StoreOp) (db : Database) : Prop :=
  op.called ∧ ∀ runId kind resume, op = .enqueueRunJob runId kind resume →
    ∀ st, (abs db).status runId = some st → (abs db).Idle runId → allowed st

section Operations

variable (hqueued : allowed .queued) (hwaiting : ∀ st, st.waiting = true → allowed st)

include hqueued hwaiting

theorem StoreOp.exec_reports {op : StoreOp} {s : Session Database World}
    (hop : op.admitted allowed s.db) : Post op.exec s fun _ s' ↦ Reports allowed s.db s'.db := by
  have hlog : Part.lifecycle ∉ op.kinds.flatMap Kind.parts → Post op.exec s fun _ s' ↦
      s'.db.journal.lifecycle = s.db.journal.lifecycle :=
    fun hkinds ↦ (op.exec_does.writes s).mono fun _ _ hdb ↦ hdb.same .lifecycle hkinds
  have hfollows : Post op.exec s (fun _ s' ↦ Follows allowed s.db s'.db) →
      Part.lifecycle ∉ op.kinds.flatMap Kind.parts →
      Post op.exec s fun _ s' ↦ Reports allowed s.db s'.db :=
    fun h hkinds ↦ (h.and (hlog hkinds)).mono fun _ _ h ↦ h.1.reports h.2
  have hturns : ∀ {α : Type} {m : StoreTxn α}, Keeps (Turns allowed) m →
      Post m s fun _ s' ↦ Reports allowed s.db s'.db :=
    fun h ↦ (h s).mono fun _ _ h ↦ h.reports
  have honce : ∀ {α : Type} {m : StoreTxn α}, Keeps (StepsOnce allowed) m →
      Post m s fun _ s' ↦ Reports allowed s.db s'.db :=
    fun h ↦ (h s).mono fun _ _ h ↦ h.reports
  cases op with
  | acceptRunCommand c =>
      exact hfollows (Keeps.map _ (acceptRunCommand_follows hqueued c) s)
        (by simp [StoreOp.kinds, Kind.parts])
  | acceptChildRun lease request =>
      exact hfollows (Keeps.map _ (acceptChildRun_follows hqueued lease request) s)
        (by simp [StoreOp.kinds, Kind.parts])
  | enqueueRunJob runId kind resume =>
      exact hfollows ((post_map _ _).mpr fun _ _ hm _ ↦
        enqueueRunJob_follows (hop.2 runId kind resume rfl) _ _ hm)
        (by simp [StoreOp.kinds, Kind.parts])
  | requeueExpiredRunJobs =>
      exact hturns (.bind keeps_utcNow fun now ↦ requeueExpiredJobsUncommitted_turns now)
  | claimRunJob => exact hturns (.map _ (claimRunJob_turns _ _))
  | renewRunJob =>
      exact (Keeps.map _ (renewRunJob_silent _ _ _ _) s).mono fun _ _ h ↦ .of_abs_eq h
  | finishRunJob =>
      exact hfollows (Keeps.map _ (finishRunJob_follows _ _ _ _) s)
        (by simp [StoreOp.kinds, Kind.parts])
  | quarantineExecutionAttempt =>
      exact honce (.map _ (quarantineExecutionAttempt_once _ _ _ _))
  | confirmQuarantinedCleanup =>
      exact honce (.map _ (confirmQuarantinedCleanup_once _ _ _ _ _))
  | ensureLostExecutionQuarantined =>
      exact honce (.map _ (ensureLostExecutionQuarantined_once _ _ _ _))
  | commitRunResult => exact honce (.map _ (commitRunResult_once _ _ _ _ _ _))
  | requestRunCancelTree =>
      exact hturns (.map _ (requestRunCancelTreeUncommitted_turns _))
  | requestRunCancelCommand => exact hturns (.map _ (requestRunCancelCommand_turns _ _ _))
  | requestQuestionAnswerCommand =>
      exact hfollows (Keeps.map _ (requestQuestionAnswerCommand_follows hwaiting _ _ _ _) s)
        (by simp [StoreOp.kinds, Kind.parts])
  | requestPermissionResolveCommand =>
      exact hfollows (Keeps.map _ (requestPermissionResolveCommand_follows hwaiting _ _ _ _ _) s)
        (by simp [StoreOp.kinds, Kind.parts])
  | requestPlanResolveCommand =>
      exact hfollows (Keeps.map _ (requestPlanResolveCommand_follows hwaiting _ _ _ _ _) s)
        (by simp [StoreOp.kinds, Kind.parts])
  | requestToolReconcileCommand =>
      exact hfollows (Keeps.map _ (requestToolReconcileCommand_follows hwaiting _ _ _ _ _) s)
        (by simp [StoreOp.kinds, Kind.parts])
  | bindGraphDefinition =>
      exact (bindGraphDefinition_silent _ _ _ s).mono fun _ _ h ↦ .of_abs_eq h
  | advanceGraphCheckpoint =>
      exact (advanceGraphCheckpoint_silent _ _ _ _ _ s).mono fun _ _ h ↦ .of_abs_eq h
  | appendEvent lease runId eventType payload =>
      refine honce (.map _ (appendEvent_once ?_))
      rintro rfl
      exact hop.1
  | _ =>
      -- the rest writes neither runs nor jobs and reports no status
      exact (StoreOp.exec_does _ |>.writes.silent (by simp [StoreOp.kinds, Kind.parts]) s).mono
        fun _ _ h ↦ .of_abs_eq h

/-- The store refines the machine, operation by operation. -/
theorem StoreOp.after_reports {op : StoreOp} {db : Database} (w : World)
    (hop : op.admitted allowed db) : Reports allowed db (op.after db w) := by
  unfold StoreOp.after
  cases hres : (Txn.commit op.exec db w).1 with
  | error e =>
      rw [commit_error hres]
      exact .of_abs_eq rfl
  | ok a =>
      obtain ⟨s, hs, hdb⟩ := commit_ok hres
      rw [hdb]
      exact StoreOp.exec_reports hqueued hwaiting (s := ⟨db, w⟩) hop a s hs

end Operations

/-! ## Rows in lockstep -/

/-- What the rows of runs and jobs say about each other. -/
structure RunJobLockstep (db : Database) : Prop where
  oneActiveJob : ∀ j ∈ db.jobs.rows, ∀ j' ∈ db.jobs.rows, j.active = true → j'.active = true →
    j.runId = j'.runId → j = j'
  pendingJob : ∀ j ∈ db.jobs.rows, j.status = .pending →
    ∃ r, db.runs.find? j.runId = some r ∧
      (r.status = .queued ∨ r.status = .waitingPermission ∨ r.status = .waitingInput)
  leasedJob : ∀ j ∈ db.jobs.rows, j.status = .leased → j.quarantinedAt = none →
    ∃ r, db.runs.find? j.runId = some r ∧ r.status = .running
  cleanupRequired : ∀ r ∈ db.runs.rows, r.status = .cleanupRequired ↔
    ∃ j ∈ db.jobs.rows, j.runId = r.id ∧ j.status = .leased ∧ j.quarantinedAt.isSome = true
  endedRun : ∀ r ∈ db.runs.rows, r.status.terminal = true →
    ∀ j ∈ db.jobs.rows, j.runId = r.id → j.active = false

/-- A run that is queued or waits may be given a job. -/
def resumable (st : RunStatus) : Prop := st = .queued ∨ st.waiting = true

theorem resumable_iff {st : RunStatus} :
    resumable st ↔ st = .queued ∨ st = .waitingPermission ∨ st = .waitingInput := by
  cases st <;> simp [resumable, RunStatus.waiting]

theorem not_terminal_of_resumable {st : RunStatus} (h : resumable st) : st.terminal = false := by
  rcases resumable_iff.mp h with rfl | rfl | rfl <;> rfl

theorem locked_empty : Locked announces allowed (abs Database.empty) := by
  refine ⟨?_, ?_, ?_, ?_⟩
  · intro j j' v v' hj
    cases hj
  · intro j v hj
    cases hj
  · intro r hr
    cases hr
  · intro r st hr
    cases hr

theorem jobs_eq_of_locked {db : Database} (h : Locked announces allowed (abs db)) {j j' : Job}
    (hj : j ∈ db.jobs.rows) (hj' : j' ∈ db.jobs.rows) (hactive : j.active = true)
    (hactive' : j'.active = true) (hrun : j.runId = j'.runId) : j = j' := by
  have hid : j.id = j'.id := h.unique (job_of_mem hj) (job_of_mem hj') (view_active.mpr hactive)
    (view_active.mpr hactive') hrun
  have hfind := Table.find?_of_mem hj
  rw [hid, Table.find?_of_mem hj'] at hfind
  cases hfind
  rfl

theorem inactive_of_locked {db : Database} (h : Locked announces allowed (abs db))
    (hallowed : ∀ st, allowed st → st.terminal = false) {runId : String} {st : RunStatus}
    (hrun : (abs db).status runId = some st) (hst : st.terminal = true) {j : Job}
    (hj : j ∈ db.jobs.rows) (hjrun : j.runId = runId) : j.active = false := by
  rw [Bool.eq_false_iff]
  intro hactive
  exact h.idle_of_terminal hallowed hrun hst j.id j.view (job_of_mem hj) hjrun
    (view_active.mpr hactive)

theorem cleanupRequired_iff_of_locked {db : Database} (h : Locked announces allowed (abs db))
    {r : Run} (hr : r ∈ db.runs.rows) : r.status = .cleanupRequired ↔
      ∃ j ∈ db.jobs.rows, j.runId = r.id ∧ j.status = .leased ∧ j.quarantinedAt.isSome = true := by
  have hstatus : (abs db).status r.id = some r.status := status_of_find? (Table.find?_of_mem hr)
  constructor
  · intro hcleanup
    rw [hcleanup] at hstatus
    obtain ⟨jobId, v, hv, hrun, hlost⟩ := h.owed hstatus
    obtain ⟨j, hj, rfl⟩ := find?_of_job hv
    exact ⟨j, Table.mem_of_find? hj, hrun, hlost.1, hlost.2⟩
  · rintro ⟨j, hj, hrun, hleased, hquarantined⟩
    have hcleanup := (h.status_of_lost (job_of_mem hj) ⟨hleased, hquarantined⟩).1
    change (abs db).status j.runId = _ at hcleanup
    rw [hrun, hstatus] at hcleanup
    exact Option.some.inj hcleanup

/-- The machine's invariant, read off the rows. -/
theorem RunJobLockstep.of_locked {db : Database} (h : Locked announces resumable (abs db)) :
    RunJobLockstep db := by
  refine ⟨?_, ?_, ?_, ?_, ?_⟩
  · intro j hj j' hj' hactive hactive' hrun
    exact jobs_eq_of_locked h hj hj' hactive hactive' hrun
  · intro j hj hpending
    obtain ⟨_, st, hst, hresumable⟩ := h.status_of_pending (job_of_mem hj) hpending
    obtain ⟨r, hr, rfl⟩ := find?_of_status hst
    exact ⟨r, hr, resumable_iff.mp hresumable⟩
  · intro j hj hleased hfree
    have hheld : j.view.held := ⟨hleased, by simp [Job.view, hfree]⟩
    exact find?_of_status (h.status_of_held (job_of_mem hj) hheld)
  · intro r hr
    exact cleanupRequired_iff_of_locked h hr
  · intro r hr hterminal j hj hrun
    exact inactive_of_locked h (fun _ ↦ not_terminal_of_resumable)
      (status_of_find? (Table.find?_of_mem hr)) hterminal hj hrun

/-- The calls of the Runtime when a job is enqueued only for a run that waits
at that moment. -/
def callsWhileWaiting (i : StoreOp × World) (db : Database) : Prop :=
  i.1.called ∧ ∀ runId kind resume, i.1 = .enqueueRunJob runId kind resume →
    runWaiting db runId = true

theorem admitted_of_callsWhileWaiting {i : StoreOp × World} {db : Database}
    (h : callsWhileWaiting i db) : i.1.admitted resumable db := by
  refine ⟨h.1, ?_⟩
  intro runId kind resume hop st hst _
  obtain ⟨r, hr, rfl⟩ := find?_of_status hst
  have hwaiting := h.2 runId kind resume hop
  simp only [runWaiting, hr, Option.any_some] at hwaiting
  exact .inr hwaiting

theorem locked_of_callsWhileWaiting {db : Database} (h : store.ReachableBy callsWhileWaiting db) :
    Locked announces resumable (abs db) := by
  refine System.ReachableBy.invariant (P := fun db ↦ Locked announces resumable (abs db))
    ?_ ?_ h
  · rintro db rfl
    exact locked_empty
  · rintro i db db' hlocked hcalls rfl
    have hreports := StoreOp.after_reports (.inl rfl) (fun st hst ↦ .inr hst)
      i.2 (admitted_of_callsWhileWaiting hcalls) hlocked
    exact Steps.locked hreports.1 hlocked

/-- Runs and jobs are in lockstep in every reachable state. -/
theorem runs_and_jobs_in_lockstep {db : Database} (h : store.ReachableBy callsWhileWaiting db) :
    RunJobLockstep db :=
  .of_locked (locked_of_callsWhileWaiting h)

/-- A first message of the local owner. -/
def RunCommand.sample : RunCommand where
  principalId := localOwnerPrincipalId
  commandId := "command"
  clientMessageId := "message"
  commandPayload := .obj [("type", .str "run.start")]
  goal := "goal"
  workspacePath := none
  mode := "agent"

@[irreducible] def Database.accepted : Database :=
  (StoreOp.acceptRunCommand .sample).after Database.empty (.counting 0)

/-- The sample run, accepted and then claimed by a worker. -/
@[irreducible] def Database.claimed : Database :=
  (StoreOp.claimRunJob "worker" 50).after accepted (.counting 10)

/-- The operation asks nothing of its caller. -/
def StoreOp.unconditional : StoreOp → Bool
  | enqueueRunJob .. | appendEvent .. => false
  | _ => true

theorem callsWhileWaiting_of_unconditional {op : StoreOp} (h : op.unconditional = true) (w : World)
    (db : Database) : callsWhileWaiting (op, w) db := by
  cases op with
  | enqueueRunJob => cases h
  | appendEvent => cases h
  | _ => exact ⟨trivial, by simp⟩

/-- Operations one after the other, each a second after the one before. -/
def Database.performed (db : Database) : ℕ → List StoreOp → Database
  | _, [] => db
  | n, op :: ops => Database.performed (op.after db (.counting n)) (n + 1) ops

theorem run_performed {ops : List StoreOp} (hops : ops.all StoreOp.unconditional = true)
    (db : Database) (n : ℕ) : store.Run callsWhileWaiting db (db.performed n ops) := by
  induction ops generalizing db n with
  | nil => exact .refl db
  | cons op ops ih =>
      rw [List.all_cons, Bool.and_eq_true] at hops
      have hfirst : store.Run callsWhileWaiting db (op.after db (.counting n)) :=
        .single (i := (op, .counting n)) (callsWhileWaiting_of_unconditional hops.1 _ db) rfl
      exact hfirst.trans (ih hops.2 _ _)

theorem reachable_accepted : store.ReachableBy callsWhileWaiting Database.accepted := by
  have hempty : store.ReachableBy callsWhileWaiting Database.empty := ⟨_, rfl, .refl _⟩
  rw [Database.accepted]
  exact hempty.step (i := (.acceptRunCommand .sample, .counting 0)) ⟨trivial, by simp⟩ rfl

theorem reachable_claimed : store.ReachableBy callsWhileWaiting Database.claimed := by
  rw [Database.claimed]
  exact reachable_accepted.step (i := (.claimRunJob "worker" 50, .counting 10))
    ⟨trivial, by simp⟩ rfl

theorem runs_and_jobs_in_lockstep_claimed :
    RunJobLockstep Database.claimed ∧ Database.claimed.jobs.rows.any (·.status = .leased) :=
  ⟨runs_and_jobs_in_lockstep reachable_claimed, by decide +kernel⟩

end ShejaneRuntime.Store
