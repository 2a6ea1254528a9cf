import ShejaneRuntime.Lockstep.Reachable

/-!
# Resuming a run over several transactions

Outside the wait commands a run is resumed in steps: the decisions of a wait
cycle are read, `resume_run` checks that the run waits, and
`enqueue_run_job` inserts the job. Between the steps any other transaction
may commit, and the last one does not look at the status of the run again.
-/

namespace ShejaneRuntime.Coordinator

open Store Lib Lockstep

/-- How often the run has reported that it waits. -/
def waitCount (db : Database) (runId : String) : ℕ :=
  ((db.journal.lifecycle runId).filter fun e ↦ e.eventType = "run.waiting").length

/-- A `resume_run` on its way. What the run looked like when its decisions
were read is kept beside them, for no code to see. -/
structure Resumption where
  runId : String
  waitCycleId : String
  decision : Json
  checked : Bool
  waited : Bool
  waits : ℕ
  deriving DecidableEq

structure State where
  db : Database
  resuming : List Resumption

inductive Act where
  | transact (op : StoreOp)
  | readDecisions (runId waitCycleId : String)
  | checkWaiting (r : Resumption)
  | enqueue (r : Resumption)

def Resumption.enqueueOp (r : Resumption) : StoreOp :=
  .enqueueRunJob r.runId .resume (some r.decision)

/-- The store, with the steps of `resume_run` between its transactions. -/
def system : System State (Act × World) where
  initial c := c = ⟨Database.empty, []⟩
  step i c c' :=
    match i.1 with
    | .transact op => c' = { c with db := op.after c.db i.2 }
    | .readDecisions runId waitCycleId => ∃ decision,
        (Txn.commit (waitCycleResumePayload runId waitCycleId) c.db i.2).1 = .ok (some decision) ∧
        c' = { c with resuming := ⟨runId, waitCycleId, decision, false, runWaiting c.db runId,
          waitCount c.db runId⟩ :: c.resuming }
    | .checkWaiting r => r ∈ c.resuming ∧ runWaiting c.db r.runId = true ∧
        c' = { c with resuming := { r with checked := true } :: c.resuming.erase r }
    | .enqueue r => r ∈ c.resuming ∧ r.checked = true ∧
        c' = ⟨r.enqueueOp.after c.db i.2, c.resuming.erase r⟩

/-- The calls the Runtime makes: jobs are enqueued by `resume_run` alone. -/
def called (i : Act × World) (_ : State) : Prop :=
  match i.1 with
  | .transact op => op.called ∧ ∀ runId kind resume, op ≠ .enqueueRunJob runId kind resume
  | _ => True

/-! ## Ended runs -/

/-- A run has ended: its status, the event that reports it, and no job left. -/
structure Ended (db : Database) (runId : String) (st : RunStatus) (e : Event) : Prop where
  terminal : st.terminal = true
  status : (db.runs.find? runId).map Run.status = some st
  lastEvent : (db.journal.lifecycle runId).getLast? = some e
  reported : runResultEvent st = some e.eventType
  noJob : ∀ j ∈ db.jobs.rows, j.runId = runId → j.active = false

/-- The workspace of a run is refused when a job is asked for. -/
def workspaceRefused (db : Database) (run : Run) (w : World) : Bool :=
  (run.workspacePath.bind w.workspacePathErrorSync).isSome ||
    (workspaceUnauthorized db run.principalId run.workspacePath).isSome

/-- A resumption asks for its job before its run has ended. -/
def inTime (i : Act × World) (c : State) : Prop :=
  match i.1 with
  | .enqueue r => ∀ run, c.db.runs.find? r.runId = some run → run.status.terminal = true →
      workspaceRefused c.db run i.2 = true
  | _ => True

def calledInTime (i : Act × World) (c : State) : Prop := called i c ∧ inTime i c

/-- The statuses of a run that has not ended. -/
def unended (st : RunStatus) : Prop := st.terminal = false

theorem unended_queued : unended .queued := rfl

theorem refuseWorkspace_post {s : Session Database World} {first second : Option String}
    {Q : Unit → Session Database World → Prop} (h : first = none → second = none → Q () s) :
    Txn.Post (refuseWorkspace first second) s Q := by
  unfold refuseWorkspace
  cases first with
  | some error => exact Txn.post_fail _
  | none =>
      cases second with
      | some error => exact Txn.post_fail _
      | none => exact (Txn.post_pure ()).mpr (h rfl rfl)

theorem enqueueRunJob_refused {s : Session Database World} {runId : String} {run : Run}
    {kind : JobKind} {resume : Option Json} (hrun : s.db.runs.find? runId = some run)
    (hrefused : workspaceRefused s.db run s.world = true) :
    Txn.Post (enqueueRunJob runId kind resume) s fun _ _ ↦ False := by
  unfold enqueueRunJob findRun workspacePathError workspaceOwnerError
  rw [Txn.post_bind, Txn.post_read, hrun]
  simp only [Txn.post_bind, Txn.post_draw, Txn.post_read]
  refine refuseWorkspace_post fun hpath _ ↦ refuseWorkspace_post fun howner _ ↦ ?_
  simp [workspaceRefused, hpath, howner] at hrefused

theorem after_eq_of_post {op : StoreOp} {db : Database} {w : World}
    (h : Txn.Post op.exec ⟨db, w⟩ fun _ s' ↦ s'.db = db) : op.after db w = db := by
  unfold StoreOp.after
  cases hres : (Txn.commit op.exec db w).1 with
  | error e => exact Txn.commit_error hres
  | ok a =>
      obtain ⟨s, hs, hdb⟩ := Txn.commit_ok hres
      rw [hdb]
      exact h a s hs

/-- Every step in time is a run of the lockstep machine that gives no job to
a run that has ended. -/
theorem steps_of_calledInTime {i : Act × World} {c c' : State}
    (hlocked : Locked announces unended (abs c.db)) (hcalled : calledInTime i c)
    (hstep : system.step i c c') : Steps announces unended (abs c.db) (abs c'.db) := by
  obtain ⟨act, w⟩ := i
  have hwaiting : ∀ st : RunStatus, st.waiting = true → unended st := by
    intro st hst
    cases st <;> simp_all [RunStatus.waiting, unended, RunStatus.terminal]
  cases act with
  | transact op =>
      obtain rfl := hstep
      refine (StoreOp.after_reports unended_queued hwaiting w ⟨hcalled.1.1, ?_⟩
        hlocked).1
      intro runId kind resume hop
      exact absurd hop (hcalled.1.2 runId kind resume)
  | readDecisions runId waitCycleId =>
      obtain ⟨_, _, rfl⟩ := hstep
      exact .refl
  | checkWaiting r =>
      obtain ⟨_, _, rfl⟩ := hstep
      exact .refl
  | enqueue r =>
      obtain ⟨_, _, rfl⟩ := hstep
      by_cases hended : ∃ run, c.db.runs.find? r.runId = some run ∧ run.status.terminal = true
      · obtain ⟨run, hrun, hterminal⟩ := hended
        have hrefused := hcalled.2 run hrun hterminal
        have hsame : r.enqueueOp.after c.db w = c.db := by
          refine after_eq_of_post ((Txn.post_map _ _).mpr ?_)
          exact (enqueueRunJob_refused (s := ⟨_, w⟩) hrun hrefused).mono fun _ _ hf ↦ hf.elim
        simp only [hsame]
        exact .refl
      · have hadmitted : r.enqueueOp.admitted unended c.db := by
          refine ⟨trivial, ?_⟩
          intro runId kind resume hop st hst _
          cases hop
          obtain ⟨run, hrun, rfl⟩ := find?_of_status hst
          rw [unended, Bool.eq_false_iff]
          exact fun hterminal ↦ hended ⟨run, hrun, hterminal⟩
        exact (StoreOp.after_reports unended_queued hwaiting w hadmitted hlocked).1

theorem locked_of_calledInTime {c : State} (h : system.ReachableBy calledInTime c) :
    Locked announces unended (abs c.db) := by
  refine System.ReachableBy.invariant (P := fun c ↦ Locked announces unended (abs c.db)) ?_ ?_ h
  · rintro c rfl
    exact locked_empty
  · intro i c c' hlocked hcalled hstep
    exact Steps.locked (steps_of_calledInTime hlocked hcalled hstep) hlocked

theorem steps_of_run {c c' : State} (hlocked : Locked announces unended (abs c.db))
    (hrun : system.Run calledInTime c c') : Steps announces unended (abs c.db) (abs c'.db) := by
  refine System.Run.relates (P := fun c ↦ Locked announces unended (abs c.db))
    (R := fun c c' ↦ Steps announces unended (abs c.db) (abs c'.db)) ?_ ?_ ?_ hrun hlocked
  · intro _
    exact .refl
  · intro t u v htu huv
    exact Relation.ReflTransGen.trans htu huv
  · intro i t u ht hcalled hstep
    have hsteps := steps_of_calledInTime ht hcalled hstep
    exact ⟨Steps.locked hsteps ht, hsteps⟩

theorem Ended.of_locked {db : Database} (h : Locked announces unended (abs db)) {runId : String}
    {st : RunStatus} {e : Event} (hst : st.terminal = true)
    (hstatus : (abs db).status runId = some st)
    (hlast : ((abs db).log runId).getLast? = some e) (he : announces e st) :
    Ended db runId st e :=
  ⟨hst, hstatus, hlast, he,
    fun _ hj hrun ↦ inactive_of_locked h (fun _ hopen ↦ hopen) hstatus hst hj hrun⟩

/-- What has ended stays as it ended, while resumptions ask in time. -/
theorem ended_forever {c c' : State} {run : Run} (hreach : system.ReachableBy calledInTime c)
    (hrun : run ∈ c.db.runs.rows) (hst : run.status.terminal = true)
    (hsteps : system.Run calledInTime c c') :
    ∃ e, Ended c.db run.id run.status e ∧ Ended c'.db run.id run.status e := by
  have hlocked := locked_of_calledInTime hreach
  have hsteps := steps_of_run hlocked hsteps
  have hstatus := status_of_find? (Table.find?_of_mem hrun)
  obtain ⟨e, hlast, he⟩ := hlocked.closed hstatus hst
  have hspares := Steps.ended hsteps hlocked (fun _ hopen ↦ hopen) hstatus hst
  refine ⟨e, .of_locked hlocked hst hstatus hlast he, ?_⟩
  refine .of_locked (Steps.locked hsteps hlocked) hst (hspares.1.trans hstatus) ?_ he
  rw [hspares.2]
  exact hlast

/-! ### The lost race

The run is canceled between the check of `resume_run` and its request for a
job: the job is inserted all the same. -/

namespace Race

def runId : String := "run_xx"

def lease : ExecutionLease := ⟨"job_xxxxx", runId, "worker", 1⟩

/-- The sample run is claimed and asks a question. -/
@[irreducible] def asked : Database :=
  (StoreOp.createQuestion (some lease) runId none (.arr []) (some "cycle") (some "interrupt")).after
    Database.claimed (.counting 20)

@[irreducible] def waiting : Database :=
  (StoreOp.commitRunResult (some lease) runId .waitingInput "run.waiting"
    (.obj [("wait_cycle_id", .str "cycle")]) false).after asked (.counting 30)

def questionId : String := "q_xxxxxxxxxxxxxxxxxxxx"

@[irreducible] def answered : Database :=
  (StoreOp.answerQuestion none questionId (.obj [("answer", .str "yes")]) none).after waiting
    (.counting 40)

@[irreducible] def canceled : Database :=
  (StoreOp.requestRunCancelCommand localOwnerPrincipalId "cancel" runId).after answered
    (.counting 50)

def resumption (checked : Bool) : Resumption :=
  ⟨runId, "cycle", .obj [("interrupt", .obj [("answer", .str "yes")])], checked, true, 1⟩

@[irreducible] def enqueued : Database := (resumption true).enqueueOp.after canceled (.counting 60)

/-- One more transaction. -/
theorem reaches {ok : Act × World → State → Prop} {db : Database} {rs : List Resumption}
    (h : system.ReachableBy ok ⟨db, rs⟩) (op : StoreOp) (w : World)
    (hok : ok (.transact op, w) ⟨db, rs⟩) : system.ReachableBy ok ⟨op.after db w, rs⟩ :=
  h.step (i := (.transact op, w)) hok rfl

theorem reachable_accepted : system.ReachableBy calledInTime ⟨Database.accepted, []⟩ := by
  have hempty : system.ReachableBy calledInTime ⟨Database.empty, []⟩ := ⟨_, rfl, .refl _⟩
  rw [Database.accepted]
  exact reaches hempty (.acceptRunCommand .sample) (.counting 0) ⟨⟨trivial, by simp⟩, trivial⟩

/-- The sample run, canceled before a worker claims it. -/
@[irreducible] def dropped : Database :=
  (StoreOp.requestRunCancelCommand localOwnerPrincipalId "cancel" runId).after Database.accepted
    (.counting 10)

@[irreducible] def droppedThenClaimed : Database :=
  (StoreOp.claimRunJob "worker" 50).after dropped (.counting 20)

theorem ended_forever_dropped : ∃ run ∈ dropped.runs.rows, ∃ e,
    Ended dropped run.id run.status e ∧ Ended droppedThenClaimed run.id run.status e := by
  have hrun : dropped.runs.rows.any (fun r ↦ r.status.terminal) = true := by decide +kernel
  obtain ⟨run, hmem, hended⟩ := List.any_eq_true.mp hrun
  have hreach : system.ReachableBy calledInTime ⟨dropped, []⟩ := by
    rw [dropped]
    exact reaches reachable_accepted
      (.requestRunCancelCommand localOwnerPrincipalId "cancel" runId) (.counting 10)
      ⟨⟨trivial, by simp⟩, trivial⟩
  have hsteps : system.Run calledInTime ⟨dropped, []⟩ ⟨droppedThenClaimed, []⟩ := by
    rw [droppedThenClaimed]
    exact .single (i := (.transact (.claimRunJob "worker" 50), .counting 20))
      ⟨⟨trivial, by simp⟩, trivial⟩ rfl
  exact ⟨run, hmem, ended_forever hreach hmem hended hsteps⟩

theorem reachable_claimed : system.ReachableBy called ⟨Database.claimed, []⟩ := by
  rw [Database.claimed]
  exact reaches (reachable_accepted.weaken fun _ _ h ↦ h.1) (.claimRunJob "worker" 50)
    (.counting 10) ⟨trivial, by simp⟩

theorem reachable_answered : system.ReachableBy called ⟨answered, []⟩ := by
  rw [answered, waiting, asked]
  have hasked := reaches reachable_claimed (.createQuestion (some lease) runId none (.arr [])
    (some "cycle") (some "interrupt")) (.counting 20) ⟨trivial, by simp⟩
  have hwaiting := reaches hasked (.commitRunResult (some lease) runId .waitingInput "run.waiting"
    (.obj [("wait_cycle_id", .str "cycle")]) false) (.counting 30) ⟨trivial, by simp⟩
  exact reaches hwaiting (.answerQuestion none questionId (.obj [("answer", .str "yes")]) none)
    (.counting 40) ⟨trivial, by simp⟩

/-- The decisions are read, the run is seen to wait, and then it is canceled. -/
theorem reachable_canceled : system.ReachableBy called ⟨canceled, [resumption true]⟩ := by
  have hwaiting : runWaiting answered runId = true := by decide +kernel
  have hwaits : waitCount answered runId = 1 := by decide +kernel
  have hread : system.ReachableBy called ⟨answered, [resumption false]⟩ := by
    refine reachable_answered.step (i := (.readDecisions runId "cycle", .counting 45)) trivial
      ⟨(resumption false).decision, by decide +kernel, ?_⟩
    rw [hwaiting, hwaits]
    rfl
  have hchecked : system.ReachableBy called ⟨answered, [resumption true]⟩ := by
    refine hread.step (i := (.checkWaiting (resumption false), .counting 45)) trivial
      ⟨List.mem_singleton_self _, hwaiting, ?_⟩
    rw [List.erase_cons_head]
    rfl
  rw [canceled]
  exact reaches hchecked (.requestRunCancelCommand localOwnerPrincipalId "cancel" runId)
    (.counting 50) ⟨trivial, by simp⟩

theorem enqueues : system.Run called ⟨canceled, [resumption true]⟩ ⟨enqueued, []⟩ := by
  rw [enqueued]
  refine .single (i := (.enqueue (resumption true), .counting 60)) trivial
    ⟨List.mem_singleton_self _, rfl, ?_⟩
  rw [List.erase_cons_head]

/-- Ended runs do not stay as they ended whatever the order of transactions. -/
theorem not_ended_forever : ¬∀ (c c' : State) (run : Run), system.ReachableBy called c →
    run ∈ c.db.runs.rows → run.status.terminal = true → system.Run called c c' →
    ∃ e, Ended c.db run.id run.status e ∧ Ended c'.db run.id run.status e := by
  intro h
  have hrun : canceled.runs.rows.any (fun r ↦ r.id = runId && r.status.terminal) = true := by
    decide +kernel
  have hjob : enqueued.jobs.rows.any (fun j ↦ j.runId = runId && j.active) = true := by
    decide +kernel
  obtain ⟨run, hmem, hended⟩ := List.any_eq_true.mp hrun
  obtain ⟨job, hjobMem, hactive⟩ := List.any_eq_true.mp hjob
  simp only [Bool.and_eq_true, decide_eq_true_eq] at hended hactive
  obtain ⟨e, _, hlater⟩ := h _ _ run reachable_canceled hmem hended.2 enqueues
  have hidle := hlater.noJob job hjobMem (hactive.1.trans hended.1.symm)
  rw [hactive.2] at hidle
  cases hidle

end Race

end ShejaneRuntime.Coordinator
