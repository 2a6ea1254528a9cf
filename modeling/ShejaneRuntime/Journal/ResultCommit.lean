import ShejaneRuntime.Journal.Projection

/-!
# Committing a result

A commit writes the status of the run, its event with the projection to the
parent, the assistant item, the thread and the job together or not at all.
What a second commit for the same job generation does rests on the job: the
first has settled it, and a settled job stays settled.
-/

namespace ShejaneRuntime.Store

open Lib Lib.Txn Lockstep

/-! ## What a thread shows -/

/-- The assistant item of a run shows a result, and the newest change of its
thread announces it. -/
structure Journal.Shows (runId threadId itemId : String) (status : RunStatus) (changeType : String)
    (payload : Json) (seq : ℕ) (j : Journal) : Prop where
  item : ∃ i ∈ j.items.rows, i.id = itemId ∧ i.runId = some runId ∧
    some i.status = projectedItemStatus status ∧ i.eventHighWatermark = seq ∧
    (status = .completed → Json.textOrEmpty (payload.get? "final_text") ≠ "" →
      i.content = Json.textOrEmpty (payload.get? "final_text"))
  change : ∃ t c, j.threads.find? threadId = some t ∧ j.changes.getLast? = some c ∧
    c.threadId = threadId ∧ c.threadVersion = t.version ∧ c.changeType = changeType ∧
    c.runId = some runId

namespace Journal

theorem bumpAssistantItem_post {runId itemId : String} {f : ThreadItem → ThreadItem}
    {hf : ∀ i, (f i).id = i.id} {s : Session Journal World} :
    Post (bumpAssistantItem runId itemId f hf) s fun _ s' ↦
      ∃ i, i.id = itemId ∧ i.runId = some runId ∧ f i ∈ s'.db.items.rows := by
  unfold bumpAssistantItem updateItems
  rw [post_bind, post_read, post_bind, post_write, post_require]
  intro hcount
  have hsome : ∃ i ∈ s.db.items.rows, (i.id = itemId && i.runId = some runId) = true := by
    by_contra hnone
    have hzero : s.db.items.rowcount (fun i ↦ i.id = itemId && i.runId = some runId) = 0 := by
      rw [Table.rowcount_eq_zero_iff]
      intro i hi
      rw [Bool.eq_false_iff]
      exact fun hc ↦ hnone ⟨i, hi, hc⟩
    rw [hzero] at hcount
    cases hcount
  obtain ⟨i, hi, hmatch⟩ := hsome
  have hnamed := hmatch
  simp only [Bool.and_eq_true, decide_eq_true_eq] at hnamed
  refine ⟨i, hnamed.1, hnamed.2, List.mem_map.mpr ⟨i, hi, ?_⟩⟩
  rw [if_pos hmatch]

theorem bumpThread_post {run : Run} {runId threadId : String} {retitle : String → String}
    {changeType : String} {changedAt : Time} {s : Session Journal World} :
    Post (bumpThread run runId threadId retitle changeType changedAt) s fun _ s' ↦
      s'.db.items = s.db.items ∧
      ∃ t c, s'.db.threads.find? threadId = some t ∧ s'.db.changes.getLast? = some c ∧
        c.threadId = threadId ∧ c.threadVersion = t.version ∧ c.changeType = changeType ∧
        c.runId = some runId := by
  unfold bumpThread
  rw [post_bind, post_read, post_bind, post_getOr]
  intro thread hthread
  obtain ⟨hfind, _⟩ := Option.filter_eq_some_iff.mp hthread
  unfold updateThreads insertThreadChange
  rw [post_bind, post_write, post_write]
  refine ⟨rfl, { thread with
      version := thread.version + 1, title := retitle thread.title, updatedAt := changedAt },
    ⟨s.db.changes.length + 1, run.principalId, threadId, thread.version + 1, changeType,
      some runId, changedAt⟩, ?_, ?_, rfl, rfl, rfl, rfl⟩
  · rw [Table.find?_update, hfind]
    simp [Table.key_of_find? hfind]
  · exact List.getLast?_concat

theorem updateThreadProjection_post {db : Database} {runId : String} {status : RunStatus}
    {changeType : String} {payload : Json} {seq : ℕ} {changedAt : Time}
    {s : Session Journal World} :
    Post (updateThreadProjection db runId status changeType payload seq changedAt) s fun _ s' ↦
      ∀ run threadId itemId, db.runs.find? runId = some run →
        nonEmpty run.threadId = some threadId → nonEmpty run.assistantItemId = some itemId →
        Shows runId threadId itemId status changeType payload seq s'.db := by
  unfold updateThreadProjection
  split
  · rename_i hnone
    refine (post_pure _).mpr fun run _ _ hrun ↦ ?_
    rw [hnone] at hrun
    cases hrun
  · rename_i run hrun
    split
    · rename_i threadId itemId hthread hitem
      rw [post_bind, post_getOr]
      intro itemStatus hstatus
      rw [post_bind]
      refine bumpAssistantItem_post.mono ?_
      rintro _ s₁ ⟨i, hid, hrunId, hmem⟩
      refine bumpThread_post.mono ?_
      rintro _ s₂ ⟨hitems, hchange⟩ run' threadId' itemId' hrun' hthread' hitem'
      rw [hrun] at hrun'
      obtain rfl := Option.some.inj hrun'
      rw [hthread] at hthread'
      obtain rfl := Option.some.inj hthread'
      rw [hitem] at hitem'
      obtain rfl := Option.some.inj hitem'
      rw [← hitems] at hmem
      refine ⟨⟨_, hmem, hid, hrunId, hstatus.symm, rfl, ?_⟩, hchange⟩
      intro hcompleted htext
      simp [hcompleted, htext]
    · rename_i hnot
      refine (post_pure _).mpr fun run' threadId itemId hrun' hthread hitem ↦ ?_
      rw [hrun] at hrun'
      obtain rfl := Option.some.inj hrun'
      exact absurd hitem (hnot threadId itemId hthread)

end Journal

/-! ## The parts of a commit -/

theorem Appended.of_parentRun {db db' : Database} {runId eventType : String} {e : Event}
    {added : List Event} (h : Appended db runId eventType e added)
    (hparent : parentRun db runId = parentRun db' runId) : Appended db' runId eventType e added := by
  cases h with
  | alone halone => exact .alone (hparent ▸ halone)
  | projected hlife hrun htells hprojects => exact .projected hlife (hparent ▸ hrun) htells hprojects

/-- What a new result wrote. -/
structure Committed (lease : Option ExecutionLease) (runId : String) (status : RunStatus)
    (eventType : String) (payload : Json) (e : Event) (db db' : Database) : Prop where
  run : ∃ r committedAt, db.runs.find? runId = some r ∧
    db'.runs.find? runId = some { r with
      status := status, updatedAt := committedAt
      completedAt := if status.terminal then some committedAt else none }
  event : Journal.IsEvent runId eventType (encodePayload payload) e
  /-- The event comes last, but for its projection to the parent. -/
  events : ∃ earlier added, Appended db runId eventType e added ∧
    db'.journal.events.rows = db.journal.events.rows ++ earlier ++ added
  shown : ∀ r threadId itemId, db.runs.find? runId = some r →
    nonEmpty r.threadId = some threadId → nonEmpty r.assistantItemId = some itemId →
    db'.journal.Shows runId threadId itemId status eventType payload e.seq
  job : ∀ held, lease = some held → ∃ job final at', job ∈ db.jobs.rows ∧
    job.leasedTo held = true ∧ settledJobStatus status = some final ∧
    db'.jobs.find? held.jobId = some { job with
      status := final, updatedAt := at', finishedAt := some at', leaseExpiresAt := none }
  idle : lease = none → db'.jobs = db.jobs

section Commit

variable {lease : Option ExecutionLease} {runId eventType : String} {status : RunStatus}
  {payload : Json} {s : Session Database World}

theorem settleExecutionJobUncommitted_settles (held : ExecutionLease) (settledAt : Time) :
    Post (settleExecutionJobUncommitted held status settledAt) s fun _ s' ↦
      (∃ job final, job ∈ s.db.jobs.rows ∧ job.leasedTo held = true ∧
        settledJobStatus status = some final ∧
        s'.db.jobs.find? held.jobId = some { job with
          status := final, updatedAt := settledAt, finishedAt := some settledAt,
          leaseExpiresAt := none }) ∧
      s'.db = { s.db with jobs := s'.db.jobs } := by
  unfold settleExecutionJobUncommitted updateJobsCounted updateJobs
  rw [post_bind]
  refine post_utcNow fun fenceAt w ↦ ?_
  rw [post_bind, post_getOr]
  intro final hfinal
  simp only [post_bind, post_read, post_pure, post_require, post_write]
  intro hcount
  have hsome : ∃ job ∈ s.db.jobs.rows, job.admits held fenceAt = true := by
    by_contra hnone
    have hzero : s.db.jobs.rowcount (fun j ↦ j.admits held fenceAt) = 0 := by
      rw [Table.rowcount_eq_zero_iff]
      intro j hj
      rw [Bool.eq_false_iff]
      exact fun hc ↦ hnone ⟨j, hj, hc⟩
    rw [hzero] at hcount
    cases hcount
  obtain ⟨job, hmem, hadmits⟩ := hsome
  have hleased := leasedTo_of_admits hadmits
  have hid : job.id = held.jobId := (leasedTo_iff.mp hleased).1
  refine ⟨⟨job, final, hmem, hleased, hfinal, ?_⟩, trivial⟩
  rw [Table.find?_update, ← hid, Table.find?_of_mem hmem]
  simp [hadmits]

theorem settleHeldJob_settles (settledAt : Time) :
    Post (settleHeldJob lease status settledAt) s fun _ s' ↦
      (∀ held, lease = some held → ∃ job final, job ∈ s.db.jobs.rows ∧
        job.leasedTo held = true ∧ settledJobStatus status = some final ∧
        s'.db.jobs.find? held.jobId = some { job with
          status := final, updatedAt := settledAt, finishedAt := some settledAt,
          leaseExpiresAt := none }) ∧
      s'.db = { s.db with jobs := s'.db.jobs } ∧ (lease = none → s'.db = s.db) := by
  cases lease with
  | none =>
      refine (post_pure _).mpr ⟨?_, rfl, fun _ ↦ rfl⟩
      intro held hheld
      cases hheld
  | some held =>
      refine (settleExecutionJobUncommitted_settles held settledAt).mono ?_
      rintro _ s' ⟨hjob, hdb⟩
      refine ⟨?_, hdb, fun hc ↦ by cases hc⟩
      intro held' hheld'
      obtain rfl := Option.some.inj hheld'
      exact hjob

theorem publishRunStatus_shows {changedAt : Time} (s : Session Database World) :
    Post (publishRunStatus runId status eventType payload changedAt) s fun e s' ↦
      s'.db = { s.db with journal := s'.db.journal } ∧
      Journal.IsEvent runId eventType (encodePayload payload) e ∧
      (∃ added, Appended s.db runId eventType e added ∧
        s'.db.journal.events.rows = s.db.journal.events.rows ++ added) ∧
      ∀ r threadId itemId, s.db.runs.find? runId = some r →
        nonEmpty r.threadId = some threadId → nonEmpty r.assistantItemId = some itemId →
        s'.db.journal.Shows runId threadId itemId status eventType payload e.seq := by
  unfold publishRunStatus appendEventUncommitted updateThreadProjectionUncommitted onJournal
  rw [post_bind, post_bind, post_read, post_zoom]
  refine (Journal.appendEvent_appends _ _ _ _ _ _).mono ?_
  rintro ⟨e, parentEvent⟩ s₁ ⟨hevent, added, happended, hrows⟩
  rw [post_bind, post_bind, post_read, post_zoom]
  refine (Journal.updateThreadProjection_post.and
    (Journal.updateThreadProjection_eventless _ _ _ _ _ _ _ _)).mono ?_
  rintro _ s₂ ⟨hshows, hsame⟩
  rw [post_pure]
  refine ⟨rfl, hevent, ⟨added, happended, ?_⟩, hshows⟩
  dsimp only
  rw [hsame]
  exact hrows

theorem writeRunResult_commits {run : Run} (hrun : s.db.runs.find? runId = some run) :
    Post (writeRunResult runId lease status eventType payload) s fun r s' ↦
      r.2 = true ∧ Committed lease runId status eventType payload r.1 s.db s'.db := by
  unfold writeRunResult
  rw [post_bind]
  refine post_utcNow fun committedAt w ↦ ?_
  rw [post_bind]
  have hcancel : Does [.receipt, .subagent] (Txn.when (status.terminal = true)
      (cancelUnstartedToolReceiptsUncommitted runId committedAt (parentRunError status))) :=
    .when (cancelUnstartedToolReceiptsUncommitted_does _ _ _)
  refine (hcancel _).mono ?_
  rintro _ s₁ hwriting
  have hwithin := hwriting.within
  have hruns : s₁.db.runs = s.db.runs := hwithin .runs (by decide)
  have hjobs : s₁.db.jobs = s.db.jobs := hwithin .jobs (by decide)
  obtain ⟨earlier, hearlier, _⟩ := hwriting.mirrors (by decide)
  rw [post_bind]
  unfold updateRuns
  rw [post_write, post_bind]
  refine (publishRunStatus_shows _).mono ?_
  rintro e s₃ ⟨hdb₃, hevent, ⟨added, happended, hadded⟩, hshows⟩
  rw [post_bind]
  refine (settleHeldJob_settles committedAt).mono ?_
  rintro _ s₄ ⟨hjob, hdb₄, hnone⟩
  rw [post_pure]
  have hfind₃ : s₃.db.runs.find? runId = some { run with
      status := status, updatedAt := committedAt
      completedAt := if status.terminal then some committedAt else none } := by
    rw [hdb₃]
    dsimp only
    rw [Table.find?_update, hruns, hrun]
    simp [Table.key_of_find? hrun]
  have hfind₄ : s₄.db.runs.find? runId = s₃.db.runs.find? runId := by rw [hdb₄]
  have hjournal : s₄.db.journal = s₃.db.journal := by rw [hdb₄]
  have hjobs₃ : s₃.db.jobs = s.db.jobs := by
    rw [hdb₃]
    exact hjobs
  refine ⟨rfl, ⟨run, committedAt, hrun, hfind₄.trans hfind₃⟩, hevent, ⟨earlier, added, ?_, ?_⟩,
    ?_, ?_, fun hlease ↦ ?_⟩
  · apply happended.of_parentRun
    apply parentRun_of_fixed
    dsimp only
    rw [Table.find?_update, hruns, hrun]
    simp [Table.key_of_find? hrun, Run.fixed]
  · rw [hjournal, hadded]
    exact congrArg (· ++ added) hearlier
  · intro r threadId itemId hr hthread hitem
    rw [hrun] at hr
    obtain rfl := Option.some.inj hr
    rw [hjournal]
    refine hshows { run with
      status := status, updatedAt := committedAt
      completedAt := if status.terminal then some committedAt else none } threadId itemId ?_ hthread hitem
    dsimp only
    rw [Table.find?_update, hruns, hrun]
    simp [Table.key_of_find? hrun]
  · intro held hheld
    obtain ⟨job, final, hmem, hleased, hfinal, hfound⟩ := hjob held hheld
    rw [hjobs₃] at hmem
    exact ⟨job, final, committedAt, hmem, hleased, hfinal, hfound⟩
  · rw [hnone hlease, hjobs₃]

/-- A commit that finds its result already there settles the job at most. -/
structure Repeated (lease : Option ExecutionLease) (runId : String) (status : RunStatus)
    (eventType : String) (payload : Json) (e : Event) (db db' : Database) : Prop where
  latest : latestEvent db runId eventType = some e
  status : ∃ r, db.runs.find? runId = some r ∧ r.status = status
  payload : encodePayload e.payloadJson = encodePayload payload
  same : db' = { db with jobs := db'.jobs }
  idle : lease = none → db' = db

theorem commitRunResult_commits {orphanRecovery : Bool} (s : Session Database World) :
    Post (commitRunResult lease runId status eventType payload orphanRecovery) s fun r s' ↦
      (r.2 = true → Committed lease runId status eventType payload r.1 s.db s'.db) ∧
      (r.2 = false → Repeated lease runId status eventType payload r.1 s.db s'.db) := by
  unfold commitRunResult findRun
  rw [post_bind, post_require]
  intro hresult
  refine post_runWriteTransaction fun w hfenced ↦ ?_
  rw [post_bind, post_read, post_bind, post_getOr]
  intro run hrun
  rw [post_bind]
  refine post_requireOrphan fun hidle ↦ ?_
  rw [post_bind, post_read]
  split
  · rename_i event hexisting
    have hsame : run.status = status := by
      by_contra hne
      simp [hne] at hexisting
    unfold repeatRunResult
    rw [post_bind, post_require]
    intro hpayload
    rw [post_bind]
    refine post_utcNow fun settledAt w' ↦ ?_
    rw [post_bind]
    refine (settleHeldJob_settles settledAt).mono ?_
    rintro _ s' ⟨_, hdb, hnone⟩
    rw [post_pure]
    refine ⟨Bool.noConfusion, fun _ ↦ ⟨?_, ⟨run, hrun, hsame⟩, hpayload, hdb, hnone⟩⟩
    rw [if_pos hsame] at hexisting
    exact hexisting
  · rw [post_bind, post_require]
    intro _
    refine (writeRunResult_commits hrun).mono ?_
    rintro r s' ⟨hnew, hcommitted⟩
    refine ⟨fun _ ↦ hcommitted, fun hc ↦ ?_⟩
    rw [hnew] at hc
    cases hc

end Commit

/-! ## Settled jobs -/

/-- The job is there and nobody holds it. -/
def JobSettled (db : Database) (jobId : String) : Prop :=
  ∃ job, db.jobs.find? jobId = some job ∧ job.active = false

theorem Write.jobSettled {k : Kind} {db db' : Database} {jobId : String} (h : Write k db db')
    (hjob : JobSettled db jobId) : JobSettled db' jobId := by
  obtain ⟨job, hfind, hactive⟩ := hjob
  by_cases hparts : Part.jobs ∉ k.parts
  · exact ⟨job, by rw [show db'.jobs = db.jobs from h.within .jobs hparts]; exact hfind, hactive⟩
  cases h with
  | @jobs _ p f hf hadv =>
      refine ⟨job, ?_, hactive⟩
      rw [Table.find?_update, hfind, Option.map_some]
      split
      · rename_i hp
        have hopen := (hadv job (Table.mem_of_find? hfind) hp).active
        rw [hactive] at hopen
        cases hopen
      · rfl
  | @newJob _ _ new heffect _ =>
      have hinsert := heffect.post (Q := fun db' ↦ db.jobs.insert? new = some db'.jobs) fun w ↦ by
        refine (insertRunJob_spec new ⟨db, w⟩).mono ?_
        rintro _ s ⟨jobs, hjobs, hdb⟩
        rw [hdb]
        exact hjobs
      refine ⟨job, ?_, hactive⟩
      rw [Table.find?_insert? hinsert]
      split
      · rename_i hid
        have hfresh := Table.find?_key_of_insert? hinsert
        rw [← hid, hfind] at hfresh
        cases hfresh
      · exact hfind
  | _ => exact absurd (by simp [Kind.parts]) hparts

theorem jobSettled_of_run {db db' : Database} {jobId : String}
    (hrun : store.Run (fun _ _ ↦ True) db db') (hjob : JobSettled db jobId) :
    JobSettled db' jobId := by
  refine hrun.preserves (P := fun db ↦ JobSettled db jobId) ?_ hjob
  rintro ⟨op, w⟩ db db' hsettled _ rfl
  exact Trace.preserves (P := fun db ↦ JobSettled db jobId) (fun _ _ _ _ hw ↦ hw.jobSettled)
    (op.after_writing db w) hsettled

theorem Committed.jobSettled {held : ExecutionLease} {runId eventType : String}
    {status : RunStatus} {payload : Json} {e : Event} {db db' : Database}
    (h : Committed (some held) runId status eventType payload e db db') :
    JobSettled db' held.jobId := by
  obtain ⟨job, final, at', _, _, hfinal, hfind⟩ := h.job held rfl
  refine ⟨_, hfind, ?_⟩
  have hend := settledJobStatus_final hfinal
  simp [Job.active, hend.1, hend.2]

/-- Behind the fence of a lease whose job is settled nothing happens. -/
theorem refused_of_jobSettled {held : ExecutionLease} {runId eventType : String}
    {status : RunStatus} {payload : Json} {orphanRecovery : Bool} {db : Database} {w : World}
    (hjob : JobSettled db held.jobId) :
    ∃ error, Txn.commit (commitRunResult (some held) runId status eventType payload
      orphanRecovery) db w = (.error error, db) := by
  apply commit_raises
  unfold commitRunResult
  rw [post_bind, post_require]
  intro _
  refine post_runWriteTransaction fun w' hfenced ↦ ?_
  obtain ⟨_, _, job, hmem, hadmits⟩ := hfenced held rfl
  obtain ⟨hid, _, hleased, _⟩ := leasedTo_iff.mp (leasedTo_of_admits hadmits)
  obtain ⟨job', hfind, hactive⟩ := hjob
  rw [← hid, Table.find?_of_mem hmem] at hfind
  obtain rfl := Option.some.inj hfind
  simp [Job.active, hleased] at hactive

/-! ## Results -/

structure RunResult where
  status : RunStatus
  eventType : String
  payload : Json

def RunResult.commit (r : RunResult) (lease : Option ExecutionLease) (runId : String)
    (orphanRecovery : Bool) : StoreTxn (Event × Bool) :=
  commitRunResult lease runId r.status r.eventType r.payload orphanRecovery

/-- The same result, with its payload as it is stored. -/
def RunResult.Same (r r' : RunResult) : Prop :=
  r.status = r'.status ∧ r.eventType = r'.eventType ∧
    encodePayload r.payload = encodePayload r'.payload

/-- A commit wrote everything, found everything there, or changed nothing. -/
def AllOrNothing (r : RunResult) (lease : Option ExecutionLease) (runId : String)
    (orphanRecovery : Bool) (db : Database) (w : World) : Prop :=
  match Txn.commit (r.commit lease runId orphanRecovery) db w with
  | (.error _, db') => db' = db
  | (.ok (e, true), db') => Committed lease runId r.status r.eventType r.payload e db db'
  | (.ok (e, false), db') => Repeated lease runId r.status r.eventType r.payload e db db'

/-- After `r` was committed as the event `e`, a commit of `r'` returns this
event when it is the same result, is refused when it is another, and changes
nothing. -/
def Repeats (r r' : RunResult) (lease : Option ExecutionLease) (runId : String)
    (orphanRecovery : Bool) (e : Event) (db : Database) (w : World) : Prop :=
  (r.Same r' → Txn.commit (r'.commit lease runId orphanRecovery) db w = (.ok (e, false), db)) ∧
  (¬r.Same r' → ∃ error, Txn.commit (r'.commit lease runId orphanRecovery) db w =
    (.error error, db))

theorem allOrNothing (r : RunResult) (lease : Option ExecutionLease) (runId : String)
    (orphanRecovery : Bool) (db : Database) (w : World) :
    AllOrNothing r lease runId orphanRecovery db w := by
  have hpost : Post (commitRunResult lease runId r.status r.eventType r.payload orphanRecovery)
      ⟨db, w⟩ fun res s' ↦
        (res.2 = true →
          Committed lease runId r.status r.eventType r.payload res.1 db s'.db) ∧
        (res.2 = false →
          Repeated lease runId r.status r.eventType r.payload res.1 db s'.db) :=
    commitRunResult_commits _
  unfold AllOrNothing RunResult.commit Txn.commit
  cases hres : commitRunResult lease runId r.status r.eventType r.payload orphanRecovery
      ⟨db, w⟩ with
  | error e => rfl
  | ok res =>
      obtain ⟨⟨e, created⟩, s'⟩ := res
      obtain ⟨hnew, hold⟩ := hpost _ _ hres
      cases created with
      | true => exact hnew rfl
      | false => exact hold rfl

/-- A commit is all or nothing. What the attempt that committed a result
commits later is refused, whatever happened since, so the repetition meets
its contract exactly when it is no repetition. -/
theorem repeats_iff_not_same (r : RunResult) (runId : String) (orphanRecovery : Bool)
    (db : Database) (w : World) :
    (∀ lease : Option ExecutionLease, AllOrNothing r lease runId orphanRecovery db w) ∧
    ∀ (held : ExecutionLease) (db₁ : Database) (e : Event),
      Txn.commit (r.commit (some held) runId orphanRecovery) db w = (.ok (e, true), db₁) →
      ∀ db₂, store.Run (fun _ _ ↦ True) db₁ db₂ → ∀ (r' : RunResult) (w' : World),
        Repeats r r' (some held) runId orphanRecovery e db₂ w' ↔ ¬r.Same r' := by
  refine ⟨fun lease ↦ allOrNothing r lease runId orphanRecovery db w, ?_⟩
  intro held db₁ e hcommit db₂ hrun r' w'
  have hfirst := allOrNothing r (some held) runId orphanRecovery db w
  unfold AllOrNothing at hfirst
  rw [hcommit] at hfirst
  have hsettled := jobSettled_of_run hrun hfirst.jobSettled
  obtain ⟨error, hrefused⟩ : ∃ error, Txn.commit (r'.commit (some held) runId orphanRecovery) db₂
      w' = (.error error, db₂) := refused_of_jobSettled hsettled
  constructor
  · rintro ⟨hsame, _⟩ h
    rw [hsame h] at hrefused
    cases hrefused
  · exact fun h ↦ ⟨fun hsame ↦ absurd hsame h, fun _ ↦ ⟨error, hrefused⟩⟩

/-! ### A lost answer

A worker commits its result, does not learn of it and commits it again.
-/

namespace LostAnswer

def lease : ExecutionLease := ⟨"job_xxxxx", "run_xx", "worker", 1⟩

def done : RunResult := ⟨.completed, "run.completed", .obj [("final_text", .str "done")]⟩

def commit (db : Database) (n : ℕ) : Except StoreError (Event × Bool) × Database :=
  Txn.commit (done.commit (some lease) lease.runId false) db (.counting n)

theorem commit_new : ∃ e, commit Database.claimed 20 =
    (.ok (e, true), (commit Database.claimed 20).2) := by
  have hnew : (commit Database.claimed 20).1.toOption.map Prod.snd = some true := by
    decide +kernel
  cases hres : commit Database.claimed 20 with
  | mk res db' =>
      rw [hres] at hnew
      cases res with
      | error e => cases hnew
      | ok r =>
          obtain ⟨e, created⟩ := r
          obtain rfl : created = true := Option.some.inj hnew
          exact ⟨e, rfl⟩

theorem repeats_iff_not_same_lost : ∃ e,
    ¬Repeats done done (some lease) lease.runId false e (commit Database.claimed 20).2
      (.counting 40) := by
  obtain ⟨e, hcommit⟩ := commit_new
  have hiff := (repeats_iff_not_same done lease.runId false Database.claimed _).2 lease _ e hcommit
    _ (.refl _) done (.counting 40)
  exact ⟨e, fun hc ↦ hiff.mp hc ⟨rfl, rfl, rfl⟩⟩

/-- The same result for the same job generation is refused. -/
theorem not_repeats : ¬∀ (r : RunResult) (held : ExecutionLease) (runId : String)
    (orphanRecovery : Bool) (db db₁ : Database) (w : World) (e : Event),
    Txn.commit (r.commit (some held) runId orphanRecovery) db w = (.ok (e, true), db₁) →
    ∀ (r' : RunResult) (w' : World),
      Repeats r r' (some held) runId orphanRecovery e db₁ w' := by
  intro h
  obtain ⟨e, hcommit⟩ := commit_new
  have hrepeats := h done lease lease.runId false Database.claimed _ _ e hcommit done (.counting 40)
  have hsecond := hrepeats.1 ⟨rfl, rfl, rfl⟩
  have hrefused : (commit (commit Database.claimed 20).2 40).1.isOk = false := by decide +kernel
  unfold commit at hrefused
  rw [show Txn.commit (done.commit (some lease) lease.runId false)
    (Txn.commit (done.commit (some lease) lease.runId false) Database.claimed (.counting 20)).2
    (.counting 40) = _ from hsecond] at hrefused
  cases hrefused

end LostAnswer

end ShejaneRuntime.Store
