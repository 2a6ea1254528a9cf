import ShejaneRuntime.Lockstep.Machine
import ShejaneRuntime.Store.Frames
import ShejaneRuntime.Store.Operations

/-!
# The store refines the lockstep machine

`abs` reads a state of the machine off a database. Every operation of the
store that starts in lockstep is a run of the machine: most leave `abs`
alone, by their footprint, and the others take the steps named after them.
-/

namespace ShejaneRuntime.Store

open Lib Lib.Txn Lockstep

/-! ## The abstraction -/

def Job.view (job : Job) : JobView String :=
  ⟨job.runId, job.status, job.quarantinedAt.isSome, job.leaseExpiresAt.isSome⟩

def abs (db : Database) : State String String Event where
  status runId := (db.runs.find? runId).map Run.status
  job jobId := (db.jobs.find? jobId).map Job.view
  log := db.journal.lifecycle

/-- The event is the one that reports this result of a run. -/
def announces (e : Event) (st : RunStatus) : Prop := runResultEvent st = some e.eventType

theorem Within.abs_eq {parts : List Part} {db db' : Database} (h : Within parts db db')
    (hparts : Part.runs ∉ parts ∧ Part.jobs ∉ parts ∧ Part.lifecycle ∉ parts) :
    abs db' = abs db := by
  have hruns : db'.runs = db.runs := h .runs hparts.1
  have hjobs : db'.jobs = db.jobs := h .jobs hparts.2.1
  have hlog : db'.journal.lifecycle = db.journal.lifecycle := h .lifecycle hparts.2.2
  unfold abs
  rw [hruns, hjobs, hlog]

variable {α : Type}

/-- A transaction that writes none of what the machine sees. -/
theorem Writes.silent {parts : List Part} {m : StoreTxn α} (h : Writes parts m)
    (hparts : Part.runs ∉ parts ∧ Part.jobs ∉ parts ∧ Part.lifecycle ∉ parts) :
    Preserves abs m :=
  Keeps.mono h fun _ _ hdb ↦ hdb.abs_eq hparts

/-! ## Writes as the machine sees them -/

theorem status_of_find? {db : Database} {runId : String} {run : Run}
    (h : db.runs.find? runId = some run) : (abs db).status runId = some run.status := by
  simp [abs, h]

theorem job_of_find? {db : Database} {jobId : String} {job : Job}
    (h : db.jobs.find? jobId = some job) : (abs db).job jobId = some job.view := by
  simp [abs, h]

theorem find?_of_status {db : Database} {runId : String} {st : RunStatus}
    (h : (abs db).status runId = some st) :
    ∃ run, db.runs.find? runId = some run ∧ run.status = st :=
  Option.map_eq_some_iff.mp h

theorem find?_of_job {db : Database} {jobId : String} {v : JobView String}
    (h : (abs db).job jobId = some v) :
    ∃ job, db.jobs.find? jobId = some job ∧ job.view = v :=
  Option.map_eq_some_iff.mp h

/-- Updating the row of one key. -/
theorem find?_update_row {κ ρ : Type} {key : ρ → κ} [DecidableEq κ] {t : Table key} {p : ρ → Bool}
    {f : ρ → ρ} {hf : ∀ r, key (f r) = key r} {k : κ} {row : ρ} (hrow : t.find? k = some row)
    (hp : ∀ r, p r = true → key r = k) (hprow : p row = true) (k' : κ) :
    (t.update p f hf).find? k' = if k' = k then some (f row) else t.find? k' := by
  rw [Table.find?_update]
  by_cases hk : k' = k
  · subst hk
    simp [hrow, hprow]
  · rw [if_neg hk]
    cases hfind : t.find? k' with
    | none => rfl
    | some row' =>
        have hnot : p row' = false := by
          rw [Bool.eq_false_iff]
          intro hc
          exact hk ((Table.key_of_find? hfind).symm.trans (hp row' hc))
        simp [hnot]

/-- Moving a run that exists. -/
theorem abs_updateRuns {db : Database} {runId : String} {run : Run} {st : RunStatus}
    {p : Run → Bool} {f : Run → Run} {hf : ∀ r, (f r).id = r.id}
    (hrun : db.runs.find? runId = some run) (hp : ∀ r, p r = true → r.id = runId)
    (hprun : p run = true) (hst : (f run).status = st) :
    abs { db with runs := db.runs.update p f hf } = (abs db).setRun runId st [] := by
  apply State.ext
  · funext r
    rw [State.setRun_status]
    simp only [abs, find?_update_row hrun hp hprun]
    split <;> simp [hst]
  · rfl
  · funext r
    rw [State.setRun_log]
    split <;> simp_all [abs]

/-- Changing a job that exists. -/
theorem abs_updateJobs {db : Database} {jobId : String} {job : Job} {p : Job → Bool}
    {f : Job → Job} {hf : ∀ j, (f j).id = j.id} (hjob : db.jobs.find? jobId = some job)
    (hp : ∀ j, p j = true → j.id = jobId) (hpjob : p job = true) :
    abs { db with jobs := db.jobs.update p f hf } = (abs db).setJob jobId (f job).view := by
  apply State.ext
  · rfl
  · funext j
    rw [State.setJob_job]
    simp only [abs, find?_update_row hjob hp hpjob]
    split <;> simp
  · rfl

/-- A change of jobs that the machine does not see. -/
theorem abs_updateJobs_of_view {db : Database} {p : Job → Bool} {f : Job → Job}
    {hf : ∀ j, (f j).id = j.id} (hview : ∀ j ∈ db.jobs.rows, p j = true → (f j).view = j.view) :
    abs { db with jobs := db.jobs.update p f hf } = abs db := by
  apply State.ext
  · rfl
  · funext jobId
    simp only [abs, Table.find?_update, Option.map_map]
    cases hfind : db.jobs.find? jobId with
    | none => rfl
    | some job =>
        by_cases hp : p job = true
        · simp [hp, hview job (Table.mem_of_find? hfind) hp]
        · simp [hp]
  · rfl

theorem abs_insertRun {db : Database} {run : Run} {runs : Table Run.id}
    (h : db.runs.insert? run = some runs) :
    (abs db).status run.id = none ∧
      abs { db with runs := runs } = (abs db).setRun run.id run.status [] := by
  refine ⟨by simp [abs, Table.find?_key_of_insert? h], ?_⟩
  apply State.ext
  · funext r
    rw [State.setRun_status]
    simp only [abs, Table.find?_insert? h]
    split <;> simp
  · rfl
  · funext r
    rw [State.setRun_log]
    split <;> simp_all [abs]

theorem abs_insertJob {db : Database} {job : Job} {jobs : Table Job.id}
    (h : db.jobs.insert? job = some jobs) :
    (abs db).job job.id = none ∧
      abs { db with jobs := jobs } = (abs db).setJob job.id job.view := by
  refine ⟨by simp [abs, Table.find?_key_of_insert? h], ?_⟩
  apply State.ext
  · rfl
  · funext j
    rw [State.setJob_job]
    simp only [abs, Table.find?_insert? h]
    split <;> simp
  · rfl

/-- Reporting an event of a run that exists. -/
theorem abs_reported {db db' : Database} {runId : String} {e : Event} {cur : RunStatus}
    (hcur : (abs db).status runId = some cur) (hrep : Reported runId e db db')
    (hwithin : Within [.journal, .lifecycle] db db') :
    abs db' = (abs db).setRun runId cur [e] := by
  have hruns : db'.runs = db.runs := hwithin.same .runs (by decide)
  have hjobs : db'.jobs = db.jobs := hwithin.same .jobs (by decide)
  apply State.ext
  · funext r
    rw [State.setRun_status]
    by_cases hr : r = runId
    · subst hr
      rw [if_pos rfl, ← hcur]
      simp [abs, hruns]
    · simp [abs, hruns, hr]
  · simp [abs, hjobs, State.setRun]
  · exact hrep

/-- The active job that a query found, and its view. -/
theorem job_of_mem {db : Database} {job : Job} (h : job ∈ db.jobs.rows) :
    (abs db).job job.id = some job.view :=
  job_of_find? (Table.find?_of_mem h)

theorem view_active {job : Job} : job.view.active ↔ job.active = true := by
  simp [JobView.active, Job.view, Job.active]

/-- No row of an active job of the run means that the run is idle. -/
theorem idle_of_findActiveJob {db : Database} {runId : String}
    (h : (db.jobs.rows.find? fun j ↦ j.runId = runId && j.active) = none) :
    (abs db).Idle runId := by
  intro jobId v hv hrun hactive
  obtain ⟨job, hjob, rfl⟩ := find?_of_job hv
  have hnone := List.find?_eq_none.mp h job (Table.mem_of_find? hjob)
  apply hnone
  simp only [Bool.and_eq_true, decide_eq_true_eq]
  exact ⟨hrun, view_active.mp hactive⟩

/-! ## Refinement -/

/-- From a database in lockstep, what happened is a run of the machine. -/
def Follows (allowed : RunStatus → Prop) (db db' : Database) : Prop :=
  Locked announces allowed (abs db) → Steps announces allowed (abs db) (abs db')

variable {allowed : RunStatus → Prop}

instance : Std.Refl (Follows allowed) := ⟨fun _ _ ↦ .refl⟩

instance : IsTrans Database (Follows allowed) := ⟨fun _ _ _ h h' hlocked ↦
  (h hlocked).trans (h' (Steps.locked (h hlocked) hlocked))⟩

theorem Follows.of_abs_eq {db db' : Database} (h : abs db' = abs db) : Follows allowed db db' := by
  intro _
  rw [h]

theorem keeps_follows {m : StoreTxn α} (h : ∀ s : Session Database World,
    Locked announces allowed (abs s.db) →
      Post m s fun _ s' ↦ Steps announces allowed (abs s.db) (abs s'.db)) :
    Keeps (Follows allowed) m :=
  fun s a s' hm hlocked ↦ h s hlocked a s' hm

theorem Writes.follows {parts : List Part} {m : StoreTxn α} (h : Writes parts m)
    (hparts : Part.runs ∉ parts ∧ Part.jobs ∉ parts ∧ Part.lifecycle ∉ parts) :
    Keeps (Follows allowed) m :=
  Keeps.mono h fun _ _ hdb ↦ .of_abs_eq (hdb.abs_eq hparts)

/-- What happened is a run of the machine in which every run reports at most once. -/
def Turns (allowed : RunStatus → Prop) (db db' : Database) : Prop :=
  Locked announces allowed (abs db) → Turn announces allowed (abs db) (abs db')

instance : Std.Refl (Turns allowed) := ⟨fun _ _ ↦ .refl _⟩

instance : IsTrans Database (Turns allowed) := ⟨fun _ _ _ h h' hlocked ↦
  (h hlocked).trans (h' (Steps.locked (h hlocked).1 hlocked))⟩

theorem keeps_turns {m : StoreTxn α} (h : ∀ s : Session Database World,
    Locked announces allowed (abs s.db) →
      Post m s fun _ s' ↦ Turn announces allowed (abs s.db) (abs s'.db)) :
    Keeps (Turns allowed) m :=
  fun s a s' hm hlocked ↦ h s hlocked a s' hm

theorem Writes.turns {parts : List Part} {m : StoreTxn α} (h : Writes parts m)
    (hparts : Part.runs ∉ parts ∧ Part.jobs ∉ parts ∧ Part.lifecycle ∉ parts) :
    Keeps (Turns allowed) m := by
  refine Keeps.mono h fun _ _ hdb _ ↦ ?_
  rw [hdb.abs_eq hparts]
  exact .refl _

/-- What happened is one step of the machine, or none. -/
def StepsOnce (allowed : RunStatus → Prop) (db db' : Database) : Prop :=
  Locked announces allowed (abs db) →
    Relation.ReflGen (Step announces allowed) (abs db) (abs db')

theorem keeps_once {m : StoreTxn α} (h : ∀ s : Session Database World,
    Locked announces allowed (abs s.db) →
      Post m s fun _ s' ↦ Relation.ReflGen (Step announces allowed) (abs s.db) (abs s'.db)) :
    Keeps (StepsOnce allowed) m :=
  fun s a s' hm hlocked ↦ h s hlocked a s' hm

theorem Writes.once {parts : List Part} {m : StoreTxn α} (h : Writes parts m)
    (hparts : Part.runs ∉ parts ∧ Part.jobs ∉ parts ∧ Part.lifecycle ∉ parts) :
    Keeps (StepsOnce allowed) m := by
  refine Keeps.mono h fun _ _ hdb _ ↦ ?_
  rw [hdb.abs_eq hparts]

/-- Writes inside some parts keep the jobs and what the machine sees. -/
theorem Writes.post_silent {parts : List Part} {m : StoreTxn α} (h : Writes parts m)
    (s : Session Database World) {Q : α → Session Database World → Prop}
    (hQ : ∀ a s', abs s'.db = abs s.db → s'.db.jobs = s.db.jobs → Q a s')
    (hparts : Part.runs ∉ parts ∧ Part.jobs ∉ parts ∧ Part.lifecycle ∉ parts) :
    Post m s Q :=
  (h s).mono fun a s' hdb ↦ hQ a s' (hdb.abs_eq hparts) (hdb .jobs hparts.2.1)

/-! ### Reporting a status -/

/-- The machine's view of a run that moves while the jobs stay. -/
def Moved (runId : String) (st : RunStatus) (es : List Event) (db db' : Database) : Prop :=
  abs db' = (abs db).setRun runId st es ∧ db'.jobs = db.jobs

theorem Moved.trans {runId : String} {st st' : RunStatus} {es es' : List Event}
    {db₁ db₂ db₃ : Database} (h : Moved runId st es db₁ db₂) (h' : Moved runId st' es' db₂ db₃) :
    Moved runId st' (es ++ es') db₁ db₃ :=
  ⟨by rw [h'.1, h.1, State.setRun_setRun], h'.2.trans h.2⟩

theorem updateRuns_post {s : Session Database World} {runId : String} {run : Run}
    {p : Run → Bool} {f : Run → Run} {hf : ∀ r, (f r).id = r.id} (st : RunStatus)
    (hrun : s.db.runs.find? runId = some run) (hp : ∀ r, p r = true → r.id = runId)
    (hprun : p run = true) (hst : (f run).status = st) :
    Post (updateRuns p f hf) s fun _ s' ↦ Moved runId st [] s.db s'.db :=
  (post_write _).mpr ⟨abs_updateRuns hrun hp hprun hst, rfl⟩

/-- Setting the status of a run that exists. -/
theorem setStatus_post {s : Session Database World} {runId : String} {cur st : RunStatus}
    {f : Run → Run} {hf : ∀ r, (f r).id = r.id} (hcur : (abs s.db).status runId = some cur)
    (hst : ∀ r, (f r).status = st) :
    Post (updateRuns (fun r ↦ r.id = runId) f hf) s fun _ s' ↦ Moved runId st [] s.db s'.db := by
  obtain ⟨run, hrun, _⟩ := find?_of_status hcur
  exact updateRuns_post st hrun (by simp) (by simp [Table.key_of_find? hrun]) (hst run)

theorem appendLifecycle_post {s : Session Database World} {runId : String} {cur : RunStatus}
    {eventType : String} {payloadJson : Json} {createdAt : Time}
    (hcur : (abs s.db).status runId = some cur) (hlife : isLifecycleEvent eventType = true) :
    Post (appendEventUncommitted runId eventType payloadJson createdAt) s fun r s' ↦
      Journal.IsEvent runId eventType payloadJson r.1 ∧ Moved runId cur [r.1] s.db s'.db := by
  refine (appendEventUncommitted_post _ _ _ _ hlife s).mono ?_
  rintro r s' ⟨hevent, hreported, hwithin⟩
  exact ⟨hevent, abs_reported hcur hreported hwithin, hwithin.same .jobs (by decide)⟩

theorem Moved.silent {runId : String} {st : RunStatus} {es : List Event} {db₁ db₂ db₃ : Database}
    (h : Moved runId st es db₁ db₂) (habs : abs db₃ = abs db₂) (hjobs : db₃.jobs = db₂.jobs) :
    Moved runId st es db₁ db₃ :=
  ⟨habs.trans h.1, hjobs.trans h.2⟩

theorem Moved.of_silent {runId : String} {st : RunStatus} {es : List Event}
    {db₁ db₂ db₃ : Database} (habs : abs db₂ = abs db₁) (hjobs : db₂.jobs = db₁.jobs)
    (h : Moved runId st es db₂ db₃) : Moved runId st es db₁ db₃ :=
  ⟨by rw [h.1, habs], h.2.trans hjobs⟩

theorem Moved.status {runId : String} {st : RunStatus} {es : List Event} {db db' : Database}
    (h : Moved runId st es db db') : (abs db').status runId = some st := by
  rw [h.1]
  simp [State.setRun_status]

theorem publishRunStatus_post {s : Session Database World} {runId : String} {cur st : RunStatus}
    {eventType : String} {payload : Json} {at' : Time}
    (hcur : (abs s.db).status runId = some cur) (hlife : isLifecycleEvent eventType = true) :
    Post (publishRunStatus runId st eventType payload at') s fun e s' ↦
      Journal.IsEvent runId eventType (encodePayload payload) e ∧
        Moved runId cur [e] s.db s'.db := by
  unfold publishRunStatus
  rw [post_bind]
  refine (appendLifecycle_post hcur hlife).mono ?_
  rintro ⟨event, parent⟩ s₁ ⟨hevent, hmoved⟩
  rw [post_bind]
  refine Writes.post_silent
    (onJournal_writes fun _ ↦ (Journal.updateThreadProjection_eventless _ _ _ _ _ _ _).quiet) s₁ ?_ (by decide)
  intro _ s₂ habs hjobs
  rw [post_pure]
  exact ⟨hevent, hmoved.silent habs hjobs⟩

/-! ### Changing jobs -/

theorem changeJob_post {s : Session Database World} {jobId : String} {job : Job} {p : Job → Bool}
    {f : Job → Job} {hf : ∀ j, (f j).id = j.id} (hjob : s.db.jobs.find? jobId = some job)
    (hp : ∀ j, p j = true → j.id = jobId) (hpjob : p job = true) :
    Post (updateJobs p f hf) s fun _ s' ↦
      abs s'.db = (abs s.db).setJob jobId (f job).view ∧ s'.db.runs = s.db.runs :=
  (post_write _).mpr ⟨abs_updateJobs hjob hp hpjob, rfl⟩

/-- A change of jobs that the machine does not see. -/
theorem touchJobs_post {s : Session Database World} {p : Job → Bool} {f : Job → Job}
    {hf : ∀ j, (f j).id = j.id}
    (hview : ∀ j ∈ s.db.jobs.rows, p j = true → (f j).view = j.view) :
    Post (updateJobs p f hf) s fun _ s' ↦ abs s'.db = abs s.db :=
  (post_write _).mpr (abs_updateJobs_of_view hview)

/-! ### Cancellation -/

theorem announces_of_event {st : RunStatus} {eventType : String} {e : Event}
    (h : runResultEvent st = some eventType) (he : e.eventType = eventType) : announces e st := by
  unfold announces
  rw [he]
  exact h

theorem finishRunCancelUncommitted_post {s : Session Database World} {runId : String}
    {requestedAt : Time} {cur : RunStatus} (hcur : (abs s.db).status runId = some cur) :
    Post (finishRunCancelUncommitted runId requestedAt) s fun _ s' ↦
      ∃ e, announces e .canceled ∧ Moved runId .canceled [e] s.db s'.db := by
  unfold finishRunCancelUncommitted
  rw [post_bind]
  refine (cancelPendingWaits_does _ _).writes.post_silent s ?_ (by decide)
  intro _ s₁ habs₁ hjobs₁
  rw [post_bind]
  refine (cancelUnstartedToolReceiptsUncommitted_does _ _ _).writes.post_silent s₁ ?_ (by decide)
  intro _ s₂ habs₂ hjobs₂
  have habs : abs s₂.db = abs s.db := habs₂.trans habs₁
  rw [← habs] at hcur
  rw [post_bind]
  refine (setStatus_post hcur (by intro r; rfl)).mono ?_
  intro _ s₃ hmoved₃
  rw [post_bind]
  refine (appendLifecycle_post hmoved₃.status (by decide)).mono ?_
  rintro ⟨event, parent⟩ s₄ ⟨hevent, hmoved₄⟩
  refine Writes.post_silent
    (onJournal_writes fun _ ↦ (Journal.updateThreadProjection_eventless _ _ _ _ _ _ _).quiet) s₄ ?_ (by decide)
  intro _ s₅ habs₅ hjobs₅
  have hmoved := ((hmoved₃.trans hmoved₄).silent habs₅ hjobs₅).of_silent habs
    (hjobs₂.trans hjobs₁)
  exact ⟨event, announces_of_event rfl hevent.2.1, hmoved⟩

theorem cancelWaitingRun_turns {s : Session Database World} {runId : String}
    (hquiet : ∀ j v, (abs s.db).job j = some v → v.run = runId → v.active → v.quarantined = true) :
    Post (cancelWaitingRun runId) s fun _ s' ↦
      Turn announces allowed (abs s.db) (abs s'.db) := by
  unfold cancelWaitingRun findRun
  rw [post_bind, post_read, post_ite]
  refine ⟨fun hwaiting ↦ ?_, fun _ ↦ (post_pure _).mpr (.refl _)⟩
  obtain ⟨run, hrun, hwait⟩ := option_any_iff.mp hwaiting
  rw [post_bind]
  refine post_utcNow fun now w ↦ ?_
  rw [post_bind]
  refine (finishRunCancelUncommitted_post (s := ⟨_, w⟩) (status_of_find? hrun)).mono ?_
  rintro _ s' ⟨e, he, habs, _⟩
  rw [post_pure, habs]
  exact .cancelWaiting (status_of_find? hrun) hwait hquiet he

theorem cancelActiveJob_turns {s : Session Database World} {job : Job}
    (hlocked : Locked announces allowed (abs s.db)) (hjob : job ∈ s.db.jobs.rows)
    (hactive : job.active = true) :
    Post (cancelActiveJob job.runId job) s fun _ s' ↦
      Turn announces allowed (abs s.db) (abs s'.db) := by
  have hfind := Table.find?_of_mem hjob
  unfold cancelActiveJob
  rw [post_bind]
  refine post_utcNow fun now w ↦ ?_
  rw [post_ite]
  refine ⟨fun _ ↦ ?_, fun hnot ↦ ?_⟩
  · rw [post_bind]
    refine (touchJobs_post (by intros; rfl)).mono ?_
    intro _ s' habs
    rw [post_pure, habs]
    exact .refl _
  · have hpending : job.status = .pending := by
      simpa [Job.active, hnot] using hactive
    obtain ⟨_, st, hst, _⟩ := hlocked.status_of_pending (job_of_find? hfind) hpending
    rw [post_bind]
    refine (changeJob_post (s := ⟨_, w⟩) hfind (by intro j; simp_all) (by simp [hpending])).mono ?_
    rintro _ s₁ ⟨habs₁, _⟩
    have hst₁ : (abs s₁.db).status job.runId = some st := by
      rw [habs₁]
      exact hst
    rw [post_bind]
    refine (finishRunCancelUncommitted_post hst₁).mono ?_
    rintro _ s₂ ⟨e, he, habs₂, _⟩
    rw [post_pure, habs₂, habs₁]
    exact .cancelPending hlocked (job_of_find? hfind) hpending he

theorem requestRunCancelUncommitted_turns (runId : String) :
    Keeps (Turns allowed) (requestRunCancelUncommitted runId) := by
  refine keeps_turns fun s hlocked ↦ ?_
  unfold requestRunCancelUncommitted
  rw [post_bind, post_read]
  split
  · rename_i hnone
    apply cancelWaitingRun_turns
    rintro jobId v hv rfl hactive
    obtain ⟨job, hjob, rfl⟩ := find?_of_job hv
    have hno := List.find?_eq_none.mp hnone job (Table.mem_of_find? hjob)
    have hrow := view_active.mp hactive
    by_contra hq
    simp [Job.view] at hq hno
    exact absurd hq (hno hrow)
  · rename_i job hsome
    have hmem := List.mem_of_find?_eq_some hsome
    have hcond := List.find?_some hsome
    simp only [Bool.and_eq_true, decide_eq_true_eq] at hcond
    obtain ⟨⟨rfl, hactive⟩, _⟩ := hcond
    exact cancelActiveJob_turns hlocked hmem hactive

theorem requestRunCancelTreeUncommitted_turns (runId : String) :
    Keeps (Turns allowed) (requestRunCancelTreeUncommitted runId) := by
  refine .bind (.read _) fun targets ↦ .bind (.mapM (fun target ↦ ?_) targets) fun _ ↦ .pure _
  exact .bind (requestRunCancelUncommitted_turns _) fun _ ↦ .pure _

theorem requestRunCancelCommand_turns (principalId commandId runId : String) :
    Keeps (Turns allowed) (requestRunCancelCommand principalId commandId runId) :=
  keeps_acceptCommand <| .bind (.read _) fun _ ↦ .bind (.require _ _) fun _ ↦
    .bind (requestRunCancelTreeUncommitted_turns _) fun _ ↦ .bind keeps_utcNow fun _ ↦
    .bind ((recordCommandReceiptUncommitted_does _ _ _ _ _ _ _).writes.turns (by decide)) fun _ ↦
    .pure _

/-! ### Expired leases -/

/-- An attempt that is lost: its job is quarantined and its run with it. -/
def Quarantined (jobId : String) (v : JobView String) (db db' : Database) : Prop :=
  ∃ e, abs db' = ((abs db).setJob jobId { v with quarantined := true, live := false }).setRun v.run
    .cleanupRequired [e]

theorem quarantineExpiredJob_post {s : Session Database World} {row : Job} {v : JobView String}
    {now : Time} (hlocked : Locked announces allowed (abs s.db))
    (hjob : (abs s.db).job row.id = some v) (hheld : v.held) (hrun : v.run = row.runId) :
    Post (quarantineExpiredJob row now) s fun _ s' ↦ Quarantined row.id v s.db s'.db := by
  have hcur := hlocked.status_of_held hjob hheld
  unfold quarantineExpiredJob requireRunCleanup sandboxCleanupReportUncommitted
  rw [post_bind]
  refine (cancelUnstartedToolReceiptsUncommitted_does _ _ _).writes.post_silent s ?_ (by decide)
  intro _ s₁ habs₁ _
  rw [← habs₁] at hjob hcur
  obtain ⟨job, hfind, rfl⟩ := find?_of_job hjob
  have hleased : job.status = .leased := hheld.1
  rw [post_bind]
  refine (changeJob_post hfind ?_ ?_).mono ?_
  · intro j hj
    simp_all
  · simp [Table.key_of_find? hfind, hleased]
  rintro _ s₂ ⟨habs₂, _⟩
  have hcur₂ : (abs s₂.db).status row.runId = some .running := by
    rw [habs₂, ← hrun]
    exact hcur
  rw [post_bind]
  refine (setStatus_post hcur₂ (by intro r; rfl)).mono ?_
  intro _ s₃ hmoved₃
  rw [post_bind, post_read, post_bind]
  refine (publishRunStatus_post hmoved₃.status (by decide)).mono ?_
  rintro e s₄ ⟨_, hmoved₄⟩
  rw [post_pure]
  refine ⟨e, ?_⟩
  rw [(hmoved₃.trans hmoved₄).1, habs₂, habs₁, ← hrun]
  rfl

/-- The rows of expired jobs whose attempts are still to be given up. -/
def Expiring (rows : List (Job × RunStatus)) (db : Database) : Prop :=
  (rows.map fun row ↦ row.1.id).Nodup ∧ ∀ row ∈ rows, row.2 = .running ∧
    ∃ v, (abs db).job row.1.id = some v ∧ v.held ∧ v.run = row.1.runId

theorem requeueExpiredJob_post {s : Session Database World} {row : Job × RunStatus}
    {rows : List (Job × RunStatus)} {now : Time} (hlocked : Locked announces allowed (abs s.db))
    (hexpiring : Expiring (row :: rows) s.db) :
    Post (requeueExpiredJob now row) s fun _ s' ↦
      Turn announces allowed (abs s.db) (abs s'.db) ∧ Expiring rows s'.db := by
  obtain ⟨hnodup, hrows⟩ := hexpiring
  obtain ⟨hrunning, v, hjob, hheld, hrun⟩ := hrows row (by simp)
  unfold requeueExpiredJob
  rw [post_bind]
  refine (settleLostLedgers_does _ _ _ _).writes.post_silent s ?_ (by decide)
  intro _ s₁ habs₁ _
  rw [post_bind]
  refine Writes.post_silent (updateSandboxProcesses_writes _ _ _) s₁ ?_ (by decide)
  intro _ s₂ habs₂ _
  have habs : abs s₂.db = abs s.db := habs₂.trans habs₁
  rw [← habs] at hlocked hjob
  rw [hrunning]
  refine (quarantineExpiredJob_post hlocked hjob hheld hrun).mono ?_
  rintro _ s₃ ⟨e, habs₃⟩
  rw [← habs, habs₃]
  refine ⟨.quarantine hlocked e hjob hheld, ?_, ?_⟩
  · exact (List.nodup_cons.mp hnodup).2
  · intro row' hrow'
    obtain ⟨hrunning', v', hjob', hheld', hrun'⟩ := hrows row' (by simp [hrow'])
    have hne : row'.1.id ≠ row.1.id := by
      intro hc
      apply (List.nodup_cons.mp hnodup).1
      exact List.mem_map.mpr ⟨row', hrow', hc⟩
    refine ⟨hrunning', v', ?_, hheld', hrun'⟩
    rw [habs₃, State.setRun_job, State.setJob_job, if_neg hne, habs]
    exact hjob'

theorem nodup_expiredJobs (db : Database) (now : Time) :
    ((expiredJobs db now).map fun row ↦ row.1.id).Nodup := by
  unfold expiredJobs
  dsimp only
  generalize hrows : orderByTimeId _ _ _ = rows
  have hnodup : (rows.map Job.id).Nodup := by
    rw [← hrows, ((orderByTimeId_perm _ _ _).map Job.id).nodup_iff]
    exact (List.filter_sublist.map Job.id).nodup db.jobs.nodup
  have hsub : ((rows.filterMap fun j ↦ (db.runs.find? j.runId).map fun r ↦ (j, r.status)).map
      fun row ↦ row.1.id).Sublist (rows.map Job.id) := by
    clear hrows hnodup
    induction rows with
    | nil => exact List.Sublist.slnil
    | cons job rows ih =>
        cases hrun : db.runs.find? job.runId with
        | none => simpa [hrun] using ih.cons job.id
        | some run => simpa [hrun] using ih
  exact hsub.nodup hnodup

/-- A live lease that has run out belongs to a running run. -/
theorem expiredJobs_expiring {db : Database} {now : Time}
    (hlocked : Locked announces allowed (abs db)) : Expiring (expiredJobs db now) db := by
  refine ⟨nodup_expiredJobs db now, ?_⟩
  rintro ⟨job, st⟩ hrow
  obtain ⟨job', hjob', hmap⟩ := List.mem_filterMap.mp hrow
  obtain ⟨run, hrun, hpair⟩ := Option.map_eq_some_iff.mp hmap
  cases hpair
  have hselect := List.mem_filter.mp (mem_orderByTimeId.mp hjob')
  obtain ⟨hmem, hcond⟩ := hselect
  simp only [Bool.and_eq_true, decide_eq_true_eq] at hcond
  obtain ⟨hleased, hexpired⟩ := hcond
  have hview := job_of_mem hmem
  have hlive : job.view.live = true := by
    unfold Job.expiredAt at hexpired
    cases hexp : job.leaseExpiresAt <;> simp_all [Job.view]
  have hheld : job.view.held := by
    refine ⟨hleased, ?_⟩
    by_contra hq
    have hlost := hlocked.status_of_lost hview ⟨hleased, by simpa using hq⟩
    rw [hlive] at hlost
    exact absurd hlost.2 (by decide)
  have hstatus := hlocked.status_of_held hview hheld
  have hrunning : run.status = .running := by
    have hcur := status_of_find? hrun
    change (abs db).status job.view.run = _ at hcur
    rw [hstatus] at hcur
    exact (Option.some.inj hcur).symm
  exact ⟨hrunning, job.view, hview, hheld, rfl⟩

theorem requeueExpiredJobsUncommitted_turns (now : Time) :
    Keeps (Turns allowed) (requeueExpiredJobsUncommitted now) := by
  refine keeps_turns fun s hlocked ↦ ?_
  unfold requeueExpiredJobsUncommitted
  rw [post_bind, post_read]
  -- every job of the remaining rows is still held when its turn comes
  refine (Post.forM (fun rows s' ↦ Turn announces allowed (abs s.db) (abs s'.db) ∧
    Expiring rows s'.db) ?_ ⟨.refl _, expiredJobs_expiring hlocked⟩).mono fun _ _ h ↦ h.1
  rintro row rows s' ⟨hturn, hexpiring⟩
  refine (requeueExpiredJob_post (Steps.locked hturn.1 hlocked) hexpiring).mono ?_
  rintro _ s'' ⟨hnext, hrest⟩
  exact ⟨hturn.trans hnext, hrest⟩

/-! ### Claiming, renewing and finishing -/

theorem leasePendingJob_turns {s : Session Database World} {job : Job} {run : Run}
    {workerId : String} {leaseSeconds now : Time}
    (hlocked : Locked announces allowed (abs s.db)) (hjob : job ∈ s.db.jobs.rows)
    (hpending : job.status = .pending) (hrun : s.db.runs.find? job.runId = some run) :
    Post (leasePendingJob job workerId leaseSeconds now) s fun _ s' ↦
      Turn announces allowed (abs s.db) (abs s'.db) := by
  have hfind := Table.find?_of_mem hjob
  unfold leasePendingJob
  rw [post_bind]
  refine post_utcNow fun leasedAt w ↦ ?_
  rw [post_bind]
  refine (changeJob_post (s := ⟨_, w⟩) hfind (by intro j; simp_all) (by simp [hpending])).mono ?_
  rintro _ s₁ ⟨habs₁, hruns₁⟩
  rw [← hruns₁] at hrun
  rw [post_bind]
  refine (setStatus_post (status_of_find? hrun) (by intro r; rfl)).mono ?_
  rintro _ s₂ ⟨habs₂, _⟩
  rw [post_read, habs₂, habs₁]
  exact .claim hlocked (job_of_find? hfind) hpending

theorem mem_pendingJobs {db : Database} {job : Job} :
    job ∈ pendingJobs db ↔ job ∈ db.jobs.rows ∧ job.status = .pending := by
  simp [pendingJobs, mem_orderByTimeId, Table.select]

theorem claimRunJob_turns (workerId : String) (leaseSeconds : Time) :
    Keeps (Turns allowed) (claimRunJob workerId leaseSeconds) := by
  refine .bind keeps_utcNow fun now ↦ .bind (requeueExpiredJobsUncommitted_turns _) fun _ ↦
    .bind (.read _) fun blocked ↦ ?_
  refine .bind (.forM (fun _ ↦ .bind (requestRunCancelUncommitted_turns _) fun _ ↦ .pure _)
    blocked) fun _ ↦ ?_
  refine keeps_turns fun s hlocked ↦ ?_
  rw [post_bind, post_read]
  split
  · exact (post_pure _).mpr (.refl _)
  · rename_i job hnext
    obtain ⟨hmem, hpending⟩ := mem_pendingJobs.mp (List.mem_of_find?_eq_some hnext)
    have hcond := List.find?_some hnext
    cases hrun : s.db.runs.find? job.runId with
    | none => simp [hrun] at hcond
    | some run => exact leasePendingJob_turns hlocked hmem hpending hrun

theorem live_of_unexpiredAt {job : Job} {at' : Time} (h : job.unexpiredAt at' = true) :
    job.leaseExpiresAt.isSome = true := by
  unfold Job.unexpiredAt at h
  cases hexp : job.leaseExpiresAt with
  | none => simp [hexp] at h
  | some expiry => rfl

theorem renewRunJob_silent (jobId leaseOwner : String) (leaseGeneration : ℕ)
    (leaseSeconds : Time) :
    Preserves abs (renewRunJob jobId leaseOwner leaseGeneration leaseSeconds) := by
  intro s
  unfold renewRunJob updateJobsCounted
  rw [post_bind]
  refine post_utcNow fun renewedAt w ↦ ?_
  rw [post_bind]
  refine post_utcNow fun expiryBase w' ↦ ?_
  simp only [post_bind, post_read, post_pure]
  refine (touchJobs_post (s := ⟨_, w'⟩) ?_).mono fun _ _ habs ↦ habs
  intro job _ hp
  simp only [Bool.and_eq_true] at hp
  simp [Job.view, live_of_unexpiredAt hp.2]

theorem finishRunJob_follows (jobId leaseOwner : String) (leaseGeneration : ℕ)
    (status : JobStatus) :
    Keeps (Follows allowed) (finishRunJob jobId leaseOwner leaseGeneration status) := by
  refine keeps_follows fun s _ ↦ ?_
  unfold finishRunJob updateJobsCounted
  rw [post_bind, post_require]
  intro hfinal
  rw [post_bind]
  refine post_utcNow fun finishedAt w ↦ ?_
  simp only [post_bind, post_read, post_pure]
  have hstatus : Lockstep.JobStatus.isFinal status := by
    cases status <;> simp_all [Lockstep.JobStatus.isFinal]
  by_cases hheld : ∃ job ∈ s.db.jobs.rows,
      (job.ownedBy jobId leaseOwner leaseGeneration && job.unexpiredAt finishedAt) = true
  · obtain ⟨job, hmem, hjob⟩ := hheld
    have hfind := Table.find?_of_mem hmem
    refine (changeJob_post (s := ⟨_, w⟩) hfind ?_ hjob).mono ?_
    · intro j hj
      simp_all [Job.ownedBy]
    rintro _ s' ⟨habs, _⟩
    simp only [Bool.and_eq_true] at hjob
    have hleased : job.status = .leased := by
      have howned := hjob.1
      simp_all [Job.ownedBy]
    rw [habs]
    exact .single (.finish job.id job.view status (job_of_find? hfind) hleased
      (live_of_unexpiredAt hjob.2) hstatus)
  · refine (touchJobs_post (s := ⟨_, w⟩) ?_).mono ?_
    · intro j hj hp
      exact absurd ⟨j, hj, hp⟩ hheld
    · intro _ s' habs
      rw [habs]

/-! ### Quarantine -/

theorem held_of_admits {job : Job} {lease : ExecutionLease} {at' : Time}
    (h : job.admits lease at' = true) : job.view.held := by
  simp only [Job.admits, Job.leasedTo, Bool.and_eq_true, decide_eq_true_eq] at h
  exact ⟨h.1.1.1.1.2, by simpa [Job.view] using h.1.2⟩

theorem leasedTo_of_admits {job : Job} {lease : ExecutionLease} {at' : Time}
    (h : job.admits lease at' = true) : job.leasedTo lease = true := by
  simp only [Job.admits, Bool.and_eq_true] at h
  exact h.1.1

theorem leasedTo_iff {job : Job} {lease : ExecutionLease} :
    job.leasedTo lease = true ↔ job.id = lease.jobId ∧ job.runId = lease.runId ∧
      job.status = .leased ∧ job.leaseOwner = some lease.leaseOwner ∧
      job.leaseGeneration = lease.leaseGeneration := by
  simp [Job.leasedTo, and_assoc]

theorem quarantineExecutionAttempt_once (lease? : Option ExecutionLease)
    (runId reason : String) (payload : Json) :
    Keeps (StepsOnce allowed) (quarantineExecutionAttempt lease? runId reason payload) := by
  refine keeps_once fun s hlocked ↦ ?_
  unfold quarantineExecutionAttempt requireRunCleanup updateJobsCounted
  rw [post_bind, post_getOr]
  intro lease hlease
  rw [post_bind]
  refine post_utcNow fun now w ↦ post_runWriteTransaction fun w' hfenced ↦ ?_
  obtain ⟨rfl, fenceAt, job, hmem, hadmits⟩ := hfenced lease rfl
  have hheld := held_of_admits hadmits
  have hleased := leasedTo_of_admits hadmits
  have hrun : job.runId = lease.runId := (leasedTo_iff.mp hleased).2.1
  have hcur := hlocked.status_of_held (job_of_mem hmem) hheld
  rw [post_bind]
  refine (settleLostLedgers_does _ _ _ _).writes.post_silent _ ?_ (by decide)
  intro _ s₁ habs₁ hjobs₁
  rw [post_bind]
  refine (cancelUnstartedToolReceiptsUncommitted_does _ _ _).writes.post_silent s₁ ?_ (by decide)
  intro _ s₂ habs₂ hjobs₂
  have habs : abs s₂.db = abs s.db := habs₂.trans habs₁
  have hcur₂ : (abs s₂.db).status lease.runId = some .running := by
    rw [habs, ← hrun]
    exact hcur
  rw [post_bind]
  refine (setStatus_post hcur₂ (by intro r; rfl)).mono ?_
  intro _ s₃ hmoved₃
  rw [post_bind]
  refine (publishRunStatus_post hmoved₃.status (by decide)).mono ?_
  rintro e s₄ ⟨_, hmoved₄⟩
  have hmoved := (hmoved₃.trans hmoved₄).of_silent habs (hjobs₂.trans hjobs₁)
  have hfind : s₄.db.jobs.find? job.id = some job := by
    rw [hmoved.2]
    exact Table.find?_of_mem hmem
  simp only [post_bind, post_read, post_pure, post_require]
  refine (changeJob_post hfind ?_ hleased).mono ?_
  · intro j hj
    exact (leasedTo_iff.mp hj).1.trans (leasedTo_iff.mp hleased).1.symm
  rintro _ s₅ ⟨habs₅, _⟩ _
  rw [habs₅, hmoved.1, ← hrun]
  exact .single (.quarantine job.id job.view e (job_of_mem hmem) hheld)

theorem confirmQuarantinedCleanup_once (runId jobId leaseOwner : String)
    (leaseGeneration : ℕ) (payload : Json) :
    Keeps (StepsOnce allowed)
      (confirmQuarantinedCleanup runId jobId leaseOwner leaseGeneration payload) := by
  refine keeps_once fun s hlocked ↦ ?_
  unfold confirmQuarantinedCleanup failQuarantinedRun
  rw [post_bind]
  refine post_utcNow fun now w ↦ ?_
  rw [post_bind, post_read, post_ite]
  refine ⟨fun hheld ↦ ?_, fun _ ↦ (post_pure _).mpr .refl⟩
  obtain ⟨job, hmem, hjob⟩ := List.any_eq_true.mp hheld
  simp only [Bool.and_eq_true] at hjob
  obtain ⟨rfl, rfl, hleased, _⟩ := leasedTo_iff.mp hjob.1
  have hlost : job.view.lost := ⟨hleased, hjob.2⟩
  have hcur := (hlocked.status_of_lost (job_of_mem hmem) hlost).1
  simp only [post_bind]
  refine (cancelUnstartedToolReceiptsUncommitted_does _ _ _).writes.post_silent _ ?_ (by decide)
  intro _ s₁ habs₁ hjobs₁
  rw [← habs₁] at hcur
  obtain ⟨run, hrun, hstatus⟩ := find?_of_status hcur
  refine (updateRuns_post .failed hrun ?_ ?_ rfl).mono ?_
  · intro r hr
    simp only [Bool.and_eq_true, decide_eq_true_eq] at hr
    exact hr.1
  · have hid : run.id = job.runId := Table.key_of_find? hrun
    simp [hid, hstatus]
  intro _ s₂ hmoved₂
  refine (publishRunStatus_post hmoved₂.status (by decide)).mono ?_
  rintro e s₃ ⟨hevent, hmoved₃⟩
  have hmoved := (hmoved₂.trans hmoved₃).of_silent habs₁ hjobs₁
  have hfind : s₃.db.jobs.find? job.id = some job := by
    rw [hmoved.2]
    exact Table.find?_of_mem hmem
  refine (changeJob_post hfind (by simp) (by simp)).mono ?_
  rintro _ s₄ ⟨habs₄, _⟩
  rw [post_pure, post_pure, habs₄, hmoved.1]
  exact .single (.confirm job.id job.view e (job_of_mem hmem) hlost
    (announces_of_event rfl hevent.2.1))

theorem ensureLostExecutionQuarantined_once (runId jobId leaseOwner : String)
    (leaseGeneration : ℕ) :
    Keeps (StepsOnce allowed)
      (ensureLostExecutionQuarantined runId jobId leaseOwner leaseGeneration) := by
  refine keeps_once fun s hlocked ↦ ?_
  unfold ensureLostExecutionQuarantined quarantineLostJob requireRunCleanup
    sandboxCleanupReportUncommitted
  rw [post_bind]
  refine post_utcNow fun now w ↦ ?_
  rw [post_bind, post_read]
  split
  · exact (post_pure _).mpr .refl
  · rename_i job hfilter
    obtain ⟨hfound, _⟩ := Option.filter_eq_some_iff.mp hfilter
    have hmem := List.mem_of_find?_eq_some hfound
    have hleasedTo : job.leasedTo ⟨jobId, runId, leaseOwner, leaseGeneration⟩ = true := by
      simpa using List.find?_some hfound
    obtain ⟨rfl, rfl, hleased, _⟩ := leasedTo_iff.mp hleasedTo
    simp only [post_bind]
    refine (settleLostLedgers_does _ _ _ _).writes.post_silent _ ?_ (by decide)
    intro _ s₁ habs₁ hjobs₁
    refine (cancelUnstartedToolReceiptsUncommitted_does _ _ _).writes.post_silent s₁ ?_ (by decide)
    intro _ s₂ habs₂ hjobs₂
    refine Writes.post_silent (updateSandboxProcesses_writes _ _ _) s₂ ?_ (by decide)
    intro _ s₃ habs₃ hjobs₃
    have habs : abs s₃.db = abs s.db := (habs₃.trans habs₂).trans habs₁
    have hjobs : s₃.db.jobs = s.db.jobs := (hjobs₃.trans hjobs₂).trans hjobs₁
    rw [post_read, post_ite]
    refine ⟨fun _ ↦ ?_, fun hquarantined ↦ ?_⟩
    · rw [post_pure, habs]
    · have hheld : job.view.held := ⟨hleased, by simpa [Job.view] using hquarantined⟩
      have hcur := hlocked.status_of_held (job_of_mem hmem) hheld
      have hfind : s₃.db.jobs.find? job.id = some job := by
        rw [hjobs]
        exact Table.find?_of_mem hmem
      simp only [post_bind]
      refine (changeJob_post hfind (by simp) (by simp)).mono ?_
      rintro _ s₄ ⟨habs₄, _⟩
      have hcur₄ : (abs s₄.db).status job.runId = some .running := by
        rw [habs₄, habs]
        exact hcur
      refine (setStatus_post hcur₄ (by intro r; rfl)).mono ?_
      intro _ s₅ hmoved₅
      refine (publishRunStatus_post hmoved₅.status (by decide)).mono ?_
      rintro e s₆ ⟨_, hmoved₆⟩
      rw [post_pure, (hmoved₅.trans hmoved₆).1, habs₄, habs]
      exact .single (.quarantine job.id job.view e (job_of_mem hmem) hheld)

/-! ### Committing a result -/

theorem settles_of_runResultEvent {st : RunStatus} {eventType : String}
    (h : runResultEvent st = some eventType) : settles st := by
  cases st <;> simp_all [runResultEvent, settles, RunStatus.terminal, RunStatus.waiting]

/-- A run that has ended has the event of its end. -/
theorem latestEvent_of_terminal {db : Database} {runId eventType : String} {st : RunStatus}
    (hlocked : Locked announces allowed (abs db)) (hcur : (abs db).status runId = some st)
    (hst : st.terminal = true) (hevent : runResultEvent st = some eventType) :
    latestEvent db runId eventType ≠ none := by
  obtain ⟨e, hlast, he⟩ := hlocked.closed hcur hst
  have htype : e.eventType = eventType := by
    rw [announces, hevent] at he
    exact (Option.some.inj he).symm
  have hmem : e ∈ (db.journal.events.ofRun runId).filter fun e ↦ e.eventType = eventType := by
    have hlife := List.mem_filter.mp (List.mem_of_getLast? hlast)
    exact List.mem_filter.mpr ⟨hlife.1, by simpa using htype⟩
  intro hnone
  have hnil := List.getLast?_eq_none_iff.mp hnone
  rw [hnil] at hmem
  simp at hmem

theorem post_requireOrphan {s : Session Database World} {runId : String}
    {lease : Option ExecutionLease} {orphanRecovery : Bool}
    {Q : Unit → Session Database World → Prop}
    (h : (lease = none → (abs s.db).Idle runId) → Q () s) :
    Post (requireOrphan runId lease orphanRecovery) s Q := by
  cases lease with
  | some held => exact (post_pure _).mpr (h fun hc ↦ by cases hc)
  | none =>
      unfold requireOrphan findActiveJob
      rw [post_bind, post_require]
      intro _
      rw [post_bind, post_read, post_require]
      intro hnone
      exact h fun _ ↦ idle_of_findActiveJob (by simpa using hnone)

theorem settleExecutionJobUncommitted_post (s : Session Database World) (lease : ExecutionLease)
    (status : RunStatus) (settledAt : Time) :
    Post (settleExecutionJobUncommitted lease status settledAt) s fun _ s' ↦
      ∃ job final, job ∈ s.db.jobs.rows ∧ job.view.held ∧ job.runId = lease.runId ∧
        settledJobStatus status = some final ∧
        abs s'.db = (abs s.db).setJob job.id { job.view with status := final, live := false } := by
  unfold settleExecutionJobUncommitted updateJobsCounted
  rw [post_bind]
  refine post_utcNow fun fenceAt w ↦ ?_
  rw [post_bind, post_getOr]
  intro final hfinal
  simp only [post_bind, post_read, post_pure, post_require]
  by_cases hheld : ∃ job ∈ s.db.jobs.rows, job.admits lease fenceAt = true
  · obtain ⟨job, hmem, hadmits⟩ := hheld
    have hleased := leasedTo_of_admits hadmits
    refine (changeJob_post (s := ⟨_, w⟩) (Table.find?_of_mem hmem) ?_ hadmits).mono ?_
    · intro j hj
      have hid := (leasedTo_iff.mp (leasedTo_of_admits hj)).1
      exact hid.trans (leasedTo_iff.mp hleased).1.symm
    rintro _ s' ⟨habs, _⟩ _
    exact ⟨job, final, hmem, held_of_admits hadmits, (leasedTo_iff.mp hleased).2.1, hfinal, habs⟩
  · intro _ s' _ hcount
    have hzero : s.db.jobs.rowcount (fun j ↦ j.admits lease fenceAt) = 0 := by
      rw [Table.rowcount_eq_zero_iff]
      intro job hmem
      rw [Bool.eq_false_iff]
      exact fun hc ↦ hheld ⟨job, hmem, hc⟩
    rw [hzero] at hcount
    cases hcount

theorem isFinal_of_settledJobStatus {st : RunStatus} {final : JobStatus}
    (h : settledJobStatus st = some final) : Lockstep.JobStatus.isFinal final := by
  cases st <;> simp only [settledJobStatus, Option.some.injEq, reduceCtorEq] at h <;> subst h <;>
    trivial

theorem writeRunResult_once {s : Session Database World} {runId : String}
    {lease : Option ExecutionLease} {cur status : RunStatus} {eventType : String} {payload : Json}
    (hlease : ∀ held, lease = some held → held.runId = runId)
    (hidle : lease = none → (abs s.db).Idle runId) (hcur : (abs s.db).status runId = some cur)
    (hopen : cur.terminal = false) (hresult : runResultEvent status = some eventType) :
    Post (writeRunResult runId lease status eventType payload) s fun _ s' ↦
      Relation.ReflGen (Step announces allowed) (abs s.db) (abs s'.db) := by
  have hlife := isLifecycleEvent_of_runResultEvent hresult
  unfold writeRunResult
  rw [post_bind]
  refine post_utcNow fun committedAt w ↦ ?_
  rw [post_bind]
  refine Writes.post_silent
    (.when (cancelUnstartedToolReceiptsUncommitted_does _ _ _).writes) _ ?_ (by decide)
  intro _ s₁ habs₁ hjobs₁
  have hcur₁ : (abs s₁.db).status runId = some cur := by
    rw [habs₁]
    exact hcur
  rw [post_bind]
  refine (setStatus_post hcur₁ (by intro r; rfl)).mono ?_
  intro _ s₂ hmoved₂
  rw [post_bind]
  refine (publishRunStatus_post hmoved₂.status hlife).mono ?_
  rintro e s₃ ⟨hevent, hmoved₃⟩
  have hmoved := (hmoved₂.trans hmoved₃).of_silent habs₁ hjobs₁
  have hreports : announces e status := announces_of_event hresult hevent.2.1
  have hsettles := settles_of_runResultEvent hresult
  rw [post_bind]
  cases lease with
  | none =>
      refine (post_pure ()).mpr ?_
      rw [post_pure, hmoved.1]
      exact .single (.orphan runId cur status e hcur hopen (hidle rfl) hsettles hreports)
  | some held =>
      refine (settleExecutionJobUncommitted_post s₃ held status committedAt).mono ?_
      rintro _ s₄ ⟨job, final, hmem, hheld, hrun, hfinal, habs₄⟩
      rw [hmoved.2] at hmem
      rw [post_pure, habs₄, hmoved.1, ← hlease held rfl, ← hrun]
      exact .single (.settle job.id job.view status final e (job_of_mem hmem) hheld hsettles
        hreports (isFinal_of_settledJobStatus hfinal))

theorem commitRunResult_once (lease : Option ExecutionLease) (runId : String)
    (status : RunStatus) (eventType : String) (payload : Json) (orphanRecovery : Bool) :
    Keeps (StepsOnce allowed)
      (commitRunResult lease runId status eventType payload orphanRecovery) := by
  refine keeps_once fun s hlocked ↦ ?_
  unfold commitRunResult findRun
  rw [post_bind, post_require]
  intro hresult
  refine post_runWriteTransaction fun w hfenced ↦ ?_
  rw [post_bind, post_read, post_bind, post_getOr]
  intro run hrun
  have hcur := status_of_find? hrun
  rw [post_bind]
  refine post_requireOrphan fun hidle ↦ ?_
  rw [post_bind, post_read]
  split
  · rename_i event hexisting
    have hsame : run.status = status := by
      by_contra hne
      simp [hne] at hexisting
    unfold repeatRunResult
    rw [post_bind, post_require]
    intro _
    rw [post_bind]
    refine post_utcNow fun settledAt w' ↦ ?_
    rw [post_bind]
    cases lease with
    | none => exact (post_pure ()).mpr ((post_pure _).mpr .refl)
    | some held =>
        -- a job that is still leased belongs to a running run, which has no result yet
        obtain ⟨rfl, _, job, hmem, hadmits⟩ := hfenced held rfl
        have hrunning := hlocked.status_of_held (job_of_mem hmem) (held_of_admits hadmits)
        have hjobrun := (leasedTo_iff.mp (leasedTo_of_admits hadmits)).2.1
        change (abs s.db).status job.runId = _ at hrunning
        rw [hjobrun, hcur, hsame] at hrunning
        cases hrunning
        cases hresult
  · rename_i hexisting
    rw [post_bind, post_require]
    intro hfree
    have hopen : run.status.terminal = false := by
      by_contra hterminal
      have hterm : run.status.terminal = true := by simpa using hterminal
      have hsame : run.status = status := by simpa [hterm] using hfree
      rw [if_pos hsame] at hexisting
      rw [← hsame] at hresult
      exact latestEvent_of_terminal hlocked hcur hterm hresult hexisting
    exact writeRunResult_once (s := ⟨_, w⟩) (fun held hheld ↦ (hfenced held hheld).1) hidle hcur
      hopen hresult

/-! ### New jobs -/

theorem insertRun_post (s : Session Database World) (run : Run) :
    Post (insertRun run) s fun _ s' ↦ (abs s.db).status run.id = none ∧
      abs s'.db = (abs s.db).setRun run.id run.status [] := by
  unfold insertRun
  simp only [post_bind, post_read, post_require, post_attempt]
  intro _ db hdb
  obtain ⟨runs, hruns, rfl⟩ := Option.map_eq_some_iff.mp hdb
  exact abs_insertRun hruns

theorem insertRunJob_post {s : Session Database World} {job : Job} {runId : String}
    (hview : job.view = ⟨runId, .pending, false, false⟩)
    (hallowed : ∀ st, (abs s.db).status runId = some st → (abs s.db).Idle runId → allowed st) :
    Post (insertRunJob job) s fun _ s' ↦ Steps announces allowed (abs s.db) (abs s'.db) := by
  obtain rfl : job.runId = runId := congrArg JobView.run hview
  have hpending : job.status = .pending := congrArg JobView.status hview
  unfold insertRunJob requireRunRow
  simp only [post_bind, post_read, post_require, post_attempt]
  intro hrow htaken db hdb
  obtain ⟨jobs, hjobs, rfl⟩ := Option.map_eq_some_iff.mp hdb
  obtain ⟨run, hrun⟩ := Option.isSome_iff_exists.mp hrow
  have hidle : (abs s.db).Idle job.runId := by
    apply idle_of_findActiveJob
    rw [List.find?_eq_none]
    intro j hj hcond
    have hactive : job.active = true := by simp [Job.active, hpending]
    simp only [hactive, Bool.and_true, List.any_eq_false] at htaken
    simp only [Bool.and_eq_true, decide_eq_true_eq] at hcond
    have hfree := htaken j hj
    simp [hcond.1, hcond.2] at hfree
  obtain ⟨hfresh, habs⟩ := abs_insertJob hjobs
  have hcur := status_of_find? hrun
  rw [habs, hview]
  exact .single (.enqueue job.id job.runId run.status hfresh hcur (hallowed _ hcur hidle) hidle)

theorem Job.RecordOf.view {job : Job} {runId : String} {kind : JobKind} {resume : Option Json}
    (h : job.RecordOf runId kind resume) : job.view = ⟨runId, .pending, false, false⟩ := by
  simp [Job.view, h.fresh.1, h.fresh.2.2, h.runId, h.unleased]

theorem createRunJob_follows {s : Session Database World} {run : Run} {kind : JobKind}
    {resume : Option Json}
    (hallowed : ∀ st, (abs s.db).status run.id = some st → (abs s.db).Idle run.id → allowed st) :
    Post (createRunJob run kind resume) s fun _ s' ↦
      Steps announces allowed (abs s.db) (abs s'.db) := by
  unfold createRunJob
  rw [post_bind]
  refine newRunJobRecord_post fun job w hrecord ↦ ?_
  rw [post_bind]
  refine (insertRunJob_post (s := ⟨_, w⟩) hrecord.view hallowed).mono ?_
  intro _ s' hsteps
  exact (post_pure _).mpr hsteps

theorem enqueueRunJob_follows {s : Session Database World} {runId : String} {kind : JobKind}
    {resume : Option Json}
    (hallowed : ∀ st, (abs s.db).status runId = some st → (abs s.db).Idle runId → allowed st) :
    Post (enqueueRunJob runId kind resume) s fun _ s' ↦
      Steps announces allowed (abs s.db) (abs s'.db) := by
  unfold enqueueRunJob findRun
  rw [post_bind, post_read]
  split
  · exact (post_pure _).mpr .refl
  · rename_i run hrun
    have hid : run.id = runId := Table.key_of_find? hrun
    subst hid
    rw [post_bind]
    refine post_readOnly (keeps_workspacePathError _) fun _ w₁ ↦ ?_
    rw [post_bind]
    refine post_readOnly (keeps_refuseWorkspace _ _) fun _ w₂ ↦ ?_
    unfold workspaceOwnerError findActiveJob
    rw [post_bind, post_read, post_bind]
    refine post_readOnly (keeps_refuseWorkspace _ _) fun _ w₃ ↦ ?_
    rw [post_bind, post_read]
    split
    · exact (post_pure _).mpr .refl
    · rw [post_bind]
      refine (createRunJob_follows (s := ⟨_, w₃⟩) hallowed).mono ?_
      intro _ s' hsteps
      exact (post_pure _).mpr hsteps

/-! ### Commands -/

/-- A run that was just inserted. -/
theorem status_of_inserted {db db' : Database} {run : Run}
    (hrun : abs db' = (abs db).setRun run.id run.status []) :
    (abs db').status run.id = some run.status := by
  rw [hrun, State.setRun_status, if_pos rfl]

theorem spawn_step {db db' : Database} {run : Run} (hnew : run.status = .queued)
    (hfresh : (abs db).status run.id = none)
    (hrun : abs db' = (abs db).setRun run.id run.status []) :
    Step announces allowed (abs db) (abs db') := by
  rw [hrun, hnew]
  exact .spawn run.id hfresh

theorem createCommandedRun_follows (hqueued : allowed .queued) (c : RunCommand)
    (rootRunId : Option String) (bindings : List PluginBinding) :
    Keeps (Follows allowed) (createCommandedRun c rootRunId bindings) := by
  refine .bind (keeps_productThread _) fun _ ↦ .bind keeps_utcNow fun now ↦
    .bind ((openThread_does _ _ _).writes.follows (by decide)) fun thread ↦ .bind (keeps_assistantItem _)
    fun assistantItemId ↦ keeps_follows fun s _ ↦ ?_
  rw [post_bind]
  refine newRunRecord_post fun run w hnew ↦ ?_
  rw [post_bind]
  refine (insertRun_post _ run).mono ?_
  rintro _ s₁ ⟨hfresh, hrun⟩
  rw [post_bind]
  refine (insertRunInputs_does _ _ _).writes.post_silent s₁ ?_ (by decide)
  intro _ s₂ habs₂ _
  rw [post_bind]
  refine (insertRunPluginBindings_does _ _).writes.post_silent s₂ ?_ (by decide)
  intro _ s₃ habs₃ _
  rw [post_bind]
  refine (onJournal_does fun _ ↦ writeTurn_eventless _ _ _ _ _ _).writes.post_silent s₃ ?_ (by decide)
  intro _ s₄ habs₄ _
  have habs : abs s₄.db = abs s₁.db := (habs₄.trans habs₃).trans habs₂
  rw [post_bind]
  refine newRunJobRecord_post fun job w' hrecord ↦ ?_
  rw [post_bind]
  have hallowed : ∀ st, (abs s₄.db).status run.id = some st → (abs s₄.db).Idle run.id →
      allowed st := by
    intro st hst _
    rw [habs, status_of_inserted hrun, hnew.status] at hst
    cases hst
    exact hqueued
  refine (insertRunJob_post (s := ⟨_, w'⟩) hrecord.view hallowed).mono ?_
  intro _ s₅ hsteps
  rw [habs] at hsteps
  rw [post_bind]
  refine (insertCommand_writes _).post_silent s₅ ?_ (by decide)
  intro _ s₆ habs₆ _
  rw [post_pure, habs₆]
  exact hsteps.head (spawn_step hnew.status hfresh hrun)

theorem acceptRunCommand_follows (hqueued : allowed .queued) (c : RunCommand) :
    Keeps (Follows allowed) (acceptRunCommand c) := by
  refine .bind (keeps_acceptedRunForCommand _ _ _) fun existing ↦ ?_
  cases existing with
  | some accepted => exact .pure _
  | none =>
      exact .bind (keeps_requireRunCommandWorkspace _) fun _ ↦
        .bind (keeps_admittedRootRunId _) fun _ ↦
        .bind (keeps_resolveRunPluginBindings _ _ _ _) fun _ ↦
        .bind (createCommandedRun_follows hqueued _ _ _) fun _ ↦ .pure _

theorem createChildRun_follows (hqueued : allowed .queued) (request : ChildRequest)
    (goal : String) (definition : ChildAgentDefinition) (parent : Run) (c : Coordination) :
    Keeps (Follows allowed) (createChildRun request goal definition parent c) := by
  refine .bind (keeps_requireChildAdmission _ _ _) fun _ ↦ keeps_follows fun s _ ↦ ?_
  rw [post_bind]
  refine newRunRecord_post fun child w hnew ↦ ?_
  rw [post_bind]
  refine (insertRun_post _ child).mono ?_
  rintro _ s₁ ⟨hfresh, hrun⟩
  rw [post_bind]
  refine (insertChildCollaboration_does _ _ _ _).writes.post_silent s₁ ?_ (by decide)
  intro _ s₂ habs₂ _
  rw [post_bind]
  refine (copyParentContent_does _ _).writes.post_silent s₂ ?_ (by decide)
  intro _ s₃ habs₃ _
  have habs : abs s₃.db = abs s₁.db := habs₃.trans habs₂
  rw [post_bind]
  refine newRunJobRecord_post fun job w' hrecord ↦ ?_
  rw [post_bind]
  have hallowed : ∀ st, (abs s₃.db).status child.id = some st → (abs s₃.db).Idle child.id →
      allowed st := by
    intro st hst _
    rw [habs, status_of_inserted hrun, hnew.status] at hst
    cases hst
    exact hqueued
  refine (insertRunJob_post (s := ⟨_, w'⟩) hrecord.view hallowed).mono ?_
  intro _ s₄ hsteps
  rw [habs] at hsteps
  rw [post_bind]
  refine (appendEventUncommitted_does _ _ _ _ (by decide)).writes.post_silent s₄ ?_ (by decide)
  rintro ⟨event, _⟩ s₅ habs₅ _
  rw [post_bind]
  refine Writes.post_silent
    (onJournal_writes fun _ ↦ (Journal.touchThreadForRunEvent_eventless _ _ _ _ _).quiet) s₅ ?_ (by decide)
  intro _ s₆ habs₆ _
  rw [post_pure, habs₆, habs₅]
  exact hsteps.head (spawn_step hnew.status hfresh hrun)

theorem acceptChildRun_follows (hqueued : allowed .queued) (lease : Option ExecutionLease)
    (request : ChildRequest) : Keeps (Follows allowed) (acceptChildRun lease request) := by
  refine .bind (.require _ _) fun _ ↦ .bind (keeps_normalizeChildAgentDefinition _) fun _ ↦
    keeps_runWriteTransaction <| .bind (keeps_findRun _) fun _ ↦ .bind (.getOr _ _) fun _ ↦
    .bind (keeps_normalizeChildCoordination _ _) fun _ ↦ .bind (.read _) fun existing ↦ ?_
  cases existing with
  | some record => exact .bind (.require _ _) fun _ ↦ .pure _
  | none =>
      exact .bind (keeps_requireSpawnOperation _ _) fun _ ↦
        .bind (createChildRun_follows hqueued _ _ _ _ _) fun _ ↦ .pure _

section Waits

variable (hwaiting : ∀ st, st.waiting = true → allowed st)

include hwaiting

theorem enqueueResumeJob_follows {s : Session Database World} {run : Run} {payload : Json}
    (hcur : (abs s.db).status run.id = some run.status) (hwait : run.status.waiting = true) :
    Post (enqueueResumeJob run payload) s fun _ s' ↦
      Steps announces allowed (abs s.db) (abs s'.db) := by
  unfold enqueueResumeJob findActiveJob
  rw [post_bind, post_read]
  split
  · rw [post_bind]
    refine (createRunJob_follows ?_).mono fun _ _ hsteps ↦ (post_pure _).mpr hsteps
    intro st hst _
    rw [hcur] at hst
    cases hst
    exact hwaiting _ hwait
  · rw [post_bind, post_require]
    exact fun _ ↦ (post_pure _).mpr .refl

/-- The end of a wait command, for the row of the run it read when it began. -/
theorem finishWaitCommand_follows {s : Session Database World} {principalId commandId
    commandType : String} {payloadJson : Json} {run : Run} {waitCycleId : String}
    {receipt : Bool → Json} {createdAt : StoreTxn Time} (hcreated : Writes [] createdAt)
    (hcur : (abs s.db).status run.id = some run.status) :
    Post (finishWaitCommand principalId commandId commandType payloadJson run waitCycleId receipt
      createdAt) s fun _ s' ↦ Steps announces allowed (abs s.db) (abs s'.db) := by
  have hresume : Post (resumeResolvedWaitUncommitted run waitCycleId) s fun _ s' ↦
      Steps announces allowed (abs s.db) (abs s'.db) := by
    unfold resumeResolvedWaitUncommitted
    rw [post_bind]
    refine post_readOnly (keeps_waitCycleResumePayload _ _) fun payload w ↦ ?_
    cases payload with
    | none => exact (post_pure _).mpr .refl
    | some resume =>
        rw [post_ite]
        exact ⟨fun hwait ↦ enqueueResumeJob_follows hwaiting (s := ⟨_, w⟩) hcur hwait,
          fun _ ↦ (post_pure _).mpr .refl⟩
  unfold finishWaitCommand
  rw [post_bind]
  refine hresume.mono ?_
  intro resumed s₁ hsteps
  rw [post_bind]
  refine post_readOnly hcreated fun recordedAt w ↦ ?_
  rw [post_bind]
  refine (recordCommandReceiptUncommitted_does _ _ _ _ _ _ _).writes.post_silent _ ?_ (by decide)
  intro _ s₂ habs₂ _
  rw [post_pure, habs₂]
  exact hsteps

omit hwaiting in
/-- The four commands go on with the run of the wait. -/
theorem waitCommand_follows {principalId runId : String} {e : StoreError}
    {rest : Run → StoreTxn Json}
    (hrest : ∀ (s : Session Database World) run, (abs s.db).status run.id = some run.status →
      Post (rest run) s fun _ s' ↦ Steps announces allowed (abs s.db) (abs s'.db)) :
    Keeps (Follows allowed) (do
      let run? ← waitingRun principalId runId
      let run ← Txn.getOr run? e
      rest run) := by
  refine keeps_follows fun s _ ↦ ?_
  unfold waitingRun findOwnedRun
  rw [post_bind, post_read, post_bind, post_getOr]
  intro run hrun
  obtain ⟨hfind, _⟩ := Option.filter_eq_some_iff.mp hrun
  have hid : run.id = runId := Table.key_of_find? hfind
  exact hrest s run (hid ▸ status_of_find? hfind)

theorem requestQuestionAnswerCommand_follows (principalId commandId questionId : String)
    (answers : Json) :
    Keeps (Follows allowed)
      (requestQuestionAnswerCommand principalId commandId questionId answers) := by
  refine keeps_acceptCommand <| .bind (.read _) fun _ ↦ .bind (.getOr _ _) fun question ↦
    waitCommand_follows fun s run hcur ↦ ?_
  rw [post_bind]
  refine post_readOnly (keeps_requireWorkspace _ _) fun _ w ↦ ?_
  rw [post_bind]
  refine (settleQuestion_does _ _ _).writes.post_silent _ ?_ (by decide)
  intro _ s₁ habs _
  rw [← habs] at hcur ⊢
  exact finishWaitCommand_follows hwaiting keeps_utcNow hcur

theorem requestPermissionResolveCommand_follows (principalId commandId permissionId : String)
    (decision : PermissionDecision) (scope : PermissionScope) :
    Keeps (Follows allowed)
      (requestPermissionResolveCommand principalId commandId permissionId decision scope) := by
  refine keeps_acceptCommand <| .bind (.read _) fun _ ↦ .bind (.getOr _ _) fun permission ↦
    waitCommand_follows fun s run hcur ↦ ?_
  rw [post_bind]
  refine post_readOnly (keeps_requireWorkspace _ _) fun _ w ↦ ?_
  rw [post_bind, post_require]
  intro _
  rw [post_bind]
  refine post_readOnly (.require _ _) fun _ w' ↦ ?_
  rw [post_bind]
  refine (settlePermission_does _ _ _ _).writes.post_silent _ ?_ (by decide)
  intro _ s₁ habs _
  rw [← habs] at hcur ⊢
  exact finishWaitCommand_follows hwaiting keeps_utcNow hcur

theorem requestPlanResolveCommand_follows (principalId commandId approvalId : String)
    (decision : PlanDecision) (instructions : Option String) :
    Keeps (Follows allowed)
      (requestPlanResolveCommand principalId commandId approvalId decision instructions) := by
  refine keeps_acceptCommand <| .bind (.read _) fun _ ↦ .bind (.getOr _ _) fun plan ↦
    waitCommand_follows fun s run hcur ↦ ?_
  rw [post_bind]
  refine post_readOnly (keeps_requireWorkspace _ _) fun _ w ↦ ?_
  rw [post_bind]
  refine (settlePlan_does _ _ _ _).writes.post_silent _ ?_ (by decide)
  intro _ s₁ habs _
  rw [← habs] at hcur ⊢
  exact finishWaitCommand_follows hwaiting keeps_utcNow hcur

theorem requestToolReconcileCommand_follows (principalId commandId operationId : String)
    (decision : ReconcileDecision) (results : ReconciliationResults) :
    Keeps (Follows allowed)
      (requestToolReconcileCommand principalId commandId operationId decision results) := by
  refine keeps_acceptCommand <| .bind (.read _) fun _ ↦ .bind (.getOr _ _) fun candidate ↦
    waitCommand_follows fun s run hcur ↦ ?_
  rw [post_bind]
  refine post_readOnly (keeps_requireWorkspace _ _) fun _ w ↦ ?_
  rw [post_bind, post_require]
  intro _
  rw [post_bind]
  refine (resolveToolReconciliationUncommitted_does _ _ _).writes.post_silent _ ?_ (by simp [Kind.parts])
  rintro ⟨updated, newlyResolved⟩ s₁ habs₁ _
  rw [post_bind]
  refine post_utcNow fun now w' ↦ ?_
  rw [post_bind]
  refine (publishReconciliation_does _ _ _ _ _).writes.post_silent _ ?_ (by decide)
  intro _ s₂ habs₂ _
  have habs : abs s₂.db = abs s.db := habs₂.trans habs₁
  rw [← habs] at hcur ⊢
  exact finishWaitCommand_follows hwaiting (.pure _) hcur

end Waits

/-! ### Events and the graph head -/

theorem appendEvent_once {lease : Option ExecutionLease} {runId eventType : String}
    {payload : Json} (hquiet : lease = none → isLifecycleEvent eventType = false) :
    Keeps (StepsOnce allowed) (appendEvent lease runId eventType payload) := by
  cases hlife : isLifecycleEvent eventType with
  | false => exact (appendEvent_does _ _ _ _ hlife).writes.once (by decide)
  | true =>
      refine keeps_once fun s hlocked ↦ post_runWriteTransaction fun w hfenced ↦ ?_
      cases lease with
      | none => simp [hlife] at hquiet
      | some held =>
          obtain ⟨rfl, _, job, hmem, hadmits⟩ := hfenced held rfl
          have hrunning := hlocked.status_of_held (job_of_mem hmem) (held_of_admits hadmits)
          have hrun := (leasedTo_iff.mp (leasedTo_of_admits hadmits)).2.1
          change (abs s.db).status job.runId = _ at hrunning
          rw [hrun] at hrunning
          rw [post_bind]
          refine post_utcNow fun createdAt w' ↦ ?_
          refine (appendLifecycle_post (s := ⟨_, w'⟩) hrunning hlife).mono ?_
          rintro ⟨e, _⟩ s' ⟨_, habs, _⟩
          rw [habs]
          exact .single (.note held.runId e hrunning)

/-- A change of runs that keeps their statuses. -/
theorem updateRuns_silent {p : Run → Bool} {f : Run → Run} {hf : ∀ r, (f r).id = r.id}
    (hstatus : ∀ r, (f r).status = r.status) : Preserves abs (updateRuns p f hf) := by
  refine .write fun db ↦ ?_
  apply State.ext
  · funext runId
    simp only [abs, Table.find?_update, Option.map_map]
    cases hfind : db.runs.find? runId with
    | none => rfl
    | some run => by_cases hp : p run = true <;> simp [hp, hstatus]
  · rfl
  · rfl

theorem bindGraphDefinition_silent (lease : Option ExecutionLease) (runId definitionId : String) :
    Preserves abs (bindGraphDefinition lease runId definitionId) :=
  keeps_runWriteTransaction <| .bind (.read _) fun _ ↦ .bind (.getOr _ _) fun _ ↦
    .bind (.require _ _) fun _ ↦ .when (.bind keeps_utcNow fun _ ↦
      updateRuns_silent (by intro r; rfl))

theorem advanceGraphCheckpoint_silent (lease : Option ExecutionLease)
    (runId graphThreadId : String) (expectedCheckpointId : Option String) (checkpointId : String) :
    Preserves abs (advanceGraphCheckpoint lease runId graphThreadId expectedCheckpointId
      checkpointId) :=
  keeps_runWriteTransaction <| .bind (.read _) fun _ ↦ .bind (.getOr _ _) fun _ ↦
    .bind (.require _ _) fun _ ↦ .when (.bind (.require _ _) fun _ ↦ .bind keeps_utcNow fun _ ↦
      updateRuns_silent (by intro r; rfl))

/-! ## What an operation reports -/

/-- A run of the machine that appends at most one event to each log. -/
def Reports (allowed : RunStatus → Prop) (db db' : Database) : Prop :=
  Locked announces allowed (abs db) →
    Steps announces allowed (abs db) (abs db') ∧ ReportsOnce (abs db) (abs db')

theorem Turns.reports {db db' : Database} (h : Turns allowed db db') : Reports allowed db db' :=
  fun hlocked ↦ ⟨(h hlocked).1, (h hlocked).2.reportsOnce⟩

theorem StepsOnce.reports {db db' : Database} (h : StepsOnce allowed db db') :
    Reports allowed db db' :=
  fun hlocked ↦ ⟨(h hlocked).to_reflTransGen, reportsOnce_of_reflGen (h hlocked)⟩

theorem Follows.reports {db db' : Database} (h : Follows allowed db db')
    (hlog : db'.journal.lifecycle = db.journal.lifecycle) : Reports allowed db db' :=
  fun hlocked ↦ ⟨h hlocked, fun r ↦ .inl (congrFun hlog r)⟩

theorem Reports.of_abs_eq {db db' : Database} (h : abs db' = abs db) : Reports allowed db db' := by
  intro _
  rw [h]
  exact ⟨.refl, fun _ ↦ .inl rfl⟩

end ShejaneRuntime.Store
