import Mathlib.Data.List.Sort
import ShejaneRuntime.Scheduling.Schedules
import ShejaneRuntime.Store.AgentMessages
import ShejaneRuntime.Store.RunJobs
import ShejaneRuntime.Timestamps.Isoformat

/-!
# Columns of timestamps

The statements that compare stored instants, on rows whose time columns are
of any ordered type: the leases of jobs, the deadlines of messages and the
times of schedules. What else a row holds plays no part in them.
-/

namespace ShejaneRuntime.Timestamps

open Lib
open Store (JobStatus RunStatus MessageStatus ExecutionLease settledJobStatus)
open Scheduling (ScheduleStatus)

structure Job (τ : Type) where
  id : String
  runId : String
  status : JobStatus
  leaseOwner : Option String
  leaseGeneration : ℕ
  leaseExpiresAt : Option τ
  quarantinedAt : Option τ
  createdAt : τ

structure Message (τ : Type) where
  id : String
  recipientRunId : String
  status : MessageStatus
  deadlineAt : τ
  createdAt : τ

structure Schedule (τ : Type) where
  id : String
  status : ScheduleStatus
  runAt : τ

structure Columns (τ : Type) where
  jobs : List (Job τ) := []
  messages : List (Message τ) := []
  schedules : List (Schedule τ) := []

variable {ρ ρ' τ τ' : Type} [LinearOrder τ] [LinearOrder τ'] {f : τ → τ'}

/-! ## Conditions -/

namespace Job

/-- `lease_expires_at > at` -/
def unexpiredAt (job : Job τ) (at' : τ) : Bool :=
  match job.leaseExpiresAt with
  | some expiry => at' < expiry
  | none => false

/-- `lease_expires_at <= at` -/
def expiredAt (job : Job τ) (at' : τ) : Bool :=
  match job.leaseExpiresAt with
  | some expiry => expiry ≤ at'
  | none => false

def leasedTo (job : Job τ) (lease : ExecutionLease) : Bool :=
  job.id = lease.jobId && job.runId = lease.runId && job.status = .leased &&
    job.leaseOwner = some lease.leaseOwner && job.leaseGeneration = lease.leaseGeneration

/-- The condition of a fenced transaction, and of the settling of its run. -/
def admits (job : Job τ) (lease : ExecutionLease) (at' : τ) : Bool :=
  job.leasedTo lease && job.quarantinedAt.isNone && job.unexpiredAt at'

def map (f : τ → τ') (job : Job τ) : Job τ' :=
  { job with
    leaseExpiresAt := job.leaseExpiresAt.map f
    quarantinedAt := job.quarantinedAt.map f
    createdAt := f job.createdAt }

end Job

/-- `status IN ('queued', 'delivered') AND deadline_at <= now` -/
def Message.overdue (recipientRunId : String) (now : τ) (m : Message τ) : Bool :=
  m.recipientRunId = recipientRunId && (m.status = .queued || m.status = .delivered) &&
    m.deadlineAt ≤ now

def Message.become (status : MessageStatus) (m : Message τ) : Message τ := { m with status := status }

def Message.map (f : τ → τ') (m : Message τ) : Message τ' :=
  { m with deadlineAt := f m.deadlineAt, createdAt := f m.createdAt }

/-- `status = 'scheduled' AND run_at <= now` -/
def Schedule.due (now : τ) (s : Schedule τ) : Bool := s.status = .scheduled && s.runAt ≤ now

def Schedule.become (status : ScheduleStatus) (s : Schedule τ) : Schedule τ :=
  { s with status := status }

def Schedule.map (f : τ → τ') (s : Schedule τ) : Schedule τ' := { s with runAt := f s.runAt }

def Columns.map (f : τ → τ') (c : Columns τ) : Columns τ' where
  jobs := c.jobs.map (Job.map f)
  messages := c.messages.map (Message.map f)
  schedules := c.schedules.map (Schedule.map f)

/-- `ORDER BY column, id` -/
def orderBy (column : ρ → τ) (id : ρ → String) (rows : List ρ) : List ρ :=
  rows.insertionSort fun a b ↦ column a < column b ∨ (column a = column b ∧ id a ≤ id b)

/-- `UPDATE … WHERE` -/
def update (keep : ρ → Bool) (change : ρ → ρ) (rows : List ρ) : List ρ :=
  rows.map fun r ↦ if keep r then change r else r

/-! ## Statements -/

/-- The leased jobs whose lease has run out and whose run there is, in the order of the query. -/
def expiredJobs (runStatus : String → Option RunStatus) (now : τ) (jobs : List (Job τ)) :
    List (Job τ × RunStatus) :=
  let rows := jobs.filter fun j ↦ j.status = .leased && j.expiredAt now
  let dated := rows.filterMap fun j ↦ j.leaseExpiresAt.map fun expiry ↦ (expiry, j)
  (orderBy Prod.fst (fun r ↦ r.2.id) dated).filterMap fun r ↦
    (runStatus r.2.runId).map fun status ↦ (r.2, status)

def quarantined (now : τ) (j : Job τ) : Job τ :=
  { j with quarantinedAt := some now, leaseExpiresAt := none }

/-- A job whose run has settled follows it, any other one is quarantined. -/
def requeueExpiredJob (now : τ) (jobs : List (Job τ)) (row : Job τ × RunStatus) : List (Job τ) :=
  update (fun j ↦ j.id = row.1.id && j.status = .leased)
    (fun j ↦ match settledJobStatus row.2 with
      | some status => { j with status := status, leaseOwner := none, leaseExpiresAt := none }
      | none => quarantined now j)
    jobs

def requeueExpiredJobs (runStatus : String → Option RunStatus) (now : τ) (jobs : List (Job τ)) :
    List (Job τ) :=
  (expiredJobs runStatus now jobs).foldl (requeueExpiredJob now) jobs

/-- The oldest pending job of a run that may start. -/
def nextPendingJob (ready : String → Bool) (jobs : List (Job τ)) : Option (Job τ) :=
  (orderBy Job.createdAt Job.id (jobs.filter fun j ↦ j.status = .pending)).find? fun j ↦
    ready j.runId

def leasePendingJob (id workerId : String) (expiresAt : τ) (jobs : List (Job τ)) : List (Job τ) :=
  update (fun j ↦ j.id = id && j.status = .pending)
    (fun j ↦ { j with
      status := .leased
      leaseOwner := some workerId
      leaseGeneration := j.leaseGeneration + 1
      leaseExpiresAt := some expiresAt })
    jobs

def renewable (jobId leaseOwner : String) (leaseGeneration : ℕ) (now : τ) (j : Job τ) : Bool :=
  j.id = jobId && j.status = .leased && j.leaseOwner = some leaseOwner &&
    j.leaseGeneration = leaseGeneration && j.quarantinedAt.isNone && j.unexpiredAt now

def renewed (expiresAt : τ) (j : Job τ) : Job τ := { j with leaseExpiresAt := some expiresAt }

def finishable (jobId leaseOwner : String) (leaseGeneration : ℕ) (now : τ) (j : Job τ) : Bool :=
  j.id = jobId && j.status = .leased && j.leaseOwner = some leaseOwner &&
    j.leaseGeneration = leaseGeneration && j.unexpiredAt now

def endLease (status : JobStatus) (j : Job τ) : Job τ :=
  { j with status := status, leaseExpiresAt := none }

/-- The messages past their deadline, in the order of their events. -/
def overdueMessages (recipientRunId : String) (now : τ) (messages : List (Message τ)) :
    List (Message τ) :=
  orderBy Message.createdAt Message.id (messages.filter (Message.overdue recipientRunId now))

def expireMessages (recipientRunId : String) (now : τ) (messages : List (Message τ)) :
    List (Message τ) :=
  update (Message.overdue recipientRunId now) (Message.become .expired) messages

def dueSchedules (now : τ) (limit : ℕ) (schedules : List (Schedule τ)) : List (Schedule τ) :=
  (orderBy Schedule.runAt Schedule.id (schedules.filter (Schedule.due now))).take limit

/-! ## The client's time of a schedule -/

/-- The standard library's reading of texts: `strip`, and `datetime.fromisoformat` with the
offset of the time, where the text has one. -/
structure Spelling where
  strip : String → String
  fromisoformat : String → Option (Datetime × Option ℤ)

/-- `_normalize_schedule_time`: a time without an offset is taken to be in UTC. -/
def normalizeScheduleTime (spelling : Spelling) (raw : String) : Option Datetime :=
  let value := spelling.strip raw
  if value.isEmpty then none
  else
    let spelled := value.toList.flatMap fun c ↦ if c = 'Z' then "+00:00".toList else [c]
    (spelling.fromisoformat (String.ofList spelled)).bind fun (parsed, offset) ↦
      parsed.plus (-(offset.getD 0))

/-! ## Runs -/

/-- What is done to the rows, with the readings of the clock. Durations are in microseconds. -/
inductive Op where
  | enqueueRunJob (id runId : String) (now : Datetime)
  | requeueExpiredRunJobs (runStatus : String → Option RunStatus) (now : Datetime)
  | claimRunJob (runStatus : String → Option RunStatus) (ready : String → Bool)
      (workerId : String) (now leasedAt : Datetime) (lease : ℤ)
  | renewRunJob (jobId leaseOwner : String) (leaseGeneration : ℕ) (renewedAt base : Datetime)
      (lease : ℤ)
  | finishRunJob (jobId leaseOwner : String) (leaseGeneration : ℕ) (status : JobStatus)
      (finishedAt : Datetime)
  | runWriteTransaction (lease : ExecutionLease) (now : Datetime)
  | settleRun (lease : ExecutionLease) (status : JobStatus) (fenceAt : Datetime)
  | quarantine (id : String) (now : Datetime)
  | sendAgentMessage (id recipientRunId : String) (now base : Datetime) (ttl : ℤ)
  | expireAgentMessages (recipientRunId : String) (now : Datetime)
  | setMessageStatus (id : String) (status : MessageStatus)
  | createSchedule (id raw : String)
  | claimDueScheduledRuns (now : Datetime) (limit : ℕ)
  | setScheduleStatus (id : String) (status : ScheduleStatus)

/-- What a statement answers: whether a row met its condition, or the rows it found. -/
inductive Answer where
  | done
  | held (met : Bool)
  | rows (ids : List String)
  | raised
  deriving DecidableEq

variable (stamp : Datetime → τ) (spelling : Spelling)

def step (c : Columns τ) : Op → Answer × Columns τ
  | .enqueueRunJob id runId now =>
      (.done, { c with jobs := c.jobs ++
        [⟨id, runId, .pending, none, 0, none, none, stamp now⟩] })
  | .requeueExpiredRunJobs runStatus now =>
      (.rows ((expiredJobs runStatus (stamp now) c.jobs).map fun r ↦ r.1.id),
        { c with jobs := requeueExpiredJobs runStatus (stamp now) c.jobs })
  | .claimRunJob runStatus ready workerId now leasedAt lease =>
      let jobs := requeueExpiredJobs runStatus (stamp now) c.jobs
      match nextPendingJob ready jobs with
      | none => (.rows [], { c with jobs := jobs })
      | some job =>
          match leasedAt.plus lease with
          | none => (.raised, c)
          | some expiresAt =>
              (.rows [job.id],
                { c with jobs := leasePendingJob job.id workerId (stamp expiresAt) jobs })
  | .renewRunJob jobId leaseOwner leaseGeneration renewedAt base lease =>
      match base.plus lease with
      | none => (.raised, c)
      | some expiresAt =>
          let meets := renewable jobId leaseOwner leaseGeneration (stamp renewedAt)
          (.held (c.jobs.any meets),
            { c with jobs := update meets (renewed (stamp expiresAt)) c.jobs })
  | .finishRunJob jobId leaseOwner leaseGeneration status finishedAt =>
      let meets := finishable jobId leaseOwner leaseGeneration (stamp finishedAt)
      (.held (c.jobs.any meets), { c with jobs := update meets (endLease status) c.jobs })
  | .runWriteTransaction lease now => (.held (c.jobs.any fun j ↦ j.admits lease (stamp now)), c)
  | .settleRun lease status fenceAt =>
      let meets := fun j : Job τ ↦ j.admits lease (stamp fenceAt)
      (.held (c.jobs.any meets), { c with jobs := update meets (endLease status) c.jobs })
  | .quarantine id now =>
      (.done, { c with jobs := update (fun j ↦ j.id = id) (quarantined (stamp now)) c.jobs })
  | .sendAgentMessage id recipientRunId now base ttl =>
      match base.plus ttl with
      | none => (.raised, c)
      | some deadlineAt =>
          (.rows ((overdueMessages recipientRunId (stamp now) c.messages).map Message.id),
            { c with messages := expireMessages recipientRunId (stamp now) c.messages ++
                [⟨id, recipientRunId, .queued, stamp deadlineAt, stamp now⟩] })
  | .expireAgentMessages recipientRunId now =>
      (.rows ((overdueMessages recipientRunId (stamp now) c.messages).map Message.id),
        { c with messages := expireMessages recipientRunId (stamp now) c.messages })
  | .setMessageStatus id status =>
      let messages := update (fun m ↦ m.id = id) (Message.become status) c.messages
      (.done, { c with messages := messages })
  | .createSchedule id raw =>
      match normalizeScheduleTime spelling raw with
      | none => (.raised, c)
      | some runAt =>
          (.done, { c with schedules := c.schedules ++ [⟨id, .scheduled, stamp runAt⟩] })
  | .claimDueScheduledRuns now limit =>
      let due := (dueSchedules (stamp now) limit c.schedules).map Schedule.id
      let claimed := fun s : Schedule τ ↦ due.contains s.id && s.status = .scheduled
      (.rows due, { c with schedules := update claimed (Schedule.become .running) c.schedules })
  | .setScheduleStatus id status =>
      let schedules := update (fun s ↦ s.id = id) (Schedule.become status) c.schedules
      (.done, { c with schedules := schedules })

/-- The answers of a run, and the rows after it. -/
def run : List Op → Columns τ → List Answer × Columns τ
  | [], c => ([], c)
  | op :: ops, c =>
      let (answer, c) := step stamp spelling c op
      let (answers, c) := run ops c
      (answer :: answers, c)

end ShejaneRuntime.Timestamps
