import Mathlib.Order.Lattice
import ShejaneRuntime.Timestamps.Columns

/-!
# Texts decide as instants do

A strictly increasing change of the time columns changes no answer of any
statement. The texts and the instants of datetimes are two such changes.
-/

namespace ShejaneRuntime.Timestamps

open Lib
open Store (JobStatus RunStatus MessageStatus ExecutionLease)
open Scheduling (ScheduleStatus)

variable {ρ ρ' σ τ τ' : Type} {f : τ → τ'}

/-! ## Rows -/

@[simp] theorem Job.id_map (j : Job τ) : (j.map f).id = j.id := rfl

@[simp] theorem Job.createdAt_map (j : Job τ) : (j.map f).createdAt = f j.createdAt := rfl

@[simp] theorem Job.leaseExpiresAt_map (j : Job τ) :
    (j.map f).leaseExpiresAt = j.leaseExpiresAt.map f := rfl

@[simp] theorem Message.id_map (m : Message τ) : (m.map f).id = m.id := rfl

@[simp] theorem Message.createdAt_map (m : Message τ) : (m.map f).createdAt = f m.createdAt := rfl

@[simp] theorem Schedule.id_map (s : Schedule τ) : (s.map f).id = s.id := rfl

@[simp] theorem Schedule.runAt_map (s : Schedule τ) : (s.map f).runAt = f s.runAt := rfl

theorem renewed_map (expiresAt : τ) (j : Job τ) :
    renewed (f expiresAt) (j.map f) = (renewed expiresAt j).map f := rfl

theorem endLease_map (status : JobStatus) (j : Job τ) :
    endLease status (j.map f) = (endLease status j).map f := rfl

theorem filter_map_of {p : ρ' → Bool} {q : ρ → Bool} {g : ρ → ρ'} (h : ∀ r, p (g r) = q r)
    (rows : List ρ) : (rows.map g).filter p = (rows.filter q).map g := by
  rw [List.filter_map]
  congr 1
  exact List.filter_congr fun r _ ↦ h r

theorem any_map_of {p : ρ' → Bool} {q : ρ → Bool} {g : ρ → ρ'} (h : ∀ r, p (g r) = q r)
    (rows : List ρ) : (rows.map g).any p = rows.any q := by
  rw [List.any_map]
  congr 1
  funext r
  exact h r

theorem update_map_of {p : ρ' → Bool} {q : ρ → Bool} {g : ρ → ρ'} {c' : ρ' → ρ'} {c : ρ → ρ}
    (h : ∀ r, p (g r) = q r) (hchange : ∀ r, c' (g r) = g (c r)) (rows : List ρ) :
    update p c' (rows.map g) = (update q c rows).map g := by
  unfold update
  rw [List.map_map, List.map_map]
  apply List.map_congr_left
  intro r _
  simp only [Function.comp_apply, h r]
  split
  · exact hchange r
  · rfl

variable [LinearOrder τ] [LinearOrder τ']

theorem orderBy_map_of (hf : StrictMono f) {g : ρ → ρ'} {column : ρ → τ} {column' : ρ' → τ'}
    {id : ρ → String} {id' : ρ' → String} (hcolumn : ∀ r, column' (g r) = f (column r))
    (hid : ∀ r, id' (g r) = id r) (rows : List ρ) :
    orderBy column' id' (rows.map g) = (orderBy column id rows).map g := by
  unfold orderBy
  symm
  apply List.map_insertionSort
  intro a _ b _
  rw [hcolumn, hcolumn, hid, hid, hf.lt_iff_lt, hf.injective.eq_iff]

/-! ## Conditions -/

section Conditions

variable (hf : StrictMono f) (lease : ExecutionLease) (now : τ)
include hf

theorem unexpiredAt_map (j : Job τ) : (j.map f).unexpiredAt (f now) = j.unexpiredAt now := by
  unfold Job.unexpiredAt Job.map
  cases j.leaseExpiresAt with
  | none => rfl
  | some expiry => exact decide_eq_decide.mpr hf.lt_iff_lt

theorem expiredAt_map (j : Job τ) : (j.map f).expiredAt (f now) = j.expiredAt now := by
  unfold Job.expiredAt Job.map
  cases j.leaseExpiresAt with
  | none => rfl
  | some expiry => exact decide_eq_decide.mpr hf.le_iff_le

theorem admits_map (j : Job τ) : (j.map f).admits lease (f now) = j.admits lease now := by
  unfold Job.admits
  rw [unexpiredAt_map hf]
  congr 2
  unfold Job.map
  cases j.quarantinedAt <;> rfl

theorem renewable_map (id owner : String) (generation : ℕ) (j : Job τ) :
    renewable id owner generation (f now) (j.map f) = renewable id owner generation now j := by
  unfold renewable
  rw [unexpiredAt_map hf]
  congr 2
  unfold Job.map
  cases j.quarantinedAt <;> rfl

theorem finishable_map (id owner : String) (generation : ℕ) (j : Job τ) :
    finishable id owner generation (f now) (j.map f) = finishable id owner generation now j := by
  unfold finishable
  rw [unexpiredAt_map hf]
  rfl

theorem overdue_map (recipient : String) (m : Message τ) :
    Message.overdue recipient (f now) (m.map f) = Message.overdue recipient now m := by
  unfold Message.overdue
  congr 1
  exact decide_eq_decide.mpr hf.le_iff_le

theorem due_map (s : Schedule τ) : Schedule.due (f now) (s.map f) = Schedule.due now s := by
  unfold Schedule.due
  congr 1
  exact decide_eq_decide.mpr hf.le_iff_le

/-! ## Statements -/

theorem expiredJobs_map (runStatus : String → Option RunStatus) (jobs : List (Job τ)) :
    expiredJobs runStatus (f now) (jobs.map (Job.map f)) =
      (expiredJobs runStatus now jobs).map fun r ↦ (r.1.map f, r.2) := by
  have hexpired : ∀ j : Job τ, (decide ((j.map f).status = .leased) && (j.map f).expiredAt (f now)) =
      (decide (j.status = .leased) && j.expiredAt now) := by
    intro j
    rw [expiredAt_map hf]
    rfl
  have hdated : ∀ rows : List (Job τ),
      ((rows.map (Job.map f)).filterMap fun j ↦ j.leaseExpiresAt.map fun expiry ↦ (expiry, j)) =
        (rows.filterMap fun j ↦ j.leaseExpiresAt.map fun expiry ↦ (expiry, j)).map
          fun r ↦ (f r.1, r.2.map f) := by
    intro rows
    rw [List.filterMap_map, List.map_filterMap]
    congr 1
    funext j
    simp only [Function.comp_apply, Job.leaseExpiresAt_map]
    cases j.leaseExpiresAt <;> rfl
  unfold expiredJobs
  dsimp only
  rw [filter_map_of hexpired, hdated,
    orderBy_map_of hf (fun r ↦ rfl : ∀ r : τ × Job τ, (f r.1, r.2.map f).1 = f r.1) (fun r ↦ rfl),
    List.filterMap_map, List.map_filterMap]
  congr 1
  funext r
  dsimp only [Function.comp_apply]
  show (runStatus r.2.runId).map _ = _
  cases runStatus r.2.runId <;> rfl

omit [LinearOrder τ] [LinearOrder τ'] hf in
theorem requeueExpiredJob_map (jobs : List (Job τ)) (row : Job τ × RunStatus) :
    requeueExpiredJob (f now) (jobs.map (Job.map f)) (row.1.map f, row.2) =
      (requeueExpiredJob now jobs row).map (Job.map f) := by
  unfold requeueExpiredJob
  apply update_map_of
  · exact fun j ↦ rfl
  · intro j
    dsimp only
    cases Store.settledJobStatus row.2 <;> rfl

theorem requeueExpiredJobs_map (runStatus : String → Option RunStatus) (jobs : List (Job τ)) :
    requeueExpiredJobs runStatus (f now) (jobs.map (Job.map f)) =
      (requeueExpiredJobs runStatus now jobs).map (Job.map f) := by
  unfold requeueExpiredJobs
  rw [expiredJobs_map hf, List.foldl_map]
  generalize expiredJobs runStatus now jobs = expired
  induction expired generalizing jobs with
  | nil => rfl
  | cons row expired ih =>
      rw [List.foldl_cons, List.foldl_cons, requeueExpiredJob_map]
      exact ih _

theorem nextPendingJob_map (ready : String → Bool) (jobs : List (Job τ)) :
    nextPendingJob ready (jobs.map (Job.map f)) = (nextPendingJob ready jobs).map (Job.map f) := by
  have hpending : ∀ j : Job τ, decide ((j.map f).status = .pending) =
      decide (j.status = .pending) := fun j ↦ rfl
  unfold nextPendingJob
  rw [filter_map_of hpending, orderBy_map_of hf Job.createdAt_map Job.id_map, List.find?_map]
  rfl

theorem overdueMessages_map (recipient : String) (messages : List (Message τ)) :
    overdueMessages recipient (f now) (messages.map (Message.map f)) =
      (overdueMessages recipient now messages).map (Message.map f) := by
  unfold overdueMessages
  rw [filter_map_of (overdue_map hf now recipient),
    orderBy_map_of hf Message.createdAt_map Message.id_map]

theorem expireMessages_map (recipient : String) (messages : List (Message τ)) :
    expireMessages recipient (f now) (messages.map (Message.map f)) =
      (expireMessages recipient now messages).map (Message.map f) :=
  update_map_of (overdue_map hf now recipient) (fun _ ↦ rfl) messages

theorem dueSchedules_map (limit : ℕ) (schedules : List (Schedule τ)) :
    dueSchedules (f now) limit (schedules.map (Schedule.map f)) =
      (dueSchedules now limit schedules).map (Schedule.map f) := by
  unfold dueSchedules
  rw [filter_map_of (due_map hf now), orderBy_map_of hf Schedule.runAt_map Schedule.id_map,
    List.map_take]

end Conditions

/-! ## Runs -/

section Runs

variable (hf : StrictMono f) (stamp : Datetime → τ) (spelling : Spelling)
include hf

theorem step_map (c : Columns τ) (op : Op) :
    step (fun d ↦ f (stamp d)) spelling (c.map f) op =
      ((step stamp spelling c op).1, (step stamp spelling c op).2.map f) := by
  cases op with
  | enqueueRunJob id runId now => simp [step, Columns.map, Job.map]
  | requeueExpiredRunJobs runStatus now =>
      simp only [step, Columns.map, expiredJobs_map hf, requeueExpiredJobs_map hf, List.map_map]
      rfl
  | claimRunJob runStatus ready workerId now leasedAt lease =>
      simp only [step, Columns.map, requeueExpiredJobs_map hf, nextPendingJob_map hf]
      cases nextPendingJob ready (requeueExpiredJobs runStatus (stamp now) c.jobs) with
      | none => rfl
      | some job =>
          dsimp only [Option.map_some]
          cases leasedAt.plus lease with
          | none => rfl
          | some expiresAt =>
              dsimp only
              congr 2
              apply update_map_of
              · exact fun j ↦ rfl
              · exact fun j ↦ rfl
  | renewRunJob jobId leaseOwner leaseGeneration renewedAt base lease =>
      simp only [step, Columns.map]
      cases base.plus lease with
      | none => rfl
      | some expiresAt =>
          have hmeets := renewable_map hf (stamp renewedAt) jobId leaseOwner leaseGeneration
          dsimp only
          rw [any_map_of hmeets, update_map_of hmeets (renewed_map (stamp expiresAt))]
  | finishRunJob jobId leaseOwner leaseGeneration status finishedAt =>
      have hmeets := finishable_map hf (stamp finishedAt) jobId leaseOwner leaseGeneration
      simp only [step, Columns.map]
      rw [any_map_of hmeets, update_map_of hmeets (endLease_map status)]
  | runWriteTransaction lease now =>
      simp only [step, Columns.map]
      rw [any_map_of (admits_map hf lease (stamp now))]
  | settleRun lease status fenceAt =>
      have hmeets := admits_map hf lease (stamp fenceAt)
      simp only [step, Columns.map]
      rw [any_map_of hmeets]
      congr 2
      exact update_map_of hmeets (endLease_map status) c.jobs
  | quarantine id now =>
      simp only [step, Columns.map]
      congr 2
      apply update_map_of
      · exact fun r ↦ rfl
      · exact fun r ↦ rfl
  | sendAgentMessage id recipientRunId now base ttl =>
      simp only [step, Columns.map, overdueMessages_map hf, expireMessages_map hf]
      cases base.plus ttl with
      | none => rfl
      | some deadlineAt =>
          dsimp only
          rw [List.map_map, List.map_append]
          rfl
  | expireAgentMessages recipientRunId now =>
      simp only [step, Columns.map, overdueMessages_map hf, expireMessages_map hf, List.map_map]
      rfl
  | setMessageStatus id status =>
      simp only [step, Columns.map]
      congr 2
      apply update_map_of
      · exact fun r ↦ rfl
      · exact fun r ↦ rfl
  | createSchedule id raw =>
      simp only [step, Columns.map]
      cases normalizeScheduleTime spelling raw with
      | none => rfl
      | some runAt => simp [Schedule.map]
  | claimDueScheduledRuns now limit =>
      have hdue : (dueSchedules (f (stamp now)) limit (c.schedules.map (Schedule.map f))).map
          Schedule.id = (dueSchedules (stamp now) limit c.schedules).map Schedule.id := by
        rw [dueSchedules_map hf, List.map_map]
        rfl
      simp only [step, Columns.map]
      rw [hdue]
      congr 2
      apply update_map_of
      · exact fun r ↦ rfl
      · exact fun r ↦ rfl
  | setScheduleStatus id status =>
      simp only [step, Columns.map]
      congr 2
      apply update_map_of
      · exact fun r ↦ rfl
      · exact fun r ↦ rfl

theorem run_map (c : Columns τ) (ops : List Op) :
    run (fun d ↦ f (stamp d)) spelling ops (c.map f) =
      ((run stamp spelling ops c).1, (run stamp spelling ops c).2.map f) := by
  induction ops generalizing c with
  | nil => rfl
  | cons op ops ih =>
      unfold run
      rw [step_map hf]
      dsimp only
      rw [ih]

end Runs

/-! ## Datetimes in the order of their instants -/

instance : LinearOrder Datetime := LinearOrder.lift' Datetime.instant fun _ _ ↦ Datetime.instant_inj

theorem strictMono_instant : StrictMono Datetime.instant := fun _ _ h ↦ h

theorem strictMono_isoformat : StrictMono isoformat := fun _ _ h ↦ isoformat_lt_iff.mpr h

/-- The texts of two datetimes order as their instants, whatever their fractions, and a store
that keeps texts answers in every run what one that keeps instants does. -/
theorem stored_texts_order_as_instants (spelling : Spelling) :
    (∀ d e : Datetime, isoformat d < isoformat e ↔ d.instant < e.instant) ∧
      ∀ ops : List Op, (run isoformat spelling ops {}).1 = (run Datetime.instant spelling ops {}).1 ∧
        ∃ c : Columns Datetime, (run isoformat spelling ops {}).2 = c.map isoformat ∧
          (run Datetime.instant spelling ops {}).2 = c.map Datetime.instant := by
  refine ⟨fun d e ↦ isoformat_lt_iff, fun ops ↦ ?_⟩
  have htexts := run_map strictMono_isoformat (fun d ↦ d) spelling {} ops
  have hinstants := run_map strictMono_instant (fun d ↦ d) spelling {} ops
  have hanswers := (congrArg Prod.fst htexts).trans (congrArg Prod.fst hinstants).symm
  exact ⟨hanswers, (run (fun d ↦ d) spelling ops {}).2, congrArg Prod.snd htexts,
    congrArg Prod.snd hinstants⟩

/-! ## The rows of the store -/

/-- The time columns of a job of the store. -/
def Job.ofStore (j : Store.Job) : Job ℕ :=
  ⟨j.id, j.runId, j.status, j.leaseOwner, j.leaseGeneration, j.leaseExpiresAt, j.quarantinedAt,
    j.createdAt⟩

theorem unexpiredAt_ofStore (j : Store.Job) (now : ℕ) :
    (Job.ofStore j).unexpiredAt now = j.unexpiredAt now := by
  unfold Job.unexpiredAt Store.Job.unexpiredAt Job.ofStore
  dsimp only
  cases j.leaseExpiresAt <;> rfl

/-- The fence of the store's transactions is the one above, of instants. -/
theorem admits_ofStore (j : Store.Job) (lease : ExecutionLease) (now : ℕ) :
    (Job.ofStore j).admits lease now = j.admits lease now := by
  unfold Job.admits
  rw [unexpiredAt_ofStore]
  rfl

theorem expiredAt_ofStore (j : Store.Job) (now : ℕ) :
    (Job.ofStore j).expiredAt now = j.expiredAt now := by
  unfold Job.expiredAt Store.Job.expiredAt Job.ofStore
  dsimp only
  cases j.leaseExpiresAt <;> rfl

def Message.ofStore (m : Store.AgentMessage) : Message ℕ :=
  ⟨m.id, m.recipientRunId, m.status, m.deadlineAt, m.createdAt⟩

theorem overdue_ofStore (m : Store.AgentMessage) (recipientRunId : String) (now : ℕ) :
    (Message.ofStore m).overdue recipientRunId now = m.overdue recipientRunId now := by
  unfold Message.overdue Message.ofStore Store.AgentMessage.overdue Store.AgentMessage.unacknowledged
  rfl

def Schedule.ofStore (s : Scheduling.ScheduledRun) : Schedule ℕ := ⟨s.id, s.status, s.runAt⟩

theorem dueScheduledRuns_ofStore (t : Scheduling.Schedules) (now limit : ℕ) :
    (Scheduling.dueScheduledRuns t now limit).map Schedule.ofStore =
      dueSchedules now limit (t.rows.map Schedule.ofStore) := by
  have hdue : ∀ s : Scheduling.ScheduledRun, (Schedule.ofStore s).due now =
      (decide (s.status = .scheduled) && decide (s.runAt ≤ now)) := fun s ↦ rfl
  unfold dueSchedules Scheduling.dueScheduledRuns Scheduling.inOrder orderBy
  rw [filter_map_of hdue, List.map_take]
  congr 1
  apply List.map_insertionSort
  exact fun a _ b _ ↦ Iff.rfl

end ShejaneRuntime.Timestamps
