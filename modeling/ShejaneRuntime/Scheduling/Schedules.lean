import ShejaneRuntime.Store.Operations

/-!
# Scheduled runs

The rows of `local_scheduled_runs` and the statements on them. Each is one
update with a condition on the status, so that a schedule that has ended
keeps its status. The texts of results and errors are left out.
-/

namespace ShejaneRuntime.Scheduling

open Lib Store

inductive ScheduleStatus where
  | scheduled | running | completed | failed | canceled
  deriving DecidableEq, Repr

def ScheduleStatus.terminal : ScheduleStatus → Bool
  | .scheduled | .running => false
  | .completed | .failed | .canceled => true

structure ScheduledRun where
  id : String
  principalId : String
  goal : String
  workspacePath : Option String
  model : String
  historyJson : Json
  settingsJson : Json
  metadataJson : Json
  runAt : Time
  status : ScheduleStatus
  runId : Option String
  createdAt : Time
  updatedAt : Time
  completedAt : Option Time
  notifiedAt : Option Time

abbrev Schedules := Table ScheduledRun.id

variable (t : Schedules)

/-- `ORDER BY run_at ASC, id ASC` -/
def inOrder (rows : List ScheduledRun) : List ScheduledRun :=
  rows.insertionSort fun a b ↦ a.runAt < b.runAt ∨ (a.runAt = b.runAt ∧ a.id ≤ b.id)

/-- `list_scheduled_runs` with a status. -/
def listScheduledRuns (limit : ℕ) (status : ScheduleStatus) : List ScheduledRun :=
  (inOrder (t.select fun s ↦ s.status = status)).take limit

def dueScheduledRuns (now : Time) (limit : ℕ) : List ScheduledRun :=
  (inOrder (t.select fun s ↦ s.status = .scheduled && s.runAt ≤ now)).take limit

namespace ScheduledRun

def claimed (updatedAt : Time) (s : ScheduledRun) : ScheduledRun :=
  { s with status := .running, updatedAt := updatedAt }

theorem id_claimed (updatedAt : Time) (s : ScheduledRun) : (s.claimed updatedAt).id = s.id := rfl

def boundTo (runId : String) (updatedAt : Time) (s : ScheduledRun) : ScheduledRun :=
  { s with runId := some runId, updatedAt := updatedAt }

def endedAs (status : ScheduleStatus) (endedAt : Time) (s : ScheduledRun) : ScheduledRun :=
  { s with status := status, completedAt := some endedAt, updatedAt := endedAt }

theorem id_endedAs (status : ScheduleStatus) (endedAt : Time) (s : ScheduledRun) :
    (s.endedAs status endedAt).id = s.id := rfl

end ScheduledRun

/-- `claim_due_scheduled_runs`: the claimed rows, and the table after it. -/
def claimDueScheduledRuns (now : Time) (limit : ℕ) (updatedAt : Time) :
    List ScheduledRun × Schedules :=
  let rows := dueScheduledRuns t now limit
  (rows.map (ScheduledRun.claimed updatedAt),
    t.update (fun s ↦ (rows.map ScheduledRun.id).contains s.id && s.status = .scheduled)
      (ScheduledRun.claimed updatedAt) (ScheduledRun.id_claimed updatedAt))

def markScheduledRunStarted (scheduleId runId : String) (updatedAt : Time) : Schedules :=
  t.update (fun s ↦ s.id = scheduleId && s.status = .running &&
      (s.runId = none || s.runId = some runId))
    (ScheduledRun.boundTo runId updatedAt) fun _ ↦ rfl

def completeScheduledRun (scheduleId : String) (status : ScheduleStatus) (completedAt : Time) :
    Schedules :=
  t.update (fun s ↦ s.id = scheduleId && s.status = .running)
    (ScheduledRun.endedAs status completedAt) fun _ ↦ rfl

def cancelScheduledRun (principalId scheduleId : String) (canceledAt : Time) : Schedules :=
  t.update (fun s ↦ s.principalId = principalId && s.id = scheduleId && s.status = .scheduled)
    (ScheduledRun.endedAs .canceled canceledAt) (ScheduledRun.id_endedAs _ _)

def markScheduledRunNotified (principalId scheduleId : String) (notifiedAt : Time) : Schedules :=
  t.update (fun s ↦ s.principalId = principalId && s.id = scheduleId &&
      (s.status = .completed || s.status = .failed) && s.notifiedAt.isNone)
    fun s ↦ { s with notifiedAt := some notifiedAt, updatedAt := notifiedAt }

/-! ## What an update keeps -/

/-- A row later: another status only if the first had not ended, and never
again waiting to be claimed. -/
structure Later (s s' : ScheduledRun) : Prop where
  id : s'.id = s.id
  principal : s'.principalId = s.principalId
  ended : s.status.terminal = true → s'.status = s.status
  claimed : s.status ≠ .scheduled → s'.status ≠ .scheduled

theorem Later.refl (s : ScheduledRun) : Later s s := ⟨rfl, rfl, fun _ ↦ rfl, fun h ↦ h⟩

/-- Every row is there later, and every later row was there or is new. -/
structure Advances (t t' : Schedules) : Prop where
  old : ∀ s ∈ t.rows, ∃ s' ∈ t'.rows, Later s s'
  new : ∀ s' ∈ t'.rows, (∃ s ∈ t.rows, Later s s') ∨
    s'.status = .scheduled ∧ s'.runId = none ∧ t.find? s'.id = none

theorem Advances.refl (t : Schedules) : Advances t t :=
  ⟨fun s hs ↦ ⟨s, hs, .refl s⟩, fun s hs ↦ .inl ⟨s, hs, .refl s⟩⟩

variable {t} {p : ScheduledRun → Bool} {f : ScheduledRun → ScheduledRun}

theorem advances_update (hf : ∀ s, (f s).id = s.id)
    (h : ∀ s, p s = true → Later s (f s)) : Advances t (t.update p f hf) := by
  have hone : ∀ s, Later s (if p s then f s else s) := by
    intro s
    split
    · rename_i hp
      exact h s hp
    · exact .refl s
  refine ⟨fun s hs ↦ ?_, fun s' hs' ↦ ?_⟩
  · exact ⟨_, Table.mem_update.mpr ⟨s, hs, rfl⟩, hone s⟩
  · obtain ⟨s, hs, rfl⟩ := Table.mem_update.mp hs'
    exact .inl ⟨s, hs, hone s⟩

theorem later_of_unended {s s' : ScheduledRun} (hid : s'.id = s.id)
    (hprincipal : s'.principalId = s.principalId) (hs : s.status.terminal = false)
    (hs' : s'.status ≠ .scheduled) : Later s s' := by
  refine ⟨hid, hprincipal, fun hended ↦ ?_, fun _ ↦ hs'⟩
  rw [hs] at hended
  cases hended

theorem advances_claimDueScheduledRuns (now : Time) (limit : ℕ) (updatedAt : Time) :
    Advances t (claimDueScheduledRuns t now limit updatedAt).2 := by
  refine advances_update (f := ScheduledRun.claimed updatedAt) (fun _ ↦ rfl) fun s hs ↦ ?_
  simp only [Bool.and_eq_true, decide_eq_true_eq] at hs
  exact later_of_unended rfl rfl (by rw [hs.2]; rfl) (by simp [ScheduledRun.claimed])

theorem advances_markScheduledRunStarted (scheduleId runId : String) (updatedAt : Time) :
    Advances t (markScheduledRunStarted t scheduleId runId updatedAt) := by
  refine advances_update _ fun s hs ↦ ?_
  simp only [Bool.and_eq_true, decide_eq_true_eq] at hs
  exact later_of_unended rfl rfl (by rw [hs.1.2]; rfl) (by simp [ScheduledRun.boundTo, hs.1.2])

theorem advances_completeScheduledRun (scheduleId : String) {status : ScheduleStatus}
    (hstatus : status.terminal = true) (completedAt : Time) :
    Advances t (completeScheduledRun t scheduleId status completedAt) := by
  refine advances_update _ fun s hs ↦ ?_
  simp only [Bool.and_eq_true, decide_eq_true_eq] at hs
  refine later_of_unended rfl rfl (by rw [hs.2]; rfl) ?_
  intro hscheduled
  rw [show status = .scheduled from hscheduled] at hstatus
  cases hstatus

theorem advances_cancelScheduledRun (principalId scheduleId : String) (canceledAt : Time) :
    Advances t (cancelScheduledRun t principalId scheduleId canceledAt) := by
  refine advances_update _ fun s hs ↦ ?_
  simp only [Bool.and_eq_true, decide_eq_true_eq] at hs
  exact later_of_unended rfl rfl (by rw [hs.2]; rfl) (by simp [ScheduledRun.endedAs])

theorem advances_markScheduledRunNotified (principalId scheduleId : String) (notifiedAt : Time) :
    Advances t (markScheduledRunNotified t principalId scheduleId notifiedAt) :=
  advances_update _ fun _ _ ↦ ⟨rfl, rfl, fun _ ↦ rfl, fun h ↦ h⟩

theorem advances_insert? {t' : Schedules} {s : ScheduledRun} (h : t.insert? s = some t')
    (hstatus : s.status = .scheduled) (hrun : s.runId = none) : Advances t t' := by
  refine ⟨fun s' hs' ↦ ⟨s', (Table.mem_insert? h).mpr (.inl hs'), .refl s'⟩, fun s' hs' ↦ ?_⟩
  rcases (Table.mem_insert? h).mp hs' with hmem | rfl
  · exact .inl ⟨s', hmem, .refl s'⟩
  · exact .inr ⟨hstatus, hrun, Table.find?_key_of_insert? h⟩

/-! ## The rows of a list -/

theorem mem_inOrder {rows : List ScheduledRun} {s : ScheduledRun} : s ∈ inOrder rows ↔ s ∈ rows :=
  (List.perm_insertionSort _ _).mem_iff

theorem nodup_ids_of_take {p : ScheduledRun → Bool} (limit : ℕ) :
    (((inOrder (t.select p)).take limit).map ScheduledRun.id).Nodup := by
  have hperm : (inOrder (t.select p)).Perm (t.select p) := List.perm_insertionSort _ _
  have hsorted : ((inOrder (t.select p)).map ScheduledRun.id).Nodup :=
    (hperm.map _).nodup_iff.mpr ((List.filter_sublist.map _).nodup t.nodup)
  exact ((List.take_sublist _ _).map _).nodup hsorted

theorem mem_listScheduledRuns {limit : ℕ} {status : ScheduleStatus} {s : ScheduledRun}
    (h : s ∈ listScheduledRuns t limit status) : s ∈ t.rows ∧ s.status = status := by
  have hmem := mem_inOrder.mp (List.mem_of_mem_take h)
  simpa [Table.select] using hmem

theorem mem_dueScheduledRuns {now : Time} {limit : ℕ} {s : ScheduledRun}
    (h : s ∈ dueScheduledRuns t now limit) : s ∈ t.rows ∧ s.status = .scheduled := by
  have hmem := mem_inOrder.mp (List.mem_of_mem_take h)
  simp only [Table.select, List.mem_filter, Bool.and_eq_true, decide_eq_true_eq] at hmem
  exact ⟨hmem.1, hmem.2.1⟩

theorem mem_claimDueScheduledRuns {now : Time} {limit : ℕ} {s : ScheduledRun}
    (h : s ∈ dueScheduledRuns t now limit) (updatedAt : Time) :
    s.claimed updatedAt ∈ (claimDueScheduledRuns t now limit updatedAt).2.rows := by
  obtain ⟨hmem, hstatus⟩ := mem_dueScheduledRuns h
  dsimp only [claimDueScheduledRuns]
  rw [Table.mem_update]
  refine ⟨s, hmem, if_pos ?_⟩
  rw [Bool.and_eq_true, decide_eq_true_eq]
  exact ⟨List.contains_iff_mem.mpr (List.mem_map_of_mem h), hstatus⟩

theorem mem_cancelScheduledRun {s : ScheduledRun} (hs : s ∈ t.rows) (hstatus : s.status = .scheduled)
    (canceledAt : Time) : s.endedAs .canceled canceledAt ∈
      (cancelScheduledRun t s.principalId s.id canceledAt).rows := by
  unfold cancelScheduledRun
  rw [Table.mem_update]
  exact ⟨s, hs, if_pos (by simp [hstatus])⟩

end ShejaneRuntime.Scheduling
