import ShejaneRuntime.Journal.Gapless
import ShejaneRuntime.Scheduling.Dispatcher

/-!
# Schedules and their runs

The command of a schedule is recorded with the one run it started and is
never dropped. A schedule that the dispatcher records as completed or
canceled agrees with its run for good.
-/

namespace ShejaneRuntime.Store

open Lib Lib.Txn

/-! ## Commands are kept -/

/-- Every command is still there. -/
def CommandsKept (db db' : Database) : Prop := ∀ command ∈ db.commands.rows, command ∈ db'.commands.rows

instance : Std.Refl CommandsKept := ⟨fun _ _ h ↦ h⟩

instance : IsTrans Database CommandsKept := ⟨fun _ _ _ h h' c hc ↦ h' c (h c hc)⟩

theorem Write.commandsKept {k : Kind} {db db' : Database} (h : Write k db db') :
    CommandsKept db db' := by
  by_cases hparts : Part.commands ∉ k.parts
  · intro command hcommand
    rw [show db'.commands = db.commands from h.within .commands hparts]
    exact hcommand
  cases h with
  | command heffect =>
      refine heffect.relates (Keeps.attempt fun db db' hdb ↦ ?_)
      obtain ⟨commands, hinsert, rfl⟩ := Option.map_eq_some_iff.mp hdb
      intro command hcommand
      exact (Table.mem_insert? hinsert).mpr (.inl hcommand)
  | _ => exact absurd (by simp [Kind.parts]) hparts

theorem StoreOp.after_commandsKept (op : StoreOp) (db : Database) (w : World) :
    CommandsKept db (op.after db w) :=
  (op.after_writing db w).relates fun _ _ _ _ hw ↦ hw.commandsKept

/-- The command of a principal is recorded with the run it started. -/
def CommandStarted (db : Database) (principalId commandId runId : String) : Prop :=
  ∃ command, db.commands.find? (principalId, commandId) = some command ∧
    command.runId = some runId

theorem CommandStarted.kept {db db' : Database} {principalId commandId runId : String}
    (h : CommandStarted db principalId commandId runId) (hkept : CommandsKept db db') :
    CommandStarted db' principalId commandId runId := by
  obtain ⟨command, hfind, hrun⟩ := h
  obtain ⟨hmem, hkey⟩ := Table.find?_eq_some_iff.mp hfind
  exact ⟨command, Table.find?_eq_some_iff.mpr ⟨hkept command hmem, hkey⟩, hrun⟩

theorem createCommandedRun_command (c : RunCommand) (rootRunId : Option String)
    (bindings : List PluginBinding) (s : Session Database World) :
    Post (createCommandedRun c rootRunId bindings) s fun run s' ↦
      CommandStarted s'.db c.principalId c.commandId run.id := by
  unfold createCommandedRun
  simp only [post_bind]
  intro _ _ _ _ _ _ _ _ _ _ _ _ run _ _ _ _ _ _ _ _ _ _ _ _ _ _ job _ _ _ _ _
  unfold insertCommand
  rw [post_attempt]
  intro db hdb
  obtain ⟨commands, hinsert, rfl⟩ := Option.map_eq_some_iff.mp hdb
  rw [post_pure]
  refine ⟨_, (Table.find?_insert? hinsert _).trans (if_pos rfl), ?_⟩
  rfl

/-- The run of a repeated command is the one its row names; the run of a new
one is recorded. -/
theorem acceptRunCommand_command (c : RunCommand) (s : Session Database World) :
    Post (acceptRunCommand c) s fun r s' ↦
      CommandStarted s'.db c.principalId c.commandId r.1.run.id ∧
        (r.2 = true → s.db.commands.find? (c.principalId, c.commandId) = none) := by
  unfold acceptRunCommand acceptedRunForCommand findCommand
  simp only [post_bind, post_read]
  split
  · rename_i hnone
    rw [post_pure, post_bind]
    intro _ _ _
    rw [post_bind]
    intro _ _ _
    rw [post_bind]
    intro bindings s₃ _
    rw [post_bind]
    refine (createCommandedRun_command c _ bindings s₃).mono fun run s' hstarted ↦ ?_
    exact (post_pure _).mpr ⟨hstarted, fun _ ↦ hnone⟩
  · rename_i command hfound
    simp only [post_bind, post_require, post_read, post_getOr, post_pure]
    intro _ run hrun
    rw [Option.filter_eq_some_iff] at hrun
    obtain ⟨runId, hrunId, hfind⟩ := Option.bind_eq_some_iff.mp hrun.1
    refine ⟨⟨command, hfound, ?_⟩, by simp⟩
    rw [hrunId, Table.key_of_find? hfind]

end ShejaneRuntime.Store

namespace ShejaneRuntime.Scheduling

open Lib Store Lockstep

/-! ## The dispatcher and its rows -/

/-- The command of the schedule is recorded with the run. -/
def StartedAs (db : Database) (s : ScheduledRun) (runId : String) : Prop :=
  CommandStarted db s.principalId (scheduleCommandId s.id) runId

/-- The run a task has in hand. -/
def Point.runId? : Point → Option String
  | .bind runId | .follow runId | .closing runId | .ended runId => some runId
  | .finalize run => some run.id
  | .admitting | .start | .refuse => none

/-- The row is still claimed. -/
def Claimed (t : Schedules) (s : ScheduledRun) : Prop :=
  ∃ s' ∈ t.rows, s'.id = s.id ∧ s'.principalId = s.principalId ∧ s'.status = .running

structure Consistent (c : State) : Prop where
  task : ∀ scheduleId d, c.tasks scheduleId = some d → d.schedule.id = scheduleId ∧
    Claimed c.schedules d.schedule ∧
    ∀ runId, d.point.runId? = some runId → StartedAs c.db d.schedule runId
  queue : ∀ s ∈ c.recovering, Claimed c.schedules s ∧
    ∀ runId, s.runId = some runId → StartedAs c.db s runId
  distinct : (c.recovering.map ScheduledRun.id).Nodup
  apart : ∀ s ∈ c.recovering, c.tasks s.id = none
  bound : ∀ s ∈ c.schedules.rows, ∀ runId, s.runId = some runId → StartedAs c.db s runId
  started : ∀ p ∈ c.started, ∃ s ∈ c.schedules.rows, s.id = p.1 ∧ s.status ≠ .scheduled ∧
    StartedAs c.db s p.2
  once : (c.started.map Prod.fst).Nodup

theorem eq_of_id {t : Schedules} {s s' : ScheduledRun} (hs : s ∈ t.rows) (hs' : s' ∈ t.rows)
    (hid : s.id = s'.id) : s = s' :=
  List.inj_on_of_nodup_map t.nodup hs hs' hid

theorem StartedAs.congr {db : Database} {s s' : ScheduledRun} {runId : String}
    (h : StartedAs db s runId) (hid : s'.id = s.id) (hprincipal : s'.principalId = s.principalId) :
    StartedAs db s' runId := by
  unfold StartedAs
  rw [hid, hprincipal]
  exact h

variable {c : State}

theorem Consistent.of_db (h : Consistent c) {db : Database} (hkept : CommandsKept c.db db) :
    Consistent { c with db := db } := by
  refine ⟨fun id d hd ↦ ?_, fun s hs ↦ ?_, h.distinct, h.apart, fun s hs runId hrun ↦ ?_,
    fun p hp ↦ ?_, h.once⟩
  · obtain ⟨hid, hclaimed, hruns⟩ := h.task id d hd
    exact ⟨hid, hclaimed, fun runId hrun ↦ (hruns runId hrun).kept hkept⟩
  · obtain ⟨hclaimed, hruns⟩ := h.queue s hs
    exact ⟨hclaimed, fun runId hrun ↦ (hruns runId hrun).kept hkept⟩
  · exact (h.bound s hs runId hrun).kept hkept
  · obtain ⟨s, hs, hid, hstatus, hstarted⟩ := h.started p hp
    exact ⟨s, hs, hid, hstatus, hstarted.kept hkept⟩

/-- The rows with one of the identifiers that are running stay so. -/
def StayRunning (q : String → Prop) (t t' : Schedules) : Prop :=
  ∀ s ∈ t.rows, q s.id → s.status = .running →
    ∃ s' ∈ t'.rows, s'.id = s.id ∧ s'.principalId = s.principalId ∧ s'.status = .running

theorem Claimed.stays {q : String → Prop} {t t' : Schedules} {s : ScheduledRun}
    (h : Claimed t s) (hstay : StayRunning q t t') (hq : q s.id) : Claimed t' s := by
  obtain ⟨r, hr, hid, hprincipal, hstatus⟩ := h
  obtain ⟨r', hr', hid', hprincipal', hstatus'⟩ := hstay r hr (hid ▸ hq) hstatus
  exact ⟨r', hr', hid'.trans hid, hprincipal'.trans hprincipal, hstatus'⟩

theorem stayRunning_update {q : String → Prop} {t : Schedules} {p : ScheduledRun → Bool}
    {f : ScheduledRun → ScheduledRun} (hf : ∀ s, (f s).id = s.id)
    (h : ∀ s, p s = true → q s.id → s.status = .running →
      (f s).principalId = s.principalId ∧ (f s).status = .running) :
    StayRunning q t (t.update p f hf) := by
  intro s hs hq hstatus
  refine ⟨_, Table.mem_update.mpr ⟨s, hs, rfl⟩, ?_⟩
  split
  · rename_i hp
    exact ⟨hf s, h s hp hq hstatus⟩
  · exact ⟨rfl, rfl, hstatus⟩

theorem bound_update {db : Database} {t : Schedules} {p : ScheduledRun → Bool}
    {f : ScheduledRun → ScheduledRun} (hf : ∀ s, (f s).id = s.id)
    (hbound : ∀ s ∈ t.rows, ∀ runId, s.runId = some runId → StartedAs db s runId)
    (h : ∀ s ∈ t.rows, p s = true → (f s).principalId = s.principalId ∧
      ∀ runId, (f s).runId = some runId → s.runId = some runId ∨ StartedAs db s runId) :
    ∀ s ∈ (t.update p f hf).rows, ∀ runId, s.runId = some runId → StartedAs db s runId := by
  intro s' hs' runId hrun
  obtain ⟨s, hs, rfl⟩ := Table.mem_update.mp hs'
  split
  · rename_i hp
    rw [if_pos hp] at hrun
    obtain ⟨hprincipal, hruns⟩ := h s hs hp
    refine StartedAs.congr ?_ (hf s) hprincipal
    exact (hruns runId hrun).elim (hbound s hs runId) id
  · rename_i hp
    rw [if_neg hp] at hrun
    exact hbound s hs runId hrun

/-- The entries of `started` survive when the schedules advance. -/
theorem started_advances {db : Database} {t t' : Schedules} (hadvances : Advances t t')
    {p : String × String} (h : ∃ s ∈ t.rows, s.id = p.1 ∧ s.status ≠ .scheduled ∧
      StartedAs db s p.2) :
    ∃ s ∈ t'.rows, s.id = p.1 ∧ s.status ≠ .scheduled ∧ StartedAs db s p.2 := by
  obtain ⟨s, hs, hid, hstatus, hstarted⟩ := h
  obtain ⟨s', hs', hlater⟩ := hadvances.old s hs
  exact ⟨s', hs', hlater.id.trans hid, hlater.claimed hstatus,
    hstarted.congr hlater.id hlater.principal⟩

theorem Consistent.of_schedules (h : Consistent c) {t : Schedules}
    (hadvances : Advances c.schedules t) (hstay : StayRunning (fun _ ↦ True) c.schedules t)
    (hbound : ∀ s ∈ t.rows, ∀ runId, s.runId = some runId → StartedAs c.db s runId) :
    Consistent { c with schedules := t } := by
  refine ⟨fun id d hd ↦ ?_, fun s hs ↦ ?_, h.distinct, h.apart, hbound,
    fun p hp ↦ started_advances hadvances (h.started p hp), h.once⟩
  · obtain ⟨hid, hclaimed, hruns⟩ := h.task id d hd
    exact ⟨hid, hclaimed.stays hstay trivial, hruns⟩
  · obtain ⟨hclaimed, hruns⟩ := h.queue s hs
    exact ⟨hclaimed.stays hstay trivial, hruns⟩

/-- A task goes on with a run it has, or is done. -/
theorem Consistent.goOn (h : Consistent c) {d : Dispatch} (hd : c.tasks d.schedule.id = some d)
    {next : Option Point} (hnext : ∀ point, next = some point → ∀ runId,
      point.runId? = some runId → StartedAs c.db d.schedule runId) :
    Consistent (c.goOn d.schedule next) := by
  refine ⟨fun id d' hd' ↦ ?_, h.queue, h.distinct, fun s hs ↦ ?_, h.bound, h.started, h.once⟩
  · dsimp only [State.goOn] at hd'
    rw [Function.update_apply] at hd'
    split at hd'
    · rename_i hid
      obtain ⟨point, hpoint, rfl⟩ := Option.map_eq_some_iff.mp hd'
      exact ⟨hid.symm, (h.task _ d hd).2.1, hnext point hpoint⟩
    · exact h.task id d' hd'
  · dsimp only [State.goOn]
    rw [Function.update_apply]
    split
    · rename_i hid
      have hnone := h.apart s hs
      rw [hid, hd] at hnone
      cases hnone
    · exact h.apart s hs

theorem advances_verdict {t : Schedules} (scheduleId : String) (status : RunStatus)
    (completedAt : Time) :
    Advances t (completeScheduledRun t scheduleId (verdict status) completedAt) :=
  advances_completeScheduledRun scheduleId (by cases status <;> rfl) completedAt

/-- A task that records how its schedule ended is done. -/
theorem Consistent.finish (h : Consistent c) {d : Dispatch} (hd : c.tasks d.schedule.id = some d)
    {status : ScheduleStatus} (hstatus : status.terminal = true) (now : Time) :
    Consistent ((c.complete d.schedule status now).goOn d.schedule none) := by
  have hstay : StayRunning (· ≠ d.schedule.id) c.schedules
      (completeScheduledRun c.schedules d.schedule.id status now) := by
    refine stayRunning_update (f := ScheduledRun.endedAs status now) (fun _ ↦ rfl)
      fun s hp hne _ ↦ ?_
    simp only [Bool.and_eq_true, decide_eq_true_eq] at hp
    exact absurd hp.1 hne
  have hadvances := advances_completeScheduledRun (t := c.schedules) d.schedule.id hstatus now
  refine ⟨fun id d' hd' ↦ ?_, fun s hs ↦ ?_, h.distinct, fun s hs ↦ ?_, ?_,
    fun p hp ↦ started_advances hadvances (h.started p hp), h.once⟩
  · dsimp only [State.goOn] at hd'
    rw [Function.update_apply] at hd'
    split at hd'
    · cases hd'
    · rename_i hne
      obtain ⟨hid, hclaimed, hruns⟩ := h.task id d' hd'
      exact ⟨hid, hclaimed.stays hstay (hid ▸ hne), hruns⟩
  · have hne : s.id ≠ d.schedule.id := by
      intro hid
      have hnone := h.apart s hs
      rw [hid, hd] at hnone
      cases hnone
    exact ⟨(h.queue s hs).1.stays hstay hne, (h.queue s hs).2⟩
  · dsimp only [State.goOn]
    rw [Function.update_apply]
    split
    · rfl
    · exact h.apart s hs
  · exact bound_update (f := ScheduledRun.endedAs status now) (fun _ ↦ rfl) h.bound
      fun s _ _ ↦ ⟨rfl, fun runId hrun ↦ .inl hrun⟩

/-! ## The steps -/

theorem after_eq_commit (command : RunCommand) (db : Database) (w : World) :
    (StoreOp.acceptRunCommand command).after db w =
      (Txn.commit (acceptRunCommand command) db w).2 := by
  unfold StoreOp.after StoreOp.exec effect Txn.commit
  cases hres : acceptRunCommand command ⟨db, w⟩ with
  | error e =>
      simp only [Functor.map, StateT.map, hres]
      rfl
  | ok r =>
      simp only [Functor.map, StateT.map, hres]
      rfl

/-- `start_run` refuses the schedule, or hands back the run that its command
is recorded with. -/
theorem startRun_cases (c : State) (s : ScheduledRun) (a : Admission) (w : World) :
    let db := (StoreOp.acceptRunCommand (scheduleCommand a s)).after c.db w
    startRun c s a w = { c with db := db }.goOn s (some .refuse) ∨
      ∃ (runId : String) (created : Bool), StartedAs db s runId ∧
        (created = true → ∀ r, ¬StartedAs c.db s r) ∧
        startRun c s a w = { c with
          db := db
          started := if created then (s.id, runId) :: c.started else c.started }.goOn s
            (some (.bind runId)) := by
  intro db
  have hdb : db = (Txn.commit (acceptRunCommand (scheduleCommand a s)) c.db w).2 :=
    after_eq_commit _ _ _
  unfold startRun
  split
  · rename_i accepted created db' hcommit
    rw [hcommit] at hdb
    obtain rfl : db = db' := hdb
    obtain ⟨s', hs', hdb'⟩ := Txn.commit_ok (congrArg Prod.fst hcommit)
    obtain ⟨hstarted, hfresh⟩ := acceptRunCommand_command _ _ _ _ hs'
    rw [hcommit] at hdb'
    refine .inr ⟨accepted.run.id, created, ?_, fun hcreated r hr ↦ ?_, rfl⟩
    · rw [StartedAs, show db = s'.db from hdb']
      exact hstarted
    · obtain ⟨command, hfind, _⟩ := hr
      have hnone : c.db.commands.find? (s.principalId, scheduleCommandId s.id) = none :=
        hfresh hcreated
      rw [hnone] at hfind
      cases hfind
  · rename_i db' hcommit
    rw [hcommit] at hdb
    obtain rfl : db = db' := hdb
    exact .inl rfl

theorem Consistent.row (h : Consistent c) {d : Dispatch} (hd : c.tasks d.schedule.id = some d) :
    ∃ s ∈ c.schedules.rows, s.id = d.schedule.id ∧ s.principalId = d.schedule.principalId ∧
      s.status = .running :=
  (h.task _ d hd).2.1

/-- A run was made for a schedule that had none. -/
theorem Consistent.noteStarted (h : Consistent c) {s : ScheduledRun} {runId : String}
    (hs : Claimed c.schedules s) (hstarted : StartedAs c.db s runId)
    (hfirst : ∀ p ∈ c.started, p.1 ≠ s.id) :
    Consistent { c with started := (s.id, runId) :: c.started } := by
  refine ⟨h.task, h.queue, h.distinct, h.apart, h.bound, fun p hp ↦ ?_, ?_⟩
  · rcases List.mem_cons.mp hp with rfl | hp
    · obtain ⟨s', hs', hid, hprincipal, hstatus⟩ := hs
      exact ⟨s', hs', hid, by simp [hstatus], hstarted.congr hid hprincipal⟩
    · exact h.started p hp
  · refine List.nodup_cons.mpr ⟨fun hmem ↦ ?_, h.once⟩
    obtain ⟨p, hp, hpid⟩ := List.mem_map.mp hmem
    exact hfirst p hp hpid

theorem Consistent.startRun (h : Consistent c) {d : Dispatch}
    (hd : c.tasks d.schedule.id = some d) (a : Admission) (w : World) :
    Consistent (startRun c d.schedule a w) := by
  have hkept := (StoreOp.acceptRunCommand (scheduleCommand a d.schedule)).after_commandsKept c.db w
  have hdb := h.of_db hkept
  rcases startRun_cases c d.schedule a w with heq | ⟨runId, created, hstarted, hfresh, heq⟩
  · rw [heq]
    refine hdb.goOn hd fun point hpoint runId hrun ↦ ?_
    cases hpoint
    cases hrun
  · rw [heq]
    have hpoint : ∀ point, some (Point.bind runId) = some point → ∀ r, point.runId? = some r →
        StartedAs ((StoreOp.acceptRunCommand (scheduleCommand a d.schedule)).after c.db w)
          d.schedule r := by
      intro point hpoint r hr
      cases hpoint
      cases hr
      exact hstarted
    cases created with
    | false => exact hdb.goOn hd hpoint
    | true => exact (hdb.noteStarted (h.row hd) hstarted fun p hp hpid ↦ by
        obtain ⟨s, hs, hid, _, hbefore⟩ := h.started p hp
        obtain ⟨s', hs', hid', hprincipal', _⟩ := h.row hd
        obtain rfl := eq_of_id hs hs' (hid.trans (hpid.trans hid'.symm))
        exact hfresh rfl p.2 (hbefore.congr hid'.symm hprincipal'.symm)).goOn hd hpoint

theorem Consistent.markStarted (h : Consistent c) {d : Dispatch}
    (hd : c.tasks d.schedule.id = some d) {runId : String}
    (hrun : StartedAs c.db d.schedule runId) (now : Time) :
    Consistent { c with
      schedules := markScheduledRunStarted c.schedules d.schedule.id runId now } := by
  refine h.of_schedules (advances_markScheduledRunStarted _ _ _) ?_ ?_
  · exact stayRunning_update (f := ScheduledRun.boundTo runId now) (fun _ ↦ rfl)
      fun s _ _ hstatus ↦ ⟨rfl, hstatus⟩
  · refine bound_update (f := ScheduledRun.boundTo runId now) (fun _ ↦ rfl) h.bound
      fun s hs hp ↦ ⟨rfl, fun r hr ↦ .inr ?_⟩
    obtain rfl : runId = r := Option.some.inj hr
    simp only [Bool.and_eq_true, decide_eq_true_eq] at hp
    obtain ⟨s', hs', hid, hprincipal, _⟩ := h.row hd
    obtain rfl := eq_of_id hs hs' (hp.1.1.trans hid.symm)
    exact hrun.congr hid hprincipal

theorem afterBinding_runId? {runId r : String} {bound : Option ScheduledRun} {point : Point}
    (h : afterBinding runId bound = some point) (hr : point.runId? = some r) : r = runId := by
  unfold afterBinding at h
  split at h
  · cases h
    cases hr
  · split at h
    · cases h
      exact (Option.some.inj hr).symm
    · cases h

theorem Consistent.advance (h : Consistent c) {d : Dispatch} (hd : c.tasks d.schedule.id = some d)
    (a : Admission) (w : World) : Consistent (step c d a w) := by
  have hruns := (h.task _ d hd).2.2
  obtain ⟨s, point⟩ := d
  have hkeep : ∀ {point' : Point} (runId : String), point.runId? = some runId →
      (∀ r, point'.runId? = some r → r = runId) → Consistent (c.goOn s (some point')) := by
    intro point' runId hpoint hpoint'
    refine h.goOn hd fun p hp r hr ↦ ?_
    cases hp
    rw [hpoint' r hr]
    exact hruns runId hpoint
  have hbare : ∀ {point' : Point}, point'.runId? = none → Consistent (c.goOn s (some point')) := by
    intro point' hpoint'
    refine h.goOn hd fun p hp r hr ↦ ?_
    cases hp
    rw [hpoint'] at hr
    cases hr
  unfold step
  cases point with
  | admitting =>
      dsimp only
      split
      · exact hbare rfl
      · exact hbare rfl
  | start => exact h.startRun hd a w
  | bind runId =>
      refine (h.markStarted hd (hruns runId rfl) _).goOn hd fun p hp r hr ↦ ?_
      rw [afterBinding_runId? hp hr]
      exact hruns runId rfl
  | follow runId =>
      dsimp only
      split
      · exact hkeep runId rfl fun r hr ↦ (Option.some.inj hr).symm
      · split
        · exact hkeep runId rfl fun r hr ↦ (Option.some.inj hr).symm
        · exact hkeep runId rfl fun r hr ↦ (Option.some.inj hr).symm
  | closing runId =>
      dsimp only
      split
      · exact hkeep runId rfl fun r hr ↦ (Option.some.inj hr).symm
      · exact hkeep runId rfl fun r hr ↦ (Option.some.inj hr).symm
  | ended runId =>
      dsimp only
      split
      · exact hbare rfl
      · rename_i run hfind
        refine hkeep runId rfl fun r hr ↦ ?_
        rw [← Option.some.inj hr, Table.key_of_find? hfind]
  | finalize run => exact h.finish hd (by cases run.status <;> rfl) _
  | refuse => exact h.finish hd rfl _

theorem Consistent.restart (h : Consistent c) : Consistent { c with
    recovering := listScheduledRuns c.schedules 100 .running, tasks := fun _ ↦ none } := by
  refine ⟨fun id d hd ↦ ?_, fun s hs ↦ ?_, nodup_ids_of_take _, fun _ _ ↦ rfl, h.bound, h.started,
    h.once⟩
  · cases hd
  · obtain ⟨hmem, hstatus⟩ := mem_listScheduledRuns hs
    exact ⟨⟨s, hmem, rfl, rfl, hstatus⟩, h.bound s hmem⟩

theorem recoveryPoint_runId? {s : ScheduledRun} {runId : String}
    (h : (recoveryPoint s).runId? = some runId) : s.runId = some runId := by
  unfold recoveryPoint nonEmpty at h
  cases hrun : s.runId with
  | none =>
      rw [hrun] at h
      cases h
  | some r =>
      rw [hrun] at h
      dsimp only at h
      split at h
      · rename_i heq
        split at heq
        · cases h
        · cases heq
      · rename_i heq
        split at heq
        · cases heq
        · cases heq
          exact h

theorem Consistent.recover (h : Consistent c) (hquiet : c.Quiet) {s : ScheduledRun}
    {rest : List ScheduledRun} (hnext : c.recovering = s :: rest) :
    Consistent ({ c with recovering := rest }.goOn s (some (recoveryPoint s))) := by
  have hmem : s ∈ c.recovering := by simp [hnext]
  have hdistinct := h.distinct
  rw [hnext, List.map_cons, List.nodup_cons] at hdistinct
  have hrest : ∀ s' ∈ rest, s' ∈ c.recovering := by
    intro s' hs'
    simp [hnext, hs']
  refine ⟨fun id d hd ↦ ?_, fun s' hs' ↦ h.queue s' (hrest s' hs'), hdistinct.2,
    fun s' hs' ↦ ?_, h.bound, h.started, h.once⟩
  · dsimp only [State.goOn] at hd
    rw [Function.update_apply] at hd
    split at hd
    · rename_i hid
      obtain ⟨_, rfl⟩ : _ ∧ _ := ⟨trivial, Option.some.inj hd⟩
      exact ⟨hid.symm, (h.queue s hmem).1, fun runId hrun ↦
        (h.queue s hmem).2 runId (recoveryPoint_runId? hrun)⟩
    · rw [hquiet id] at hd
      cases hd
  · dsimp only [State.goOn]
    rw [Function.update_apply, if_neg, hquiet]
    rintro hid
    exact hdistinct.1 (hid ▸ List.mem_map_of_mem hs')

theorem Consistent.tick (h : Consistent c) (hdone : c.recovering = []) (now updatedAt : Time) :
    Consistent { c with
      schedules := (claimDueScheduledRuns c.schedules now 10 updatedAt).2
      tasks := fun scheduleId ↦
        ((claimDueScheduledRuns c.schedules now 10 updatedAt).1.find? fun s ↦
          s.id = scheduleId).map fun s ↦ ⟨s, .admitting⟩ } := by
  have hadvances := advances_claimDueScheduledRuns (t := c.schedules) now 10 updatedAt
  refine ⟨fun id d hd ↦ ?_, fun s hs ↦ ?_, ?_, fun s hs ↦ ?_, ?_,
    fun p hp ↦ started_advances hadvances (h.started p hp), h.once⟩
  · obtain ⟨s, hfind, rfl⟩ := Option.map_eq_some_iff.mp hd
    have hid : s.id = id := by simpa using List.find?_some hfind
    obtain ⟨s₀, hs₀, rfl⟩ := List.mem_map.mp (List.mem_of_find?_eq_some hfind)
    refine ⟨hid, ⟨s₀.claimed updatedAt, ?_, rfl, rfl, rfl⟩, fun r hr ↦ ?_⟩
    · exact mem_claimDueScheduledRuns hs₀ _
    · cases hr
  · rw [show ({ c with schedules := _, tasks := _ } : State).recovering = [] from hdone] at hs
    cases hs
  · rw [show ({ c with schedules := _, tasks := _ } : State).recovering = [] from hdone]
    exact List.nodup_nil
  · rw [show ({ c with schedules := _, tasks := _ } : State).recovering = [] from hdone] at hs
    cases hs
  · exact bound_update (f := ScheduledRun.claimed updatedAt) (fun _ ↦ rfl) h.bound
      fun s _ _ ↦ ⟨rfl, fun runId hrun ↦ .inl hrun⟩

theorem Consistent.cancel (h : Consistent c) (principalId scheduleId : String) (now : Time) :
    Consistent { c with
      schedules := cancelScheduledRun c.schedules principalId scheduleId now } := by
  refine h.of_schedules (advances_cancelScheduledRun _ _ _) ?_ ?_
  · refine stayRunning_update (f := ScheduledRun.endedAs .canceled now) (fun _ ↦ rfl)
      fun s hp _ hstatus ↦ ?_
    simp [hstatus] at hp
  · exact bound_update (f := ScheduledRun.endedAs .canceled now) (fun _ ↦ rfl) h.bound
      fun s _ _ ↦ ⟨rfl, fun runId hrun ↦ .inl hrun⟩

theorem Consistent.notify (h : Consistent c) (principalId scheduleId : String) (now : Time) :
    Consistent { c with
      schedules := markScheduledRunNotified c.schedules principalId scheduleId now } := by
  refine h.of_schedules (advances_markScheduledRunNotified _ _ _) ?_ ?_
  · exact stayRunning_update (f := fun s ↦ { s with notifiedAt := some now, updatedAt := now })
      (fun _ ↦ rfl) fun s _ _ hstatus ↦ ⟨rfl, hstatus⟩
  · exact bound_update (f := fun s ↦ { s with notifiedAt := some now, updatedAt := now })
      (fun _ ↦ rfl) h.bound fun s _ _ ↦ ⟨rfl, fun runId hrun ↦ .inl hrun⟩

theorem Consistent.create (h : Consistent c) {s : ScheduledRun} {t : Schedules}
    (hstatus : s.status = .scheduled) (hrun : s.runId = none)
    (hinsert : c.schedules.insert? s = some t) : Consistent { c with schedules := t } := by
  refine h.of_schedules (advances_insert? hinsert hstatus hrun) (fun s' hs' _ hrunning ↦ ?_)
    fun s' hs' runId hr ↦ ?_
  · exact ⟨s', (Table.mem_insert? hinsert).mpr (.inl hs'), rfl, rfl, hrunning⟩
  · rcases (Table.mem_insert? hinsert).mp hs' with hmem | rfl
    · exact h.bound s' hmem runId hr
    · rw [hrun] at hr
      cases hr

theorem Consistent.step {i : Act × World} {c' : State} (h : Consistent c)
    (hstep : system.step i c c') : Consistent c' := by
  obtain ⟨act, w⟩ := i
  cases act with
  | transact op =>
      obtain rfl := hstep
      exact h.of_db (op.after_commandsKept c.db w)
  | create s =>
      obtain ⟨hstatus, hrun, t, hinsert, rfl⟩ := hstep
      exact h.create hstatus hrun hinsert
  | cancel principalId scheduleId =>
      obtain rfl := hstep
      exact h.cancel _ _ _
  | notify principalId scheduleId =>
      obtain rfl := hstep
      exact h.notify _ _ _
  | tick now =>
      obtain ⟨_, hdone, rfl⟩ := hstep
      exact h.tick hdone _ _
  | restart =>
      obtain rfl := hstep
      exact h.restart
  | recover =>
      obtain ⟨hquiet, s, rest, hnext, rfl⟩ := hstep
      exact h.recover hquiet hnext
  | advance scheduleId a =>
      obtain ⟨d, hd, rfl⟩ := hstep
      obtain rfl := (h.task _ d hd).1
      exact h.advance hd a w
  | startFails scheduleId =>
      obtain ⟨d, hd, _, rfl⟩ := hstep
      obtain rfl := (h.task _ d hd).1
      refine h.goOn hd fun p hp r hr ↦ ?_
      cases hp
      cases hr

end ShejaneRuntime.Scheduling
