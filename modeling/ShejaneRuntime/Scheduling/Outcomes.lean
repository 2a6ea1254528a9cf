import ShejaneRuntime.Scheduling.Agreement

/-!
# How schedules end

What the dispatcher records of a run that has ended stays true, since ended
runs stay as they are. A run that has not ended when the dispatcher reads it
is recorded as failed whatever becomes of it.
-/

namespace ShejaneRuntime.Scheduling

open Lib Store Lockstep

/-- What the code that calls an operation sees to. -/
def called (i : Act × World) (_ : State) : Prop :=
  match i.1 with
  | .transact op => op.called
  | _ => True

/-- A resumption asks for a job only for a run that waits at that moment. -/
def calledInTime (i : Act × World) (c : State) : Prop :=
  match i.1 with
  | .transact op => callsWhileWaiting (op, i.2) c.db
  | _ => True

/-- The dispatcher records a run that has ended, and refuses a schedule for
which no run was made. -/
def Settled (i : Act × World) (c : State) : Prop :=
  match i.1 with
  | .advance scheduleId _ => ∀ d, c.tasks scheduleId = some d →
      (∀ runId run, d.point = .ended runId → c.db.runs.find? runId = some run →
        run.status.terminal = true) ∧
      (d.point = .refuse → ∀ runId, (scheduleId, runId) ∉ c.started)
  | _ => True

def calledSettled (i : Act × World) (c : State) : Prop := calledInTime i c ∧ Settled i c

/-- The run of the schedule has the status. -/
def Ran (db : Database) (s : ScheduledRun) (status : RunStatus) : Prop :=
  ∃ run ∈ db.runs.rows, StartedAs db s run.id ∧ run.status = status

/-- No run was made for the schedule. -/
def NeverStarted (c : State) (s : ScheduledRun) : Prop := ∀ runId, (s.id, runId) ∉ c.started

/-- The status of a schedule is that of its run; for failures as far as
`settled` holds. -/
def Explained (settled : Prop) (c : State) (s : ScheduledRun) : Prop :=
  match s.status with
  | .scheduled | .running => True
  | .completed => Ran c.db s .completed
  | .canceled => NeverStarted c s ∨ Ran c.db s .canceled
  | .failed => settled → NeverStarted c s ∨ Ran c.db s .failed

/-! ## One step of the database -/

theorem db_of_step {i : Act × World} {c c' : State} (hstep : system.step i c c') :
    c'.db = c.db ∨ ∃ j : StoreOp × World, c'.db = j.1.after c.db j.2 ∧
      (calledInTime i c → callsWhileWaiting j c.db) := by
  obtain ⟨act, w⟩ := i
  cases act with
  | transact op =>
      obtain rfl := hstep
      exact .inr ⟨(op, w), rfl, id⟩
  | create s =>
      obtain ⟨_, _, t, _, rfl⟩ := hstep
      exact .inl rfl
  | cancel principalId scheduleId =>
      obtain rfl := hstep
      exact .inl rfl
  | notify principalId scheduleId =>
      obtain rfl := hstep
      exact .inl rfl
  | tick now =>
      obtain ⟨_, _, rfl⟩ := hstep
      exact .inl rfl
  | restart =>
      obtain rfl := hstep
      exact .inl rfl
  | recover =>
      obtain ⟨_, s, rest, _, rfl⟩ := hstep
      exact .inl rfl
  | startFails scheduleId =>
      obtain ⟨d, _, _, rfl⟩ := hstep
      exact .inl rfl
  | advance scheduleId a =>
      obtain ⟨⟨s, point⟩, _, rfl⟩ := hstep
      unfold Scheduling.step
      cases point with
      | start =>
          right
          refine ⟨(.acceptRunCommand (scheduleCommand a s), w), ?_, fun _ ↦ ⟨trivial, by simp⟩⟩
          rcases startRun_cases c s a w with heq | ⟨_, _, _, _, heq⟩
          · exact congrArg State.db heq
          · exact congrArg State.db heq
      | follow runId =>
          left
          dsimp only
          split
          · rfl
          · rfl
      | ended runId =>
          left
          dsimp only
          split
          · rfl
          · rfl
      | _ => exact .inl rfl

theorem steps_of_step {i : Act × World} {c c' : State}
    (hlocked : Locked announces resumable (abs c.db)) (hok : calledInTime i c)
    (hstep : system.step i c c') : Steps announces resumable (abs c.db) (abs c'.db) := by
  rcases db_of_step hstep with heq | ⟨j, heq, hcalls⟩
  · rw [heq]
  · rw [heq]
    exact (StoreOp.after_reports (.inl rfl) (fun st hst ↦ .inr hst) j.2
      (admitted_of_callsWhileWaiting (hcalls hok)) hlocked).1

theorem commandsKept_of_step {i : Act × World} {c c' : State} (hstep : system.step i c c') :
    CommandsKept c.db c'.db := by
  rcases db_of_step hstep with heq | ⟨j, heq, _⟩
  · rw [heq]
    exact fun _ h ↦ h
  · rw [heq]
    exact j.1.after_commandsKept c.db j.2

theorem Ran.congr {db : Database} {s s' : ScheduledRun} {status : RunStatus}
    (h : Ran db s status) (hid : s'.id = s.id) (hprincipal : s'.principalId = s.principalId) :
    Ran db s' status := by
  obtain ⟨run, hrun, hstarted, hstatus⟩ := h
  exact ⟨run, hrun, hstarted.congr hid hprincipal, hstatus⟩

/-- A run that has ended has the same status later. -/
theorem Ran.kept {db db' : Database} {s : ScheduledRun} {status : RunStatus}
    (h : Ran db s status) (hended : status.terminal = true)
    (hlocked : Locked announces resumable (abs db))
    (hsteps : Steps announces resumable (abs db) (abs db')) (hkept : CommandsKept db db') :
    Ran db' s status := by
  obtain ⟨run, hrun, hstarted, rfl⟩ := h
  have hstatus := status_of_find? (Table.find?_of_mem hrun)
  have hspares := Steps.ended hsteps hlocked (fun _ ↦ not_terminal_of_resumable) hstatus hended
  obtain ⟨run', hfind, hsame⟩ := find?_of_status (hspares.1.trans hstatus)
  refine ⟨run', Table.mem_of_find? hfind, ?_, hsame⟩
  rw [Table.key_of_find? hfind]
  exact hstarted.kept hkept

/-! ## What a step records -/

theorem Explained.carry {settled : Prop} {c c' : State} {s s' : ScheduledRun}
    (h : Explained settled c s) (hid : s'.id = s.id) (hprincipal : s'.principalId = s.principalId)
    (hstatus : s'.status = s.status)
    (hran : ∀ status : RunStatus, status.terminal = true → Ran c.db s status → Ran c'.db s status)
    (hstarted : s.status.terminal = true →
      ∀ runId, (s.id, runId) ∈ c'.started → (s.id, runId) ∈ c.started) :
    Explained settled c' s' := by
  have hnever : s.status.terminal = true → NeverStarted c s → NeverStarted c' s' := by
    intro hended hnone runId hmem
    rw [hid] at hmem
    exact hnone runId (hstarted hended runId hmem)
  unfold Explained at h ⊢
  rw [hstatus]
  cases hs : s.status with
  | scheduled => trivial
  | running => trivial
  | completed =>
      rw [hs] at h
      exact (hran _ rfl h).congr hid hprincipal
  | canceled =>
      rw [hs] at h
      exact h.imp (hnever (by rw [hs]; rfl)) fun hr ↦ (hran _ rfl hr).congr hid hprincipal
  | failed =>
      rw [hs] at h
      exact fun hsettled ↦ (h hsettled).imp (hnever (by rw [hs]; rfl))
        fun hr ↦ (hran _ rfl hr).congr hid hprincipal

/-- A run in the hand of a task that is about to record it has not changed
since if it had ended. -/
def Final (settled : Prop) (db : Database) (d : Dispatch) : Prop :=
  ∀ run, d.point = .finalize run →
    (run.status.terminal = true → Ran db d.schedule run.status) ∧
      (settled → run.status.terminal = true)

structure Agreed (settled : Prop) (c : State) : Prop where
  consistent : Consistent c
  locked : Locked announces resumable (abs c.db)
  explained : ∀ s ∈ c.schedules.rows, Explained settled c s
  final : ∀ scheduleId d, c.tasks scheduleId = some d → Final settled c.db d

/-- The rows of a step: as before, or with a status that is explained. -/
def RowsExplained (settled : Prop) (c c' : State) : Prop :=
  ∀ s' ∈ c'.schedules.rows, (∃ s ∈ c.schedules.rows, s'.id = s.id ∧
    s'.principalId = s.principalId ∧ s'.status = s.status) ∨ Explained settled c' s'

/-- Runs are made for claimed schedules only. -/
def StartsClaimed (c c' : State) : Prop :=
  ∀ p ∈ c'.started, p ∈ c.started ∨ ∃ s ∈ c.schedules.rows, s.id = p.1 ∧ s.status = .running

variable {settled : Prop} {c c' : State} {i : Act × World}

/-- A step of a task moves its schedule on and makes runs for no other. -/
theorem step_advances (h : Consistent c) {d : Dispatch} (hd : c.tasks d.schedule.id = some d)
    (a : Admission) (w : World) : Advances c.schedules (Scheduling.step c d a w).schedules ∧
      StartsClaimed c (Scheduling.step c d a w) := by
  obtain ⟨s, point⟩ := d
  have hsame : ∀ {c' : State}, c'.schedules = c.schedules → c'.started = c.started →
      Advances c.schedules c'.schedules ∧ StartsClaimed c c' := by
    intro c' hschedules hstarted
    refine ⟨hschedules ▸ .refl _, fun p hp ↦ .inl (hstarted ▸ hp)⟩
  unfold Scheduling.step
  cases point with
  | start =>
      dsimp only
      rcases startRun_cases c s a w with heq | ⟨runId, created, _, _, heq⟩
      · rw [heq]
        exact hsame rfl rfl
      · rw [heq]
        refine ⟨.refl _, fun p hp ↦ ?_⟩
        cases created with
        | false => exact .inl hp
        | true =>
            rcases List.mem_cons.mp hp with rfl | hp
            · obtain ⟨r, hr, hid, _, hrunning⟩ := h.row (d := ⟨s, .start⟩) hd
              exact .inr ⟨r, hr, hid, hrunning⟩
            · exact .inl hp
  | bind runId => exact ⟨advances_markScheduledRunStarted _ _ _, fun p hp ↦ .inl hp⟩
  | finalize run => exact ⟨advances_verdict _ _ _, fun p hp ↦ .inl hp⟩
  | refuse => exact ⟨advances_completeScheduledRun _ rfl _, fun p hp ↦ .inl hp⟩
  | follow runId =>
      dsimp only
      split
      · exact hsame rfl rfl
      · exact hsame rfl rfl
  | ended runId =>
      dsimp only
      split
      · exact hsame rfl rfl
      · exact hsame rfl rfl
  | admitting => exact hsame rfl rfl
  | closing runId => exact hsame rfl rfl

theorem advances_of_step (h : Consistent c) (hstep : system.step i c c') :
    Advances c.schedules c'.schedules ∧ StartsClaimed c c' := by
  obtain ⟨act, w⟩ := i
  cases act with
  | transact op =>
      obtain rfl := hstep
      exact ⟨.refl _, fun p hp ↦ .inl hp⟩
  | create s =>
      obtain ⟨hstatus, hrun, t, hinsert, rfl⟩ := hstep
      exact ⟨advances_insert? hinsert hstatus hrun, fun p hp ↦ .inl hp⟩
  | cancel principalId scheduleId =>
      obtain rfl := hstep
      exact ⟨advances_cancelScheduledRun _ _ _, fun p hp ↦ .inl hp⟩
  | notify principalId scheduleId =>
      obtain rfl := hstep
      exact ⟨advances_markScheduledRunNotified _ _ _, fun p hp ↦ .inl hp⟩
  | tick now =>
      obtain ⟨_, _, rfl⟩ := hstep
      exact ⟨advances_claimDueScheduledRuns _ _ _, fun p hp ↦ .inl hp⟩
  | restart =>
      obtain rfl := hstep
      exact ⟨.refl _, fun p hp ↦ .inl hp⟩
  | recover =>
      obtain ⟨_, s, rest, _, rfl⟩ := hstep
      exact ⟨.refl _, fun p hp ↦ .inl hp⟩
  | advance scheduleId a =>
      obtain ⟨d, hd, rfl⟩ := hstep
      obtain rfl := (h.task _ d hd).1
      exact step_advances h hd a w
  | startFails scheduleId =>
      obtain ⟨d, _, _, rfl⟩ := hstep
      exact ⟨.refl _, fun p hp ↦ .inl hp⟩

theorem Agreed.of_step (h : Agreed settled c) (hok : calledInTime i c)
    (hstep : system.step i c c') (hrows : RowsExplained settled c c')
    (hfinal : ∀ scheduleId d, c'.tasks scheduleId = some d →
      c.tasks scheduleId = some d ∨ Final settled c'.db d) : Agreed settled c' := by
  have hsteps := steps_of_step h.locked hok hstep
  have hkept := commandsKept_of_step hstep
  have hran : ∀ (s : ScheduledRun) (status : RunStatus), status.terminal = true →
      Ran c.db s status → Ran c'.db s status :=
    fun s status hended hr ↦ hr.kept hended h.locked hsteps hkept
  refine ⟨h.consistent.step hstep, Steps.locked hsteps h.locked, fun s' hs' ↦ ?_,
    fun id d hd ↦ ?_⟩
  · rcases hrows s' hs' with ⟨s, hs, hid, hprincipal, hstatus⟩ | hexplained
    · refine (h.explained s hs).carry hid hprincipal hstatus (hran s) fun hended runId hmem ↦ ?_
      rcases (advances_of_step h.consistent hstep).2 _ hmem with hold | ⟨r, hr, hrid, hrunning⟩
      · exact hold
      · obtain rfl := eq_of_id hr hs hrid
        rw [hrunning] at hended
        cases hended
    · exact hexplained
  · rcases hfinal id d hd with hold | hnew
    · intro run hpoint
      obtain ⟨hended, hsettled⟩ := h.final id d hold run hpoint
      exact ⟨fun hst ↦ hran _ _ hst (hended hst), hsettled⟩
    · exact hnew

theorem RowsExplained.same (h : c'.schedules = c.schedules) : RowsExplained settled c c' := by
  intro s hs
  rw [h] at hs
  exact .inl ⟨s, hs, rfl, rfl, rfl⟩

theorem RowsExplained.update {p : ScheduledRun → Bool} {f : ScheduledRun → ScheduledRun}
    (hf : ∀ s, (f s).id = s.id) (heq : c'.schedules = c.schedules.update p f hf)
    (h : ∀ s ∈ c.schedules.rows, p s = true →
      ((f s).principalId = s.principalId ∧ (f s).status = s.status) ∨
        Explained settled c' (f s)) : RowsExplained settled c c' := by
  intro s' hs'
  rw [heq] at hs'
  obtain ⟨s, hs, rfl⟩ := Table.mem_update.mp hs'
  split
  · rename_i hp
    exact (h s hs hp).imp (fun hsame ↦ ⟨s, hs, hf s, hsame⟩) id
  · exact .inl ⟨s, hs, rfl, rfl, rfl⟩

/-- Where a task goes on, it goes on alone. -/
theorem final_goOn {c₀ : State} {s : ScheduledRun} {next : Option Point}
    (htasks : c₀.tasks = c.tasks) (hnext : ∀ point, next = some point →
      Final settled c₀.db ⟨s, point⟩) :
    ∀ scheduleId d, (c₀.goOn s next).tasks scheduleId = some d →
      c.tasks scheduleId = some d ∨ Final settled (c₀.goOn s next).db d := by
  intro id d hd
  dsimp only [State.goOn] at hd
  rw [Function.update_apply, htasks] at hd
  split at hd
  · obtain ⟨point, hpoint, rfl⟩ := Option.map_eq_some_iff.mp hd
    exact .inr (hnext point hpoint)
  · exact .inl hd

theorem final_of_ne {db : Database} {d : Dispatch} (h : ∀ run, d.point ≠ .finalize run) :
    Final settled db d :=
  fun run hpoint ↦ absurd hpoint (h run)

/-- A task that records a status it can explain is done. -/
theorem Agreed.record (h : Agreed settled c) {d : Dispatch} {status : ScheduleStatus} {now : Time}
    (hok : calledInTime i c)
    (hstep : system.step i c ((c.complete d.schedule status now).goOn d.schedule none))
    (hd : c.tasks d.schedule.id = some d)
    (hexplained : ∀ s : ScheduledRun, s.id = d.schedule.id →
      s.principalId = d.schedule.principalId → s.status = status →
      Explained settled ((c.complete d.schedule status now).goOn d.schedule none) s) :
    Agreed settled ((c.complete d.schedule status now).goOn d.schedule none) := by
  refine h.of_step hok hstep ?_ ?_
  · refine RowsExplained.update (f := ScheduledRun.endedAs status now) (fun _ ↦ rfl) rfl
      fun s hs hp ↦ .inr ?_
    simp only [Bool.and_eq_true, decide_eq_true_eq] at hp
    obtain ⟨s', hs', hid, hprincipal, _⟩ := h.consistent.row hd
    obtain rfl := eq_of_id hs hs' (hp.1.trans hid.symm)
    exact hexplained _ hid hprincipal rfl
  · refine final_goOn rfl fun point hpoint ↦ ?_
    cases hpoint

theorem explained_verdict {s : ScheduledRun} {status : RunStatus}
    (hverdict : s.status = verdict status) (hran : status.terminal = true → Ran c.db s status)
    (hsettled : settled → status.terminal = true) : Explained settled c s := by
  unfold Explained
  rw [hverdict]
  cases status with
  | completed => exact hran rfl
  | canceled => exact .inr (hran rfl)
  | failed => exact fun _ ↦ .inr (hran rfl)
  | _ =>
      intro hs
      have hterminal := hsettled hs
      cases hterminal

theorem Agreed.finalize (h : Agreed settled c) {s : ScheduledRun} {run : Run} {now : Time}
    (hok : calledInTime i c)
    (hstep : system.step i c ((c.complete s (verdict run.status) now).goOn s none))
    (hd : c.tasks s.id = some ⟨s, .finalize run⟩) :
    Agreed settled ((c.complete s (verdict run.status) now).goOn s none) := by
  obtain ⟨hended, hsettled⟩ := h.final _ _ hd run rfl
  exact h.record (d := ⟨s, .finalize run⟩) hok hstep hd fun r hid hprincipal hstatus ↦
    explained_verdict hstatus (fun hst ↦ (hended hst).congr hid hprincipal) hsettled

theorem Agreed.advance (h : Agreed settled c) {s : ScheduledRun} {point : Point}
    (hd : c.tasks s.id = some ⟨s, point⟩) (a : Admission) (w : World)
    (hsettled : settled → Settled (.advance s.id a, w) c) :
    Agreed settled (Scheduling.step c ⟨s, point⟩ a w) := by
  have hok : calledInTime (.advance s.id a, w) c := trivial
  have hstep : system.step (.advance s.id a, w) c (Scheduling.step c ⟨s, point⟩ a w) :=
    ⟨_, hd, rfl⟩
  have hquiet : ∀ point' : Point, (∀ run, point' ≠ .finalize run) →
      Scheduling.step c ⟨s, point⟩ a w = c.goOn s (some point') →
      Agreed settled (Scheduling.step c ⟨s, point⟩ a w) := by
    intro point' hne heq
    rw [heq] at hstep ⊢
    refine h.of_step hok hstep (.same rfl) (final_goOn rfl fun p hp ↦ ?_)
    cases hp
    exact final_of_ne hne
  cases point with
  | admitting =>
      by_cases hrefused : workspaceRefuses c.db w s = true
      · exact hquiet .refuse (by simp) (by simp [Scheduling.step, hrefused])
      · exact hquiet .start (by simp) (by simp [Scheduling.step, hrefused])
  | start =>
      change system.step _ c (startRun c s a w) at hstep
      change Agreed settled (startRun c s a w)
      rcases startRun_cases c s a w with heq | ⟨runId, created, hstarted, hfresh, heq⟩
      · rw [heq] at hstep ⊢
        refine h.of_step hok hstep (.same rfl) (final_goOn rfl fun p hp ↦ ?_)
        cases hp
        exact final_of_ne (by simp)
      · rw [heq] at hstep ⊢
        refine h.of_step hok hstep (.same rfl) (final_goOn rfl fun p hp ↦ ?_)
        cases hp
        exact final_of_ne (by simp)
  | bind runId =>
      refine h.of_step hok hstep ?_ (final_goOn rfl fun p hp ↦ ?_)
      · refine RowsExplained.update (f := ScheduledRun.boundTo runId (w.clock 0)) (fun _ ↦ rfl) rfl
          fun r _ _ ↦ .inl ⟨rfl, rfl⟩
      · refine final_of_ne fun run hrun ↦ ?_
        cases hrun
        unfold afterBinding at hp
        split at hp
        · cases hp
        · split at hp
          · cases hp
          · cases hp
  | follow runId =>
      cases hfind : c.db.runs.find? runId with
      | none => exact hquiet (.ended runId) (by simp) (by simp [Scheduling.step, hfind])
      | some run =>
          by_cases hopen : run.status = .queued ∨ run.status = .running
          · exact hquiet (.follow runId) (by simp)
              (by simp only [Scheduling.step, hfind, if_pos hopen])
          · exact hquiet (.closing runId) (by simp)
              (by simp only [Scheduling.step, hfind, if_neg hopen])
  | closing runId =>
      by_cases hactive : c.db.jobs.rows.any (fun j ↦ j.runId = runId && j.active) = true
      · exact hquiet (.follow runId) (by simp)
          (by simp only [Scheduling.step, if_pos hactive])
      · exact hquiet (.ended runId) (by simp)
          (by simp only [Scheduling.step, if_neg hactive])
  | ended runId =>
      cases hfind : c.db.runs.find? runId with
      | none => exact hquiet .refuse (by simp) (by simp [Scheduling.step, hfind])
      | some run =>
          have heq : Scheduling.step c ⟨s, .ended runId⟩ a w = c.goOn s (some (.finalize run)) := by
            simp only [Scheduling.step, hfind]
          rw [heq] at hstep ⊢
          refine h.of_step hok hstep (.same rfl) (final_goOn rfl fun p hp ↦ ?_)
          cases hp
          intro run' hrun'
          cases hrun'
          refine ⟨fun _ ↦ ⟨run, Table.mem_of_find? hfind, ?_, rfl⟩, fun hs ↦ ?_⟩
          · rw [Table.key_of_find? hfind]
            exact (h.consistent.task _ _ hd).2.2 runId rfl
          · exact (hsettled hs _ hd).1 runId run rfl hfind
  | finalize run => exact h.finalize hok hstep hd
  | refuse =>
      refine h.record (d := ⟨s, .refuse⟩) hok hstep hd fun r hid _ hstatus ↦ ?_
      unfold Explained
      rw [hstatus]
      intro hs
      left
      intro runId hmem
      rw [hid] at hmem
      exact (hsettled hs _ hd).2 rfl runId hmem

theorem Agreed.step (h : Agreed settled c) (hok : calledInTime i c)
    (hsettled : settled → Settled i c) (hstep : system.step i c c') : Agreed settled c' := by
  have hstep' := hstep
  obtain ⟨act, w⟩ := i
  cases act with
  | transact op =>
      obtain rfl := hstep
      exact h.of_step hok hstep' (.same rfl) fun _ _ hd ↦ .inl hd
  | create s =>
      obtain ⟨hstatus, _, t, hinsert, rfl⟩ := hstep
      refine h.of_step hok hstep' (fun s' hs' ↦ ?_) fun _ _ hd ↦ .inl hd
      rcases (Table.mem_insert? hinsert).mp hs' with hmem | rfl
      · exact .inl ⟨s', hmem, rfl, rfl, rfl⟩
      · right
        unfold Explained
        rw [hstatus]
        trivial
  | cancel principalId scheduleId =>
      obtain rfl := hstep
      refine h.of_step hok hstep' ?_ fun _ _ hd ↦ .inl hd
      refine RowsExplained.update (f := ScheduledRun.endedAs .canceled (w.clock 0))
        (fun _ ↦ rfl) rfl
        fun s hs hp ↦ .inr (.inl fun runId hmem ↦ ?_)
      simp only [Bool.and_eq_true, decide_eq_true_eq] at hp
      obtain ⟨s', hs', hid, hclaimed, _⟩ := h.consistent.started _ hmem
      obtain rfl := eq_of_id hs hs' hid.symm
      exact hclaimed hp.2
  | notify principalId scheduleId =>
      obtain rfl := hstep
      refine h.of_step hok hstep' ?_ fun _ _ hd ↦ .inl hd
      exact RowsExplained.update
        (f := fun s ↦ { s with notifiedAt := some (w.clock 0), updatedAt := w.clock 0 })
        (fun _ ↦ rfl) rfl
        fun s _ _ ↦ .inl ⟨rfl, rfl⟩
  | tick now =>
      obtain ⟨_, _, rfl⟩ := hstep
      refine h.of_step hok hstep' ?_ fun id d hd ↦ .inr ?_
      · exact RowsExplained.update (f := ScheduledRun.claimed (w.clock 0)) (fun _ ↦ rfl) rfl
          fun s _ _ ↦ .inr trivial
      · obtain ⟨s, _, rfl⟩ := Option.map_eq_some_iff.mp hd
        exact final_of_ne (by simp)
  | restart =>
      obtain rfl := hstep
      refine h.of_step hok hstep' (.same rfl) fun _ d hd ↦ ?_
      cases hd
  | recover =>
      obtain ⟨_, s, rest, _, rfl⟩ := hstep
      refine h.of_step hok hstep' (.same rfl) (final_goOn rfl fun p hp ↦ ?_)
      cases hp
      refine final_of_ne fun run hrun ↦ ?_
      unfold recoveryPoint at hrun
      dsimp only at hrun
      split at hrun
      · cases hrun
      · cases hrun
  | advance scheduleId a =>
      obtain ⟨⟨s, point⟩, hd, rfl⟩ := hstep
      obtain rfl : s.id = scheduleId := (h.consistent.task _ _ hd).1
      exact h.advance hd a w hsettled
  | startFails scheduleId =>
      obtain ⟨⟨s, point⟩, hd, _, rfl⟩ := hstep
      refine h.of_step hok hstep' (.same rfl) (final_goOn rfl fun p hp ↦ ?_)
      cases hp
      exact final_of_ne (by simp)

/-! ## Whole runs -/

theorem consistent_initial : Consistent ⟨Database.empty, .empty, [], fun _ ↦ none, []⟩ := by
  refine ⟨?_, ?_, List.nodup_nil, ?_, ?_, ?_, List.nodup_nil⟩
  · intro _ d hd
    cases hd
  · intro s hs
    cases hs
  · intro s hs
    cases hs
  · intro s hs
    cases hs
  · intro p hp
    cases hp

theorem consistent_of_reachable {ok : Act × World → State → Prop}
    (h : system.ReachableBy ok c) : Consistent c := by
  refine h.invariant ?_ fun i c c' hc _ hstep ↦ hc.step hstep
  rintro c rfl
  exact consistent_initial

theorem agreed_of_reachable {ok : Act × World → State → Prop} (h : system.ReachableBy ok c)
    (hok : ∀ i c, ok i c → calledInTime i c) (hsettled : settled → ∀ i c, ok i c → Settled i c) :
    Agreed settled c := by
  refine h.invariant ?_ fun i c c' hc hi hstep ↦
    hc.step (hok i c hi) (fun hs ↦ hsettled hs i c hi) hstep
  rintro c rfl
  refine ⟨consistent_initial, locked_empty, ?_, ?_⟩
  · intro s hs
    cases hs
  · intro _ d hd
    cases hd

/-- The schedule was canceled before a tick claimed it. -/
def Dropped (scheduleId : String) (c : State) : Prop :=
  ∃ s ∈ c.schedules.rows, s.id = scheduleId ∧ s.status = .canceled ∧ NeverStarted c s

theorem Dropped.step {scheduleId : String} (h : Dropped scheduleId c) (hc : Consistent c)
    (hstep : system.step i c c') : Dropped scheduleId c' := by
  obtain ⟨s, hs, hid, hstatus, hnever⟩ := h
  obtain ⟨hadvances, hstarts⟩ := advances_of_step hc hstep
  obtain ⟨s', hs', hlater⟩ := hadvances.old s hs
  refine ⟨s', hs', hlater.id.trans hid, ?_, fun runId hmem ↦ ?_⟩
  · rw [hlater.ended (by rw [hstatus]; rfl), hstatus]
  · rw [hlater.id] at hmem
    rcases hstarts _ hmem with hold | ⟨r, hr, hrid, hrunning⟩
    · exact hnever runId hold
    · obtain rfl := eq_of_id hr hs hrid
      rw [hstatus] at hrunning
      cases hrunning

theorem dropped_of_cancel (h : Consistent c) {s : ScheduledRun} (hs : s ∈ c.schedules.rows)
    (hstatus : s.status = .scheduled) {w : World}
    (hstep : system.step (.cancel s.principalId s.id, w) c c') : Dropped s.id c' := by
  obtain rfl := hstep
  refine ⟨s.endedAs .canceled (w.clock 0), ?_, rfl, rfl, fun runId hmem ↦ ?_⟩
  · exact mem_cancelScheduledRun hs hstatus _
  · obtain ⟨s', hs', hid, hclaimed, _⟩ := h.started _ hmem
    obtain rfl := eq_of_id hs hs' hid.symm
    exact hclaimed hstatus

theorem Dropped.run {ok : Act × World → State → Prop} {scheduleId : String}
    (h : Dropped scheduleId c) (hc : Consistent c) (hrun : system.Run ok c c') :
    Dropped scheduleId c' :=
  (hrun.preserves (P := fun c ↦ Consistent c ∧ Dropped scheduleId c)
    (fun _ _ _ hc _ hstep ↦ ⟨hc.1.step hstep, hc.2.step hc.1 hstep⟩) ⟨hc, h⟩).2

/-- A schedule starts one run at most, none if it is canceled before it is
claimed, and how it is recorded agrees with its run: always for a schedule
recorded as completed or canceled, and for a failed one when the dispatcher
never read a run that had not ended nor refused a schedule it had started. -/
theorem schedules_and_runs_agree (h : system.ReachableBy called c) :
    (c.started.map Prod.fst).Nodup ∧
      (∀ p ∈ c.started, ∃ s ∈ c.schedules.rows, s.id = p.1 ∧ StartedAs c.db s p.2) ∧
      (∀ s ∈ c.schedules.rows, s.status = .scheduled → ∀ w c' c'',
        system.step (.cancel s.principalId s.id, w) c c' → system.Run called c' c'' →
          ∀ runId, (s.id, runId) ∉ c''.started) ∧
      (system.ReachableBy calledInTime c → ∀ s ∈ c.schedules.rows,
        (s.status = .completed → Ran c.db s .completed) ∧
        (s.status = .canceled → NeverStarted c s ∨ Ran c.db s .canceled)) ∧
      (system.ReachableBy calledSettled c → ∀ s ∈ c.schedules.rows,
        s.status = .failed → NeverStarted c s ∨ Ran c.db s .failed) := by
  have hc := consistent_of_reachable h
  refine ⟨hc.once, fun p hp ↦ ?_, fun s hs hstatus w c' c'' hcancel hrun runId hmem ↦ ?_,
    fun hintime s hs ↦ ?_, fun hsettled s hs hstatus ↦ ?_⟩
  · obtain ⟨s, hs, hid, _, hstarted⟩ := hc.started p hp
    exact ⟨s, hs, hid, hstarted⟩
  · obtain ⟨s', _, hid, _, hnever⟩ :=
      (dropped_of_cancel hc hs hstatus hcancel).run (hc.step hcancel) hrun
    exact hnever runId (hid ▸ hmem)
  · have hexplained := (agreed_of_reachable hintime (fun _ _ hi ↦ hi) False.elim :
      Agreed False c).explained s hs
    unfold Explained at hexplained
    refine ⟨fun hstatus ↦ ?_, fun hstatus ↦ ?_⟩
    · rw [hstatus] at hexplained
      exact hexplained
    · rw [hstatus] at hexplained
      exact hexplained
  · have hexplained := (agreed_of_reachable hsettled (fun _ _ hi ↦ hi.1)
      (fun _ _ _ hi ↦ hi.2) : Agreed True c).explained s hs
    unfold Explained at hexplained
    rw [hstatus] at hexplained
    exact hexplained trivial

/-! ### A run that pauses

The run of a schedule asks a question, which ends the schedule as failed;
the question is answered and the run completes. -/

namespace Paused

def nightly : ScheduledRun where
  id := "nightly"
  principalId := localOwnerPrincipalId
  goal := "goal"
  workspacePath := none
  model := "agent"
  historyJson := .arr []
  settingsJson := .obj []
  metadataJson := .obj []
  runAt := 0
  status := .scheduled
  runId := none
  createdAt := 0
  updatedAt := 0
  completedAt := none
  notifiedAt := none

def admission : Admission :=
  ⟨.obj [], .obj [], "off", .str "ask", some (.obj []), some (.obj []), none⟩

def created : State :=
  { db := Database.empty, schedules := ⟨[nightly], by simp⟩, recovering := [],
    tasks := fun _ ↦ none, started := [] }

def claimed : State :=
  { created with
    schedules := (claimDueScheduledRuns created.schedules 0 10 0).2
    tasks := fun scheduleId ↦ ((claimDueScheduledRuns created.schedules 0 10 0).1.find? fun s ↦
      s.id = scheduleId).map fun s ↦ ⟨s, .admitting⟩ }

/-- Let the task of a schedule go on, or commit a transaction. -/
def next (c : State) (i : Act × World) : State :=
  match i.1 with
  | .advance scheduleId a =>
    match c.tasks scheduleId with
    | some d => step c d a i.2
    | none => c
  | .transact op => { c with db := op.after c.db i.2 }
  | _ => c

theorem reachable_next {ok : Act × World → State → Prop} {c : State} (h : system.ReachableBy ok c)
    {i : Act × World} (hok : ok i c) : system.ReachableBy ok (next c i) := by
  obtain ⟨act, w⟩ := i
  cases act with
  | advance scheduleId a =>
      unfold next
      dsimp only
      split
      · rename_i d hd
        exact h.step (i := (.advance scheduleId a, w)) hok ⟨d, hd, rfl⟩
      · exact h
  | transact op => exact h.step (i := (.transact op, w)) hok rfl
  | _ => exact h

theorem reachable_foldl {ok : Act × World → State → Prop} {acts : List (Act × World)}
    (hok : ∀ i ∈ acts, ∀ c, ok i c) {c : State} (h : system.ReachableBy ok c) :
    system.ReachableBy ok (acts.foldl next c) := by
  induction acts generalizing c with
  | nil => exact h
  | cons i acts ih =>
      exact ih (fun j hj ↦ hok j (List.mem_cons_of_mem i hj))
        (reachable_next h (hok i List.mem_cons_self c))

theorem reachable_claimed : system.ReachableBy calledInTime claimed := by
  have hempty : system.ReachableBy calledInTime
      ⟨Database.empty, .empty, [], fun _ ↦ none, []⟩ := ⟨_, rfl, .refl _⟩
  have hcreated : system.ReachableBy calledInTime created :=
    hempty.step (i := (.create nightly, .counting 0)) trivial ⟨rfl, rfl, _, rfl, rfl⟩
  exact hcreated.step (i := (.tick 0, .counting 0)) trivial ⟨fun _ ↦ rfl, rfl, rfl⟩

open Coordinator.Race (lease runId questionId)

def resumedLease : ExecutionLease :=
  ⟨"job_" ++ String.ofList (List.replicate 41 'x'), runId, "worker", 1⟩

def goOn (n : ℕ) : Act × World := (.advance nightly.id admission, .counting n)

def starting : List (Act × World) := [goOn 0, goOn 0, goOn 0]

/-- The run waits, the dispatcher records it, and the run completes. -/
def pausing : List (Act × World) :=
  [(.transact (.claimRunJob "worker" 50), .counting 10),
    (.transact (.createQuestion (some lease) runId none (.arr []) (some "cycle")
      (some "interrupt")), .counting 20),
    (.transact (.commitRunResult (some lease) runId .waitingInput "run.waiting"
      (.obj [("wait_cycle_id", .str "cycle")]) false), .counting 30),
    goOn 30, goOn 30, goOn 30, goOn 30,
    (.transact (.requestQuestionAnswerCommand localOwnerPrincipalId "answer" questionId
      (.obj [("answer", .str "yes")])), .counting 40),
    (.transact (.claimRunJob "worker" 50), .counting 50),
    (.transact (.commitRunResult (some resumedLease) runId .completed "run.completed"
      (.obj []) false), .counting 60)]

@[irreducible] def started : State := starting.foldl next claimed

@[irreducible] def completed : State := pausing.foldl next started

theorem reachable_started : system.ReachableBy calledInTime started := by
  rw [started]
  refine reachable_foldl (fun i hi c ↦ ?_) reachable_claimed
  simp only [starting, List.mem_cons, List.not_mem_nil, or_false, or_self] at hi
  rw [hi]
  trivial

theorem reachable_completed : system.ReachableBy calledInTime completed := by
  rw [completed]
  refine reachable_foldl (fun i hi c ↦ ?_) reachable_started
  simp only [pausing, List.mem_cons, List.not_mem_nil, or_false] at hi
  rcases hi with rfl | rfl | rfl | rfl | rfl | rfl | rfl | rfl | rfl | rfl
  all_goals first | trivial | exact ⟨trivial, by simp⟩

theorem schedules_and_runs_agree_started : started.started.any (·.1 = nightly.id) ∧
    (started.started.map Prod.fst).Nodup := by
  refine ⟨by decide +kernel, ?_⟩
  refine (schedules_and_runs_agree (reachable_started.weaken fun i _ hi ↦ ?_)).1
  obtain ⟨act, w⟩ := i
  cases act with
  | transact op => exact hi.1
  | _ => trivial

/-- A schedule can be recorded as failed and its run complete. -/
theorem failed_and_completed : ¬∀ c, system.ReachableBy calledInTime c →
    ∀ s ∈ c.schedules.rows, s.status = .failed → ¬Ran c.db s .completed := by
  intro h
  have hboth : (completed.schedules.rows.any fun s ↦ s.status = .failed &&
      completed.db.runs.rows.any fun run ↦ run.status = .completed &&
        (completed.db.commands.find? (s.principalId, scheduleCommandId s.id)).any fun command ↦
          command.runId = some run.id) = true := by
    decide +kernel
  obtain ⟨s, hs, hrest⟩ := List.any_eq_true.mp hboth
  rw [Bool.and_eq_true, decide_eq_true_eq] at hrest
  obtain ⟨run, hrun, hran⟩ := List.any_eq_true.mp hrest.2
  rw [Bool.and_eq_true, decide_eq_true_eq] at hran
  refine h _ reachable_completed s hs hrest.1 ⟨run, hrun, ?_, hran.1⟩
  cases hfind : completed.db.commands.find? (s.principalId, scheduleCommandId s.id) with
  | none =>
      rw [hfind] at hran
      cases hran.2
  | some command =>
      rw [hfind, Option.any_some, decide_eq_true_eq] at hran
      exact ⟨command, hfind, hran.2⟩

end Paused

end ShejaneRuntime.Scheduling
