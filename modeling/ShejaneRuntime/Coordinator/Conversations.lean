import ShejaneRuntime.Coordinator.Resumption
import ShejaneRuntime.Journal.Positions

/-!
# Conversations

A thread over whole runs of the Runtime: its live items are numbered from
one, a turn is handed the items before it, and its runs follow one another
as long as no resumption asks for a job of a run that has ended.
-/

namespace ShejaneRuntime.Store

open Lib Lib.Txn Lockstep

/-! ## Positions -/

theorem StoreOp.keeps_placed {op : StoreOp} {db : Database} (w : World) (hsound : Sound db)
    (hp : db.journal.Placed) : (op.after db w).journal.Placed := by
  have hgrown : JournalGrown db (op.after db w) → (op.after db w).journal.Placed :=
    fun h ↦ Journal.Grown.placed h hp
  have hwriting := op.after_writing db w
  have hrest : Kind.turn ∉ op.kinds → Kind.newRun ∉ op.kinds →
      (op.after db w).journal.Placed :=
    fun hturn hrun ↦ hgrown (hwriting.journalGrown hturn (.inr ⟨hrun, hsound.ties.descends⟩))
  cases op with
  | acceptRunCommand c =>
      rcases after_acceptRunCommand c db w with hsame | ⟨run, hstarted⟩
      · rw [hsame]
        exact hp
      · exact (hstarted.placed hp).1
  | acceptChildRun lease request =>
      exact hgrown (hwriting.journalGrown (by simp [StoreOp.kinds]) (.inl (by simp [StoreOp.kinds])))
  | appendEvent lease runId eventType payload =>
      refine hrest ?_ ?_
      · simp only [StoreOp.kinds]
        split <;> simp
      · simp only [StoreOp.kinds]
        split <;> simp
  | _ => exact hrest (by simp [StoreOp.kinds]) (by simp [StoreOp.kinds])

theorem placed_of_calls {db : Database} (h : store.ReachableBy calls db) : db.journal.Placed := by
  refine (System.ReachableBy.invariant (P := fun db ↦ Sound db ∧ db.journal.Placed) ?_ ?_ h).2
  · rintro db rfl
    refine ⟨sound_empty, ⟨fun _ ↦ ⟨0, rfl⟩, ?_, ?_⟩⟩
    · intro i hi
      cases hi
    · intro i hi
      cases hi
  · rintro i db db' ⟨hsound, hp⟩ hcalled rfl
    exact ⟨(StoreOp.keeps_sound i.2 hsound hcalled).1, StoreOp.keeps_placed i.2 hsound hp⟩

/-- The run that a command starts continues its thread. -/
theorem continues_of_new {db : Database} (hp : db.journal.Placed) (c : RunCommand) (w : World)
    {run : Run} (hrun : run ∈ ((StoreOp.acceptRunCommand c).after db w).runs.rows)
    (hnew : db.runs.find? run.id = none) :
    Continues run ((StoreOp.acceptRunCommand c).after db w).journal := by
  have hold : run ∉ db.runs.rows := by
    intro hmem
    rw [Table.find?_of_mem hmem] at hnew
    cases hnew
  rcases after_acceptRunCommand c db w with hsame | ⟨started, hstarted⟩
  · rw [hsame] at hrun
    exact absurd hrun hold
  · rcases (Table.mem_insert? hstarted.inserted).mp hrun with hmem | rfl
    · exact absurd hmem hold
    · exact (hstarted.placed hp).2

/-! ## One run at a time -/

/-- The run has not ended, or has a job left. -/
def unsettledRun (db : Database) (r : Run) : Bool :=
  !r.status.terminal || db.jobs.rows.any fun j ↦ j.runId = r.id && j.active

/-- No two runs of a thread are unsettled. -/
def OneUnsettled (db : Database) : Prop :=
  ∀ r ∈ db.runs.rows, ∀ r' ∈ db.runs.rows, ∀ threadId, r.threadId = some threadId →
    r'.threadId = some threadId → unsettledRun db r = true → unsettledRun db r' = true → r = r'

/-- A run of a thread belongs to the owner of the thread. -/
def ThreadsOwned (db : Database) : Prop :=
  ∀ r ∈ db.runs.rows, ∀ threadId, r.threadId = some threadId →
    ∃ t ∈ db.journal.threads.rows, t.id = threadId ∧ t.principalId = r.principalId

theorem threadBusy_of_unsettled {db : Database} {r : Run} (hr : r ∈ db.runs.rows)
    {threadId : String} (hthread : r.threadId = some threadId)
    (hunsettled : unsettledRun db r = true) : threadBusy db r.principalId threadId = true := by
  refine List.any_eq_true.mpr ⟨r, hr, ?_⟩
  unfold unsettledRun at hunsettled
  simp only [hthread, hunsettled, decide_true, Bool.and_self]

theorem SameRuns.threadsOwned {db db' : Database} (h : SameRuns db db')
    (hkept : db.journal.Kept db'.journal) (howned : ThreadsOwned db) : ThreadsOwned db' := by
  intro r' hr' threadId hthread
  obtain ⟨r, hr, hfixed⟩ := h.mem hr'
  have hthread' : r'.fixed.threadId = r.fixed.threadId := by rw [hfixed]
  have hprincipal : r'.fixed.principalId = r.fixed.principalId := by rw [hfixed]
  obtain ⟨t, ht, hid, howner⟩ := howned r hr threadId (hthread'.symm.trans hthread)
  obtain ⟨t', ht', hid', howner'⟩ := hkept.threads t ht
  exact ⟨t', ht', hid'.trans hid, (howner'.trans howner).trans hprincipal.symm⟩

/-- When a turn starts, no other run of its thread is unsettled. -/
theorem Started.settled {c : RunCommand} {run : Run} {db db' : Database}
    (h : Started c run db db') (howned : ThreadsOwned db) {threadId : String}
    (hthread : run.threadId = some threadId) {r : Run} (hr : r ∈ db.runs.rows)
    (hsame : r.threadId = some threadId) : unsettledRun db r = false := by
  obtain ⟨thread, journal, rootRunId, assistantItemId, hrecord, hopened, hwrote⟩ := h.turn
  obtain rfl : thread.threadId = threadId := by
    rw [hrecord.threadId] at hthread
    exact Option.some.inj hthread
  obtain ⟨t, ht, hid, howner⟩ := howned r hr _ hsame
  rw [Bool.eq_false_iff]
  intro hunsettled
  have hbusy := threadBusy_of_unsettled hr hsame hunsettled
  generalize htid : thread.threadId = tid at *
  cases hopened with
  | new _ hnewId _ _ hinsert _ _ =>
      have habsent := Table.find?_eq_none_iff.mp (Table.find?_key_of_insert? hinsert) t ht
      exact habsent (hid.trans hnewId.symm)
  | @next t' f hf base hfind hprincipal hidle _ _ =>
      rw [← hid, Table.find?_of_mem ht, Option.some.injEq] at hfind
      subst hfind
      rw [howner] at hprincipal
      rw [hprincipal, hidle] at hbusy
      cases hbusy

/-- The runs of the store are those of before, and perhaps one more of a
thread that has no unsettled run. -/
def TakesTurns (db db' : Database) : Prop :=
  ∃ started : Option Run, ∀ r' ∈ db'.runs.rows,
    (∃ r ∈ db.runs.rows, r'.fixed = r.fixed) ∨
    started = some r' ∧ ∀ threadId, r'.threadId = some threadId →
      ∀ r ∈ db.runs.rows, r.threadId = some threadId → unsettledRun db r = false

theorem SameRuns.takesTurns {db db' : Database} (h : SameRuns db db') : TakesTurns db db' :=
  ⟨none, fun _ hr' ↦ .inl (h.mem hr')⟩

theorem Started.takesTurns {c : RunCommand} {run : Run} {db db' : Database}
    (h : Started c run db db') (howned : ThreadsOwned db) : TakesTurns db db' := by
  refine ⟨some run, fun r' hr' ↦ ?_⟩
  rcases (Table.mem_insert? h.inserted).mp hr' with hold | rfl
  · exact .inl ⟨r', hold, rfl⟩
  · exact .inr ⟨rfl, fun threadId hthread r hr hsame ↦ h.settled howned hthread hr hsame⟩

theorem Admitted.takesTurns {request : ChildRequest} {child : Run} {db db' : Database}
    (h : Admitted request child db db') : TakesTurns db db' := by
  obtain ⟨parent, c, goal, definition, policy, _, _, hrecord, _⟩ := h.parent
  refine ⟨some child, fun r' hr' ↦ ?_⟩
  rcases (Table.mem_insert? h.inserted).mp hr' with hold | rfl
  · exact .inl ⟨r', hold, rfl⟩
  · refine .inr ⟨rfl, fun threadId hthread ↦ ?_⟩
    rw [hrecord.threadId] at hthread
    cases hthread

theorem Started.threadsOwned {c : RunCommand} {run : Run} {db db' : Database}
    (h : Started c run db db') (howned : ThreadsOwned db) : ThreadsOwned db' := by
  obtain ⟨thread, journal, rootRunId, assistantItemId, hrecord, hopened, hwrote⟩ := h.turn
  intro r hr threadId hthread
  rw [hwrote.threads]
  rcases (Table.mem_insert? h.inserted).mp hr with hold | rfl
  · obtain ⟨t, ht, hid, howner⟩ := howned r hold threadId hthread
    obtain ⟨t', ht', hid', howner'⟩ := hopened.threads t ht
    exact ⟨t', ht', hid'.trans hid, howner'.trans howner⟩
  · rw [hrecord.threadId] at hthread
    obtain rfl : thread.threadId = threadId := Option.some.inj hthread
    generalize htid : thread.threadId = tid at *
    rw [hrecord.principalId]
    cases hopened with
    | @new t _ _ _ _ hid hprincipal _ hinsert _ _ =>
        exact ⟨t, (Table.mem_insert? hinsert).mpr (.inr rfl), hid.trans htid, hprincipal⟩
    | @next t f hf base hfind hprincipal _ _ hnext =>
        refine ⟨f t, List.mem_map.mpr ⟨t, Table.mem_of_find? hfind, ?_⟩, ?_, ?_⟩
        · rw [if_pos (by simpa using Table.key_of_find? hfind)]
        · rw [hf, Table.key_of_find? hfind]
        · exact (hnext t).1.trans hprincipal

theorem Admitted.threadsOwned {request : ChildRequest} {child : Run} {db db' : Database}
    (h : Admitted request child db db') (hkept : db.journal.Kept db'.journal)
    (howned : ThreadsOwned db) : ThreadsOwned db' := by
  obtain ⟨parent, c, goal, definition, policy, _, _, hrecord, _⟩ := h.parent
  intro r hr threadId hthread
  rcases (Table.mem_insert? h.inserted).mp hr with hold | rfl
  · obtain ⟨t, ht, hid, howner⟩ := howned r hold threadId hthread
    obtain ⟨t', ht', hid', howner'⟩ := hkept.threads t ht
    exact ⟨t', ht', hid'.trans hid, howner'.trans howner⟩
  · rw [hrecord.threadId] at hthread
    cases hthread

theorem StoreOp.takesTurns {op : StoreOp} {db : Database} (w : World) (hsound : Sound db)
    (hcalled : op.called) (howned : ThreadsOwned db) :
    TakesTurns db (op.after db w) ∧ ThreadsOwned (op.after db w) := by
  have hkept := (StoreOp.keeps_sound w hsound hcalled).2
  have hrest : Kind.newRun ∉ op.kinds →
      TakesTurns db (op.after db w) ∧ ThreadsOwned (op.after db w) := by
    intro hrun
    have hsame := (op.exec_does.sameRuns hrun).commit db w
    exact ⟨hsame.takesTurns, hsame.threadsOwned hkept howned⟩
  have hrefl : TakesTurns db db := (refl_of SameRuns db).takesTurns
  cases op with
  | acceptRunCommand c =>
      rcases after_acceptRunCommand c db w with hsame | ⟨run, hstarted⟩
      · rw [hsame]
        exact ⟨hrefl, howned⟩
      · exact ⟨hstarted.takesTurns howned, hstarted.threadsOwned howned⟩
  | acceptChildRun lease request =>
      rcases after_acceptChildRun lease request db w with hsame | ⟨child, hadmitted⟩
      · rw [hsame]
        exact ⟨hrefl, howned⟩
      · exact ⟨hadmitted.takesTurns, hadmitted.threadsOwned hkept howned⟩
  | appendEvent lease runId eventType payload =>
      apply hrest
      simp only [StoreOp.kinds]
      split <;> simp
  | _ => exact hrest (by simp [StoreOp.kinds])

end ShejaneRuntime.Store

namespace ShejaneRuntime.Coordinator

open Store Lib Lockstep

/-- While ended runs have no job, only a run that has not ended is unsettled. -/
theorem unsettledRun_eq {db : Database} (h : Locked announces unended (abs db)) {r : Run}
    (hr : r ∈ db.runs.rows) : unsettledRun db r = !r.status.terminal := by
  cases hst : r.status.terminal with
  | false => simp [unsettledRun, hst]
  | true =>
      have hidle : (db.jobs.rows.any fun j ↦ j.runId = r.id && j.active) = false := by
        rw [List.any_eq_false]
        intro j hj hactive
        simp only [Bool.and_eq_true, decide_eq_true_eq] at hactive
        have hinactive := inactive_of_locked h (fun _ hopen ↦ hopen)
          (status_of_find? (Table.find?_of_mem hr)) hst hj hactive.1
        rw [hactive.2] at hinactive
        cases hinactive
      simp [unsettledRun, hst, hidle]

/-- A run that is settled stays settled. -/
theorem unsettledRun_of_after {db db' : Database} (h : Locked announces unended (abs db))
    (hsteps : Steps announces unended (abs db) (abs db')) {r r' : Run} (hr : r ∈ db.runs.rows)
    (hr' : r' ∈ db'.runs.rows) (hid : r'.id = r.id) (hunsettled : unsettledRun db' r' = true) :
    unsettledRun db r = true := by
  rw [unsettledRun_eq (Steps.locked hsteps h) hr', Bool.not_eq_true'] at hunsettled
  rw [unsettledRun_eq h hr, Bool.not_eq_true', Bool.eq_false_iff]
  intro hst
  have hstatus := status_of_find? (Table.find?_of_mem hr)
  have hspares := (Steps.ended hsteps h (fun _ hopen ↦ hopen) hstatus hst).1.trans hstatus
  rw [← hid, status_of_find? (Table.find?_of_mem hr'), Option.some.injEq] at hspares
  rw [hspares, hst] at hunsettled
  cases hunsettled

theorem oneUnsettled_of_takesTurns {db db' : Database} (h : Locked announces unended (abs db))
    (hsteps : Steps announces unended (abs db) (abs db')) (hturns : TakesTurns db db')
    (hone : OneUnsettled db) : OneUnsettled db' := by
  obtain ⟨started, hcases⟩ := hturns
  -- the run that starts is alone: every run of before that shares its thread is settled
  have halone : ∀ r₀ ∈ db.runs.rows, ∀ r₁ ∈ db'.runs.rows, ∀ r₂ ∈ db'.runs.rows, ∀ threadId,
      r₁.fixed = r₀.fixed → r₁.threadId = some threadId → unsettledRun db' r₁ = true →
      ¬∀ r ∈ db.runs.rows, r.threadId = some threadId → unsettledRun db r = false := by
    intro r₀ hr₀ r₁ hr₁ r₂ _ threadId hfixed hthread hunsettled hsettled
    have hid : r₁.id = r₀.id := Run.id_of_fixed hfixed
    have hthread₀ : r₁.fixed.threadId = r₀.fixed.threadId := by rw [hfixed]
    have hbefore := unsettledRun_of_after h hsteps hr₀ hr₁ hid hunsettled
    rw [hsettled r₀ hr₀ (hthread₀.symm.trans hthread)] at hbefore
    cases hbefore
  intro r₁ hr₁ r₂ hr₂ threadId hthread₁ hthread₂ hunsettled₁ hunsettled₂
  rcases hcases r₁ hr₁ with ⟨r, hr, hfixed⟩ | ⟨hstarted, hsettled⟩
  · rcases hcases r₂ hr₂ with ⟨r', hr', hfixed'⟩ | ⟨_, hsettled'⟩
    · have hid : r₁.id = r.id := Run.id_of_fixed hfixed
      have hid' : r₂.id = r'.id := Run.id_of_fixed hfixed'
      have hthread : r₁.fixed.threadId = r.fixed.threadId := by rw [hfixed]
      have hthread' : r₂.fixed.threadId = r'.fixed.threadId := by rw [hfixed']
      have hsame := hone r hr r' hr' threadId (hthread.symm.trans hthread₁)
        (hthread'.symm.trans hthread₂) (unsettledRun_of_after h hsteps hr hr₁ hid hunsettled₁)
        (unsettledRun_of_after h hsteps hr' hr₂ hid' hunsettled₂)
      apply List.inj_on_of_nodup_map db'.runs.nodup hr₁ hr₂
      rw [hid, hid', hsame]
    · exact absurd (hsettled' threadId hthread₂)
        (halone r hr r₁ hr₁ r₂ hr₂ threadId hfixed hthread₁ hunsettled₁)
  · rcases hcases r₂ hr₂ with ⟨r', hr', hfixed'⟩ | ⟨hstarted', _⟩
    · exact absurd (hsettled threadId hthread₁)
        (halone r' hr' r₂ hr₂ r₁ hr₁ threadId hfixed' hthread₂ hunsettled₂)
    · rw [hstarted] at hstarted'
      exact Option.some.inj hstarted'

/-! ## Runs of the system -/

/-- Each step of the system is a transaction, or leaves the store alone. -/
theorem system_step_db {i : Act × World} {c c' : State} (hcalled : called i c)
    (hstep : system.step i c c') : c'.db = c.db ∨
      ∃ op : StoreOp, op.called ∧ c'.db = op.after c.db i.2 := by
  obtain ⟨act, w⟩ := i
  cases act with
  | transact op =>
      obtain rfl := hstep
      exact .inr ⟨op, hcalled.1, rfl⟩
  | readDecisions runId waitCycleId =>
      obtain ⟨_, _, rfl⟩ := hstep
      exact .inl rfl
  | checkWaiting r =>
      obtain ⟨_, _, rfl⟩ := hstep
      exact .inl rfl
  | enqueue r =>
      obtain ⟨_, _, rfl⟩ := hstep
      exact .inr ⟨r.enqueueOp, trivial, rfl⟩

theorem reachable_store {c : State} (h : system.ReachableBy called c) :
    store.ReachableBy calls c.db := by
  refine System.ReachableBy.invariant (P := fun c ↦ store.ReachableBy calls c.db) ?_ ?_ h
  · rintro c rfl
    exact ⟨_, rfl, .refl _⟩
  · intro i c c' hreach hcalled hstep
    rcases system_step_db hcalled hstep with hsame | ⟨op, hop, hafter⟩
    · rw [hsame]
      exact hreach
    · rw [hafter]
      exact hreach.step (i := (op, i.2)) hop rfl

theorem oneUnsettled_of_calledInTime {c : State} (h : system.ReachableBy calledInTime c) :
    OneUnsettled c.db := by
  refine (System.ReachableBy.invariant (P := fun c ↦ Locked announces unended (abs c.db) ∧
    Sound c.db ∧ ThreadsOwned c.db ∧ OneUnsettled c.db) ?_ ?_ h).2.2.2
  · rintro c rfl
    refine ⟨locked_empty, sound_empty, ?_, ?_⟩
    · intro r hr
      cases hr
    · intro r hr
      cases hr
  · rintro i c c' ⟨hlocked, hsound, howned, hone⟩ hcalled hstep
    have hsteps := steps_of_calledInTime hlocked hcalled hstep
    refine ⟨Steps.locked hsteps hlocked, ?_⟩
    rcases system_step_db hcalled.1 hstep with hsame | ⟨op, hop, hafter⟩
    · rw [hsame]
      exact ⟨hsound, howned, hone⟩
    · obtain ⟨hturns, howned'⟩ := StoreOp.takesTurns i.2 hsound hop howned
      rw [hafter] at hsteps ⊢
      exact ⟨(StoreOp.keeps_sound i.2 hsound hop).1, howned',
        oneUnsettled_of_takesTurns hlocked hsteps hturns hone⟩

/-- The items of a thread are numbered from one, a turn is handed the items
before its own, and its runs take turns while resumptions ask in time. -/
theorem conversations_take_turns {c : State} (h : system.ReachableBy called c) :
    c.db.journal.Placed ∧
    (∀ (command : RunCommand) (w : World),
      ∀ run ∈ ((StoreOp.acceptRunCommand command).after c.db w).runs.rows,
        c.db.runs.find? run.id = none →
        Continues run ((StoreOp.acceptRunCommand command).after c.db w).journal) ∧
    (system.ReachableBy calledInTime c → OneUnsettled c.db) := by
  have hplaced := placed_of_calls (reachable_store h)
  refine ⟨hplaced, ?_, oneUnsettled_of_calledInTime⟩
  intro command w run hrun hnew
  exact continues_of_new hplaced command w hrun hnew

/-! ### Two runs of one thread

The next turn of the thread is accepted after the run is canceled and before
its resumption asks for a job.
-/

namespace Race

def nextTurn : RunCommand :=
  { RunCommand.sample with
    commandId := "next", clientMessageId := "next", threadId := some "thread_" }

@[irreducible] def followed : Database :=
  (StoreOp.acceptRunCommand nextTurn).after canceled (.counting 60)

@[irreducible] def crossed : Database := (resumption true).enqueueOp.after followed (.counting 100)

theorem reachable_crossed : system.ReachableBy called ⟨crossed, []⟩ := by
  have hfollowed := reaches reachable_canceled (.acceptRunCommand nextTurn) (.counting 60)
    ⟨trivial, by simp⟩
  rw [crossed, followed]
  refine hfollowed.step (i := (.enqueue (resumption true), .counting 100)) trivial
    ⟨List.mem_singleton_self _, rfl, ?_⟩
  rw [List.erase_cons_head]

/-- The next turn of the thread, accepted after the run was canceled. -/
@[irreducible] def nextAccepted : Database :=
  (StoreOp.acceptRunCommand nextTurn).after dropped (.counting 60)

theorem conversations_take_turns_next : nextAccepted.journal.Placed ∧
    (∀ run ∈ nextAccepted.runs.rows, dropped.runs.find? run.id = none →
      Continues run nextAccepted.journal) ∧
    OneUnsettled nextAccepted ∧ nextAccepted.runs.rows.length = 2 ∧
    nextAccepted.runs.rows.any (unsettledRun nextAccepted) = true := by
  have hdropped : system.ReachableBy calledInTime ⟨dropped, []⟩ := by
    rw [dropped]
    exact reaches reachable_accepted
      (.requestRunCancelCommand localOwnerPrincipalId "cancel" runId) (.counting 10)
      ⟨⟨trivial, by simp⟩, trivial⟩
  have hnext : system.ReachableBy calledInTime ⟨nextAccepted, []⟩ := by
    rw [nextAccepted]
    exact reaches hdropped (.acceptRunCommand nextTurn) (.counting 60)
      ⟨⟨trivial, by simp⟩, trivial⟩
  have hcontinues := (conversations_take_turns (hdropped.weaken fun _ _ h ↦ h.1)).2.1 nextTurn
    (.counting 60)
  obtain ⟨hplaced, _, hone⟩ := conversations_take_turns (hnext.weaken fun _ _ h ↦ h.1)
  refine ⟨hplaced, ?_, hone hnext, by decide +kernel, by decide +kernel⟩
  rw [nextAccepted]
  exact hcontinues

/-- Two runs of a thread can be unsettled at once. -/
theorem not_one_unsettled :
    ¬∀ c, system.ReachableBy called c → c.db.journal.Placed ∧ OneUnsettled c.db := by
  intro h
  have htwo : ∃ r ∈ crossed.runs.rows, ∃ r' ∈ crossed.runs.rows,
      r.threadId = some "thread_" ∧ r'.threadId = some "thread_" ∧
      unsettledRun crossed r = true ∧ unsettledRun crossed r' = true ∧ r.id ≠ r'.id := by
    decide +kernel
  obtain ⟨r, hr, r', hr', hthread, hthread', hunsettled, hunsettled', hne⟩ := htwo
  exact hne (congrArg Run.id
    ((h _ reachable_crossed).2 r hr r' hr' _ hthread hthread' hunsettled hunsettled'))

end Race

end ShejaneRuntime.Coordinator
