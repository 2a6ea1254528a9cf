import ShejaneRuntime.Waiting.Closure

/-!
# How runs end

A run ends when its attempt commits a result, when the cleanup of its
quarantined attempt is confirmed, when it is canceled, or when a claim finds
that it waits for a run that can no longer complete. Each transaction is
followed to see which runs it ends and what of theirs it closes.
-/

namespace ShejaneRuntime.Store

open Lib Lib.Txn Lockstep

/-! ## Cancellation -/

theorem appendSubagentReceiptEvents_post (receipts : List ToolReceipt)
    (settle : ToolReceipt → ToolReceipt) (s : Session Database World) :
    Post (forM receipts fun r ↦ appendSubagentReceiptEventUncommitted (settle r)) s fun _ s' ↦
      s'.db.ledger = s.db.ledger := by
  have hkeeps : Does [.subagent]
      (forM receipts fun r ↦ appendSubagentReceiptEventUncommitted (settle r)) :=
    .forM (fun r ↦ appendSubagentReceiptEventUncommitted_does _) receipts
  exact (hkeeps.writes s).mono fun _ _ hwithin ↦ hwithin.same .ledger (by decide)

/-- Receipts that have not started are closed, and none starts. -/
theorem cancelUnstarted_post (runId : String) (canceledAt : Time) (errorType : String)
    (s : Session Database World) :
    Post (cancelUnstartedToolReceiptsUncommitted runId canceledAt errorType) s fun _ s' ↦
      (∀ r, NoneRunning s.db r → NoneRunning s'.db r) ∧
      (NoneRunning s.db runId → NoneOpen s'.db runId) := by
  unfold cancelUnstartedToolReceiptsUncommitted updateToolReceipts
  rw [post_bind, post_read, post_bind, post_write]
  refine (appendSubagentReceiptEvents_post _ _ _).mono ?_
  intro _ s' hledger
  unfold NoneOpen NoneRunning
  rw [hledger]
  constructor
  · intro r hnone
    refine forall_update (by intro; rfl) hnone fun x _ _ _ _ ↦ ?_
    simp
  · intro hnone x hx hrun
    obtain ⟨x₀, hx₀, rfl⟩ := List.mem_map.mp hx
    dsimp only at hrun ⊢
    split
    · simp [ToolReceipt.open, ToolReceipt.unstarted]
    · rename_i hstill
      rw [if_neg hstill] at hrun
      have hrunning := hnone x₀ hx₀ hrun
      simp only [hrun, decide_true, Bool.true_and, Bool.not_eq_true] at hstill
      simp [ToolReceipt.open, hstill, hrunning]

theorem cancelPendingWaits_post (runId : String) (requestedAt : Time)
    (s : Session Database World) :
    Post (cancelPendingWaits runId requestedAt) s fun _ s' ↦ NonePending s'.db runId := by
  unfold cancelPendingWaits updatePermissions updateQuestions updateWaitCandidates
    updatePlanApprovals
  simp only [post_bind, post_write]
  refine ⟨?_, ?_, ?_, ?_⟩
  all_goals
    intro x hx hrun
    obtain ⟨x₀, _, rfl⟩ := List.mem_map.mp hx
    dsimp only at hrun ⊢
    split
    · simp
    · rename_i hstill
      rw [if_neg hstill] at hrun
      simpa [hrun] using hstill

/-- A cancel command would end the run at once: it waits, or its job does. -/
def cancelable (db : Database) (runId : String) : Bool :=
  (db.runs.find? runId).any (fun run ↦ run.status.waiting) ||
    db.jobs.rows.any fun j ↦ j.runId = runId && j.status = .pending

/-- Only runs of a set are ended, each closed if none of its tools ran. -/
structure Cancels (targets : String → Prop) (db db' : Database) : Prop where
  running : ∀ r, NoneRunning db r → NoneRunning db' r
  closed : ∀ r, Closed db r → Closed db' r
  cancelable : ∀ r, Store.cancelable db' r = true → Store.cancelable db r = true
  ended : ∀ r, RunEnded db' r → RunEnded db r ∨
    targets r ∧ Store.cancelable db r = true ∧ (NoneRunning db r → Closed db' r)

instance {targets : String → Prop} : Std.Refl (Cancels targets) :=
  ⟨fun _ ↦ ⟨fun _ h ↦ h, fun _ h ↦ h, fun _ h ↦ h, fun _ h ↦ .inl h⟩⟩

instance {targets : String → Prop} : IsTrans Database (Cancels targets) := ⟨by
  intro db db' db'' h h'
  refine ⟨fun r hr ↦ h'.running r (h.running r hr), fun r hr ↦ h'.closed r (h.closed r hr),
    fun r hr ↦ h.cancelable r (h'.cancelable r hr), fun r hr ↦ ?_⟩
  rcases h'.ended r hr with hbefore | ⟨htarget, hcancelable, hclosed⟩
  · rcases h.ended r hbefore with hended | ⟨htarget, hcancelable, hclosed⟩
    · exact .inl hended
    · exact .inr ⟨htarget, hcancelable, fun hrunning ↦ h'.closed r (hclosed hrunning)⟩
  · exact .inr ⟨htarget, h.cancelable r hcancelable,
      fun hrunning ↦ hclosed (h.running r hrunning)⟩⟩

theorem runEnded_of_runs {db db' : Database} (h : db'.runs = db.runs) {runId : String}
    (hended : RunEnded db' runId) : RunEnded db runId := by
  unfold RunEnded at *
  rwa [h] at hended

/-- A run is ended by an update of its row alone. -/
theorem runEnded_of_update {db db' : Database} {p : Run → Bool} {f : Run → Run}
    (hf : ∀ r, (f r).id = r.id) (hruns : db'.runs = db.runs.update p f hf) {runId : String}
    (hended : RunEnded db' runId) : RunEnded db runId ∨
      ∃ run, db.runs.find? runId = some run ∧ p run = true ∧ (f run).status.terminal = true := by
  obtain ⟨run', hfind, hterminal⟩ := hended
  rw [hruns, Table.find?_update] at hfind
  obtain ⟨run, hrun, rfl⟩ := Option.map_eq_some_iff.mp hfind
  split at hterminal
  · exact .inr ⟨run, hrun, ‹_›, hterminal⟩
  · exact .inl ⟨run, hrun, hterminal⟩

theorem finishRunCancel_post {s : Session Database World} {runId : String} {requestedAt : Time} :
    Post (finishRunCancelUncommitted runId requestedAt) s fun _ s' ↦
      s'.db.jobs = s.db.jobs ∧ (∀ r, NoneRunning s.db r → NoneRunning s'.db r) ∧
      (NoneRunning s.db runId → Closed s'.db runId) ∧
      (∀ r, r ≠ runId → s'.db.runs.find? r = s.db.runs.find? r) ∧
      ∀ run, s'.db.runs.find? runId = some run → run.status = .canceled := by
  unfold finishRunCancelUncommitted
  rw [post_bind]
  refine ((cancelPendingWaits_post runId requestedAt s).and
    ((cancelPendingWaits_does runId requestedAt).writes s)).mono ?_
  rintro _ s₁ ⟨hpending, hwithin₁⟩
  rw [post_bind]
  refine ((cancelUnstarted_post runId requestedAt "RunCanceled" s₁).and
    ((cancelUnstartedToolReceiptsUncommitted_does runId requestedAt "RunCanceled").writes
      s₁)).mono ?_
  rintro _ s₂ ⟨⟨hrunning, hopen⟩, hwithin₂⟩
  unfold updateRuns
  rw [post_bind, post_write]
  have hrest : Writes [.journal, .lifecycle]
      (appendEventUncommitted runId "run.canceled" (.obj []) requestedAt >>= fun appended ↦
        updateThreadProjectionUncommitted runId .canceled "run.canceled" (.obj []) appended.1.seq
          requestedAt) :=
    .bind onJournal_writes_lifecycle fun _ ↦ onJournal_writes_lifecycle
  refine (hrest _).mono ?_
  intro _ s₃ hwithin₃
  have hledger₁ : s₁.db.ledger = s.db.ledger := hwithin₁.same .ledger (by decide)
  have hledger₃ : s₃.db.ledger = s₂.db.ledger := hwithin₃.same .ledger (by decide)
  have hwaits₂ : s₂.db.waits = s₁.db.waits := hwithin₂.same .waits (by decide)
  have hwaits₃ : s₃.db.waits = s₂.db.waits := hwithin₃.same .waits (by decide)
  have hjobs₁ : s₁.db.jobs = s.db.jobs := hwithin₁.same .jobs (by decide)
  have hjobs₂ : s₂.db.jobs = s₁.db.jobs := hwithin₂.same .jobs (by decide)
  have hjobs₃ : s₃.db.jobs = s₂.db.jobs := hwithin₃.same .jobs (by decide)
  have hruns₁ : s₁.db.runs = s.db.runs := hwithin₁.same .runs (by decide)
  have hruns₂ : s₂.db.runs = s₁.db.runs := hwithin₂.same .runs (by decide)
  have hruns₃ := hwithin₃.same .runs (by decide)
  simp only [Part.Same] at hruns₃
  refine ⟨hjobs₃.trans (hjobs₂.trans hjobs₁), fun r hr ↦ ?_, fun hr ↦ ⟨?_, ?_⟩, fun r hne ↦ ?_,
    fun run hrun ↦ ?_⟩
  · unfold NoneRunning
    rw [hledger₃]
    refine hrunning r ?_
    unfold NoneRunning
    rw [hledger₁]
    exact hr
  · unfold NoneOpen
    rw [hledger₃]
    refine hopen ?_
    unfold NoneRunning
    rw [hledger₁]
    exact hr
  · have hwaits := hwaits₃.trans hwaits₂
    exact ⟨by rw [hwaits]; exact hpending.permissions, by rw [hwaits]; exact hpending.questions,
      by rw [hwaits]; exact hpending.planApprovals, by rw [hwaits]; exact hpending.candidates⟩
  · rw [hruns₃, Table.find?_update, hruns₂, hruns₁]
    cases hfind : s.db.runs.find? r with
    | none => rfl
    | some run =>
        have hid : run.id = r := Table.key_of_find? hfind
        simp [hid, hne]
  · rw [hruns₃, Table.find?_update] at hrun
    obtain ⟨run₀, hfind, rfl⟩ := Option.map_eq_some_iff.mp hrun
    have hid : run₀.id = runId := Table.key_of_find? hfind
    simp [hid]

theorem lifecycleKinds_closed {db db' : Database} (h : Writing lifecycleKinds db db')
    {runId : String} (hclosed : Closed db runId) : Closed db' runId :=
  h.closed (by simp) (by simp) (by simp) hclosed

/-- A run that a cancel command ends. -/
theorem cancels_of_finished {db db' : Database} {runId : String}
    (hwriting : Writing lifecycleKinds db db') (hcancelable : cancelable db runId = true)
    (hjobs : ∀ j ∈ db'.jobs.rows, j.status = .pending → j ∈ db.jobs.rows)
    (hrunning : ∀ r, NoneRunning db r → NoneRunning db' r)
    (hclosed : NoneRunning db runId → Closed db' runId)
    (hothers : ∀ r, r ≠ runId → db'.runs.find? r = db.runs.find? r)
    (hcanceled : ∀ run, db'.runs.find? runId = some run → run.status = .canceled) :
    Cancels (· = runId) db db' := by
  refine ⟨hrunning, fun r ↦ lifecycleKinds_closed hwriting, fun r hr ↦ ?_, fun r hr ↦ ?_⟩
  · unfold cancelable at hr ⊢
    rw [Bool.or_eq_true] at hr ⊢
    rcases hr with hwaiting | hpending
    · left
      by_cases hsame : r = runId
      · subst hsame
        obtain ⟨run, hfind, hwait⟩ := option_any_iff.mp hwaiting
        rw [hcanceled run hfind] at hwait
        cases hwait
      · rwa [hothers r hsame] at hwaiting
    · right
      obtain ⟨j, hj, hcond⟩ := List.any_eq_true.mp hpending
      simp only [Bool.and_eq_true, decide_eq_true_eq] at hcond
      exact List.any_eq_true.mpr ⟨j, hjobs j hj hcond.2, by simp [hcond]⟩
  · by_cases hsame : r = runId
    · subst hsame
      exact .inr ⟨rfl, hcancelable, hclosed⟩
    · left
      obtain ⟨run, hfind, hterminal⟩ := hr
      exact ⟨run, (hothers r hsame).symm.trans hfind, hterminal⟩

theorem cancelWaitingRun_cancels (runId : String) :
    Keeps (Cancels (· = runId)) (cancelWaitingRun runId) := by
  intro s
  unfold cancelWaitingRun findRun
  rw [post_bind, post_read, post_ite]
  refine ⟨fun hwaiting ↦ ?_, fun _ ↦ (post_pure _).mpr (refl_of _ _)⟩
  rw [post_bind]
  refine post_utcNow fun now w ↦ ?_
  rw [post_bind]
  refine (finishRunCancel_post.and
    (finishRunCancelUncommitted_does runId now ⟨s.db, w⟩)).mono ?_
  rintro _ s' ⟨⟨hjobs, hrunning, hclosed, hothers, hcanceled⟩, hwriting⟩
  rw [post_pure]
  refine cancels_of_finished hwriting ?_ ?_ hrunning hclosed hothers hcanceled
  · simp [cancelable, hwaiting]
  · intro j hj _
    rwa [hjobs] at hj

theorem cancelActiveJob_cancels {s : Session Database World} {job : Job}
    (hjob : job ∈ s.db.jobs.rows) (hactive : job.active = true) :
    Post (cancelActiveJob job.runId job) s fun _ s' ↦
      Cancels (· = job.runId) s.db s'.db := by
  have hwhole := cancelActiveJob_does job.runId job s
  unfold cancelActiveJob updateJobs at hwhole ⊢
  rw [post_bind] at hwhole ⊢
  simp only [post_draw, utcNow, post_ite, post_bind, post_write, post_pure] at hwhole ⊢
  refine ⟨fun hleased ↦ ?_, fun hnot ↦ ?_⟩
  · refine ⟨fun r hr ↦ hr, fun r hr ↦ ⟨hr.receipts, hr.waits.1, hr.waits.2, hr.waits.3, hr.waits.4⟩,
      fun r hr ↦ ?_, fun r hr ↦ .inl hr⟩
    unfold cancelable at hr ⊢
    rw [Bool.or_eq_true] at hr ⊢
    refine hr.imp id fun hpending ↦ ?_
    obtain ⟨j, hj, hcond⟩ := List.any_eq_true.mp hpending
    obtain ⟨j₀, hj₀, rfl⟩ := List.mem_map.mp hj
    refine List.any_eq_true.mpr ⟨j₀, hj₀, ?_⟩
    split at hcond
    · exact hcond
    · exact hcond
  · have hpending : job.status = .pending := by
      simpa [Job.active, hnot] using hactive
    refine (finishRunCancel_post.and (hwhole.2 hnot)).mono ?_
    rintro _ s' ⟨⟨hjobs, hrunning, hclosed, hothers, hcanceled⟩, hwriting⟩
    refine cancels_of_finished hwriting ?_ ?_ hrunning hclosed hothers hcanceled
    · unfold cancelable
      rw [Bool.or_eq_true]
      exact .inr (List.any_eq_true.mpr ⟨job, hjob, by simp [hpending]⟩)
    · intro j hj hstatus
      rw [hjobs] at hj
      obtain ⟨j₀, hj₀, rfl⟩ := List.mem_map.mp hj
      split at hstatus
      · cases hstatus
      · rename_i hother
        rwa [if_neg hother]

theorem requestRunCancelUncommitted_cancels (runId : String) :
    Keeps (Cancels (· = runId)) (requestRunCancelUncommitted runId) := by
  intro s
  unfold requestRunCancelUncommitted
  rw [post_bind, post_read]
  split
  · exact cancelWaitingRun_cancels runId s
  · rename_i job hsome
    have hmem := List.mem_of_find?_eq_some hsome
    have hcond := List.find?_some hsome
    simp only [Bool.and_eq_true, decide_eq_true_eq] at hcond
    obtain ⟨⟨rfl, hactive⟩, _⟩ := hcond
    exact cancelActiveJob_cancels hmem hactive

theorem Cancels.widen {targets targets' : String → Prop} {db db' : Database}
    (h : Cancels targets db db') (hsub : ∀ r, targets r → targets' r) : Cancels targets' db db' :=
  ⟨h.running, h.closed, h.cancelable, fun r hr ↦ (h.ended r hr).imp id fun hnew ↦
    ⟨hsub r hnew.1, hnew.2⟩⟩

theorem requestRunCancelTree_cancels (runId : String) (s : Session Database World) :
    Post (requestRunCancelTreeUncommitted runId) s fun _ s' ↦
      Cancels (· ∈ cancelTree s.db runId) s.db s'.db := by
  unfold requestRunCancelTreeUncommitted
  rw [post_bind, post_read]
  have hrest : Keeps (Cancels (· ∈ cancelTree s.db runId)) (do
      let states ← (cancelTree s.db runId).mapM cancelRunInTree
      pure (states.filterMap fun s ↦ s)) := by
    refine .bind (.mapM_mem fun target htarget ↦ ?_) fun _ ↦ .pure _
    refine .bind (.mono (requestRunCancelUncommitted_cancels target) fun _ _ h ↦ ?_) fun _ ↦ .pure _
    exact h.widen fun r hr ↦ hr ▸ htarget
  exact hrest s

theorem cancels_of_within {targets : String → Prop} {parts : List Part} {db db' : Database}
    (h : Within parts db db') (hruns : Part.runs ∉ parts) (hjobs : Part.jobs ∉ parts)
    (hledger : Part.ledger ∉ parts) (hwaits : Part.waits ∉ parts) : Cancels targets db db' := by
  have hruns' : db'.runs = db.runs := h.same .runs hruns
  have hjobs' : db'.jobs = db.jobs := h.same .jobs hjobs
  have hledger' : db'.ledger = db.ledger := h.same .ledger hledger
  have hwaits' : db'.waits = db.waits := h.same .waits hwaits
  refine ⟨fun r hr ↦ ?_, fun r ⟨hopen, hpending⟩ ↦ ⟨?_, ?_⟩, fun r hr ↦ ?_,
    fun r hr ↦ .inl (runEnded_of_runs hruns' hr)⟩
  · unfold NoneRunning
    rw [hledger']
    exact hr
  · unfold NoneOpen
    rw [hledger']
    exact hopen
  · exact ⟨by rw [hwaits']; exact hpending.permissions, by rw [hwaits']; exact hpending.questions,
      by rw [hwaits']; exact hpending.planApprovals, by rw [hwaits']; exact hpending.candidates⟩
  · unfold cancelable at hr ⊢
    rwa [hruns', hjobs'] at hr

theorem requestRunCancelCommand_cancels (principalId commandId runId : String)
    (s : Session Database World) :
    Post (requestRunCancelCommand principalId commandId runId) s fun _ s' ↦
      Cancels (· ∈ cancelTree s.db runId) s.db s'.db := by
  unfold requestRunCancelCommand acceptCommand
  rw [post_bind]
  refine post_readOnly (keeps_acceptedCommandReceiptUncommitted _ _ _ _) fun existing w ↦ ?_
  cases existing with
  | some receipt => exact (post_pure _).mpr (refl_of _ _)
  | none =>
      dsimp only
      rw [post_bind, post_bind]
      refine post_readOnly (.read _) fun run w₁ ↦ ?_
      rw [post_bind, post_require]
      intro _
      rw [post_bind]
      refine (requestRunCancelTree_cancels runId ⟨s.db, w₁⟩).mono ?_
      intro states s₁ hcancels
      rw [post_bind]
      refine post_utcNow fun now w₂ ↦ ?_
      rw [post_bind]
      refine ((recordCommandReceiptUncommitted_does _ _ _ _ _ _ _).writes _).mono ?_
      intro _ s₂ hwithin
      rw [post_pure, post_pure]
      exact trans_of _ hcancels
        (cancels_of_within hwithin (by decide) (by decide) (by decide) (by decide))

/-! ## Transactions that end no run -/

/-- No run has ended that had not ended before. -/
def EndsNone (db db' : Database) : Prop := ∀ r, RunEnded db' r → RunEnded db r

instance : Std.Refl EndsNone := ⟨fun _ _ h ↦ h⟩

instance : IsTrans Database EndsNone := ⟨fun _ _ _ h h' r hr ↦ h r (h' r hr)⟩

theorem Write.endsNone {k : Kind} {db db' : Database} (h : Write k db db') (hk : k ≠ .run) :
    EndsNone db db' := by
  by_cases hparts : Part.runs ∉ k.parts
  · exact fun r ↦ runEnded_of_runs (h.within .runs hparts)
  by_cases hhead : k = .graphHead
  · subst hhead
    rintro r ⟨run', hfind, hterminal⟩
    have hstatus := h.statuses r
    rw [hfind] at hstatus
    obtain ⟨run, hrun, hsame⟩ := Option.map_eq_some_iff.mp hstatus.symm
    exact ⟨run, hrun, hsame ▸ hterminal⟩
  cases h with
  | runs _ => exact absurd rfl hk
  | heads => exact absurd rfl hhead
  | @newRun _ _ run heffect hqueued =>
      refine heffect.relates ?_
      refine .bind (.read _) fun _ ↦ .bind (.require _ _) fun _ ↦ .attempt fun db db' hdb r hr ↦ ?_
      obtain ⟨runs, hinsert, rfl⟩ := Option.map_eq_some_iff.mp hdb
      obtain ⟨run', hfind, hterminal⟩ := hr
      rcases (Table.mem_insert? hinsert).mp (Table.mem_of_find? hfind) with hold | rfl
      · obtain rfl : run'.id = r := Table.key_of_find? hfind
        exact ⟨run', Table.find?_of_mem hold, hterminal⟩
      · rw [hqueued] at hterminal
        cases hterminal
  | _ => exact absurd (by simp [Kind.parts]) hparts

theorem Does.endsNone {kinds : List Kind} {m : StoreTxn α} (h : Does kinds m)
    (hkinds : Kind.run ∉ kinds) : Keeps EndsNone m :=
  Keeps.mono h fun _ _ hdb ↦ hdb.relates fun _ hk _ _ hw ↦ hw.endsNone fun hc ↦ hkinds (hc ▸ hk)

theorem updateRuns_endsNone {p : Run → Bool} {f : Run → Run} {hf : ∀ r, (f r).id = r.id}
    (h : ∀ r, (f r).status.terminal = true → r.status.terminal = true) :
    Keeps EndsNone (updateRuns p f hf) := by
  refine .write fun db r hr ↦ ?_
  rcases runEnded_of_update hf rfl hr with hbefore | ⟨run, hrun, _, hterminal⟩
  · exact hbefore
  · exact ⟨run, hrun, h run hterminal⟩

theorem requireRunCleanup_endsNone (runId : String) (now : Time) :
    Keeps EndsNone (requireRunCleanup runId now) :=
  updateRuns_endsNone fun _ hterminal ↦ by cases hterminal

theorem publishRunStatus_endsNone (runId : String) (status : RunStatus) (eventType : String)
    (payload : Json) (at' : Time) :
    Keeps EndsNone (publishRunStatus runId status eventType payload at') := by
  have hwrites : Writes [.journal, .lifecycle]
      (publishRunStatus runId status eventType payload at') :=
    .bind onJournal_writes_lifecycle fun _ ↦ .bind onJournal_writes_lifecycle fun _ ↦ .pure _
  exact Keeps.mono hwrites fun _ _ hwithin r ↦ runEnded_of_runs (hwithin.same .runs (by decide))

theorem updateJobs_endsNone (p : Job → Bool) (f : Job → Job) (hf : ∀ j, (f j).id = j.id) :
    Keeps EndsNone (updateJobs p f hf) :=
  .write fun _ _ hr ↦ hr

theorem updateJobsCounted_endsNone (p : Job → Bool) (f : Job → Job)
    (hf : ∀ j, (f j).id = j.id) : Keeps EndsNone (updateJobsCounted p f hf) :=
  .bind (.read _) fun _ ↦ .bind (updateJobs_endsNone _ _ _) fun _ ↦ .pure _

theorem cancelUnstarted_endsNone (runId : String) (canceledAt : Time) (errorType : String) :
    Keeps EndsNone (cancelUnstartedToolReceiptsUncommitted runId canceledAt errorType) :=
  (cancelUnstartedToolReceiptsUncommitted_does _ _ _).endsNone (by decide)

theorem requeueExpiredJob_endsNone (now : Time) (row : Job × RunStatus) :
    Keeps EndsNone (requeueExpiredJob now row) := by
  refine .bind ((settleLostLedgers_does _ _ _ _).endsNone (by decide)) fun _ ↦
    .bind ((updateSandboxProcesses_does _ _ _).endsNone (by decide)) fun _ ↦ ?_
  split
  · rename_i status hstatus
    exact (settleExpiredJob_does _ _ _ hstatus).endsNone (by decide)
  · exact .bind (cancelUnstarted_endsNone _ _ _) fun _ ↦ .bind (updateJobs_endsNone _ _ _) fun _ ↦
      .bind (requireRunCleanup_endsNone _ _) fun _ ↦ .bind (.read _) fun _ ↦
      .bind (publishRunStatus_endsNone _ _ _ _ _) fun _ ↦ .pure _

theorem requeueExpiredJobs_endsNone (now : Time) :
    Keeps EndsNone (requeueExpiredJobsUncommitted now) :=
  .bind (.read _) fun _ ↦ .forM (requeueExpiredJob_endsNone now) _

theorem quarantineExecutionAttempt_endsNone (lease? : Option ExecutionLease)
    (runId reason : String) (payload : Json) :
    Keeps EndsNone (quarantineExecutionAttempt lease? runId reason payload) :=
  .bind (.getOr _ _) fun _ ↦ .bind keeps_utcNow fun _ ↦ keeps_runWriteTransaction <|
    .bind ((settleLostLedgers_does _ _ _ _).endsNone (by decide)) fun _ ↦
    .bind (cancelUnstarted_endsNone _ _ _) fun _ ↦ .bind (requireRunCleanup_endsNone _ _) fun _ ↦
    .bind (publishRunStatus_endsNone _ _ _ _ _) fun _ ↦
    .bind (updateJobsCounted_endsNone _ _ _) fun _ ↦ .bind (.require _ _) fun _ ↦ .pure _

theorem ensureLostExecutionQuarantined_endsNone (runId jobId leaseOwner : String)
    (leaseGeneration : ℕ) :
    Keeps EndsNone
      (ensureLostExecutionQuarantined runId jobId leaseOwner leaseGeneration) := by
  refine .bind keeps_utcNow fun now ↦ .bind (.read _) fun job? ↦ ?_
  split
  · exact .pure _
  · refine .bind ((settleLostLedgers_does _ _ _ _).endsNone (by decide)) fun _ ↦
      .bind (cancelUnstarted_endsNone _ _ _) fun _ ↦
      .bind ((updateSandboxProcesses_does _ _ _).endsNone (by decide)) fun _ ↦
      .bind (.read _) fun _ ↦ .ite (.pure _) ?_
    refine .bind (.bind (updateJobs_endsNone _ _ _) fun _ ↦ ?_) fun _ ↦ .pure _
    exact .bind (requireRunCleanup_endsNone _ _) fun _ ↦ publishRunStatus_endsNone _ _ _ _ _

theorem bindGraphDefinition_endsNone (lease : Option ExecutionLease)
    (runId definitionId : String) : Keeps EndsNone (bindGraphDefinition lease runId definitionId) :=
  keeps_runWriteTransaction <| .bind (.read _) fun _ ↦ .bind (.getOr _ _) fun _ ↦
    .bind (.require _ _) fun _ ↦ .when (.bind keeps_utcNow fun _ ↦ updateRuns_endsNone fun _ h ↦ h)

theorem advanceGraphCheckpoint_endsNone (lease : Option ExecutionLease)
    (runId graphThreadId : String) (expectedCheckpointId : Option String) (checkpointId : String) :
    Keeps EndsNone (advanceGraphCheckpoint lease runId graphThreadId expectedCheckpointId
      checkpointId) :=
  keeps_runWriteTransaction <| .bind (.read _) fun _ ↦ .bind (.getOr _ _) fun _ ↦
    .bind (.require _ _) fun _ ↦ .when (.bind (.require _ _) fun _ ↦ .bind keeps_utcNow fun _ ↦
      updateRuns_endsNone fun _ h ↦ h)

/-! ## Results, confirmations and claims -/

/-- A run that is given a terminal status once its receipts are closed. -/
theorem ended_of_update {db db₁ db₂ db' : Database} (runId : String) {p : Run → Bool}
    {f : Run → Run} (hf : ∀ r, (f r).id = r.id) (hp : ∀ r, p r = true → r.id = runId)
    (hruns₁ : db₁.runs = db.runs) (hruns₂ : db₂.runs = db₁.runs.update p f hf)
    (hruns : db'.runs = db₂.runs) {r : String} (hended : RunEnded db' r) :
    RunEnded db r ∨ r = runId ∧ ∃ run, p run = true ∧ (f run).status.terminal = true := by
  rcases runEnded_of_update hf (hruns.trans hruns₂) hended with hbefore | ⟨run, hrun, hcond, hst⟩
  · exact .inl (runEnded_of_runs hruns₁ hbefore)
  · have hid : run.id = r := Table.key_of_find? hrun
    exact .inr ⟨hid ▸ hp run hcond, run, hcond, hst⟩

theorem writeRunResult_ends (runId : String) (lease : Option ExecutionLease) (status : RunStatus)
    (eventType : String) (payload : Json) (s : Session Database World) :
    Post (writeRunResult runId lease status eventType payload) s fun _ s' ↦
      ∀ r, RunEnded s'.db r → RunEnded s.db r ∨
        r = runId ∧ status.terminal = true ∧ (NoneRunning s.db r → NoneOpen s'.db r) := by
  unfold writeRunResult
  rw [post_bind]
  refine post_utcNow fun now w ↦ ?_
  have hcancel : Post (Txn.when (status.terminal = true)
      (cancelUnstartedToolReceiptsUncommitted runId now (parentRunError status))) ⟨s.db, w⟩
      fun _ s₁ ↦ s₁.db.runs = s.db.runs ∧
        (status.terminal = true → NoneRunning s.db runId → NoneOpen s₁.db runId) := by
    rw [post_when]
    refine ⟨fun _ ↦ ?_, fun hnot ↦ ⟨rfl, fun hc ↦ absurd hc hnot⟩⟩
    refine ((cancelUnstarted_post runId now (parentRunError status) ⟨s.db, w⟩).and
      ((cancelUnstartedToolReceiptsUncommitted_does _ _ _).writes _)).mono ?_
    rintro _ s₁ ⟨⟨_, hopen⟩, hwithin⟩
    exact ⟨hwithin.same .runs (by decide), fun _ ↦ hopen⟩
  rw [post_bind]
  refine hcancel.mono ?_
  rintro _ s₁ ⟨hruns₁, hopen⟩
  unfold updateRuns
  rw [post_bind, post_write]
  have hrest : Writes [.journal, .lifecycle, .jobs] (do
      let event ← publishRunStatus runId status eventType payload now
      settleHeldJob lease status now
      pure (event, true)) := by
    refine .bind ((?_ : Writes [.journal, .lifecycle] _).widen (by decide)) fun _ ↦
      .bind ((settleHeldJob_does lease status now).writes.widen (by decide)) fun _ ↦ .pure _
    exact .bind onJournal_writes_lifecycle fun _ ↦ .bind onJournal_writes_lifecycle fun _ ↦ .pure _
  refine (hrest _).mono ?_
  intro _ s₂ hwithin r hr
  rcases ended_of_update runId (by intro; rfl) (by simp) hruns₁ rfl
      (hwithin.same .runs (by decide)) hr with hbefore | ⟨rfl, _, _, hterminal⟩
  · exact .inl hbefore
  · refine .inr ⟨rfl, hterminal, fun hnone ↦ ?_⟩
    have hledger : s₂.db.ledger = s₁.db.ledger := hwithin.same .ledger (by decide)
    unfold NoneOpen
    rw [hledger]
    exact hopen hterminal hnone

theorem commitRunResult_ends (lease : Option ExecutionLease) (runId : String)
    (status : RunStatus) (eventType : String) (payload : Json) (orphanRecovery : Bool)
    (s : Session Database World) :
    Post (commitRunResult lease runId status eventType payload orphanRecovery) s fun _ s' ↦
      ∀ r, RunEnded s'.db r → RunEnded s.db r ∨
        r = runId ∧ status.terminal = true ∧ (NoneRunning s.db r → NoneOpen s'.db r) := by
  unfold commitRunResult findRun
  rw [post_bind, post_require]
  intro _
  refine post_runWriteTransaction fun w _ ↦ ?_
  rw [post_bind, post_read, post_bind, post_getOr]
  intro run _
  rw [post_bind]
  refine post_readOnly (keeps_requireOrphan _ _ _) fun _ w₁ ↦ ?_
  rw [post_bind, post_read]
  split
  · unfold repeatRunResult
    rw [post_bind, post_require]
    intro _
    rw [post_bind]
    refine post_utcNow fun now w₂ ↦ ?_
    rw [post_bind]
    refine (((settleHeldJob_does lease status now).endsNone (by decide)) _).mono ?_
    intro _ s₁ hends
    rw [post_pure]
    exact fun r hr ↦ .inl (hends r hr)
  · rw [post_bind, post_require]
    intro _
    exact writeRunResult_ends runId lease status eventType payload ⟨s.db, w₁⟩

theorem confirmQuarantinedCleanup_ends (runId jobId leaseOwner : String) (leaseGeneration : ℕ)
    (payload : Json) (s : Session Database World) :
    Post (confirmQuarantinedCleanup runId jobId leaseOwner leaseGeneration payload) s fun _ s' ↦
      ∀ r, RunEnded s'.db r → RunEnded s.db r ∨
        r = runId ∧ (NoneRunning s.db r → NoneOpen s'.db r) := by
  unfold confirmQuarantinedCleanup failQuarantinedRun
  rw [post_bind]
  refine post_utcNow fun now w ↦ ?_
  rw [post_bind, post_read, post_ite]
  refine ⟨fun _ ↦ ?_, fun _ ↦ (post_pure _).mpr fun r hr ↦ .inl hr⟩
  rw [post_bind, post_bind]
  refine ((cancelUnstarted_post runId now "ParentRunCleanupRequired" ⟨s.db, w⟩).and
    ((cancelUnstartedToolReceiptsUncommitted_does _ _ _).writes _)).mono ?_
  rintro _ s₁ ⟨⟨_, hopen⟩, hwithin₁⟩
  unfold updateRuns
  rw [post_bind, post_write]
  have hrest : Writes [.journal, .lifecycle, .jobs] (do
      let event ← publishRunStatus runId .failed "run.failed" payload now
      updateJobs (fun j ↦ j.id = jobId) fun j ↦
        { j with status := .dead, updatedAt := now, finishedAt := some now, leaseExpiresAt := none }
      pure event) := by
    refine .bind ((?_ : Writes [.journal, .lifecycle] _).widen (by decide)) fun _ ↦
      .bind ((updateJobs_writes _ _ _).widen (by decide)) fun _ ↦ .pure _
    exact .bind onJournal_writes_lifecycle fun _ ↦ .bind onJournal_writes_lifecycle fun _ ↦ .pure _
  refine (hrest _).mono ?_
  intro _ s₂ hwithin₂
  rw [post_pure]
  intro r hr
  rcases ended_of_update runId (by intro; rfl)
      (by intro run hp; exact (by simpa using hp : _ ∧ _).1) (hwithin₁.same .runs (by decide))
      rfl (hwithin₂.same .runs (by decide)) hr with hbefore | ⟨rfl, _⟩
  · exact .inl hbefore
  · refine .inr ⟨rfl, fun hnone ↦ ?_⟩
    have hledger : s₂.db.ledger = s₁.db.ledger := hwithin₂.same .ledger (by decide)
    unfold NoneOpen
    rw [hledger]
    exact hopen hnone

/-- The store once the leases that have run out are given up. -/
def requeued (db : Database) (w : World) : Database := StoreOp.requeueExpiredRunJobs.after db w

theorem leasePendingJob_endsNone (job : Job) (workerId : String) (leaseSeconds now : Time) :
    Keeps EndsNone (leasePendingJob job workerId leaseSeconds now) :=
  .bind keeps_utcNow fun _ ↦ .bind (updateJobs_endsNone _ _ _) fun _ ↦
    .bind (updateRuns_endsNone fun _ hterminal ↦ by cases hterminal) fun _ ↦ .read _

/-- A claim ends the runs that wait for what can no longer complete. -/
theorem claimRunJob_ends (workerId : String) (leaseSeconds : Time) (db : Database) (w : World) :
    Post (claimRunJob workerId leaseSeconds) ⟨db, w⟩ fun _ s' ↦
      ∀ r, RunEnded s'.db r → RunEnded db r ∨ r ∈ blockedRuns (requeued db w) ∧
        (NoneRunning (requeued db w) r → Closed s'.db r) := by
  have hfirst : Post (requeueExpiredJobsUncommitted (w.clock 0))
      ⟨db, { w with clock := fun n ↦ w.clock (n + 1) }⟩ fun _ s₁ ↦
        s₁.db = requeued db w ∧ EndsNone db s₁.db := by
    refine Post.and ?_ (requeueExpiredJobs_endsNone _ _)
    intro a s₁ hrun
    have hexec : StoreOp.requeueExpiredRunJobs.exec ⟨db, w⟩ = .ok (a, s₁) := hrun
    unfold requeued StoreOp.after commit
    rw [hexec]
  unfold claimRunJob utcNow
  rw [post_bind, post_draw, post_bind]
  refine hfirst.mono ?_
  rintro _ s₁ ⟨hdb, hends₁⟩
  rw [post_bind, post_read, ← hdb, post_bind]
  have hblocked : Keeps (Cancels (· ∈ blockedRuns s₁.db)) (forM (blockedRuns s₁.db) fun runId ↦ do
      let _ ← requestRunCancelUncommitted runId
      pure ()) := by
    refine .forM_mem fun target htarget ↦ ?_
    refine .bind (.mono (requestRunCancelUncommitted_cancels target) fun _ _ h ↦ ?_) fun _ ↦ .pure _
    exact h.widen fun r hr ↦ hr ▸ htarget
  refine (hblocked s₁).mono ?_
  intro _ s₂ hcancels
  rw [post_bind, post_read]
  have hrest : ∀ s' : Session Database World, EndsNone s₂.db s'.db →
      (∀ r, Closed s₂.db r → Closed s'.db r) → ∀ r, RunEnded s'.db r → RunEnded db r ∨
        r ∈ blockedRuns s₁.db ∧ (NoneRunning s₁.db r → Closed s'.db r) := by
    intro s' hends hkeeps r hr
    rcases hcancels.ended r (hends r hr) with hbefore | ⟨htarget, _, hclosed⟩
    · exact .inl (hends₁ r hbefore)
    · exact .inr ⟨htarget, fun hnone ↦ hkeeps r (hclosed hnone)⟩
  split
  · exact (post_pure _).mpr (hrest s₂ (refl_of _ _) fun _ h ↦ h)
  · rename_i job _
    refine ((leasePendingJob_endsNone job workerId leaseSeconds _ s₂).and
      (leasePendingJob_does job workerId leaseSeconds _ s₂)).mono ?_
    rintro _ s' ⟨hends, hwriting⟩
    exact hrest s' hends fun r hclosed ↦ hwriting.closed (by simp) (by simp) (by simp) hclosed

end ShejaneRuntime.Store
