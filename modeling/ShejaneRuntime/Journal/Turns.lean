import ShejaneRuntime.Store.Frames

/-!
# What accepting a turn does

A turn opens its thread, a new one with the messages it starts from or one
that exists, and then writes the two items of the turn with the change row.
The functions of the source are summed up here once, as relations between
the journals before and after.
-/

namespace ShejaneRuntime.Store

open Lib Lib.Txn

/-! ## Rows of a turn -/

/-- A message that a new thread starts with, as its item. -/
structure SeedRow (threadId : String) (row : HistoryMessage × ℕ) (i : ThreadItem) : Prop where
  threadId : i.threadId = threadId
  runId : i.runId = none
  itemType : i.itemType = row.1.role ++ "_message"
  content : i.content = row.1.content
  position : i.position = row.2 + 1
  watermark : i.eventHighWatermark = 0
  live : i.supersededAt = none

/-- An item of a turn. -/
structure TurnRow (threadId runId itemType : String) (position : ℤ) (i : ThreadItem) : Prop where
  threadId : i.threadId = threadId
  runId : i.runId = some runId
  itemType : i.itemType = itemType
  position : i.position = position
  watermark : i.eventHighWatermark = 0
  live : i.supersededAt = none

/-- The item of a turn that an edit replaces. -/
def RunCommand.replaces (c : RunCommand) (i : ThreadItem) : Prop :=
  i.itemType = "user_message" ∧ i.clientId = c.replaceFromClientId ∧
    c.replaceFromClientId.isSome = true

/-- The position a turn goes after. -/
def RunCommand.TurnsAfter (c : RunCommand) (live : List ThreadItem) (base : ℤ) : Prop :=
  (∃ i ∈ live, c.replaces i ∧ base = i.position - 1) ∨
    c.replaceFromClientId = none ∧ base = (live.map ThreadItem.position).max?.getD 0

/-- What an edit does to the items it replaces. -/
def ThreadItem.supersede (runId : String) (now : Time) (i : ThreadItem) : ThreadItem :=
  { i with supersededAt := some now, supersededByRunId := some runId, updatedAt := now }

/-- The items of a thread after a position that no edit has replaced. -/
def ThreadItem.after (threadId : String) (base : ℤ) (i : ThreadItem) : Bool :=
  i.threadId = threadId && base < i.position && i.supersededAt.isNone

/-! ## Opening a thread -/

inductive Opened (c : RunCommand) (busy : Bool) (threadId : String) :
    Journal → TurnThread → Journal → Prop
  | new {j : Journal} {thread : Thread} {threads : Table Thread.id} {items : Table ThreadItem.id}
      {added : List ThreadItem} :
      c.replaceFromClientId = none → thread.id = threadId →
      thread.principalId = c.principalId → thread.version = 1 →
      j.threads.insert? thread = some threads → items.rows = j.items.rows ++ added →
      List.Forall₂ (SeedRow threadId) (seedHistory c).zipIdx added →
      Opened c busy threadId j ⟨threadId, 1, (seedHistory c).length, seedHistory c⟩
        { j with threads := threads, items := items }
  | next {j : Journal} {thread : Thread} {f : Thread → Thread} (hf : ∀ t, (f t).id = t.id)
      {base : ℤ} :
      j.threads.find? threadId = some thread → thread.principalId = c.principalId →
      busy = false → c.TurnsAfter (liveItems j.items threadId) base →
      (∀ t, (f t).principalId = t.principalId ∧ (f t).version = thread.version + 1) →
      Opened c busy threadId j
        ⟨threadId, thread.version + 1, base, turnHistory (liveItems j.items threadId) base⟩
        { j with threads := j.threads.update (fun t ↦ t.id = threadId) f hf }

theorem insertThreadItem_post (item : ThreadItem) (s : Session Journal World) :
    Post (Journal.insertThreadItem item) s fun _ s' ↦ ∃ items,
      items.rows = s.db.items.rows ++ [item] ∧ s'.db = { s.db with items := items } := by
  unfold Journal.insertThreadItem
  simp only [post_bind, post_read, post_require, post_attempt]
  intro _ j hj
  obtain ⟨items, hitems, rfl⟩ := Option.map_eq_some_iff.mp hj
  exact ⟨items, Table.rows_of_insert? hitems, rfl⟩

theorem seedItem_post (threadId : String) (now : Time) (row : HistoryMessage × ℕ)
    (s : Session Journal World) :
    Post (seedItem threadId now row) s fun _ s' ↦ ∃ item items, SeedRow threadId row item ∧
      items.rows = s.db.items.rows ++ [item] ∧ s'.db = { s.db with items := items } := by
  unfold seedItem
  rw [post_bind]
  refine post_newId fun id w ↦ ?_
  refine (insertThreadItem_post _ _).mono ?_
  rintro _ s' ⟨items, hrows, hdb⟩
  exact ⟨_, items, ⟨rfl, rfl, rfl, rfl, rfl, rfl, rfl⟩, hrows, hdb⟩

theorem seedItems_post (threadId : String) (now : Time) (rows : List (HistoryMessage × ℕ))
    (s : Session Journal World) :
    Post (forM rows (seedItem threadId now)) s fun _ s' ↦ ∃ added items,
      List.Forall₂ (SeedRow threadId) rows added ∧ items.rows = s.db.items.rows ++ added ∧
        s'.db = { s.db with items := items } := by
  induction rows generalizing s with
  | nil => exact (post_pure _).mpr ⟨[], s.db.items, .nil, by simp, rfl⟩
  | cons row rows ih =>
      rw [List.forM_cons, post_bind]
      refine (seedItem_post threadId now row s).mono ?_
      rintro _ s₁ ⟨item, items₁, hrow, hrows₁, hdb₁⟩
      refine (ih s₁).mono ?_
      rintro _ s₂ ⟨added, items₂, hadded, hrows₂, hdb₂⟩
      refine ⟨item :: added, items₂, .cons hrow hadded, ?_, ?_⟩
      · rw [hrows₂, hdb₁, hrows₁, List.append_assoc, List.singleton_append]
      · rw [hdb₂, hdb₁]

theorem openNewThread_post (c : RunCommand) (busy : Bool) (threadId : String) (now : Time)
    (s : Session Journal World) :
    Post (openNewThread c threadId now) s fun thread s' ↦
      thread.threadId = threadId ∧ Opened c busy threadId s.db thread s'.db := by
  unfold openNewThread Journal.insertThread
  simp only [post_bind, post_require, post_attempt, post_pure]
  intro hreplace j hj
  obtain ⟨threads, hthreads, rfl⟩ := Option.map_eq_some_iff.mp hj
  refine (seedItems_post threadId now _ _).mono ?_
  rintro _ s' ⟨added, items, hadded, hrows, hdb⟩
  refine ⟨trivial, ?_⟩
  rw [hdb]
  exact .new (Option.isNone_iff_eq_none.mp hreplace) rfl rfl rfl hthreads hrows hadded

theorem turnBasePosition_post (c : RunCommand) (live : List ThreadItem)
    (s : Session Journal World) :
    Post (turnBasePosition c live) s fun base s' ↦ c.TurnsAfter live base ∧ s'.db = s.db := by
  unfold turnBasePosition
  split
  · rename_i clientId hreplace
    rw [post_bind, post_getOr]
    intro target htarget
    rw [post_pure]
    refine ⟨.inl ⟨target, List.mem_of_find?_eq_some htarget, ?_, rfl⟩, rfl⟩
    have hfound := List.find?_some htarget
    simp only [Bool.and_eq_true, decide_eq_true_eq] at hfound
    exact ⟨hfound.2, by rw [hfound.1, hreplace], by rw [hreplace]; rfl⟩
  · rename_i hreplace
    exact (post_pure _).mpr ⟨.inr ⟨hreplace, rfl⟩, rfl⟩

theorem continueThread_post (c : RunCommand) (busy : Bool) {threadId : String} {thread : Thread}
    (now : Time) (s : Session Journal World) (hfind : s.db.threads.find? threadId = some thread) :
    Post (continueThread c busy thread now) s fun thread s' ↦
      thread.threadId = threadId ∧ Opened c busy threadId s.db thread s'.db := by
  obtain rfl : thread.id = threadId := Table.key_of_find? hfind
  unfold continueThread Journal.updateThreads
  simp only [post_bind, post_require, post_read]
  rintro ⟨howner, _⟩ _ _ hbusy
  refine (turnBasePosition_post c _ s).mono ?_
  rintro base s₁ ⟨hbase, hdb⟩
  rw [post_write, post_pure, hdb]
  exact ⟨rfl, .next _ hfind howner hbusy hbase fun _ ↦ ⟨rfl, rfl⟩⟩

theorem openThread_post (c : RunCommand) (threadId : String) (now : Time)
    (s : Session Database World) :
    Post (openThread c threadId now) s fun thread s' ↦ ∃ journal,
      thread.threadId = threadId ∧
      Opened c (threadBusy s.db c.principalId threadId) threadId s.db.journal thread journal ∧
      s'.db = { s.db with journal := journal } := by
  unfold openThread onJournal
  rw [post_bind, post_read, post_bind, post_read]
  split
  · rw [post_bind, post_read, post_zoom]
    refine (openNewThread_post c (threadBusy s.db c.principalId threadId) threadId now _).mono ?_
    rintro thread s' ⟨hid, hopened⟩
    exact ⟨s'.db, hid, hopened, rfl⟩
  · rename_i thread hthread
    rw [post_bind, post_require]
    intro _
    rw [post_bind, post_read, post_zoom]
    refine (continueThread_post c (threadBusy s.db c.principalId threadId) now _ hthread).mono ?_
    rintro thread s' ⟨hid, hopened⟩
    exact ⟨s'.db, hid, hopened, rfl⟩

/-! ## Writing the turn -/

structure Wrote (c : RunCommand) (runId : String) (thread : TurnThread) (j j' : Journal) :
    Prop where
  threads : j'.threads = j.threads
  events : j'.events = j.events
  items : ∃ now user assistant,
    TurnRow thread.threadId runId "user_message" (thread.basePosition + 1) user ∧
    TurnRow thread.threadId runId "assistant_message" (thread.basePosition + 2) assistant ∧
    j'.items.rows = (j.items.rows.map fun i ↦
      if c.replaceFromClientId.isSome && i.after thread.threadId thread.basePosition then
        i.supersede runId now else i) ++ [user, assistant]
  changes : ∃ row : ThreadChange, row.cursor = j.changes.length + 1 ∧
    row.principalId = c.principalId ∧ row.threadId = thread.threadId ∧
    row.threadVersion = thread.version ∧ j'.changes = j.changes ++ [row]

theorem insertTurnItems_post (c : RunCommand) (runId assistantItemId : String)
    (thread : TurnThread) (metadata : Json) (now : Time) (s : Session Journal World) :
    Post (insertTurnItems c runId assistantItemId thread metadata now) s fun _ s' ↦
      ∃ user assistant items,
        TurnRow thread.threadId runId "user_message" (thread.basePosition + 1) user ∧
        TurnRow thread.threadId runId "assistant_message" (thread.basePosition + 2) assistant ∧
        items.rows = s.db.items.rows ++ [user, assistant] ∧
        s'.db = { s.db with items := items } := by
  unfold insertTurnItems
  rw [post_bind]
  refine post_newId fun id w ↦ ?_
  rw [post_bind]
  refine (insertThreadItem_post _ _).mono ?_
  rintro _ s₁ ⟨items₁, hrows₁, hdb₁⟩
  refine (insertThreadItem_post _ _).mono ?_
  rintro _ s₂ ⟨items₂, hrows₂, hdb₂⟩
  rw [hdb₁] at hrows₂ hdb₂
  simp only [hrows₁, List.append_assoc, List.cons_append, List.nil_append] at hrows₂
  exact ⟨_, _, items₂, ⟨rfl, rfl, rfl, rfl, rfl, rfl⟩, ⟨rfl, rfl, rfl, rfl, rfl, rfl⟩, hrows₂,
    hdb₂⟩

theorem writeTurn_post (c : RunCommand) (runId assistantItemId : String) (thread : TurnThread)
    (metadata : Json) (now : Time) (s : Session Journal World) :
    Post (writeTurn c runId assistantItemId thread metadata now) s fun _ s' ↦
      Wrote c runId thread s.db s'.db := by
  unfold writeTurn Journal.insertThreadChange
  have hrest : ∀ s₁ : Session Journal World, s₁.db.threads = s.db.threads →
      s₁.db.events = s.db.events → s₁.db.changes = s.db.changes →
      s₁.db.items.rows = (s.db.items.rows.map fun i ↦
        if c.replaceFromClientId.isSome && i.after thread.threadId thread.basePosition then
          i.supersede runId now else i) →
      Post (insertTurnItems c runId assistantItemId thread metadata now) s₁ fun _ s₂ ↦
        Wrote c runId thread s.db { s₂.db with changes := s₂.db.changes ++
          [⟨s₂.db.changes.length + 1, c.principalId, thread.threadId, thread.version,
            if c.replaceFromClientId.isSome then "thread.rewritten" else "turn.started",
            some runId, now⟩] } := by
    intro s₁ hthreads hevents hchanges hitems
    refine (insertTurnItems_post c runId assistantItemId thread metadata now s₁).mono ?_
    rintro _ s₂ ⟨user, assistant, items, huser, hassistant, hrows, hdb⟩
    rw [hdb]
    refine ⟨hthreads, hevents, ⟨now, user, assistant, huser, hassistant, ?_⟩, ?_⟩
    · rw [hrows, hitems]
    · exact ⟨⟨s.db.changes.length + 1, _, _, _, _, _, _⟩, rfl, rfl, rfl, rfl, by rw [hchanges]⟩
  rw [post_bind, post_when]
  constructor
  · intro hreplace
    unfold supersedeItems Journal.updateItems
    rw [post_write, post_bind]
    refine Post.mono (hrest _ ?_ ?_ ?_ ?_) fun _ _ h ↦ (post_write _).mpr h
    · rfl
    · rfl
    · rfl
    · simp only [Table.update, hreplace, Bool.true_and]
      rfl
  · intro hreplace
    rw [post_bind]
    refine Post.mono (hrest s rfl rfl rfl ?_) fun _ _ h ↦ (post_write _).mpr h
    simp [hreplace]

/-! ## Accepting the command -/

theorem insertRun_spec (run : Run) (s : Session Database World) :
    Post (insertRun run) s fun _ s' ↦ ∃ runs, s.db.runs.insert? run = some runs ∧
      (∀ r ∈ s.db.runs.rows, r.spawnOperationId.isSome = true →
        r.spawnOperationId ≠ run.spawnOperationId) ∧ s'.db = { s.db with runs := runs } := by
  unfold insertRun
  simp only [post_bind, post_read, post_require, post_attempt]
  intro hspawned db hdb
  obtain ⟨runs, hruns, rfl⟩ := Option.map_eq_some_iff.mp hdb
  refine ⟨runs, hruns, ?_, rfl⟩
  intro r hr hsome hsame
  have hnone := List.any_eq_false.mp hspawned r hr
  rw [hsome] at hnone
  simp [hsame] at hnone

theorem insert?_of_insertRun {run : Run} {db db' : Database} (h : Effect (insertRun run) db db') :
    db.runs.insert? run = some db'.runs := by
  refine h.post (Q := fun db' ↦ db.runs.insert? run = some db'.runs) fun w ↦ ?_
  refine (insertRun_spec run ⟨db, w⟩).mono ?_
  rintro _ s ⟨runs, hruns, _, hdb⟩
  rw [hdb]
  exact hruns

theorem insertRunJob_spec (job : Job) (s : Session Database World) :
    Post (insertRunJob job) s fun _ s' ↦ ∃ jobs, s.db.jobs.insert? job = some jobs ∧
      s'.db = { s.db with jobs := jobs } := by
  unfold insertRunJob requireRunRow
  simp only [post_bind, post_read, post_require, post_attempt]
  intro _ _ db hdb
  obtain ⟨jobs, hjobs, rfl⟩ := Option.map_eq_some_iff.mp hdb
  exact ⟨jobs, hjobs, rfl⟩

/-- A command that is new has started a run with its turn and its job. -/
structure Started (c : RunCommand) (run : Run) (db db' : Database) : Prop where
  turn : ∃ thread journal rootRunId assistantItemId,
    run.RecordOf (runCommandRecord c rootRunId thread assistantItemId) ∧
    Opened c (threadBusy db c.principalId thread.threadId) thread.threadId db.journal thread
      journal ∧
    Wrote c run.id thread journal db'.journal
  inserted : db.runs.insert? run = some db'.runs
  job : ∃ job : Job, job.RecordOf run.id .start none ∧ db.jobs.insert? job = some db'.jobs

theorem createCommandedRun_post (c : RunCommand) (rootRunId : Option String)
    (bindings : List PluginBinding) (s : Session Database World) :
    Post (createCommandedRun c rootRunId bindings) s fun run s' ↦ Started c run s.db s'.db := by
  unfold createCommandedRun
  rw [post_bind]
  refine post_readOnly (keeps_productThread _) fun threadId w₁ ↦ ?_
  rw [post_bind]
  refine post_utcNow fun now w₂ ↦ ?_
  rw [post_bind]
  refine (openThread_post c threadId now _).mono ?_
  rintro thread s₃ ⟨journal, rfl, hopened, hdb₃⟩
  rw [post_bind]
  refine post_readOnly (keeps_assistantItem _) fun assistantItemId w₄ ↦ ?_
  rw [post_bind]
  refine newRunRecord_post fun run w₅ hrecord ↦ ?_
  rw [post_bind]
  refine (insertRun_spec run _).mono ?_
  rintro _ s₆ ⟨runs, hruns, _, hdb₆⟩
  unfold insertRunInputs insertRunPluginBindings onJournal
  simp only [post_bind, post_require, post_write, post_read, post_zoom]
  intro _ _
  refine (writeTurn_post c run.id assistantItemId thread _ now _).mono ?_
  rintro _ s₇ hwrote
  refine newRunJobRecord_post fun job w₈ hjob ↦ ?_
  refine (insertRunJob_spec job _).mono ?_
  rintro _ s₉ ⟨jobs, hjobs, hdb₉⟩
  unfold insertCommand
  rw [post_attempt]
  intro db hdb
  obtain ⟨commands, _, rfl⟩ := Option.map_eq_some_iff.mp hdb
  rw [post_pure, hdb₉]
  rw [hdb₃] at hruns hdb₆
  rw [hdb₆] at hwrote hjobs
  rw [hdb₆]
  exact ⟨⟨thread, journal, rootRunId, assistantItemId, hrecord, hopened, hwrote⟩, hruns,
    ⟨job, hjob, hjobs⟩⟩

/-- A command is a repetition and changes nothing, or it starts a run. -/
theorem acceptRunCommand_post (c : RunCommand) (s : Session Database World) :
    Post (acceptRunCommand c) s fun _ s' ↦ s'.db = s.db ∨ ∃ run, Started c run s.db s'.db := by
  unfold acceptRunCommand
  rw [post_bind]
  refine post_readOnly (keeps_acceptedRunForCommand _ _ _) fun existing w ↦ ?_
  split
  · exact (post_pure _).mpr (.inl rfl)
  · rw [post_bind]
    refine post_readOnly (keeps_requireRunCommandWorkspace _) fun _ w₁ ↦ ?_
    rw [post_bind]
    refine post_readOnly (keeps_admittedRootRunId _) fun rootRunId w₂ ↦ ?_
    rw [post_bind]
    refine post_readOnly (keeps_resolveRunPluginBindings _ _ _ _) fun bindings w₃ ↦ ?_
    rw [post_bind]
    refine (createCommandedRun_post c rootRunId bindings _).mono fun run s' hstarted ↦ ?_
    exact (post_pure _).mpr (.inr ⟨run, hstarted⟩)

end ShejaneRuntime.Store
