import ShejaneRuntime.Store.Frames

/-!
# How the journal grows

Outside a turn the journal changes in three ways: an event is appended, the
assistant item of a run is brought up to date, and a thread takes its next
version with the change row that records it. Every journal function but
those of a turn is a chain of these.
-/

namespace ShejaneRuntime.Store

open Lib Lib.Txn

variable {α : Type}

/-- An item without what the events of its run change. -/
def ThreadItem.placed (i : ThreadItem) : ThreadItem :=
  { i with status := "", content := "", eventHighWatermark := 0, version := 0, updatedAt := 0,
           completedAt := none }

/-- The number of events in the log of a run. -/
def Journal.logged (j : Journal) (runId : String) : ℕ := (j.events.ofRun runId).length

/-- The run that the lifecycle of a child is projected to. -/
def parentRun (db : Database) (runId : String) : Option String :=
  ((db.runs.find? runId).filter fun r ↦ r.runKind = .child).bind fun r ↦ nonEmpty r.parentRunId

namespace Journal

inductive Grows : Journal → Journal → Prop
  | event {j : Journal} {events : EventLog} {e : Event} :
      events.rows = j.events.rows ++ [e] → Grows j { j with events := events }
  | item {j : Journal} {itemId runId : String} {f : ThreadItem → ThreadItem}
      (hf : ∀ i, (f i).id = i.id) :
      (∀ i, (f i).placed = i.placed) →
      (∀ i, i.eventHighWatermark ≤ j.logged runId →
        i.eventHighWatermark ≤ (f i).eventHighWatermark ∧
          (f i).eventHighWatermark ≤ j.logged runId) →
      Grows j { j with items := j.items.update (fun i ↦ i.id = itemId && i.runId = some runId) f hf }
  | thread {j : Journal} {thread : Thread} {f : Thread → Thread} {changeType : String}
      {runId : Option String} {now : Time} (hf : ∀ t, (f t).id = t.id) :
      j.threads.find? thread.id = some thread →
      (∀ t, (f t).principalId = t.principalId ∧ (f t).version = thread.version + 1) →
      Grows j { j with
        threads := j.threads.update (fun t ↦ t.id = thread.id) f hf
        changes := j.changes ++ [⟨j.changes.length + 1, thread.principalId, thread.id,
          thread.version + 1, changeType, runId, now⟩] }

/-- Any number of changes. -/
abbrev Grown : Journal → Journal → Prop := Relation.ReflTransGen Grows

theorem logged_append {j : Journal} {events : EventLog} {e : Event}
    (h : events.rows = j.events.rows ++ [e]) (runId : String) :
    logged { j with events := events } runId =
      j.logged runId + if e.runId = runId then 1 else 0 := by
  unfold logged EventLog.ofRun
  by_cases hrun : e.runId = runId <;> simp [h, List.filter_append, hrun]

/-- An event that is appended gets the next number of its run. -/
theorem insertEvent_spec (db : Database) (runId eventType : String) (payloadJson : Json)
    (createdAt : Time) (s : Session Journal World) :
    Post (insertEvent db runId eventType payloadJson createdAt) s fun e s' ↦ ∃ events,
      events.rows = s.db.events.rows ++ [e] ∧ s'.db = { s.db with events := events } ∧
        IsEvent runId eventType payloadJson e ∧ e.seq = s'.db.logged runId := by
  unfold insertEvent newId
  simp only [post_bind, post_draw, post_require, post_read, post_attempt, post_pure]
  intro _ j hj
  obtain ⟨events, hevents, rfl⟩ := Option.map_eq_some_iff.mp hj
  have hrows := EventLog.rows_of_append? hevents
  refine ⟨events, hrows, rfl, ⟨rfl, rfl, rfl⟩, ?_⟩
  rw [logged_append hrows]
  simp [EventLog.next, EventLog.maxSeq_eq_length, logged]

/-! ## The functions of the journal -/

theorem advance_grown {s : Session Journal World} {thread : Thread} {f : Thread → Thread}
    {hf : ∀ t, (f t).id = t.id} {changeType : String} {runId : Option String} {now : Time}
    (hfind : s.db.threads.find? thread.id = some thread)
    (hversion : ∀ t, (f t).principalId = t.principalId ∧ (f t).version = thread.version + 1) :
    Post (do
      updateThreads (fun t ↦ t.id = thread.id) f hf
      insertThreadChange thread.principalId thread.id (thread.version + 1) changeType runId now) s
      fun _ s' ↦ Grown s.db s'.db := by
  unfold updateThreads insertThreadChange
  rw [post_bind, post_write, post_write]
  exact .single (.thread hf hfind hversion)

theorem bumpThread_grown (run : Run) (runId threadId : String) (retitle : String → String)
    (changeType : String) (changedAt : Time) :
    Keeps Grown (bumpThread run runId threadId retitle changeType changedAt) := by
  intro s
  unfold bumpThread
  rw [post_bind, post_read, post_bind, post_getOr]
  intro thread hthread
  obtain ⟨hfind, hprincipal⟩ := Option.filter_eq_some_iff.mp hthread
  obtain rfl : thread.id = threadId := Table.key_of_find? hfind
  have howner : run.principalId = thread.principalId := by simpa [eq_comm] using hprincipal
  rw [howner]
  exact advance_grown hfind fun t ↦ ⟨rfl, rfl⟩

/-- An update of the assistant item of a run keeps its watermark between what
it was and the end of the log. -/
theorem bumpAssistantItem_grown {runId itemId : String} {f : ThreadItem → ThreadItem}
    {hf : ∀ i, (f i).id = i.id} {s : Session Journal World} (hplaced : ∀ i, (f i).placed = i.placed)
    (hwatermark : ∀ i, i.eventHighWatermark ≤ s.db.logged runId →
      i.eventHighWatermark ≤ (f i).eventHighWatermark ∧
        (f i).eventHighWatermark ≤ s.db.logged runId) :
    Post (bumpAssistantItem runId itemId f hf) s fun _ s' ↦ Grown s.db s'.db := by
  unfold bumpAssistantItem updateItems
  rw [post_bind, post_read, post_bind, post_write, post_require]
  exact fun _ ↦ .single (.item hf hplaced hwatermark)

theorem touchThreadForRunEvent_grown {db : Database} {runId changeType : String}
    {eventHighWatermark : ℕ} {changedAt : Time} {s : Session Journal World}
    (hseq : eventHighWatermark ≤ s.db.logged runId) :
    Post (touchThreadForRunEvent db runId changeType eventHighWatermark changedAt) s
      fun _ s' ↦ Grown s.db s'.db := by
  unfold touchThreadForRunEvent
  split
  · exact (post_pure _).mpr .refl
  · split
    · rw [post_bind]
      refine Post.mono (bumpAssistantItem_grown ?_ ?_) fun _ s₁ h₁ ↦
        (bumpThread_grown _ _ _ _ _ _ s₁).mono fun _ _ h₂ ↦ h₁.trans h₂
      · exact fun _ ↦ rfl
      · exact fun i hi ↦ ⟨le_max_left _ _, max_le hi hseq⟩
    · exact (post_pure _).mpr .refl

theorem updateThreadProjection_grown {db : Database} {runId : String} {runStatus : RunStatus}
    {changeType : String} {payload : Json} {eventHighWatermark : ℕ} {changedAt : Time}
    {s : Session Journal World} (hseq : eventHighWatermark = s.db.logged runId) :
    Post (updateThreadProjection db runId runStatus changeType payload eventHighWatermark
      changedAt) s fun _ s' ↦ Grown s.db s'.db := by
  unfold updateThreadProjection
  split
  · exact (post_pure _).mpr .refl
  · split
    · rw [post_bind, post_getOr]
      intro itemStatus _
      rw [post_bind]
      refine Post.mono (bumpAssistantItem_grown ?_ ?_) fun _ s₁ h₁ ↦
        (bumpThread_grown _ _ _ _ _ _ s₁).mono fun _ _ h₂ ↦ h₁.trans h₂
      · exact fun _ ↦ rfl
      · exact fun i hi ↦ ⟨hseq ▸ hi, le_of_eq hseq⟩
    · exact (post_pure _).mpr .refl

theorem Grows.logged_le {j j' : Journal} (h : Grows j j') (runId : String) :
    j.logged runId ≤ j'.logged runId := by
  cases h with
  | event hrows =>
      rw [logged_append hrows]
      omega
  | item => exact le_refl _
  | thread => exact le_refl _

theorem Grown.logged_le {j j' : Journal} (h : Grown j j') (runId : String) :
    j.logged runId ≤ j'.logged runId := by
  induction h with
  | refl => exact le_refl _
  | tail _ hstep ih => exact ih.trans (hstep.logged_le runId)

/-- The lifecycle of a child makes no log longer but that of the parent. -/
theorem appendChildParentLifecycle_grown (db : Database) (childRunId : String) (source : Event)
    (sourcePayload : Json) (s : Session Journal World) :
    Post (appendChildParentLifecycle db childRunId source sourcePayload) s fun _ s' ↦
      Grown s.db s'.db ∧ ∀ runId, parentRun db childRunId ≠ some runId →
        s'.db.logged runId = s.db.logged runId := by
  unfold appendChildParentLifecycle
  split
  · exact (post_pure _).mpr ⟨.refl, fun _ _ ↦ rfl⟩
  · rename_i child hchild
    split
    · rename_i parentRunId parentEventType _ hparent _
      rw [post_bind]
      refine (insertEvent_spec _ _ _ _ _ _).mono ?_
      rintro e s₁ ⟨events, hrows, hdb₁, hevent, hseq⟩
      rw [post_bind]
      refine ((touchThreadForRunEvent_grown (le_of_eq hseq)).and
        (touchThreadForRunEvent_eventless _ _ _ _ _ s₁)).mono ?_
      rintro _ s₂ ⟨hgrown, hsame⟩
      rw [post_pure]
      have hfirst : Grows s.db s₁.db := hdb₁ ▸ .event hrows
      refine ⟨hgrown.head hfirst, ?_⟩
      intro runId hne
      have hother : ¬e.runId = runId := by
        rintro rfl
        apply hne
        simp [parentRun, hchild, hparent, hevent.1]
      unfold logged at *
      rw [hsame, hdb₁]
      have := logged_append hrows runId
      simpa [logged, hother] using this
    · exact (post_pure _).mpr ⟨.refl, fun _ _ ↦ rfl⟩

/-- Appending an event; it is the last of its run unless the run is its own parent. -/
theorem appendEvent_grown (db : Database) (runId eventType : String) (payloadJson : Json)
    (createdAt : Time) (s : Session Journal World) :
    Post (appendEvent db runId eventType payloadJson createdAt) s fun r s' ↦
      Grown s.db s'.db ∧ r.1.seq ≤ s'.db.logged runId ∧
        (parentRun db runId ≠ some runId → r.1.seq = s'.db.logged runId) := by
  unfold appendEvent projectToParent
  rw [post_bind]
  refine (insertEvent_spec _ _ _ _ _ _).mono ?_
  rintro e s₁ ⟨events, hrows, hdb₁, _, hseq⟩
  have hfirst : Grows s.db s₁.db := hdb₁ ▸ .event hrows
  rw [post_bind, post_ite]
  constructor
  · intro _
    refine (appendChildParentLifecycle_grown db runId e _ s₁).mono ?_
    rintro parentEvent s₂ ⟨hgrown, hlogged⟩
    rw [post_pure]
    refine ⟨hgrown.head hfirst, ?_, fun hne ↦ ?_⟩
    · rw [hseq]
      exact hgrown.logged_le runId
    · rw [hseq, hlogged runId hne]
  · intro _
    rw [post_pure, post_pure]
    exact ⟨.single hfirst, le_of_eq hseq, fun _ ↦ hseq⟩

theorem appendSubagentReceiptEvent_grown (db : Database) (receipt : ToolReceipt) :
    Keeps Grown (appendSubagentReceiptEvent db receipt) := by
  refine .ite (fun s ↦ ?_) (.pure _)
  rw [post_bind]
  refine (appendEvent_grown _ _ _ _ _ s).mono ?_
  rintro ⟨e, _⟩ s₁ ⟨hgrown, hseq, _⟩
  exact (touchThreadForRunEvent_grown hseq).mono fun _ _ h ↦ hgrown.trans h

end Journal

/-! ## Writes of the store -/

/-- The journal grew, or is the same. -/
def JournalGrown (db db' : Database) : Prop := Journal.Grown db.journal db'.journal

instance : Std.Refl JournalGrown := ⟨fun _ ↦ .refl⟩

instance : IsTrans Database JournalGrown := ⟨fun _ _ _ h h' ↦ h.trans h'⟩

/-- No run is projected to itself. -/
def Descends (db : Database) : Prop := ∀ runId, parentRun db runId ≠ some runId

theorem onJournal_grown {m : Database → JournalTxn α} (h : ∀ db, Keeps Journal.Grown (m db)) :
    Keeps JournalGrown (onJournal m) :=
  .bind (.read _) fun db ↦ .zoom (h db) fun _ _ hj ↦ hj

theorem appendEventUncommitted_grown (runId eventType : String) (payloadJson : Json)
    (createdAt : Time) :
    Keeps JournalGrown (appendEventUncommitted runId eventType payloadJson createdAt) :=
  onJournal_grown fun _ s ↦ (Journal.appendEvent_grown _ _ _ _ _ s).mono fun _ _ h ↦ h.1

theorem reportEvent_grown (runId eventType : String) (payloadJson : Json) (at' : Time) :
    Keeps JournalGrown (reportEvent runId eventType payloadJson at') := by
  intro s
  unfold reportEvent appendEventUncommitted touchThreadForRunEventUncommitted onJournal
  simp only [post_bind, post_read, post_zoom, post_pure]
  refine (Journal.appendEvent_grown _ _ _ _ _ _).mono ?_
  rintro ⟨e, _⟩ s₁ ⟨hgrown, hseq, _⟩
  exact (Journal.touchThreadForRunEvent_grown hseq).mono fun _ _ h ↦ hgrown.trans h

theorem publishEvent_grown (runId : String) (status : RunStatus) (eventType : String)
    (payloadJson payload : Json) (at' : Time) {s : Session Database World}
    (hdescends : Descends s.db) :
    Post (publishEvent runId status eventType payloadJson payload at') s fun _ s' ↦
      JournalGrown s.db s'.db := by
  unfold publishEvent appendEventUncommitted updateThreadProjectionUncommitted onJournal
  simp only [post_bind, post_read, post_zoom, post_pure]
  refine (Journal.appendEvent_grown _ _ _ _ _ _).mono ?_
  rintro ⟨e, _⟩ s₁ ⟨hgrown, _, hseq⟩
  exact (Journal.updateThreadProjection_grown (hseq (hdescends runId))).mono fun _ _ h ↦
    hgrown.trans h

theorem JournalGrown.of_within {parts : List Part} {db db' : Database} (h : Within parts db db')
    (hparts : Part.journal ∉ parts) : JournalGrown db db' := by
  unfold JournalGrown
  rw [show db'.journal = db.journal from h .journal hparts]

/-- Every write but that of a turn lets the journal grow. -/
theorem Write.journalGrown {k : Kind} {db db' : Database} (h : Write k db db') (hk : k ≠ .turn)
    (hdescends : k = .lifecycle → Descends db) : JournalGrown db db' := by
  by_cases hparts : Part.journal ∉ k.parts
  · exact .of_within h.within hparts
  cases h with
  | event _ h => exact h.relates (appendEventUncommitted_grown _ _ _ _)
  | report _ h => exact h.relates (reportEvent_grown _ _ _ _)
  | subagent h =>
      exact h.relates (onJournal_grown fun _ ↦ Journal.appendSubagentReceiptEvent_grown _ _)
  | lifecycle _ h => exact h.relates (appendEventUncommitted_grown _ _ _ _)
  | publish _ h => exact h.post fun w ↦ publishEvent_grown _ _ _ _ _ _ (hdescends rfl)
  | turn journal _ => exact absurd rfl hk
  | thread hfind hprincipal h =>
      refine h.post fun w ↦ ?_
      unfold onJournal
      rw [post_bind, post_read, post_zoom]
      exact Journal.advance_grown hfind fun t ↦ ⟨hprincipal t, rfl⟩
  | _ => exact absurd (by simp [Kind.parts]) hparts

/-! ### Which run is projected where -/

namespace Run

variable {r r' : Run}

theorem id_of_fixed (h : r'.fixed = r.fixed) : r'.id = r.id := by
  have hid : r'.fixed.id = r.fixed.id := by rw [h]
  exact hid

theorem runKind_of_fixed (h : r'.fixed = r.fixed) : r'.runKind = r.runKind := by
  have hkind : r'.fixed.runKind = r.fixed.runKind := by rw [h]
  exact hkind

theorem parentRunId_of_fixed (h : r'.fixed = r.fixed) : r'.parentRunId = r.parentRunId := by
  have hparent : r'.fixed.parentRunId = r.fixed.parentRunId := by rw [h]
  exact hparent

end Run

theorem find?_map_fixed {rows : List Run} {g : Run → Run} (hg : ∀ r ∈ rows, (g r).fixed = r.fixed)
    (runId : String) :
    ((rows.map g).find? fun r ↦ decide (r.id = runId)).map Run.fixed =
      (rows.find? fun r ↦ decide (r.id = runId)).map Run.fixed := by
  induction rows with
  | nil => rfl
  | cons r rows ih =>
      have hr : (g r).fixed = r.fixed := hg r (by simp)
      have hid : (g r).id = r.id := Run.id_of_fixed hr
      have hrest := ih fun r' hr' ↦ hg r' (by simp [hr'])
      rw [List.map_cons, List.find?_cons, List.find?_cons, hid]
      split
      · exact congrArg some hr
      · exact hrest

theorem parentRun_of_fixed {db db' : Database} {runId : String}
    (h : (db'.runs.find? runId).map Run.fixed = (db.runs.find? runId).map Run.fixed) :
    parentRun db' runId = parentRun db runId := by
  unfold parentRun
  cases hrun : db.runs.find? runId with
  | none =>
      rw [hrun, Option.map_none, Option.map_eq_none_iff] at h
      rw [h]
  | some r =>
      rw [hrun, Option.map_some, Option.map_eq_some_iff] at h
      obtain ⟨r', hr', hfixed⟩ := h
      have hkind := Run.runKind_of_fixed hfixed
      have hparent := Run.parentRunId_of_fixed hfixed
      simp only [hr', Option.filter_some, hkind]
      split <;> simp [hparent]

/-- What a run is, but for what its execution changes. -/
def SameRuns (db db' : Database) : Prop :=
  ∀ runId, (db'.runs.find? runId).map Run.fixed = (db.runs.find? runId).map Run.fixed

instance : Std.Refl SameRuns := ⟨fun _ _ ↦ rfl⟩

instance : IsTrans Database SameRuns := ⟨fun _ _ _ h h' runId ↦ (h' runId).trans (h runId)⟩

theorem SameRuns.parentRun {db db' : Database} (h : SameRuns db db') :
    Store.parentRun db' = Store.parentRun db :=
  funext fun runId ↦ parentRun_of_fixed (h runId)

theorem Write.sameRuns {k : Kind} {db db' : Database} (h : Write k db db') (hk : k ≠ .newRun) :
    SameRuns db db' := by
  by_cases hparts : Part.runs ∉ k.parts
  · intro runId
    rw [show db'.runs = db.runs from h.within .runs hparts]
  cases h with
  | runs hfixed =>
      intro runId
      refine find?_map_fixed (fun r hr ↦ ?_) runId
      split
      · exact (hfixed r hr ‹_›).1
      · rfl
  | heads hhead =>
      intro runId
      refine find?_map_fixed (fun r hr ↦ ?_) runId
      split
      · rw [hhead r hr ‹_›]
        rfl
      · rfl
  | newRun h _ => exact absurd rfl hk
  | _ => exact absurd (by simp [Kind.parts]) hparts

theorem Does.sameRuns {kinds : List Kind} {m : StoreTxn α} (h : Does kinds m)
    (hkinds : Kind.newRun ∉ kinds) : Keeps SameRuns m :=
  Keeps.mono h fun _ _ hdb ↦ hdb.relates fun _ hk _ _ hw ↦
    hw.sameRuns fun hc ↦ hkinds (hc ▸ hk)

/-- Chains of writes that start no turn let the journal grow, when they start
no run either or report no status. -/
theorem Writing.journalGrown {kinds : List Kind} {db db' : Database} (h : Writing kinds db db')
    (hturn : Kind.turn ∉ kinds)
    (hkinds : Kind.lifecycle ∉ kinds ∨ Kind.newRun ∉ kinds ∧ Descends db) :
    JournalGrown db db' := by
  have hne : ∀ k ∈ kinds, k ≠ .turn := fun k hk hc ↦ hturn (hc ▸ hk)
  rcases hkinds with hlife | ⟨hrun, hdescends⟩
  · exact h.relates fun k hk _ _ hw ↦ hw.journalGrown (hne k hk) fun hc ↦ absurd (hc ▸ hk) hlife
  · refine Trace.relates_of (P := Descends) (fun _ ↦ .refl) (fun _ _ _ h h' ↦ h.trans h') ?_ h
      hdescends
    intro k hk s s' hw hs
    have hsame := (hw.sameRuns fun hc ↦ hrun (hc ▸ hk)).parentRun
    refine ⟨?_, hw.journalGrown (hne k hk) fun _ ↦ hs⟩
    unfold Descends at *
    rwa [hsame]

end ShejaneRuntime.Store
