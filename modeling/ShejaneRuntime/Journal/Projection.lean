import ShejaneRuntime.Collaboration.Admission
import ShejaneRuntime.Journal.Growth
import ShejaneRuntime.Lockstep.Reachable

/-!
# The lifecycle of a child in the log of its parent

Every lifecycle event of a child that a transaction appends is followed by
one event in the log of the parent that names the child and the event it
projects, and by no other. A child that comes to wait or to an end reports
it by exactly one event, so the parent is told exactly once.
-/

namespace ShejaneRuntime.Store

open Lib Lib.Txn Lockstep

/-- The events that tell a parent of the lifecycle of a child. -/
def isChildEvent (eventType : String) : Bool :=
  childEventByRunEvent.any fun row ↦ row.2.1 = eventType

def Event.isLifecycleOf (runId : String) (e : Event) : Bool :=
  e.runId = runId && isLifecycleEvent e.eventType

/-- The event tells a parent of the lifecycle of this child. -/
def Event.tellsOf (parentRunId childRunId : String) (e : Event) : Bool :=
  e.runId = parentRunId && isChildEvent e.eventType &&
    e.payloadJson.get? "child_run_id" = some (.str childRunId)

/-- The event of a parent that projects an event of its child. -/
structure Projects (source e : Event) : Prop where
  eventType : (childEventByRunEvent.lookup source.eventType).map Prod.fst = some e.eventType
  sourceEvent : e.payloadJson.get? "source_event_id" = some (.str source.id)

theorem not_childEvent_of_lifecycle {eventType : String} (h : isLifecycleEvent eventType = true) :
    isChildEvent eventType = false := by
  rw [Bool.eq_false_iff]
  intro hchild
  obtain ⟨row, hrow, hevent⟩ := List.any_eq_true.mp hchild
  have hall : ∀ row ∈ childEventByRunEvent, isLifecycleEvent row.2.1 = false := by decide
  rw [decide_eq_true_eq] at hevent
  rw [← hevent, hall row hrow] at h
  cases h

/-! ## The payload of a projection -/

namespace Journal

theorem childLifecyclePayload_get? (child : Run) (parentRunId status : String) (source : Event)
    (sourcePayload : Json) :
    (encodePayload (childLifecyclePayload child parentRunId status source sourcePayload)).get?
        "child_run_id" = some (.str child.id) ∧
      (encodePayload (childLifecyclePayload child parentRunId status source sourcePayload)).get?
        "source_event_id" = some (.str source.id) := by
  have hresults : ∀ key, key ∉ projectedResultKeys →
      (projectedResultKeys.filterMap fun key ↦
        (sourcePayload.get? key).map fun value ↦ (key, value)).filter
          (fun p ↦ p.1 == key) = [] := by
    intro key hkey
    rw [List.filter_eq_nil_iff]
    rintro ⟨key', value⟩ hmem hsame
    obtain ⟨key'', hkey'', hvalue⟩ := List.mem_filterMap.mp hmem
    obtain ⟨_, _, hpair⟩ := Option.map_eq_some_iff.mp hvalue
    cases hpair
    rw [beq_iff_eq] at hsame
    exact hkey (hsame ▸ hkey'')
  unfold encodePayload childLifecyclePayload
  constructor
  · rw [Json.get?_sorted]
    · simp [Json.get?, Json.sorted]
    · simp only [List.filter_append, List.length_append, hresults "child_run_id" (by decide)]
      split <;> simp
  · rw [Json.get?_sorted]
    · simp [Json.get?, Json.sorted]
    · simp only [List.filter_append, List.length_append, hresults "source_event_id" (by decide)]
      split <;> simp

end Journal

/-! ## Appending an event -/

/-- The events that appending one event appends. -/
inductive Appended (db : Database) (runId eventType : String) (e : Event) : List Event → Prop
  | alone : isLifecycleEvent eventType = false ∨ parentRun db runId = none →
      Appended db runId eventType e [e]
  | projected {parentRunId : String} {e' : Event} : isLifecycleEvent eventType = true →
      parentRun db runId = some parentRunId → Event.tellsOf parentRunId runId e' = true →
      Projects e e' → Appended db runId eventType e [e, e']

namespace Journal

theorem appendChildParentLifecycle_appends {db : Database} {childRunId : String} {source : Event}
    (sourcePayload : Json) (hlife : isLifecycleEvent source.eventType = true)
    (s : Session Journal World) :
    Post (appendChildParentLifecycle db childRunId source sourcePayload) s fun _ s' ↦
      (parentRun db childRunId = none ∧ s'.db.events.rows = s.db.events.rows) ∨
        ∃ parentRunId e, parentRun db childRunId = some parentRunId ∧
          Event.tellsOf parentRunId childRunId e = true ∧ Projects source e ∧
          s'.db.events.rows = s.db.events.rows ++ [e] := by
  unfold appendChildParentLifecycle
  split
  · rename_i hnone
    exact (post_pure _).mpr (.inl ⟨by simp [parentRun, hnone], rfl⟩)
  · rename_i child hchild
    have hid : child.id = childRunId := by
      rw [Option.filter_eq_some_iff] at hchild
      exact Table.key_of_find? hchild.1
    split
    · rename_i parentRunId parentEventType fixedStatus hparent hlookup
      rw [post_bind]
      refine (insertEvent_spec _ _ _ _ _ _).mono ?_
      rintro e s₁ ⟨events, hrows, hdb₁, ⟨hrun, htype, hpayload⟩, hseq⟩
      rw [post_bind]
      refine (touchThreadForRunEvent_eventless _ _ _ _ _ s₁).mono ?_
      intro _ s₂ hsame
      rw [post_pure]
      have hget := childLifecyclePayload_get? child parentRunId
        (fixedStatus.getD child.status).text source sourcePayload
      refine .inr ⟨parentRunId, e, by simp [parentRun, hchild, hparent], ?_, ⟨?_, ?_⟩, ?_⟩
      · have hmem : isChildEvent parentEventType = true := by
          obtain ⟨l₁, l₂, hsplit, _⟩ := List.lookup_eq_some_iff.mp hlookup
          refine List.any_eq_true.mpr ⟨(source.eventType, parentEventType, fixedStatus), ?_, ?_⟩
          · rw [hsplit]
            simp
          · simp
        simp [Event.tellsOf, hrun, htype, hmem, hpayload, hget.1, hid]
      · rw [hlookup, htype]
        rfl
      · rw [hpayload, hget.2]
      · rw [hsame, hdb₁, hrows]
    · rename_i hnot
      refine (post_pure _).mpr ?_
      obtain ⟨row, hrow⟩ := Option.isSome_iff_exists.mp hlife
      cases hparent : nonEmpty child.parentRunId with
      | none => exact .inl ⟨by simp [parentRun, hchild, hparent], rfl⟩
      | some p => exact absurd hrow (hnot p row.1 row.2 hparent)

theorem appendEvent_appends (db : Database) (runId eventType : String) (payloadJson : Json)
    (createdAt : Time) (s : Session Journal World) :
    Post (appendEvent db runId eventType payloadJson createdAt) s fun r s' ↦
      IsEvent runId eventType payloadJson r.1 ∧ ∃ added,
        Appended db runId eventType r.1 added ∧
          s'.db.events.rows = s.db.events.rows ++ added := by
  unfold appendEvent projectToParent
  rw [post_bind]
  refine (insertEvent_spec _ _ _ _ _ _).mono ?_
  rintro e s₁ ⟨events, hrows, hdb₁, hevent, _⟩
  rw [post_bind, post_ite]
  constructor
  · intro hlife
    refine (appendChildParentLifecycle_appends _ (hevent.2.1 ▸ hlife) s₁).mono ?_
    rintro parentEvent s₂ (⟨hnone, hsame⟩ | ⟨p, e', hparent, htells, hprojects, hadded⟩)
    · rw [post_pure]
      exact ⟨hevent, _, .alone (.inr hnone), by rw [hsame, hdb₁, hrows]⟩
    · rw [post_pure]
      exact ⟨hevent, _, .projected hlife hparent htells hprojects, by rw [hadded, hdb₁, hrows]; simp⟩
  · intro hlife
    rw [post_pure, post_pure]
    exact ⟨hevent, _, .alone (.inl (by simpa using hlife)), by rw [hdb₁, hrows]⟩

end Journal

/-! ## Mirrored logs -/

/-- The events appended mirror the lifecycle of every child in the log of its
parent. -/
def Mirrors (parent : String → Option String) (j j' : Journal) : Prop :=
  ∃ added, j'.events.rows = j.events.rows ++ added ∧ ∀ child p, parent child = some p →
    List.Forall₂ Projects (added.filter (Event.isLifecycleOf child))
      (added.filter (Event.tellsOf p child))

namespace Mirrors

variable {parent : String → Option String} {j j' j'' : Journal}

theorem of_events (h : j'.events = j.events) : Mirrors parent j j' :=
  ⟨[], by rw [h, List.append_nil], fun _ _ _ ↦ .nil⟩

theorem trans (h : Mirrors parent j j') (h' : Mirrors parent j' j'') : Mirrors parent j j'' := by
  obtain ⟨added, hrows, hadded⟩ := h
  obtain ⟨added', hrows', hadded'⟩ := h'
  refine ⟨added ++ added', by rw [hrows', hrows, List.append_assoc], fun child p hparent ↦ ?_⟩
  rw [List.filter_append, List.filter_append]
  exact List.rel_append (hadded child p hparent) (hadded' child p hparent)

/-- One event, with its projection if there is one. -/
theorem of_appended {db : Database} {runId eventType : String} {payloadJson : Json} {e : Event}
    {added : List Event} (hevent : Journal.IsEvent runId eventType payloadJson e)
    (htype : isLifecycleEvent eventType = true ∨ isChildEvent eventType = false)
    (h : Appended db runId eventType e added)
    (hrows : j'.events.rows = j.events.rows ++ added) : Mirrors (parentRun db) j j' := by
  obtain ⟨rfl, rfl, -⟩ := hevent
  refine ⟨added, hrows, fun child p hparent ↦ ?_⟩
  have hsource : isChildEvent e.eventType = false :=
    htype.elim not_childEvent_of_lifecycle id
  cases h with
  | alone halone =>
      have hnot : e.isLifecycleOf child = false := by
        rw [Bool.eq_false_iff]
        intro hc
        simp only [Event.isLifecycleOf, Bool.and_eq_true, decide_eq_true_eq] at hc
        rcases halone with hlife | hnone
        · simp [hlife] at hc
        · rw [hc.1, hparent] at hnone
          cases hnone
      simp [hnot, Event.tellsOf, hsource]
  | @projected parentRunId e' hlife hrun htells hprojects =>
      have hnot : ∀ run, e.tellsOf p run = false := fun run ↦ by simp [Event.tellsOf, hsource]
      simp only [Event.tellsOf, Bool.and_eq_true, decide_eq_true_eq] at htells
      have hproj : e'.isLifecycleOf child = false := by
        rw [Bool.eq_false_iff]
        intro hc
        simp only [Event.isLifecycleOf, Bool.and_eq_true] at hc
        have hchild := not_childEvent_of_lifecycle hc.2
        rw [htells.1.2] at hchild
        cases hchild
      by_cases hc : e.runId = child
      · subst hc
        rw [hparent] at hrun
        cases hrun
        have hfirst : e.isLifecycleOf e.runId = true := by simp [Event.isLifecycleOf, hlife]
        have hsecond : e'.tellsOf p e.runId = true := by simp [Event.tellsOf, htells]
        simp only [List.filter_cons, hfirst, hproj, hnot, hsecond, if_true, Bool.false_eq_true,
          if_false, List.filter_nil]
        exact .cons hprojects .nil
      · have hfirst : e.isLifecycleOf child = false := by simp [Event.isLifecycleOf, hc]
        have hsecond : e'.tellsOf p child = false := by
          simp [Event.tellsOf, htells.2, hc]
        simp [hfirst, hproj, hnot, hsecond]

end Mirrors

/-- The log of every parent mirrors what the transaction reports of its children. -/
def Mirrored (db db' : Database) : Prop := Mirrors (parentRun db) db.journal db'.journal

theorem appendEventUncommitted_mirrors {runId eventType : String} {payloadJson : Json}
    {createdAt : Time} (h : isLifecycleEvent eventType = true ∨ isChildEvent eventType = false) :
    Keeps Mirrored (appendEventUncommitted runId eventType payloadJson createdAt) := by
  intro s
  unfold appendEventUncommitted onJournal
  rw [post_bind, post_read, post_zoom]
  refine (Journal.appendEvent_appends _ _ _ _ _ _).mono ?_
  rintro r s' ⟨hevent, added, happended, hrows⟩
  exact .of_appended hevent h happended hrows

theorem appendSubagentReceiptEventUncommitted_mirrors (receipt : ToolReceipt) :
    Keeps Mirrored (appendSubagentReceiptEventUncommitted receipt) := by
  intro s
  unfold appendSubagentReceiptEventUncommitted onJournal Journal.appendSubagentReceiptEvent
  rw [post_bind, post_read, post_zoom, post_ite]
  constructor
  · intro _
    rw [post_bind]
    have htype : isChildEvent (subagentEventByReceiptStatus receipt.status).1 = false := by
      cases receipt.status <;> decide
    refine (Journal.appendEvent_appends _ _ _ _ _ _).mono ?_
    rintro ⟨e, parentEvent⟩ s₁ ⟨hevent, added, happended, hrows⟩
    refine (Journal.touchThreadForRunEvent_eventless _ _ _ _ _ s₁).mono ?_
    intro _ s₂ hsame
    have hrows₂ : s₂.db.events.rows = s.db.journal.events.rows ++ added := by
      rw [hsame]
      exact hrows
    exact .of_appended hevent (.inr htype) happended hrows₂
  · intro _
    rw [post_pure]
    exact .of_events rfl

theorem publishEvent_mirrors {runId eventType : String} {status : RunStatus}
    {payloadJson payload : Json} {at' : Time} (h : isLifecycleEvent eventType = true) :
    Keeps Mirrored (publishEvent runId status eventType payloadJson payload at') := by
  intro s
  unfold publishEvent
  rw [post_bind]
  refine (appendEventUncommitted_mirrors (.inl h) s).mono ?_
  rintro ⟨e, parentEvent⟩ s₁ hmirrors
  unfold updateThreadProjectionUncommitted onJournal
  rw [post_bind, post_bind, post_read, post_zoom]
  refine (Journal.updateThreadProjection_eventless _ _ _ _ _ _ _ _).mono ?_
  intro _ s₂ hsame
  rw [post_pure]
  exact hmirrors.trans (.of_events hsame)

/-- The writes that may move a run mirror what they report. -/
theorem Write.mirrors {k : Kind} {db db' : Database} (h : Write k db db')
    (hk : k ∈ Kind.command :: lifecycleKinds) : Mirrored db db' := by
  by_cases hparts : Part.journal ∉ k.parts
  · exact .of_events (by rw [show db'.journal = db.journal from h.within .journal hparts])
  cases h with
  | subagent h => exact h.relates (appendSubagentReceiptEventUncommitted_mirrors _)
  | lifecycle hlife h => exact h.relates (appendEventUncommitted_mirrors (.inl hlife))
  | publish hlife h => exact h.relates (publishEvent_mirrors hlife)
  | event => simp at hk
  | report => simp at hk
  | turn => simp at hk
  | thread => simp at hk
  | _ => exact absurd (by simp [Kind.parts]) hparts

theorem Writing.mirrors {kinds : List Kind} {db db' : Database} (h : Writing kinds db db')
    (hkinds : kinds ⊆ Kind.command :: lifecycleKinds) : Mirrored db db' := by
  refine Trace.relates_of (P := fun db₁ ↦ parentRun db₁ = parentRun db)
    (R := fun db₁ db₂ ↦ Mirrors (parentRun db) db₁.journal db₂.journal)
    (fun _ ↦ .of_events rfl) (fun _ _ _ ↦ Mirrors.trans) ?_ h rfl
  intro k hk s s' hw hs
  have hnew : k ≠ .newRun := by
    rintro rfl
    simpa using hkinds hk
  refine ⟨(hw.sameRuns hnew).parentRun.trans hs, ?_⟩
  rw [← hs]
  exact hw.mirrors (hkinds hk)

/-! ## Transitions of a child -/

theorem StoreOp.after_writing (op : StoreOp) (db : Database) (w : World) :
    Writing op.kinds db (op.after db w) :=
  op.exec_does.commit db w

/-- An operation that may move a run makes no other writes to the journal
than those that mirror. -/
theorem StoreOp.kinds_cases (op : StoreOp) :
    op.kinds ⊆ Kind.command :: lifecycleKinds ∨ Kind.run ∉ op.kinds := by
  cases op with
  | appendEvent lease runId eventType payload =>
      right
      simp only [StoreOp.kinds]
      split <;> simp
  | _ => first
    | left; simp only [StoreOp.kinds]; decide
    | right; simp [StoreOp.kinds]

/-- Without a write to the runs, a run that waits or has ended did so before. -/
theorem Writing.settled {kinds : List Kind} {db db' : Database} (h : Writing kinds db db')
    (hkinds : Kind.run ∉ kinds) {runId : String} {st : RunStatus} (hst : settles st)
    (hrun : (abs db').status runId = some st) : (abs db).status runId = some st := by
  refine Trace.preserves (P := fun db₁ ↦ (abs db₁).status runId = some st →
    (abs db).status runId = some st) ?_ h id hrun
  intro k hk s s' hw ih hs'
  have hne : k ≠ .run := fun hc ↦ hkinds (hc ▸ hk)
  by_cases hparts : Part.runs ∉ k.parts
  · rw [show (abs s').status = (abs s).status by
      simp [abs, show s'.runs = s.runs from hw.within .runs hparts]] at hs'
    exact ih hs'
  by_cases hhead : k = .graphHead
  · subst hhead
    have hstatus := hw.statuses runId
    exact ih (hstatus.symm.trans hs')
  cases hw with
  | runs => exact absurd rfl hne
  | heads => exact absurd rfl hhead
  | newRun h hqueued =>
      obtain ⟨r, hr, rfl⟩ := find?_of_status hs'
      rw [Table.find?_insert? (insert?_of_insertRun h)] at hr
      split at hr
      · cases hr
        rw [hqueued] at hst
        simp [settles, RunStatus.terminal, RunStatus.waiting] at hst
      · exact ih (status_of_find? hr)
  | _ => exact absurd (by simp [Kind.parts]) hparts

theorem Journal.lifecycle_eq_filter (j : Journal) (runId : String) :
    j.lifecycle runId = j.events.rows.filter (Event.isLifecycleOf runId) := by
  unfold Journal.lifecycle EventLog.ofRun
  rw [List.filter_filter]
  exact List.filter_congr fun e _ ↦ Bool.and_comm _ _

/-- A child that comes to wait or to an end reports it once, and its parent is
told by exactly one event. -/
theorem StoreOp.tells_parent {op : StoreOp} {db : Database} (w : World)
    (hlocked : Locked announces (fun _ ↦ True) (abs db)) (hop : op.called) {child : Run}
    (hchild : child ∈ (op.after db w).runs.rows) (hsettles : settles child.status)
    (hmoved : (abs db).status child.id ≠ some child.status) {p : String}
    (hparent : parentRun (op.after db w) child.id = some p) :
    ∃ added source e, (op.after db w).journal.events.rows = db.journal.events.rows ++ added ∧
      added.filter (Event.isLifecycleOf child.id) = [source] ∧
      added.filter (Event.tellsOf p child.id) = [e] ∧ announces source child.status ∧
      Projects source e := by
  have hwriting := op.after_writing db w
  have hstatus : (abs (op.after db w)).status child.id = some child.status :=
    status_of_find? (Table.find?_of_mem hchild)
  rcases op.kinds_cases with hkinds | hkinds
  swap
  · exact absurd (hwriting.settled hkinds hsettles hstatus) hmoved
  have hnew : Kind.newRun ∉ op.kinds := fun hc ↦ by simpa using hkinds hc
  have hsame := ((op.exec_does.sameRuns hnew).commit db w).parentRun
  obtain ⟨added, hrows, hadded⟩ := hwriting.mirrors hkinds
  have hlog : (abs (op.after db w)).log child.id =
      (abs db).log child.id ++ added.filter (Event.isLifecycleOf child.id) := by
    simp only [abs, Journal.lifecycle_eq_filter, hrows, List.filter_append]
  have hreports := (StoreOp.after_reports trivial (fun _ _ ↦ trivial)
    w ⟨hop, fun _ _ _ _ _ _ _ ↦ trivial⟩ : Reports (fun _ ↦ True) db (op.after db w)) hlocked
  have hone : ∃ e, added.filter (Event.isLifecycleOf child.id) = [e] ∧
      announces e child.status := by
    rcases Steps.enters hreports.1 hstatus hsettles with ⟨hsame, _⟩ | ⟨es, e, hes, he⟩
    · exact absurd (hsame ▸ hstatus) hmoved
    · rw [hlog, List.append_assoc, List.append_cancel_left_eq] at hes
      rcases hreports.2 child.id with hnone | ⟨e', he'⟩
      · rw [hlog, List.append_right_eq_self] at hnone
        simp [hnone] at hes
      · rw [hlog, List.append_cancel_left_eq] at he'
        rw [he'] at hes
        obtain ⟨rfl, rfl⟩ : es = [] ∧ e' = e := by
          cases es with
          | nil => simpa using hes
          | cons _ _ => simp at hes
        exact ⟨_, he', he⟩
  obtain ⟨source, hsource, hannounces⟩ := hone
  have hmirror := hadded child.id p (by rw [← congrFun hsame child.id]; exact hparent)
  rw [hsource] at hmirror
  obtain ⟨e, rest, hprojects, hrest, htells⟩ := List.forall₂_cons_left_iff.mp hmirror
  rw [List.forall₂_nil_left_iff] at hrest
  subst hrest
  exact ⟨added, source, e, hrows, hsource, htells, hannounces, hprojects⟩

end ShejaneRuntime.Store
