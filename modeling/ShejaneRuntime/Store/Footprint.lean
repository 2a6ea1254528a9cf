import ShejaneRuntime.Store.Children
import ShejaneRuntime.Store.ModelCalls
import ShejaneRuntime.Store.RunCommands
import ShejaneRuntime.Store.WaitCommands

/-!
# Footprints

What each function of the store may write. The database is cut into parts,
and `Within parts` relates two databases that agree on every other part.
The lifecycle events of the runs count as a part of their own, since most
functions append events without ever reporting a change of status.
-/

namespace ShejaneRuntime.Store

open Lib Lib.Txn

theorem option_any_iff {α : Type} {o : Option α} {p : α → Bool} :
    o.any p = true ↔ ∃ a, o = some a ∧ p a = true := by
  cases o <;> simp

inductive Part where
  | workspaces | runs | jobs | commands | journal | lifecycle | ledger | waits | collaboration
  | plugins | content | mailbox
  deriving DecidableEq

/-- The lifecycle events of a run, oldest first. -/
def Journal.lifecycle (j : Journal) (runId : String) : List Event :=
  (j.events.ofRun runId).filter fun e ↦ isLifecycleEvent e.eventType

def Part.Same (db db' : Database) : Part → Prop
  | .workspaces => db'.workspaces = db.workspaces
  | .runs => db'.runs = db.runs
  | .jobs => db'.jobs = db.jobs
  | .commands => db'.commands = db.commands
  | .journal => db'.journal = db.journal
  | .lifecycle => db'.journal.lifecycle = db.journal.lifecycle
  | .ledger => db'.ledger = db.ledger
  | .waits => db'.waits = db.waits
  | .collaboration => db'.collaboration = db.collaboration
  | .plugins => db'.plugins = db.plugins
  | .content => db'.content = db.content
  | .mailbox => db'.mailbox = db.mailbox

/-- Nothing outside some parts differs. -/
def Within (parts : List Part) (db db' : Database) : Prop := ∀ p, p ∉ parts → p.Same db db'

namespace Within

variable {parts parts' : List Part} {db db' : Database}

theorem refl (parts : List Part) (db : Database) : Within parts db db := by
  intro p _
  cases p <;> rfl

instance : Std.Refl (Within parts) := ⟨refl parts⟩

instance : IsTrans Database (Within parts) := ⟨by
  intro db₁ db₂ db₃ h h' p hp
  have h₁ := h p hp
  have h₂ := h' p hp
  cases p <;> exact Eq.trans h₂ h₁⟩

theorem widen (h : Within parts db db') (hsub : parts ⊆ parts') : Within parts' db db' :=
  fun p hp ↦ h p fun hc ↦ hp (hsub hc)

/-- A part outside the footprint is the same. -/
theorem same (h : Within parts db db') (p : Part) (hp : p ∉ parts) : p.Same db db' :=
  h p hp

section Parts

variable (db : Database)

theorem runs (t : Table Run.id) : Within [.runs] db { db with runs := t } := by
  intro p hp
  cases p <;> first | rfl | simp at hp

theorem jobs (t : Table Job.id) : Within [.jobs] db { db with jobs := t } := by
  intro p hp
  cases p <;> first | rfl | simp at hp

theorem commands (t : Table Command.key) : Within [.commands] db { db with commands := t } := by
  intro p hp
  cases p <;> first | rfl | simp at hp

theorem ledger (l : Ledger) : Within [.ledger] db { db with ledger := l } := by
  intro p hp
  cases p <;> first | rfl | simp at hp

theorem waits (w : Waits) : Within [.waits] db { db with waits := w } := by
  intro p hp
  cases p <;> first | rfl | simp at hp

theorem collaboration (c : Collaboration) :
    Within [.collaboration] db { db with collaboration := c } := by
  intro p hp
  cases p <;> first | rfl | simp at hp

theorem plugins (ps : Plugins) : Within [.plugins] db { db with plugins := ps } := by
  intro p hp
  cases p <;> first | rfl | simp at hp

theorem content (c : Content) : Within [.content] db { db with content := c } := by
  intro p hp
  cases p <;> first | rfl | simp at hp

theorem mailbox (t : Table AgentMessage.id) : Within [.mailbox] db { db with mailbox := t } := by
  intro p hp
  cases p <;> first | rfl | simp at hp

theorem journal {j : Journal} (h : j.lifecycle = db.journal.lifecycle) :
    Within [.journal] db { db with journal := j } := by
  intro p hp
  cases p <;> first | rfl | exact h | simp at hp

theorem lifecycle (j : Journal) : Within [.journal, .lifecycle] db { db with journal := j } := by
  intro p hp
  cases p <;> first | rfl | simp at hp

end Parts

end Within

variable {α : Type} {parts parts' : List Part}

/-- The footprint of a transaction. -/
abbrev Writes (parts : List Part) (m : StoreTxn α) : Prop := Keeps (Within parts) m

theorem Writes.widen {m : StoreTxn α} (h : Writes parts m)
    (hsub : parts ⊆ parts') : Writes parts' m :=
  Keeps.mono h fun _ _ hdb ↦ hdb.widen hsub

theorem Within.eq_of_nil {db db' : Database} (h : Within [] db db') : db' = db := by
  have hall : ∀ p : Part, p.Same db db' := fun p ↦ h p (by simp)
  cases db
  cases db'
  have h₁ := hall .workspaces
  have h₂ := hall .runs
  have h₃ := hall .jobs
  have h₄ := hall .commands
  have h₅ := hall .journal
  have h₆ := hall .ledger
  have h₇ := hall .waits
  have h₈ := hall .collaboration
  have h₉ := hall .plugins
  have h₁₀ := hall .content
  have h₁₁ := hall .mailbox
  simp only [Part.Same] at *
  subst h₁ h₂ h₃ h₄ h₅ h₆ h₇ h₈ h₉ h₁₀ h₁₁
  rfl

/-- A transaction that writes nothing leaves the database to what follows. -/
theorem post_readOnly {m : StoreTxn α} (h : Writes [] m) {s : Session Database World}
    {Q : α → Session Database World → Prop} (hQ : ∀ a w, Q a ⟨s.db, w⟩) : Post m s Q := by
  refine (h s).mono ?_
  rintro a ⟨db, w⟩ hdb
  cases hdb.eq_of_nil
  exact hQ a w

/-! ## Sessions -/

section Session

variable {σ : Type} {R : σ → σ → Prop}

theorem keeps_utcNow [Std.Refl R] : Keeps R (utcNow (σ := σ)) := Keeps.draw _

theorem keeps_newId [Std.Refl R] (pre : String) : Keeps R (newId (σ := σ) pre) := Keeps.draw _

/-- Whatever the clock says. -/
theorem post_utcNow {s : Session σ World} {Q : Time → Session σ World → Prop}
    (h : ∀ t w, Q t ⟨s.db, w⟩) : Post utcNow s Q :=
  (post_draw _).mpr (h _ _)

/-- Whatever identifier comes up. -/
theorem post_newId {s : Session σ World} {pre : String} {Q : String → Session σ World → Prop}
    (h : ∀ id w, Q id ⟨s.db, w⟩) : Post (newId pre) s Q :=
  (post_draw _).mpr (h _ _)

end Session

section Database

variable {R : Database → Database → Prop} [Std.Refl R]

theorem keeps_workspacePathError (path : Option String) : Keeps R (workspacePathError path) :=
  Keeps.draw _

theorem keeps_findRun (runId : String) : Keeps R (findRun runId) := Keeps.read _

theorem keeps_refuseWorkspace (first second : Option String) :
    Keeps R (refuseWorkspace first second) := by
  unfold refuseWorkspace
  split
  · exact .fail _
  · exact .pure ()

variable [IsTrans Database R]

theorem keeps_requireLease (runId : String) (lease : Option ExecutionLease) :
    Keeps R (requireLease runId lease) := by
  cases lease with
  | none => exact .pure ()
  | some held =>
      refine .bind (.require _ _) fun _ ↦ .bind keeps_utcNow fun _ ↦ ?_
      exact .bind (.read _) fun _ ↦ .require _ _

/-- A fenced transaction does what its body does. -/
theorem keeps_runWriteTransaction {runId : String} {lease : Option ExecutionLease}
    {body : StoreTxn α} (h : Keeps R body) : Keeps R (runWriteTransaction runId lease body) :=
  .bind (keeps_requireLease runId lease) fun _ ↦ h

theorem keeps_requireRunRow (runId : String) : Keeps R (requireRunRow runId) :=
  .bind (.read _) fun _ ↦ .require _ _

theorem keeps_requireWorkspace (principalId : String) (path : Option String) :
    Keeps R (requireWorkspace principalId path) :=
  .bind (.read _) fun _ ↦ .bind (keeps_workspacePathError path) fun _ ↦
    keeps_refuseWorkspace _ _

end Database

/-! ## Fences -/

/-- The fence of a transaction held: the job of the lease was leased to it. -/
def Fenced (db : Database) (runId : String) (lease : Option ExecutionLease) : Prop :=
  ∀ held, lease = some held → held.runId = runId ∧
    ∃ fenceAt, ∃ job ∈ db.jobs.rows, job.admits held fenceAt = true

theorem post_requireLease {s : Session Database World} {runId : String}
    {lease : Option ExecutionLease} {Q : Unit → Session Database World → Prop}
    (h : ∀ w, Fenced s.db runId lease → Q () ⟨s.db, w⟩) : Post (requireLease runId lease) s Q := by
  cases lease with
  | none => exact (post_pure _).mpr (h s.world fun _ hnone ↦ by cases hnone)
  | some held =>
      unfold requireLease
      rw [post_bind, post_require]
      intro hrun
      rw [post_bind]
      refine post_utcNow fun fenceAt w ↦ ?_
      rw [post_bind, post_read, post_require]
      intro hheld
      obtain ⟨job, hjob, hadmits⟩ := List.any_eq_true.mp hheld
      apply h w
      rintro _ ⟨⟩
      exact ⟨hrun, fenceAt, job, hjob, hadmits⟩

theorem post_runWriteTransaction {s : Session Database World} {runId : String}
    {lease : Option ExecutionLease} {body : StoreTxn α} {Q : α → Session Database World → Prop}
    (h : ∀ w, Fenced s.db runId lease → Post body ⟨s.db, w⟩ Q) :
    Post (runWriteTransaction runId lease body) s Q := by
  unfold runWriteTransaction
  rw [post_bind]
  exact post_requireLease h

/-! ## Rows -/

section Rows

theorem keeps_insert {R : Database → Database → Prop} {τ : Type} {f : Database → Option τ}
    {put : Database → τ → Database} {e : StoreError} (h : ∀ db t, R db (put db t)) :
    Keeps R (Txn.attempt (fun db ↦ (f db).map fun t ↦ put db t) e : StoreTxn Unit) := by
  refine .attempt fun db db' hdb ↦ ?_
  obtain ⟨t, _, rfl⟩ := Option.map_eq_some_iff.mp hdb
  exact h db t

theorem insertRun_writes (run : Run) : Writes [.runs] (insertRun run) :=
  .bind (.read _) fun _ ↦ .bind (.require _ _) fun _ ↦ keeps_insert fun db t ↦ .runs db t

theorem insertRunJob_writes (job : Job) : Writes [.jobs] (insertRunJob job) :=
  .bind (keeps_requireRunRow _) fun _ ↦ .bind (.read _) fun _ ↦ .bind (.require _ _) fun _ ↦
    keeps_insert fun db t ↦ .jobs db t

theorem insertCommand_writes (command : Command) : Writes [.commands] (insertCommand command) :=
  keeps_insert fun db t ↦ .commands db t

/-- An insertion into a table of the waits that a clash forbids. -/
theorem insertWait_writes {τ : Type} {f : Database → Option τ} {put : Database → τ → Waits}
    {runId : String} {clash : Database → Bool} {e e' : StoreError} :
    Writes [.waits] (do
      requireRunRow runId
      let clash ← Txn.read clash
      Txn.require (clash = false) e
      Txn.attempt (fun db ↦ (f db).map fun t ↦ { db with waits := put db t }) e') :=
  .bind (keeps_requireRunRow _) fun _ ↦ .bind (.read _) fun _ ↦ .bind (.require _ _) fun _ ↦
    keeps_insert fun db t ↦ .waits db (put db t)

theorem insertPermission_writes (permission : Permission) :
    Writes [.waits] (insertPermission permission) := insertWait_writes

theorem insertWaitCandidate_writes (candidate : WaitCandidate) :
    Writes [.waits] (insertWaitCandidate candidate) := insertWait_writes

theorem insertQuestion_writes (question : Question) :
    Writes [.waits] (insertQuestion question) := insertWait_writes

theorem insertPlanApproval_writes (plan : PlanApproval) :
    Writes [.waits] (insertPlanApproval plan) := insertWait_writes

theorem insertGrantUse_writes (use : GrantUse) : Writes [.waits] (insertGrantUse use) :=
  keeps_insert fun db _ ↦ .waits db _

theorem insertToolReceipt_writes (receipt : ToolReceipt) :
    Writes [.ledger] (insertToolReceipt receipt) :=
  .bind (keeps_requireRunRow _) fun _ ↦ .bind (.read _) fun _ ↦ .bind (.require _ _) fun _ ↦
    keeps_insert fun db _ ↦ .ledger db _

theorem insertModelCall_writes (call : ModelCall) : Writes [.ledger] (insertModelCall call) :=
  .bind (keeps_requireRunRow _) fun _ ↦ .bind (.read _) fun _ ↦ .bind (.require _ _) fun _ ↦
    keeps_insert fun db _ ↦ .ledger db _

theorem updateJobs_writes (p : Job → Bool) (f : Job → Job) (hf : ∀ j, (f j).id = j.id) :
    Writes [.jobs] (updateJobs p f hf) := .write fun db ↦ .jobs db _

theorem updateToolReceipts_writes (p : ToolReceipt → Bool) (f : ToolReceipt → ToolReceipt)
    (hf : ∀ r, (f r).operationId = r.operationId) : Writes [.ledger] (updateToolReceipts p f hf) :=
  .write fun db ↦ .ledger db _

theorem updateToolReceiptsCounted_writes (p : ToolReceipt → Bool) (f : ToolReceipt → ToolReceipt)
    (hf : ∀ r, (f r).operationId = r.operationId) :
    Writes [.ledger] (updateToolReceiptsCounted p f hf) :=
  .bind (.read _) fun _ ↦ .bind (updateToolReceipts_writes p f hf) fun _ ↦ .pure _

theorem updateSandboxProcesses_writes (p : SandboxProcess → Bool)
    (f : SandboxProcess → SandboxProcess) (hf : ∀ s, (f s).id = s.id) :
    Writes [.ledger] (updateSandboxProcesses p f hf) := .write fun db ↦ .ledger db _

end Rows

/-! ## The journal -/

/-- A journal transaction reports no change of status. -/
abbrev Quiet (m : JournalTxn α) : Prop := Preserves Journal.lifecycle m

/-- A journal transaction appends no event. -/
abbrev Eventless (m : JournalTxn α) : Prop := Preserves Journal.events m

theorem Eventless.quiet {m : JournalTxn α} (h : Eventless m) : Quiet m :=
  Preserves.of h fun j j' hj ↦ by unfold Journal.lifecycle; rw [hj]

namespace Journal

theorem eventless_insert {τ : Type} {f : Journal → Option τ} {put : Journal → τ → Journal}
    {e : StoreError} (h : ∀ j t, (put j t).events = j.events) :
    Eventless (Txn.attempt (fun j ↦ (f j).map fun t ↦ put j t) e) := by
  refine .attempt fun j j' hj ↦ ?_
  obtain ⟨t, _, rfl⟩ := Option.map_eq_some_iff.mp hj
  exact h j t

theorem insertThread_eventless (thread : Thread) : Eventless (insertThread thread) :=
  eventless_insert fun _ _ ↦ rfl

theorem insertThreadItem_eventless (item : ThreadItem) : Eventless (insertThreadItem item) :=
  .bind (.read _) fun _ ↦ .bind (.require _ _) fun _ ↦ eventless_insert fun _ _ ↦ rfl

theorem insertThreadChange_eventless (principalId threadId : String) (threadVersion : ℕ)
    (changeType : String) (runId : Option String) (createdAt : Time) :
    Eventless (insertThreadChange principalId threadId threadVersion changeType runId createdAt) :=
  .write fun _ ↦ rfl

theorem updateThreads_eventless (p : Thread → Bool) (f : Thread → Thread)
    (hf : ∀ t, (f t).id = t.id) : Eventless (updateThreads p f hf) := .write fun _ ↦ rfl

theorem updateItems_eventless (p : ThreadItem → Bool) (f : ThreadItem → ThreadItem)
    (hf : ∀ i, (f i).id = i.id) : Eventless (updateItems p f hf) := .write fun _ ↦ rfl

theorem bumpThread_eventless (run : Run) (runId threadId : String) (retitle : String → String)
    (changeType : String) (changedAt : Time) :
    Eventless (bumpThread run runId threadId retitle changeType changedAt) :=
  .bind (.read _) fun _ ↦ .bind (.getOr _ _) fun _ ↦ .bind (updateThreads_eventless _ _ _) fun _ ↦
    insertThreadChange_eventless _ _ _ _ _ _

theorem bumpAssistantItem_eventless (runId itemId : String) (f : ThreadItem → ThreadItem)
    (hf : ∀ i, (f i).id = i.id) : Eventless (bumpAssistantItem runId itemId f hf) :=
  .bind (.read _) fun _ ↦ .bind (updateItems_eventless _ _ _) fun _ ↦ .require _ _

theorem touchThreadForRunEvent_eventless (db : Database) (runId changeType : String)
    (eventHighWatermark : ℕ) (changedAt : Time) :
    Eventless (touchThreadForRunEvent db runId changeType eventHighWatermark changedAt) := by
  unfold touchThreadForRunEvent
  split
  · exact .pure ()
  · split
    · exact .bind (bumpAssistantItem_eventless _ _ _ _) fun _ ↦ bumpThread_eventless _ _ _ _ _ _
    · exact .pure ()

theorem updateThreadProjection_eventless (db : Database) (runId : String) (runStatus : RunStatus)
    (changeType : String) (payload : Json) (eventHighWatermark : ℕ) (changedAt : Time) :
    Eventless (updateThreadProjection db runId runStatus changeType payload eventHighWatermark
      changedAt) := by
  unfold updateThreadProjection
  split
  · exact .pure ()
  · split
    · exact .bind (.getOr _ _) fun _ ↦ .bind (bumpAssistantItem_eventless _ _ _ _) fun _ ↦
        bumpThread_eventless _ _ _ _ _ _
    · exact .pure ()

/-- The log of one run, when an event is appended to the log of another or the same. -/
theorem lifecycle_append {j : Journal} {events : EventLog} {e : Event}
    (h : events.rows = j.events.rows ++ [e]) :
    lifecycle { j with events := events } = if isLifecycleEvent e.eventType then
      Function.update j.lifecycle e.runId (j.lifecycle e.runId ++ [e]) else j.lifecycle := by
  funext runId
  unfold lifecycle EventLog.ofRun
  simp only [h, List.filter_append]
  by_cases hrun : e.runId = runId
  · subst hrun
    by_cases hlife : isLifecycleEvent e.eventType = true <;> simp [hlife]
  · have hrun' : runId ≠ e.runId := fun hc ↦ hrun hc.symm
    split <;> simp [hrun, hrun']

/-- An event as it was asked for. -/
def IsEvent (runId eventType : String) (payloadJson : Json) (e : Event) : Prop :=
  e.runId = runId ∧ e.eventType = eventType ∧ e.payloadJson = payloadJson

theorem insertEvent_post (db : Database) (runId eventType : String) (payloadJson : Json)
    (createdAt : Time) (s : Session Journal World) :
    Post (insertEvent db runId eventType payloadJson createdAt) s fun e s' ↦
      IsEvent runId eventType payloadJson e ∧
        s'.db.lifecycle = if isLifecycleEvent eventType then
          Function.update s.db.lifecycle runId (s.db.lifecycle runId ++ [e])
          else s.db.lifecycle := by
  unfold insertEvent newId
  simp only [post_bind, post_draw, post_require, post_read, post_attempt, post_pure]
  intro _ j hj
  obtain ⟨events, hevents, rfl⟩ := Option.map_eq_some_iff.mp hj
  exact ⟨⟨rfl, rfl, rfl⟩, lifecycle_append (EventLog.rows_of_append? hevents)⟩

theorem insertEvent_quiet (db : Database) (runId eventType : String) (payloadJson : Json)
    (createdAt : Time) (h : isLifecycleEvent eventType = false) :
    Quiet (insertEvent db runId eventType payloadJson createdAt) := by
  intro s
  refine (insertEvent_post db runId eventType payloadJson createdAt s).mono ?_
  rintro e s' ⟨_, hlife⟩
  simpa [h] using hlife

/-- What a parent is told of its child is no lifecycle event of the parent. -/
theorem isLifecycleEvent_childEvent {eventType childEvent : String} {status : Option RunStatus}
    (h : childEventByRunEvent.lookup eventType = some (childEvent, status)) :
    isLifecycleEvent childEvent = false := by
  have hall : ∀ row ∈ childEventByRunEvent, isLifecycleEvent row.2.1 = false := by decide
  have hmem : (eventType, childEvent, status) ∈ childEventByRunEvent := by
    obtain ⟨l₁, l₂, hsplit, _⟩ := List.lookup_eq_some_iff.mp h
    rw [hsplit]
    simp
  exact hall _ hmem

theorem appendChildParentLifecycle_quiet (db : Database) (childRunId : String) (source : Event)
    (sourcePayload : Json) :
    Quiet (appendChildParentLifecycle db childRunId source sourcePayload) := by
  unfold appendChildParentLifecycle
  split
  · exact .pure _
  · split
    · rename_i hlookup
      have hquiet := isLifecycleEvent_childEvent hlookup
      exact .bind (insertEvent_quiet _ _ _ _ _ hquiet) fun _ ↦
        .bind ((touchThreadForRunEvent_eventless _ _ _ _ _).quiet) fun _ ↦ .pure _
    · exact .pure _

/-- Appending an event reports a change of status exactly when the event is
one of the lifecycle. -/
theorem appendEvent_post (db : Database) (runId eventType : String) (payloadJson : Json)
    (createdAt : Time) (s : Session Journal World) :
    Post (appendEvent db runId eventType payloadJson createdAt) s fun r s' ↦
      IsEvent runId eventType payloadJson r.1 ∧
        s'.db.lifecycle = if isLifecycleEvent eventType then
          Function.update s.db.lifecycle runId (s.db.lifecycle runId ++ [r.1])
          else s.db.lifecycle := by
  have htail : ∀ e, Quiet (projectToParent db runId eventType e payloadJson) :=
    fun e ↦ .ite (appendChildParentLifecycle_quiet _ _ _ _) (.pure _)
  unfold appendEvent
  rw [post_bind]
  refine (insertEvent_post db runId eventType payloadJson createdAt s).mono ?_
  rintro e s' ⟨hevent, hlife⟩
  rw [post_bind]
  refine (htail e s').mono ?_
  intro parentEvent s'' hsame
  rw [post_pure]
  exact ⟨hevent, hsame.trans hlife⟩

theorem appendEvent_quiet (db : Database) (runId eventType : String) (payloadJson : Json)
    (createdAt : Time) (h : isLifecycleEvent eventType = false) :
    Quiet (appendEvent db runId eventType payloadJson createdAt) := by
  intro s
  refine (appendEvent_post db runId eventType payloadJson createdAt s).mono ?_
  rintro r s' ⟨_, hlife⟩
  simpa [h] using hlife

theorem appendSubagentReceiptEvent_quiet (db : Database) (receipt : ToolReceipt) :
    Quiet (appendSubagentReceiptEvent db receipt) := by
  have hevent : isLifecycleEvent (subagentEventByReceiptStatus receipt.status).1 = false := by
    cases receipt.status <;> decide
  refine .ite ?_ (.pure _)
  exact .bind (appendEvent_quiet _ _ _ _ _ hevent) fun _ ↦ 
    (touchThreadForRunEvent_eventless _ _ _ _ _).quiet

end Journal

end ShejaneRuntime.Store
