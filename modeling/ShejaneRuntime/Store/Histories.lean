import Mathlib.Tactic.ByContra
import ShejaneRuntime.Lib.Evolution
import ShejaneRuntime.Agent.CallAttempts
import ShejaneRuntime.Lockstep.Reachable
import ShejaneRuntime.Waiting.Closure

/-!
# Histories of rows

Whatever the Runtime does, in any order, a row keeps what it was created with
and moves on only along the edges of its life: the jobs of the queue, the
messages of the mailbox, the model calls of the ledger and the decisions of the
wait cycles.
-/

namespace ShejaneRuntime.Store

open Lib Lib.Txn

variable {db db' : Database}

/-- What every write relates, every run of the store relates. -/
theorem relates_of_run {R : Database → Database → Prop} (hrefl : ∀ db, R db db)
    (htrans : ∀ db db' db'', R db db' → R db' db'' → R db db'')
    (hwrite : ∀ k db db', Write k db db' → R db db')
    {ok : StoreOp × World → Database → Prop} (h : store.Run ok db db') : R db db' := by
  refine System.Run.relates (P := fun _ ↦ True) hrefl htrans ?_ h trivial
  rintro ⟨op, w⟩ db db' _ _ rfl
  refine ⟨trivial, Trace.relates_of (P := fun _ ↦ True) hrefl htrans ?_ (op.after_writing db w)
    trivial⟩
  intro k _ db db' hw _
  exact ⟨trivial, hwrite k db db' hw⟩

theorem evolves_of_run {κ ρ : Type} {key : ρ → κ} {R : ρ → ρ → Prop} {f : Database → Table key}
    (hrefl : ∀ r, R r r) (htrans : ∀ r r' r'', R r r' → R r' r'' → R r r'')
    (hwrite : ∀ k db db', Write k db db' → (f db).Evolves R (f db'))
    {ok : StoreOp × World → Database → Prop} (h : store.Run ok db db') :
    (f db).Evolves R (f db') :=
  relates_of_run (R := fun db db' ↦ (f db).Evolves R (f db')) (fun db ↦ .refl hrefl (f db))
    (fun _ _ _ h h' ↦ h.trans htrans h') hwrite h

/-! ## A run to look at -/

/-- A worker claims the sample run. -/
theorem run_claimed : store.Run callsWhileWaiting Database.accepted Database.claimed := by
  rw [Database.claimed]
  exact .single (i := (.claimRunJob "worker" 50, .counting 10)) ⟨trivial, by simp⟩ rfl

namespace Recorded

def runId : String := "run_xx"

def lease : ExecutionLease := ⟨"job_xxxxx", runId, "worker", 1⟩

/-- A tool of an attempt is prepared and begun. -/
def begins (lease : ExecutionLease) (toolName operationId : String) : List StoreOp :=
  [.prepareToolReceipt (some lease)
      { operationId := operationId, runId := lease.runId,
        executionAttemptId := lease.executionAttemptId, toolCallId := operationId,
        toolName := toolName, argumentsHash := "hash", argumentsJson := .obj [], risk := "agent" },
    .beginToolReceipt (some lease) operationId lease.runId lease.executionAttemptId]

end Recorded

/-! ## Jobs -/

/-- A later version of a job: what it was enqueued with stays, a job that has
ended stays as it is, none becomes pending again, and an attempt keeps its
owner, its generation and its quarantine. -/
structure Job.Later (j j' : Job) : Prop where
  origin : j'.origin = j.origin
  ended : j.active = false → j' = j
  pending : j'.status = .pending → j' = j
  generation : j.leaseGeneration ≤ j'.leaseGeneration
  held : j.status = .leased → j'.status = .leased →
    j'.leaseOwner = j.leaseOwner ∧ j'.leaseGeneration = j.leaseGeneration ∧
      (j.quarantinedAt.isSome → j'.quarantinedAt.isSome)

theorem Job.Later.refl (j : Job) : j.Later j :=
  ⟨rfl, fun _ ↦ rfl, fun _ ↦ rfl, le_rfl, fun _ _ ↦ ⟨rfl, rfl, fun h ↦ h⟩⟩

theorem Job.leased_of_active {j : Job} (h : j.active = true) (hpending : j.status ≠ .pending) :
    j.status = .leased := by
  simpa [Job.active, hpending] using h

theorem Job.Later.trans (j j' j'' : Job) (h : j.Later j') (h' : j'.Later j'') : j.Later j'' := by
  refine ⟨h'.origin.trans h.origin, ?_, ?_, h.generation.trans h'.generation, ?_⟩
  · intro hended
    obtain rfl := h.ended hended
    exact h'.ended hended
  · intro hpending
    obtain rfl := h'.pending hpending
    exact h.pending hpending
  · intro hleased hleased''
    have hactive : j'.active = true := by
      cases hact : j'.active with
      | true => rfl
      | false =>
          rw [← h'.ended hact] at hact
          simp [Job.active, hleased''] at hact
    have hleased' : j'.status = .leased := by
      refine Job.leased_of_active hactive fun hpending ↦ ?_
      rw [h.pending hpending, hleased] at hpending
      cases hpending
    obtain ⟨howner, hgeneration, hquarantined⟩ := h.held hleased hleased'
    obtain ⟨howner', hgeneration', hquarantined'⟩ := h'.held hleased' hleased''
    exact ⟨howner'.trans howner, hgeneration'.trans hgeneration, hquarantined' ∘ hquarantined⟩

theorem Job.Advances.later {j j' : Job} (h : j.Advances j') : j.Later j' := by
  refine ⟨h.origin, ?_, fun hpending ↦ absurd hpending h.taken, h.generation, h.held⟩
  intro hended
  rw [h.active] at hended
  cases hended

theorem Write.jobsLater (k : Kind) (db db' : Database) (h : Write k db db') :
    db.jobs.Evolves Job.Later db'.jobs := by
  by_cases hparts : Part.jobs ∉ k.parts
  · rw [show db'.jobs = db.jobs from h.within .jobs hparts]
    exact .refl Job.Later.refl db.jobs
  cases h with
  | jobs hadvances =>
      exact Table.evolves_update (by assumption) Job.Later.refl fun j hj hp ↦
        (hadvances j hj hp).later
  | newJob heffect _ =>
      refine heffect.post (Q := fun db' ↦ db.jobs.Evolves Job.Later db'.jobs) fun w ↦ ?_
      unfold insertRunJob requireRunRow
      simp only [post_bind, post_read, post_require, post_attempt]
      intro _ _ db₁ hdb
      obtain ⟨jobs, hjobs, rfl⟩ := Option.map_eq_some_iff.mp hdb
      exact Table.evolves_insert? Job.Later.refl hjobs
  | _ => exact absurd (by simp [Kind.parts]) hparts

/-- In every run of the store each job row goes on as a later version of
itself, and a job that was leased under a generation stays that attempt until
it ends for good. -/
theorem jobs_never_start_over {ok : StoreOp × World → Database → Prop} (h : store.Run ok db db')
    {jobId : String} {j : Job} (hj : db.jobs.find? jobId = some j) :
    ∃ j', db'.jobs.find? jobId = some j' ∧ j.Later j' :=
  (evolves_of_run Job.Later.refl Job.Later.trans Write.jobsLater h).find? hj

theorem jobs_never_start_over_claimed : ∃ j ∈ Database.accepted.jobs.rows,
    ∃ j', Database.claimed.jobs.find? j.id = some j' ∧ j.Later j' := by
  have hsome : Database.accepted.jobs.rows.head?.isSome = true := by decide +kernel
  obtain ⟨j, hj⟩ := Option.isSome_iff_exists.mp hsome
  have hmem := List.mem_of_head? hj
  exact ⟨j, hmem, jobs_never_start_over run_claimed (Table.find?_of_mem hmem)⟩

/-! ## Messages -/

/-- How far a message has come. -/
def MessageStatus.progress : MessageStatus → ℕ
  | queued => 0
  | delivered => 1
  | acknowledged | expired => 2

/-- A later version of a message: what was sent stays, the status moves
forward only, and a message changes only together with its status. -/
structure AgentMessage.Later (m m' : AgentMessage) : Prop where
  sent : m'.sent = m.sent
  moved : m' = m ∨ m.status.progress < m'.status.progress

theorem AgentMessage.Later.refl (m : AgentMessage) : m.Later m := ⟨rfl, .inl rfl⟩

theorem AgentMessage.Later.trans (m m' m'' : AgentMessage) (h : m.Later m') (h' : m'.Later m'') :
    m.Later m'' := by
  refine ⟨h'.sent.trans h.sent, ?_⟩
  rcases h.moved with rfl | hlt
  · exact h'.moved
  · rcases h'.moved with rfl | hlt'
    · exact .inr hlt
    · exact .inr (hlt.trans hlt')

theorem AgentMessage.Moves.later {m m' : AgentMessage} (h : m.Moves m') : m.Later m' := by
  refine ⟨h.sent, .inr ?_⟩
  have hstatus := h.status
  revert hstatus
  cases m.status <;> cases m'.status <;> decide

theorem Write.messagesLater (k : Kind) (db db' : Database) (h : Write k db db') :
    db.mailbox.Evolves AgentMessage.Later db'.mailbox := by
  by_cases hparts : Part.mailbox ∉ k.parts
  · rw [show db'.mailbox = db.mailbox from h.within .mailbox hparts]
    exact .refl AgentMessage.Later.refl db.mailbox
  cases h with
  | messages hmoves =>
      exact Table.evolves_update (by assumption) AgentMessage.Later.refl fun m hm hp ↦
        (hmoves m hm hp).later
  | newMessage heffect _ =>
      refine heffect.post (Q := fun db' ↦ db.mailbox.Evolves AgentMessage.Later db'.mailbox)
        fun w ↦ ?_
      unfold insertAgentMessage requireRunRow
      simp only [post_bind, post_read, post_require, post_attempt]
      intro _ _ _ _ _ db₁ hdb
      obtain ⟨mailbox, hmailbox, rfl⟩ := Option.map_eq_some_iff.mp hdb
      exact Table.evolves_insert? AgentMessage.Later.refl hmailbox
  | _ => exact absurd (by simp [Kind.parts]) hparts

/-- In every run of the store a message keeps what was sent and its status
moves forward only; one that was acknowledged or has expired never changes. -/
theorem messages_never_move_back {ok : StoreOp × World → Database → Prop}
    (h : store.Run ok db db') {messageId : String} {m : AgentMessage}
    (hm : db.mailbox.find? messageId = some m) :
    ∃ m', db'.mailbox.find? messageId = some m' ∧ m.Later m' ∧
      (m.status = .acknowledged ∨ m.status = .expired → m' = m) := by
  obtain ⟨m', hm', hlater⟩ := (evolves_of_run AgentMessage.Later.refl AgentMessage.Later.trans
    Write.messagesLater h).find? hm
  refine ⟨m', hm', hlater, fun hfinal ↦ ?_⟩
  have hbound : m'.status.progress ≤ 2 := by cases m'.status <;> decide
  have hprogress : m.status.progress = 2 := by rcases hfinal with h | h <;> rw [h] <;> rfl
  exact hlater.moved.resolve_right (by omega)

namespace Recorded

def childId : String := "run_xxxxxxxxxxxxxxxxxxxxxx"

def childLease : ExecutionLease := ⟨"job_xxxxxxxxxxxxxxxxxxxxxxxx", childId, "other", 1⟩

def messageId : String := "agent_message_xxxxxxxxxxxxxxxxxxxxxxxxxxxxxxxx"

/-- The sample run spawns a child. -/
def spawning : List StoreOp :=
  begins lease "child.spawn" "spawn" ++ [.acceptChildRun (some lease)
    { parentRunId := runId, spawnOperationId := "spawn", goal := "goal",
      agentDefinition := ⟨"agent", "1", "agent", "description", "prompt", []⟩
      coordination := {} }]

/-- It sends the child a message, and a worker takes the child up. -/
def sending : List StoreOp :=
  begins lease "mailbox.send" "send" ++
    [.sendAgentMessage (some lease) runId "send" childId ⟨"request", "text", .obj [], [], 60⟩,
      .claimRunJob "other" 50]

/-- The child has the message delivered and acknowledges it. -/
def acknowledging : List StoreOp :=
  .deliverAgentMessages (some childLease) childId :: begins childLease "mailbox.ack" "ack" ++
    [.ackAgentMessages (some childLease) childId [messageId] (some "ack")]

@[irreducible] def sent : Database :=
  (Database.claimed.performed 20 spawning).performed 30 sending

@[irreducible] def acknowledged : Database := sent.performed 40 acknowledging

theorem run_acknowledged : store.Run callsWhileWaiting sent acknowledged := by
  rw [acknowledged]
  exact run_performed rfl sent 40

/-- A message that was queued is delivered and acknowledged. -/
theorem messages_never_move_back_acknowledged : ∃ m ∈ sent.mailbox.rows, m.status = .queued ∧
    ∃ m', acknowledged.mailbox.find? m.id = some m' ∧ m'.status = .acknowledged ∧ m.Later m' := by
  have hsent : sent.mailbox.rows.head?.any (fun m ↦ m.id = messageId && m.status = .queued) =
      true := by decide +kernel
  have hread : (acknowledged.mailbox.find? messageId).all
      (fun m ↦ m.status = .acknowledged) = true := by decide +kernel
  obtain ⟨m, hm, hqueued⟩ := (Option.any_eq_true _ _).mp hsent
  rw [Bool.and_eq_true, decide_eq_true_eq, decide_eq_true_eq] at hqueued
  have hmem := List.mem_of_head? hm
  obtain ⟨m', hm', hlater, _⟩ :=
    messages_never_move_back run_acknowledged (Table.find?_of_mem hmem)
  rw [← hqueued.1, hm', Option.all_some, decide_eq_true_eq] at hread
  exact ⟨m, hmem, hqueued.2, m', hm', hread, hlater⟩

end Recorded

/-! ## Model calls -/

/-- A later version of a model call: what its reservation fixed stays, a call
that has ended stays as it is, and output that started stays started. -/
structure ModelCall.Onward (c c' : ModelCall) : Prop where
  fixed : c'.fixed = c.fixed
  ended : c.open = false → c' = c
  output : c.outputStarted = true → c'.outputStarted = true

theorem ModelCall.Onward.refl (c : ModelCall) : c.Onward c := ⟨rfl, fun _ ↦ rfl, fun h ↦ h⟩

theorem ModelCall.Onward.trans (c c' c'' : ModelCall) (h : c.Onward c') (h' : c'.Onward c'') :
    c.Onward c'' := by
  refine ⟨h'.fixed.trans h.fixed, ?_, h'.output ∘ h.output⟩
  intro hended
  obtain rfl := h.ended hended
  exact h'.ended hended

theorem ModelCall.Ends.onward {c c' : ModelCall} (h : c.Ends c') : c.Onward c' := by
  refine ⟨h.fixed, ?_, fun houtput ↦ h.output.trans houtput⟩
  intro hended
  rw [h.wasOpen] at hended
  cases hended

theorem insertModelCall_post (call : ModelCall) (s : Session Database World) :
    Post (insertModelCall call) s fun _ s' ↦ ∃ calls,
      s.db.ledger.modelCalls.insert? call = some calls ∧
      s'.db = { s.db with ledger := { s.db.ledger with modelCalls := calls } } := by
  unfold insertModelCall requireRunRow
  simp only [post_bind, post_read, post_require, post_attempt]
  intro _ _ db hdb
  obtain ⟨calls, hinsert, rfl⟩ := Option.map_eq_some_iff.mp hdb
  exact ⟨calls, hinsert, rfl⟩

theorem Write.callsOnward (k : Kind) (db db' : Database) (h : Write k db db') :
    db.ledger.modelCalls.Evolves ModelCall.Onward db'.ledger.modelCalls := by
  by_cases hparts : Part.ledger ∉ k.parts
  · rw [show db'.ledger = db.ledger from h.within .ledger hparts]
    exact .refl ModelCall.Onward.refl _
  cases h with
  | calls hends =>
      exact Table.evolves_update (by assumption) ModelCall.Onward.refl fun c hc hp ↦
        (hends c hc hp).onward
  | output hstarts =>
      refine Table.evolves_update (by assumption) ModelCall.Onward.refl fun c hc hp ↦ ?_
      obtain ⟨hopen, hf⟩ := hstarts c hc hp
      rw [hf]
      refine ⟨rfl, fun hended ↦ ?_, fun _ ↦ rfl⟩
      rw [hopen] at hended
      cases hended
  | newCall heffect _ =>
      refine heffect.post (Q := fun db' ↦
        db.ledger.modelCalls.Evolves ModelCall.Onward db'.ledger.modelCalls) fun w ↦ ?_
      refine (insertModelCall_post _ _).mono ?_
      rintro _ s' ⟨calls, hinsert, hdb⟩
      rw [hdb]
      exact Table.evolves_insert? ModelCall.Onward.refl hinsert
  | newReceipt heffect _ =>
      refine heffect.post (Q := fun db' ↦
        db.ledger.modelCalls.Evolves ModelCall.Onward db'.ledger.modelCalls) fun w ↦ ?_
      refine (insertToolReceipt_post _ _).mono ?_
      rintro _ s' ⟨receipts, _, hdb⟩
      rw [hdb]
      exact .refl ModelCall.Onward.refl _
  | reconcile heffect =>
      rw [show db'.ledger.modelCalls = db.ledger.modelCalls from
        heffect.relates (reconcileReceipts_sameCalls _ _ _ _ _ _)]
      exact .refl ModelCall.Onward.refl _
  | receipts _ _ => exact .refl ModelCall.Onward.refl _
  | backfilled _ _ => exact .refl ModelCall.Onward.refl _
  | retried _ => exact .refl ModelCall.Onward.refl _
  | sandboxes _ => exact .refl ModelCall.Onward.refl _
  | _ => exact absurd (by simp [Kind.parts]) hparts

/-- In every run of the store a model call keeps what it was reserved with, and
once it has ended its row never changes. -/
theorem model_calls_stay_ended {ok : StoreOp × World → Database → Prop}
    (h : store.Run ok db db') {callId : String} {c : ModelCall}
    (hc : db.ledger.modelCalls.find? callId = some c) :
    ∃ c', db'.ledger.modelCalls.find? callId = some c' ∧ c.Onward c' :=
  (evolves_of_run (f := fun db ↦ db.ledger.modelCalls) ModelCall.Onward.refl
    ModelCall.Onward.trans Write.callsOnward h).find? hc

namespace Recorded

def callId : String := "model_call_xxxxxxxxxxxxxxxxxxxx"

@[irreducible] def reserved : Database :=
  Database.claimed.performed 20 [.reserveModelCall (some lease)
    { runId := runId, executionAttemptId := lease.executionAttemptId, model := "model",
      maxCalls := 4 }]

/-- The call brings output and is settled; that it failed is then not recorded. -/
def settling : List StoreOp :=
  [.markModelCallOutput (some lease) runId callId,
    .settleModelCall (some lease) runId callId (some 3) (some 5),
    .failModelCall (some lease) runId callId true none none none]

@[irreducible] def settled : Database := reserved.performed 30 settling

theorem run_settled : store.Run callsWhileWaiting reserved settled := by
  rw [settled]
  exact run_performed rfl reserved 30

/-- A call that was reserved is settled once and for all. -/
theorem model_calls_stay_ended_settled :
    ∃ c ∈ reserved.ledger.modelCalls.rows, c.status = .reserved ∧
      ∃ c', settled.ledger.modelCalls.find? c.id = some c' ∧ c'.status = .completed ∧
        c'.outputTokens = some 5 ∧ c.Onward c' := by
  have hreserved : reserved.ledger.modelCalls.rows.head?.any
      (fun c ↦ c.id = callId && c.status = .reserved) = true := by decide +kernel
  have hread : (settled.ledger.modelCalls.find? callId).all
      (fun c ↦ c.status = .completed && c.outputTokens = some 5) = true := by decide +kernel
  obtain ⟨c, hc, hopen⟩ := (Option.any_eq_true _ _).mp hreserved
  rw [Bool.and_eq_true, decide_eq_true_eq, decide_eq_true_eq] at hopen
  have hmem := List.mem_of_head? hc
  obtain ⟨c', hc', honward⟩ := model_calls_stay_ended run_settled (Table.find?_of_mem hmem)
  rw [← hopen.1, hc', Option.all_some, Bool.and_eq_true, decide_eq_true_eq,
    decide_eq_true_eq] at hread
  exact ⟨c, hmem, hopen.2, c', hc', hread.1, hread.2, honward⟩

end Recorded

/-! ## Tool receipts -/

/-- A later version of a receipt: the operation stays, and what is settled
stays settled with its result. -/
structure ToolReceipt.Later (r r' : ToolReceipt) : Prop where
  operation : r'.operation = r.operation
  settled : r.status.settled = true →
    r'.status = r.status ∧ r'.resultJson = r.resultJson ∧ r'.resultHash = r.resultHash

theorem ToolReceipt.Later.refl (r : ToolReceipt) : r.Later r := ⟨rfl, fun _ ↦ ⟨rfl, rfl, rfl⟩⟩

theorem ToolReceipt.Later.trans (r r' r'' : ToolReceipt) (h : r.Later r') (h' : r'.Later r'') :
    r.Later r'' := by
  refine ⟨h'.operation.trans h.operation, ?_⟩
  intro hsettled
  obtain ⟨hstatus, hresult, hhash⟩ := h.settled hsettled
  obtain ⟨hstatus', hresult', hhash'⟩ := h'.settled (hstatus ▸ hsettled)
  exact ⟨hstatus'.trans hstatus, hresult'.trans hresult, hhash'.trans hhash⟩

theorem ToolReceipt.Later.of_unsettled {r r' : ToolReceipt}
    (hoperation : r'.operation = r.operation) (h : r.status.settled = false) : r.Later r' := by
  refine ⟨hoperation, ?_⟩
  intro hsettled
  rw [h] at hsettled
  cases hsettled

theorem ReceiptStatus.eq_of_settled {status status' : ReceiptStatus}
    (hsettled : status.settled = true) (h : status.reaches status' = true) : status' = status := by
  cases status <;> cases status' <;>
    first | rfl | exact absurd hsettled (by decide) | exact absurd h (by decide)

theorem ToolReceipt.Advances.later {r r' : ToolReceipt} (h : r.Advances r') : r.Later r' :=
  ⟨h.operation, fun hsettled ↦ ⟨ReceiptStatus.eq_of_settled hsettled h.status, h.result hsettled⟩⟩

/-- The receipts of one database go on in another. -/
def ReceiptsLater (db db' : Database) : Prop :=
  db.ledger.toolReceipts.Evolves ToolReceipt.Later db'.ledger.toolReceipts

theorem ReceiptsLater.refl (db : Database) : ReceiptsLater db db :=
  Table.Evolves.refl ToolReceipt.Later.refl _

theorem ReceiptsLater.trans (db db' db'' : Database) (h : ReceiptsLater db db')
    (h' : ReceiptsLater db' db'') : ReceiptsLater db db'' :=
  Table.Evolves.trans ToolReceipt.Later.trans h h'

theorem receiptsLater_update {p : ToolReceipt → Bool} {f : ToolReceipt → ToolReceipt}
    (hf : ∀ r, (f r).operationId = r.operationId)
    (h : ∀ r ∈ db.ledger.toolReceipts.rows, p r = true → r.Later (f r)) :
    ReceiptsLater db { db with ledger := { db.ledger with
      toolReceipts := db.ledger.toolReceipts.update p f hf } } :=
  Table.evolves_update hf ToolReceipt.Later.refl h

/-- A reconciliation settles an uncertain receipt, or takes it back to where it
may start again. -/
theorem reconcileReceipts_later (candidateId prior runId : String) (decision : ReconcileDecision)
    (results : ReconciliationResults) (now : Time) (s : Session Database World) :
    Post (reconcileReceipts candidateId prior runId decision results now) s fun _ s' ↦
      ReceiptsLater s.db s'.db := by
  unfold reconcileReceipts updateToolReceiptsCounted updateToolReceipts
  simp only [post_bind, post_read, post_write, post_require, post_ite, post_when, post_pure]
  intro hcount
  have hfirst : ∀ r ∈ s.db.ledger.toolReceipts.rows,
      (decide (r.operationId = prior) && decide (r.status = .outcomeUnknown)) = true →
      r.status.settled = false := by
    intro r _ hp
    simp only [Bool.and_eq_true, decide_eq_true_eq] at hp
    rw [hp.2]
    rfl
  refine ⟨fun hsame ↦ ⟨fun hretry ↦ ?_, fun _ ↦ ?_⟩, fun _ ↦ ⟨fun _ ↦ ?_, fun _ ↦ ?_⟩⟩
  · -- The row that is taken back is the uncertain one that was counted.
    subst hsame
    intro r hr
    by_cases hid : r.operationId = prior
    · have hunknown : r.status = .outcomeUnknown := by
        by_contra hknown
        have hnone : s.db.ledger.toolReceipts.rowcount (fun r ↦
            decide (r.operationId = prior) && decide (r.status = .outcomeUnknown)) = 0 := by
          refine Table.rowcount_eq_zero_iff.mpr fun r' hr' ↦ ?_
          simp only [Bool.and_eq_false_iff, decide_eq_false_iff_not]
          by_cases hid' : r'.operationId = prior
          · have hfind := Table.find?_of_mem hr
            rw [hid, ← hid', Table.find?_of_mem hr', Option.some_inj] at hfind
            exact .inr (hfind ▸ hknown)
          · exact .inl hid'
        rw [hnone] at hcount
        cases hcount
      refine ⟨_, List.mem_map.mpr ⟨_, List.mem_map.mpr ⟨r, hr, if_pos ?_⟩, if_pos ?_⟩,
        rfl, .of_unsettled rfl ?_⟩
      · simp [hid, hunknown]
      · simp [hid]
      · rw [hunknown]
        rfl
    · refine ⟨r, List.mem_map.mpr ⟨r, List.mem_map.mpr ⟨r, hr, if_neg ?_⟩, if_neg ?_⟩,
        rfl, .refl r⟩
      · simp [hid]
      · simp [hid]
  · exact receiptsLater_update (by intro; rfl) fun r hr hp ↦ .of_unsettled rfl (hfirst r hr hp)
  · exact receiptsLater_update (by intro; rfl) fun r hr hp ↦ .of_unsettled rfl (hfirst r hr hp)
  · intro _
    refine ReceiptsLater.trans _ _ _ (receiptsLater_update (by intro; rfl) ?_)
      (receiptsLater_update (by intro; rfl) ?_)
    · exact fun r hr hp ↦ .of_unsettled rfl (hfirst r hr hp)
    · intro r _ hp
      refine .of_unsettled rfl ?_
      simp only [Bool.and_eq_true, decide_eq_true_eq] at hp
      rw [hp.2]
      rfl

theorem Write.receiptsLater (k : Kind) (db db' : Database) (h : Write k db db') :
    ReceiptsLater db db' := by
  by_cases hparts : Part.ledger ∉ k.parts
  · unfold ReceiptsLater
    rw [show db'.ledger = db.ledger from h.within .ledger hparts]
    exact .refl ToolReceipt.Later.refl _
  cases h with
  | receipts hadvances _ =>
      exact receiptsLater_update (by assumption) fun r hr hp ↦ (hadvances r hr hp).1.later
  | backfilled _ hadvances =>
      exact receiptsLater_update (by assumption) fun r hr hp ↦ (hadvances r hr hp).1.later
  | retried hadvances =>
      exact receiptsLater_update (by assumption) fun r hr hp ↦ (hadvances r hr hp).2.later
  | newReceipt heffect _ =>
      refine heffect.post (Q := fun db' ↦ ReceiptsLater db db') fun w ↦ ?_
      refine (insertToolReceipt_post _ _).mono ?_
      rintro _ s' ⟨receipts, hinsert, hdb⟩
      rw [hdb]
      exact Table.evolves_insert? ToolReceipt.Later.refl hinsert
  | reconcile heffect => exact heffect.relates (reconcileReceipts_later _ _ _ _ _ _)
  | newCall heffect _ =>
      refine heffect.post (Q := fun db' ↦ ReceiptsLater db db') fun w ↦ ?_
      refine (insertModelCall_post _ _).mono ?_
      rintro _ s' ⟨calls, _, hdb⟩
      rw [hdb]
      exact .refl _
  | calls _ => exact .refl _
  | output _ => exact .refl _
  | sandboxes _ => exact .refl _
  | _ => exact absurd (by simp [Kind.parts]) hparts

/-- In every run of the store a tool receipt stands for the same operation, and
one that was settled keeps its status and its result, whatever is prepared,
started, settled or reconciled afterwards. -/
theorem receipts_stay_settled {ok : StoreOp × World → Database → Prop}
    (h : store.Run ok db db') {operationId : String} {r : ToolReceipt}
    (hr : db.ledger.toolReceipts.find? operationId = some r) :
    ∃ r', db'.ledger.toolReceipts.find? operationId = some r' ∧ r.Later r' :=
  Table.Evolves.find? (relates_of_run ReceiptsLater.refl ReceiptsLater.trans Write.receiptsLater h)
    hr

namespace Recorded

@[irreducible] def begun : Database :=
  Database.claimed.performed 20 (begins lease "execute" "operation")

/-- The outcome of the operation is lost and then confirmed; a second
reconciliation is refused. -/
def reconciling : List StoreOp :=
  [.settleToolReceipt (some lease) "operation" runId
      { status := .outcomeUnknown, errorType := some "Timeout" },
    .reconcileToolReceipt (some lease) "operation" runId .confirmedCompleted (some (.obj []))
      (some "hash"),
    .reconcileToolReceipt (some lease) "operation" runId .abort none none]

@[irreducible] def reconciled : Database := begun.performed 30 reconciling

theorem run_reconciled : store.Run callsWhileWaiting begun reconciled := by
  rw [reconciled]
  exact run_performed rfl begun 30

/-- A receipt that was running is settled by its reconciliation. -/
theorem receipts_stay_settled_reconciled :
    ∃ r ∈ begun.ledger.toolReceipts.rows, r.status = .running ∧
      ∃ r', reconciled.ledger.toolReceipts.find? r.operationId = some r' ∧
        r'.status = .completed ∧ r'.resultHash = some "hash" ∧ r.Later r' := by
  have hbegun : begun.ledger.toolReceipts.rows.head?.any
      (fun r ↦ r.operationId = "operation" && r.status = .running) = true := by decide +kernel
  have hread : (reconciled.ledger.toolReceipts.find? "operation").all
      (fun r ↦ r.status = .completed && r.resultHash = some "hash") = true := by decide +kernel
  obtain ⟨r, hr, hrunning⟩ := (Option.any_eq_true _ _).mp hbegun
  rw [Bool.and_eq_true, decide_eq_true_eq, decide_eq_true_eq] at hrunning
  have hmem := List.mem_of_head? hr
  obtain ⟨r', hr', hlater⟩ := receipts_stay_settled run_reconciled (Table.find?_of_mem hmem)
  rw [← hrunning.1, hr', Option.all_some, Bool.and_eq_true, decide_eq_true_eq,
    decide_eq_true_eq] at hread
  exact ⟨r, hmem, hrunning.2, r', hr', hread.1, hread.2, hlater⟩

end Recorded

/-! ## Decisions -/

/-- A decided permission keeps its decision; only the uses of its grant are
counted on. -/
structure Permission.Later (p p' : Permission) : Prop where
  ask : p'.ask = p.ask
  decided : p.status ≠ .pending → p' = { p with grantUseCount := p'.grantUseCount }

structure WaitCandidate.Later (c c' : WaitCandidate) : Prop where
  ask : c'.ask = c.ask
  decided : c.status ≠ .pending → c' = c

structure Question.Later (q q' : Question) : Prop where
  ask : q'.ask = q.ask
  decided : q.status ≠ .pending → q' = q

/-- A plan may be adopted by a later wait, which asks for it again. -/
def PlanApproval.Later (p p' : PlanApproval) : Prop :=
  p.status ≠ .pending → p' = { p with waitCycleId := p'.waitCycleId, interruptId := p'.interruptId }

/-- The waits of one database go on in another, and no decision is taken
back. -/
structure WaitsLater (db db' : Database) : Prop where
  permissions : db.waits.permissions.Evolves Permission.Later db'.waits.permissions
  candidates : db.waits.candidates.Evolves WaitCandidate.Later db'.waits.candidates
  questions : db.waits.questions.Evolves Question.Later db'.waits.questions
  planApprovals : db.waits.planApprovals.Evolves PlanApproval.Later db'.waits.planApprovals

theorem Permission.Later.refl (p : Permission) : p.Later p := ⟨rfl, fun _ ↦ rfl⟩

theorem Permission.Later.trans (p p' p'' : Permission) (h : p.Later p') (h' : p'.Later p'') :
    p.Later p'' := by
  refine ⟨h'.ask.trans h.ask, ?_⟩
  intro hdecided
  have hp' := h.decided hdecided
  have hp'' := h'.decided (by rw [hp']; exact hdecided)
  rw [hp'', hp']

theorem WaitCandidate.Later.refl (c : WaitCandidate) : c.Later c := ⟨rfl, fun _ ↦ rfl⟩

theorem WaitCandidate.Later.trans (c c' c'' : WaitCandidate) (h : c.Later c') (h' : c'.Later c'') :
    c.Later c'' := by
  refine ⟨h'.ask.trans h.ask, ?_⟩
  intro hdecided
  obtain rfl := h.decided hdecided
  exact h'.decided hdecided

theorem Question.Later.refl (q : Question) : q.Later q := ⟨rfl, fun _ ↦ rfl⟩

theorem Question.Later.trans (q q' q'' : Question) (h : q.Later q') (h' : q'.Later q'') :
    q.Later q'' := by
  refine ⟨h'.ask.trans h.ask, ?_⟩
  intro hdecided
  obtain rfl := h.decided hdecided
  exact h'.decided hdecided

theorem PlanApproval.Later.refl (p : PlanApproval) : p.Later p := fun _ ↦ rfl

theorem PlanApproval.Later.trans (p p' p'' : PlanApproval) (h : p.Later p') (h' : p'.Later p'') :
    p.Later p'' := by
  intro hdecided
  have hp' := h hdecided
  have hp'' := h' (by rw [hp']; exact hdecided)
  rw [hp'', hp']

theorem WaitsLater.of_same (h : db'.waits = db.waits) : WaitsLater db db' := by
  constructor <;> rw [h]
  · exact .refl Permission.Later.refl _
  · exact .refl WaitCandidate.Later.refl _
  · exact .refl Question.Later.refl _
  · exact .refl PlanApproval.Later.refl _

theorem WaitsLater.refl (db : Database) : WaitsLater db db := .of_same rfl

theorem WaitsLater.trans (db db' db'' : Database) (h : WaitsLater db db')
    (h' : WaitsLater db' db'') : WaitsLater db db'' where
  permissions := h.permissions.trans Permission.Later.trans h'.permissions
  candidates := h.candidates.trans WaitCandidate.Later.trans h'.candidates
  questions := h.questions.trans Question.Later.trans h'.questions
  planApprovals := h.planApprovals.trans PlanApproval.Later.trans h'.planApprovals

theorem Write.waitsLater (k : Kind) (db db' : Database) (h : Write k db db') :
    WaitsLater db db' := by
  by_cases hparts : Part.waits ∉ k.parts
  · exact .of_same (h.within .waits hparts)
  obtain ⟨hpermissions, hcandidates, hquestions, hplans⟩ := WaitsLater.refl db
  cases h with
  | permissions hdecides =>
      refine ⟨Table.evolves_update (by assumption) Permission.Later.refl fun p hp h ↦ ?_,
        hcandidates, hquestions, hplans⟩
      exact ⟨(hdecides p hp h).1, fun hdecided ↦ absurd (hdecides p hp h).2.1 hdecided⟩
  | granted huses =>
      refine ⟨Table.evolves_update (by assumption) Permission.Later.refl fun p hp h ↦ ?_,
        hcandidates, hquestions, hplans⟩
      refine ⟨?_, fun _ ↦ huses p hp h⟩
      rw [huses p hp h]
      rfl
  | candidates hdecides =>
      refine ⟨hpermissions, Table.evolves_update (by assumption) WaitCandidate.Later.refl
        fun c hc h ↦ ?_, hquestions, hplans⟩
      exact ⟨(hdecides c hc h).1, fun hdecided ↦ absurd (hdecides c hc h).2.1 hdecided⟩
  | questions hdecides =>
      refine ⟨hpermissions, hcandidates, Table.evolves_update (by assumption) Question.Later.refl
        fun q hq h ↦ ?_, hplans⟩
      exact ⟨(hdecides q hq h).1, fun hdecided ↦ absurd (hdecides q hq h).2.1 hdecided⟩
  | plans hdecides =>
      refine ⟨hpermissions, hcandidates, hquestions,
        Table.evolves_update (by assumption) PlanApproval.Later.refl fun p hp h hdecided ↦ ?_⟩
      exact absurd (hdecides p hp h).2.1 hdecided
  | adopted hadopts =>
      refine ⟨hpermissions, hcandidates, hquestions,
        Table.evolves_update (by assumption) PlanApproval.Later.refl fun p hp h _ ↦ ?_⟩
      exact hadopts p hp h
  | newPermission heffect =>
      refine heffect.post (Q := fun db' ↦ WaitsLater db db') fun w ↦ insertWait_post ?_
      intro t hinsert
      exact ⟨Table.evolves_insert? Permission.Later.refl hinsert, hcandidates, hquestions, hplans⟩
  | newCandidate heffect _ =>
      refine heffect.post (Q := fun db' ↦ WaitsLater db db') fun w ↦ insertWait_post ?_
      intro t hinsert
      exact ⟨hpermissions, Table.evolves_insert? WaitCandidate.Later.refl hinsert, hquestions,
        hplans⟩
  | newQuestion heffect =>
      refine heffect.post (Q := fun db' ↦ WaitsLater db db') fun w ↦ insertWait_post ?_
      intro t hinsert
      exact ⟨hpermissions, hcandidates, Table.evolves_insert? Question.Later.refl hinsert, hplans⟩
  | newPlan heffect =>
      refine heffect.post (Q := fun db' ↦ WaitsLater db db') fun w ↦ insertWait_post ?_
      intro t hinsert
      exact ⟨hpermissions, hcandidates, hquestions,
        Table.evolves_insert? PlanApproval.Later.refl hinsert⟩
  | grantUse heffect =>
      refine heffect.post (Q := fun db' ↦ WaitsLater db db') fun w ↦ ?_
      unfold insertGrantUse
      rw [post_attempt]
      intro db₁ hdb
      obtain ⟨uses, _, rfl⟩ := Option.map_eq_some_iff.mp hdb
      exact ⟨hpermissions, hcandidates, hquestions, hplans⟩
  | _ => exact absurd (by simp [Kind.parts]) hparts

/-- In every run of the store no decision is taken back: a permission, a
candidate, a question or a plan that was decided keeps its decision, whatever
is asked, decided or adopted afterwards. -/
theorem decisions_stand {ok : StoreOp × World → Database → Prop} (h : store.Run ok db db') :
    WaitsLater db db' :=
  relates_of_run WaitsLater.refl WaitsLater.trans Write.waitsLater h

namespace Recorded

def questionId : String := "q_xxxxxxxxxxxxxxxxxxxx"

def permissionId : String := "perm_xxxxxxxxxxxxxxxxxxxxx"

/-- The sample run asks a question and for a permission, and waits. -/
def asking : List StoreOp :=
  [.createQuestion (some lease) runId none (.arr []) (some "cycle") (some "interrupt"),
    .createPermission (some lease)
      { runId := runId, toolCallId := "call", toolName := "edit_file", arguments := .obj [],
        risk := some "workspace_write", waitCycleId := some "cycle",
        interruptId := some "other" },
    .commitRunResult (some lease) runId .waitingInput "run.waiting"
      (.obj [("wait_cycle_id", .str "cycle")]) false]

/-- The question is answered, and the tool is allowed for the rest of the run. -/
def deciding : List StoreOp :=
  [.answerQuestion none questionId (.obj [("answer", .str "yes")]) none,
    .resolvePermission none permissionId .approved (some .run) none none]

/-- Another answer is refused, the permission is used, and the run is canceled. -/
def goingOn : List StoreOp :=
  [.answerQuestion none questionId (.obj [("answer", .str "no")]) none,
    .consumeRunPermissionGrant none runId "operation" "edit_file" "" "workspace_write",
    .requestRunCancelTree runId]

@[irreducible] def asked : Database := Database.claimed.performed 20 asking

@[irreducible] def decided : Database := asked.performed 30 deciding

@[irreducible] def goneOn : Database := decided.performed 40 goingOn

theorem run_decided : store.Run callsWhileWaiting asked decided := by
  rw [decided]
  exact run_performed rfl asked 30

theorem run_goneOn : store.Run callsWhileWaiting decided goneOn := by
  rw [goneOn]
  exact run_performed rfl decided 40

/-- What was open is decided, and then the answer and the permission stand, of
which one use is counted. -/
theorem decisions_stand_decided : WaitsLater asked decided ∧
    asked.waits.questions.rows.any (fun q ↦ q.status = .pending) = true ∧
    (∃ q ∈ decided.waits.questions.rows, q.status = .answered ∧
      goneOn.waits.questions.find? q.id = some q) ∧
    (∃ p ∈ decided.waits.permissions.rows, p.status = .approved ∧ p.grantUseCount = 0 ∧
      goneOn.waits.permissions.find? p.id = some { p with grantUseCount := 1 }) := by
  have hlater : WaitsLater decided goneOn := decisions_stand run_goneOn
  have hanswered : decided.waits.questions.rows.head?.any
      (fun q ↦ q.status = .answered) = true := by decide +kernel
  have hallowed : decided.waits.permissions.rows.head?.any (fun p ↦
      p.id = permissionId && p.status = .approved && p.grantUseCount = 0) = true := by
    decide +kernel
  have hused : (goneOn.waits.permissions.find? permissionId).all
      (fun p ↦ p.grantUseCount = 1) = true := by decide +kernel
  refine ⟨decisions_stand run_decided, by decide +kernel, ?_, ?_⟩
  · obtain ⟨q, hq, hstatus⟩ := (Option.any_eq_true _ _).mp hanswered
    rw [decide_eq_true_eq] at hstatus
    have hmem := List.mem_of_head? hq
    obtain ⟨q', hq', hsame⟩ := hlater.questions.find? (Table.find?_of_mem hmem)
    rw [hsame.decided (by rw [hstatus]; decide)] at hq'
    exact ⟨q, hmem, hstatus, hq'⟩
  · obtain ⟨p, hp, hstatus⟩ := (Option.any_eq_true _ _).mp hallowed
    simp only [Bool.and_eq_true, decide_eq_true_eq] at hstatus
    obtain ⟨⟨hid, hstatus⟩, hcount⟩ := hstatus
    have hmem := List.mem_of_head? hp
    obtain ⟨p', hp', hsame⟩ := hlater.permissions.find? (Table.find?_of_mem hmem)
    rw [← hid, hp', Option.all_some, decide_eq_true_eq] at hused
    have heq := hsame.decided (by rw [hstatus]; decide)
    rw [hused] at heq
    rw [heq] at hp'
    exact ⟨p, hmem, hstatus, hcount, hp'⟩

end Recorded

end ShejaneRuntime.Store
