import ShejaneRuntime.Store.Operations
import ShejaneRuntime.Store.Writes

/-!
# The writes of every operation

Function by function, in the order of the store's modules. The writes of a
caller are put together from those of what it calls.
-/

namespace ShejaneRuntime.Store

open Lib Lib.Txn

variable {α : Type}

/-! ## Events -/

theorem appendEventUncommitted_does_lifecycle (runId eventType : String) (payloadJson : Json)
    (at' : Time) (h : isLifecycleEvent eventType = true) :
    Does [.lifecycle] (appendEventUncommitted runId eventType payloadJson at') :=
  does_of_effect fun _ _ hm ↦ .lifecycle h hm

theorem appendEvent_does (lease : Option ExecutionLease) (runId eventType : String)
    (payload : Json) (h : isLifecycleEvent eventType = false) :
    Does [.event] (appendEvent lease runId eventType payload) :=
  keeps_runWriteTransaction <| .bind keeps_utcNow fun _ ↦ appendEventUncommitted_does _ _ _ _ h

theorem appendEvent_does_lifecycle (lease : Option ExecutionLease) (runId eventType : String)
    (payload : Json) (h : isLifecycleEvent eventType = true) :
    Does [.lifecycle] (appendEvent lease runId eventType payload) :=
  keeps_runWriteTransaction <| .bind keeps_utcNow fun _ ↦
    appendEventUncommitted_does_lifecycle _ _ _ _ h

/-- The lifecycle logs after an event of a run was appended. -/
def Reported (runId : String) (e : Event) (db db' : Database) : Prop :=
  db'.journal.lifecycle =
    Function.update db.journal.lifecycle runId (db.journal.lifecycle runId ++ [e])

theorem appendEventUncommitted_post (runId eventType : String) (payloadJson : Json)
    (createdAt : Time) (h : isLifecycleEvent eventType = true) (s : Session Database World) :
    Post (appendEventUncommitted runId eventType payloadJson createdAt) s fun r s' ↦
      Journal.IsEvent runId eventType payloadJson r.1 ∧ Reported runId r.1 s.db s'.db ∧
        Within [.journal, .lifecycle] s.db s'.db := by
  unfold appendEventUncommitted onJournal
  simp only [post_bind, post_read, post_zoom]
  refine (Journal.appendEvent_post s.db runId eventType payloadJson createdAt _).mono ?_
  rintro r s' ⟨hevent, hlife⟩
  rw [if_pos h] at hlife
  exact ⟨hevent, hlife, .lifecycle _ _⟩

/-! ## Tool receipts -/

theorem ToolReceipt.Advances.of_status {r r' : ToolReceipt} (hoperation : r'.operation = r.operation)
    (hsettled : r.status.settled = false) (hstatus : r.status.reaches r'.status = true)
    (hattempt : r'.executionAttemptId = r.executionAttemptId) : r.Advances r' :=
  ⟨hoperation, hstatus, fun h ↦ by simp [hsettled] at h, .inl hattempt⟩

theorem ReceiptStatus.reaches_self (status : ReceiptStatus) : status.reaches status = true := by
  cases status <;> decide

/-- An update that leaves the status and the result alone. -/
theorem ToolReceipt.Advances.of_same {r r' : ToolReceipt} (hoperation : r'.operation = r.operation)
    (hstatus : r'.status = r.status)
    (hresult : r'.resultJson = r.resultJson ∧ r'.resultHash = r.resultHash)
    (hattempt : r'.executionAttemptId = r.executionAttemptId) : r.Advances r' :=
  ⟨hoperation, by rw [hstatus]; exact r.status.reaches_self, fun _ ↦ hresult, .inl hattempt⟩

theorem ToolReceipt.unstarted_iff {r : ToolReceipt} :
    r.unstarted = true ↔ r.status = .prepared ∨ r.status = .paused := by
  simp [ToolReceipt.unstarted]

theorem ToolReceipt.open_iff {r : ToolReceipt} :
    r.open = true ↔ r.status = .prepared ∨ r.status = .paused ∨ r.status = .running := by
  simp [ToolReceipt.open, ToolReceipt.unstarted, or_assoc]

theorem markRunningToolReceiptsOutcomeUnknownUncommitted_does (runId : String)
    (attempt : AttemptId) (errorType : String) (now : Time) :
    Does [.receipt, .subagent]
      (markRunningToolReceiptsOutcomeUnknownUncommitted runId attempt errorType now) := by
  refine .bind (.read _) fun _ ↦
    .bind (Does.widen (updateToolReceipts_does (fun _ ↦ by rfl) ?_) (by decide)) fun _ ↦
    .forM (fun _ ↦ (appendSubagentReceiptEventUncommitted_does _).widen (by decide)) _
  intro r hr
  simp only [Bool.and_eq_true, decide_eq_true_eq] at hr
  refine ⟨.of_status rfl ?_ ?_ rfl, ?_⟩ <;>
    simp [hr.2, ReceiptStatus.settled, ReceiptStatus.reaches, ToolReceipt.open_iff]

theorem cancelUnstartedToolReceiptsUncommitted_does (runId : String) (canceledAt : Time)
    (errorType : String) :
    Does [.receipt, .subagent]
      (cancelUnstartedToolReceiptsUncommitted runId canceledAt errorType) := by
  refine .bind (.read _) fun _ ↦
    .bind (Does.widen (updateToolReceipts_does (fun _ ↦ by rfl) ?_) (by decide)) fun _ ↦
    .forM (fun _ ↦ (appendSubagentReceiptEventUncommitted_does _).widen (by decide)) _
  intro r hr
  simp only [Bool.and_eq_true, ToolReceipt.unstarted_iff] at hr
  refine ⟨.of_status rfl ?_ ?_ rfl, fun h ↦ by simp [ToolReceipt.open_iff] at h⟩ <;>
    rcases hr.2 with h | h <;> simp [h, ReceiptStatus.settled, ReceiptStatus.reaches]

/-- A receipt below a task is as it was read, or was settled already. -/
def DescendantOf (db : Database) (child : ToolReceipt) : Prop :=
  ∀ r ∈ db.ledger.toolReceipts.rows, r.operationId = child.operationId →
    r.status = child.status ∨ some r.status = descendantSettlement child.status

theorem advances_of_descendant {r child : ToolReceipt} {settled : ReceiptStatus} (error : String)
    (now : Time) (hsettled : descendantSettlement child.status = some settled)
    (h : r.status = child.status ∨ some r.status = descendantSettlement child.status) :
    let r' := { r with status := settled, errorType := some error, completedAt := some now,
                       updatedAt := now }
    r.Advances r' ∧ (r'.open = true → r.open = true) := by
  intro r'
  have hr : r.status = child.status ∨ r.status = settled := by simpa [hsettled] using h
  have hmove : child.status.reaches settled = true ∧ child.status.settled = false ∧
      settled ≠ .prepared ∧ settled ≠ .paused ∧ settled ≠ .running := by
    revert hsettled
    cases child.status <;> simp [descendantSettlement, ReceiptStatus.settled] <;>
      rintro rfl <;> decide
  refine ⟨⟨rfl, ?_, fun _ ↦ ⟨rfl, rfl⟩, .inl rfl⟩, fun h ↦ ?_⟩
  · rcases hr with hr | hr
    · simpa [r', hr] using hmove.1
    · simpa [r', hr] using settled.reaches_self
  · simp [ToolReceipt.open_iff, r', hmove] at h

theorem mem_of_mem_receiptDescendants {receipts : List ToolReceipt} {runId : String}
    {child : ToolReceipt} (depth : ℕ) (parents : List String)
    (h : child ∈ receiptDescendants receipts runId depth parents) : child ∈ receipts := by
  induction depth generalizing parents with
  | zero => simp [receiptDescendants] at h
  | succ depth ih =>
      simp only [receiptDescendants, List.mem_append] at h
      rcases h with h | h
      · exact ih _ h
      · rw [orderByTimeId, List.mem_insertionSort] at h
        exact List.mem_of_mem_filter h

/-- Settling one descendant keeps what is known of another. -/
theorem DescendantOf.update {db : Database} {other : ToolReceipt} {p : ToolReceipt → Bool}
    {f : ToolReceipt → ToolReceipt} {hf : ∀ r, (f r).operationId = r.operationId}
    (h : DescendantOf db other) (hp : ∀ r, p r = true → r.operationId = other.operationId →
      some (f r).status = descendantSettlement other.status) :
    DescendantOf { db with ledger := { db.ledger with
      toolReceipts := db.ledger.toolReceipts.update p f hf } } other := by
  intro r hr hid
  have hmem : r ∈ (db.ledger.toolReceipts.update p f hf).rows := hr
  obtain ⟨r₀, hr₀, rfl⟩ := Table.mem_update.mp hmem
  by_cases hpr : p r₀ = true
  · simp only [hpr, if_true] at hid ⊢
    exact .inr (hp r₀ hpr ((hf r₀).symm.trans hid))
  · simp only [hpr] at hid ⊢
    exact h r₀ hr₀ hid

theorem settleTaskDescendantsUncommitted_does (runId operationId : String)
    (parentStatus : ReceiptStatus) (now : Time) :
    Does [.receipt, .subagent]
      (settleTaskDescendantsUncommitted runId operationId parentStatus now) := by
  intro s
  unfold settleTaskDescendantsUncommitted
  rw [post_bind, post_read]
  have hmem : ∀ child ∈ receiptDescendants s.db.ledger.toolReceipts.rows runId 64 [operationId],
      child ∈ s.db.ledger.toolReceipts.rows := fun _ h ↦ mem_of_mem_receiptDescendants _ _ h
  have hstart : ∀ child ∈ receiptDescendants s.db.ledger.toolReceipts.rows runId 64 [operationId],
      DescendantOf s.db child := by
    intro child hchild r hr hid
    left
    rw [List.inj_on_of_nodup_map s.db.ledger.toolReceipts.nodup hr (hmem child hchild) hid]
  refine (Post.forM (fun rest t ↦ Writing [.receipt, .subagent] s.db t.db ∧
    (∀ child ∈ rest, child ∈ s.db.ledger.toolReceipts.rows) ∧
    ∀ child ∈ rest, DescendantOf t.db child) ?_
      ⟨refl_of (Writing _) s.db, hmem, hstart⟩).mono fun _ _ h ↦ h.1
  rintro child rest t ⟨hdb, hrows, hrest⟩
  have hchild := hrest child (by simp)
  have hrows' : ∀ c ∈ rest, c ∈ s.db.ledger.toolReceipts.rows :=
    fun c hc ↦ hrows c (List.mem_cons_of_mem _ hc)
  split
  · exact (post_pure _).mpr ⟨hdb, hrows', fun c hc ↦ hrest c (List.mem_cons_of_mem _ hc)⟩
  · rename_i settled hsettled
    unfold updateToolReceipts
    rw [post_bind, post_write]
    have hfacts : ∀ r ∈ t.db.ledger.toolReceipts.rows,
        (decide (r.operationId = child.operationId) && decide (r.runId = runId)) = true → _ :=
      fun r hr hp ↦ advances_of_descendant (descendantError parentStatus) now
        hsettled (hchild r hr (by simp at hp; exact hp.1))
    refine ((appendSubagentReceiptEventUncommitted_does _) _).mono ?_
    intro _ u hu
    have hledger : u.db.ledger = _ := (Writing.within hu).same .ledger (by decide)
    refine ⟨trans_of (Writing _) hdb (trans_of (Writing _) (.single (.receipts hfacts fun _ ↦ rfl) (by simp))
      (hu.widen (by decide))), hrows', fun c hc r hr hid ↦ ?_⟩
    rw [hledger] at hr
    refine (hrest c (List.mem_cons_of_mem _ hc)).update ?_ r hr hid
    intro x hx hxc
    simp only [Bool.and_eq_true, decide_eq_true_eq] at hx
    have hsame : child = c := List.inj_on_of_nodup_map s.db.ledger.toolReceipts.nodup
      (hrows child (by simp)) (hrows' c hc) (hx.1.symm.trans hxc)
    rw [← hsame, hsettled]

theorem projectedToolReceipt_does (operationId : String) :
    Does [.subagent] (projectedToolReceipt operationId) :=
  .bind (.read _) fun _ ↦ .bind (.getOr _ _) fun _ ↦
    .bind (appendSubagentReceiptEventUncommitted_does _) fun _ ↦ .pure _

section ReadOnly

variable {R : Database → Database → Prop} [Std.Refl R] [IsTrans Database R]

theorem keeps_requireToolReceiptInRunUncommitted (operationId runId : String) :
    Keeps R (requireToolReceiptInRunUncommitted operationId runId) :=
  .bind (.read _) fun _ ↦ .bind (.getOr _ _) fun _ ↦ .require _ _

theorem keeps_requireParent (p : PrepareToolReceipt) : Keeps R p.requireParent := by
  unfold PrepareToolReceipt.requireParent
  split
  · exact .pure ()
  · exact .bind (.require _ _) fun _ ↦ keeps_requireToolReceiptInRunUncommitted _ _

theorem keeps_attemptCancelRequested (lease : Option ExecutionLease) (runId : String) :
    Keeps R (attemptCancelRequested lease runId) := by
  cases lease with
  | none => exact .pure _
  | some held => exact .bind (.read _) fun _ ↦ .bind (.getOr _ _) fun _ ↦ .pure _

end ReadOnly

theorem prepareToolReceipt_does (lease : Option ExecutionLease) (p : PrepareToolReceipt) :
    Does [.openReceipt p.runId, .receipt, .subagent] (prepareToolReceipt lease p) := by
  refine keeps_runWriteTransaction <| .bind (keeps_requireParent p) fun _ ↦
    .bind (.read _) fun existing ↦ ?_
  cases existing with
  | some record =>
      refine .bind (.require _ _) fun _ ↦ .ite ?_ (.pure _)
      refine .bind (Does.widen (backfillToolReceipts_does p.runId fun r _ ↦ ?_) (by simp)) fun _ ↦
        .pure _
      exact ⟨.of_same rfl rfl ⟨rfl, rfl⟩ rfl, id⟩
  | none =>
      refine .bind keeps_utcNow fun now ↦ .bind ?_ fun _ ↦
        (projectedToolReceipt_does _).widen (by simp)
      exact (insertToolReceipt_does rfl).widen (by simp [PrepareToolReceipt.row])

theorem recordToolReview_does (lease : Option ExecutionLease) (operationId runId : String)
    (review : ToolReview) : Does [.receipt] (recordToolReview lease operationId runId review) := by
  refine .bind (.require _ _) fun _ ↦ .bind (.require _ _) fun _ ↦
    keeps_runWriteTransaction <| .bind (.read _) fun _ ↦ .bind (.getOr _ _) fun _ ↦ ?_
  split
  · exact .bind (.require _ _) fun _ ↦ .pure _
  · refine .bind keeps_utcNow fun _ ↦
      .bind (updateToolReceipts_does (fun _ ↦ by rfl) fun r _ ↦ ?_) fun _ ↦
      .bind (.read _) fun _ ↦ .getOr _ _
    exact ⟨.of_same rfl rfl ⟨rfl, rfl⟩ rfl, id⟩

theorem cancelBeforeToolStart_does (record : ToolReceipt) (operationId runId : String)
    (now : Time) :
    Does [.receipt, .subagent] (cancelBeforeToolStart record operationId runId now) := by
  refine .bind (.when (settleTaskDescendantsUncommitted_does _ _ _ _)) fun _ ↦
    .bind (Does.widen (updateToolReceipts_does (fun _ ↦ by rfl) fun r hr ↦ ?_) (by decide)) fun _ ↦
    (projectedToolReceipt_does _).widen (by decide)
  simp only [Bool.and_eq_true, ToolReceipt.unstarted_iff] at hr
  refine ⟨.of_status rfl ?_ ?_ rfl, fun h ↦ by simp [ToolReceipt.open_iff] at h⟩ <;>
    rcases hr.2 with h | h <;> simp [h, ReceiptStatus.settled, ReceiptStatus.reaches]

/-- A start moves the receipt that was found unstarted. -/
theorem startToolReceipt_post {s : Session Database World} {record : ToolReceipt}
    {operationId runId : String} (attempt : AttemptId) (now : Time)
    (hfind : s.db.ledger.toolReceipts.find? operationId = some record)
    (hunstarted : record.unstarted = true) :
    Post (startToolReceipt operationId runId attempt now) s fun _ s' ↦
      Writing [.receipt, .subagent] s.db s'.db := by
  have hfacts : ∀ r ∈ s.db.ledger.toolReceipts.rows,
      (decide (r.operationId = operationId) && decide (r.runId = runId)) = true →
      r.unstarted = true := by
    intro r hr hp
    simp only [Bool.and_eq_true, decide_eq_true_eq] at hp
    obtain rfl := hp.1
    rw [Table.find?_of_mem hr] at hfind
    cases hfind
    exact hunstarted
  unfold startToolReceipt
  rw [post_bind]
  refine (updateToolReceipts_post (fun _ ↦ by rfl) fun r hr hp ↦ ?_).mono fun _ s₁ h₁ ↦ ?_
  · have hr' := hfacts r hr hp
    refine ⟨⟨rfl, ?_, ?_, .inr ⟨hr', rfl⟩⟩, fun _ ↦ by simp [ToolReceipt.open, hr']⟩
    · rcases ToolReceipt.unstarted_iff.mp hr' with h | h <;> simp [h, ReceiptStatus.reaches]
    · rcases ToolReceipt.unstarted_iff.mp hr' with h | h <;> simp [h, ReceiptStatus.settled]
  · exact ((projectedToolReceipt_does _) s₁).mono fun _ _ h ↦
      trans_of (Writing _) (h₁.widen (by decide)) (h.widen (by decide))

theorem beginToolReceipt_does (lease : Option ExecutionLease) (operationId runId : String)
    (attempt : AttemptId) :
    Does [.receipt, .subagent] (beginToolReceipt lease operationId runId attempt) := by
  refine keeps_runWriteTransaction fun s ↦ ?_
  unfold findToolReceiptInRun
  rw [post_bind, post_read, post_bind, post_getOr]
  intro record hrecord
  have hfind := (Option.filter_eq_some_iff.mp hrecord).1
  rw [post_ite]
  refine ⟨fun _ ↦ (post_pure _).mpr (refl_of (Writing _) s.db), fun _ ↦ ?_⟩
  rw [post_bind, post_require]
  intro hunstarted
  rw [post_bind]
  refine post_utcNow fun now w ↦ ?_
  rw [post_bind]
  refine post_readOnly (keeps_attemptCancelRequested _ _) fun requested w' ↦ ?_
  rw [post_ite]
  exact ⟨fun _ ↦ cancelBeforeToolStart_does _ _ _ _ _, fun _ ↦
    startToolReceipt_post attempt now hfind hunstarted⟩

theorem advances_of_settleable {r : ToolReceipt} {settlement : Settlement} {now : Time}
    (hstatus : settlement.status ≠ .prepared ∧ settlement.status ≠ .running)
    (h : settleable settlement.status r = true) :
    let r' := { r with status := settlement.status, resultJson := settlement.resultJson,
                       resultHash := settlement.resultHash, errorType := settlement.errorType,
                       updatedAt := now,
                       completedAt := if settlement.status = .paused then r.completedAt
                         else some now }
    r.Advances r' ∧ (r'.open = true → r.open = true) := by
  intro r'
  simp only [settleable, Bool.or_eq_true, Bool.and_eq_true, decide_eq_true_eq,
    ToolReceipt.unstarted_iff] at h
  refine ⟨.of_status rfl ?_ ?_ rfl, fun _ ↦ ?_⟩
  · rcases h with (h | ⟨_, h⟩) | ⟨_, h | h⟩ <;> simp [h, ReceiptStatus.settled]
  · rcases h with (h | ⟨h' | h', h⟩) | ⟨h', h | h⟩ <;> simp [r', ReceiptStatus.reaches, *]
  · rw [ToolReceipt.open_iff]
    rcases h with (h | ⟨_, h⟩) | ⟨_, h | h⟩ <;> simp [h]

theorem settleToolReceipt_does (lease : Option ExecutionLease) (operationId runId : String)
    (settlement : Settlement) :
    Does [.receipt, .subagent] (settleToolReceipt lease operationId runId settlement) := by
  refine .requireThen fun hstatus ↦ keeps_runWriteTransaction <| .bind keeps_utcNow fun _ ↦
    .bind (Does.widen (updateToolReceiptsCounted_does (fun _ ↦ by rfl) fun r hr ↦ ?_)
      (by decide)) fun _ ↦
    .bind (.require _ _) fun _ ↦ (projectedToolReceipt_does _).widen (by decide)
  simp only [Bool.and_eq_true] at hr
  exact advances_of_settleable hstatus hr.2

theorem settleTaskReceipt_does (lease : Option ExecutionLease) (operationId runId : String)
    (settlement : Settlement) :
    Does [.receipt, .subagent] (settleTaskReceipt lease operationId runId settlement) := by
  refine .requireThen fun hstatus ↦ keeps_runWriteTransaction <| .bind (.read _) fun _ ↦ ?_
  refine .bind (.require _ _) fun _ ↦ .bind keeps_utcNow fun _ ↦
    .bind (settleTaskDescendantsUncommitted_does _ _ _ _) fun _ ↦ ?_
  refine .bind (Does.widen (updateToolReceiptsCounted_does (fun _ ↦ by rfl) fun r hr ↦ ?_)
    (by decide)) fun _ ↦
    .bind (.require _ _) fun _ ↦ (projectedToolReceipt_does _).widen (by decide)
  simp only [Bool.and_eq_true, Bool.or_eq_true, decide_eq_true_eq, ToolReceipt.unstarted_iff] at hr
  simp only [List.mem_cons, List.not_mem_nil, or_false] at hstatus
  refine ⟨.of_status rfl ?_ ?_ rfl, fun h ↦ ?_⟩
  · rcases hr.2 with h | ⟨_, h | h⟩ <;> simp [h, ReceiptStatus.settled]
  · rcases hr.2 with h | ⟨h', h | h⟩ <;> simp [ReceiptStatus.reaches, *]
    rcases hstatus with h | h | h <;> simp [h]
  · rw [ToolReceipt.open_iff] at h
    rcases hstatus with h' | h' | h' <;> simp [h'] at h

theorem reconcileToolReceipt_does (lease : Option ExecutionLease) (operationId runId : String)
    (decision : ReconcileDecision) (resultJson : Option Json) (resultHash : Option String) :
    Does [.openReceipt runId, .subagent]
      (reconcileToolReceipt lease operationId runId decision resultJson resultHash) := by
  refine keeps_runWriteTransaction <| .bind keeps_utcNow fun _ ↦
    .bind (Does.widen (reopenToolReceiptsCounted_does runId fun r hr ↦ ?_) (by simp)) fun _ ↦
    .bind (.require _ _) fun _ ↦ (projectedToolReceipt_does _).widen (by simp)
  simp only [Bool.and_eq_true, decide_eq_true_eq] at hr
  refine ⟨hr.1.2, .of_status rfl ?_ ?_ rfl⟩
  · simp [hr.2, ReceiptStatus.settled]
  · cases decision <;> simp [hr.2, ReceiptStatus.reaches, ReconcileDecision.status]

/-! ## Commands, cancellation and steering -/

section ReadOnly

variable {R : Database → Database → Prop} [Std.Refl R] [IsTrans Database R]

theorem keeps_acceptedCommandReceiptUncommitted (principalId commandId commandType : String)
    (payloadJson : Json) :
    Keeps R (acceptedCommandReceiptUncommitted principalId commandId commandType payloadJson) := by
  refine .bind (.read _) fun existing ↦ ?_
  cases existing with
  | none => exact .pure _
  | some command => exact .bind (.require _ _) fun _ ↦ .pure _

theorem keeps_acceptedRunForCommand (principalId commandId : String) (payloadJson : Json) :
    Keeps R (acceptedRunForCommand principalId commandId payloadJson) := by
  refine .bind (.read _) fun existing ↦ ?_
  cases existing with
  | none => exact .pure _
  | some command =>
      exact .bind (.require _ _) fun _ ↦ .bind (.read _) fun _ ↦ .bind (.getOr _ _) fun _ ↦
        .pure _

/-- A command handler does what it does when the command is new. -/
theorem keeps_acceptCommand {principalId commandId commandType : String} {payloadJson : Json}
    {handle : StoreTxn Json} (h : Keeps R handle) :
    Keeps R (acceptCommand principalId commandId commandType payloadJson handle) := by
  refine .bind (keeps_acceptedCommandReceiptUncommitted _ _ _ _) fun existing ↦ ?_
  cases existing with
  | some receipt => exact .pure _
  | none => exact .bind h fun _ ↦ .pure _

end ReadOnly

theorem recordCommandReceiptUncommitted_does (principalId commandId commandType : String)
    (payloadJson receipt : Json) (createdAt : Time) (runId : Option String) :
    Does [.command] (recordCommandReceiptUncommitted principalId commandId commandType
      payloadJson receipt createdAt runId) :=
  insertCommand_does _

theorem cancelPendingWaits_does (runId : String) (requestedAt : Time) :
    Does [.wait] (cancelPendingWaits runId requestedAt) := by
  refine .bind (updatePermissions_does fun p hp ↦ ?_) fun _ ↦
    .bind (updateQuestions_does fun q hq ↦ ?_) fun _ ↦
    .bind (updateWaitCandidates_does fun c hc ↦ ?_) fun _ ↦
    updatePlanApprovals_does fun p hp ↦ ?_
  · simp only [Bool.and_eq_true, decide_eq_true_eq] at hp
    exact ⟨rfl, hp.2, by simp⟩
  · simp only [Bool.and_eq_true, decide_eq_true_eq] at hq
    exact ⟨rfl, hq.2, by simp⟩
  · simp only [Bool.and_eq_true, decide_eq_true_eq] at hc
    exact ⟨rfl, hc.2, rfl⟩
  · simp only [Bool.and_eq_true, decide_eq_true_eq] at hp
    exact ⟨rfl, hp.2, by simp⟩

/-- The writes that move with the status of a run. -/
abbrev lifecycleKinds : List Kind :=
  [.run, .job, .subagent, .lifecycle, .receipt, .call, .sandbox, .wait]

/-- Publishing without a look at the event. -/
theorem publish_does (runId : String) (status : RunStatus) (eventType : String)
    (payloadJson payload : Json) (at' : Time) (hlife : isLifecycleEvent eventType = true) :
    Does [.lifecycle] (do
      let (event, _) ← appendEventUncommitted runId eventType payloadJson at'
      updateThreadProjectionUncommitted runId status eventType payload event.seq at') := by
  have h := Keeps.map (fun _ ↦ ())
    (publishEvent_does runId status eventType payloadJson payload at' hlife)
  unfold publishEvent at h
  simpa only [map_bind, map_pure, bind_pure_unit] using h

theorem finishRunCancelUncommitted_does (runId : String) (requestedAt : Time) :
    Does lifecycleKinds (finishRunCancelUncommitted runId requestedAt) :=
  .bind ((cancelPendingWaits_does _ _).widen (by decide)) fun _ ↦
    .bind ((cancelUnstartedToolReceiptsUncommitted_does _ _ _).widen (by decide)) fun _ ↦
    .bind (Does.widen (updateRuns_does fun _ ↦ ⟨rfl, rfl⟩) (by decide)) fun _ ↦
    (publish_does _ _ _ _ _ _ (by decide)).widen (by decide)

theorem Job.Advances.of_leased {j j' : Job} (hj : j.status = .leased)
    (horigin : j'.origin = j.origin) (hgeneration : j'.leaseGeneration = j.leaseGeneration)
    (hstatus : j'.status ≠ .pending) (hheld : j'.status = .leased → j'.leaseOwner = j.leaseOwner ∧
      (j.quarantinedAt.isSome → j'.quarantinedAt.isSome)) : j.Advances j' where
  origin := horigin
  active := by simp [Job.active, hj]
  taken := hstatus
  pending h := by simp [hj] at h
  held _ h := ⟨(hheld h).1, hgeneration, (hheld h).2⟩
  generation := hgeneration.ge

theorem Job.Advances.of_pending {j j' : Job} (hj : j.status = .pending)
    (horigin : j'.origin = j.origin) (hgeneration : j.leaseGeneration ≤ j'.leaseGeneration)
    (hstatus : j'.status = .leased ∨ j'.status = .canceled) : j.Advances j' where
  origin := horigin
  active := by simp [Job.active, hj]
  taken h := by simp [h] at hstatus
  pending _ := hstatus
  held h := by simp [hj] at h
  generation := hgeneration

theorem cancelActiveJob_does (runId : String) (job : Job) :
    Does lifecycleKinds (cancelActiveJob runId job) := by
  refine .bind keeps_utcNow fun _ ↦ .ite ?_ ?_
  · refine .bind (Does.widen (updateJobs_does fun j hj ↦ ?_) (by decide)) fun _ ↦ .pure _
    simp only [Bool.and_eq_true, decide_eq_true_eq] at hj
    exact .of_leased hj.2 rfl rfl (by simp [hj.2]) fun _ ↦ ⟨rfl, id⟩
  · refine .bind (Does.widen (updateJobs_does fun j hj ↦ ?_) (by decide)) fun _ ↦
      .bind (finishRunCancelUncommitted_does _ _) fun _ ↦ .pure _
    simp only [Bool.and_eq_true, decide_eq_true_eq] at hj
    exact .of_pending hj.2 rfl le_rfl (.inr rfl)

theorem requestRunCancelUncommitted_does (runId : String) :
    Does lifecycleKinds (requestRunCancelUncommitted runId) := by
  refine .bind (.read _) fun job? ↦ ?_
  cases job? with
  | none =>
      exact .bind (keeps_findRun _) fun _ ↦ .ite (.bind keeps_utcNow fun _ ↦
        .bind (finishRunCancelUncommitted_does _ _) fun _ ↦ .pure _) (.pure _)
  | some job => exact cancelActiveJob_does _ _

theorem requestRunCancelTreeUncommitted_does (runId : String) :
    Does lifecycleKinds (requestRunCancelTreeUncommitted runId) := by
  refine .bind (.read _) fun targets ↦ .bind (.mapM (fun target ↦ ?_) targets) fun _ ↦ .pure _
  exact .bind (requestRunCancelUncommitted_does _) fun _ ↦ .pure _

theorem requestRunCancelCommand_does (principalId commandId runId : String) :
    Does (.command :: lifecycleKinds) (requestRunCancelCommand principalId commandId runId) :=
  keeps_acceptCommand <| .bind (.read _) fun _ ↦ .bind (.require _ _) fun _ ↦
    .bind ((requestRunCancelTreeUncommitted_does _).widen (by decide)) fun _ ↦ .bind keeps_utcNow fun _ ↦
    .bind ((recordCommandReceiptUncommitted_does _ _ _ _ _ _ _).widen (by decide)) fun _ ↦ .pure _

theorem requestRunInjectCommand_does (principalId commandId runId content : String) :
    Does [.command, .content]
      (requestRunInjectCommand principalId commandId runId content) :=
  keeps_acceptCommand <| .bind (.read _) fun _ ↦ .bind (.getOr _ _) fun _ ↦
    .bind (.require _ _) fun _ ↦ .bind keeps_utcNow fun _ ↦ .bind (keeps_newId _) fun _ ↦
    .bind ((insertSteering_does _).widen (by decide)) fun _ ↦
    .bind ((recordCommandReceiptUncommitted_does _ _ _ _ _ _ _).widen (by decide)) fun _ ↦ .pure _

/-! ## The job queue -/

section ReadOnly

variable {R : Database → Database → Prop} [Std.Refl R] [IsTrans Database R]

theorem keeps_requireOrphan (runId : String) (lease : Option ExecutionLease)
    (orphanRecovery : Bool) : Keeps R (requireOrphan runId lease orphanRecovery) := by
  cases lease with
  | none => exact .bind (.require _ _) fun _ ↦ .bind (.read _) fun _ ↦ .require _ _
  | some held => exact .pure _

end ReadOnly

/-- A job as it is recorded for a request. -/
structure Job.RecordOf (job : Job) (runId : String) (kind : JobKind) (resume : Option Json) :
    Prop where
  fresh : job.fresh
  runId : job.runId = runId
  kind : job.kind = kind
  resumeJson : job.resumeJson = resume.map encodePayload
  unleased : job.leaseExpiresAt = none

theorem newRunJobRecord_post {s : Session Database World} {runId : String} {kind : JobKind}
    {input : Json} {resume : Option Json} {Q : Job → Session Database World → Prop}
    (h : ∀ job w, job.RecordOf runId kind resume → Q job ⟨s.db, w⟩) :
    Post (newRunJobRecord runId kind input resume) s Q := by
  unfold newRunJobRecord
  rw [post_bind]
  refine post_utcNow fun createdAt w ↦ ?_
  rw [post_bind]
  refine post_newId fun id w' ↦ ?_
  rw [post_pure]
  exact h _ w' ⟨⟨rfl, rfl, rfl⟩, rfl, rfl, rfl, rfl⟩

/-- A job record that is inserted is fresh. -/
theorem newRunJob_does {kinds : List Kind} {runId : String} {kind : JobKind} {input : Json}
    {resume : Option Json} {f : Job → StoreTxn α} (hf : ∀ job, job.fresh → Does kinds (f job)) :
    Does kinds (newRunJobRecord runId kind input resume >>= f) :=
  does_bind_where (fun s ↦ newRunJobRecord_post fun _ _ hrecord ↦
    ⟨refl_of (Writing kinds) s.db, hrecord.fresh⟩) hf

theorem createRunJob_does (run : Run) (kind : JobKind) (resume : Option Json) :
    Does [.newJob] (createRunJob run kind resume) :=
  newRunJob_does fun _ hfresh ↦ .bind (insertRunJob_does hfresh) fun _ ↦ .pure _

theorem enqueueRunJob_does (runId : String) (kind : JobKind) (resume : Option Json) :
    Does [.newJob] (enqueueRunJob runId kind resume) := by
  refine .bind (keeps_findRun _) fun run? ↦ ?_
  cases run? with
  | none => exact .pure _
  | some run =>
      refine .bind (keeps_workspacePathError _) fun _ ↦ .bind (keeps_refuseWorkspace _ _) fun _ ↦
        .bind (.read _) fun _ ↦ .bind (keeps_refuseWorkspace _ _) fun _ ↦
        .bind (.read _) fun active ↦ ?_
      cases active with
      | some job => exact .pure _
      | none => exact .bind (createRunJob_does _ _ _) fun _ ↦ .pure _

theorem settleLostLedgers_does (runId : String) (attempt : AttemptId) (errorType : String)
    (now : Time) : Does [.call, .receipt, .subagent] (settleLostLedgers runId attempt errorType now) := by
  refine .bind (Does.widen (updateModelCalls_does fun c hc ↦ ?_) (by decide)) fun _ ↦
    (markRunningToolReceiptsOutcomeUnknownUncommitted_does _ _ _ _).widen (by decide)
  simp only [Bool.and_eq_true] at hc
  exact ⟨hc.2, rfl, rfl, rfl⟩

theorem publishRunStatus_does (runId : String) (status : RunStatus) (eventType : String)
    (payload : Json) (at' : Time) (h : isLifecycleEvent eventType = true) :
    Does [.lifecycle] (publishRunStatus runId status eventType payload at') :=
  publishEvent_does _ _ _ _ _ _ h

theorem requireRunCleanup_does (runId : String) (now : Time) :
    Does [.run] (requireRunCleanup runId now) :=
  updateRuns_does fun _ ↦ ⟨rfl, rfl⟩

theorem settledJobStatus_final {runStatus : RunStatus} {status : JobStatus}
    (h : settledJobStatus runStatus = some status) : status ≠ .pending ∧ status ≠ .leased := by
  cases runStatus <;> simp [settledJobStatus] at h <;> subst h <;> decide

theorem settleExpiredJob_does (job : Job) (runStatus : RunStatus) {status : JobStatus} (now : Time)
    (h : settledJobStatus runStatus = some status) :
    Does [.job, .receipt, .subagent] (settleExpiredJob job runStatus status now) := by
  have hfinal := settledJobStatus_final h
  refine .bind (.when ((cancelUnstartedToolReceiptsUncommitted_does _ _ _).widen (by decide)))
    fun _ ↦ Does.widen (updateJobs_does fun j hj ↦ ?_) (by decide)
  simp only [Bool.and_eq_true, decide_eq_true_eq] at hj
  exact .of_leased hj.2 rfl rfl hfinal.1 fun hc ↦ absurd hc hfinal.2

theorem quarantineExpiredJob_does (job : Job) (now : Time) :
    Does lifecycleKinds (quarantineExpiredJob job now) := by
  refine .bind ((cancelUnstartedToolReceiptsUncommitted_does _ _ _).widen (by decide)) fun _ ↦
    .bind (Does.widen (updateJobs_does fun j hj ↦ ?_) (by decide)) fun _ ↦
    .bind ((requireRunCleanup_does _ _).widen (by decide)) fun _ ↦ .bind (.read _) fun _ ↦
    .bind ((publishRunStatus_does _ _ _ _ _ (by decide)).widen (by decide)) fun _ ↦ .pure _
  simp only [Bool.and_eq_true, decide_eq_true_eq] at hj
  exact .of_leased hj.2 rfl rfl (by simp [hj.2]) fun _ ↦ ⟨rfl, fun _ ↦ rfl⟩

theorem requeueExpiredJob_does (now : Time) (row : Job × RunStatus) :
    Does lifecycleKinds (requeueExpiredJob now row) := by
  refine .bind ((settleLostLedgers_does _ _ _ _).widen (by decide)) fun _ ↦
    .bind ((updateSandboxProcesses_does _ _ _).widen (by decide)) fun _ ↦ ?_
  split
  · rename_i status hstatus
    exact (settleExpiredJob_does _ _ _ hstatus).widen (by decide)
  · exact quarantineExpiredJob_does _ _

theorem requeueExpiredJobsUncommitted_does (now : Time) :
    Does lifecycleKinds (requeueExpiredJobsUncommitted now) :=
  .bind (.read _) fun _ ↦ .forM (requeueExpiredJob_does now) _

theorem leasePendingJob_does (job : Job) (workerId : String) (leaseSeconds now : Time) :
    Does [.job, .run] (leasePendingJob job workerId leaseSeconds now) := by
  refine .bind keeps_utcNow fun _ ↦
    .bind (Does.widen (updateJobs_does fun j hj ↦ ?_) (by decide)) fun _ ↦
    .bind (Does.widen (updateRuns_does fun _ ↦ ⟨rfl, rfl⟩) (by decide)) fun _ ↦ .read _
  simp only [Bool.and_eq_true, decide_eq_true_eq] at hj
  exact .of_pending hj.2 rfl (Nat.le_succ _) (.inl rfl)

theorem claimRunJob_does (workerId : String) (leaseSeconds : Time) :
    Does lifecycleKinds (claimRunJob workerId leaseSeconds) := by
  refine .bind keeps_utcNow fun _ ↦ .bind (requeueExpiredJobsUncommitted_does _) fun _ ↦
    .bind (.read _) fun blocked ↦ ?_
  refine .bind (.forM (fun _ ↦ ?_) blocked) fun _ ↦ .bind (.read _) fun job? ↦ ?_
  · exact .bind (requestRunCancelUncommitted_does _) fun _ ↦ .pure _
  · cases job? with
    | none => exact .pure _
    | some job => exact (leasePendingJob_does _ _ _ _).widen (by decide)

theorem renewRunJob_does (jobId leaseOwner : String) (leaseGeneration : ℕ) (leaseSeconds : Time) :
    Does [.job] (renewRunJob jobId leaseOwner leaseGeneration leaseSeconds) := by
  refine .bind keeps_utcNow fun _ ↦ .bind keeps_utcNow fun _ ↦
    .bind (updateJobsCounted_does fun j hj ↦ ?_) fun _ ↦ .bind (.read _) fun _ ↦ .pure _
  simp only [Job.ownedBy, Bool.and_eq_true, decide_eq_true_eq] at hj
  exact .of_leased hj.1.1.1.1.2 rfl rfl (by simp [hj.1.1.1.1.2]) fun _ ↦ ⟨rfl, id⟩

theorem finishRunJob_does (jobId leaseOwner : String) (leaseGeneration : ℕ)
    (status : JobStatus) :
    Does [.job] (finishRunJob jobId leaseOwner leaseGeneration status) := by
  refine .requireThen fun hstatus ↦ .bind keeps_utcNow fun _ ↦
    .bind (updateJobsCounted_does fun j hj ↦ ?_) fun _ ↦ .pure _
  simp only [Job.ownedBy, Bool.and_eq_true, decide_eq_true_eq] at hj
  simp only [List.mem_cons, List.not_mem_nil, or_false] at hstatus
  refine .of_leased hj.1.1.1.2 rfl rfl ?_ ?_ <;> rcases hstatus with h | h | h <;> simp [h]

theorem leased_of_leasedTo {job : Job} {lease : ExecutionLease} (h : job.leasedTo lease = true) :
    job.status = .leased := by
  simp only [Job.leasedTo, Bool.and_eq_true, decide_eq_true_eq] at h
  exact h.1.1.2

theorem quarantineExecutionAttempt_does (lease? : Option ExecutionLease) (runId reason : String)
    (payload : Json) :
    Does lifecycleKinds (quarantineExecutionAttempt lease? runId reason payload) := by
  refine .bind (.getOr _ _) fun _ ↦ .bind keeps_utcNow fun _ ↦ keeps_runWriteTransaction <|
    .bind ((settleLostLedgers_does _ _ _ _).widen (by decide)) fun _ ↦
    .bind ((cancelUnstartedToolReceiptsUncommitted_does _ _ _).widen (by decide)) fun _ ↦
    .bind ((requireRunCleanup_does _ _).widen (by decide)) fun _ ↦
    .bind ((publishRunStatus_does _ _ _ _ _ (by decide)).widen (by decide)) fun _ ↦
    .bind (Does.widen (updateJobsCounted_does fun j hj ↦ ?_) (by decide)) fun _ ↦
    .bind (.require _ _) fun _ ↦ .pure _
  have hleased := leased_of_leasedTo hj
  exact .of_leased hleased rfl rfl (by simp [hleased]) fun _ ↦ ⟨rfl, fun _ ↦ rfl⟩

/-- The one job with an identifier is leased. -/
def LeasedJob (jobId : String) (db : Database) : Prop :=
  ∀ j ∈ db.jobs.rows, j.id = jobId → j.status = .leased

theorem leasedJob_of_find {db : Database} {job : Job} {lease : ExecutionLease}
    (hjob : job ∈ db.jobs.rows) (hlease : job.leasedTo lease = true) :
    LeasedJob lease.jobId db := by
  intro j hj hid
  have hleased := hlease
  simp only [Job.leasedTo, Bool.and_eq_true, decide_eq_true_eq] at hleased
  rw [List.inj_on_of_nodup_map db.jobs.nodup hj hjob (hid.trans hleased.1.1.1.1.symm)]
  exact leased_of_leasedTo hlease

/-- Writes that leave the jobs alone keep a leased job leased. -/
theorem LeasedJob.of_writing {kinds : List Kind} {jobId : String} {db db' : Database}
    (h : LeasedJob jobId db) (hdb : Writing kinds db db')
    (hkinds : Part.jobs ∉ kinds.flatMap Kind.parts) : LeasedJob jobId db' := by
  have hjobs : db'.jobs = db.jobs := (Writing.within hdb).same .jobs hkinds
  intro j hj
  exact h j (hjobs ▸ hj)

/-- Put a chain of writes before a transaction that ends one. -/
theorem Does.then_post {β : Type} {kinds kinds' : List Kind} {m : StoreTxn β}
    {f : β → StoreTxn α} {s : Session Database World} (hm : Does kinds m) (hsub : kinds ⊆ kinds')
    (hf : ∀ b s', Writing kinds s.db s'.db →
      Post (f b) s' fun _ s'' ↦ Writing kinds' s'.db s''.db) :
    Post (m >>= f) s fun _ s'' ↦ Writing kinds' s.db s''.db := by
  rw [post_bind]
  refine (hm s).mono fun b s' hs' ↦ (hf b s' hs').mono fun _ s'' hs'' ↦ ?_
  exact trans_of (Writing kinds') (hs'.widen hsub) hs''

theorem failQuarantinedRun_post {s : Session Database World} {runId jobId : String}
    {payload : Json} {now : Time} (h : LeasedJob jobId s.db) :
    Post (failQuarantinedRun runId jobId payload now) s fun _ s' ↦
      Writing lifecycleKinds s.db s'.db := by
  unfold failQuarantinedRun
  refine (cancelUnstartedToolReceiptsUncommitted_does _ _ _).then_post (by decide) fun _ s₁ h₁ ↦ ?_
  have hleased₁ := h.of_writing h₁ (by decide)
  refine Does.then_post (updateRuns_does fun _ ↦ ⟨rfl, rfl⟩) (by decide) fun _ s₂ h₂ ↦ ?_
  have hleased₂ := hleased₁.of_writing h₂ (by decide)
  refine (publishRunStatus_does _ _ _ _ _ (by decide)).then_post (by decide) fun _ s₃ h₃ ↦ ?_
  have hleased₃ := hleased₂.of_writing h₃ (by decide)
  rw [post_bind]
  refine (updateJobs_post fun j hj hid ↦ ?_).mono fun _ s₄ h₄ ↦
    (post_pure _).mpr (h₄.widen (by decide))
  exact .of_leased (hleased₃ j hj (by simpa using hid)) rfl rfl (by simp) (by simp)

theorem confirmQuarantinedCleanup_does (runId jobId leaseOwner : String) (leaseGeneration : ℕ)
    (payload : Json) :
    Does lifecycleKinds
      (confirmQuarantinedCleanup runId jobId leaseOwner leaseGeneration payload) := by
  refine .bind keeps_utcNow fun now s ↦ ?_
  rw [post_bind, post_read, post_ite]
  refine ⟨fun hheld ↦ ?_, fun _ ↦ (post_pure _).mpr (refl_of (Writing _) s.db)⟩
  obtain ⟨job, hjob, hheld⟩ := List.any_eq_true.mp hheld
  simp only [Bool.and_eq_true] at hheld
  rw [post_bind]
  exact (failQuarantinedRun_post (leasedJob_of_find hjob hheld.1)).mono fun _ _ hdb ↦
    (post_pure _).mpr hdb

theorem quarantineLostJob_post {s : Session Database World} {runId jobId : String}
    {report : CleanupReport} {now : Time} (h : LeasedJob jobId s.db) :
    Post (quarantineLostJob runId jobId report now) s fun _ s' ↦
      Writing lifecycleKinds s.db s'.db := by
  unfold quarantineLostJob
  rw [post_bind]
  refine (updateJobs_post fun j hj hid ↦ ?_).mono fun _ s₁ h₁ ↦ ?_
  · have hleased := h j hj (by simpa using hid)
    exact .of_leased hleased rfl rfl (by simp [hleased]) fun _ ↦ ⟨rfl, fun _ ↦ rfl⟩
  · have hrest : Does lifecycleKinds (do
        requireRunCleanup runId now
        publishRunStatus runId .cleanupRequired "run.cleanup_required"
          (leaseExpiredPayload report) now) :=
      .bind ((requireRunCleanup_does _ _).widen (by decide)) fun _ ↦
        (publishRunStatus_does _ _ _ _ _ (by decide)).widen (by decide)
    exact (hrest s₁).mono fun _ _ h₂ ↦ trans_of (Writing _) (h₁.widen (by decide)) h₂

theorem ensureLostExecutionQuarantined_does (runId jobId leaseOwner : String)
    (leaseGeneration : ℕ) :
    Does lifecycleKinds
      (ensureLostExecutionQuarantined runId jobId leaseOwner leaseGeneration) := by
  refine .bind keeps_utcNow fun now s ↦ ?_
  rw [post_bind, post_read]
  split
  · exact (post_pure _).mpr (refl_of (Writing _) s.db)
  · rename_i job hjob
    have hfound := (Option.filter_eq_some_iff.mp hjob).1
    have hlease : job.leasedTo ⟨jobId, runId, leaseOwner, leaseGeneration⟩ = true := by
      simpa using List.find?_some hfound
    have hleased : LeasedJob jobId s.db :=
      leasedJob_of_find (List.mem_of_find?_eq_some hfound) hlease
    refine (settleLostLedgers_does _ _ _ _).then_post (by decide) fun _ s₁ h₁ ↦ ?_
    refine (cancelUnstartedToolReceiptsUncommitted_does _ _ _).then_post (by decide)
      fun _ s₂ h₂ ↦ ?_
    refine Does.then_post (updateSandboxProcesses_does _ _ _) (by decide) fun _ s₃ h₃ ↦ ?_
    have hleased₃ := ((hleased.of_writing h₁ (by decide)).of_writing h₂ (by decide)).of_writing h₃
      (by decide)
    unfold sandboxCleanupReportUncommitted
    rw [post_bind, post_read, post_ite]
    refine ⟨fun _ ↦ (post_pure _).mpr (refl_of (Writing _) s₃.db), fun _ ↦ ?_⟩
    rw [post_bind]
    exact (quarantineLostJob_post hleased₃).mono fun _ _ hdb ↦ (post_pure _).mpr hdb

theorem leased_of_admits {job : Job} {lease : ExecutionLease} {at' : Time}
    (h : job.admits lease at' = true) : job.status = .leased := by
  simp only [Job.admits, Bool.and_eq_true] at h
  exact leased_of_leasedTo h.1.1

theorem settleHeldJob_does (lease : Option ExecutionLease) (runStatus : RunStatus)
    (settledAt : Time) : Does [.job] (settleHeldJob lease runStatus settledAt) := by
  cases lease with
  | none => exact .pure _
  | some held =>
      refine .bind keeps_utcNow fun _ ↦ .getOrThen fun status hstatus ↦
        .bind (updateJobsCounted_does fun j hj ↦ ?_) fun _ ↦ .require _ _
      have hfinal := settledJobStatus_final hstatus
      exact .of_leased (leased_of_admits hj) rfl rfl hfinal.1 fun hc ↦ absurd hc hfinal.2

theorem isLifecycleEvent_of_runResultEvent {st : RunStatus} {eventType : String}
    (h : runResultEvent st = some eventType) : isLifecycleEvent eventType = true := by
  cases st <;> simp only [runResultEvent, Option.some.injEq, reduceCtorEq] at h <;> subst h <;>
    decide

theorem writeRunResult_does (runId : String) (lease : Option ExecutionLease)
    (status : RunStatus) (eventType : String) (payload : Json)
    (hlife : isLifecycleEvent eventType = true) :
    Does lifecycleKinds (writeRunResult runId lease status eventType payload) := by
  refine .bind keeps_utcNow fun _ ↦
    .bind (.when ((cancelUnstartedToolReceiptsUncommitted_does _ _ _).widen (by decide))) fun _ ↦ ?_
  exact .bind (Does.widen (updateRuns_does fun _ ↦ ⟨rfl, rfl⟩) (by decide)) fun _ ↦
    .bind ((publishRunStatus_does _ _ _ _ _ hlife).widen (by decide)) fun _ ↦
    .bind ((settleHeldJob_does _ _ _).widen (by decide)) fun _ ↦ .pure _

theorem commitRunResult_does (lease : Option ExecutionLease) (runId : String)
    (status : RunStatus) (eventType : String) (payload : Json) (orphanRecovery : Bool) :
    Does lifecycleKinds
      (commitRunResult lease runId status eventType payload orphanRecovery) := by
  refine .requireThen fun hresult ↦ keeps_runWriteTransaction <| .bind (keeps_findRun _) fun _ ↦
    .bind (.getOr _ _) fun _ ↦ .bind (keeps_requireOrphan _ _ _) fun _ ↦ .bind (.read _)
    fun existing ↦ ?_
  cases existing with
  | some event =>
      exact .bind (.require _ _) fun _ ↦ .bind keeps_utcNow fun _ ↦
        .bind ((settleHeldJob_does _ _ _).widen (by decide)) fun _ ↦ .pure _
  | none =>
      exact .bind (.require _ _) fun _ ↦
        writeRunResult_does _ _ _ _ _ (isLifecycleEvent_of_runResultEvent hresult)

/-! ## Waits -/

theorem openCandidate_does {id runId : String} {kind : WaitKind} {waitCycleId interruptId : String}
    {position : ℕ} {payloadJson : Json} {createdAt : Time} :
    Does [.openWait runId] (insertWaitCandidate
      (pendingCandidate id runId kind waitCycleId interruptId position payloadJson createdAt)) :=
  insertWaitCandidate_does rfl

theorem createPermission_does (lease : Option ExecutionLease) (c : CreatePermission) :
    Does [.openWait c.runId] (createPermission lease c) := by
  refine .bind (.read _) fun existing ↦ ?_
  cases existing with
  | some permission => exact .bind (.require _ _) fun _ ↦ .pure _
  | none =>
      exact .bind (keeps_newId _) fun _ ↦ .bind keeps_utcNow fun _ ↦ keeps_runWriteTransaction <|
        .bind (insertPermission_does _) fun _ ↦ .bind openCandidate_does fun _ ↦ .pure _

theorem createQuestion_does (lease : Option ExecutionLease) (runId : String)
    (toolCallId : Option String) (questions : Json) (waitCycleId interruptId : Option String) :
    Does [.openWait runId]
      (createQuestion lease runId toolCallId questions waitCycleId interruptId) := by
  refine .bind (.read _) fun existing ↦ ?_
  cases existing with
  | some question => exact .pure _
  | none =>
      exact .bind (keeps_newId _) fun _ ↦ .bind keeps_utcNow fun _ ↦ keeps_runWriteTransaction <|
        .bind (insertQuestion_does _) fun _ ↦ .bind openCandidate_does fun _ ↦ .pure _

theorem insertPlanWait_does (lease : Option ExecutionLease) (plan : PlanApproval) :
    Does [.openWait plan.runId] (insertPlanWait lease plan) :=
  keeps_runWriteTransaction <| .bind (insertPlanApproval_does _) fun _ ↦
    .bind openCandidate_does fun _ ↦ .pure _

theorem adoptPlanWait_does (lease : Option ExecutionLease) (plan : PlanApproval)
    (waitCycleId interruptId : String) :
    Does [.wait, .openWait plan.runId] (adoptPlanWait lease plan waitCycleId interruptId) := by
  refine keeps_runWriteTransaction <| .bind (.write fun db ↦ .single (.adopted fun _ _ _ ↦ rfl)
    (by simp)) fun _ ↦ .bind (.catchIf ?_ (.pure _)) fun _ ↦ .pure _
  exact openCandidate_does.widen (by simp)

/-- The plan approval that was recorded belongs to the run. -/
theorem recordedPlanWait_does (lease : Option ExecutionLease) (runId toolCallId : String)
    (waitCycleId interruptId : Option String) :
    Does [.wait, .openWait runId]
      (recordedPlanWait lease runId toolCallId waitCycleId interruptId) := by
  intro s
  unfold recordedPlanWait
  rw [post_bind, post_read, post_bind, post_getOr]
  intro plan hplan
  have hfound := List.find?_some hplan
  simp only [Bool.and_eq_true, decide_eq_true_eq] at hfound
  split
  · rw [post_ite]
    refine ⟨fun _ ↦ ?_, fun _ ↦ (post_pure _).mpr (refl_of (Writing _) s.db)⟩
    rw [← hfound.1]
    exact adoptPlanWait_does _ _ _ _ s
  · exact (post_pure _).mpr (refl_of (Writing _) s.db)

theorem createPlanApproval_does (lease : Option ExecutionLease) (runId toolCallId : String)
    (todos : Json) (summary : String) (waitCycleId interruptId : Option String) :
    Does [.wait, .openWait runId]
      (createPlanApproval lease runId toolCallId todos summary waitCycleId interruptId) := by
  refine .bind (keeps_newId _) fun _ ↦ .bind keeps_utcNow fun _ ↦ .catchIf ?_
    (recordedPlanWait_does _ _ _ _ _)
  exact (insertPlanWait_does _ _).widen (by simp)

theorem createToolReconciliation_does (lease : Option ExecutionLease)
    (runId operationId waitCycleId interruptId : String) (payload : Json) :
    Does [.openWait runId]
      (createToolReconciliation lease runId operationId waitCycleId interruptId payload) := by
  refine .bind (.read _) fun existing ↦ ?_
  cases existing with
  | some candidate => exact .bind (.require _ _) fun _ ↦ .pure _
  | none =>
      exact .bind keeps_utcNow fun _ ↦ keeps_runWriteTransaction <|
        .bind openCandidate_does fun _ ↦ .pure _

theorem resolveCandidate_does (id : String) (decisionJson : Json) (now : Time) :
    Does [.wait] (resolveCandidate id decisionJson now) := by
  refine .bind (.read _) fun _ ↦ .bind (updateWaitCandidates_does fun c hc ↦ ?_) fun _ ↦ .pure _
  simp only [Bool.and_eq_true, decide_eq_true_eq] at hc
  exact ⟨rfl, hc.2, rfl⟩

theorem decidePermission_does (permissionId : String) {status : PermissionStatus}
    (scope : PermissionScope) (decisionJson : Json) (now : Time) (h : status ≠ .pending) :
    Does [.wait] (decidePermission permissionId status scope decisionJson now) := by
  refine .bind (.read _) fun _ ↦ .bind (updatePermissions_does fun p hp ↦ ?_) fun _ ↦ .pure _
  simp only [Bool.and_eq_true, decide_eq_true_eq] at hp
  exact ⟨rfl, hp.2, h⟩

theorem decideQuestion_does (questionId : String) (answersJson : Json) (now : Time) :
    Does [.wait] (decideQuestion questionId answersJson now) := by
  refine .bind (.read _) fun _ ↦ .bind (updateQuestions_does fun q hq ↦ ?_) fun _ ↦ .pure _
  simp only [Bool.and_eq_true, decide_eq_true_eq] at hq
  exact ⟨rfl, hq.2, by simp⟩

theorem decidePlan_does (approvalId : String) {status : PlanStatus}
    (instructions : Option String) (now : Time) (h : status ≠ .pending) :
    Does [.wait] (decidePlan approvalId status instructions now) := by
  refine .bind (.read _) fun _ ↦ .bind (updatePlanApprovals_does fun p hp ↦ ?_) fun _ ↦ .pure _
  simp only [Bool.and_eq_true, decide_eq_true_eq] at hp
  exact ⟨rfl, hp.2, h⟩

/-- The event of a decision, when one is asked for. -/
theorem appendDecision_does (runId eventType : String) (h : isLifecycleEvent eventType = false)
    (payloadJson : Json) (now : Time) :
    Does [.wait, .event] (do
      let _ ← appendEventUncommitted runId eventType payloadJson now
      pure ()) :=
  .bind ((appendEventUncommitted_does _ _ _ _ h).widen (by decide)) fun _ ↦ .pure _

theorem resolvePermission_does (lease : Option ExecutionLease) (permissionId : String)
    (status : PermissionStatus) (scope : Option PermissionScope)
    (decision eventPayload : Option Json) :
    Does [.wait, .event]
      (resolvePermission lease permissionId status scope decision eventPayload) := by
  refine .requireThen fun hstatus ↦ .bind (.read _) fun record? ↦ ?_
  have hdecided : status ≠ .pending := by rcases hstatus with h | h <;> simp [h]
  cases record? with
  | none => exact .pure _
  | some record =>
      refine .bind (.require _ _) fun _ ↦ .ite (.bind (keeps_runWriteTransaction ?_) fun _ ↦
        .read _) (.bind (.require _ _) fun _ ↦ .pure _)
      refine .bind (.read _) fun _ ↦ .bind (.require _ _) fun _ ↦ .bind keeps_utcNow fun _ ↦
        .bind ((decidePermission_does _ _ _ _ hdecided).widen (by decide)) fun _ ↦
        .bind (.require _ _) fun _ ↦ .bind keeps_utcNow fun _ ↦
        .bind ((resolveCandidate_does _ _ _).widen (by decide)) fun _ ↦
        .bind (.require _ _) fun _ ↦ ?_
      cases eventPayload with
      | none => exact .pure _
      | some payload => exact .bind keeps_utcNow fun _ ↦ appendDecision_does _ _ (by decide) _ _

theorem answerQuestion_does (lease : Option ExecutionLease) (questionId : String)
    (answers : Json) (eventPayload : Option Json) :
    Does [.wait, .event] (answerQuestion lease questionId answers eventPayload) := by
  refine .bind (.read _) fun record? ↦ ?_
  cases record? with
  | none => exact .pure _
  | some record =>
      refine .ite (.bind keeps_utcNow fun _ ↦ .bind (keeps_runWriteTransaction ?_) fun _ ↦
        .read _) (.bind (.require _ _) fun _ ↦ .pure _)
      refine .bind (.read _) fun _ ↦ .bind (.require _ _) fun _ ↦
        .bind ((decideQuestion_does _ _ _).widen (by decide)) fun _ ↦
        .bind ((resolveCandidate_does _ _ _).widen (by decide)) fun _ ↦
        .bind (.require _ _) fun _ ↦ ?_
      cases eventPayload with
      | none => exact .pure _
      | some payload => exact appendDecision_does _ _ (by decide) _ _

theorem consumeRunPermissionGrant_does (lease : Option ExecutionLease)
    (runId operationId toolName toolVersion risk : String) :
    Does [.grant]
      (consumeRunPermissionGrant lease runId operationId toolName toolVersion risk) := by
  refine keeps_runWriteTransaction <| .bind (.read _) fun existing ↦ .bind (.read _) fun grant? ↦ ?_
  split
  · exact .pure _
  · exact .pure _
  · refine .bind keeps_utcNow fun _ ↦ .bind (insertGrantUse_does _) fun _ ↦
      .bind (.bind (.read _) fun _ ↦ .bind (.write fun db ↦ ?_) fun _ ↦ .pure _) fun _ ↦
      .bind (.require _ _) fun _ ↦ .pure _
    exact .single (.granted fun _ _ _ ↦ rfl) (by simp)

section ReadOnly

variable {R : Database → Database → Prop} [Std.Refl R] [IsTrans Database R]

theorem keeps_waitCycleResumePayload (runId waitCycleId : String) :
    Keeps R (waitCycleResumePayload runId waitCycleId) := by
  refine .bind (.read _) fun rows ↦ .ite (.pure _) (.bind (.mapM (fun _ ↦ ?_) _) fun _ ↦ .pure _)
  exact .bind (.getOr _ _) fun _ ↦ .pure _

omit [IsTrans Database R] in
theorem keeps_waitingRun (principalId runId : String) :
    Keeps R (waitingRun principalId runId) := by
  unfold waitingRun findOwnedRun
  exact .read _

theorem keeps_requireReconciliationReceipts (candidate : WaitCandidate) :
    Keeps R (requireReconciliationReceipts candidate) :=
  .bind (.read _) fun _ ↦ .bind (.read _) fun _ ↦ .bind (.getOr _ _) fun _ ↦
    .bind (.read _) fun _ ↦ .require _ _

end ReadOnly

theorem applyReconciliation_does (candidate : WaitCandidate) (decision : ReconcileDecision)
    (results : ReconciliationResults) :
    Does [.reconcile candidate.id, .wait, .subagent]
      (applyReconciliation candidate decision results) := by
  refine .bind (keeps_requireReconciliationReceipts _) fun _ ↦ .bind keeps_utcNow fun _ ↦
    .bind (Does.widen (does_of_effect fun _ _ hm ↦ .reconcile hm) (by simp)) fun projected ↦
    .bind ((resolveCandidate_does _ _ _).widen (by simp)) fun _ ↦ .bind (.require _ _) fun _ ↦ ?_
  refine .bind (.forM (fun _ ↦ ?_) projected) fun _ ↦ .bind (.read _) fun _ ↦ .getOr _ _
  exact .bind ((projectedToolReceipt_does _).widen (by simp)) fun _ ↦ .pure _

theorem resolveToolReconciliationUncommitted_does (candidateId : String)
    (decision : ReconcileDecision) (results : ReconciliationResults) :
    Does [.reconcile candidateId, .wait, .subagent]
      (resolveToolReconciliationUncommitted candidateId decision results) := by
  intro s
  unfold resolveToolReconciliationUncommitted
  rw [post_bind, post_read, post_bind, post_getOr]
  intro candidate hcandidate
  have hid : candidate.id = candidateId :=
    Table.key_of_find? (Option.filter_eq_some_iff.mp hcandidate).1
  subst hid
  refine Keeps.ite (R := Writing [.reconcile candidate.id, .wait, .subagent]) ?_ ?_ s
  · exact .bind (applyReconciliation_does candidate decision results) fun _ ↦ .pure _
  · exact .bind (.require _ _) fun _ ↦ .pure _

theorem resolveToolReconciliation_does (lease : Option ExecutionLease) (candidateId : String)
    (decision : ReconcileDecision) (results : ReconciliationResults) :
    Does [.reconcile candidateId, .wait, .subagent]
      (resolveToolReconciliation lease candidateId decision results) := by
  refine .bind (.read _) fun record? ↦ ?_
  cases record? with
  | none => exact .pure _
  | some record =>
      exact keeps_runWriteTransaction <|
        .bind (resolveToolReconciliationUncommitted_does _ _ _) fun _ ↦ .pure _

/-! ## Commands that answer waits -/

theorem enqueueResumeJob_does (run : Run) (payload : Json) :
    Does [.newJob] (enqueueResumeJob run payload) := by
  refine .bind (.read _) fun active ↦ ?_
  cases active with
  | none => exact .bind (createRunJob_does _ _ _) fun _ ↦ .pure _
  | some job => exact .bind (.require _ _) fun _ ↦ .pure _

theorem finishWaitCommand_does (principalId commandId commandType : String) (payloadJson : Json)
    (run : Run) (waitCycleId : String) (receipt : Bool → Json) (createdAt : StoreTxn Time)
    (h : Does [] createdAt) :
    Does [.newJob, .command] (finishWaitCommand principalId commandId commandType payloadJson run
      waitCycleId receipt createdAt) := by
  refine .bind (.bind (keeps_waitCycleResumePayload _ _) fun payload ↦ ?_) fun _ ↦
    .bind (h.widen (by decide)) fun _ ↦
    .bind ((recordCommandReceiptUncommitted_does _ _ _ _ _ _ _).widen (by decide)) fun _ ↦ .pure _
  cases payload with
  | none => exact .pure _
  | some resume => exact .ite ((enqueueResumeJob_does _ _).widen (by decide)) (.pure _)

theorem publishDecision_does (runId : String) (rowcount : ℕ) (candidateId : String)
    (decisionJson : Json) (now : Time) (conflict eventType : String) (payload : Json)
    (h : isLifecycleEvent eventType = false) :
    Does [.wait, .event] (publishDecision runId rowcount candidateId decisionJson now conflict
      eventType payload) :=
  .bind ((resolveCandidate_does _ _ _).widen (by decide)) fun _ ↦ .bind (.require _ _) fun _ ↦
    appendDecision_does _ _ h _ _

theorem settleQuestion_does (run : Run) (question : Question) (answers : Json) :
    Does [.wait, .event] (settleQuestion run question answers) :=
  .ite (.bind (.require _ _) fun _ ↦ .bind keeps_utcNow fun _ ↦
    .bind ((decideQuestion_does _ _ _).widen (by decide)) fun _ ↦
    publishDecision_does _ _ _ _ _ _ _ _ (by decide)) (.require _ _)

theorem PermissionDecision.status_ne_pending (decision : PermissionDecision) :
    decision.status ≠ .pending := by
  cases decision <;> simp [status]

theorem PlanDecision.status_ne_pending (decision : PlanDecision) :
    decision.status ≠ .pending := by
  cases decision <;> decide

theorem settlePermission_does (run : Run) (permission : Permission)
    (decision : PermissionDecision) (scope : PermissionScope) :
    Does [.wait, .event] (settlePermission run permission decision scope) :=
  .ite (.bind (.require _ _) fun _ ↦ .bind keeps_utcNow fun _ ↦
    .bind ((decidePermission_does _ _ _ _ decision.status_ne_pending).widen (by decide)) fun _ ↦
    publishDecision_does _ _ _ _ _ _ _ _ (by decide)) (.require _ _)

theorem settlePlan_does (run : Run) (plan : PlanApproval) (decision : PlanDecision)
    (instructions : Option String) :
    Does [.wait, .event] (settlePlan run plan decision instructions) :=
  .ite (.bind (.require _ _) fun _ ↦ .bind keeps_utcNow fun _ ↦
    .bind ((decidePlan_does _ _ _ decision.status_ne_pending).widen (by decide)) fun _ ↦
    publishDecision_does _ _ _ _ _ _ _ _ (by decide)) (.require _ _)

/-- The writes that answering a wait makes. -/
abbrev answerKinds : List Kind := [.newJob, .command, .wait, .event, .subagent]

theorem requestQuestionAnswerCommand_does (principalId commandId questionId : String)
    (answers : Json) :
    Does answerKinds (requestQuestionAnswerCommand principalId commandId questionId answers) :=
  keeps_acceptCommand <| .bind (.read _) fun _ ↦ .bind (.getOr _ _) fun _ ↦
    .bind (keeps_waitingRun _ _) fun _ ↦ .bind (.getOr _ _) fun _ ↦
    .bind (keeps_requireWorkspace _ _) fun _ ↦
    .bind ((settleQuestion_does _ _ _).widen (by decide)) fun _ ↦
    (finishWaitCommand_does _ _ _ _ _ _ _ _ keeps_utcNow).widen (by decide)

theorem requestPermissionResolveCommand_does (principalId commandId permissionId : String)
    (decision : PermissionDecision) (scope : PermissionScope) :
    Does answerKinds
      (requestPermissionResolveCommand principalId commandId permissionId decision scope) :=
  keeps_acceptCommand <| .bind (.read _) fun _ ↦ .bind (.getOr _ _) fun _ ↦
    .bind (keeps_waitingRun _ _) fun _ ↦ .bind (.getOr _ _) fun _ ↦
    .bind (keeps_requireWorkspace _ _) fun _ ↦
    .bind (.require _ _) fun _ ↦ .bind (.require _ _) fun _ ↦
    .bind ((settlePermission_does _ _ _ _).widen (by decide)) fun _ ↦
    (finishWaitCommand_does _ _ _ _ _ _ _ _ keeps_utcNow).widen (by decide)

theorem requestPlanResolveCommand_does (principalId commandId approvalId : String)
    (decision : PlanDecision) (instructions : Option String) :
    Does answerKinds
      (requestPlanResolveCommand principalId commandId approvalId decision instructions) :=
  keeps_acceptCommand <| .bind (.read _) fun _ ↦ .bind (.getOr _ _) fun _ ↦
    .bind (keeps_waitingRun _ _) fun _ ↦ .bind (.getOr _ _) fun _ ↦
    .bind (keeps_requireWorkspace _ _) fun _ ↦
    .bind ((settlePlan_does _ _ _ _).widen (by decide)) fun _ ↦
    (finishWaitCommand_does _ _ _ _ _ _ _ _ keeps_utcNow).widen (by decide)

theorem publishReconciliation_does (runId operationId : String) (decision : ReconcileDecision)
    (newlyResolved : Bool) (now : Time) :
    Does [.wait, .event]
      (publishReconciliation runId operationId decision newlyResolved now) :=
  .when (appendDecision_does _ _ (by decide) _ _)

theorem requestToolReconcileCommand_does (principalId commandId operationId : String)
    (decision : ReconcileDecision) (results : ReconciliationResults) :
    Does (.reconcile operationId :: answerKinds)
      (requestToolReconcileCommand principalId commandId operationId decision results) :=
  keeps_acceptCommand <| .bind (.read _) fun _ ↦ .bind (.getOr _ _) fun _ ↦
    .bind (keeps_waitingRun _ _) fun _ ↦ .bind (.getOr _ _) fun _ ↦
    .bind (keeps_requireWorkspace _ _) fun _ ↦
    .bind (.require _ _) fun _ ↦
    .bind ((resolveToolReconciliationUncommitted_does _ _ _).widen (by simp)) fun _ ↦
    .bind keeps_utcNow fun _ ↦
    .bind ((publishReconciliation_does _ _ _ _ _).widen (by simp)) fun _ ↦
    (finishWaitCommand_does _ _ _ _ _ _ _ _ (.pure _)).widen (by simp)

/-! ## Commands that start runs -/

section ReadOnly

variable {R : Database → Database → Prop} [Std.Refl R] [IsTrans Database R]

omit [IsTrans Database R] in
theorem keeps_idOr (given : Option String) (pre : String) : Keeps R (idOr given pre) := by
  unfold idOr
  split
  · exact .pure _
  · exact keeps_newId _

theorem keeps_requireAvailable (installed : List InstalledPlugin) (pluginId : String)
    (expectedDigest : Option String) :
    Keeps R (requireAvailable installed pluginId expectedDigest) :=
  .bind (.getOr _ _) fun _ ↦ .bind (.require _ _) fun _ ↦ .bind (.require _ _) fun _ ↦
    .bind (.require _ _) fun _ ↦ .bind (.require _ _) fun _ ↦ .pure _

theorem keeps_bindPlugin (plugin : InstalledPlugin) (selectionSource : String) (required : Bool)
    (commandId : Option String) : Keeps R (bindPlugin plugin selectionSource required commandId) :=
  .bind (.draw _) fun _ ↦ .pure _

theorem keeps_bindReference (installed : List InstalledPlugin) (reference : PluginRef) :
    Keeps R (bindReference installed reference) :=
  .bind (keeps_requireAvailable _ _ _) fun _ ↦ keeps_bindPlugin _ _ _ _

theorem keeps_bindCommand (installed : List InstalledPlugin) (command : PluginCommandRef) :
    Keeps R (bindCommand installed command) :=
  .bind (keeps_requireAvailable _ _ _) fun _ ↦ .bind (.require _ _) fun _ ↦
    keeps_bindPlugin _ _ _ _

theorem keeps_resolveRunPluginBindings (principalId : String) (refs : List PluginRef)
    (command : Option PluginCommandRef) (inheritFromRunId : Option String) :
    Keeps R (resolveRunPluginBindings principalId refs command inheritFromRunId) := by
  cases inheritFromRunId with
  | some runId => exact Keeps.read fun db ↦ inheritedBindings db runId
  | none =>
      exact .bind (.read _) fun installed ↦
        .bind (.mapM (fun _ ↦ keeps_bindPlugin _ _ _ _) _) fun _ ↦
        .bind (.mapM (keeps_bindReference installed) _) fun _ ↦
        .bind (.mapM (keeps_bindCommand installed) _) fun _ ↦ .pure _

theorem keeps_admittedRootRunId (c : RunCommand) : Keeps R (admittedRootRunId c) := by
  unfold admittedRootRunId
  split
  · exact .pure _
  · exact .bind (.read _) fun _ ↦ .bind (.getOr _ _) fun _ ↦ .bind (.require _ _) fun _ ↦
      .bind (.require _ _) fun _ ↦ .pure _

theorem keeps_requireRunCommandWorkspace (c : RunCommand) :
    Keeps R (requireRunCommandWorkspace c) :=
  .bind (.require _ _) fun _ ↦ .bind (keeps_workspacePathError _) fun _ ↦
    .bind (keeps_refuseWorkspace _ _) fun _ ↦ .bind (.read _) fun _ ↦ keeps_refuseWorkspace _ _

omit [IsTrans Database R] in
theorem keeps_productThread (c : RunCommand) : Keeps R (productThread c) := by
  unfold productThread
  split
  · exact .draw _
  · exact keeps_newId _

omit [IsTrans Database R] in
theorem keeps_assistantItem (c : RunCommand) : Keeps R (assistantItem c) := by
  unfold assistantItem
  split
  · exact .draw _
  · exact keeps_newId _

end ReadOnly

/-- A run as it is recorded for a request. -/
structure Run.RecordOf (run : Run) (new : NewRun) : Prop where
  id : run.id ≠ ""
  status : run.status = .queued
  principalId : run.principalId = new.principalId
  runKind : run.runKind = new.runKind
  rootRunId : run.rootRunId = some (textOr new.rootRunId run.id)
  parentRunId : run.parentRunId = new.parentRunId
  collaborationDepth : run.collaborationDepth = new.collaborationDepth
  spawnOperationId : run.spawnOperationId = new.spawnOperationId
  threadId : run.threadId = new.threadId
  assistantItemId : run.assistantItemId = new.assistantItemId
  historyJson : run.historyJson = new.history
  goal : run.goal = new.goal
  workspacePath : run.workspacePath = new.workspacePath
  graphCheckpointId : run.graphCheckpointId = new.graphCheckpointId
  agentDefinitionId : run.agentDefinitionId = new.agentDefinitionId
  agentDefinitionVersion : run.agentDefinitionVersion = new.agentDefinitionVersion
  metadataJson : run.metadataJson = Json.orEmpty new.metadata
  collaborationPolicyJson : run.collaborationPolicyJson =
    encodePayload (Json.orEmpty new.collaborationPolicy)

theorem newRunRecord_post {s : Session Database World} {new : NewRun}
    {Q : Run → Session Database World → Prop}
    (h : ∀ run w, run.RecordOf new → Q run ⟨s.db, w⟩) : Post (newRunRecord new) s Q := by
  unfold newRunRecord newId
  rw [post_bind, post_draw, post_bind]
  refine post_readOnly (keeps_idOr _ _) fun graphThreadId w₂ ↦ ?_
  rw [post_bind]
  refine post_utcNow fun createdAt w₃ ↦ ?_
  rw [post_bind]
  refine post_utcNow fun updatedAt w₄ ↦ ?_
  rw [post_pure]
  exact h _ w₄ ⟨by simp, rfl, rfl, rfl, rfl, rfl, rfl, rfl, rfl, rfl, rfl, rfl, rfl, rfl, rfl, rfl,
    rfl, rfl⟩

/-- A run record that is inserted is queued. -/
theorem newRun_does {kinds : List Kind} {new : NewRun} {f : Run → StoreTxn α}
    (hf : ∀ run, run.status = .queued → Does kinds (f run)) :
    Does kinds (newRunRecord new >>= f) :=
  does_bind_where (fun s ↦ newRunRecord_post fun _ _ hrecord ↦
    ⟨refl_of (Writing kinds) s.db, hrecord.status⟩) hf

theorem openNewThread_eventless (c : RunCommand) (threadId : String) (now : Time) :
    Eventless (openNewThread c threadId now) := by
  refine .bind (.require _ _) fun _ ↦ .bind (Journal.insertThread_eventless _) fun _ ↦
    .bind (.forM (fun _ ↦ ?_) _) fun _ ↦ .pure _
  exact .bind (keeps_newId _) fun _ ↦ Journal.insertThreadItem_eventless _

theorem turnBasePosition_eventless (c : RunCommand) (live : List ThreadItem) :
    Eventless (turnBasePosition c live) := by
  unfold turnBasePosition
  split
  · exact .bind (.getOr _ _) fun _ ↦ .pure _
  · exact .pure _

theorem continueThread_eventless (c : RunCommand) (busy : Bool) (thread : Thread) (now : Time) :
    Eventless (continueThread c busy thread now) :=
  .bind (.require _ _) fun _ ↦ .bind (.require _ _) fun _ ↦ .bind (.read _) fun _ ↦
    .bind (.require _ _) fun _ ↦ .bind (.require _ _) fun _ ↦ .bind (.read _) fun _ ↦
    .bind (turnBasePosition_eventless _ _) fun _ ↦
    .bind (Journal.updateThreads_eventless _ _ _) fun _ ↦ .pure _

theorem openThread_does (c : RunCommand) (threadId : String) (now : Time) :
    Does [.turn] (openThread c threadId now) := by
  refine .bind (.read _) fun busy ↦ .bind (.read _) fun thread? ↦ ?_
  cases thread? with
  | none => exact onJournal_does fun _ ↦ openNewThread_eventless _ _ _
  | some thread =>
      exact .bind (.require _ _) fun _ ↦ onJournal_does fun _ ↦ continueThread_eventless _ _ _ _

theorem writeTurn_eventless (c : RunCommand) (runId assistantItemId : String)
    (thread : TurnThread) (metadata : Json) (now : Time) :
    Eventless (writeTurn c runId assistantItemId thread metadata now) :=
  .bind (.when (Journal.updateItems_eventless _ _ _)) fun _ ↦
    .bind (.bind (keeps_newId _) fun _ ↦ .bind (Journal.insertThreadItem_eventless _) fun _ ↦
      Journal.insertThreadItem_eventless _) fun _ ↦
    Journal.insertThreadChange_eventless _ _ _ _ _ _

/-- The writes that creating a run makes. -/
abbrev startKinds : List Kind := [.newRun, .newJob, .plugin, .content]

theorem insertRunInputs_does (runId : String) (items : List RunInputItem) (now : Time) :
    Does [.content] (insertRunInputs runId items now) :=
  .bind (.require _ _) fun _ ↦ .bind (.require _ _) fun _ ↦
    .write fun _ ↦ .single (.content _) (by simp)

theorem insertRunPluginBindings_does (runId : String) (bindings : List PluginBinding) :
    Does [.plugin] (insertRunPluginBindings runId bindings) :=
  .write fun _ ↦ .single (.plugins _) (by simp)

theorem createCommandedRun_does (c : RunCommand) (rootRunId : Option String)
    (bindings : List PluginBinding) :
    Does (.command :: .turn :: startKinds) (createCommandedRun c rootRunId bindings) :=
  .bind (keeps_productThread _) fun _ ↦ .bind keeps_utcNow fun _ ↦
    .bind ((openThread_does _ _ _).widen (by decide)) fun _ ↦ .bind (keeps_assistantItem _) fun _ ↦
    newRun_does fun _ hqueued ↦ .bind ((insertRun_does hqueued).widen (by decide)) fun _ ↦
    .bind ((insertRunInputs_does _ _ _).widen (by decide)) fun _ ↦
    .bind ((insertRunPluginBindings_does _ _).widen (by decide)) fun _ ↦
    .bind ((onJournal_does fun _ ↦ writeTurn_eventless _ _ _ _ _ _).widen (by decide)) fun _ ↦
    newRunJob_does fun _ hfresh ↦ .bind ((insertRunJob_does hfresh).widen (by decide)) fun _ ↦
    .bind ((insertCommand_does _).widen (by decide)) fun _ ↦ .pure _

theorem acceptRunCommand_does (c : RunCommand) :
    Does (.command :: .turn :: startKinds) (acceptRunCommand c) := by
  refine .bind (keeps_acceptedRunForCommand _ _ _) fun existing ↦ ?_
  cases existing with
  | some accepted => exact .pure _
  | none =>
      exact .bind (keeps_requireRunCommandWorkspace _) fun _ ↦
        .bind (keeps_admittedRootRunId _) fun _ ↦
        .bind (keeps_resolveRunPluginBindings _ _ _ _) fun _ ↦
        .bind (createCommandedRun_does _ _ _) fun _ ↦ .pure _

/-! ## Child runs -/

section ReadOnly

variable {R : Database → Database → Prop} [Std.Refl R] [IsTrans Database R]

theorem keeps_resolveResource (workspacePath raw : String) (workspace : List String) :
    Keeps R (resolveResource workspacePath raw workspace) := by
  refine .ite (.bind (.draw _) fun absolute ↦ ?_) (.draw _)
  split
  · exact .pure _
  · exact .draw _

theorem keeps_normalizeWorkspaceResourceKey (workspacePath : Option String)
    (requestedPath : String) :
    Keeps R (normalizeWorkspaceResourceKey workspacePath requestedPath) :=
  .bind (.getOr _ _) fun _ ↦ .bind (.require _ _) fun _ ↦ .bind (.draw _) fun _ ↦
    .bind (keeps_resolveResource _ _ _) fun _ ↦ .bind (.getOr _ _) fun _ ↦
    .bind (.require _ _) fun _ ↦ .bind (.require _ _) fun _ ↦ .pure _

theorem keeps_normalizeQuorum (request : CoordinationRequest) :
    Keeps R (normalizeQuorum request) :=
  .ite (.bind (.require _ _) fun _ ↦ .bind (.getOr _ _) fun _ ↦ .bind (.require _ _) fun _ ↦
    .pure _) (.bind (.require _ _) fun _ ↦ .pure _)

theorem keeps_normalizeChildCoordination (request : CoordinationRequest)
    (workspacePath : Option String) :
    Keeps R (normalizeChildCoordination request workspacePath) :=
  .bind (.require _ _) fun _ ↦
    .bind (.mapM (fun _ ↦ keeps_normalizeWorkspaceResourceKey _ _) _) fun _ ↦
    .bind (.require _ _) fun _ ↦ .bind (keeps_normalizeQuorum _) fun _ ↦ .pure _

theorem keeps_normalizeChildAgentDefinition (d : ChildAgentDefinition) :
    Keeps R (normalizeChildAgentDefinition d) :=
  .bind (.forM (fun _ ↦ .require _ _) _) fun _ ↦ .bind (.require _ _) fun _ ↦
    .bind (.require _ _) fun _ ↦ .pure _

theorem keeps_requireSpawnOperation (request : ChildRequest) (lease : Option ExecutionLease) :
    Keeps R (requireSpawnOperation request lease) :=
  .bind (.read _) fun _ ↦ .bind (.getOr _ _) fun _ ↦ .bind (.getOr _ _) fun _ ↦ .require _ _

theorem keeps_requireChildAdmission (parent : Run) (rootRunId : String) (c : Coordination) :
    Keeps R (requireChildAdmission parent rootRunId c) := by
  refine .bind (.require _ _) fun _ ↦ .bind (.require _ _) fun _ ↦ .bind (.read _) fun _ ↦
    .bind (.require _ _) fun _ ↦ .bind (.require _ _) fun _ ↦ .bind (.read _) fun _ ↦
    .bind (.require _ _) fun _ ↦ .forM (fun resourceKey ↦ .bind (.read _) fun claim? ↦ ?_) _
  cases claim? with
  | none => exact .pure _
  | some claim => exact .fail _

end ReadOnly

theorem insertChildCollaboration_does (child : Run) (parentRunId rootRunId : String)
    (c : Coordination) :
    Does [.collaboration] (insertChildCollaboration child parentRunId rootRunId c) :=
  .bind (does_of_effect fun _ _ hm ↦ .coordination hm) fun _ ↦
    .bind (.forM (fun _ ↦ does_of_effect fun _ _ hm ↦ .dependency hm) _) fun _ ↦
    .forM (fun _ ↦ does_of_effect fun _ _ hm ↦ .resourceClaim hm) _

theorem copyParentContent_does (childRunId parentRunId : String) :
    Does [.content, .plugin] (copyParentContent childRunId parentRunId) :=
  .write fun db ↦ trans_of (Writing [.content, .plugin])
    (.single (.content { db.content with runInputs := db.content.runInputs ++
      (db.content.runInputs.filter fun i ↦ i.runId = parentRunId).map fun i ↦
        { i with runId := childRunId } }) (by simp)) (.single (.plugins _) (by simp))

/-- Reporting an event and going on. -/
theorem report_does {kinds : List Kind} {runId eventType : String} {payloadJson : Json}
    {at' : Time} {rest : Event → StoreTxn α} (h : isLifecycleEvent eventType = false)
    (hkinds : Kind.event ∈ kinds) (hrest : ∀ event, Does kinds (rest event)) :
    Does kinds (do
      let (event, _) ← appendEventUncommitted runId eventType payloadJson at'
      touchThreadForRunEventUncommitted runId eventType event.seq at'
      rest event) := by
  have hreport : Does kinds (reportEvent runId eventType payloadJson at') :=
    (reportEvent_does _ _ _ _ h).widen (by simpa using hkinds)
  have hboth := hreport.bind hrest
  unfold reportEvent at hboth
  simpa only [bind_assoc, pure_bind] using hboth

theorem createChildRun_does (request : ChildRequest) (goal : String)
    (definition : ChildAgentDefinition) (parent : Run) (c : Coordination) :
    Does (.collaboration :: .event :: startKinds)
      (createChildRun request goal definition parent c) := by
  refine .bind (keeps_requireChildAdmission _ _ _) fun _ ↦
    newRun_does fun _ hqueued ↦ .bind ((insertRun_does hqueued).widen (by decide)) fun _ ↦
    .bind ((insertChildCollaboration_does _ _ _ _).widen (by decide)) fun _ ↦
    .bind ((copyParentContent_does _ _).widen (by decide)) fun _ ↦
    newRunJob_does fun _ hfresh ↦ .bind ((insertRunJob_does hfresh).widen (by decide)) fun _ ↦ ?_
  exact report_does (by decide) (by decide) fun _ ↦ .pure _

theorem acceptChildRun_does (lease : Option ExecutionLease) (request : ChildRequest) :
    Does (.collaboration :: .event :: startKinds) (acceptChildRun lease request) := by
  refine .bind (.require _ _) fun _ ↦ .bind (keeps_normalizeChildAgentDefinition _) fun _ ↦
    keeps_runWriteTransaction <| .bind (keeps_findRun _) fun _ ↦ .bind (.getOr _ _) fun _ ↦
    .bind (keeps_normalizeChildCoordination _ _) fun _ ↦ .bind (.read _) fun existing ↦ ?_
  cases existing with
  | some record => exact .bind (.require _ _) fun _ ↦ .pure _
  | none =>
      exact .bind (keeps_requireSpawnOperation _ _) fun _ ↦
        .bind (createChildRun_does _ _ _ _ _) fun _ ↦ .pure _

/-! ## The other writes of an attempt -/

theorem endModelCall_does (runId callId message : String) {f : ModelCall → ModelCall}
    {hf : ∀ c, (f c).id = c.id} (h : ∀ c : ModelCall, c.open = true → c.Ends (f c)) :
    Does [.call] (updateOpenModelCall runId callId message f hf) := by
  refine .bind (.read _) fun _ ↦ .bind (updateModelCalls_does fun c hc ↦ ?_) fun _ ↦ .require _ _
  simp only [Bool.and_eq_true] at hc
  exact h c hc.2

theorem reserveModelCall_does (lease : Option ExecutionLease) (request : ReserveModelCall) :
    Does [.openCall] (reserveModelCall lease request) := by
  refine .bind (.require _ _) fun _ ↦ keeps_runWriteTransaction <| .bind ?_ fun _ ↦
    .bind (.read _) fun _ ↦ .bind (.require _ _) fun _ ↦ .bind (keeps_newId _) fun _ ↦
    .bind keeps_utcNow fun _ ↦ .bind (insertModelCall_does rfl) fun _ ↦ .pure _
  unfold requireModelCallParent
  split
  · exact .pure ()
  · exact keeps_requireToolReceiptInRunUncommitted _ _

theorem markModelCallOutput_does (lease : Option ExecutionLease) (runId callId : String) :
    Does [.openCall] (markModelCallOutput lease runId callId) := by
  refine keeps_runWriteTransaction <| .bind (.read _) fun _ ↦ .bind ?_ fun _ ↦ .require _ _
  refine .write fun db ↦ .single (.output fun c _ hc ↦ ?_) (by simp)
  simp only [Bool.and_eq_true] at hc
  exact ⟨hc.2, rfl⟩

theorem settleModelCall_does (lease : Option ExecutionLease) (runId callId : String)
    (inputTokens outputTokens : Option ℕ) :
    Does [.call] (settleModelCall lease runId callId inputTokens outputTokens) :=
  .bind keeps_utcNow fun _ ↦ keeps_runWriteTransaction <| endModelCall_does _ _ _ fun c hc ↦
    ⟨hc, by unfold ModelCall.open; dsimp only; split <;> rfl, rfl, rfl⟩

theorem failModelCall_does (lease : Option ExecutionLease) (runId callId : String)
    (outcomeUnknown : Bool) (errorCode : Option String) (inputTokens outputTokens : Option ℕ) :
    Does [.call] (failModelCall lease runId callId outcomeUnknown errorCode inputTokens
      outputTokens) :=
  keeps_runWriteTransaction <| .bind keeps_utcNow fun _ ↦ endModelCall_does _ _ _ fun c hc ↦
    ⟨hc, by cases outcomeUnknown <;> rfl, rfl, rfl⟩

theorem recordSandboxProcess_does (runId : String) (attempt : AttemptId) (pid : ℕ)
    (processStartedAt settingsPath : String) :
    Does [.sandbox] (recordSandboxProcess runId attempt pid processStartedAt settingsPath) :=
  .bind keeps_utcNow fun _ ↦ .bind (keeps_newId _) fun _ ↦
    .bind (insertSandboxProcess_does _) fun _ ↦ .pure _

theorem forgetSandboxProcess_does (id : String) : Does [.sandbox] (forgetSandboxProcess id) :=
  .write fun _ ↦ .single (.sandboxes _) (by simp)

theorem settleSandboxProcess_does (id : String) (status : SandboxStatus) :
    Does [.sandbox] (settleSandboxProcess id status) :=
  .bind (.require _ _) fun _ ↦ .bind keeps_utcNow fun _ ↦ updateSandboxProcesses_does _ _ _

theorem bindGraphDefinition_does (lease : Option ExecutionLease) (runId definitionId : String) :
    Does [.run] (bindGraphDefinition lease runId definitionId) :=
  keeps_runWriteTransaction <| .bind (.read _) fun _ ↦ .bind (.getOr _ _) fun _ ↦
    .bind (.require _ _) fun _ ↦ .when (.bind keeps_utcNow fun _ ↦ updateRuns_does fun _ ↦ ⟨rfl, rfl⟩)

theorem advanceGraphCheckpoint_does (lease : Option ExecutionLease)
    (runId graphThreadId : String) (expectedCheckpointId : Option String) (checkpointId : String) :
    Does [.graphHead] (advanceGraphCheckpoint lease runId graphThreadId expectedCheckpointId
      checkpointId) :=
  keeps_runWriteTransaction <| .bind (.read _) fun _ ↦ .bind (.getOr _ _) fun _ ↦
    .bind (.require _ _) fun _ ↦ .when (.bind (.require _ _) fun _ ↦ .bind keeps_utcNow fun _ ↦
      .write fun _ ↦ .single (.heads fun _ _ _ ↦ rfl) (by simp))

theorem updateAssistantDraft_does (lease : Option ExecutionLease)
    (runId messageKey content : String) (toolCalls : Json) :
    Does [.content] (updateAssistantDraft lease runId messageKey content toolCalls) := by
  refine .bind keeps_utcNow fun _ ↦ keeps_runWriteTransaction <| .bind (.read _) fun existing ↦ ?_
  split
  · exact .pure _
  · exact .bind (keeps_requireRunRow _) fun _ ↦
      .bind (.write fun _ ↦ .single (.content _) (by simp)) fun _ ↦ .pure _

theorem claimPendingSteering_does (lease : Option ExecutionLease) (runId : String) :
    Does [.content] (claimPendingSteering lease runId) :=
  keeps_runWriteTransaction <| .bind (.read _) fun _ ↦ .ite (.pure _) <|
    .bind keeps_utcNow fun _ ↦ .bind (.write fun _ ↦ .single (.content _) (by simp)) fun _ ↦
    .pure _

theorem recordCommandReceipt_does (principalId commandId commandType : String)
    (payload receipt : Json) (runId : Option String) :
    Does [.command]
      (recordCommandReceipt principalId commandId commandType payload receipt runId) :=
  keeps_acceptCommand <| .bind keeps_utcNow fun _ ↦
    .bind (recordCommandReceiptUncommitted_does _ _ _ _ _ _ _) fun _ ↦ .pure _

theorem commitAssistantRound_does (lease : Option ExecutionLease) (runId : String)
    (payload : Json) : Does [.event] (commitAssistantRound lease runId payload) := by
  refine .bind (.require _ _) fun _ ↦ keeps_runWriteTransaction <| .bind (.read _) fun existing ↦ ?_
  cases existing with
  | some event => exact .bind (.require _ _) fun _ ↦ .pure _
  | none =>
      have hreturn : ∀ event : Event, Does [.event] (pure (event, true) : StoreTxn (Event × Bool)) :=
        fun _ ↦ .pure _
      exact .bind keeps_utcNow fun _ ↦ report_does (by decide) (by decide) hreturn

/-! ## Threads -/

/-- The thread that was read is the one that advances. -/
theorem advanceThread_does {s : Session Database World} {thread : Thread} {f : Thread → Thread}
    {hf : ∀ t, (f t).id = t.id} {changeType : String} {now : Time}
    (hfind : s.db.journal.threads.find? thread.id = some thread)
    (hprincipal : ∀ t, (f t).principalId = t.principalId) :
    Post (onJournal fun _ ↦ Journal.advanceThread thread f changeType now hf) s fun _ s' ↦
      Writing [.thread] s.db s'.db := by
  intro a s' hrun
  exact .single (.thread hfind hprincipal ⟨s.world, a, s'.world, hrun⟩) (by simp)

theorem updateThread_does (principalId threadId : String) (title : Option String)
    (metadata : Option Json) (archived : Option Bool) :
    Does [.thread] (updateThread principalId threadId title metadata archived) := by
  intro s
  unfold updateThread findOwnedThread
  rw [post_bind, post_read]
  split
  · exact (post_pure _).mpr (refl_of (Writing _) s.db)
  · rename_i thread hthread
    have hfound := (Option.filter_eq_some_iff.mp hthread).1
    have hfind := (Option.filter_eq_some_iff.mp hfound).1
    have hid : thread.id = threadId := Table.key_of_find? hfind
    rw [post_bind]
    refine post_utcNow fun now w ↦ ?_
    rw [post_bind]
    refine Post.mono (P := fun _ s' ↦ Writing [.thread] s.db s'.db) ?_ fun _ _ hdb ↦
      (post_read _).mpr hdb
    exact advanceThread_does (by rw [hid]; exact hfind) fun _ ↦ rfl

theorem deleteThread_does (principalId threadId : String) :
    Does [.thread] (deleteThread principalId threadId) := by
  intro s
  unfold deleteThread findOwnedThread
  rw [post_bind, post_read]
  split
  · exact (post_pure _).mpr (refl_of (Writing _) s.db)
  · rename_i thread hthread
    have hfind := (Option.filter_eq_some_iff.mp hthread).1
    have hid : thread.id = threadId := Table.key_of_find? hfind
    rw [post_ite]
    refine ⟨fun _ ↦ (post_pure _).mpr (refl_of (Writing _) s.db), fun _ ↦ ?_⟩
    rw [post_bind, post_read, post_bind, post_require]
    intro _
    rw [post_bind]
    refine post_utcNow fun now w ↦ ?_
    rw [post_bind]
    refine Post.mono (P := fun _ s' ↦ Writing [.thread] s.db s'.db) ?_ fun _ _ hdb ↦
      (post_pure _).mpr hdb
    exact advanceThread_does (by rw [hid]; exact hfind) fun _ ↦ rfl

/-! ## The mailbox -/

section ReadOnly

variable {R : Database → Database → Prop} [Std.Refl R] [IsTrans Database R]

theorem keeps_normalizeAgentMessageContent (content : MessageContent) :
    Keeps R (normalizeAgentMessageContent content) :=
  .bind (.getOr _ _) fun _ ↦ .bind (.require _ _) fun _ ↦ .bind (.require _ _) fun _ ↦
    .bind (.require _ _) fun _ ↦ .bind (.require _ _) fun _ ↦ .bind (.require _ _) fun _ ↦
    .bind (.require _ _) fun _ ↦ .pure _

theorem keeps_requireMailboxReceiptUncommitted (lease : Option ExecutionLease)
    (runId toolName : String) (operationId : Option String) :
    Keeps R (requireMailboxReceiptUncommitted lease runId toolName operationId) := by
  refine .bind (.getOr _ _) fun _ ↦ ?_
  cases operationId with
  | none => exact .bind (.read _) fun _ ↦ .require _ _
  | some operationId =>
      exact .bind (.read _) fun _ ↦ .bind (.getOr _ _) fun _ ↦ .require _ _

theorem keeps_requireMailboxParticipants (out : OutgoingMessage) :
    Keeps R (requireMailboxParticipants out) :=
  .bind (.require _ _) fun _ ↦ .bind (keeps_findRun _) fun _ ↦ .bind (keeps_findRun _) fun _ ↦
    .bind (.getOr _ _) fun _ ↦ .bind (.getOr _ _) fun _ ↦ .bind (.require _ _) fun _ ↦
    .bind (.require _ _) fun _ ↦ .bind (.require _ _) fun _ ↦ .bind (.require _ _) fun _ ↦ .pure _

theorem keeps_requireMailboxCapacity (recipientRunId root : String) :
    Keeps R (requireMailboxCapacity recipientRunId root) :=
  .bind (.read _) fun _ ↦ .bind (.require _ _) fun _ ↦ .bind (.read _) fun _ ↦ .require _ _

end ReadOnly

theorem appendAgentMessageEventUncommitted_does (runId eventType : String)
    (message : AgentMessage) (createdAt : Time) (h : isLifecycleEvent eventType = false) :
    Does [.event] (appendAgentMessageEventUncommitted runId eventType message createdAt) := by
  have hreport := Keeps.map (fun _ ↦ ()) (reportEvent_does runId eventType
    (encodePayload (agentMessageProjection message)) createdAt h)
  unfold reportEvent at hreport
  unfold appendAgentMessageEventUncommitted
  simpa only [map_bind, map_pure, bind_pure_unit] using hreport

theorem moves_of_unacknowledged {m : AgentMessage} (h : m.unacknowledged = true) :
    m.Moves { m with status := .expired } := by
  simp only [AgentMessage.unacknowledged, Bool.or_eq_true, decide_eq_true_eq] at h
  refine ⟨rfl, ?_⟩
  rcases h with h | h <;> simp [h, MessageStatus.reaches]

theorem expireAgentMessagesUncommitted_does (recipientRunId : String) (now : Time) :
    Does [.message, .event] (expireAgentMessagesUncommitted recipientRunId now) := by
  refine .bind (.read _) fun _ ↦ .bind (Does.widen (updateAgentMessages_does fun m hm ↦ ?_)
    (by decide)) fun _ ↦
      .forM (fun _ ↦ (appendAgentMessageEventUncommitted_does _ _ _ _ (by decide)).widen
        (by decide)) _
  simp only [AgentMessage.overdue, Bool.and_eq_true] at hm
  exact moves_of_unacknowledged hm.1.2

theorem storeAgentMessage_does (out : OutgoingMessage) :
    Does [.message, .newMessage, .event] (storeAgentMessage out) :=
  .bind (keeps_requireMailboxParticipants _) fun _ ↦ .bind (.read _) fun _ ↦
    .bind (.require _ _) fun _ ↦ .bind (.require _ _) fun _ ↦ .bind keeps_utcNow fun _ ↦
    .bind ((expireAgentMessagesUncommitted_does _ _).widen (by decide)) fun _ ↦
    .bind (keeps_requireMailboxCapacity _ _) fun _ ↦ .bind (keeps_newId _) fun _ ↦
    .bind keeps_utcNow fun _ ↦
    .bind (Does.widen (insertAgentMessage_does rfl) (by decide)) fun _ ↦
    .bind ((appendAgentMessageEventUncommitted_does _ _ _ _ (by decide)).widen (by decide)) fun _ ↦
    .pure _

theorem insertAgentMessageUncommitted_does (lease : Option ExecutionLease)
    (out : OutgoingMessage) :
    Does [.message, .newMessage, .event] (insertAgentMessageUncommitted lease out) := by
  refine .bind (.read _) fun existing ↦ ?_
  cases existing with
  | some message => exact .bind (.require _ _) fun _ ↦ .pure _
  | none =>
      exact .bind (keeps_requireMailboxReceiptUncommitted _ _ _ _) fun _ ↦
        .bind (storeAgentMessage_does _) fun _ ↦ .pure _

theorem sendAgentMessage_does (lease : Option ExecutionLease)
    (senderRunId senderOperationId recipientRunId : String) (content : MessageContent) :
    Does [.message, .newMessage, .event]
      (sendAgentMessage lease senderRunId senderOperationId recipientRunId content) :=
  .bind (keeps_normalizeAgentMessageContent _) fun _ ↦ keeps_runWriteTransaction <|
    insertAgentMessageUncommitted_does _ _

theorem replyAgentMessage_does (lease : Option ExecutionLease)
    (senderRunId senderOperationId inReplyTo : String) (content : MessageContent) :
    Does [.message, .newMessage, .event]
      (replyAgentMessage lease senderRunId senderOperationId inReplyTo content) :=
  .bind (keeps_normalizeAgentMessageContent _) fun _ ↦ keeps_runWriteTransaction <|
    .bind (.read _) fun _ ↦ .bind (.read _) fun _ ↦ .bind (.getOr _ _) fun _ ↦
    .bind (.require _ _) fun _ ↦ .bind (.require _ _) fun _ ↦ .bind (.read _) fun _ ↦
    .bind (.require _ _) fun _ ↦ insertAgentMessageUncommitted_does _ _

theorem deliverAgentMessage_does (recipientRunId : String) (now : Time) (m : AgentMessage) :
    Does [.message, .event] (deliverAgentMessage recipientRunId now m) := by
  refine .bind (Does.widen (updateAgentMessages_does fun r hr ↦ ⟨rfl, ?_⟩) (by decide)) fun _ ↦
    (appendAgentMessageEventUncommitted_does _ _ _ _ (by decide)).widen (by decide)
  simp only [Bool.and_eq_true, decide_eq_true_eq] at hr
  simp [hr.2, MessageStatus.reaches]

theorem deliverAgentMessages_does (lease : Option ExecutionLease) (recipientRunId : String) :
    Does [.message, .event] (deliverAgentMessages lease recipientRunId) :=
  .bind (.require _ _) fun _ ↦ keeps_runWriteTransaction <| .bind keeps_utcNow fun _ ↦
    .bind (expireAgentMessagesUncommitted_does _ _) fun _ ↦ .bind (.read _) fun _ ↦
    .bind (.forM (fun _ ↦ deliverAgentMessage_does _ _ _) _) fun _ ↦ .read _

theorem ackAgentMessage_does (recipientRunId : String) (now : Time) (m : AgentMessage) :
    Does [.message, .event] (ackAgentMessage recipientRunId now m) := by
  refine .bind (.require _ _) fun _ ↦ .ite (.pure _) <| .bind (.require _ _) fun _ ↦
    .bind (Does.widen (updateAgentMessages_does fun r hr ↦ ⟨rfl, ?_⟩) (by decide)) fun _ ↦
    .bind ((appendAgentMessageEventUncommitted_does _ _ _ _ (by decide)).widen (by decide)) fun _ ↦
    .pure _
  simp only [Bool.and_eq_true, decide_eq_true_eq] at hr
  simp [hr.2, MessageStatus.reaches]

theorem ackAgentMessages_does (lease : Option ExecutionLease) (recipientRunId : String)
    (messageIds : List String) (operationId : Option String) :
    Does [.message, .event] (ackAgentMessages lease recipientRunId messageIds operationId) :=
  .bind (.require _ _) fun _ ↦ keeps_runWriteTransaction <|
    .bind (keeps_requireMailboxReceiptUncommitted _ _ _ _) fun _ ↦ .bind (.read _) fun _ ↦
    .bind (.require _ _) fun _ ↦ .bind keeps_utcNow fun _ ↦
    .mapM (fun _ ↦ ackAgentMessage_does _ _ _) _

theorem administer_does (workspaces : List Workspace) (versions : List PluginVersion)
    (installations : List PluginInstallation) (artifacts : List Artifact) :
    Does [.workspace, .plugin, .content]
      (administer workspaces versions installations artifacts) :=
  .write fun db ↦ trans_of (Writing [.workspace, .plugin, .content])
    (trans_of (Writing [.workspace, .plugin, .content])
      (.single (.workspaces workspaces) (by simp)) (.single (.plugins _) (by simp)))
    (.single (.content { db.content with artifacts := artifacts }) (by simp))

/-! ## Every operation -/

/-- The kinds of writes an operation makes. -/
def StoreOp.kinds : StoreOp → List Kind
  | acceptRunCommand _ => .command :: .turn :: startKinds
  | acceptChildRun _ _ => .collaboration :: .event :: startKinds
  | enqueueRunJob _ _ _ => [.newJob]
  | requeueExpiredRunJobs => lifecycleKinds
  | claimRunJob _ _ => lifecycleKinds
  | renewRunJob _ _ _ _ => [.job]
  | finishRunJob _ _ _ _ => [.job]
  | quarantineExecutionAttempt _ _ _ _ => lifecycleKinds
  | confirmQuarantinedCleanup _ _ _ _ _ => lifecycleKinds
  | ensureLostExecutionQuarantined _ _ _ _ => lifecycleKinds
  | commitRunResult _ _ _ _ _ _ => lifecycleKinds
  | requestRunCancelTree _ => lifecycleKinds
  | requestRunCancelCommand _ _ _ => .command :: lifecycleKinds
  | requestRunInjectCommand _ _ _ _ => [.command, .content]
  | requestQuestionAnswerCommand _ _ _ _ => answerKinds
  | requestPermissionResolveCommand _ _ _ _ _ => answerKinds
  | requestPlanResolveCommand _ _ _ _ _ => answerKinds
  | requestToolReconcileCommand _ _ operationId _ _ => .reconcile operationId :: answerKinds
  | createPermission _ request => [.openWait request.runId]
  | createQuestion _ runId _ _ _ _ => [.openWait runId]
  | createPlanApproval _ runId _ _ _ _ _ => [.wait, .openWait runId]
  | createToolReconciliation _ runId _ _ _ _ => [.openWait runId]
  | resolvePermission _ _ _ _ _ _ => [.wait, .event]
  | answerQuestion _ _ _ _ => [.wait, .event]
  | consumeRunPermissionGrant _ _ _ _ _ _ => [.grant]
  | resolveToolReconciliation _ candidateId _ _ => [.reconcile candidateId, .wait, .subagent]
  | prepareToolReceipt _ request => [.openReceipt request.runId, .receipt, .subagent]
  | recordToolReview _ _ _ _ => [.receipt]
  | beginToolReceipt _ _ _ _ => [.receipt, .subagent]
  | settleToolReceipt _ _ _ _ => [.receipt, .subagent]
  | settleTaskReceipt _ _ _ _ => [.receipt, .subagent]
  | reconcileToolReceipt _ _ runId _ _ _ => [.openReceipt runId, .subagent]
  | reserveModelCall _ _ => [.openCall]
  | markModelCallOutput _ _ _ => [.openCall]
  | settleModelCall _ _ _ _ _ => [.call]
  | failModelCall _ _ _ _ _ _ _ => [.call]
  | recordSandboxProcess _ _ _ _ _ => [.sandbox]
  | forgetSandboxProcess _ => [.sandbox]
  | settleSandboxProcess _ _ => [.sandbox]
  | bindGraphDefinition _ _ _ => [.run]
  | advanceGraphCheckpoint _ _ _ _ _ => [.graphHead]
  | updateAssistantDraft _ _ _ _ _ => [.content]
  | claimPendingSteering _ _ => [.content]
  | commitAssistantRound _ _ _ => [.event]
  | appendEvent _ _ eventType _ => if isLifecycleEvent eventType then [.lifecycle] else [.event]
  | recordCommandReceipt _ _ _ _ _ _ => [.command]
  | updateThread _ _ _ _ _ => [.thread]
  | deleteThread _ _ => [.thread]
  | sendAgentMessage _ _ _ _ _ => [.message, .newMessage, .event]
  | replyAgentMessage _ _ _ _ _ => [.message, .newMessage, .event]
  | deliverAgentMessages _ _ => [.message, .event]
  | ackAgentMessages _ _ _ _ => [.message, .event]
  | administer _ _ _ _ => [.workspace, .plugin, .content]

/-- Every operation is a chain of writes of its kinds. -/
theorem StoreOp.exec_does (op : StoreOp) : Does op.kinds op.exec := by
  cases op with
  | acceptRunCommand => exact .map _ (acceptRunCommand_does _)
  | acceptChildRun => exact .map _ (acceptChildRun_does _ _)
  | enqueueRunJob => exact .map _ (enqueueRunJob_does _ _ _)
  | requeueExpiredRunJobs =>
      exact .bind keeps_utcNow fun now ↦ requeueExpiredJobsUncommitted_does now
  | claimRunJob => exact .map _ (claimRunJob_does _ _)
  | renewRunJob => exact .map _ (renewRunJob_does _ _ _ _)
  | finishRunJob => exact .map _ (finishRunJob_does _ _ _ _)
  | quarantineExecutionAttempt => exact .map _ (quarantineExecutionAttempt_does _ _ _ _)
  | confirmQuarantinedCleanup => exact .map _ (confirmQuarantinedCleanup_does _ _ _ _ _)
  | ensureLostExecutionQuarantined => exact .map _ (ensureLostExecutionQuarantined_does _ _ _ _)
  | commitRunResult => exact .map _ (commitRunResult_does _ _ _ _ _ _)
  | requestRunCancelTree => exact .map _ (requestRunCancelTreeUncommitted_does _)
  | requestRunCancelCommand => exact .map _ (requestRunCancelCommand_does _ _ _)
  | requestRunInjectCommand => exact .map _ (requestRunInjectCommand_does _ _ _ _)
  | requestQuestionAnswerCommand => exact .map _ (requestQuestionAnswerCommand_does _ _ _ _)
  | requestPermissionResolveCommand =>
      exact .map _ (requestPermissionResolveCommand_does _ _ _ _ _)
  | requestPlanResolveCommand => exact .map _ (requestPlanResolveCommand_does _ _ _ _ _)
  | requestToolReconcileCommand => exact .map _ (requestToolReconcileCommand_does _ _ _ _ _)
  | createPermission => exact .map _ (createPermission_does _ _)
  | createQuestion => exact .map _ (createQuestion_does _ _ _ _ _ _)
  | createPlanApproval => exact .map _ (createPlanApproval_does _ _ _ _ _ _ _)
  | createToolReconciliation => exact .map _ (createToolReconciliation_does _ _ _ _ _ _)
  | resolvePermission => exact .map _ (resolvePermission_does _ _ _ _ _ _)
  | answerQuestion => exact .map _ (answerQuestion_does _ _ _ _)
  | consumeRunPermissionGrant => exact .map _ (consumeRunPermissionGrant_does _ _ _ _ _ _)
  | resolveToolReconciliation => exact .map _ (resolveToolReconciliation_does _ _ _ _)
  | prepareToolReceipt => exact .map _ (prepareToolReceipt_does _ _)
  | recordToolReview => exact .map _ (recordToolReview_does _ _ _ _)
  | beginToolReceipt => exact .map _ (beginToolReceipt_does _ _ _ _)
  | settleToolReceipt => exact .map _ (settleToolReceipt_does _ _ _ _)
  | settleTaskReceipt => exact .map _ (settleTaskReceipt_does _ _ _ _)
  | reconcileToolReceipt => exact .map _ (reconcileToolReceipt_does _ _ _ _ _ _)
  | reserveModelCall => exact .map _ (reserveModelCall_does _ _)
  | markModelCallOutput => exact markModelCallOutput_does _ _ _
  | settleModelCall => exact settleModelCall_does _ _ _ _ _
  | failModelCall => exact failModelCall_does _ _ _ _ _ _ _
  | recordSandboxProcess => exact .map _ (recordSandboxProcess_does _ _ _ _ _)
  | forgetSandboxProcess => exact forgetSandboxProcess_does _
  | settleSandboxProcess => exact settleSandboxProcess_does _ _
  | bindGraphDefinition => exact bindGraphDefinition_does _ _ _
  | advanceGraphCheckpoint => exact advanceGraphCheckpoint_does _ _ _ _ _
  | updateAssistantDraft => exact .map _ (updateAssistantDraft_does _ _ _ _ _)
  | claimPendingSteering => exact .map _ (claimPendingSteering_does _ _)
  | commitAssistantRound => exact .map _ (commitAssistantRound_does _ _ _)
  | appendEvent lease runId eventType payload =>
      simp only [StoreOp.kinds]
      by_cases hevent : isLifecycleEvent eventType = true
      · rw [if_pos hevent]
        exact .map _ (appendEvent_does_lifecycle _ _ _ _ hevent)
      · rw [if_neg hevent]
        exact .map _ (appendEvent_does _ _ _ _ (by simpa using hevent))
  | recordCommandReceipt => exact .map _ (recordCommandReceipt_does _ _ _ _ _ _)
  | updateThread => exact .map _ (updateThread_does _ _ _ _ _)
  | deleteThread => exact .map _ (deleteThread_does _ _)
  | sendAgentMessage => exact .map _ (sendAgentMessage_does _ _ _ _ _)
  | replyAgentMessage => exact .map _ (replyAgentMessage_does _ _ _ _ _)
  | deliverAgentMessages => exact .map _ (deliverAgentMessages_does _ _)
  | ackAgentMessages => exact .map _ (ackAgentMessages_does _ _ _ _)
  | administer => exact administer_does _ _ _ _

end ShejaneRuntime.Store
