import ShejaneRuntime.Coordinator.Conversations

/-!
# What an ended run leaves behind

A run that has ended should have no tool receipt that could still start or
finish, and no wait that still expects an answer. The writes that open
something name the run they open it for; everything else only closes.
-/

namespace ShejaneRuntime.Store

open Lib Lib.Txn Lockstep

/-! ## Open receipts and pending waits -/

def NoneRunning (db : Database) (runId : String) : Prop :=
  ∀ r ∈ db.ledger.toolReceipts.rows, r.runId = runId → r.status ≠ .running

/-- No receipt of the run is prepared, paused or running. -/
def NoneOpen (db : Database) (runId : String) : Prop :=
  ∀ r ∈ db.ledger.toolReceipts.rows, r.runId = runId → r.open = false

/-- Nothing of the run waits for an answer. -/
structure NonePending (db : Database) (runId : String) : Prop where
  permissions : ∀ p ∈ db.waits.permissions.rows, p.runId = runId → p.status ≠ .pending
  questions : ∀ q ∈ db.waits.questions.rows, q.runId = runId → q.status ≠ .pending
  planApprovals : ∀ p ∈ db.waits.planApprovals.rows, p.runId = runId → p.status ≠ .pending
  candidates : ∀ c ∈ db.waits.candidates.rows, c.runId = runId → c.status ≠ .pending

structure Closed (db : Database) (runId : String) : Prop where
  receipts : NoneOpen db runId
  waits : NonePending db runId

/-- The run has ended. -/
def RunEnded (db : Database) (runId : String) : Prop :=
  ∃ run, db.runs.find? runId = some run ∧ run.status.terminal = true

/-- Every run that has ended is closed. -/
def EndedRunsClosed (db : Database) : Prop := ∀ runId, RunEnded db runId → Closed db runId

/-- The receipt of an operation, if there is one, is of another run. -/
def OperationElsewhere (db : Database) (operationId runId : String) : Prop :=
  ∀ r ∈ db.ledger.toolReceipts.rows, r.operationId = operationId → r.runId ≠ runId

section Rows

variable {κ ρ : Type} {key : ρ → κ} {t t' : Table key} {P : ρ → Prop}

theorem forall_update {p : ρ → Bool} {f : ρ → ρ} (hf : ∀ r, key (f r) = key r)
    (h : ∀ r ∈ t.rows, P r) (hfP : ∀ r ∈ t.rows, p r = true → P r → P (f r)) :
    ∀ r ∈ (t.update p f hf).rows, P r := by
  intro r hr
  obtain ⟨r₀, hr₀, rfl⟩ := List.mem_map.mp hr
  split
  · exact hfP r₀ hr₀ ‹_› (h r₀ hr₀)
  · exact h r₀ hr₀

theorem forall_insert [DecidableEq κ] {r : ρ} (h : ∀ r' ∈ t.rows, P r') (hr : P r) (hinsert : t.insert? r = some t') :
    ∀ r' ∈ t'.rows, P r' := by
  intro r' hr'
  rcases (Table.mem_insert? hinsert).mp hr' with hold | rfl
  · exact h r' hold
  · exact hr

end Rows

/-! ## Writes -/

theorem runId_of_operation {r r' : ToolReceipt} (h : r'.operation = r.operation) :
    r'.runId = r.runId := by
  have hrun : r'.operation.runId = r.operation.runId := by rw [h]
  exact hrun

theorem insertToolReceipt_post (receipt : ToolReceipt) (s : Session Database World) :
    Post (insertToolReceipt receipt) s fun _ s' ↦ ∃ receipts,
      s.db.ledger.toolReceipts.insert? receipt = some receipts ∧
      s'.db = { s.db with ledger := { s.db.ledger with toolReceipts := receipts } } := by
  unfold insertToolReceipt requireRunRow
  simp only [post_bind, post_read, post_require, post_attempt]
  intro _ _ db hdb
  obtain ⟨receipts, hinsert, rfl⟩ := Option.map_eq_some_iff.mp hdb
  exact ⟨receipts, hinsert, rfl⟩

/-- A property of receipts that a reconciliation does not lose. -/
theorem reconcileReceipts_stays {candidateId prior runId : String} {decision : ReconcileDecision}
    {results : ReconciliationResults} {now : Time} {P : ToolReceipt → Prop}
    (hsettle : ∀ r r' : ToolReceipt, r'.operationId = r.operationId → r'.runId = r.runId →
      r'.open = false → P r → P r')
    (hretry : ∀ r r' : ToolReceipt, r.operationId = candidateId → r'.operationId = r.operationId →
      r'.runId = r.runId → P r → P r') :
    Keeps (Stays fun db : Database ↦ ∀ r ∈ db.ledger.toolReceipts.rows, P r)
      (reconcileReceipts candidateId prior runId decision results now) := by
  have hclosed : ∀ r : ToolReceipt, ({ r with status := reconciledStatus decision }).open = false := by
    intro r
    unfold reconciledStatus
    split <;> simp [ToolReceipt.open, ToolReceipt.unstarted]
  have hcounted : ∀ {p : ToolReceipt → Bool} {f : ToolReceipt → ToolReceipt}
      {hf : ∀ r, (f r).operationId = r.operationId},
      (∀ r, (f r).runId = r.runId ∧ (f r).open = false) →
      Keeps (Stays fun db : Database ↦ ∀ r ∈ db.ledger.toolReceipts.rows, P r)
        (updateToolReceiptsCounted p f hf) := by
    intro p f hf hkept
    refine .bind (.read _) fun _ ↦ .bind (.write fun db hP ↦ ?_) fun _ ↦ .pure _
    exact forall_update hf hP fun r _ _ ↦ hsettle r (f r) (hf r) (hkept r).1 (hkept r).2
  refine .bind (hcounted fun r ↦ ⟨rfl, hclosed r⟩) fun _ ↦ .bind (.require _ _) fun _ ↦ ?_
  refine .ite (.bind (.when (.write fun db hP ↦ ?_)) fun _ ↦ .pure _) (.ite (.pure _) ?_)
  · refine forall_update (by intro; rfl) hP fun r _ hr ↦ ?_
    exact hretry r _ (by simpa using hr) rfl rfl
  · exact .bind (hcounted fun r ↦ ⟨rfl, hclosed r⟩) fun _ ↦ .bind (.require _ _) fun _ ↦ .pure _

theorem noneOpen_update {db : Database} {runId : String} {p : ToolReceipt → Bool}
    {f : ToolReceipt → ToolReceipt} {hf : ∀ r, (f r).operationId = r.operationId}
    (hadvances : ∀ r ∈ db.ledger.toolReceipts.rows, p r = true →
      r.Advances (f r) ∧ ((f r).open = true → r.open = true))
    (hnone : NoneOpen db runId) : NoneOpen { db with ledger := { db.ledger with
      toolReceipts := db.ledger.toolReceipts.update p f hf } } runId := by
  refine forall_update hf hnone fun r hr hp hclosed hrun ↦ ?_
  obtain ⟨hadvance, hstill⟩ := hadvances r hr hp
  rw [runId_of_operation hadvance.operation] at hrun
  rw [Bool.eq_false_iff]
  intro hagain
  have hbefore := hstill hagain
  rw [hclosed hrun] at hbefore
  cases hbefore

/-- What writes keep of a run they open nothing for. -/
theorem Write.noneOpen {k : Kind} {db db' : Database} (h : Write k db db') {runId : String}
    (hopen : k ≠ .openReceipt runId)
    (hreconcile : ∀ c, k = .reconcile c → OperationElsewhere db c runId)
    (hnone : NoneOpen db runId) : NoneOpen db' runId := by
  by_cases hparts : Part.ledger ∉ k.parts
  · unfold NoneOpen
    rw [show db'.ledger = db.ledger from h.within .ledger hparts]
    exact hnone
  cases h with
  | receipts hadvances _ => exact noneOpen_update hadvances hnone
  | backfilled _ hadvances => exact noneOpen_update hadvances hnone
  | newReceipt heffect _ =>
      refine heffect.post (Q := fun db' ↦ NoneOpen db' runId) fun w ↦ ?_
      refine (insertToolReceipt_post _ _).mono ?_
      rintro _ s' ⟨receipts, hinsert, hdb⟩
      rw [hdb]
      exact forall_insert hnone (fun hrun ↦ absurd (congrArg Kind.openReceipt hrun) hopen) hinsert
  | @retried _ p f hf _ hretried =>
      refine forall_update hf hnone fun r hr hp _ hrun ↦ ?_
      obtain ⟨hof, hadvance⟩ := hretried r hr hp
      rw [runId_of_operation hadvance.operation, hof] at hrun
      exact absurd (congrArg Kind.openReceipt hrun) hopen
  | @reconcile _ _ candidateId _ _ _ _ _ heffect =>
      have hboth := heffect.relates (reconcileReceipts_stays
        (P := fun r ↦ (r.operationId = candidateId → r.runId ≠ runId) ∧
          (r.runId = runId → r.open = false)) ?_ ?_)
        fun r hr ↦ ⟨hreconcile _ rfl r hr, hnone r hr⟩
      · exact fun r hr ↦ (hboth r hr).2
      · intro r r' hid hrun hclosed h
        rw [hid, hrun]
        exact ⟨h.1, fun _ ↦ hclosed⟩
      · intro r r' hof hid hrun h
        rw [hid, hrun]
        exact ⟨h.1, fun hc ↦ absurd hc (h.1 hof)⟩
  | calls _ => exact hnone
  | output _ => exact hnone
  | newCall heffect _ =>
      refine heffect.post (Q := fun db' ↦ NoneOpen db' runId) fun w ↦ ?_
      unfold insertModelCall requireRunRow
      simp only [post_bind, post_read, post_require, post_attempt]
      intro _ _ db₁ hdb
      obtain ⟨calls, _, rfl⟩ := Option.map_eq_some_iff.mp hdb
      exact hnone
  | sandboxes _ => exact hnone
  | _ => exact absurd (by simp [Kind.parts]) hparts

theorem Write.operationElsewhere {k : Kind} {db db' : Database} (h : Write k db db')
    {operationId runId : String} (hopen : ∀ r, k ≠ .openReceipt r)
    (helse : OperationElsewhere db operationId runId) : OperationElsewhere db' operationId runId := by
  by_cases hparts : Part.ledger ∉ k.parts
  · unfold OperationElsewhere
    rw [show db'.ledger = db.ledger from h.within .ledger hparts]
    exact helse
  cases h with
  | @receipts _ p f hf hadvances _ =>
      refine forall_update hf helse fun r hr hp hother hid ↦ ?_
      rw [runId_of_operation (hadvances r hr hp).1.operation]
      exact hother ((hf r).symm.trans hid)
  | backfilled _ _ => exact absurd rfl (hopen _)
  | newReceipt _ _ => exact absurd rfl (hopen _)
  | retried _ => exact absurd rfl (hopen _)
  | reconcile heffect =>
      refine heffect.relates (reconcileReceipts_stays
        (P := fun r ↦ r.operationId = operationId → r.runId ≠ runId) ?_ ?_) helse
      · intro r r' hid hrun _ h
        rw [hid, hrun]
        exact h
      · intro r r' _ hid hrun h
        rw [hid, hrun]
        exact h
  | calls _ => exact helse
  | output _ => exact helse
  | newCall heffect _ =>
      refine heffect.post (Q := fun db' ↦ OperationElsewhere db' operationId runId) fun w ↦ ?_
      unfold insertModelCall requireRunRow
      simp only [post_bind, post_read, post_require, post_attempt]
      intro _ _ db₁ hdb
      obtain ⟨calls, _, rfl⟩ := Option.map_eq_some_iff.mp hdb
      exact helse
  | sandboxes _ => exact helse
  | _ => exact absurd (by simp [Kind.parts]) hparts

theorem insertWait_post {τ : Type} {f : Database → Option τ} {put : Database → τ → Waits}
    {runId : String} {clash : Database → Bool} {e e' : StoreError} {s : Session Database World}
    {Q : Unit → Session Database World → Prop}
    (h : ∀ t, f s.db = some t → Q () { s with db := { s.db with waits := put s.db t } }) :
    Post (do
      requireRunRow runId
      let clash ← Txn.read clash
      Txn.require (clash = false) e
      Txn.attempt (fun db ↦ (f db).map fun t ↦ { db with waits := put db t }) e') s Q := by
  unfold requireRunRow
  simp only [post_bind, post_read, post_require, post_attempt]
  intro _ _ db hdb
  obtain ⟨t, ht, rfl⟩ := Option.map_eq_some_iff.mp hdb
  exact h t ht

theorem Write.nonePending {k : Kind} {db db' : Database} (h : Write k db db') {runId : String}
    (hopen : k ≠ .openWait runId) (hnone : NonePending db runId) : NonePending db' runId := by
  by_cases hparts : Part.waits ∉ k.parts
  · have hsame : db'.waits = db.waits := h.within .waits hparts
    exact ⟨by rw [hsame]; exact hnone.permissions, by rw [hsame]; exact hnone.questions,
      by rw [hsame]; exact hnone.planApprovals, by rw [hsame]; exact hnone.candidates⟩
  have hother : ∀ r, k = .openWait r → r ≠ runId := by
    rintro r rfl rfl
    exact hopen rfl
  obtain ⟨hpermissions, hquestions, hplans, hcandidates⟩ := hnone
  cases h with
  | @permissions _ p f hf hdecides =>
      refine ⟨forall_update hf hpermissions fun r hr hp _ _ ↦ ?_, hquestions, hplans, hcandidates⟩
      exact (hdecides r hr hp).2.2
  | @candidates _ p f hf hdecides =>
      refine ⟨hpermissions, hquestions, hplans, forall_update hf hcandidates fun c hc hp _ _ ↦ ?_⟩
      rw [(hdecides c hc hp).2.2]
      decide
  | @questions _ p f hf hdecides =>
      refine ⟨hpermissions, forall_update hf hquestions fun q hq hp _ _ ↦ ?_, hplans, hcandidates⟩
      exact (hdecides q hq hp).2.2
  | @plans _ p f hf hdecides =>
      refine ⟨hpermissions, hquestions, forall_update hf hplans fun q hq hp _ _ ↦ ?_, hcandidates⟩
      exact (hdecides q hq hp).2.2
  | @adopted _ p f hf hadopts =>
      refine ⟨hpermissions, hquestions, forall_update hf hplans fun q hq hp hclosed hrun ↦ ?_,
        hcandidates⟩
      rw [hadopts q hq hp] at hrun ⊢
      exact hclosed hrun
  | newPermission heffect =>
      refine heffect.post (Q := fun db' ↦ NonePending db' runId) fun w ↦ insertWait_post ?_
      intro t hinsert
      exact ⟨forall_insert hpermissions (fun hrun ↦ absurd hrun (hother _ rfl)) hinsert, hquestions,
        hplans, hcandidates⟩
  | newCandidate heffect _ =>
      refine heffect.post (Q := fun db' ↦ NonePending db' runId) fun w ↦ insertWait_post ?_
      intro t hinsert
      exact ⟨hpermissions, hquestions, hplans,
        forall_insert hcandidates (fun hrun ↦ absurd hrun (hother _ rfl)) hinsert⟩
  | newQuestion heffect =>
      refine heffect.post (Q := fun db' ↦ NonePending db' runId) fun w ↦ insertWait_post ?_
      intro t hinsert
      exact ⟨hpermissions, forall_insert hquestions (fun hrun ↦ absurd hrun (hother _ rfl)) hinsert,
        hplans, hcandidates⟩
  | newPlan heffect =>
      refine heffect.post (Q := fun db' ↦ NonePending db' runId) fun w ↦ insertWait_post ?_
      intro t hinsert
      exact ⟨hpermissions, hquestions,
        forall_insert hplans (fun hrun ↦ absurd hrun (hother _ rfl)) hinsert, hcandidates⟩
  | grantUse heffect =>
      refine heffect.post (Q := fun db' ↦ NonePending db' runId) fun w ↦ ?_
      unfold insertGrantUse
      rw [post_attempt]
      intro db₁ hdb
      obtain ⟨uses, _, rfl⟩ := Option.map_eq_some_iff.mp hdb
      exact ⟨hpermissions, hquestions, hplans, hcandidates⟩
  | @granted _ p f hf huses =>
      refine ⟨forall_update hf hpermissions fun r hr hp hclosed hrun ↦ ?_, hquestions, hplans,
        hcandidates⟩
      rw [huses r hr hp] at hrun ⊢
      exact hclosed hrun
  | _ => exact absurd (by simp [Kind.parts]) hparts

/-- A chain of writes that opens nothing for a run leaves it closed. -/
theorem Writing.closed {kinds : List Kind} {db db' : Database} (h : Writing kinds db db')
    {runId : String} (hreceipt : ∀ r, Kind.openReceipt r ∈ kinds → r ≠ runId)
    (hwait : Kind.openWait runId ∉ kinds) (hreconcile : ∀ c, Kind.reconcile c ∉ kinds)
    (hclosed : Closed db runId) : Closed db' runId := by
  refine Trace.preserves (P := fun db ↦ Closed db runId) ?_ h hclosed
  rintro k hk db db' hw ⟨hopen, hpending⟩
  refine ⟨hw.noneOpen ?_ (fun c hc ↦ absurd (hc ▸ hk) (hreconcile c)) hopen,
    hw.nonePending (fun hc ↦ hwait (hc ▸ hk)) hpending⟩
  rintro rfl
  exact hreceipt runId hk rfl

/-- A reconciliation opens no receipt but its own. -/
theorem Writing.closed_of_elsewhere {kinds : List Kind} {db db' : Database}
    (h : Writing kinds db db') {runId candidateId : String}
    (hreceipt : ∀ r, Kind.openReceipt r ∉ kinds) (hwait : Kind.openWait runId ∉ kinds)
    (hreconcile : ∀ c, Kind.reconcile c ∈ kinds → c = candidateId)
    (helse : OperationElsewhere db candidateId runId) (hclosed : Closed db runId) :
    Closed db' runId := by
  refine (Trace.preserves
    (P := fun db ↦ OperationElsewhere db candidateId runId ∧ Closed db runId) ?_ h
    ⟨helse, hclosed⟩).2
  rintro k hk db db' hw ⟨helse, hopen, hpending⟩
  have hnot : ∀ r, k ≠ .openReceipt r := by
    rintro r rfl
    exact hreceipt r hk
  refine ⟨hw.operationElsewhere hnot helse, hw.noneOpen (hnot runId) ?_ hopen,
    hw.nonePending (fun hc ↦ hwait (hc ▸ hk)) hpending⟩
  rintro c rfl
  rw [hreconcile c hk]
  exact helse

end ShejaneRuntime.Store
