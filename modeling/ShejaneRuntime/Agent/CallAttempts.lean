import ShejaneRuntime.Agent.ModelLedger
import ShejaneRuntime.Journal.Gapless
import ShejaneRuntime.Lib.Positions

/-!
# Indexes, budgets and attempts of model calls

The rows of the ledger are numbered within their run and stay within the
budget of their purpose; a row that has ended never changes; and a further
attempt of a logical call follows a failed attempt without output.
-/

namespace ShejaneRuntime.Store

open Lib Lib.Txn

/-! ## The rows of the ledger under other writes -/

/-- A model call later, if nothing but an end may have come to it. -/
def ModelCall.Later (c c' : ModelCall) : Prop := c' = c ∨ c.Ends c'

theorem ModelCall.Later.trans {c c' c'' : ModelCall} (h : c.Later c') (h' : c'.Later c'') :
    c.Later c'' := by
  rcases h with rfl | h
  · exact h'
  · rcases h' with rfl | h'
    · exact .inr h
    · exact absurd (h'.wasOpen.symm.trans h.closed) (by decide)

/-- The same model calls in the same order, some of which have ended. -/
def CallsEnd (db db' : Database) : Prop :=
  ∃ g : ModelCall → ModelCall, db'.ledger.modelCalls.rows = db.ledger.modelCalls.rows.map g ∧
    ∀ c ∈ db.ledger.modelCalls.rows, c.Later (g c)

theorem CallsEnd.of_eq {db db' : Database} (h : db'.ledger.modelCalls = db.ledger.modelCalls) :
    CallsEnd db db' :=
  ⟨id, by rw [h, List.map_id], fun _ _ ↦ .inl rfl⟩

instance : Std.Refl CallsEnd := ⟨fun _ ↦ .of_eq rfl⟩

instance : IsTrans Database CallsEnd := by
  refine ⟨fun db db' db'' h h' ↦ ?_⟩
  obtain ⟨g, hrows, hg⟩ := h
  obtain ⟨g', hrows', hg'⟩ := h'
  refine ⟨g' ∘ g, by rw [hrows', hrows, List.map_map], fun c hc ↦ ?_⟩
  exact (hg c hc).trans (hg' (g c) (hrows ▸ List.mem_map_of_mem hc))

/-- The write leaves the model calls alone. -/
def SameCalls (db db' : Database) : Prop := db'.ledger.modelCalls = db.ledger.modelCalls

instance : Std.Refl SameCalls := ⟨fun _ ↦ rfl⟩

instance : IsTrans Database SameCalls := ⟨fun _ _ _ h h' ↦ Eq.trans h' h⟩

theorem insertToolReceipt_sameCalls (receipt : ToolReceipt) :
    Keeps SameCalls (insertToolReceipt receipt) := by
  unfold insertToolReceipt requireRunRow
  refine .bind (.bind (.read _) fun _ ↦ .require _ _) fun _ ↦ .bind (.read _) fun _ ↦
    .bind (.require _ _) fun _ ↦ .attempt fun db db' hdb ↦ ?_
  obtain ⟨receipts, _, rfl⟩ := Option.map_eq_some_iff.mp hdb
  rfl

theorem updateToolReceiptsCounted_sameCalls (p : ToolReceipt → Bool)
    (f : ToolReceipt → ToolReceipt) (hf : ∀ r, (f r).operationId = r.operationId) :
    Keeps SameCalls (updateToolReceiptsCounted p f hf) :=
  .bind (.read _) fun _ ↦ .bind (.write fun _ ↦ rfl) fun _ ↦ .pure _

theorem reconcileReceipts_sameCalls (candidateId prior runId : String)
    (decision : ReconcileDecision) (results : ReconciliationResults) (now : Time) :
    Keeps SameCalls (reconcileReceipts candidateId prior runId decision results now) := by
  refine .bind (updateToolReceiptsCounted_sameCalls _ _ _) fun _ ↦ .bind (.require _ _) fun _ ↦ ?_
  refine .ite (.bind (.when (.write fun _ ↦ rfl)) fun _ ↦ .pure _) ?_
  refine .ite (.pure _) ?_
  exact .bind (updateToolReceiptsCounted_sameCalls _ _ _) fun _ ↦ .bind (.require _ _) fun _ ↦
    .pure _

theorem Write.callsEnd {k : Kind} {db db' : Database} (h : Write k db db') (hk : k ≠ .openCall) :
    CallsEnd db db' := by
  by_cases hparts : Part.ledger ∉ k.parts
  · have hledger : db'.ledger = db.ledger := h.within .ledger hparts
    exact .of_eq (by rw [hledger])
  cases h with
  | receipts _ _ => exact .of_eq rfl
  | backfilled _ _ => exact .of_eq rfl
  | newReceipt heffect _ => exact .of_eq (heffect.relates (insertToolReceipt_sameCalls _))
  | retried _ => exact .of_eq rfl
  | reconcile heffect => exact .of_eq (heffect.relates (reconcileReceipts_sameCalls _ _ _ _ _ _))
  | @calls _ p f hf hends =>
      refine ⟨fun c ↦ if p c then f c else c, rfl, fun c hc ↦ ?_⟩
      dsimp only
      split
      · rename_i hp
        exact .inr (hends c hc hp)
      · exact .inl rfl
  | newCall _ _ => exact absurd rfl hk
  | output _ => exact absurd rfl hk
  | sandboxes _ => exact .of_eq rfl
  | _ => exact absurd (by simp [Kind.parts]) hparts

/-- Operations that are none of the ledger's own only end model calls. -/
theorem after_callsEnd {op : StoreOp} (hop : Agent.ledgerWrite op = false) (db : Database)
    (w : World) : CallsEnd db (op.after db w) := by
  refine (op.after_writing db w).relates fun k hk _ _ hw ↦ hw.callsEnd ?_
  rintro rfl
  cases op with
  | reserveModelCall _ _ => cases hop
  | markModelCallOutput _ _ _ => cases hop
  | settleModelCall _ _ _ _ _ => cases hop
  | failModelCall _ _ _ _ _ _ _ => cases hop
  | appendEvent lease runId eventType payload =>
      simp only [StoreOp.kinds] at hk
      split at hk
      · simp at hk
      · simp at hk
  | _ => simp [StoreOp.kinds] at hk

/-! ## The ledger's own writes -/

theorem updateOpenModelCall_post {runId callId message : String} {f : ModelCall → ModelCall}
    {hf : ∀ c, (f c).id = c.id} {s : Session Database World} :
    Post (updateOpenModelCall runId callId message f hf) s fun _ s' ↦
      s'.db.ledger.modelCalls = s.db.ledger.modelCalls.update
          (fun c ↦ c.id = callId && c.runId = runId && c.open) f hf ∧
        s.db.ledger.modelCalls.rowcount
          (fun c ↦ c.id = callId && c.runId = runId && c.open) = 1 := by
  unfold updateOpenModelCall updateModelCalls
  simp only [post_bind, post_read, post_write, post_require]
  exact fun hone ↦ ⟨trivial, hone⟩

/-- The open row that a write of an attempt changes, and the table after it. -/
structure Rewrites (db db' : Database) (runId callId : String) (f : ModelCall → ModelCall)
    (c : ModelCall) : Prop where
  mem : c ∈ db.ledger.modelCalls.rows
  id : c.id = callId
  run : c.runId = runId
  wasOpen : c.open = true
  rows : db'.ledger.modelCalls.rows =
    db.ledger.modelCalls.rows.map fun c' ↦ if c'.id = callId then f c' else c'

theorem rewrites_of_post {runId callId : String} {f : ModelCall → ModelCall}
    {hf : ∀ c, (f c).id = c.id} {db db' : Database}
    (hrows : db'.ledger.modelCalls = db.ledger.modelCalls.update
      (fun c ↦ c.id = callId && c.runId = runId && c.open) f hf)
    (hone : db.ledger.modelCalls.rowcount
      (fun c ↦ c.id = callId && c.runId = runId && c.open) = 1) :
    ∃ c, Rewrites db db' runId callId f c := by
  have hsome : ∃ c ∈ db.ledger.modelCalls.rows,
      (c.id = callId && c.runId = runId && c.open) = true := by
    by_contra hnone
    push Not at hnone
    rw [Table.rowcount_eq_zero_iff.mpr fun c hc ↦ Bool.eq_false_iff.mpr (hnone c hc)] at hone
    cases hone
  obtain ⟨c, hc, hp⟩ := hsome
  have hkey := hp
  simp only [Bool.and_eq_true, decide_eq_true_eq] at hkey
  refine ⟨c, hc, hkey.1.1, hkey.1.2, hkey.2, ?_⟩
  rw [hrows]
  apply List.map_congr_left
  intro c' hc'
  by_cases hid : c'.id = callId
  · have heq : c' = c := List.inj_on_of_nodup_map db.ledger.modelCalls.nodup hc' hc
      (hid.trans hkey.1.1.symm)
    rw [heq, if_pos hp, if_pos hkey.1.1]
  · simp [hid]

/-- The row of a reservation and where it stands in its run. -/
structure Reserved (request : ReserveModelCall) (db db' : Database) (c : ModelCall) : Prop where
  inserted : db.ledger.modelCalls.insert? c = some db'.ledger.modelCalls
  run : c.runId = request.runId
  purpose : c.purpose = request.purpose
  retryAttempt : c.retryAttempt = request.retryAttempt
  logical : c.logicalCallId = textOr request.logicalCallId c.id
  id : c.id ≠ ""
  reserved : c.status = .reserved
  noOutput : c.outputStarted = false
  index : c.callIndex =
    (db.ledger.modelCalls.rows.filter fun c' ↦ c'.runId = request.runId).length + 1
  budget : (((db.ledger.modelCalls.rows.filter fun c' ↦ c'.runId = request.runId).countP
    fun c' ↦ c'.purpose = request.purpose) + 1 : ℕ) ≤ max 1 request.maxCalls

theorem reserveModelCall_post (lease : Option ExecutionLease) (request : ReserveModelCall)
    (s : Session Database World) : Post (reserveModelCall lease request) s fun c s' ↦
      Reserved request s.db s'.db c := by
  unfold reserveModelCall
  rw [post_bind, post_require]
  intro _
  refine post_runWriteTransaction fun w _ ↦ ?_
  rw [post_bind]
  have hparent : Writes [] (requireModelCallParent request) := by
    unfold requireModelCallParent
    split
    · exact .pure ()
    · exact keeps_requireToolReceiptInRunUncommitted _ _
  refine post_readOnly hparent fun _ w₁ ↦ ?_
  unfold newId utcNow insertModelCall requireRunRow
  simp only [post_bind, post_read, post_require, post_draw, post_attempt, post_pure]
  intro hbudget _ _ db hdb
  obtain ⟨calls, hinsert, rfl⟩ := Option.map_eq_some_iff.mp hdb
  refine ⟨hinsert, rfl, rfl, rfl, rfl, ?_, rfl, rfl, rfl, hbudget⟩
  intro hempty
  have hlength := congrArg String.length hempty
  simp [String.length_append] at hlength

end ShejaneRuntime.Store
