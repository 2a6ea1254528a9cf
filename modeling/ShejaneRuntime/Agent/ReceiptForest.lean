import ShejaneRuntime.Journal.Projection
import ShejaneRuntime.Lib.Forest
import ShejaneRuntime.Lockstep.Reachable
import ShejaneRuntime.Waiting.Closure

/-!
# The forest of tool receipts

A receipt names the receipt it runs under when it is prepared, or when it is
prepared again. While no receipt is put under one of its own descendants the
receipts of a run form a forest, and settling a task leaves nothing open
below it as far down as the walk goes.
-/

namespace ShejaneRuntime.Store

open Lib Lib.Txn

/-! ## The tree -/

/-- Where a receipt stands: its operation, its run and its parent. -/
def ToolReceipt.lineage (r : ToolReceipt) : String × String × Option String :=
  (r.operationId, r.runId, r.parentOperationId)

def Database.lineages (db : Database) : List (String × String × Option String) :=
  db.ledger.toolReceipts.rows.map ToolReceipt.lineage

/-- An operation runs under another. -/
def Database.Hangs (db : Database) (a b : String) : Prop :=
  ∃ r ∈ db.ledger.toolReceipts.rows, r.operationId = a ∧ r.parentOperationId = some b

/-- An operation runs transitively under another. -/
def Database.Below (db : Database) : String → String → Prop := Relation.TransGen db.Hangs

/-- The receipts of a run form a forest: a parent is a receipt of the run,
and no receipt is below itself. -/
structure ReceiptForest (db : Database) (runId : String) : Prop where
  parent : ∀ r ∈ db.ledger.toolReceipts.rows, r.runId = runId →
    ∀ p, r.parentOperationId = some p →
      ∃ q ∈ db.ledger.toolReceipts.rows, q.operationId = p ∧ q.runId = runId
  acyclic : ∀ r ∈ db.ledger.toolReceipts.rows, r.runId = runId →
    ¬db.Below r.operationId r.operationId

variable {db db' : Database}

theorem hangs_iff {a b : String} : db.Hangs a b ↔ ∃ runId, (a, runId, some b) ∈ db.lineages := by
  constructor
  · rintro ⟨r, hr, rfl, hparent⟩
    refine ⟨r.runId, List.mem_map.mpr ⟨r, hr, ?_⟩⟩
    rw [ToolReceipt.lineage, hparent]
  · rintro ⟨runId, hmem⟩
    obtain ⟨r, hr, heq⟩ := List.mem_map.mp hmem
    simp only [ToolReceipt.lineage, Prod.mk.injEq] at heq
    exact ⟨r, hr, heq.1, heq.2.2⟩

/-- The parents of all receipts in one invariant. -/
structure Rooted (db : Database) : Prop where
  parent : ∀ a runId b, (a, runId, some b) ∈ db.lineages → ∃ above, (b, runId, above) ∈ db.lineages
  acyclic : Acyclic db.Hangs

theorem mem_lineages {r : ToolReceipt} (hr : r ∈ db.ledger.toolReceipts.rows) :
    (r.operationId, r.runId, r.parentOperationId) ∈ db.lineages :=
  List.mem_map_of_mem (f := ToolReceipt.lineage) hr

theorem exists_of_mem_lineages {a runId : String} {above : Option String}
    (h : (a, runId, above) ∈ db.lineages) : ∃ r ∈ db.ledger.toolReceipts.rows,
      r.operationId = a ∧ r.runId = runId ∧ r.parentOperationId = above := by
  obtain ⟨r, hr, heq⟩ := List.mem_map.mp h
  cases heq
  exact ⟨r, hr, rfl, rfl, rfl⟩

theorem Rooted.forest (h : Rooted db) (runId : String) : ReceiptForest db runId where
  parent r hr hrun p hparent := by
    obtain ⟨above, habove⟩ := h.parent r.operationId r.runId p (hparent ▸ mem_lineages hr)
    obtain ⟨q, hq, hid, hsame, _⟩ := exists_of_mem_lineages habove
    exact ⟨q, hq, hid, hsame.trans hrun⟩
  acyclic r _ _ := h.acyclic r.operationId

/-- A receipt hangs on one other at most. -/
theorem hangs_unique (a b c : String) (hb : db.Hangs a b) (hc : db.Hangs a c) : b = c := by
  obtain ⟨r, hr, hid, hparent⟩ := hb
  obtain ⟨r', hr', hid', hparent'⟩ := hc
  obtain rfl : r = r' := List.inj_on_of_nodup_map db.ledger.toolReceipts.nodup hr hr'
    (hid.trans hid'.symm)
  exact Option.some_injective _ (hparent.symm.trans hparent')

/-! ## Writes that leave the tree alone -/

def SameTree (db db' : Database) : Prop := db'.lineages = db.lineages

instance : Std.Refl SameTree := ⟨fun _ ↦ rfl⟩

instance : IsTrans Database SameTree := ⟨fun _ _ _ h h' ↦ Eq.trans h' h⟩

theorem SameTree.of_ledger (h : db'.ledger = db.ledger) : SameTree db db' := by
  unfold SameTree Database.lineages
  rw [h]

theorem SameTree.of_receipts (h : db'.ledger.toolReceipts = db.ledger.toolReceipts) :
    SameTree db db' := by
  unfold SameTree Database.lineages
  rw [h]

theorem SameTree.hangs (h : SameTree db db') : db'.Hangs = db.Hangs := by
  funext a b
  rw [eq_iff_iff, hangs_iff, hangs_iff, show db'.lineages = db.lineages from h]

theorem SameTree.rooted (h : SameTree db db') (hdb : Rooted db) : Rooted db' := by
  have hlineages : db'.lineages = db.lineages := h
  refine ⟨?_, h.hangs ▸ hdb.acyclic⟩
  rw [hlineages]
  exact hdb.parent

theorem sameTree_update {p : ToolReceipt → Bool} {f : ToolReceipt → ToolReceipt}
    {hf : ∀ r, (f r).operationId = r.operationId}
    (h : ∀ r ∈ db.ledger.toolReceipts.rows, p r = true →
      (f r).runId = r.runId ∧ (f r).parentOperationId = r.parentOperationId) :
    SameTree db { db with ledger := { db.ledger with
      toolReceipts := db.ledger.toolReceipts.update p f hf } } := by
  unfold SameTree Database.lineages
  change (List.map _ (List.map _ _)) = _
  rw [List.map_map]
  refine List.map_congr_left fun r hr ↦ ?_
  rw [Function.comp_apply]
  split
  · rename_i hp
    obtain ⟨hrun, hparent⟩ := h r hr hp
    rw [ToolReceipt.lineage, ToolReceipt.lineage, hf, hrun, hparent]
  · rfl

theorem updateToolReceipts_sameTree {p : ToolReceipt → Bool} {f : ToolReceipt → ToolReceipt}
    {hf : ∀ r, (f r).operationId = r.operationId}
    (h : ∀ r, (f r).runId = r.runId ∧ (f r).parentOperationId = r.parentOperationId) :
    Keeps SameTree (updateToolReceipts p f hf) :=
  .write fun _ ↦ sameTree_update fun r _ _ ↦ h r

theorem updateToolReceiptsCounted_sameTree {p : ToolReceipt → Bool} {f : ToolReceipt → ToolReceipt}
    {hf : ∀ r, (f r).operationId = r.operationId}
    (h : ∀ r, (f r).runId = r.runId ∧ (f r).parentOperationId = r.parentOperationId) :
    Keeps SameTree (updateToolReceiptsCounted p f hf) :=
  .bind (.read _) fun _ ↦ .bind (updateToolReceipts_sameTree h) fun _ ↦ .pure _

theorem reconcileReceipts_sameTree (candidateId prior runId : String)
    (decision : ReconcileDecision) (results : ReconciliationResults) (now : Time) :
    Keeps SameTree (reconcileReceipts candidateId prior runId decision results now) := by
  refine .bind (updateToolReceiptsCounted_sameTree fun _ ↦ ⟨rfl, rfl⟩) fun _ ↦
    .bind (.require _ _) fun _ ↦ ?_
  refine .ite (.bind (.when (updateToolReceipts_sameTree fun _ ↦ ⟨rfl, rfl⟩)) fun _ ↦ .pure _) ?_
  refine .ite (.pure _) ?_
  exact .bind (updateToolReceiptsCounted_sameTree fun _ ↦ ⟨rfl, rfl⟩) fun _ ↦
    .bind (.require _ _) fun _ ↦ .pure _

theorem insertModelCall_sameTree (call : ModelCall) : Keeps SameTree (insertModelCall call) := by
  intro s
  unfold insertModelCall requireRunRow
  simp only [post_bind, post_read, post_require, post_attempt]
  intro _ _ db hdb
  obtain ⟨calls, _, rfl⟩ := Option.map_eq_some_iff.mp hdb
  exact .of_receipts rfl

/-- Writes that open no receipt leave every receipt where it stands. -/
theorem Write.sameTree {k : Kind} (h : Write k db db') (hk : ∀ r, k ≠ .openReceipt r) :
    SameTree db db' := by
  by_cases hparts : Part.ledger ∉ k.parts
  · exact .of_ledger (h.within .ledger hparts)
  cases h with
  | receipts hadvances hparent =>
      exact sameTree_update fun r hr hp ↦
        ⟨runId_of_operation (hadvances r hr hp).1.operation, hparent r⟩
  | backfilled _ _ => exact absurd rfl (hk _)
  | newReceipt _ _ => exact absurd rfl (hk _)
  | retried _ => exact absurd rfl (hk _)
  | reconcile heffect => exact heffect.relates (reconcileReceipts_sameTree _ _ _ _ _ _)
  | calls _ => exact .of_receipts rfl
  | output _ => exact .of_receipts rfl
  | newCall heffect _ => exact heffect.relates (insertModelCall_sameTree _)
  | sandboxes _ => exact .of_receipts rfl
  | _ => exact absurd (by simp [Kind.parts]) hparts

theorem Does.sameTree {α : Type} {kinds : List Kind} {m : StoreTxn α} (h : Does kinds m)
    (hkinds : ∀ r, Kind.openReceipt r ∉ kinds) : Keeps SameTree m :=
  Keeps.mono h fun _ _ hdb ↦ hdb.relates fun _ hk _ _ hw ↦ hw.sameTree
    fun r heq ↦ hkinds r (heq ▸ hk)

theorem projectedToolReceipt_ledger (operationId : String) {s : Session Database World} :
    Post (projectedToolReceipt operationId) s fun _ s' ↦ s'.db.ledger = s.db.ledger :=
  ((projectedToolReceipt_does operationId) s).mono fun _ _ h ↦
    (Writing.within h).same .ledger (by decide)

theorem reconcileToolReceipt_sameTree (lease : Option ExecutionLease) (operationId runId : String)
    (decision : ReconcileDecision) (resultJson : Option Json) (resultHash : Option String) :
    Keeps SameTree
      (reconcileToolReceipt lease operationId runId decision resultJson resultHash) :=
  keeps_runWriteTransaction <| .bind keeps_utcNow fun _ ↦
    .bind (updateToolReceiptsCounted_sameTree fun _ ↦ ⟨rfl, rfl⟩) fun _ ↦
    .bind (.require _ _) fun _ ↦ (projectedToolReceipt_does _).sameTree (by simp)

/-! ## Preparing -/

/-- The receipt a prepare finds for its tool call. -/
def PrepareToolReceipt.recorded (p : PrepareToolReceipt) (db : Database) : Option ToolReceipt :=
  db.ledger.toolReceipts.rows.find? fun r ↦
    r.runId = p.runId && r.executionNamespace = p.executionNamespace && r.toolCallId = p.toolCallId

/-- The prepare puts the receipt it finds under a parent it names first. -/
def PrepareToolReceipt.FillsIn (p : PrepareToolReceipt) (db : Database) (parent : String) : Prop :=
  p.parentOperationId = some parent ∧ ∃ record, p.recorded db = some record ∧
    p.matches record = true ∧ record.parentOperationId = none

/-- What a prepare does to the tree. -/
inductive Prepares (p : PrepareToolReceipt) (db db' : Database) : Prop
  | same : SameTree db db' → Prepares p db db'
  | planted : (∀ r ∈ db.ledger.toolReceipts.rows, r.operationId ≠ p.operationId) →
      db'.lineages = db.lineages ++ [(p.operationId, p.runId, p.parentOperationId)] →
      Prepares p db db'
  | filled {parent : String} : p.FillsIn db parent →
      db'.lineages = db.lineages.map (fun l ↦
        if l.1 = p.operationId ∧ l.2.2 = none then (l.1, l.2.1, some parent) else l) →
      Prepares p db db'

/-- The parent a prepare names is a receipt of its run, and not the prepared
one. -/
def PrepareToolReceipt.ParentThere (p : PrepareToolReceipt) (db : Database) : Prop :=
  ∀ parent, p.parentOperationId = some parent →
    parent ≠ p.operationId ∧ ∃ above, (parent, p.runId, above) ∈ db.lineages

theorem requireParent_post (p : PrepareToolReceipt) (s : Session Database World) :
    Post p.requireParent s fun _ s' ↦ s'.db = s.db ∧ p.ParentThere s.db := by
  unfold PrepareToolReceipt.requireParent PrepareToolReceipt.ParentThere
  cases p.parentOperationId with
  | none => exact (post_pure _).mpr ⟨rfl, fun _ h ↦ by cases h⟩
  | some parent =>
      simp only [requireToolReceiptInRunUncommitted, findToolReceipt, post_bind, post_read,
        post_require, post_getOr]
      intro hne receipt hfind hrun
      refine ⟨trivial, ?_⟩
      rintro _ ⟨⟩
      refine ⟨hne, receipt.parentOperationId, ?_⟩
      have hmem := mem_lineages (Table.mem_of_find? hfind)
      rw [Table.key_of_find? hfind, hrun] at hmem
      exact hmem

theorem prepareToolReceipt_post (lease : Option ExecutionLease) (p : PrepareToolReceipt)
    (s : Session Database World) :
    Post (prepareToolReceipt lease p) s fun _ s' ↦
      p.ParentThere s.db ∧ Prepares p s.db s'.db := by
  refine post_runWriteTransaction fun w _ ↦ ?_
  rw [post_bind]
  refine (requireParent_post p _).mono ?_
  rintro _ s₁ ⟨hdb, hparent⟩
  dsimp only at hdb hparent
  rw [post_bind, post_read, hdb]
  cases hfind : p.recorded s.db with
  | some record =>
      unfold PrepareToolReceipt.recorded at hfind
      rw [hfind]
      dsimp only
      unfold PrepareToolReceipt.repeat
      rw [post_bind, post_require]
      intro hmatches
      rw [post_ite]
      constructor
      · intro hfill
        simp only [Bool.and_eq_true, Option.isNone_iff_eq_none] at hfill
        obtain ⟨parent, hnamed⟩ := Option.isSome_iff_exists.mp hfill.1
        simp only [updateToolReceipts, post_bind, post_write, post_pure]
        refine ⟨hparent, .filled ⟨hnamed, record, hfind, hmatches, hfill.2⟩ ?_⟩
        rw [hdb]
        unfold Database.lineages
        change (List.map _ (List.map _ _)) = _
        rw [List.map_map, List.map_map]
        refine List.map_congr_left fun r _ ↦ ?_
        simp only [Function.comp_apply, hnamed, Bool.and_eq_true, decide_eq_true_eq,
          Option.isNone_iff_eq_none]
        by_cases hfilled : r.operationId = p.operationId ∧ r.parentOperationId = none
        · rw [if_pos hfilled]
          exact (if_pos hfilled).symm
        · rw [if_neg hfilled]
          exact (if_neg hfilled).symm
      · intro _
        rw [post_pure]
        exact ⟨hparent, .same (hdb ▸ rfl)⟩
  | none =>
      unfold PrepareToolReceipt.recorded at hfind
      rw [hfind]
      dsimp only
      rw [post_bind]
      refine post_utcNow fun now w' ↦ ?_
      rw [post_bind]
      refine (insertToolReceipt_post _ _).mono ?_
      rintro _ s₂ ⟨receipts, hinsert, hdb₂⟩
      refine (projectedToolReceipt_ledger p.operationId).mono fun _ s₃ hledger ↦ ?_
      rw [hdb] at hinsert
      refine ⟨hparent, .planted ?_ ?_⟩
      · exact Table.find?_eq_none_iff.mp (Table.find?_key_of_insert? hinsert)
      · unfold Database.lineages
        rw [hledger, hdb₂]
        dsimp only
        rw [Table.rows_of_insert? hinsert, List.map_append]
        rfl

/-- Every way up ends at a receipt. -/
theorem Rooted.exists_of_hangs (h : Rooted db) {a b : String} (hab : db.Hangs a b) :
    ∃ runId above, (b, runId, above) ∈ db.lineages := by
  obtain ⟨runId, hmem⟩ := hangs_iff.mp hab
  obtain ⟨above, habove⟩ := h.parent a runId b hmem
  exact ⟨runId, above, habove⟩

theorem Rooted.planted (h : Rooted db) {p : PrepareToolReceipt} (hthere : p.ParentThere db)
    (hfresh : ∀ r ∈ db.ledger.toolReceipts.rows, r.operationId ≠ p.operationId)
    (hlineages : db'.lineages = db.lineages ++ [(p.operationId, p.runId, p.parentOperationId)]) :
    Rooted db' := by
  have hnone : ∀ x, ¬db.Hangs x p.operationId := by
    intro x hx
    obtain ⟨runId, above, habove⟩ := h.exists_of_hangs hx
    obtain ⟨r, hr, hid, _⟩ := exists_of_mem_lineages habove
    exact hfresh r hr hid
  have hmem : ∀ l, l ∈ db'.lineages ↔
      l ∈ db.lineages ∨ l = (p.operationId, p.runId, p.parentOperationId) := by
    intro l
    rw [hlineages, List.mem_append, List.mem_singleton]
  refine ⟨fun a runId b hb ↦ ?_, ?_⟩
  · rcases (hmem _).mp hb with hold | hnew
    · obtain ⟨above, habove⟩ := h.parent a runId b hold
      exact ⟨above, (hmem _).mpr (.inl habove)⟩
    · simp only [Prod.mk.injEq] at hnew
      obtain ⟨_, rfl, hparent⟩ := hnew
      obtain ⟨_, above, habove⟩ := hthere b hparent.symm
      exact ⟨above, (hmem _).mpr (.inl habove)⟩
  · cases hparent : p.parentOperationId with
    | none =>
        have hhangs : db'.Hangs = db.Hangs := by
          funext a b
          simp only [eq_iff_iff, hangs_iff, hmem, hparent, Prod.mk.injEq]
          simp
        exact hhangs ▸ h.acyclic
    | some parent =>
        have hhangs : db'.Hangs = Hung db.Hangs p.operationId parent := by
          funext a b
          simp only [Hung, eq_iff_iff, hangs_iff, hmem, hparent, Prod.mk.injEq,
            Option.some.injEq, exists_or]
          simp
        rw [hhangs]
        refine h.acyclic.hung fun hback ↦ ?_
        rcases hback.cases_tail with heq | ⟨x, _, hx⟩
        · exact (hthere parent hparent).1 heq.symm
        · exact hnone x hx

theorem Rooted.filled (h : Rooted db) {p : PrepareToolReceipt} {parent : String}
    (hthere : p.ParentThere db) (hfills : p.FillsIn db parent)
    (hapart : ¬db.Below parent p.operationId)
    (hlineages : db'.lineages = db.lineages.map fun l ↦
      if l.1 = p.operationId ∧ l.2.2 = none then (l.1, l.2.1, some parent) else l) :
    Rooted db' := by
  obtain ⟨hnamed, record, hrecord, hmatches, hnone⟩ := hfills
  obtain ⟨hne, above, habove⟩ := hthere parent hnamed
  -- the record of the call is the receipt of the operation
  have hfound : record ∈ db.ledger.toolReceipts.rows := List.mem_of_find?_eq_some hrecord
  have hid : record.operationId = p.operationId := by
    simp only [PrepareToolReceipt.matches, Bool.and_eq_true, decide_eq_true_eq] at hmatches
    exact hmatches.1.1.1.1.1
  have hrun : record.runId = p.runId := by
    have hfirst := List.find?_some hrecord
    simp only [Bool.and_eq_true, decide_eq_true_eq] at hfirst
    exact hfirst.1.1
  have hmem : ∀ a runId b, (a, runId, some b) ∈ db'.lineages ↔
      (a, runId, some b) ∈ db.lineages ∨ a = p.operationId ∧ runId = p.runId ∧ b = parent := by
    intro a runId b
    rw [hlineages, List.mem_map]
    constructor
    · rintro ⟨l, hl, heq⟩
      split at heq
      · rename_i hfilled
        cases heq
        obtain ⟨r, hr, hrid, hrrun, _⟩ := exists_of_mem_lineages (show (l.1, l.2) ∈ db.lineages from hl)
        obtain rfl : r = record := List.inj_on_of_nodup_map db.ledger.toolReceipts.nodup hr hfound
          (hrid.trans (hfilled.1.trans hid.symm))
        exact .inr ⟨hfilled.1, hrrun.symm.trans hrun, rfl⟩
      · cases heq
        exact .inl hl
    · rintro (hold | ⟨rfl, rfl, rfl⟩)
      · exact ⟨_, hold, if_neg fun hfalse ↦ by cases hfalse.2⟩
      · refine ⟨(p.operationId, p.runId, none), ?_, if_pos ⟨rfl, rfl⟩⟩
        rw [← hid, ← hrun, ← hnone]
        exact mem_lineages hfound
  have hstill : ∀ b runId, (∃ above, (b, runId, above) ∈ db.lineages) →
      ∃ above, (b, runId, above) ∈ db'.lineages := by
    rintro b runId ⟨above, habove⟩
    rw [hlineages]
    refine ⟨if b = p.operationId ∧ above = none then some parent else above,
      List.mem_map.mpr ⟨_, habove, ?_⟩⟩
    dsimp only
    split
    · rfl
    · rfl
  have hhangs : db'.Hangs = Hung db.Hangs p.operationId parent := by
    funext a b
    simp only [Hung, eq_iff_iff, hangs_iff, hmem, exists_or]
    simp
  refine ⟨fun a runId b hb ↦ hstill b runId ?_, ?_⟩
  · rcases (hmem a runId b).mp hb with hold | ⟨_, rfl, rfl⟩
    · exact h.parent a runId b hold
    · exact ⟨above, habove⟩
  · rw [hhangs]
    refine h.acyclic.hung fun hback ↦ ?_
    rcases Relation.reflTransGen_iff_eq_or_transGen.mp hback with heq | hbelow
    · exact hne heq.symm
    · exact hapart hbelow

/-! ## The walk down from a task -/

theorem Rooted.runId_of_hangs (h : Rooted db) {q r : ToolReceipt}
    (hq : q ∈ db.ledger.toolReceipts.rows) (hr : r ∈ db.ledger.toolReceipts.rows)
    (hparent : r.parentOperationId = some q.operationId) : r.runId = q.runId := by
  obtain ⟨above, habove⟩ := h.parent r.operationId r.runId q.operationId (hparent ▸ mem_lineages hr)
  obtain ⟨q', hq', hid, hrun, _⟩ := exists_of_mem_lineages habove
  obtain rfl : q' = q := List.inj_on_of_nodup_map db.ledger.toolReceipts.nodup hq' hq hid
  exact hrun.symm

theorem Rooted.runId_of_steps (h : Rooted db) {n : ℕ} {q r : ToolReceipt}
    (hr : r ∈ db.ledger.toolReceipts.rows) (hq : q ∈ db.ledger.toolReceipts.rows)
    (hsteps : Steps db.Hangs n r.operationId q.operationId) : r.runId = q.runId := by
  induction n generalizing r with
  | zero => rw [List.inj_on_of_nodup_map db.ledger.toolReceipts.nodup hr hq hsteps]
  | succ n ih =>
      obtain ⟨_, ⟨r', hr', hid, hparent⟩, hrest⟩ := hsteps
      obtain rfl : r' = r := List.inj_on_of_nodup_map db.ledger.toolReceipts.nodup hr' hr hid
      obtain ⟨above, habove⟩ := h.parent _ _ _ (hparent ▸ mem_lineages hr')
      obtain ⟨c, hc, rfl, hrun, _⟩ := exists_of_mem_lineages habove
      exact hrun.symm.trans (ih hc hrest)

/-- The walk finds what is below the operations, down to its depth. -/
theorem Rooted.mem_receiptDescendants (h : Rooted db) {runId : String} {r : ToolReceipt}
    (depth : ℕ) (parents : List String)
    (hparents : ∀ p ∈ parents, ∃ q ∈ db.ledger.toolReceipts.rows,
      q.operationId = p ∧ q.runId = runId) :
    r ∈ receiptDescendants db.ledger.toolReceipts.rows runId depth parents ↔
      r ∈ db.ledger.toolReceipts.rows ∧ r.runId = runId ∧
        ∃ n < depth, ∃ p ∈ parents, Steps db.Hangs (n + 1) r.operationId p := by
  induction depth generalizing parents with
  | zero =>
      simp only [receiptDescendants, List.not_mem_nil, false_iff]
      rintro ⟨_, _, n, hn, _⟩
      omega
  | succ depth ih =>
      have hlevel : ∀ q : ToolReceipt, q ∈ db.ledger.toolReceipts.rows.filter (fun r ↦
          r.runId = runId && r.parentOperationId.any fun p ↦ decide (p ∈ parents)) ↔
          q ∈ db.ledger.toolReceipts.rows ∧ q.runId = runId ∧
            ∃ p ∈ parents, q.parentOperationId = some p := by
        intro q
        rw [List.mem_filter, Bool.and_eq_true, decide_eq_true_eq, option_any_iff]
        simp only [decide_eq_true_eq]
        constructor
        · rintro ⟨hq, hrun, p, hparent, hp⟩
          exact ⟨hq, hrun, p, hp, hparent⟩
        · rintro ⟨hq, hrun, p, hp, hparent⟩
          exact ⟨hq, hrun, p, hparent, hp⟩
      simp only [receiptDescendants, List.mem_append, mem_orderByTimeId]
      rw [ih _ ?_, hlevel]
      · constructor
        · rintro (⟨hr, hrun, n, hn, _, hp, hsteps⟩ | ⟨hr, hrun, p, hp, hparent⟩)
          · obtain ⟨q, hq, rfl⟩ := List.mem_map.mp hp
            obtain ⟨hq, _, p, hp, hparent⟩ := (hlevel q).mp hq
            exact ⟨hr, hrun, n + 1, by omega, p, hp,
              steps_succ_iff.mpr ⟨_, hsteps, q, hq, rfl, hparent⟩⟩
          · exact ⟨hr, hrun, 0, by omega, p, hp, p, ⟨r, hr, rfl, hparent⟩, rfl⟩
        · rintro ⟨hr, hrun, n, hn, p, hp, hsteps⟩
          cases n with
          | zero =>
              obtain ⟨_, ⟨r', hr', hid, hparent⟩, rfl⟩ := hsteps
              obtain rfl : r' = r :=
                List.inj_on_of_nodup_map db.ledger.toolReceipts.nodup hr' hr hid
              exact .inr ⟨hr, hrun, _, hp, hparent⟩
          | succ n =>
              obtain ⟨_, hsteps, q, hq, rfl, hparent⟩ := steps_succ_iff.mp hsteps
              obtain ⟨above, habove, hid, hsame⟩ := hparents p hp
              have hqrun : q.runId = runId :=
                (h.runId_of_hangs habove hq (hid ▸ hparent)).trans hsame
              exact .inl ⟨hr, hrun, n, by omega, q.operationId,
                List.mem_map_of_mem ((hlevel q).mpr ⟨hq, hqrun, p, hp, hparent⟩), hsteps⟩
      · intro p hp
        obtain ⟨q, hq, rfl⟩ := List.mem_map.mp hp
        obtain ⟨hq, hrun, _⟩ := (hlevel q).mp hq
        exact ⟨q, hq, rfl, hrun⟩

theorem runId_of_mem_receiptDescendants {receipts : List ToolReceipt} {runId : String}
    {child : ToolReceipt} (depth : ℕ) (parents : List String)
    (h : child ∈ receiptDescendants receipts runId depth parents) : child.runId = runId := by
  induction depth generalizing parents with
  | zero => simp [receiptDescendants] at h
  | succ depth ih =>
      simp only [receiptDescendants, List.mem_append, mem_orderByTimeId, List.mem_filter,
        Bool.and_eq_true, decide_eq_true_eq] at h
      rcases h with hdeeper | ⟨_, hrun, _⟩
      · exact ih _ hdeeper
      · exact hrun

/-! ## Settling what the walk finds -/

/-- What the walk has settled when some of the receipts it found are left. -/
structure Settling (db db' : Database) (runId : String) (found rest : List ToolReceipt) : Prop where
  tree : SameTree db db'
  closed : ∀ r ∈ db'.ledger.toolReceipts.rows, ∀ child ∈ found,
    r.operationId = child.operationId → child ∈ rest ∨ r.open = false
  left : ∀ child ∈ rest, DescendantOf db' child
  apart : ∀ r, (∀ child ∈ found, r.operationId ≠ child.operationId) →
    (r ∈ db'.ledger.toolReceipts.rows ↔ r ∈ db.ledger.toolReceipts.rows)

theorem not_open_of_descendant {child : ToolReceipt} {status : ReceiptStatus}
    (h : descendantSettlement child.status = some status) (r : ToolReceipt)
    (hr : r.status = status) : r.open = false := by
  rw [← Bool.not_eq_true, ToolReceipt.open_iff, hr]
  revert h
  cases child.status <;> simp [descendantSettlement] <;> rintro rfl <;> decide

theorem Settling.skip {runId : String} {found rest : List ToolReceipt} {child : ToolReceipt}
    (h : Settling db db' runId found (child :: rest))
    (hnone : descendantSettlement child.status = none) : Settling db db' runId found rest := by
  refine ⟨h.tree, fun r hr c hc hid ↦ ?_, fun c hc ↦ h.left c (List.mem_cons_of_mem _ hc), h.apart⟩
  rcases h.closed r hr c hc hid with hrest | hclosed
  · rcases List.mem_cons.mp hrest with rfl | hrest
    · right
      rcases h.left c List.mem_cons_self r hr hid with hstatus | hsettled
      · rw [← Bool.not_eq_true, ToolReceipt.open_iff, hstatus]
        rintro (hopen | hopen | hopen)
        · simp [hopen, descendantSettlement] at hnone
        · simp [hopen, descendantSettlement] at hnone
        · simp [hopen, descendantSettlement] at hnone
      · rw [hnone] at hsettled
        cases hsettled
    · exact .inl hrest
  · exact .inr hclosed

theorem Settling.settle {runId : String} {found rest : List ToolReceipt} {child : ToolReceipt}
    (h : Settling db db' runId found (child :: rest))
    (hfound : ∀ c ∈ child :: rest, c ∈ db.ledger.toolReceipts.rows ∧ c.runId = runId)
    {status : ReceiptStatus} (hsettled : descendantSettlement child.status = some status)
    {f : ToolReceipt → ToolReceipt} {hf : ∀ r, (f r).operationId = r.operationId}
    (hsame : ∀ r, (f r).runId = r.runId ∧ (f r).parentOperationId = r.parentOperationId)
    (hstatus : ∀ r, (f r).status = status) (hchild : child ∈ found) :
    Settling db { db' with ledger := { db'.ledger with
      toolReceipts := db'.ledger.toolReceipts.update
        (fun r ↦ r.operationId = child.operationId && r.runId = runId) f hf } }
      runId found rest := by
  -- a receipt of the operation belongs to the run, as it did when it was found
  have hrun : ∀ r ∈ db'.ledger.toolReceipts.rows, r.operationId = child.operationId →
      r.runId = runId := by
    intro r hr hid
    have hlineage := mem_lineages hr
    rw [show db'.lineages = db.lineages from h.tree] at hlineage
    obtain ⟨r', hr', hid', hrun', _⟩ := exists_of_mem_lineages hlineage
    obtain rfl : r' = child := List.inj_on_of_nodup_map db.ledger.toolReceipts.nodup hr'
      (hfound child List.mem_cons_self).1 (hid'.trans hid)
    rw [← hrun']
    exact (hfound r' List.mem_cons_self).2
  refine ⟨trans_of SameTree h.tree (sameTree_update fun r _ _ ↦ hsame r), ?_, ?_, ?_⟩
  · intro r hr c hc hid
    obtain ⟨r₀, hr₀, rfl⟩ := List.mem_map.mp hr
    split
    · exact .inr (not_open_of_descendant hsettled _ (hstatus r₀))
    · rename_i hother
      rw [if_neg hother] at hid
      rcases h.closed r₀ hr₀ c hc hid with hrest | hclosed
      · rcases List.mem_cons.mp hrest with rfl | hrest
        · exact absurd (by simp [hid, hrun r₀ hr₀ hid]) hother
        · exact .inl hrest
      · exact .inr hclosed
  · intro c hc
    refine (h.left c (List.mem_cons_of_mem _ hc)).update fun r hp hid ↦ ?_
    simp only [Bool.and_eq_true, decide_eq_true_eq] at hp
    obtain rfl : child = c := List.inj_on_of_nodup_map db.ledger.toolReceipts.nodup
      (hfound child List.mem_cons_self).1 (hfound c (List.mem_cons_of_mem _ hc)).1
      (hp.1.symm.trans hid)
    rw [hsettled, hstatus]
  · intro r hr
    rw [← h.apart r hr]
    constructor
    · intro hmem
      obtain ⟨r₀, hr₀, rfl⟩ := List.mem_map.mp hmem
      by_cases hp : (decide (r₀.operationId = child.operationId) &&
          decide (r₀.runId = runId)) = true
      · rw [if_pos hp] at hr
        simp only [Bool.and_eq_true, decide_eq_true_eq] at hp
        exact absurd ((hf r₀).trans hp.1) (hr child hchild)
      · rw [if_neg hp]
        exact hr₀
    · intro hmem
      refine List.mem_map.mpr ⟨r, hmem, if_neg ?_⟩
      rw [Bool.and_eq_true, decide_eq_true_eq]
      exact fun hp ↦ hr child hchild hp.1

theorem Settling.of_ledger {db'' : Database} {runId : String} {found rest : List ToolReceipt}
    (h : Settling db db' runId found rest) (hledger : db''.ledger = db'.ledger) :
    Settling db db'' runId found rest := by
  refine ⟨trans_of SameTree h.tree (.of_ledger hledger), ?_, ?_, ?_⟩
  · rw [hledger]
    exact h.closed
  · unfold DescendantOf
    rw [hledger]
    exact h.left
  · rw [hledger]
    exact h.apart

theorem settleTaskDescendants_post (runId operationId : String) (parentStatus : ReceiptStatus)
    (now : Time) (s : Session Database World) :
    Post (settleTaskDescendantsUncommitted runId operationId parentStatus now) s fun _ s' ↦
      Settling s.db s'.db runId
        (receiptDescendants s.db.ledger.toolReceipts.rows runId 64 [operationId]) [] := by
  unfold settleTaskDescendantsUncommitted
  rw [post_bind, post_read]
  have hfound : ∀ c ∈ receiptDescendants s.db.ledger.toolReceipts.rows runId 64 [operationId],
      c ∈ s.db.ledger.toolReceipts.rows ∧ c.runId = runId := fun c hc ↦
    ⟨mem_of_mem_receiptDescendants _ _ hc, runId_of_mem_receiptDescendants _ _ hc⟩
  refine (Post.forM (fun rest t ↦ Settling s.db t.db runId _ rest ∧
    rest ⊆ receiptDescendants s.db.ledger.toolReceipts.rows runId 64 [operationId]) ?_
    ⟨⟨rfl, ?_, ?_, fun _ _ ↦ Iff.rfl⟩, List.Subset.refl _⟩).mono fun _ _ h ↦ h.1
  · rintro child rest t ⟨h, hsub⟩
    have hrest : rest ⊆ _ := fun c hc ↦ hsub (List.mem_cons_of_mem _ hc)
    split
    · rename_i hnone
      exact (post_pure _).mpr ⟨h.skip hnone, hrest⟩
    · rename_i status hsettled
      unfold updateToolReceipts
      rw [post_bind, post_write]
      refine ((appendSubagentReceiptEventUncommitted_does _) _).mono fun _ u hu ↦ ⟨?_, hrest⟩
      have hledger : u.db.ledger = _ := (Writing.within hu).same .ledger (by decide)
      refine Settling.of_ledger ?_ hledger
      exact h.settle (fun c hc ↦ hfound c (hsub hc)) hsettled (fun _ ↦ ⟨rfl, rfl⟩) (fun _ ↦ rfl)
        (hsub List.mem_cons_self)
  · exact fun r _ c hc _ ↦ .inl hc
  · intro c hc r hr hid
    left
    rw [List.inj_on_of_nodup_map s.db.ledger.toolReceipts.nodup hr (hfound c hc).1 hid]

/-! ## Runs -/

/-- The condition on a step: no receipt that stands alone is put under one of
its own descendants. -/
def graftsApart : StoreOp × World → Database → Prop
  | (.prepareToolReceipt _ p, _), db =>
    ∀ parent, p.FillsIn db parent → ¬db.Below parent p.operationId
  | _, _ => True

theorem Rooted.prepares (h : Rooted db) {p : PrepareToolReceipt} (hthere : p.ParentThere db)
    (hapart : ∀ parent, p.FillsIn db parent → ¬db.Below parent p.operationId)
    (hprepares : Prepares p db db') : Rooted db' := by
  cases hprepares with
  | same hsame => exact hsame.rooted h
  | planted hfresh hlineages => exact h.planted hthere hfresh hlineages
  | filled hfills hlineages => exact h.filled hthere hfills (hapart _ hfills) hlineages

/-- The step lemma. -/
theorem Rooted.after (h : Rooted db) {op : StoreOp} {w : World} (hok : graftsApart (op, w) db) :
    Rooted (op.after db w) := by
  have hplain : (∀ r, Kind.openReceipt r ∉ op.kinds) → Rooted (op.after db w) := fun hkinds ↦
    SameTree.rooted ((op.exec_does.sameTree hkinds).commit db w) h
  cases op with
  | prepareToolReceipt lease p =>
      refine Post.commit (P := Rooted) h ?_
      unfold StoreOp.exec effect
      rw [post_map]
      exact (prepareToolReceipt_post lease p _).mono fun _ _ hpost ↦
        h.prepares hpost.1 hok hpost.2
  | reconcileToolReceipt lease operationId runId decision resultJson resultHash =>
      exact SameTree.rooted ((Keeps.map _
        (reconcileToolReceipt_sameTree lease operationId runId decision resultJson
          resultHash)).commit db w) h
  | appendEvent lease runId eventType payload =>
      refine hplain fun r ↦ ?_
      simp only [StoreOp.kinds]
      split
      · simp
      · simp
  | _ => exact hplain fun r ↦ by simp [StoreOp.kinds, lifecycleKinds, answerKinds, startKinds]

theorem rooted_of_reachable (h : store.ReachableBy graftsApart db) : Rooted db := by
  refine h.invariant ?_ ?_
  · rintro _ rfl
    refine ⟨(fun a runId b hb ↦ by cases hb), .of_empty ?_⟩
    rintro x y ⟨r, hr, _⟩
    cases hr
  · rintro ⟨op, w⟩ db db' hdb hok rfl
    exact hdb.after hok

/-! ## Settling a task -/

/-- Nothing below an operation is open. -/
def NothingOpenBelow (db : Database) (operationId : String) : Prop :=
  ∀ r ∈ db.ledger.toolReceipts.rows, db.Below r.operationId operationId → r.open = false

/-- Nothing is open further below an operation than the walk goes. -/
def NothingOpenDeeper (db : Database) (operationId : String) : Prop :=
  ∀ r ∈ db.ledger.toolReceipts.rows, ∀ n, 64 < n →
    Steps db.Hangs n r.operationId operationId → r.open = false

theorem settleTaskReceipt_post (lease : Option ExecutionLease) (operationId runId : String)
    (settlement : Settlement) (s : Session Database World) :
    Post (settleTaskReceipt lease operationId runId settlement) s fun _ s' ↦
      (∃ q ∈ s.db.ledger.toolReceipts.rows, q.operationId = operationId ∧ q.runId = runId) ∧
      ∃ db₁, Settling s.db db₁ runId
          (receiptDescendants s.db.ledger.toolReceipts.rows runId 64 [operationId]) [] ∧
        SameTree db₁ s'.db ∧ ∀ r, r.operationId ≠ operationId →
          (r ∈ s'.db.ledger.toolReceipts.rows ↔ r ∈ db₁.ledger.toolReceipts.rows) := by
  unfold settleTaskReceipt
  rw [post_bind, post_require]
  intro _
  refine post_runWriteTransaction fun w _ ↦ ?_
  simp only [findToolReceiptInRun]
  rw [post_bind, post_read, post_bind, post_require]
  intro hparent
  obtain ⟨q, hq, _⟩ := option_any_iff.mp hparent
  obtain ⟨hfind, hrun⟩ := Option.filter_eq_some_iff.mp hq
  rw [post_bind]
  refine post_utcNow fun now w' ↦ ?_
  rw [post_bind]
  refine (settleTaskDescendants_post _ _ _ _ _).mono fun _ s₁ hsettling ↦ ?_
  simp only [updateToolReceiptsCounted, updateToolReceipts, post_bind, post_read, post_write,
    post_pure, post_require]
  intro _
  refine (projectedToolReceipt_ledger operationId).mono fun _ s₂ hledger ↦ ?_
  refine ⟨⟨q, Table.mem_of_find? hfind, Table.key_of_find? hfind, by simpa using hrun⟩,
    s₁.db, hsettling, ?_, fun r hr ↦ ?_⟩
  · refine trans_of SameTree ?_ (.of_ledger hledger)
    exact sameTree_update fun _ _ _ ↦ ⟨rfl, rfl⟩
  · rw [hledger]
    constructor
    · intro hmem
      obtain ⟨r₀, hr₀, rfl⟩ := List.mem_map.mp hmem
      split
      · rename_i hp
        rw [if_pos hp] at hr
        simp only [Bool.and_eq_true, decide_eq_true_eq] at hp
        exact absurd hp.1.1 hr
      · exact hr₀
    · intro hmem
      refine List.mem_map.mpr ⟨r, hmem, if_neg ?_⟩
      simp only [Bool.and_eq_true, decide_eq_true_eq]
      exact fun hp ↦ hr hp.1.1

/-- In a forest, a settlement leaves nothing open below the task exactly when
nothing was open further below than the walk goes. -/
theorem Rooted.settled_iff (h : Rooted db) {lease : Option ExecutionLease}
    {operationId runId : String} {settlement : Settlement} {w : World} {record : ToolReceipt}
    (hcommit : Txn.commit (settleTaskReceipt lease operationId runId settlement) db w =
      (.ok record, db')) : NothingOpenBelow db' operationId ↔ NothingOpenDeeper db operationId := by
  obtain ⟨s', hs', hdb'⟩ := commit_ok (congrArg Prod.fst hcommit)
  rw [hcommit] at hdb'
  dsimp only at hdb'
  obtain ⟨⟨q, hq, hid, hrun⟩, db₁, hsettling, htree, hothers⟩ :=
    settleTaskReceipt_post lease operationId runId settlement _ _ _ hs'
  rw [← hdb'] at htree hothers
  dsimp only at hq hsettling
  have hhangs : db'.Hangs = db.Hangs := SameTree.hangs (trans_of SameTree hsettling.tree htree)
  have hfound := fun r ↦ h.mem_receiptDescendants (r := r) 64 [operationId] (by
    simp only [List.mem_singleton]
    rintro _ rfl
    exact ⟨q, hq, hid, hrun⟩)
  have hne : ∀ n r, Steps db.Hangs (n + 1) r operationId → r ≠ operationId := by
    rintro n _ hsteps rfl
    exact h.acyclic _ (transGen_iff_steps.mpr ⟨n, hsteps⟩)
  -- a receipt further below than the walk goes is left alone
  have hdeep : ∀ (r : ToolReceipt) (n : ℕ), 64 < n → Steps db.Hangs n r.operationId operationId →
      (r ∈ db'.ledger.toolReceipts.rows ↔ r ∈ db.ledger.toolReceipts.rows) := by
    intro r n hn hsteps
    obtain ⟨m, rfl⟩ : ∃ m, n = m + 1 := ⟨n - 1, by omega⟩
    rw [hothers r (hne m _ hsteps)]
    refine hsettling.apart r fun child hchild hsame ↦ ?_
    obtain ⟨_, _, k, hk, _, hp, hless⟩ := (hfound child).mp hchild
    rw [List.mem_singleton.mp hp, ← hsame] at hless
    have heq := hsteps.unique h.acyclic hangs_unique hless
    omega
  constructor
  · intro hclosed r hr n hn hsteps
    obtain ⟨m, rfl⟩ : ∃ m, n = m + 1 := ⟨n - 1, by omega⟩
    refine hclosed r ((hdeep r _ hn hsteps).mpr hr) ?_
    unfold Database.Below
    rw [hhangs]
    exact transGen_iff_steps.mpr ⟨m, hsteps⟩
  · intro hdeeper r hr hbelow
    unfold Database.Below at hbelow
    rw [hhangs] at hbelow
    obtain ⟨n, hsteps⟩ := transGen_iff_steps.mp hbelow
    rcases Nat.lt_or_ge n 64 with hn | hn
    · have hr₁ := (hothers r (hne n _ hsteps)).mp hr
      obtain ⟨_, ⟨child, hchild, hsame, _⟩, _⟩ := id hsteps
      rw [← hsame] at hsteps
      have hchildRun : child.runId = runId :=
        (h.runId_of_steps hchild hq (hid.symm ▸ hsteps)).trans hrun
      have hmem := (hfound child).mpr ⟨hchild, hchildRun, n, hn, operationId, by simp, hsteps⟩
      rcases hsettling.closed r hr₁ child hmem hsame.symm with hrest | hclosed
      · cases hrest
      · exact hclosed
    · exact hdeeper r ((hdeep r (n + 1) (by omega) hsteps).mp hr) (n + 1) (by omega) hsteps

/-- While no receipt is put under its own descendant, the receipts of every
run form a forest, and a settled task has nothing open below it unless that
is further below than the walk goes. -/
theorem receipt_trees_settle (h : store.ReachableBy graftsApart db) :
    (∀ runId, ReceiptForest db runId) ∧
      ∀ lease operationId runId settlement w record db',
        Txn.commit (settleTaskReceipt lease operationId runId settlement) db w = (.ok record, db') →
        (NothingOpenBelow db' operationId ↔ NothingOpenDeeper db operationId) :=
  ⟨(rooted_of_reachable h).forest, fun _ _ _ _ _ _ _ hcommit ↦
    (rooted_of_reachable h).settled_iff hcommit⟩

namespace Grafts

/-! ## A receipt under its own child -/

def lease : ExecutionLease := ⟨"job_xxxxx", "run_xx", "worker", 1⟩

def task (operationId : String) (parent : Option String) : PrepareToolReceipt where
  operationId := operationId
  runId := "run_xx"
  executionAttemptId := ⟨"job_xxxxx", 1⟩
  toolCallId := operationId
  toolName := "task"
  argumentsHash := "hash"
  argumentsJson := .obj []
  risk := "low"
  parentOperationId := parent

/-- An outer task with an inner one. -/
@[irreducible] def nested : Database :=
  (StoreOp.prepareToolReceipt (some lease) (task "inner" (some "outer"))).after
    ((StoreOp.prepareToolReceipt (some lease) (task "outer" none)).after Database.claimed
      (.counting 20)) (.counting 30)

/-- The outer task is prepared again, under the inner one. -/
@[irreducible] def tangled : Database :=
  (StoreOp.prepareToolReceipt (some lease) (task "outer" (some "inner"))).after nested
    (.counting 40)

/-- A prepare that finds no record fills nothing in. -/
theorem graftsApart_of_unrecorded {lease : Option ExecutionLease} {p : PrepareToolReceipt}
    {w : World} {db : Database} (h : (p.recorded db).isNone = true) :
    graftsApart (.prepareToolReceipt lease p, w) db := by
  rintro parent ⟨_, record, hrecord, _⟩
  rw [hrecord] at h
  cases h

theorem reachable_nested : store.ReachableBy graftsApart nested := by
  have hempty : store.ReachableBy graftsApart Database.empty := ⟨_, rfl, .refl _⟩
  have haccepted : store.ReachableBy graftsApart Database.accepted := by
    rw [Database.accepted]
    exact hempty.step (i := (.acceptRunCommand .sample, .counting 0)) trivial rfl
  have hclaimed : store.ReachableBy graftsApart Database.claimed := by
    rw [Database.claimed]
    exact haccepted.step (i := (.claimRunJob "worker" 50, .counting 10)) trivial rfl
  have houter := hclaimed.step
    (i := (.prepareToolReceipt (some lease) (task "outer" none), .counting 20))
    (graftsApart_of_unrecorded (by decide +kernel)) rfl
  rw [nested]
  exact houter.step
    (i := (.prepareToolReceipt (some lease) (task "inner" (some "outer")), .counting 30))
    (graftsApart_of_unrecorded (by decide +kernel)) rfl

theorem receipt_trees_settle_nested :
    (nested.ledger.toolReceipts.rows.any fun r ↦
        r.operationId = "inner" && r.parentOperationId = some "outer" && r.open) = true ∧
      (∀ runId, ReceiptForest nested runId) ∧
      ∀ lease operationId runId settlement w record db',
        Txn.commit (settleTaskReceipt lease operationId runId settlement) nested w =
          (.ok record, db') →
        (NothingOpenBelow db' operationId ↔ NothingOpenDeeper nested operationId) :=
  ⟨by decide +kernel, receipt_trees_settle reachable_nested⟩

theorem hangs_of_any {db : Database} {a b : String}
    (h : (db.ledger.toolReceipts.rows.any fun r ↦
      r.operationId = a && r.parentOperationId = some b) = true) : db.Hangs a b := by
  obtain ⟨r, hr, hproperties⟩ := List.any_eq_true.mp h
  simp only [Bool.and_eq_true, decide_eq_true_eq] at hproperties
  exact ⟨r, hr, hproperties⟩

theorem receipts_tangled : ¬∀ db, store.Reachable db →
    (∀ runId, ReceiptForest db runId) ∧
      ∀ lease operationId runId settlement w record db',
        Txn.commit (settleTaskReceipt lease operationId runId settlement) db w = (.ok record, db') →
        NothingOpenBelow db' operationId := by
  intro h
  have hnested : store.Reachable nested := reachable_nested.weaken fun _ _ _ ↦ trivial
  have htangled : store.Reachable tangled := by
    rw [tangled]
    exact hnested.step
      (i := (.prepareToolReceipt (some lease) (task "outer" (some "inner")), .counting 40))
      trivial rfl
  have houter : tangled.Hangs "outer" "inner" := hangs_of_any (by decide +kernel)
  have hinner : tangled.Hangs "inner" "outer" := hangs_of_any (by decide +kernel)
  have hcycle : tangled.Below "outer" "outer" := .tail (.single houter) hinner
  obtain ⟨r, hr, hid, _⟩ := houter
  have hrun : (tangled.ledger.toolReceipts.rows.all fun r ↦ r.runId = "run_xx") = true := by
    decide +kernel
  refine ((h _ htangled).1 "run_xx").acyclic r hr (by simpa using List.all_eq_true.mp hrun r hr) ?_
  rw [hid]
  exact hcycle

end Grafts

end ShejaneRuntime.Store
