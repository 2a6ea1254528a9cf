import ShejaneRuntime.Store.Schema

/-!
# Unknown outcomes in the lineage of a run

A recursive query walks from a run to the runs it continues, as long as they
belong to one principal and at most 64 steps past the first, and looks for a
receipt whose outcome is unknown. The receipt of the nearest run is taken.
-/

namespace ShejaneRuntime.Store

open Lib

variable {db : Database} {runId owner : String}

/-! ## The query -/

/-- A row of the common table expression `lineage`. -/
structure LineageRow where
  id : String
  owner : String
  depth : ℕ

/-- `lineage.depth < 64` -/
def lineageDepth : ℕ := 64

/-- `WHERE id = ? AND principal_id = ?` -/
def ownedRun (db : Database) (owner id : String) : Option Run :=
  (db.runs.find? id).filter fun run ↦ run.principalId = owner

/-- The initial select of the query. -/
def lineageBase (db : Database) (runId : String) : Option LineageRow :=
  (db.runs.find? runId).bind fun run ↦ run.parentRunId.map fun parent ↦ ⟨parent, run.principalId, 0⟩

/-- The recursive select of the query. -/
def lineageStep (db : Database) (row : LineageRow) : Option LineageRow :=
  if row.depth < lineageDepth then
    (ownedRun db row.owner row.id).bind fun ancestor ↦
      ancestor.parentRunId.map fun parent ↦ ⟨parent, row.owner, row.depth + 1⟩
  else none

/-- The rows the recursion adds, at most so many. -/
def lineageRows (db : Database) : ℕ → Option LineageRow → List LineageRow
  | fuel + 1, some row => row :: lineageRows db fuel (lineageStep db row)
  | _, _ => []

def lineage (db : Database) (runId : String) : List LineageRow :=
  lineageRows db (lineageDepth + 1) (lineageBase db runId)

/-- The call a tool is about to make. -/
structure ToolCallKey where
  toolName : String
  argumentsHash : String
  risk : String

def ToolCallKey.Unsettled (call : ToolCallKey) (receipt : ToolReceipt) : Prop :=
  receipt.toolName = call.toolName ∧ receipt.argumentsHash = call.argumentsHash ∧
    receipt.risk = call.risk ∧ receipt.status = .outcomeUnknown

instance (call : ToolCallKey) (receipt : ToolReceipt) : Decidable (call.Unsettled receipt) := by
  unfold ToolCallKey.Unsettled
  infer_instance

/-- The unsettled receipts of a call in a run. -/
def unsettledIn (db : Database) (call : ToolCallKey) (runId : String) : List ToolReceipt :=
  db.ledger.toolReceipts.select fun receipt ↦ receipt.runId = runId ∧ call.Unsettled receipt

def joinReceipts (db : Database) (call : ToolCallKey) (row : LineageRow) : List (ℕ × ToolReceipt) :=
  match ownedRun db row.owner row.id with
  | some _ => (unsettledIn db call row.id).map fun receipt ↦ (row.depth, receipt)
  | none => []

/-- `ORDER BY lineage.depth, local_tool_receipts.updated_at DESC` -/
def receiptBefore (a b : ℕ × ToolReceipt) : Bool :=
  a.1 < b.1 || a.1 = b.1 && b.2.updatedAt ≤ a.2.updatedAt

/-- `find_outcome_unknown_tool_receipt_in_lineage` -/
def findOutcomeUnknownToolReceiptInLineage (db : Database) (currentRunId : String)
    (call : ToolCallKey) : Option ToolReceipt :=
  ((((lineage db currentRunId).flatMap (joinReceipts db call)).mergeSort receiptBefore).head?).map
    Prod.snd

/-! ## Ancestors -/

/-- The run that a run continues, if it belongs to the principal. -/
def parentOf (db : Database) (owner : String) (run : Run) : Option Run :=
  run.parentRunId.bind (ownedRun db owner)

/-- The proper ancestors of a run along runs of its principal, the nearest first. -/
def ancestor (db : Database) (runId : String) : ℕ → Option Run
  | 0 => (db.runs.find? runId).bind fun run ↦ parentOf db run.principalId run
  | k + 1 => (ancestor db runId k).bind fun run ↦ parentOf db run.principalId run

theorem ownedRun_eq_some {id : String} {run : Run} : ownedRun db owner id = some run ↔
    db.runs.find? id = some run ∧ run.principalId = owner := by
  unfold ownedRun
  rw [Option.filter_eq_some_iff]
  simp

/-- A run and the row that names it. -/
structure Reaches (db : Database) (runId : String) (row : LineageRow) : Prop where
  owner : ∃ run, db.runs.find? runId = some run ∧ run.principalId = row.owner
  ancestor : ownedRun db row.owner row.id = ancestor db runId row.depth

theorem reaches_base {row : LineageRow} (h : lineageBase db runId = some row) :
    Reaches db runId row := by
  obtain ⟨run, hrun, hrow⟩ := Option.bind_eq_some_iff.mp h
  obtain ⟨parent, hparent, rfl⟩ := Option.map_eq_some_iff.mp hrow
  refine ⟨⟨run, hrun, rfl⟩, ?_⟩
  rw [Store.ancestor, hrun, Option.bind_some, parentOf, hparent]
  rfl

theorem Reaches.step {row next : LineageRow} (h : Reaches db runId row)
    (hstep : lineageStep db row = some next) : Reaches db runId next := by
  unfold lineageStep at hstep
  split at hstep
  · obtain ⟨run, hrun, hnext⟩ := Option.bind_eq_some_iff.mp hstep
    obtain ⟨parent, hparent, rfl⟩ := Option.map_eq_some_iff.mp hnext
    refine ⟨h.owner, ?_⟩
    rw [Store.ancestor, ← h.ancestor, hrun, Option.bind_some, parentOf, hparent,
      (ownedRun_eq_some.mp hrun).2]
    rfl
  · cases hstep

/-- The rows of the query, each with its ancestor. -/
theorem reaches_of_mem {fuel : ℕ} {start : Option LineageRow}
    (hstart : ∀ row, start = some row → Reaches db runId row) {row : LineageRow}
    (hrow : row ∈ lineageRows db fuel start) : Reaches db runId row := by
  induction fuel generalizing start with
  | zero => cases hrow
  | succ fuel ih =>
      cases start with
      | none => cases hrow
      | some first =>
          rcases List.mem_cons.mp hrow with rfl | hrest
          · exact hstart row rfl
          · refine ih ?_ hrest
            intro next hnext
            exact (hstart first rfl).step hnext

theorem depth_of_step {row next : LineageRow} (h : lineageStep db row = some next) :
    row.depth < lineageDepth ∧ next.depth = row.depth + 1 := by
  unfold lineageStep at h
  split at h
  · rename_i hlt
    obtain ⟨run, _, hnext⟩ := Option.bind_eq_some_iff.mp h
    obtain ⟨parent, _, rfl⟩ := Option.map_eq_some_iff.mp hnext
    exact ⟨hlt, rfl⟩
  · cases h

theorem depth_of_mem {fuel : ℕ} {start : Option LineageRow}
    (hstart : ∀ row, start = some row → row.depth ≤ lineageDepth) {row : LineageRow}
    (hrow : row ∈ lineageRows db fuel start) : row.depth ≤ lineageDepth := by
  induction fuel generalizing start with
  | zero => cases hrow
  | succ fuel ih =>
      cases start with
      | none => cases hrow
      | some first =>
          rcases List.mem_cons.mp hrow with rfl | hrest
          · exact hstart row rfl
          · refine ih ?_ hrest
            intro next hnext
            obtain ⟨hlt, hdepth⟩ := depth_of_step hnext
            omega

/-- The recursion has ended after as many rows as there are depths left. -/
theorem lineageRows_ended {fuel fuel' : ℕ} {row : LineageRow} (hdepth : row.depth ≤ lineageDepth)
    (hfuel : lineageDepth < fuel + row.depth) (hle : fuel ≤ fuel') :
    lineageRows db fuel' (some row) = lineageRows db fuel (some row) := by
  induction fuel generalizing fuel' row with
  | zero => omega
  | succ fuel ih =>
      obtain ⟨fuel', rfl⟩ : ∃ n, fuel' = n + 1 := ⟨fuel' - 1, by omega⟩
      rw [lineageRows, lineageRows]
      cases hstep : lineageStep db row with
      | none =>
          cases fuel' <;> cases fuel <;> rfl
      | some next =>
          obtain ⟨hlt, hnext⟩ := depth_of_step hstep
          rw [ih (by omega) (by omega) (by omega)]

/-- With enough fuel a row is followed by the row of its step. -/
theorem mem_of_step {fuel : ℕ} {start row next : LineageRow}
    (hfuel : lineageDepth < fuel + start.depth) (hrow : row ∈ lineageRows db fuel (some start))
    (hstep : lineageStep db row = some next) : next ∈ lineageRows db fuel (some start) := by
  induction fuel generalizing start with
  | zero => cases hrow
  | succ fuel ih =>
      rcases List.mem_cons.mp hrow with rfl | hrest
      · obtain ⟨hlt, _⟩ := depth_of_step hstep
        obtain ⟨fuel, rfl⟩ : ∃ n, fuel = n + 1 := ⟨fuel - 1, by omega⟩
        rw [lineageRows, hstep]
        exact List.mem_cons_of_mem _ List.mem_cons_self
      · cases hfirst : lineageStep db start with
        | none =>
            rw [hfirst] at hrest
            cases fuel <;> cases hrest
        | some second =>
            obtain ⟨_, hsecond⟩ := depth_of_step hfirst
            rw [hfirst] at hrest
            rw [lineageRows, hfirst]
            exact List.mem_cons_of_mem _ (ih (by omega) hrest)

theorem depth_of_base {row : LineageRow} (h : lineageBase db runId = some row) : row.depth = 0 := by
  obtain ⟨run, _, hrow⟩ := Option.bind_eq_some_iff.mp h
  obtain ⟨parent, _, rfl⟩ := Option.map_eq_some_iff.mp hrow
  rfl

theorem mem_lineage_of_step {row next : LineageRow} (hrow : row ∈ lineage db runId)
    (hstep : lineageStep db row = some next) : next ∈ lineage db runId := by
  unfold lineage at hrow ⊢
  cases hbase : lineageBase db runId with
  | none =>
      rw [hbase] at hrow
      cases hrow
  | some base =>
      rw [hbase] at hrow
      have hdepth := depth_of_base hbase
      exact mem_of_step (by omega) hrow hstep

/-- Every ancestor the query may reach has its row. -/
theorem exists_row {k : ℕ} {run : Run} (hk : k ≤ lineageDepth) (h : ancestor db runId k = some run) :
    ∃ row ∈ lineage db runId, row.depth = k ∧ ownedRun db row.owner row.id = some run := by
  induction k generalizing run with
  | zero =>
      obtain ⟨start, hstart, hparent⟩ := Option.bind_eq_some_iff.mp h
      obtain ⟨id, hid, howned⟩ := Option.bind_eq_some_iff.mp hparent
      have hbase : lineageBase db runId = some ⟨id, start.principalId, 0⟩ := by
        unfold lineageBase
        rw [hstart, Option.bind_some, hid]
        rfl
      refine ⟨⟨id, start.principalId, 0⟩, ?_, rfl, howned⟩
      unfold lineage
      rw [hbase]
      exact List.mem_cons_self
  | succ k ih =>
      obtain ⟨child, hchild, hparent⟩ := Option.bind_eq_some_iff.mp h
      obtain ⟨row, hrow, hdepth, howned⟩ := ih (by omega) hchild
      obtain ⟨id, hid, hrun⟩ := Option.bind_eq_some_iff.mp hparent
      have howner := (ownedRun_eq_some.mp howned).2
      have hstep : lineageStep db row = some ⟨id, row.owner, row.depth + 1⟩ := by
        unfold lineageStep
        rw [if_pos (by omega), howned, Option.bind_some, hid]
        rfl
      refine ⟨_, mem_lineage_of_step hrow hstep, ?_, ?_⟩
      · dsimp only
        omega
      · rw [← howner]
        exact hrun

/-! ## The receipt that is found -/

variable {call : ToolCallKey}

theorem mem_joined {k : ℕ} {receipt : ToolReceipt} :
    (k, receipt) ∈ (lineage db runId).flatMap (joinReceipts db call) ↔
      k ≤ lineageDepth ∧ ∃ run, ancestor db runId k = some run ∧ receipt ∈ unsettledIn db call run.id := by
  rw [List.mem_flatMap]
  constructor
  · rintro ⟨row, hrow, hmem⟩
    have hbound : row.depth ≤ lineageDepth := by
      refine depth_of_mem ?_ hrow
      intro base hbase
      rw [depth_of_base hbase]
      omega
    have hreach := reaches_of_mem (fun base hbase ↦ reaches_base hbase) hrow
    unfold joinReceipts at hmem
    cases howned : ownedRun db row.owner row.id with
    | none =>
        rw [howned] at hmem
        cases hmem
    | some run =>
        rw [howned] at hmem
        obtain ⟨found, hfound, heq⟩ := List.mem_map.mp hmem
        cases heq
        refine ⟨hbound, run, by rw [← hreach.ancestor, howned], ?_⟩
        rwa [Table.key_of_find? (ownedRun_eq_some.mp howned).1]
  · rintro ⟨hk, run, hrun, hreceipt⟩
    obtain ⟨row, hrow, rfl, howned⟩ := exists_row hk hrun
    refine ⟨row, hrow, ?_⟩
    unfold joinReceipts
    rw [howned]
    rw [Table.key_of_find? (ownedRun_eq_some.mp howned).1] at hreceipt
    exact List.mem_map_of_mem hreceipt

theorem receiptBefore_iff {a b : ℕ × ToolReceipt} : receiptBefore a b = true ↔
    a.1 < b.1 ∨ a.1 = b.1 ∧ @LE.le ℕ _ b.2.updatedAt a.2.updatedAt := by
  unfold receiptBefore
  rw [Bool.or_eq_true, Bool.and_eq_true, decide_eq_true_eq, decide_eq_true_eq, decide_eq_true_eq]

theorem receiptBefore_trans (a b c : ℕ × ToolReceipt) (hab : receiptBefore a b = true)
    (hbc : receiptBefore b c = true) : receiptBefore a c = true := by
  rw [receiptBefore_iff] at *
  omega

theorem receiptBefore_total (a b : ℕ × ToolReceipt) :
    (receiptBefore a b || receiptBefore b a) = true := by
  rw [Bool.or_eq_true, receiptBefore_iff, receiptBefore_iff]
  omega

/-- The receipt found is a first one in the order of the query. -/
theorem first_of_find {receipt : ToolReceipt}
    (h : findOutcomeUnknownToolReceiptInLineage db runId call = some receipt) :
    ∃ k, (k, receipt) ∈ (lineage db runId).flatMap (joinReceipts db call) ∧
      ∀ other ∈ (lineage db runId).flatMap (joinReceipts db call),
        receiptBefore (k, receipt) other = true := by
  obtain ⟨⟨k, found⟩, hhead, rfl⟩ := Option.map_eq_some_iff.mp h
  have hsorted := List.pairwise_mergeSort receiptBefore_trans receiptBefore_total
    ((lineage db runId).flatMap (joinReceipts db call))
  have hperm := List.mergeSort_perm ((lineage db runId).flatMap (joinReceipts db call)) receiptBefore
  obtain ⟨rest, hrest⟩ := List.head?_eq_some_iff.mp hhead
  rw [hrest] at hsorted hperm
  refine ⟨k, hperm.subset List.mem_cons_self, ?_⟩
  intro other hother
  rcases List.mem_cons.mp (hperm.symm.subset hother) with rfl | hmem
  · exact receiptBefore_iff.mpr (.inr ⟨rfl, Nat.le_refl _⟩)
  · exact (List.pairwise_cons.mp hsorted).1 other hmem

/-- The query finds a receipt exactly when one of the 65 nearest proper ancestors has one, and it
is one of the nearest that has, the latest there; and the recursion ends, whatever the links. -/
theorem outcome_unknown_found (db : Database) (runId : String) (call : ToolCallKey) :
    (∀ receipt, findOutcomeUnknownToolReceiptInLineage db runId call = some receipt →
      ∃ k run, k ≤ lineageDepth ∧ ancestor db runId k = some run ∧
        receipt ∈ unsettledIn db call run.id ∧
        (∀ other ∈ unsettledIn db call run.id, other.updatedAt ≤ receipt.updatedAt) ∧
        ∀ j < k, ∀ nearer, ancestor db runId j = some nearer → unsettledIn db call nearer.id = []) ∧
    (findOutcomeUnknownToolReceiptInLineage db runId call = none ↔
      ∀ k ≤ lineageDepth, ∀ run, ancestor db runId k = some run → unsettledIn db call run.id = []) ∧
    ∀ fuel, lineageDepth < fuel → lineageRows db fuel (lineageBase db runId) = lineage db runId := by
  refine ⟨?_, ?_, ?_⟩
  · intro receipt hfind
    obtain ⟨k, hmem, hfirst⟩ := first_of_find hfind
    obtain ⟨hk, run, hrun, hreceipt⟩ := mem_joined.mp hmem
    refine ⟨k, run, hk, hrun, hreceipt, ?_, ?_⟩
    · intro other hother
      have hbefore := hfirst (k, other) (mem_joined.mpr ⟨hk, run, hrun, hother⟩)
      rcases receiptBefore_iff.mp hbefore with hlt | ⟨_, hle⟩
      · exact absurd hlt (lt_irrefl k)
      · exact hle
    · intro j hj nearer hnearer
      apply List.eq_nil_iff_forall_not_mem.mpr
      intro other hother
      have hbefore := hfirst (j, other) (mem_joined.mpr ⟨by omega, nearer, hnearer, hother⟩)
      rw [receiptBefore_iff] at hbefore
      omega
  · have hnone : findOutcomeUnknownToolReceiptInLineage db runId call = none ↔
        (lineage db runId).flatMap (joinReceipts db call) = [] := by
      unfold findOutcomeUnknownToolReceiptInLineage
      rw [Option.map_eq_none_iff, List.head?_eq_none_iff]
      constructor
      · intro hnil
        have hperm := List.mergeSort_perm ((lineage db runId).flatMap (joinReceipts db call))
          receiptBefore
        rw [hnil] at hperm
        exact hperm.nil_eq.symm
      · intro hnil
        rw [hnil, List.mergeSort_nil]
    rw [hnone, List.eq_nil_iff_forall_not_mem]
    constructor
    · intro hempty k hk run hrun
      apply List.eq_nil_iff_forall_not_mem.mpr
      intro receipt hreceipt
      exact hempty (k, receipt) (mem_joined.mpr ⟨hk, run, hrun, hreceipt⟩)
    · rintro hall ⟨k, receipt⟩ hmem
      obtain ⟨hk, run, hrun, hreceipt⟩ := mem_joined.mp hmem
      rw [hall k hk run hrun] at hreceipt
      cases hreceipt
  · intro fuel hfuel
    unfold lineage
    cases hbase : lineageBase db runId with
    | none => cases fuel <;> rfl
    | some base =>
        have hdepth := depth_of_base hbase
        exact lineageRows_ended (by omega) (by omega) hfuel

/-! ## A thread that is too long -/

/-- The run of a turn, which continues the turn before. -/
def turnRun (turn : ℕ) : Run where
  id := toString turn
  principalId := "local"
  runKind := .turn
  rootRunId := none
  agentDefinitionId := ""
  agentDefinitionVersion := ""
  collaborationDepth := 0
  collaborationPolicyJson := .obj []
  spawnOperationId := none
  graphThreadId := ""
  graphCheckpointId := none
  graphDefinitionId := none
  graphInputKind := .new
  threadId := none
  assistantItemId := none
  userInput := none
  goal := ""
  workspacePath := none
  status := .completed
  historyJson := .obj []
  parentRunId := if turn = 0 then none else some (toString (turn - 1))
  settingsJson := .obj []
  metadataJson := .obj []
  mode := ""
  createdAt := 0
  updatedAt := 0
  completedAt := none

/-- The first turn left the outcome of a call unknown. -/
def firstReceipt : ToolReceipt where
  operationId := "op"
  runId := "0"
  executionAttemptId := ⟨"job", 1⟩
  executionNamespace := ""
  parentOperationId := none
  toolCallId := ""
  toolName := "execute"
  toolVersion := ""
  argumentsHash := "hash"
  argumentsJson := .obj []
  risk := "process_exec"
  status := .outcomeUnknown
  attemptCount := 1
  resultJson := none
  resultHash := none
  errorType := none
  reviewDecision := none
  reviewSource := none
  reviewReason := none
  reviewModel := none
  reviewedAt := none
  createdAt := 0
  startedAt := none
  completedAt := none
  updatedAt := 0

def longThread : Database :=
  { Database.empty with
    runs := ⟨(List.range 67).map turnRun, by decide +kernel⟩
    ledger := { Ledger.empty with toolReceipts := ⟨[firstReceipt], by decide⟩ } }

/-- In the sixty-seventh turn the receipt of the first is not found. -/
theorem not_found_in_whole_lineage : ¬ ∀ (db : Database) (runId : String) (call : ToolCallKey),
    findOutcomeUnknownToolReceiptInLineage db runId call ≠ none ↔
      ∃ k run, ancestor db runId k = some run ∧ unsettledIn db call run.id ≠ [] := by
  intro h
  have hiff := h longThread "66" ⟨"execute", "hash", "process_exec"⟩
  have hancestor : ((ancestor longThread "66" 65).map Run.id) = some "0" := by decide +kernel
  obtain ⟨run, hrun, hid⟩ := Option.map_eq_some_iff.mp hancestor
  have hunsettled : (unsettledIn longThread ⟨"execute", "hash", "process_exec"⟩ "0").length = 1 := by
    decide +kernel
  refine hiff.mpr ⟨65, run, hrun, ?_⟩ ?_
  · rw [hid]
    intro hnil
    rw [hnil] at hunsettled
    cases hunsettled
  · have hnone : (findOutcomeUnknownToolReceiptInLineage longThread "66"
        ⟨"execute", "hash", "process_exec"⟩).isNone = true := by
      decide +kernel
    exact Option.isNone_iff_eq_none.mp hnone

end ShejaneRuntime.Store
