import ShejaneRuntime.Store.Operations

/-!
# The ledger of model calls

A logical model call reserves a row before it contacts the provider, marks
the row before it passes on the first output, and settles or fails it at the
end. A failed attempt may be followed by another of the same logical call.
Any number of logical calls run at once, and each may stop at any step.
-/

namespace ShejaneRuntime.Agent

open Lib Store

/-- A `LedgerChatModel` in one execution context. -/
structure LedgerChatModel where
  runId : String
  executionAttemptId : AttemptId
  modelName : String
  maxCalls : ℤ
  callPurpose : String
  parentToolOperationId : Option String
  lease : Option ExecutionLease

/-- What the ledger tells apart among the errors of an attempt. -/
inductive FailureKind where
  | canceled
  | incomplete
  | uncertain
  | other
  deriving DecidableEq

/-- An error with what `classify_failure_payload` makes of its texts. -/
structure Failure where
  kind : FailureKind
  retryable : Bool
  errorCode : String

def modelRetryAttempts : ℕ := 2

/-- `_outcome_may_be_unknown` -/
def outcomeMayBeUnknown : FailureKind → Bool
  | .canceled | .uncertain => true
  | .incomplete | .other => false

/-- `_outcome_unknown` -/
def LedgerChatModel.outcomeUnknown (m : LedgerChatModel) (f : Failure) (outputStarted : Bool) :
    Bool :=
  if f.kind = .incomplete then false
  else if m.callPurpose ≠ "agent" then false
  else outputStarted || outcomeMayBeUnknown f.kind

/-- `_model_retry_decision` -/
def shouldRetry (f : Failure) (outputStarted outcomeUnknown : Bool) (retryAttempt : ℕ) : Bool :=
  if outputStarted || outcomeUnknown || f.kind = .canceled then false
  else f.retryable && decide (retryAttempt < modelRetryAttempts)

/-- Where `_agenerate` or `_astream` is. -/
inductive CallPoint where
  | reserve (logicalCallId : Option String) (retryAttempt : ℕ)
  | invoke (receipt : ModelCall) (outputStarted : Bool)
  | settled (receipt : ModelCall) (outputStarted : Bool)
  | failing (receipt : ModelCall) (outputStarted : Bool) (f : Failure)

structure LogicalCall where
  model : LedgerChatModel
  point : CallPoint

/-- The writes to the ledger that only the code of a logical call makes. -/
def ledgerWrite : StoreOp → Bool
  | .reserveModelCall _ _ | .markModelCallOutput _ _ _ | .settleModelCall _ _ _ _ _
  | .failModelCall _ _ _ _ _ _ _ => true
  | _ => false

variable {ι : Type}

structure LedgerState (ι : Type) where
  db : Database
  calls : ι → Option LogicalCall

inductive LedgerAct (ι : Type) where
  | transact (op : StoreOp)
  | begin (t : ι) (model : LedgerChatModel)
  | reserve (t : ι)
  | output (t : ι) (f : Failure)
  | settle (t : ι) (inputTokens outputTokens : Option ℕ) (f : Failure)
  | finish (t : ι)
  | raise (t : ι) (f : Failure)
  | fail (t : ι) (inputTokens outputTokens : Option ℕ) (canceled : Bool)
  | stop (t : ι)

/-- The arguments of the reservation of an attempt. -/
def LedgerChatModel.request (m : LedgerChatModel) (logicalCallId : Option String)
    (retryAttempt : ℕ) : ReserveModelCall where
  runId := m.runId
  executionAttemptId := m.executionAttemptId
  model := m.modelName
  maxCalls := m.maxCalls
  purpose := m.callPurpose
  parentToolOperationId := m.parentToolOperationId
  logicalCallId := logicalCallId
  retryAttempt := retryAttempt

section

variable [DecidableEq ι]

def LedgerState.goOn (c : LedgerState ι) (t : ι) (db : Database) (m : LedgerChatModel)
    (next : Option CallPoint) : LedgerState ι :=
  ⟨db, Function.update c.calls t (next.map fun point ↦ ⟨m, point⟩)⟩

/-- Commit a write of an attempt; it goes one way if the write succeeds and
another if it raises. -/
def LedgerState.commit {α : Type} (c : LedgerState ι) (t : ι) (m : LedgerChatModel)
    (write : StoreTxn α) (w : World) (done : α → Option CallPoint) (raised : Option CallPoint) :
    LedgerState ι :=
  match Txn.commit write c.db w with
  | (.ok a, db) => c.goOn t db m (done a)
  | (.error _, db) => c.goOn t db m raised

/-- What follows a recorded failure: the next attempt, or the end. -/
def afterFailure (m : LedgerChatModel) (receipt : ModelCall) (outputStarted : Bool) (f : Failure) :
    Option CallPoint :=
  if shouldRetry f outputStarted (m.outcomeUnknown f outputStarted) receipt.retryAttempt then
    some (.reserve (some receipt.logicalCallId) (receipt.retryAttempt + 1))
  else none

inductive LedgerStep (limit : String → String → ℕ) :
    LedgerAct ι × World → LedgerState ι → LedgerState ι → Prop
  | transact {op : StoreOp} {w : World} {c : LedgerState ι} :
      ledgerWrite op = false →
      LedgerStep limit (.transact op, w) c { c with db := op.after c.db w }
  | begin {t : ι} {m : LedgerChatModel} {w : World} {c : LedgerState ι} :
      c.calls t = none → 1 ≤ m.maxCalls → m.maxCalls ≤ limit m.runId m.callPurpose →
      LedgerStep limit (.begin t m, w) c (c.goOn t c.db m (some (.reserve none 0)))
  | reserve {t : ι} {m : LedgerChatModel} {logicalCallId : Option String} {retryAttempt : ℕ}
      {w : World} {c : LedgerState ι} :
      c.calls t = some ⟨m, .reserve logicalCallId retryAttempt⟩ →
      LedgerStep limit (.reserve t, w) c
        (c.commit t m (reserveModelCall m.lease (m.request logicalCallId retryAttempt)) w
          (fun receipt ↦ some (.invoke receipt false)) none)
  | output {t : ι} {m : LedgerChatModel} {receipt : ModelCall} {outputStarted : Bool} {f : Failure}
      {w : World} {c : LedgerState ι} :
      c.calls t = some ⟨m, .invoke receipt outputStarted⟩ →
      LedgerStep limit (.output t f, w) c
        (c.commit t m (markModelCallOutput m.lease m.runId receipt.id) w
          (fun _ ↦ some (.invoke receipt true)) (some (.failing receipt outputStarted f)))
  | settle {t : ι} {m : LedgerChatModel} {receipt : ModelCall} {outputStarted : Bool}
      {inputTokens outputTokens : Option ℕ} {f : Failure} {w : World} {c : LedgerState ι} :
      c.calls t = some ⟨m, .invoke receipt outputStarted⟩ →
      LedgerStep limit (.settle t inputTokens outputTokens f, w) c
        (c.commit t m (settleModelCall m.lease m.runId receipt.id inputTokens outputTokens) w
          (fun _ ↦ some (.settled receipt outputStarted))
          (some (.failing receipt outputStarted f)))
  | finish {t : ι} {m : LedgerChatModel} {receipt : ModelCall} {outputStarted : Bool} {w : World}
      {c : LedgerState ι} :
      c.calls t = some ⟨m, .settled receipt outputStarted⟩ →
      LedgerStep limit (.finish t, w) c (c.goOn t c.db m none)
  | raise {t : ι} {m : LedgerChatModel} {point : CallPoint} {receipt : ModelCall}
      {outputStarted : Bool} {f : Failure} {w : World} {c : LedgerState ι} :
      c.calls t = some ⟨m, point⟩ →
      point = .invoke receipt outputStarted ∨ point = .settled receipt outputStarted →
      LedgerStep limit (.raise t f, w) c
        (c.goOn t c.db m (some (.failing receipt outputStarted f)))
  | fail {t : ι} {m : LedgerChatModel} {receipt : ModelCall} {outputStarted : Bool} {f : Failure}
      {inputTokens outputTokens : Option ℕ} {canceled : Bool} {w : World} {c : LedgerState ι} :
      c.calls t = some ⟨m, .failing receipt outputStarted f⟩ →
      LedgerStep limit (.fail t inputTokens outputTokens canceled, w) c
        (c.commit t m (failModelCall m.lease m.runId receipt.id
            (m.outcomeUnknown f outputStarted) (some f.errorCode) inputTokens outputTokens) w
          (fun _ ↦ if canceled then none else afterFailure m receipt outputStarted f) none)
  | stop {t : ι} {w : World} {c : LedgerState ι} :
      LedgerStep limit (.stop t, w) c { c with calls := Function.update c.calls t none }

/-- The store with the logical calls of any number of tasks. A model never
takes more calls of a purpose than the run has in all (`limit`). -/
def ledger (ι : Type) [DecidableEq ι] (limit : String → String → ℕ) :
    System (LedgerState ι) (LedgerAct ι × World) where
  initial c := c = ⟨Database.empty, fun _ ↦ none⟩
  step := LedgerStep limit

end

end ShejaneRuntime.Agent
