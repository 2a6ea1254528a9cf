import ShejaneRuntime.Lib.Repair
import ShejaneRuntime.Store.Codec
import Mathlib.Data.Prod.Lex

/-!
# Opening an existing database

The rows the compatibility migrations read or write each time a database is
opened: the event log, the watermarks of thread items, the principals of
queued jobs, and the identities by which open waits are found again. The
migrations run in one transaction and in one fixed order. Columns that a
database lacks are added with their default and are there the next time.
-/

namespace ShejaneRuntime.Migration

open Lib Store

/-! ## Rows -/

/-- The text of a column as its two readers take it: SQLite's `json_extract`,
with `none` where `json_valid` is 0, and `json.loads` of `raw or "{}"`, with
`none` where that raises. -/
structure Text where
  sqlite : Option Json
  python : Option Json
  deriving DecidableEq

/-- `json.dumps(value)` -/
def Text.dumps (value : Json) : Text := ⟨some value, some value⟩

/-- `json_payload(raw)` -/
def Text.payload (raw : Text) : Json := jsonPayload raw.python

structure Event where
  id : String
  runId : String
  seq : ℤ
  eventType : String
  payload : Text
  createdAt : String
  deriving DecidableEq

structure Run where
  id : String
  parentRunId : Option String
  rootRunId : Option String
  runKind : String
  graphInputKind : String
  principalId : String
  createdAt : String
  deriving DecidableEq

structure ChildCoordination where
  childRunId : String
  rootRunId : Option String
  parentRunId : Option String
  completionMode : String
  quorumGroup : Option String
  quorumRequired : Option ℕ
  createdAt : String
  deriving DecidableEq

structure ThreadItem where
  id : String
  runId : Option String
  itemType : String
  eventHighWatermark : ℤ
  deriving DecidableEq

structure RunJob where
  id : String
  runId : String
  input : Text
  deriving DecidableEq

structure Permission where
  id : String
  runId : String
  waitCycleId : Option String
  interruptId : Option String
  actionIndex : ℤ
  status : String
  arguments : Text
  decision : Option Text
  createdAt : String
  resolvedAt : Option String
  deriving DecidableEq

structure Question where
  id : String
  runId : String
  waitCycleId : Option String
  interruptId : Option String
  questions : Text
  status : String
  answers : Option Text
  createdAt : String
  answeredAt : Option String
  deriving DecidableEq

structure PlanApproval where
  id : String
  runId : String
  toolCallId : String
  waitCycleId : Option String
  interruptId : Option String
  todos : Text
  status : String
  instructions : Option String
  createdAt : String
  resolvedAt : Option String
  deriving DecidableEq

structure WaitCandidate where
  id : String
  runId : String
  kind : String
  waitCycleId : Option String
  interruptId : Option String
  position : ℤ
  status : String
  payload : Text
  decision : Option Text
  createdAt : String
  resolvedAt : Option String
  deriving DecidableEq

/-- The tables in row order. `hasWatermark` tells whether the thread items have
the column `event_high_watermark`; without it their field has no meaning. -/
@[ext]
structure Database where
  runs : List Run
  childCoordination : List ChildCoordination
  hasWatermark : Bool
  threadItems : List ThreadItem
  jobs : List RunJob
  permissions : List Permission
  questions : List Question
  planApprovals : List PlanApproval
  waitCandidates : List WaitCandidate
  events : List Event
  deriving DecidableEq

/-! ## Runs -/

def isPlanApproval (interrupt : Json) : Bool :=
  match interrupt.get? "value" with
  | some (.obj value) => (Json.obj value).get? "kind" == some (.str "plan_approval")
  | _ => false

def namesToolCall (interrupt : Json) (toolCallId : String) : Bool :=
  ((interrupt.get? "value").bind fun value ↦ value.get? "tool_call_id") == some (.str toolCallId) ||
    interrupt.get? "id" == some (.str toolCallId)

/-- `str(value or "")`, where `str` writes a list or a dict. -/
def textOf (str : Json → String) (value : Option Json) : String :=
  match value with
  | some (.arr items) => if items.isEmpty then "" else str (.arr items)
  | some (.obj fields) => if fields.isEmpty then "" else str (.obj fields)
  | value => Json.textOrEmpty value

/-- The wait cycle and the interrupt that the payload of a `run.waiting` event
gives for a plan approval. -/
def identityIn (str : Json → String) (plan : PlanApproval) (payload : Json) :
    Option (String × String) :=
  let waitCycleId := textOf str (payload.get? "wait_cycle_id")
  match payload.get? "interrupts" with
  | some (.arr interrupts) =>
    if waitCycleId = "" then none
    else
      match (interrupts.filter isPlanApproval).filter (namesToolCall · plan.toolCallId) with
      | [candidate] =>
        let interruptId := textOf str (candidate.get? "id")
        if interruptId = "" then none else some (waitCycleId, interruptId)
      | _ => none
  | _ => none

/-- The event that asked for the approval. -/
def approves (plan : PlanApproval) (e : Event) : Bool :=
  e.payload.payload.get? "request_id" == some (.str plan.id)

def PlanApproval.unidentified (plan : PlanApproval) : Bool :=
  plan.waitCycleId.isNone || plan.interruptId.isNone

/-- Events that are no longer stored. -/
def transientRunEventTypes : List String :=
  ["llm.delta", "llm.round.closed", "llm.round.started", "llm.reasoning", "llm.usage",
    "llm.tool_call_chunk", "tool.progress"]

/-- Before receipts, a spawn event was a projection of a partial model chunk
and carried no operation. -/
def Event.legacySpawn (e : Event) : Bool :=
  e.eventType = "subagent.spawned" &&
    match e.payload.sqlite with
    | none => true
    | some payload =>
      match payload.get? "operation_id" with
      | none | some .null => true
      | some operation => operation == .str ""

/-- `ORDER BY seq, created_at, id` -/
def Event.key (e : Event) : ℤ ×ₗ String ×ₗ String := toLex (e.seq, toLex (e.createdAt, e.id))

def ofRun (events : List Event) (run : String) : List Event :=
  events.filter fun e ↦ e.runId = run

/-- A run some of whose events carry the same number. -/
def duplicated (events : List Event) (run : String) : Bool :=
  ¬ ((ofRun events run).map Event.seq).Nodup

end ShejaneRuntime.Migration
