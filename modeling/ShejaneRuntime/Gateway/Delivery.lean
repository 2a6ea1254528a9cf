import ShejaneRuntime.Gateway.TaskStore
import ShejaneRuntime.Lib.Transition

/-!
# Delivery of messages into runs

A message of a peer is reserved, handed to the Runtime, and settled by what
the Runtime answers. Every call and every transaction is a step of its own;
a request may be cut off between any two, and several requests for the same
message may be under way.
-/

namespace ShejaneRuntime.Gateway

open Lib Store

/-! ## What the Runtime answers -/

/-- The answer to a call: a string of its body, or how the call failed. -/
inductive Answer where
  | ok (body : Option String)
  | httpError (statusCode : ℕ)
  | transportError
  deriving DecidableEq

/-- `RuntimeHTTPError.retryable` -/
def retryable (statusCode : ℕ) : Bool :=
  statusCode = 408 || statusCode = 425 || statusCode = 429 || 500 ≤ statusCode

/-- `_status_state(status) in _TERMINAL_STATES` -/
def statusEnded (status : String) : Bool :=
  ["completed", "failed", "cleanup_required", "canceled"].contains status

/-! ## One request -/

/-- How `accept_message` comes back from the delivery: with the task, with
an error that another try does not change, or with one that it may. -/
inductive Outcome where
  | answered | unsupported | internalError
  deriving DecidableEq

/-- What a request does next. -/
inductive Phase where
  | creating (task : A2ATask)
  | rejectingTask (task : A2ATask)
  | rejectingMessage (task : A2ATask)
  | settlingTask (task : A2ATask) (runId : String)
  | settlingMessage (task : A2ATask)
  | reading (task : A2ATask) (message : A2AMessage)
  | injecting (task : A2ATask) (message : A2AMessage)
  | rejectingFollowup (task : A2ATask) (message : A2AMessage)
  | settlingFollowup (task : A2ATask) (message : A2AMessage) (instructionId : String)
  | returned (outcome : Outcome)

structure Delivering where
  request : MessageRequest
  phase : Phase

def Delivering.key (d : Delivering) : String × String := (d.request.peerId, d.request.messageId)

/-- `_ensure_task_admitted`, up to its call -/
def beginAdmission (task : A2ATask) : Phase :=
  if task.admissionStatus = .accepted ∨ task.admissionStatus = .rejected then .returned .answered
  else .creating task

/-- `_ensure_followup_delivered`, up to its first call -/
def beginFollowup (task : A2ATask) (message : A2AMessage) : Phase :=
  if message.deliveryStatus = .accepted then .returned .answered
  else if message.deliveryStatus = .rejected ∨ task.admissionStatus = .rejected then
    .returned .unsupported
  else if task.admissionStatus ≠ .accepted ∨ nonEmpty task.runtimeRunId = none then
    .returned .internalError
  else .reading task message

/-- The message that opened the task is told from the others by its command. -/
def A2AMessage.opens (message : A2AMessage) (task : A2ATask) : Bool :=
  message.runtimeCommandId = task.createCommandId

def beginDelivery (task : A2ATask) (message : A2AMessage) : Phase :=
  if message.opens task then beginAdmission task else beginFollowup task message

/-- What a call leads to; the other phases make none. -/
def Phase.answered (phase : Phase) (answer : Answer) : Phase :=
  match phase with
  | creating task =>
    match answer with
    | .ok body =>
      match nonEmpty body with
      | some runId => settlingTask task runId
      | none => returned .internalError
    | .httpError statusCode =>
      if retryable statusCode then returned .internalError else rejectingTask task
    | .transportError => returned .internalError
  | reading task message =>
    match answer with
    | .ok status =>
      if statusEnded (status.getD "None") then rejectingFollowup task message
      else injecting task message
    | .httpError statusCode =>
      if statusCode = 409 then rejectingFollowup task message else returned .internalError
    | .transportError => returned .internalError
  | injecting task message =>
    match answer with
    | .ok body =>
      match nonEmpty body with
      | some instructionId => settlingFollowup task message instructionId
      | none => returned .internalError
    | .httpError statusCode =>
      if statusCode = 409 then rejectingFollowup task message else returned .internalError
    | .transportError => returned .internalError
  | phase => phase

/-- The transaction of a phase that has one, and the phase after it. -/
def Delivering.settlement (d : Delivering) : Option (GatewayTxn Unit × Phase) :=
  match d.phase with
  | .rejectingTask task =>
    some (rejectTaskAdmission d.request.peerId task.id "Runtime rejected the task",
      .rejectingMessage task)
  | .rejectingMessage _ =>
    some (rejectMessageDelivery d.request.peerId d.request.messageId "Runtime rejected the task",
      .returned .answered)
  | .settlingTask task runId =>
    some (settleTaskAdmission d.request.peerId task.id runId, .settlingMessage task)
  | .settlingMessage _ =>
    some (settleMessageDelivery d.request.peerId d.request.messageId none, .returned .answered)
  | .rejectingFollowup _ _ =>
    some (rejectMessageDelivery d.request.peerId d.request.messageId "task is terminal",
      .returned .unsupported)
  | .settlingFollowup _ _ instructionId =>
    some (settleMessageDelivery d.request.peerId d.request.messageId (some instructionId),
      .returned .answered)
  | _ => none

/-! ## The system -/

/-- The gateway and what the Runtime holds: the runs and the instructions it
has accepted, by the command that asked for them. -/
structure DeliveryState where
  gateway : GatewayDatabase
  deliveries : List Delivering
  runs : List (String × String)
  instructions : List (String × String)

inductive DeliveryStep where
  | prepare (request : MessageRequest) (w : World)
  | call (n : ℕ) (answer : Answer)
  | settle (n : ℕ) (w : World)
  | acceptRun (commandId runId : String)
  | acceptInstruction (commandId instructionId : String)
  | cutOff (n : ℕ)
  | restart

namespace DeliveryState

def prepare (s : DeliveryState) (r : MessageRequest) (w : World) : DeliveryState :=
  let result := Txn.commit (prepareMessage r) s.gateway w
  match result.1 with
  | .error _ => { s with gateway := result.2 }
  | .ok (task, message, _) => { s with
      gateway := result.2
      deliveries := s.deliveries ++ [⟨r, beginDelivery task message⟩] }

def call (s : DeliveryState) (n : ℕ) (answer : Answer) : DeliveryState :=
  match s.deliveries[n]? with
  | none => s
  | some d => { s with deliveries := s.deliveries.set n { d with phase := d.phase.answered answer } }

/-- A settlement that fails is not handled on the way back. -/
def settle (s : DeliveryState) (n : ℕ) (w : World) : DeliveryState :=
  match s.deliveries[n]?.bind fun d ↦ d.settlement.map fun p ↦ (d, p) with
  | none => s
  | some (d, txn, next) =>
    let result := Txn.commit txn s.gateway w
    let phase := match result.1 with
      | .ok _ => next
      | .error _ => .returned .internalError
    { s with
      gateway := result.2
      deliveries := s.deliveries.set n { d with phase := phase } }

def after (s : DeliveryState) : DeliveryStep → DeliveryState
  | .prepare r w => s.prepare r w
  | .call n answer => s.call n answer
  | .settle n w => s.settle n w
  | .acceptRun commandId runId => { s with runs := s.runs ++ [(commandId, runId)] }
  | .acceptInstruction commandId instructionId =>
    { s with instructions := s.instructions ++ [(commandId, instructionId)] }
  | .cutOff n => { s with deliveries := s.deliveries.eraseIdx n }
  | .restart => { s with deliveries := [] }

def initial : DeliveryState := ⟨.empty, [], [], []⟩

/-- The Runtime holds something for a command. -/
def holds (accepted : List (String × String)) (commandId : String) : Prop :=
  ∃ id, (commandId, id) ∈ accepted

/-- The Runtime treats a repeated command as a replay: it answers a command
with what it holds for it, refuses none that it holds something for, and
accepts each once. -/
def Replays (s : DeliveryState) : DeliveryStep → Prop
  | .call n answer => ∀ d, s.deliveries[n]? = some d →
    (∀ task, d.phase = .creating task →
      (∀ id, answer = .ok (some id) → id ≠ "" → (task.createCommandId, id) ∈ s.runs) ∧
      (∀ statusCode, answer = .httpError statusCode → retryable statusCode = false →
        ¬holds s.runs task.createCommandId)) ∧
    (∀ task message, d.phase = .injecting task message →
      (∀ id, answer = .ok (some id) → id ≠ "" →
        (message.runtimeCommandId, id) ∈ s.instructions) ∧
      (answer = .httpError 409 → ¬holds s.instructions message.runtimeCommandId))
  | .acceptRun commandId _ => ¬holds s.runs commandId
  | .acceptInstruction commandId _ => ¬holds s.instructions commandId
  | _ => True

end DeliveryState

def deliverySystem : System DeliveryState DeliveryStep where
  initial s := s = .initial
  step i s t := s.Replays i ∧ t = s.after i

/-! ## Convergence -/

/-- The gateway and the Runtime agree on a task, on the message that opened
it and on the messages that follow it up. -/
structure Converged (s : DeliveryState) (task : A2ATask) : Prop where
  admitted : task.admissionStatus = .accepted ↔
    ∃ runId, task.runtimeRunId = some runId ∧ (task.createCommandId, runId) ∈ s.runs
  held : task.admissionStatus = .accepted ↔ DeliveryState.holds s.runs task.createCommandId
  opener : ∀ m ∈ s.gateway.messages.rows, m.taskId = task.id → m.opens task = true →
    (m.deliveryStatus = .accepted ↔ task.admissionStatus = .accepted) ∧
      (m.deliveryStatus = .rejected ↔ task.admissionStatus = .rejected)
  followup : ∀ m ∈ s.gateway.messages.rows, m.taskId = task.id → m.opens task = false →
    m.deliveryStatus = .rejected → ¬DeliveryState.holds s.instructions m.runtimeCommandId

/-- Whenever a request has come back without a transient error, all is
settled alike on both sides. -/
def DeliveriesConverge (s : DeliveryState) : Prop :=
  ∀ d ∈ s.deliveries, ∀ outcome, d.phase = .returned outcome → outcome ≠ .internalError →
    ∃ m, s.gateway.messages.find? d.key = some m ∧
      ∃ task, s.gateway.tasks.find? m.taskId = some task ∧ Converged s task

/-- A task is settled and the message that opened it is not, or not yet. -/
def Phase.between : Phase → Option A2ATask
  | settlingMessage task => some task
  | rejectingMessage task => some task
  | _ => none

/-- The task a request is about. -/
def MessageRequest.names (r : MessageRequest) (db : GatewayDatabase) : Option String :=
  match db.messages.find? (r.peerId, r.messageId) with
  | some message => some message.taskId
  | none => nonEmpty r.taskId

/-- The condition on a step: no request is cut off or overtaken between its
two settlements, no run is found ended that holds the instruction of the
message at hand, and the Runtime accepts nothing whose rejection is recorded
or about to be. -/
def Undisturbed : DeliveryStep → DeliveryState → Prop
  | .prepare r _, s => ∀ d ∈ s.deliveries, ∀ task, d.phase.between = some task →
    r.names s.gateway ≠ some task.id
  | .call n answer, s => ∀ d, s.deliveries[n]? = some d → ∀ task message,
    d.phase = .reading task message →
    d.phase.answered answer = .rejectingFollowup task message →
    ¬DeliveryState.holds s.instructions message.runtimeCommandId
  | .cutOff n, s => ∀ d, s.deliveries[n]? = some d → d.phase.between = none
  | .restart, s => ∀ d ∈ s.deliveries, d.phase.between = none
  | .acceptRun commandId _, s =>
    (∀ task ∈ s.gateway.tasks.rows, task.createCommandId = commandId →
      task.admissionStatus ≠ .rejected) ∧
    ∀ d ∈ s.deliveries, ∀ task, d.phase = .rejectingTask task → task.createCommandId ≠ commandId
  | .acceptInstruction commandId _, s =>
    (∀ message ∈ s.gateway.messages.rows, message.runtimeCommandId = commandId →
      message.deliveryStatus ≠ .rejected) ∧
    ∀ d ∈ s.deliveries, ∀ task message, d.phase = .rejectingFollowup task message →
      message.runtimeCommandId ≠ commandId
  | .settle _ _, _ => True

end ShejaneRuntime.Gateway
