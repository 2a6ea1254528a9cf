import ShejaneRuntime.Gateway.Schema
import ShejaneRuntime.Store.Journal

/-!
# Tasks and messages of peers

A message opens a task or follows one up. Its reservation and each of its
settlements is one transaction.
-/

namespace ShejaneRuntime.Gateway

open Lib Store

/-! ## Statements -/

/-- `WHERE id = ? AND peer_id = ? AND tenant = ?` -/
def findTask (peerId tenant taskId : String) : GatewayTxn (Option A2ATask) :=
  Txn.read fun db ↦ (db.tasks.find? taskId).filter fun t ↦
    t.peerId = peerId && t.tenant = tenant

def findMessage (peerId messageId : String) : GatewayTxn (Option A2AMessage) :=
  Txn.read fun db ↦ db.messages.find? (peerId, messageId)

def insertTask (t : A2ATask) : GatewayTxn Unit := do
  let clash ← Txn.read fun db ↦ db.tasks.rows.any fun r ↦
    r.createCommandId = t.createCommandId || r.createClientMessageId = t.createClientMessageId
  Txn.require (clash = false)
    (uniqueConstraint "a2a_tasks.create_command_id, a2a_tasks.create_client_message_id")
  Txn.attempt (fun db ↦ (db.tasks.insert? t).map fun tasks ↦ { db with tasks := tasks })
    (uniqueConstraint "a2a_tasks.id")

def insertMessage (m : A2AMessage) : GatewayTxn Unit := do
  let clash ← Txn.read fun db ↦ db.messages.rows.any fun r ↦
    r.runtimeCommandId = m.runtimeCommandId
  Txn.require (clash = false) (uniqueConstraint "a2a_messages.runtime_command_id")
  Txn.attempt
    (fun db ↦ (db.messages.insert? m).map fun messages ↦ { db with messages := messages })
    (uniqueConstraint "a2a_messages.peer_id, a2a_messages.message_id")

/-- `reason[:2048]` -/
def clipped (limit : ℕ) (text : String) : String := String.ofList (text.toList.take limit)

/-! ## Reservation -/

/-- `message[key] = value` on a dict -/
def Json.withField (j : Json) (key value : String) : Json :=
  match j with
  | .obj fields => .obj (fields.filter (fun p ↦ !(p.1 == key)) ++ [(key, .str value)])
  | j => j

structure MessageRequest where
  peerId : String
  tenant : String
  messageId : String
  taskId : Option String
  contextId : Option String
  referenceTaskIds : List String
  requestFingerprint : String
  message : Json
  newTaskId : String
  newContextId : String
  runtimeThreadId : String
  runtimeCommandId : String
  runtimeClientMessageId : String
  outputMode : String

/-- The task a message names, and the context it belongs to. -/
def selectContext (r : MessageRequest) : GatewayTxn (Option A2ATask × String) :=
  match nonEmpty r.taskId, nonEmpty r.contextId with
  | some taskId, contextId => do
    let selected ← findTask r.peerId r.tenant taskId
    let task ← Txn.getOr selected (.keyError taskId)
    Txn.require (contextId.all fun c ↦ c = task.contextId)
      (.valueError "message context_id does not match its task")
    pure (some task, task.contextId)
  | none, some contextId => do
    let known ← Txn.read fun db ↦ db.tasks.rows.any fun t ↦
      t.peerId = r.peerId && t.tenant = r.tenant && t.contextId = contextId
    Txn.require (known = true) (.keyError contextId)
    pure (none, contextId)
  | none, none => pure (none, r.newContextId)

def MessageRequest.newTask (r : MessageRequest) (contextId : String) (now : Time) : A2ATask where
  id := r.newTaskId
  peerId := r.peerId
  tenant := r.tenant
  contextId := contextId
  runtimeRunId := none
  runtimeThreadId := r.runtimeThreadId
  createCommandId := r.runtimeCommandId
  createClientMessageId := r.runtimeClientMessageId
  outputMode := r.outputMode
  admissionStatus := .pending
  rejectionReason := none
  createdAt := now
  updatedAt := now

def MessageRequest.newMessage (r : MessageRequest) (task : A2ATask) (now : Time) : A2AMessage where
  peerId := r.peerId
  messageId := r.messageId
  tenant := r.tenant
  taskId := task.id
  contextId := task.contextId
  requestFingerprint := r.requestFingerprint
  message := Json.withField (Json.withField r.message "taskId" task.id) "contextId" task.contextId
  runtimeCommandId := r.runtimeCommandId
  runtimeInstructionId := none
  deliveryStatus := .pending
  rejectionReason := none
  createdAt := now
  updatedAt := now

/-- The message is new: reserve it, and its task when it opens one. -/
def reserveMessage (r : MessageRequest) : GatewayTxn (A2ATask × A2AMessage × Bool) := do
  let (selected, contextId) ← selectContext r
  let owned ← Txn.read fun db ↦ r.referenceTaskIds.all fun id ↦ db.tasks.rows.any fun t ↦
    t.id = id && t.peerId = r.peerId && t.tenant = r.tenant
  Txn.require (owned = true) (.keyError "referenced task not found")
  let now ← gatewayNow
  let task := selected.getD (r.newTask contextId now)
  Txn.when (selected = none) (insertTask task)
  insertMessage (r.newMessage task now)
  pure (task, r.newMessage task now, selected.isNone)

/-- `prepare_message` -/
def prepareMessage (r : MessageRequest) : GatewayTxn (A2ATask × A2AMessage × Bool) := do
  let existing ← findMessage r.peerId r.messageId
  match existing with
  | some message => do
    Txn.require (message.requestFingerprint = r.requestFingerprint) (.messageConflict
      ("message " ++ r.messageId ++ " was already accepted with different content"))
    let task ← findTask r.peerId r.tenant message.taskId
    let task ← Txn.getOr task
      (.runtimeError ("message " ++ r.messageId ++ " references a missing task"))
    pure (task, message, false)
  | none => reserveMessage r

/-! ## Settlement -/

/-- Update the task that meets a condition, and tell whether there was one. -/
def updateTask (p : A2ATask → Bool) (f : A2ATask → A2ATask)
    (hf : ∀ t, (f t).id = t.id := by intro; rfl) : GatewayTxn Bool := do
  let changed ← Txn.read fun db ↦ db.tasks.rows.any p
  Txn.write fun db ↦ { db with tasks := db.tasks.update p f hf }
  pure changed

def updateMessage (p : A2AMessage → Bool) (f : A2AMessage → A2AMessage)
    (hf : ∀ m, (f m).key = m.key := by intro; rfl) : GatewayTxn Bool := do
  let changed ← Txn.read fun db ↦ db.messages.rows.any p
  Txn.write fun db ↦ { db with messages := db.messages.update p f hf }
  pure changed

/-- `settle_task_admission` -/
def settleTaskAdmission (peerId taskId runtimeRunId : String) : GatewayTxn Unit := do
  let now ← gatewayNow
  let taken ← Txn.read fun db ↦ db.tasks.rows.any fun t ↦
    t.id ≠ taskId && t.runtimeRunId = some runtimeRunId
  let changed ← updateTask
    (fun t ↦ t.id = taskId && t.peerId = peerId && t.admissionStatus ≠ .rejected &&
      t.runtimeRunId.all (· = runtimeRunId))
    fun t ↦ { t with
      runtimeRunId := some runtimeRunId
      admissionStatus := .accepted
      rejectionReason := none
      updatedAt := now }
  Txn.require (changed = true)
    (.messageConflict "task admission settled with a different Runtime Run")
  Txn.require (taken = false) (uniqueConstraint "a2a_tasks.runtime_run_id")

/-- `settle_message_delivery` -/
def settleMessageDelivery (peerId messageId : String) (runtimeInstructionId : Option String) :
    GatewayTxn Unit := do
  let now ← gatewayNow
  let changed ← updateMessage
    (fun m ↦ m.key = (peerId, messageId) && m.deliveryStatus ≠ .rejected &&
      m.runtimeInstructionId.all (some · = runtimeInstructionId))
    fun m ↦ { m with
      deliveryStatus := .accepted
      runtimeInstructionId := m.runtimeInstructionId.or runtimeInstructionId
      rejectionReason := none
      updatedAt := now }
  Txn.require (changed = true)
    (.messageConflict "message delivery settled with a different instruction")

/-- `reject_task_admission` -/
def rejectTaskAdmission (peerId taskId reason : String) : GatewayTxn Unit := do
  let now ← gatewayNow
  let changed ← updateTask
    (fun t ↦ t.id = taskId && t.peerId = peerId && t.admissionStatus = .pending)
    fun t ↦ { t with
      admissionStatus := .rejected
      rejectionReason := some (clipped 2048 reason)
      updatedAt := now }
  let rejected ← Txn.read fun db ↦ db.tasks.rows.any fun t ↦
    t.id = taskId && t.peerId = peerId && t.admissionStatus = .rejected
  Txn.require (changed = true ∨ rejected = true)
    (.messageConflict "task admission could not be rejected")

/-- `reject_message_delivery` -/
def rejectMessageDelivery (peerId messageId reason : String) : GatewayTxn Unit := do
  let now ← gatewayNow
  let changed ← updateMessage
    (fun m ↦ m.key = (peerId, messageId) && m.deliveryStatus = .pending)
    fun m ↦ { m with
      deliveryStatus := .rejected
      rejectionReason := some (clipped 2048 reason)
      updatedAt := now }
  let rejected ← Txn.read fun db ↦ db.messages.rows.any fun m ↦
    m.key = (peerId, messageId) && m.deliveryStatus = .rejected
  Txn.require (changed = true ∨ rejected = true)
    (.messageConflict "message delivery could not be rejected")

/-! ## Artifacts -/

/-- `register_artifact`: the first registration of an artifact stays. -/
def registerArtifact (a : A2AArtifact) : GatewayTxn A2AArtifact := do
  let clash ← Txn.read fun db ↦ db.artifacts.rows.any fun r ↦ r.id = a.id && r.key ≠ a.key
  Txn.require (clash = false) (uniqueConstraint "a2a_artifacts.id")
  Txn.write fun db ↦ { db with artifacts := (db.artifacts.insert? a).getD db.artifacts }
  let row ← Txn.read fun db ↦ db.artifacts.find? a.key
  Txn.getOr row (.runtimeError "artifact row is missing")

end ShejaneRuntime.Gateway
