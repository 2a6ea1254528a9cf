import ShejaneRuntime.Gateway.TaskStore
import ShejaneRuntime.Lib.Paging

/-!
# Push configurations and their outbox

Every configuration of a task has rows of its own in the outbox. The events
a task has recorded are counted by one cursor for all its configurations.
-/

namespace ShejaneRuntime.Gateway

open Lib Store

/-- A configuration of a task that has not been deleted. -/
def PushConfig.activeOf (peerId taskId : String) (c : PushConfig) : Bool :=
  c.peerId = peerId && c.taskId = taskId && c.deletedAt.isNone

def OutboxRow.new (config : String × String × String) (eventKey : EventKey)
    (payload : StreamResponse) (now : Time) : OutboxRow where
  configId := config.2.2
  peerId := config.1
  taskId := config.2.1
  eventKey := eventKey
  payload := payload
  status := .pending
  attempts := 0
  availableAt := now
  leaseUntil := none
  lastError := none
  createdAt := now
  deliveredAt := none

def insertPushConfig (c : PushConfig) : GatewayTxn Unit :=
  Txn.attempt
    (fun db ↦ (db.pushConfigs.insert? c).map fun configs ↦ { db with pushConfigs := configs })
    (uniqueConstraint "a2a_push_configs.peer_id, a2a_push_configs.task_id, a2a_push_configs.id")

def insertOutboxRow (r : OutboxRow) : GatewayTxn Unit :=
  Txn.attempt (fun db ↦ (db.pushOutbox.insert? r).map fun rows ↦ { db with pushOutbox := rows })
    (uniqueConstraint ("a2a_push_outbox.peer_id, a2a_push_outbox.task_id, " ++
      "a2a_push_outbox.config_id, a2a_push_outbox.event_key"))

/-- `INSERT OR IGNORE` -/
def insertOutboxRowOrIgnore (r : OutboxRow) : GatewayTxn Unit :=
  Txn.write fun db ↦ { db with pushOutbox := (db.pushOutbox.insert? r).getD db.pushOutbox }

/-- The cursor of a task moves ahead, or begins. -/
def raisePushCursor (peerId taskId : String) (after : ℕ) (now : Time) : GatewayTxn Unit :=
  Txn.write fun db ↦ { db with
    pushCursors := (db.pushCursors.insert? ⟨taskId, peerId, after, now⟩).getD
      (db.pushCursors.update (fun c ↦ c.taskId = taskId) fun c ↦
        { c with runtimeAfter := max c.runtimeAfter after, updatedAt := now }) }

structure CreatePushConfig where
  configId : String
  peerId : String
  tenant : String
  taskId : String
  requestFingerprint : String
  url : String
  tokenCiphertext : Option String
  authScheme : Option String
  credentialsCiphertext : Option String

def CreatePushConfig.key (r : CreatePushConfig) : String × String × String :=
  (r.peerId, r.taskId, r.configId)

def CreatePushConfig.row (r : CreatePushConfig) (now : Time) : PushConfig where
  id := r.configId
  peerId := r.peerId
  tenant := r.tenant
  taskId := r.taskId
  requestFingerprint := r.requestFingerprint
  url := r.url
  tokenCiphertext := r.tokenCiphertext
  authScheme := r.authScheme
  credentialsCiphertext := r.credentialsCiphertext
  createdAt := now
  updatedAt := now
  deletedAt := none

/-- `create_push_config`, from a snapshot of the task behind the event
`startAfter`. Tells whether the configuration is new. -/
def createPushConfig (r : CreatePushConfig) (startAfter : ℕ) (snapshotPayload : StreamResponse) :
    GatewayTxn (PushConfig × Bool) := do
  let task ← findTask r.peerId r.tenant r.taskId
  Txn.require (task.isSome = true) (.keyError r.taskId)
  let existing ← Txn.read fun db ↦ db.pushConfigs.find? r.key
  match existing with
  | some config => do
    Txn.require (config.deletedAt = none ∧ config.requestFingerprint = r.requestFingerprint)
      (.pushConfigConflict
        ("push config " ++ r.configId ++ " already exists with different content"))
    pure (config, false)
  | none => do
    let activeCount ← Txn.read fun db ↦
      (db.pushConfigs.select (PushConfig.activeOf r.peerId r.taskId)).length
    Txn.require (activeCount < 8)
      (.valueError "a task may have at most 8 push configurations")
    let now ← gatewayNow
    insertPushConfig (r.row now)
    raisePushCursor r.peerId r.taskId startAfter now
    insertOutboxRow (.new r.key .snapshot snapshotPayload now)
    pure (r.row now, true)

/-- `get_push_config` -/
def getPushConfig (db : GatewayDatabase) (peerId tenant taskId configId : String) :
    Option PushConfig :=
  (db.pushConfigs.find? (peerId, taskId, configId)).filter fun c ↦
    c.tenant = tenant && c.deletedAt.isNone

/-- `delete_push_config` -/
def deletePushConfig (peerId tenant taskId configId : String) : GatewayTxn Bool := do
  let now ← gatewayNow
  let config ← Txn.read fun db ↦
    (db.pushConfigs.find? (peerId, taskId, configId)).filter fun c ↦ c.tenant = tenant
  Txn.when (config.any (·.deletedAt.isNone) = true) do
    Txn.write fun db ↦ { db with
      pushConfigs := db.pushConfigs.update
        (fun c ↦ c.key = (peerId, taskId, configId) && c.tenant = tenant && c.deletedAt.isNone)
        fun c ↦ { c with deletedAt := some now, updatedAt := now } }
    Txn.write fun db ↦ { db with
      pushOutbox := db.pushOutbox.update
        (fun r ↦ r.key.1 = (peerId, taskId, configId) &&
          (r.status = .pending || r.status = .leased))
        fun r ↦ { r with status := .canceled, leaseUntil := none } }
  pure config.isSome

/-- `list_push_watch_tasks`: the tasks with a configuration, and their cursors. -/
def listPushWatchTasks (db : GatewayDatabase) : List (A2ATask × ℕ) :=
  (orderBy (fun t : A2ATask ↦ toLex (t.createdAt, t.id)) (db.tasks.select fun t ↦
    db.pushConfigs.rows.any (PushConfig.activeOf t.peerId t.id))).filterMap fun t ↦
      (db.pushCursors.find? t.id).map fun c ↦ (t, c.runtimeAfter)

/-- `record_push_event`: the updates of an event behind the cursor go to
the configurations there are. -/
def recordPushEvent (peerId taskId : String) (eventSeq : ℕ) (payloads : List StreamResponse) :
    GatewayTxn Unit := do
  let cursor ← Txn.read fun db ↦ (db.pushCursors.find? taskId).filter fun c ↦ c.peerId = peerId
  match cursor with
  | none => pure ()
  | some c => Txn.when (c.runtimeAfter < eventSeq) do
    let configs ← Txn.read fun db ↦ db.pushConfigs.select (PushConfig.activeOf peerId taskId)
    let now ← gatewayNow
    forM configs fun config ↦ forM payloads.zipIdx fun (payload, index) ↦
      insertOutboxRowOrIgnore (.new config.key (.event eventSeq index) payload now)
    Txn.write fun db ↦ { db with
      pushCursors := db.pushCursors.update
        (fun c ↦ c.taskId = taskId && c.peerId = peerId && c.runtimeAfter < eventSeq)
        fun c ↦ { c with runtimeAfter := eventSeq, updatedAt := now } }

/-! ## Delivery -/

/-- The row may be sent now: it waits for its time, or its lease ran out. -/
def OutboxRow.ready (now : Time) (r : OutboxRow) : Bool :=
  (r.status = .pending && r.availableAt ≤ now) ||
    (r.status = .leased && r.leaseUntil.any (· ≤ now))

def updateOutboxRow (key : (String × String × String) × EventKey) (p : OutboxRow → Bool)
    (f : OutboxRow → OutboxRow) (hf : ∀ r, (f r).key = r.key := by intro; rfl) : GatewayTxn Unit :=
  Txn.write fun db ↦ { db with
    pushOutbox := db.pushOutbox.update (fun r ↦ r.key = key && p r) f hf }

/-- `claim_push_delivery`: lease the row that has waited longest. -/
def claimPushDelivery (leaseSeconds : Time) : GatewayTxn (Option OutboxRow) := do
  let now ← gatewayNow
  let ready ← Txn.read fun db ↦
    (db.pushOutbox.select fun r ↦ r.ready now &&
      (db.pushConfigs.find? r.key.1).any fun c ↦ c.deletedAt.isNone)
  match (orderBy (fun r : OutboxRow ↦
      toLex (r.availableAt, toLex (r.createdAt, r.eventKey.order))) ready).head? with
  | none => pure none
  | some row => do
    updateOutboxRow row.key (fun _ ↦ true) fun r ↦
      { r with status := .leased, attempts := r.attempts + 1
               leaseUntil := some (now + leaseSeconds) }
    pure (some { row with status := .leased, attempts := row.attempts + 1 })

/-- `settle_push_delivery` -/
def settlePushDelivery (key : (String × String × String) × EventKey) : GatewayTxn Unit := do
  let now ← gatewayNow
  updateOutboxRow key (fun r ↦ r.status = .leased) fun r ↦
    { r with status := .delivered, deliveredAt := some now, leaseUntil := none, lastError := none }

/-- `retry_push_delivery` -/
def retryPushDelivery (key : (String × String × String) × EventKey) (availableAt : Time)
    (error : String) (dead : Bool) : GatewayTxn Unit :=
  updateOutboxRow key (fun r ↦ r.status = .leased) fun r ↦
    { r with status := if dead then .dead else .pending, availableAt := availableAt
             leaseUntil := none, lastError := some (clipped 2048 error) }

end ShejaneRuntime.Gateway
