import Mathlib.Data.Prod.Lex
import ShejaneRuntime.Gateway.Protocol
import ShejaneRuntime.Store.Session

/-!
# The database of the A2A gateway

The gateway keeps a database of its own: the tasks its peers have opened,
the messages they sent, the artifacts it has shown them, and the outbox of
its push configurations.
-/

namespace ShejaneRuntime.Gateway

open Lib Store

/-- Of a task's admission, and of a message's delivery. -/
inductive Admission where
  | pending | accepted | rejected
  deriving DecidableEq, Repr

structure A2ATask where
  id : String
  peerId : String
  tenant : String
  contextId : String
  runtimeRunId : Option String
  runtimeThreadId : String
  createCommandId : String
  createClientMessageId : String
  outputMode : String
  admissionStatus : Admission
  rejectionReason : Option String
  createdAt : Time
  updatedAt : Time
  deriving DecidableEq

structure A2AMessage where
  peerId : String
  messageId : String
  tenant : String
  taskId : String
  contextId : String
  requestFingerprint : String
  message : Json
  runtimeCommandId : String
  runtimeInstructionId : Option String
  deliveryStatus : Admission
  rejectionReason : Option String
  createdAt : Time
  updatedAt : Time

def A2AMessage.key (m : A2AMessage) : String × String := (m.peerId, m.messageId)

inductive StorageKind where
  | inlineText | blob
  deriving DecidableEq

structure A2AArtifact where
  id : String
  peerId : String
  tenant : String
  taskId : String
  runtimeArtifactId : String
  title : String
  mediaType : String
  sizeBytes : ℕ
  sha256 : Option String
  storageKind : StorageKind
  inlineContent : Option String
  createdAt : Time

/-- `UNIQUE (peer_id, task_id, runtime_artifact_id)` -/
def A2AArtifact.key (a : A2AArtifact) : String × String × String :=
  (a.peerId, a.taskId, a.runtimeArtifactId)

structure PushConfig where
  id : String
  peerId : String
  tenant : String
  taskId : String
  requestFingerprint : String
  url : String
  tokenCiphertext : Option String
  authScheme : Option String
  credentialsCiphertext : Option String
  createdAt : Time
  updatedAt : Time
  deletedAt : Option Time

def PushConfig.key (c : PushConfig) : String × String × String := (c.peerId, c.taskId, c.id)

structure PushCursor where
  taskId : String
  peerId : String
  runtimeAfter : ℕ
  updatedAt : Time

/-- `snapshot`, or `event:{event_seq:020d}:{index:04d}` -/
inductive EventKey where
  | snapshot
  | event (seq index : ℕ)
  deriving DecidableEq

/-- Where the text of a key stands: `event:` before `snapshot`. -/
def EventKey.order : EventKey → ℕ ×ₗ ℕ ×ₗ ℕ
  | event seq index => toLex (0, toLex (seq, index))
  | snapshot => toLex (1, toLex (0, 0))

inductive PushStatus where
  | pending | leased | delivered | dead | canceled
  deriving DecidableEq

structure OutboxRow where
  configId : String
  peerId : String
  taskId : String
  eventKey : EventKey
  payload : StreamResponse
  status : PushStatus
  attempts : ℕ
  availableAt : Time
  leaseUntil : Option Time
  lastError : Option String
  createdAt : Time
  deliveredAt : Option Time

/-- `UNIQUE (peer_id, task_id, config_id, event_key)` -/
def OutboxRow.key (r : OutboxRow) : (String × String × String) × EventKey :=
  ((r.peerId, r.taskId, r.configId), r.eventKey)

structure GatewayDatabase where
  tasks : Table A2ATask.id
  messages : Table A2AMessage.key
  artifacts : Table A2AArtifact.key
  pushConfigs : Table PushConfig.key
  pushCursors : Table PushCursor.taskId
  pushOutbox : Table OutboxRow.key

def GatewayDatabase.empty : GatewayDatabase :=
  ⟨.empty, .empty, .empty, .empty, .empty, .empty⟩

inductive GatewayError where
  | messageConflict (text : String)
  | pushConfigConflict (text : String)
  | keyError (key : String)
  | valueError (text : String)
  | runtimeError (text : String)
  | integrityError (text : String)
  | internalError (text : String)
  deriving DecidableEq, Repr

abbrev GatewayTxn := Txn GatewayDatabase World GatewayError

/-- `_now()` -/
def gatewayNow : GatewayTxn Time :=
  Txn.draw fun w ↦ (w.clock 0, { w with clock := fun n ↦ w.clock (n + 1) })

def uniqueConstraint (columns : String) : GatewayError :=
  .integrityError ("UNIQUE constraint failed: " ++ columns)

end ShejaneRuntime.Gateway
