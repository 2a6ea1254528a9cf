import ShejaneRuntime.Store.Schema

/-!
# A2A protocol objects

What a peer sees of a task: its status, its artifacts and the updates of
both that a stream or a push configuration delivers.
-/

namespace ShejaneRuntime.Gateway

open Store

inductive TaskState where
  | submitted | working | completed | failed | canceled | inputRequired | rejected | authRequired
  deriving DecidableEq, Repr

namespace TaskState

/-- `_SETTLED_STATES` -/
def settled : TaskState → Bool
  | completed | failed | canceled | rejected | inputRequired | authRequired => true
  | _ => false

/-- The number of the state, which its status messages are named by. -/
def number : TaskState → ℕ
  | submitted => 1
  | working => 2
  | completed => 3
  | failed => 4
  | canceled => 5
  | inputRequired => 6
  | rejected => 7
  | authRequired => 8

end TaskState

inductive Part where
  | text (text mediaType : String)
  | data (data : Json) (mediaType : String)
  | raw (raw mediaType : String)
  | url (url filename mediaType : String)
  deriving DecidableEq

structure Artifact where
  artifactId : String
  name : String
  description : String
  parts : List Part
  deriving DecidableEq

structure StatusMessage where
  messageId : String
  taskId : String
  contextId : String
  text : String
  deriving DecidableEq

structure TaskStatus where
  state : TaskState
  timestamp : Time
  message : Option StatusMessage
  deriving DecidableEq

structure Task where
  id : String
  contextId : String
  status : TaskStatus
  artifacts : List Artifact
  history : List Json
  deriving DecidableEq

/-- What a stream delivers after its first task. -/
inductive Update where
  | status (taskId contextId : String) (status : TaskStatus)
  | artifact (taskId contextId : String) (artifact : Artifact) (append lastChunk : Bool)
  deriving DecidableEq

inductive StreamResponse where
  | task (task : Task)
  | update (update : Update)
  deriving DecidableEq

end ShejaneRuntime.Gateway
