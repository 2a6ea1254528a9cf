import ShejaneRuntime.Gateway.TaskStore
import ShejaneRuntime.Store.Snapshots

/-!
# Runs as tasks

The gateway shows a run to its peer as a task: a snapshot projects the state
and the events of the run together, a stream projects one event after
another.
-/

namespace ShejaneRuntime.Gateway

open Lib Store

/-- What the Runtime says of an artifact; a field of another type than
expected is absent. -/
structure ArtifactMetadata where
  title : Option String
  contentType : Option String
  bytes : Option ℤ
  storageKind : Option String
  content : Option Json
  sha256 : Option String
  createdAt : Option Time

/-- What a projection asks for outside the gateway: an artifact is `none`
when the request for it fails. -/
structure Surroundings where
  getArtifact : String → Option ArtifactMetadata
  jsonLoads : String → Option Json
  sha256Hex : String → String
  publicBaseUrl : String

/-- `_stable_id` -/
def stableId (sha256Hex : String → String) (kind : String) (values : List String) : String :=
  kind ++ "_" ++ clipped 32 (sha256Hex (String.intercalate "\x00" values))

/-- `_status_state` -/
def statusState : RunStatus → TaskState
  | .queued => .submitted
  | .running => .working
  | .waitingInput => .inputRequired
  | .waitingPermission => .authRequired
  | .completed => .completed
  | .failed => .failed
  | .cleanupRequired => .failed
  | .canceled => .canceled

def statusMessage (env : Surroundings) (taskId contextId : String) (state : TaskState)
    (text : String) : StatusMessage where
  messageId := stableId env.sha256Hex "message_status" [taskId, toString state.number]
  taskId := taskId
  contextId := contextId
  text := text

/-- The text of a field that holds one. -/
def stringField (payload : Json) (key : String) : Option String :=
  match payload.get? key with
  | some (.str text) => some text
  | _ => none

/-- `_final_text` -/
def finalText (events : List Event) : String :=
  (events.reverse.findSome? fun e ↦
    if e.eventType = "run.completed" then stringField e.payloadJson "final_text" else none).getD ""

/-- `_state_message_text` -/
def stateMessageText (state : TaskState) (events : List Event) : String :=
  match state with
  | .inputRequired => "Task requires additional input."
  | .authRequired => "Task requires an authorization decision."
  | .failed =>
    (events.reverse.findSome? fun e ↦
      if e.eventType = "run.failed" || e.eventType = "run.cleanup_required" then
        ((stringField e.payloadJson "error").filter (· ≠ "")).map (clipped 2048)
      else none).getD "Task failed."
  | .canceled => "Task was canceled."
  | _ => ""

/-! ## Artifacts -/

/-- `_result_artifact` -/
def resultArtifact (env : Surroundings) (task : A2ATask) (text : String) : Artifact where
  artifactId := stableId env.sha256Hex "artifact_result" [task.id]
  name := "result"
  description := "Final SheJane task result."
  parts := if task.outputMode = "application/json" then
      [.data (.obj [("text", .str text)]) "application/json"]
    else [.text text "text/plain"]

/-- `_a2a_artifact`; the address of a download is signed for a while, which
leaves it the same address here. -/
def a2aArtifact (env : Surroundings) (a : A2AArtifact) : Artifact where
  artifactId := a.id
  name := a.title
  description := ""
  parts :=
    match a.storageKind, a.inlineContent with
    | .inlineText, some content =>
      if a.mediaType = "application/json" then
        match env.jsonLoads content with
        | none => [.raw content a.mediaType]
        | some data => [.data data a.mediaType]
      else if "text/".toList.isPrefixOf a.mediaType.toList then [.text content a.mediaType]
      else [.raw content a.mediaType]
    | _, _ => [.url (env.publicBaseUrl ++ "/a2a/artifacts/" ++ a.id) a.title a.mediaType]

def storageKindOf : Option String → Option StorageKind
  | some "inline_text" => some .inlineText
  | some "blob" => some .blob
  | _ => none

/-- The record of an artifact the Runtime describes, unless it is invalid. -/
def artifactRecord (env : Surroundings) (task : A2ATask) (event : Event)
    (runtimeArtifactId : String) (metadata : ArtifactMetadata) : Except GatewayError A2AArtifact :=
  match nonEmpty metadata.title, nonEmpty metadata.contentType,
      metadata.bytes.filter (0 ≤ ·), storageKindOf metadata.storageKind with
  | some title, some mediaType, some sizeBytes, some storageKind =>
    let record (content : Option String) : A2AArtifact :=
      { id := stableId env.sha256Hex "artifact" [task.peerId, task.id, runtimeArtifactId]
        peerId := task.peerId
        tenant := task.tenant
        taskId := task.id
        runtimeArtifactId := runtimeArtifactId
        title := clipped 512 title
        mediaType := clipped 255 mediaType
        sizeBytes := sizeBytes.toNat
        sha256 := metadata.sha256
        storageKind := storageKind
        inlineContent := content
        createdAt := metadata.createdAt.getD event.createdAt }
    match storageKind, metadata.content with
    | .inlineText, some (.str content) => .ok (record (some content))
    | .inlineText, none | .inlineText, some .null => .ok (record none)
    | .inlineText, some _ => .error (.internalError "Runtime returned invalid artifact content")
    | .blob, _ => .ok (record none)
  | _, _, _, _ => .error (.internalError "Runtime returned invalid artifact metadata")

def raise {α : Type} (r : Except GatewayError α) : GatewayTxn α :=
  match r with
  | .ok a => pure a
  | .error e => Txn.fail e

/-- `list_task_artifacts` -/
def listTaskArtifacts (task : A2ATask) : GatewayTxn (List A2AArtifact) :=
  Txn.read fun db ↦ orderBy (fun a : A2AArtifact ↦ toLex (a.createdAt, a.id))
    (db.artifacts.select fun a ↦ a.peerId = task.peerId && a.taskId = task.id)

/-- One event of `_project_runtime_artifacts`, after the artifacts known so far. -/
def registerEventArtifact (env : Surroundings) (task : A2ATask) (known : List A2AArtifact)
    (event : Event) : GatewayTxn (List A2AArtifact) :=
  if event.eventType ≠ "artifact.created" then pure known
  else
    match nonEmpty (stringField event.payloadJson "artifact_id") with
    | none => pure known
    | some runtimeArtifactId =>
      if known.any (fun a ↦ a.runtimeArtifactId = runtimeArtifactId) then pure known
      else do
        let metadata ← Txn.getOr (env.getArtifact runtimeArtifactId)
          (.internalError "Runtime artifact metadata is unavailable")
        let record ← raise (artifactRecord env task event runtimeArtifactId metadata)
        let row ← registerArtifact record
        pure (known ++ [row])

/-- `_project_runtime_artifacts` -/
def projectRuntimeArtifacts (env : Surroundings) (task : A2ATask) (events : List Event) :
    GatewayTxn (List Artifact) := do
  let existing ← listTaskArtifacts task
  let known ← events.foldlM (registerEventArtifact env task) existing
  pure (known.map (a2aArtifact env))

/-! ## Snapshots -/

/-- The messages of the task that were delivered, newest last. -/
def taskHistory (db : GatewayDatabase) (task : A2ATask) : List Json :=
  ((orderBy (fun m : A2AMessage ↦ toLex (m.createdAt, m.messageId))
    (db.messages.select fun m ↦ m.peerId = task.peerId && m.taskId = task.id)).filter fun m ↦
      m.deliveryStatus = .accepted).map A2AMessage.message

def taskArtifacts (env : Surroundings) (task : A2ATask) (includeArtifacts : Bool)
    (events : List Event) : GatewayTxn (List Artifact) :=
  if includeArtifacts then projectRuntimeArtifacts env task events else pure []

/-- The end of `project_task`. -/
def finishTask (env : Surroundings) (task : A2ATask) (historyLength : Option ℕ)
    (includeArtifacts : Bool) (events : List Event) (status : TaskStatus) : GatewayTxn Task := do
  let history ← Txn.read fun db ↦ taskHistory db task
  let artifacts ← taskArtifacts env task includeArtifacts events
  let result := if includeArtifacts ∧ status.state = .completed ∧ finalText events ≠ "" then
    [resultArtifact env task (finalText events)] else []
  pure { id := task.id, contextId := task.contextId, status := status
         artifacts := artifacts ++ result
         history := history.drop (history.length - historyLength.getD 100) }

/-- `project_task`, from the run and the events the Runtime returned; a task
without a run has none. -/
def projectTask (env : Surroundings) (task : A2ATask) (historyLength : Option ℕ)
    (includeArtifacts : Bool) (run : Option Run) (runtimeEvents : List Event) :
    GatewayTxn Task :=
  match task.admissionStatus, nonEmpty task.runtimeRunId with
  | .rejected, _ =>
    finishTask env task historyLength includeArtifacts []
      ⟨.rejected, task.updatedAt, some (statusMessage env task.id task.contextId .rejected
        ((nonEmpty task.rejectionReason).getD "Task rejected"))⟩
  | .accepted, some _ => do
    let run ← Txn.getOr run (.internalError "Runtime task state is unavailable")
    let state := statusState run.status
    let events := if includeArtifacts ∨ state.settled then runtimeEvents else []
    let text := stateMessageText state events
    let message := if text ≠ "" then some (statusMessage env task.id task.contextId state text)
      else none
    finishTask env task historyLength includeArtifacts events ⟨state, run.updatedAt, message⟩
  | _, _ => finishTask env task historyLength includeArtifacts [] ⟨.submitted, task.updatedAt, none⟩

/-- `snapshot`: the task, and the events it stands behind, as the Runtime
answers the request for its thread. -/
def snapshot (env : Surroundings) (task : A2ATask) (thread : Option ThreadSnapshot) :
    GatewayTxn (Task × ℕ) :=
  match nonEmpty task.runtimeRunId with
  | none => do
    let projected ← projectTask env task none true none []
    pure (projected, 0)
  | some runId => do
    let thread ← Txn.getOr thread (.internalError "Runtime task snapshot is unavailable")
    let after := ((thread.eventHighWatermarks.find? fun p ↦ p.1 = runId).map Prod.snd).getD 0
    let events := thread.events.filter fun e ↦ e.runId = runId
    let run ← Txn.getOr (thread.runs.find? fun r ↦ r.run.id = runId)
      (.internalError "Runtime task snapshot is inconsistent")
    let projected ← projectTask env task none true (some run.run) events
    pure (projected, after)

/-! ## Streams -/

/-- `needle in text` -/
def containsText (needle text : String) : Bool :=
  text.toList.tails.any fun rest ↦ needle.toList.isPrefixOf rest

/-- The state an event leads to. -/
def eventState (event : Event) : Option TaskState :=
  match event.eventType with
  | "run.started" | "run.resumed" => some .working
  | "run.completed" => some .completed
  | "run.failed" | "run.cleanup_required" => some .failed
  | "run.canceled" => some .canceled
  | "run.waiting" =>
    let waiting := Json.textOrEmpty
      (((event.payloadJson.get? "status").filter Json.truthy).or (event.payloadJson.get? "kind"))
    some (if containsText "permission" waiting || containsText "auth" waiting then .authRequired
      else .inputRequired)
  | _ => none

/-- `project_stream_event` -/
def projectStreamEvent (env : Surroundings) (task : A2ATask) (event : Event) :
    GatewayTxn (List Update) :=
  if event.eventType = "artifact.created" then do
    let artifacts ← projectRuntimeArtifacts env task [event]
    pure (artifacts.map fun a ↦ .artifact task.id task.contextId a false true)
  else
    match eventState event with
    | none => pure []
    | some state =>
      let final := nonEmpty (stringField event.payloadJson "final_text")
      let result : List Update := match state, final with
        | .completed, some text =>
          [.artifact task.id task.contextId (resultArtifact env task text) false true]
        | _, _ => []
      let text := stateMessageText state [event]
      let message := if text ≠ "" then some (statusMessage env task.id task.contextId state text)
        else none
      pure (result ++ [.status task.id task.contextId ⟨state, event.createdAt, message⟩])

end ShejaneRuntime.Gateway
