import ShejaneRuntime.Store.RunJobs

/-!
# Commands that start runs

A start, fork or edit command creates a run with its pending job, the two
items of the turn, and the command that records them, in one transaction.
-/

namespace ShejaneRuntime.Store

open Lib

/-! ## Plugin bindings -/

structure PluginRef where
  pluginId : String
  expectedDigest : Option String
  required : Bool

structure PluginCommandRef where
  pluginId : String
  commandId : String
  expectedDigest : Option String

/-- A binding before it belongs to a run, with the names shown to the user. -/
structure PluginBinding where
  pluginId : String
  displayName : String
  version : String
  digest : String
  selectionSource : String
  required : Bool
  commandId : Option String
  commandTitle : Option String
  actionCatalogHash : String
  modelBindingJson : Option Json

/-- An installation of a principal with its active version. -/
abbrev InstalledPlugin := PluginInstallation × PluginVersion

def installedPlugins (db : Database) (principalId : String) : List InstalledPlugin :=
  (db.plugins.installations.filter fun i ↦ i.principalId = principalId).flatMap fun i ↦
    (db.plugins.versions.filter fun v ↦
      v.pluginId = i.pluginId && v.digest = i.activeDigest).map fun v ↦ (i, v)

def InstalledPlugin.selectable (p : InstalledPlugin) : Bool :=
  p.1.enabled && p.2.compatible && !p.2.retired && p.1.retiredAt.isNone

/-- `require_available` -/
def requireAvailable (installed : List InstalledPlugin) (pluginId : String)
    (expectedDigest : Option String) : StoreTxn InstalledPlugin := do
  let found := (installed.reverse.find? fun p ↦ p.1.pluginId = pluginId).filter fun p ↦
    p.1.retiredAt.isNone
  let plugin ← Txn.getOr found
    (.runAdmission "plugin_not_found" s!"plugin {pluginId} is not installed")
  Txn.require (plugin.1.enabled = true)
    (.runAdmission "plugin_disabled" s!"plugin {pluginId} is disabled")
  Txn.require (plugin.2.compatible = true)
    (.runAdmission "plugin_incompatible" s!"plugin {pluginId} is incompatible")
  Txn.require (plugin.2.retired = false)
    (.runAdmission "plugin_retired" s!"plugin {pluginId} is retired")
  Txn.require (expectedDigest.all (fun d ↦ d = plugin.2.digest) = true)
    (.runAdmission "plugin_digest_mismatch" s!"plugin {pluginId} active digest changed")
  pure plugin

def pluginActionCatalogHash (manifest : PluginManifest) (digest : String) : StoreTxn String :=
  Txn.draw fun w ↦ (w.pluginActionCatalogHash manifest digest, w)

/-- `binding` -/
def bindPlugin (plugin : InstalledPlugin) (selectionSource : String) (required : Bool)
    (commandId : Option String) : StoreTxn PluginBinding := do
  let manifest := plugin.2.manifest
  let command := manifest.commands.find? fun c ↦ some c.id = commandId
  let hash ← pluginActionCatalogHash manifest plugin.2.digest
  pure ⟨plugin.1.pluginId, manifest.name, plugin.2.version, plugin.2.digest, selectionSource,
    required, commandId, command.map PluginCommand.title, hash, plugin.1.modelBindingJson⟩

/-- `selected[plugin_id] = binding` -/
def selectBinding (selected : List PluginBinding) (binding : PluginBinding) :
    List PluginBinding :=
  (selected.filter fun b ↦ b.pluginId ≠ binding.pluginId) ++ [binding]

def bindReference (installed : List InstalledPlugin) (reference : PluginRef) :
    StoreTxn PluginBinding := do
  let plugin ← requireAvailable installed reference.pluginId reference.expectedDigest
  bindPlugin plugin "explicit" reference.required none

def bindCommand (installed : List InstalledPlugin) (command : PluginCommandRef) :
    StoreTxn PluginBinding := do
  let plugin ← requireAvailable installed command.pluginId command.expectedDigest
  Txn.require (plugin.2.manifest.commands.any (fun c ↦ c.id = command.commandId) = true)
    (.runAdmission "plugin_command_not_found"
      s!"plugin {command.pluginId} does not contribute command {command.commandId}")
  bindPlugin plugin "command" true (some command.commandId)

/-- The bindings a fork takes over from the run it forks. -/
def inheritedBindings (db : Database) (runId : String) : List PluginBinding :=
  let rows := db.plugins.bindings.filter fun b ↦
    b.runId = runId && db.plugins.versions.any fun v ↦ v.pluginId = b.pluginId && v.digest = b.digest
  (rows.insertionSort fun a b ↦ a.pluginId ≤ b.pluginId).map fun b ↦
    ⟨b.pluginId, "", b.version, b.digest, b.selectionSource, b.required, b.commandId, none,
      b.actionCatalogHash, b.modelBindingJson⟩

def selectBindings (installed : List InstalledPlugin) (refs : List PluginRef)
    (command : Option PluginCommandRef) : StoreTxn (List PluginBinding) := do
  let enabled ← (installed.filter InstalledPlugin.selectable).mapM fun plugin ↦
    bindPlugin plugin "enabled" false none
  let explicit ← refs.mapM (bindReference installed)
  let commanded ← command.toList.mapM (bindCommand installed)
  let selected := (enabled ++ explicit ++ commanded).foldl selectBinding []
  pure (selected.insertionSort fun a b ↦ a.pluginId ≤ b.pluginId)

/-- `_resolve_run_plugin_bindings` -/
def resolveRunPluginBindings (principalId : String) (refs : List PluginRef)
    (command : Option PluginCommandRef) (inheritFromRunId : Option String) :
    StoreTxn (List PluginBinding) :=
  match inheritFromRunId with
  | some runId => Txn.read fun db ↦ inheritedBindings db runId
  | none => do
    let installed ← Txn.read fun db ↦ installedPlugins db principalId
    selectBindings installed refs command

def referenceJson (bindings : List PluginBinding) (pluginId : String) : Json :=
  match bindings.find? fun b ↦ b.pluginId = pluginId with
  | some b => .obj [("plugin_id", .str pluginId), ("name", .str b.displayName),
      ("digest", .str b.digest)]
  | none => .null

def commandJson (bindings : List PluginBinding) (command : PluginCommandRef) : Json :=
  match bindings.find? fun b ↦ b.pluginId = command.pluginId with
  | some b => .obj [("plugin_id", .str command.pluginId), ("plugin_name", .str b.displayName),
      ("command_id", .str command.commandId), ("title", .str (b.commandTitle.getD "None")),
      ("digest", .str b.digest)]
  | none => .null

/-- The metadata of the user item, with the plugins the user picked. -/
def userItemMetadata (metadata : List (String × Json)) (refs : List PluginRef)
    (command : Option PluginCommandRef) (bindings : List PluginBinding) : Json :=
  let kept := metadata.filter fun p ↦ p.1 ≠ "plugin_selection"
  if refs = [] ∧ command.isNone then .obj kept
  else
    let ids := (refs.map PluginRef.pluginId).reverse.dedup.reverse
    let selection := [("references", Json.arr (ids.map (referenceJson bindings)))] ++
      (command.map fun c ↦ ("command", commandJson bindings c)).toList
    .obj (kept ++ [("plugin_selection", .obj selection)])

/-! ## Run records -/

def localOwnerPrincipalId : String := "local:owner"

/-- Scope a requested identifier to a principal (`_principal_thread_id` and
`_principal_item_id` differ in their prefix only). -/
def principalScopedId (sha256Hex : String → String) (kind principalId requestedId : String) :
    String :=
  if principalId = localOwnerPrincipalId ∧ pyStartsWith requestedId kind = false then requestedId
  else
    let scope := kind ++ String.ofList ((sha256Hex principalId).toList.take 16) ++ "_"
    if pyStartsWith requestedId scope then requestedId else scope ++ sha256Hex requestedId

def principalThreadId (principalId requestedId : String) : StoreTxn String :=
  Txn.draw fun w ↦ (principalScopedId w.sha256Hex "pt_" principalId requestedId, w)

def principalItemId (principalId requestedId : String) : StoreTxn String :=
  Txn.draw fun w ↦ (principalScopedId w.sha256Hex "pi_" principalId requestedId, w)

structure NewRun where
  principalId : String
  goal : String
  workspacePath : Option String
  parentRunId : Option String
  settings : Option Json
  metadata : Option Json
  mode : String
  history : Json := .arr []
  graphThreadId : Option String := none
  graphCheckpointId : Option String := none
  graphDefinitionId : Option String := none
  graphInputKind : GraphInputKind := .new
  threadId : Option String := none
  assistantItemId : Option String := none
  userInput : Option String := none
  runKind : RunKind
  rootRunId : Option String := none
  agentDefinitionId : String := "shejane.default"
  agentDefinitionVersion : String := "1"
  collaborationDepth : ℕ := 0
  collaborationPolicy : Option Json := none
  spawnOperationId : Option String := none

/-- `value or _new_id(prefix)` -/
def idOr (given : Option String) (pre : String) : StoreTxn String :=
  match nonEmpty given with
  | some id => pure id
  | none => newId pre

/-- `_new_run_record` -/
def newRunRecord (new : NewRun) : StoreTxn Run := do
  let runId ← newId "run"
  let graphThreadId ← idOr new.graphThreadId "thread"
  let createdAt ← utcNow
  let updatedAt ← utcNow
  pure {
    id := runId, principalId := new.principalId, runKind := new.runKind,
    rootRunId := some (textOr new.rootRunId runId), agentDefinitionId := new.agentDefinitionId,
    agentDefinitionVersion := new.agentDefinitionVersion,
    collaborationDepth := new.collaborationDepth,
    collaborationPolicyJson := encodePayload (Json.orEmpty new.collaborationPolicy),
    spawnOperationId := new.spawnOperationId, graphThreadId := graphThreadId,
    graphCheckpointId := new.graphCheckpointId, graphDefinitionId := new.graphDefinitionId,
    graphInputKind := new.graphInputKind, threadId := new.threadId,
    assistantItemId := new.assistantItemId, userInput := some (textOr new.userInput new.goal),
    goal := new.goal, workspacePath := new.workspacePath, status := .queued,
    historyJson := new.history, parentRunId := new.parentRunId,
    settingsJson := Json.orEmpty new.settings, metadataJson := Json.orEmpty new.metadata,
    mode := new.mode, createdAt := createdAt, updatedAt := updatedAt, completedAt := none }

def GraphInputKind.text : GraphInputKind → String
  | .new => "new"
  | .fork => "fork"

/-- The run record as the response of its command. -/
def runJson (run : Run) : Json :=
  .obj [("id", .str run.id), ("principal_id", .str run.principalId),
        ("run_kind", .str run.runKind.text), ("root_run_id", optText run.rootRunId),
        ("agent_definition_id", .str run.agentDefinitionId),
        ("agent_definition_version", .str run.agentDefinitionVersion),
        ("collaboration_depth", .num run.collaborationDepth),
        ("collaboration_policy_json", run.collaborationPolicyJson),
        ("spawn_operation_id", optText run.spawnOperationId),
        ("graph_thread_id", .str run.graphThreadId),
        ("graph_checkpoint_id", optText run.graphCheckpointId),
        ("graph_definition_id", optText run.graphDefinitionId),
        ("graph_input_kind", .str run.graphInputKind.text), ("thread_id", optText run.threadId),
        ("assistant_item_id", optText run.assistantItemId), ("user_input", optText run.userInput),
        ("goal", .str run.goal), ("workspace_path", optText run.workspacePath),
        ("status", .str run.status.text), ("history_json", run.historyJson),
        ("parent_run_id", optText run.parentRunId), ("settings_json", run.settingsJson),
        ("metadata_json", run.metadataJson), ("mode", .str run.mode),
        ("created_at", timeJson run.createdAt), ("updated_at", timeJson run.updatedAt),
        ("completed_at", optTime run.completedAt)]

/-! ## Accepting a run command -/

structure HistoryMessage where
  role : String
  content : String

structure RunInputItem where
  inputId : String
  virtualPath : String
  originalName : String
  mediaType : String
  bytes : ℕ
  sha256 : String
  blobKey : String

structure RunCommand where
  principalId : String
  commandId : String
  clientMessageId : String
  commandPayload : Json
  goal : String
  workspacePath : Option String
  mode : String
  threadId : Option String := none
  userInput : Option String := none
  assistantMessageId : Option String := none
  threadTitle : Option String := none
  threadMetadata : Option Json := none
  userItemMetadata : List (String × Json) := []
  replaceFromClientId : Option String := none
  requireNewThread : Bool := false
  graphThreadId : Option String := none
  graphCheckpointId : Option String := none
  graphDefinitionId : Option String := none
  graphInputKind : GraphInputKind := .new
  history : List HistoryMessage := []
  parentRunId : Option String := none
  settings : Option Json := none
  metadata : Option Json := none
  admissionError : Option (String × String) := none
  pluginRefs : List PluginRef := []
  pluginCommand : Option PluginCommandRef := none
  inheritPluginBindingsFrom : Option String := none
  runInputs : List RunInputItem := []

namespace RunCommand

def payloadJson (c : RunCommand) : Json :=
  encodePayload (.obj
    [("client_message_id", .str c.clientMessageId), ("payload", c.commandPayload)])

/-- `str(command_payload.get("type") or "run.start")` -/
def commandType (c : RunCommand) : String :=
  let given := Json.textOrEmpty (c.commandPayload.get? "type")
  if given = "" then "run.start" else given

/-- `user_input or goal` -/
def userText (c : RunCommand) : String := textOr c.userInput c.goal

end RunCommand

/-- The checks that need no row but the ones they name. -/
def requireRunCommandWorkspace (c : RunCommand) : StoreTxn Unit := do
  Txn.require (c.admissionError.isNone = true)
    (.runAdmission ((c.admissionError.map Prod.fst).getD "") ((c.admissionError.map Prod.snd).getD ""))
  let pathError ← workspacePathError c.workspacePath
  refuseWorkspace pathError none
  let ownerError ← workspaceOwnerError c.principalId c.workspacePath
  refuseWorkspace ownerError none

/-- The statuses in which a run is not yet safe to continue from. -/
def RunStatus.unsettled (status : RunStatus) : Bool :=
  status = .queued || status = .running || status = .cleanupRequired

/-- The root of the conversation the parent run belongs to. -/
def admittedRootRunId (c : RunCommand) : StoreTxn (Option String) :=
  match c.parentRunId with
  | none => pure none
  | some parentRunId => do
    let parent? ← findOwnedRun c.principalId parentRunId
    let parent ← Txn.getOr parent? (.parentRunAdmission "parent run not found")
    Txn.require (parent.runKind ≠ .child)
      (.parentRunAdmission "a durable child run cannot be used as a conversation parent")
    Txn.require (parent.status.unsettled = false)
      (.parentRunAdmission "parent run has not reached a safely settled state")
    pure (some (textOr parent.rootRunId parentRunId))

/-- What a command found or made of its thread. -/
structure TurnThread where
  threadId : String
  version : ℕ
  basePosition : ℤ
  history : List HistoryMessage

/-- The messages a new thread starts with. -/
def seedHistory (c : RunCommand) : List HistoryMessage :=
  c.history.filter fun m ↦
    (m.role = "user" || m.role = "assistant") && pyStrip m.content ≠ ""

def seedItem (threadId : String) (now : Time) (row : HistoryMessage × ℕ) : JournalTxn Unit := do
  let id ← newId "item"
  Journal.insertThreadItem
    { id := id, threadId := threadId, runId := none, clientId := none,
      itemType := row.1.role ++ "_message", status := "completed", content := row.1.content,
      metadataJson := .obj [], position := row.2 + 1, eventHighWatermark := 0, version := 1,
      createdAt := now, updatedAt := now, completedAt := some now, supersededAt := none,
      supersededByRunId := none }

def openNewThread (c : RunCommand) (threadId : String) (now : Time) : JournalTxn TurnThread := do
  Txn.require (c.replaceFromClientId.isNone = true) (.threadAdmission "thread not found")
  Journal.insertThread
    { id := threadId, principalId := c.principalId,
      title := squeeze (textOr c.threadTitle (textOr c.userInput c.goal)) 80,
      metadataJson := encodePayload (Json.orEmpty c.threadMetadata), version := 1,
      createdAt := now, updatedAt := now, archivedAt := none, deletedAt := none }
  let seed := seedHistory c
  forM seed.zipIdx (seedItem threadId now)
  pure ⟨threadId, 1, seed.length, seed⟩

/-- A run of the thread has not settled, or still has an active job. -/
def threadBusy (db : Database) (principalId threadId : String) : Bool :=
  db.runs.rows.any fun r ↦ r.principalId = principalId && r.threadId = some threadId &&
    (!r.status.terminal || db.jobs.rows.any fun j ↦ j.runId = r.id && j.active)

/-- The items of a thread that no edit has replaced. -/
def liveItems (items : Table ThreadItem.id) (threadId : String) : List ThreadItem :=
  items.select fun i ↦ i.threadId = threadId && i.supersededAt.isNone

/-- The position after which the new turn goes. -/
def turnBasePosition (c : RunCommand) (live : List ThreadItem) : JournalTxn ℤ :=
  match c.replaceFromClientId with
  | some clientId => do
    let target ← Txn.getOr
      (live.find? fun i ↦ i.clientId = some clientId && i.itemType = "user_message")
      (.threadAdmission "thread message not found")
    pure (target.position - 1)
  | none => pure ((live.map ThreadItem.position).max?.getD 0)

/-- The messages before the new turn, in the order of their positions. -/
def turnHistory (live : List ThreadItem) (basePosition : ℤ) : List HistoryMessage :=
  let rows := live.filter fun i ↦ i.position ≤ basePosition &&
    (i.itemType = "user_message" || i.itemType = "assistant_message") && i.content ≠ ""
  (rows.insertionSort fun a b ↦
    a.position < b.position ∨ (a.position = b.position ∧ a.id ≤ b.id)).map fun i ↦
      ⟨if i.itemType = "user_message" then "user" else "assistant", i.content⟩

def continueThread (c : RunCommand) (busy : Bool) (thread : Thread) (now : Time) :
    JournalTxn TurnThread := do
  Txn.require (thread.principalId = c.principalId ∧ thread.deletedAt.isNone = true)
    (.threadAdmission "thread not found")
  Txn.require (thread.archivedAt.isNone = true) (.threadAdmission "thread is archived")
  let duplicate ← Txn.read fun j ↦ j.items.rows.any fun i ↦
    i.threadId = thread.id && i.clientId = some c.clientMessageId
  Txn.require (duplicate = false) (.commandConflict
    s!"client message {c.clientMessageId} already belongs to another command")
  Txn.require (busy = false) (.threadAdmission "thread has an unsettled run")
  let live ← Txn.read fun j ↦ liveItems j.items thread.id
  let basePosition ← turnBasePosition c live
  Journal.updateThreads (fun t ↦ t.id = thread.id) fun t ↦
    { t with version := thread.version + 1,
             title := squeeze (textOr c.threadTitle thread.title) 80,
             metadataJson := (c.threadMetadata.map encodePayload).getD thread.metadataJson,
             updatedAt := now }
  pure ⟨thread.id, thread.version + 1, basePosition, turnHistory live basePosition⟩

def openThread (c : RunCommand) (threadId : String) (now : Time) : StoreTxn TurnThread := do
  let busy ← Txn.read fun db ↦ threadBusy db c.principalId threadId
  let thread? ← Txn.read fun db ↦ db.journal.threads.find? threadId
  match thread? with
  | none => onJournal fun _ ↦ openNewThread c threadId now
  | some thread => do
    Txn.require (c.requireNewThread = false)
      (.threadAdmission "fork target thread already exists")
    onJournal fun _ ↦ continueThread c busy thread now

def historyJson (history : List HistoryMessage) : Json :=
  .arr (history.map fun m ↦ .obj [("role", .str m.role), ("content", .str m.content)])

def runCommandRecord (c : RunCommand) (rootRunId : Option String) (thread : TurnThread)
    (assistantItemId : String) : NewRun where
  principalId := c.principalId
  goal := c.goal
  workspacePath := c.workspacePath
  parentRunId := c.parentRunId
  settings := c.settings
  metadata := c.metadata
  mode := c.mode
  history := historyJson thread.history
  graphThreadId := c.graphThreadId
  graphCheckpointId := c.graphCheckpointId
  graphDefinitionId := c.graphDefinitionId
  graphInputKind := c.graphInputKind
  threadId := some thread.threadId
  assistantItemId := some assistantItemId
  userInput := c.userInput
  runKind := if c.graphInputKind = .fork then .fork else .turn
  rootRunId := rootRunId

/-- Inputs are distinct by identifier and by path within a run. -/
def insertRunInputs (runId : String) (items : List RunInputItem) (now : Time) : StoreTxn Unit := do
  Txn.require ((items.map RunInputItem.inputId).Nodup) (uniqueFailed "local_run_inputs.input_id")
  Txn.require ((items.map RunInputItem.virtualPath).Nodup)
    (uniqueFailed "local_run_inputs.virtual_path")
  Txn.write fun db ↦ { db with content := { db.content with
    runInputs := db.content.runInputs ++ items.map fun i ↦
      ⟨runId, i.inputId, i.virtualPath, i.originalName, i.mediaType, i.bytes, i.sha256, i.blobKey,
        now⟩ } }

def insertRunPluginBindings (runId : String) (bindings : List PluginBinding) : StoreTxn Unit :=
  Txn.write fun db ↦ { db with plugins := { db.plugins with
    bindings := db.plugins.bindings ++ bindings.map fun b ↦
      ⟨runId, b.pluginId, b.version, b.digest, b.selectionSource, b.required, b.commandId,
        b.actionCatalogHash, b.modelBindingJson⟩ } }

/-- An edit replaces the items after the position it starts from. -/
def supersedeItems (runId threadId : String) (basePosition : ℤ) (now : Time) : JournalTxn Unit :=
  Journal.updateItems
    (fun i ↦ i.threadId = threadId && basePosition < i.position && i.supersededAt.isNone)
    fun i ↦ { i with supersededAt := some now, supersededByRunId := some runId, updatedAt := now }

/-- The user message and the assistant item of a turn. -/
def insertTurnItems (c : RunCommand) (runId assistantItemId : String) (thread : TurnThread)
    (metadata : Json) (now : Time) : JournalTxn Unit := do
  let userItemId ← newId "item"
  Journal.insertThreadItem
    { id := userItemId, threadId := thread.threadId, runId := some runId,
      clientId := some c.clientMessageId, itemType := "user_message", status := "completed",
      content := c.userText, metadataJson := encodePayload metadata,
      position := thread.basePosition + 1, eventHighWatermark := 0, version := 1,
      createdAt := now, updatedAt := now, completedAt := some now, supersededAt := none,
      supersededByRunId := none }
  Journal.insertThreadItem
    { id := assistantItemId, threadId := thread.threadId, runId := some runId,
      clientId := c.assistantMessageId, itemType := "assistant_message", status := "in_progress",
      content := "", metadataJson := .obj [], position := thread.basePosition + 2,
      eventHighWatermark := 0, version := 1, createdAt := now, updatedAt := now,
      completedAt := none, supersededAt := none, supersededByRunId := none }

def writeTurn (c : RunCommand) (runId assistantItemId : String) (thread : TurnThread)
    (metadata : Json) (now : Time) : JournalTxn Unit := do
  Txn.when (c.replaceFromClientId.isSome = true)
    (supersedeItems runId thread.threadId thread.basePosition now)
  insertTurnItems c runId assistantItemId thread metadata now
  Journal.insertThreadChange c.principalId thread.threadId thread.version
    (if c.replaceFromClientId.isSome then "thread.rewritten" else "turn.started") (some runId) now

/-- The input of a start job. -/
def startJobInput (c : RunCommand) (thread : TurnThread) : Json :=
  .obj [("principal_id", .str c.principalId), ("goal", .str c.goal),
        ("user_input", .str c.userText), ("workspace_path", optText c.workspacePath),
        ("mode", .str c.mode), ("history", historyJson thread.history),
        ("settings", Json.orEmpty c.settings), ("metadata", Json.orEmpty c.metadata)]

def assistantItem (c : RunCommand) : StoreTxn String :=
  match c.assistantMessageId with
  | some requested => principalItemId c.principalId requested
  | none => newId "item"

def productThread (c : RunCommand) : StoreTxn String :=
  match c.threadId with
  | some requested => principalThreadId c.principalId requested
  | none => newId "thread"

/-- Create the run, its turn, its pending job and its command. -/
def createCommandedRun (c : RunCommand) (rootRunId : Option String)
    (bindings : List PluginBinding) : StoreTxn Run := do
  let threadId ← productThread c
  let now ← utcNow
  let thread ← openThread c threadId now
  let assistantItemId ← assistantItem c
  let run ← newRunRecord (runCommandRecord c rootRunId thread assistantItemId)
  insertRun run
  insertRunInputs run.id c.runInputs now
  insertRunPluginBindings run.id bindings
  onJournal fun _ ↦ writeTurn c run.id assistantItemId thread
    (userItemMetadata c.userItemMetadata c.pluginRefs c.pluginCommand bindings) now
  let job ← newRunJobRecord run.id .start (startJobInput c thread) none
  insertRunJob job
  insertCommand ⟨c.principalId, c.commandId, c.commandType, c.clientMessageId, c.payloadJson,
    encodePayload (runJson run), some run.id, run.createdAt⟩
  pure run

/-- `accept_run_command`: the flag tells whether the run is new. A repeated
command returns the run it created, as it is now. -/
def acceptRunCommand (c : RunCommand) : StoreTxn (AcceptedRun × Bool) := do
  let existing ← acceptedRunForCommand c.principalId c.commandId c.payloadJson
  match existing with
  | some accepted => pure (accepted, false)
  | none => do
    requireRunCommandWorkspace c
    let rootRunId ← admittedRootRunId c
    let bindings ← resolveRunPluginBindings c.principalId c.pluginRefs c.pluginCommand
      c.inheritPluginBindingsFrom
    let run ← createCommandedRun c rootRunId bindings
    pure (⟨run, c.commandId, c.clientMessageId⟩, true)

end ShejaneRuntime.Store
