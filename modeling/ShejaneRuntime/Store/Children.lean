import ShejaneRuntime.Store.RunCommands

/-!
# Durable child runs

A running `child.spawn` operation of a parent admits a child run: its
coordination with its siblings, the resources it owns, its pending job and
the event in the log of the parent, in one transaction.
-/

namespace ShejaneRuntime.Store

open Lib

def maxDurableChildDepth : ℕ := 1

def maxDurableChildrenPerRun : ℕ := 8

def maxDurableChildDependencies : ℕ := maxDurableChildrenPerRun - 1

def maxDurableChildResourceClaims : ℕ := 16

/-! ## Normalizing the request -/

/-- `child.relative_to(parent)` on the parts of two paths. -/
def relativeTo : List String → List String → Option (List String)
  | child, [] => some child
  | c :: child, p :: parent => if c = p then relativeTo child parent else none
  | [], _ :: _ => none

def resolvePath (path : String) : StoreTxn (List String) :=
  Txn.draw fun w ↦ (w.resolvePath path, w)

def resolveResource (workspacePath raw : String) (workspace : List String) :
    StoreTxn (List String) :=
  if pyStartsWith raw "/" then do
    let absolute ← resolvePath raw
    match relativeTo absolute workspace with
    | some _ => pure absolute
    | none => resolvePath (workspacePath ++ "/" ++
        String.ofList (raw.toList.dropWhile fun c ↦ c = '/' || c = '\\'))
  else resolvePath (workspacePath ++ "/" ++ raw)

/-- `_normalize_workspace_resource_key` -/
def normalizeWorkspaceResourceKey (workspacePath : Option String) (requestedPath : String) :
    StoreTxn String := do
  let workspaceText ← Txn.getOr (nonEmpty workspacePath)
    (.runAdmission "child_resource_workspace_required"
      "resource ownership requires an authorized workspace")
  let raw := pyStrip requestedPath
  Txn.require (raw ≠ "" ∧ raw.toList.all (fun c ↦ c.toNat ≠ 0) = true)
    (.valueError "collaboration resource path is invalid")
  let workspace ← resolvePath workspaceText
  let resolved ← resolveResource workspaceText raw workspace
  let parts ← Txn.getOr (relativeTo resolved workspace)
    (.runAdmission "child_resource_outside_workspace"
      "collaboration resource path must stay inside the authorized workspace")
  Txn.require (parts ≠ [])
    (.valueError "collaboration resource must identify a file inside the workspace")
  let key := "/".intercalate parts
  Txn.require (key.utf8ByteSize ≤ 4096)
    (.valueError "collaboration resource path is too long")
  pure key

structure CoordinationRequest where
  completionMode : CompletionMode := .required
  dependsOn : List String := []
  resourceClaims : List String := []
  quorumGroup : Option String := none
  quorumRequired : Option ℕ := none

structure Coordination where
  completionMode : CompletionMode
  dependsOn : List String
  resourceClaims : List String
  quorumGroup : Option String
  quorumRequired : Option ℕ

/-- The quorum fields, which only the quorum mode has. -/
def normalizeQuorum (request : CoordinationRequest) : StoreTxn (Option String × Option ℕ) :=
  if request.completionMode = .quorum then do
    let group := pyStrip (request.quorumGroup.getD "")
    Txn.require (group ≠ "" ∧ group.length ≤ 128)
      (.valueError "quorum children require a quorum_group")
    let required ← Txn.getOr request.quorumRequired
      (.valueError "quorum children require quorum_required")
    Txn.require (1 ≤ required ∧ required ≤ maxDurableChildrenPerRun)
      (.valueError "child quorum_required is invalid")
    pure (some group, some required)
  else do
    Txn.require (request.quorumGroup.isNone = true ∧ request.quorumRequired.isNone = true)
      (.valueError "quorum fields are only valid for quorum children")
    pure (none, none)

/-- `_normalize_child_coordination` -/
def normalizeChildCoordination (request : CoordinationRequest) (workspacePath : Option String) :
    StoreTxn Coordination := do
  let dependsOn := request.dependsOn.map pyStrip
  Txn.require (dependsOn.length ≤ maxDurableChildDependencies ∧ dependsOn.Nodup ∧
      dependsOn.all (fun id ↦ id ≠ "" && id.length ≤ 128) = true)
    (.valueError "child depends_on is invalid")
  let resourceClaims ← request.resourceClaims.mapM (normalizeWorkspaceResourceKey workspacePath)
  Txn.require (resourceClaims.length ≤ maxDurableChildResourceClaims ∧ resourceClaims.Nodup)
    (.valueError "child resource_claims is invalid")
  let (quorumGroup, quorumRequired) ← normalizeQuorum request
  pure ⟨request.completionMode, dependsOn, resourceClaims, quorumGroup, quorumRequired⟩

structure ChildAgentDefinition where
  id : String
  version : String
  name : String
  description : String
  systemPrompt : String
  allowedTools : List String

namespace ChildAgentDefinition

/-- The bounded text fields of a definition. -/
def texts (d : ChildAgentDefinition) : List (String × String × ℕ) :=
  [("id", d.id, 128), ("version", d.version, 128), ("name", d.name, 64),
    ("description", d.description, 4096), ("system_prompt", d.systemPrompt, 32 * 1024)]

def normalized (d : ChildAgentDefinition) : ChildAgentDefinition where
  id := pyStrip d.id
  version := pyStrip d.version
  name := pyStrip d.name
  description := pyStrip d.description
  systemPrompt := pyStrip d.systemPrompt
  allowedTools := (d.allowedTools.dedup).insertionSort (· ≤ ·)

def json (d : ChildAgentDefinition) : Json :=
  .obj [("id", .str d.id), ("version", .str d.version), ("name", .str d.name),
        ("description", .str d.description), ("system_prompt", .str d.systemPrompt),
        ("allowed_tools", .arr (d.allowedTools.map Json.str))]

end ChildAgentDefinition

def requireDefinitionText (row : String × String × ℕ) : StoreTxn Unit :=
  Txn.require (pyStrip row.2.1 ≠ "" ∧ row.2.1.length ≤ row.2.2)
    (.valueError s!"child Agent definition {row.1} is invalid")

/-- `_normalize_child_agent_definition` -/
def normalizeChildAgentDefinition (d : ChildAgentDefinition) : StoreTxn ChildAgentDefinition := do
  forM d.texts requireDefinitionText
  Txn.require (d.allowedTools.length ≤ 128 ∧
      d.allowedTools.all (fun t ↦ t ≠ "" && t.length ≤ 128) = true)
    (.valueError "child Agent definition allowed_tools is invalid")
  Txn.require (d.normalized.json.byteSize ≤ 64 * 1024)
    (.valueError "child Agent definition is too large")
  pure d.normalized

/-! ## Admitting the child -/

structure ChildRequest where
  parentRunId : String
  spawnOperationId : String
  goal : String
  agentDefinition : ChildAgentDefinition
  coordination : CoordinationRequest := {}
  executionPolicy : Option Json := none

def Coordination.fields (c : Coordination) : List (String × Json) :=
  [("completion_mode", .str c.completionMode.text),
   ("depends_on", .arr (c.dependsOn.map Json.str)),
   ("resource_claims", .arr (c.resourceClaims.map Json.str)),
   ("quorum_group", optText c.quorumGroup),
   ("quorum_required", (c.quorumRequired.map fun n ↦ Json.num n).getD .null)]

/-- The collaboration policy a child is stored with. -/
def Coordination.policy (c : Coordination) : Json :=
  .obj ([("max_depth", .num maxDurableChildDepth), ("max_children", .num maxDurableChildrenPerRun)] ++
    c.fields)

/-- The child was admitted before by the same request. -/
def sameChild (request : ChildRequest) (goal : String) (definition : ChildAgentDefinition)
    (policy : Json) (record : Run) : Bool :=
  record.runKind = .child && record.parentRunId = some request.parentRunId &&
    record.goal = goal && record.agentDefinitionId = definition.id &&
    record.agentDefinitionVersion = definition.version &&
    encodePayload (Json.orEmpty
      ((jsonPayload (some record.metadataJson)).get? "_child_agent_definition")) =
        encodePayload definition.json &&
    encodePayload (jsonPayload (some record.collaborationPolicyJson)) = encodePayload policy

/-- The admission belongs to a spawn operation the current attempt is running. -/
def requireSpawnOperation (request : ChildRequest) (lease : Option ExecutionLease) :
    StoreTxn Unit := do
  let receipt? ← findToolReceiptInRun request.spawnOperationId request.parentRunId
  let receipt ← Txn.getOr
    (receipt?.filter fun r ↦ r.toolName = "child.spawn" && r.status = .running)
    (.toolReceiptState "child admission requires its running child.spawn receipt")
  let held ← Txn.getOr lease
    (.leaseFence "child admission requires the parent execution lease")
  Txn.require (receipt.executionAttemptId = held.executionAttemptId)
    (.leaseFence "child.spawn receipt belongs to a stale execution attempt")

/-- The children a run has. -/
def childRuns (db : Database) (parentRunId : String) : List Run :=
  db.runs.select fun r ↦ r.parentRunId = some parentRunId && r.runKind = .child

/-- The quorum a group was declared with. -/
def declaredQuorum (db : Database) (parentRunId group : String) : Option ℕ :=
  (db.collaboration.coordination.rows.find? fun c ↦
    c.parentRunId = parentRunId && c.completionMode = .quorum &&
      c.quorumGroup = some group).bind ChildCoordination.quorumRequired

def requireFreeResource (rootRunId resourceKey : String) : StoreTxn Unit := do
  let claim? ← Txn.read fun db ↦ db.collaboration.resourceClaims.find? (rootRunId, resourceKey)
  match claim? with
  | none => pure ()
  | some claim => Txn.fail (.runAdmission "child_resource_already_owned"
      s!"collaboration resource is already owned by {claim.ownerRunId}")

/-- Depth, fan-out, dependencies, quorum and resources of the new child. -/
def requireChildAdmission (parent : Run) (rootRunId : String) (c : Coordination) :
    StoreTxn Unit := do
  Txn.require (parent.status = .running) (.runAdmission "child_parent_not_running"
    "a child can only be admitted while its parent is running")
  Txn.require (parent.collaborationDepth + 1 ≤ maxDurableChildDepth)
    (.runAdmission "child_depth_exceeded" "durable child depth is exhausted for this Run")
  let siblings ← Txn.read fun db ↦ childRuns db parent.id
  Txn.require (siblings.length < maxDurableChildrenPerRun)
    (.runAdmission "child_fanout_exceeded" "durable child fan-out is exhausted for this Run")
  Txn.require (c.dependsOn.all (fun id ↦ siblings.any fun r ↦ r.id = id) = true)
    (.runAdmission "child_dependency_invalid"
      "child dependencies must be previously admitted siblings")
  let declared ← Txn.read fun db ↦ c.quorumGroup.bind (declaredQuorum db parent.id)
  Txn.require (declared.all (fun n ↦ some n = c.quorumRequired) = true)
    (.runAdmission "child_quorum_conflict"
      "all children in a quorum group must use the same quorum_required")
  forM c.resourceClaims (requireFreeResource rootRunId)

/-- The settings and metadata a child takes over from its parent. -/
def childSettings (parent : Run) (executionPolicy : Option Json) : Json :=
  match jsonPayload (some parent.settingsJson) with
  | .obj fields => .obj (fields.filter (fun p ↦ p.1 ≠ "_execution_policy") ++
      (executionPolicy.map fun policy ↦ ("_execution_policy", policy)).toList)
  | other => other

def childMetadata (parent : Run) (definition : ChildAgentDefinition) (spawnOperationId : String) :
    Json :=
  let attachments := match (jsonPayload (some parent.metadataJson)).get? "_attachments" with
    | some (.arr items) => [("_attachments", Json.arr items)]
    | _ => []
  .obj ([("_child_agent_definition", definition.json),
    ("_spawn_operation_id", .str spawnOperationId)] ++ attachments)

def childRecord (request : ChildRequest) (goal : String) (definition : ChildAgentDefinition)
    (parent : Run) (rootRunId : String) (policy : Json) : NewRun where
  principalId := parent.principalId
  goal := goal
  workspacePath := parent.workspacePath
  parentRunId := some request.parentRunId
  settings := some (childSettings parent request.executionPolicy)
  metadata := some (childMetadata parent definition request.spawnOperationId)
  mode := parent.mode
  runKind := .child
  rootRunId := some rootRunId
  agentDefinitionId := definition.id
  agentDefinitionVersion := definition.version
  collaborationDepth := parent.collaborationDepth + 1
  collaborationPolicy := some policy
  spawnOperationId := some request.spawnOperationId

def insertCoordination (row : ChildCoordination) : StoreTxn Unit :=
  Txn.attempt (fun db ↦ (db.collaboration.coordination.insert? row).map fun rows ↦
      { db with collaboration := { db.collaboration with coordination := rows } })
    (uniqueFailed "local_child_coordination.child_run_id")

def insertDependency (childRunId : String) (createdAt : Time) (dependencyRunId : String) :
    StoreTxn Unit :=
  Txn.attempt (fun db ↦ (db.collaboration.dependencies.insert?
      ⟨childRunId, dependencyRunId, createdAt⟩).map fun rows ↦
      { db with collaboration := { db.collaboration with dependencies := rows } })
    (uniqueFailed "local_child_dependencies")

def insertResourceClaim (rootRunId ownerRunId : String) (createdAt : Time) (resourceKey : String) :
    StoreTxn Unit :=
  Txn.attempt (fun db ↦ (db.collaboration.resourceClaims.insert?
      ⟨rootRunId, resourceKey, ownerRunId, createdAt⟩).map fun rows ↦
      { db with collaboration := { db.collaboration with resourceClaims := rows } })
    (uniqueFailed "local_collaboration_resource_claims")

/-- Record how the child coordinates and what it owns. -/
def insertChildCollaboration (child : Run) (parentRunId rootRunId : String) (c : Coordination) :
    StoreTxn Unit := do
  insertCoordination ⟨child.id, rootRunId, parentRunId, c.completionMode, c.quorumGroup,
    c.quorumRequired, child.createdAt⟩
  forM c.dependsOn (insertDependency child.id child.createdAt)
  forM c.resourceClaims (insertResourceClaim rootRunId child.id child.createdAt)

/-- The child sees the inputs and plugins of its parent. -/
def copyParentContent (childRunId parentRunId : String) : StoreTxn Unit :=
  Txn.write fun db ↦
    { db with
      content := { db.content with runInputs := db.content.runInputs ++
        (db.content.runInputs.filter fun i ↦ i.runId = parentRunId).map fun i ↦
          { i with runId := childRunId } }
      plugins := { db.plugins with bindings := db.plugins.bindings ++
        (db.plugins.bindings.filter fun b ↦ b.runId = parentRunId).map fun b ↦
          { b with runId := childRunId } } }

def spawnedPayload (child : Run) (request : ChildRequest) (c : Coordination) : Json :=
  .obj ([("child_run_id", .str child.id), ("parent_run_id", .str request.parentRunId),
    ("root_run_id", .str (child.rootRunId.getD "None")),
    ("agent_definition_id", .str child.agentDefinitionId),
    ("agent_definition_version", .str child.agentDefinitionVersion),
    ("collaboration_depth", .num child.collaborationDepth), ("goal", .str child.goal),
    ("status", .str "queued"), ("spawn_operation_id", .str request.spawnOperationId)] ++ c.fields ++
    [("created_at", timeJson child.createdAt), ("updated_at", timeJson child.updatedAt)])

/-- Create the child run with everything that belongs to it. -/
def createChildRun (request : ChildRequest) (goal : String) (definition : ChildAgentDefinition)
    (parent : Run) (c : Coordination) : StoreTxn Run := do
  let rootRunId := textOr parent.rootRunId request.parentRunId
  requireChildAdmission parent rootRunId c
  let child ← newRunRecord (childRecord request goal definition parent rootRunId c.policy)
  insertRun child
  insertChildCollaboration child request.parentRunId rootRunId c
  copyParentContent child.id request.parentRunId
  let job ← newRunJobRecord child.id .start (runJobInput child) none
  insertRunJob job
  let (event, _) ← appendEventUncommitted request.parentRunId "child.spawned"
    (encodePayload (spawnedPayload child request c)) child.createdAt
  touchThreadForRunEventUncommitted request.parentRunId "child.spawned" event.seq child.createdAt
  pure child

/-- `accept_child_run`: the flag tells whether the child is new. -/
def acceptChildRun (lease : Option ExecutionLease) (request : ChildRequest) :
    StoreTxn (Run × Bool) := do
  let goal := pyStrip request.goal
  Txn.require (goal ≠ "" ∧ goal.length ≤ 32 * 1024) (.valueError "child task is invalid")
  let definition ← normalizeChildAgentDefinition request.agentDefinition
  runWriteTransaction request.parentRunId lease do
    let parent? ← findRun request.parentRunId
    let parent ← Txn.getOr parent? (.keyError s!"unknown parent run: {request.parentRunId}")
    let coordination ← normalizeChildCoordination request.coordination parent.workspacePath
    let existing ← Txn.read fun db ↦ db.runs.rows.find? fun r ↦
      r.spawnOperationId = some request.spawnOperationId
    match existing with
    | some record => do
      Txn.require (sameChild request goal definition coordination.policy record = true)
        (.commandConflict
          s!"spawn operation {request.spawnOperationId} was reused with a different child specification")
      pure (record, false)
    | none => do
      requireSpawnOperation request lease
      let child ← createChildRun request goal definition parent coordination
      pure (child, true)

end ShejaneRuntime.Store
