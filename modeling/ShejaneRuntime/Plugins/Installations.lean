import ShejaneRuntime.Plugins.Packages
import ShejaneRuntime.Store.Operations

/-!
# Enabling, model bindings, and the plugin store as a system

Any principals give any commands on any packages, in any order. The rest of
the store goes on beside the plugin tables.
-/

namespace ShejaneRuntime.Plugins

open Lib Store

/-- An installation joined with the version it points to. -/
def findActive (principalId pluginId : String) : PluginTxn (Option (Installation × PackageVersion)) :=
  Txn.read fun db ↦ (db.installations.find? (principalId, pluginId)).bind fun i ↦
    (db.versions.find? i.activeDigest).map fun v ↦ (i, v)

/-- `set_plugin_enabled_command` -/
def setPluginEnabled (principalId commandId commandType pluginId : String)
    (expected : Option String) (enabled : Bool) : PluginTxn (Json × Bool) := do
  let payload := installationPayload [("type", .str commandType), ("plugin_id", .str pluginId)]
    expected
  acceptPluginCommand principalId commandId commandType payload do
    let plugin? ← findActive principalId pluginId
    let (installation, version) ← Txn.getOr plugin? notInstalled
    let digest := installation.activeDigest
    Txn.require (expected.all (fun d ↦ d = digest) = true) digestChanged
    Txn.require (enabled = true → version.compatibility = .compatible)
      (.pluginState "plugin_incompatible" "plugin is incompatible with this Runtime")
    Txn.require (enabled = true → installation.retiredAt = none ∧ version.state ≠ .retired)
      (.pluginState "plugin_retired" "retired plugin cannot be enabled")
    Txn.require (enabled = true → version.manifest.needsModelBinding = true →
        installation.modelBinding.isSome = true)
      (.pluginState "plugin_model_binding_required"
        "plugin requires an explicit Vision model binding before enablement")
    Txn.when (installation.enabled ≠ enabled) do
      let updatedAt ← utcNow
      updateInstallation principalId pluginId fun i ↦
        { i with enabled := enabled, revision := i.revision + 1, updatedAt := updatedAt }
    let createdAt ← utcNow
    pure (.obj [("type", .str commandType), ("command_id", .str commandId),
      ("plugin_id", .str pluginId), ("digest", .str digest), ("enabled", .bool enabled)], createdAt)

/-- `{**model_binding, "id": binding_id}` as text. -/
def frozenBinding (binding : List (String × Json)) (bindingId : String) : Json :=
  encodePayload (withExtra binding [("id", .str bindingId)])

/-- `model_binding[key]` -/
def bindingField (binding : List (String × Json)) (key : String) : PluginTxn Json :=
  Txn.getOr ((Json.obj binding).get? key) (.keyError key)

/-- `bind_plugin_model_command` -/
def bindPluginModel (principalId commandId pluginId bindingId requestedModel : String)
    (binding : List (String × Json)) (expected : Option String) : PluginTxn (Json × Bool) := do
  let payload := installationPayload [("type", .str "plugin.model.bind"),
    ("plugin_id", .str pluginId), ("binding_id", .str bindingId),
    ("model", .str requestedModel)] expected
  let bindingJson := frozenBinding binding bindingId
  let now ← utcNow
  acceptPluginCommand principalId commandId "plugin.model.bind" payload do
    let plugin? ← findActive principalId pluginId
    let (installation, version) ← Txn.getOr plugin? notInstalled
    let digest := installation.activeDigest
    Txn.require (expected.all (fun d ↦ d = digest) = true) digestChanged
    Txn.require (installation.retiredAt = none ∧ version.state ≠ .retired)
      (.pluginState "plugin_retired" "retired plugin cannot be configured")
    Txn.require (version.executionKind = .managedWorker ∧
        version.manifest.needsModelBinding = true)
      (.pluginState "plugin_capability_denied" "plugin does not declare model.vision.invoke")
    let changed := installation.modelBinding ≠ some bindingJson
    let revision := installation.modelBindingRevision + if changed then 1 else 0
    Txn.when changed
      (updateInstallation principalId pluginId fun i ↦
        { i with modelBinding := some bindingJson, modelBindingRevision := revision,
                 revision := i.revision + 1, updatedAt := now })
    let connectionId ← bindingField binding "connection_id"
    let connectionVersion ← bindingField binding "connection_version"
    let modelId ← bindingField binding "model_id"
    pure (.obj [("type", .str "plugin.model.bind"), ("command_id", .str commandId),
      ("plugin_id", .str pluginId), ("digest", .str digest),
      ("model_binding_revision", .num revision),
      ("model_binding", .obj [("id", .str bindingId), ("requested_model", .str requestedModel),
        ("connection_id", connectionId), ("connection_version", connectionVersion),
        ("model_id", modelId)])], now)

/-- `discard_stale_fixed_capability` -/
def discardStaleFixedCapability (principalId pluginId : String) : PluginTxn Bool := do
  let row? ← findInstallation principalId pluginId
  match row?.filter fun i ↦ i.enabled && i.source = "runtime_builtin" with
  | none => pure false
  | some _ => do
    let updatedAt ← utcNow
    updateInstallation principalId pluginId fun i ↦
      { i with enabled := false, revision := i.revision + 1, updatedAt := updatedAt }
    pure true

inductive PluginOp where
  | install (principalId commandId : String) (payload : Json) (p : Package) (names : CommandNames)
  | update (principalId commandId : String) (payload : Json) (pluginId : String) (p : Package)
      (names : CommandNames)
  | rollback (principalId commandId pluginId targetDigest : String) (expected : Option String)
  | remove (principalId commandId pluginId : String) (expected : Option String)
  | setEnabled (principalId commandId commandType pluginId : String) (expected : Option String)
      (enabled : Bool)
  | bindModel (principalId commandId pluginId bindingId requestedModel : String)
      (binding : List (String × Json)) (expected : Option String)
  | discardStale (principalId pluginId : String)
  | transact (op : StoreOp)

def pluginEffect {α : Type} (m : PluginTxn α) : PluginTxn Unit := (fun _ ↦ ()) <$> m

def PluginOp.exec : PluginOp → PluginTxn Unit
  | install principalId commandId payload p names =>
    pluginEffect (installPlugin principalId commandId payload p names)
  | update principalId commandId payload pluginId p names =>
    pluginEffect (updatePlugin principalId commandId payload pluginId p names)
  | rollback principalId commandId pluginId targetDigest expected =>
    pluginEffect (rollbackPlugin principalId commandId pluginId targetDigest expected)
  | remove principalId commandId pluginId expected =>
    pluginEffect (removePlugin principalId commandId pluginId expected)
  | setEnabled principalId commandId commandType pluginId expected enabled =>
    pluginEffect (setPluginEnabled principalId commandId commandType pluginId expected enabled)
  | bindModel principalId commandId pluginId bindingId requestedModel binding expected =>
    pluginEffect
      (bindPluginModel principalId commandId pluginId bindingId requestedModel binding expected)
  | discardStale principalId pluginId =>
    pluginEffect (discardStaleFixedCapability principalId pluginId)
  | transact op => onStore op.exec

def PluginOp.after (op : PluginOp) (db : PluginDatabase) (w : World) : PluginDatabase :=
  (Txn.commit op.exec db w).2

def PluginDatabase.empty : PluginDatabase := ⟨Database.empty, Table.empty, Table.empty⟩

/-- The plugin store: any command next, from an empty database. -/
def pluginStore : System PluginDatabase (PluginOp × World) where
  initial db := db = .empty
  step i db db' := db' = i.1.after db i.2

end ShejaneRuntime.Plugins
