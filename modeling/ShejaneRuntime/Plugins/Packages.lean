import ShejaneRuntime.Store.RunControl

/-!
# Plugin versions and installations

Versions of plugins are shared by all principals, installations belong to
one. The store installs, updates, rolls back and removes them, each in one
transaction that leaves a command receipt.
-/

namespace ShejaneRuntime.Plugins

open Lib Store

inductive ExecutionKind where
  | wasi | managedWorker | builtin
  deriving DecidableEq

inductive SignatureStatus where
  | unsigned | verified
  deriving DecidableEq

inductive Compatibility where
  | compatible | incompatible
  deriving DecidableEq

inductive VersionState where
  | installed | retired
  deriving DecidableEq

structure PackageAction where
  id : String
  capabilities : List String

/-- What the store reads of a manifest. -/
structure PackageManifest where
  id : String
  version : String
  executionKind : ExecutionKind
  actions : List PackageAction

/-- Some action declares `model.vision.invoke`. -/
def PackageManifest.needsModelBinding (m : PackageManifest) : Bool :=
  m.actions.any fun a ↦ a.capabilities.contains "model.vision.invoke"

structure PackageVersion where
  pluginId : String
  version : String
  digest : String
  manifest : PackageManifest
  executionKind : ExecutionKind
  signatureStatus : SignatureStatus
  signerKeyId : Option String
  compatibility : Compatibility
  source : String
  state : VersionState
  createdAt : Time
  updatedAt : Time
  retiredAt : Option Time

structure Installation where
  principalId : String
  pluginId : String
  activeDigest : String
  enabled : Bool
  source : String
  revision : ℕ
  modelBinding : Option Json
  modelBindingRevision : ℕ
  createdAt : Time
  updatedAt : Time
  retiredAt : Option Time

def Installation.key (i : Installation) : String × String := (i.principalId, i.pluginId)

/-- The tables of the plugin store, beside all others. -/
structure PluginDatabase where
  store : Database
  versions : Table PackageVersion.digest
  installations : Table Installation.key

abbrev PluginTxn := Txn PluginDatabase World StoreError

/-! ## Statements -/

def onStore {α : Type} (m : StoreTxn α) : PluginTxn α :=
  Txn.zoom PluginDatabase.store (fun db store ↦ { db with store := store }) m

def insertVersion (v : PackageVersion) : PluginTxn Unit := do
  let clash ← Txn.read fun db ↦ db.versions.rows.any fun r ↦
    r.pluginId = v.pluginId && r.version = v.version
  Txn.require (clash = false) (uniqueFailed "plugin_versions.plugin_id, plugin_versions.version")
  Txn.attempt (fun db ↦ (db.versions.insert? v).map fun versions ↦ { db with versions := versions })
    (uniqueFailed "plugin_versions.digest")

/-- The version an installation names must exist. -/
def requireVersionRow (digest : String) : PluginTxn Unit := do
  let version ← Txn.read fun db ↦ db.versions.find? digest
  Txn.require (version.isSome = true) (.integrityError "FOREIGN KEY constraint failed")

def insertInstallation (i : Installation) : PluginTxn Unit := do
  requireVersionRow i.activeDigest
  Txn.attempt
    (fun db ↦ (db.installations.insert? i).map fun installations ↦
      { db with installations := installations })
    (uniqueFailed "plugin_installations.principal_id, plugin_installations.plugin_id")

/-- `WHERE principal_id = ? AND plugin_id = ?` -/
def findInstallation (principalId pluginId : String) : PluginTxn (Option Installation) :=
  Txn.read fun db ↦ db.installations.find? (principalId, pluginId)

def updateInstallation (principalId pluginId : String) (f : Installation → Installation)
    (hf : ∀ i, (f i).key = i.key := by intro; rfl) : PluginTxn Unit :=
  Txn.write fun db ↦ { db with
    installations := db.installations.update (fun i ↦ i.key = (principalId, pluginId)) f hf }

def setVersionState (digest : String) (state : VersionState) (retiredAt : Option Time)
    (now : Time) : PluginTxn Unit :=
  Txn.write fun db ↦ { db with
    versions := db.versions.update (fun v ↦ v.digest = digest) fun v ↦
      { v with state := state, retiredAt := retiredAt, updatedAt := now } }

/-- `SET active_digest = ?, revision = revision + 1, updated_at = ?` -/
def setActiveDigest (principalId pluginId digest : String) (now : Time) : PluginTxn Unit := do
  requireVersionRow digest
  updateInstallation principalId pluginId fun i ↦
    { i with activeDigest := digest, revision := i.revision + 1, updatedAt := now }

/-! ## Commands -/

/-- The frame of the plugin commands: a repetition returns the receipt. The
handler gives a receipt and when it was made. -/
def acceptPluginCommand (principalId commandId commandType : String) (payload : Json)
    (handle : PluginTxn (Json × Time)) : PluginTxn (Json × Bool) := do
  let existing ← onStore (acceptedCommandReceiptUncommitted principalId commandId commandType
    (encodePayload payload))
  match existing with
  | some receipt => pure (receipt, false)
  | none => do
    let (receipt, createdAt) ← handle
    onStore (recordCommandReceiptUncommitted principalId commandId commandType
      (encodePayload payload) receipt createdAt none)
    pure (receipt, true)

/-- `receipt.update(receipt_extra)` -/
def withExtra (receipt extra : List (String × Json)) : Json :=
  .obj (receipt.filter (fun p ↦ !extra.any fun q ↦ q.1 == p.1) ++ extra)

/-- A package as it comes to the store. -/
structure Package where
  manifest : PackageManifest
  digest : String
  signatureStatus : SignatureStatus
  signerKeyId : Option String
  compatibility : Compatibility
  source : String

def Package.newVersion (p : Package) (pluginId : String) (now : Time) : PackageVersion where
  pluginId := pluginId
  version := p.manifest.version
  digest := p.digest
  manifest := p.manifest
  executionKind := p.manifest.executionKind
  signatureStatus := p.signatureStatus
  signerKeyId := p.signerKeyId
  compatibility := p.compatibility
  source := p.source
  state := .installed
  createdAt := now
  updatedAt := now
  retiredAt := none

/-- How the caller of `install` and `update` names its command. -/
structure CommandNames where
  commandType : String
  receiptType : String
  receiptExtra : List (String × Json) := []

/-- The version under a plugin and its version number. -/
def boundVersion (db : PluginDatabase) (pluginId version : String) : Option PackageVersion :=
  db.versions.rows.find? fun v ↦ v.pluginId = pluginId && v.version = version

def contentConflict (pluginId version : String) : StoreError :=
  .pluginVersionConflict s!"plugin {pluginId} version {version} already has different content"

/-- `install_plugin_command`, if the command is new. -/
def installUncommitted (principalId commandId : String) (p : Package) (names : CommandNames)
    (now : Time) : PluginTxn (Json × Time) := do
  let bound ← Txn.read fun db ↦ boundVersion db p.manifest.id p.manifest.version
  Txn.require (bound.all (fun v ↦ v.digest = p.digest) = true)
    (contentConflict p.manifest.id p.manifest.version)
  let byDigest ← Txn.read fun db ↦ db.versions.find? p.digest
  Txn.require (byDigest.all (fun v ↦ v.pluginId = p.manifest.id &&
      v.version = p.manifest.version) = true)
    (.pluginVersionConflict "plugin digest is bound to another identity")
  Txn.when (bound.isNone = true) (insertVersion (p.newVersion p.manifest.id now))
  let installation ← findInstallation principalId p.manifest.id
  Txn.require (installation.all (fun i ↦ i.activeDigest = p.digest) = true)
    (.pluginVersionConflict
      s!"plugin {p.manifest.id} is already installed; use plugin.update")
  match installation with
  | none =>
    insertInstallation
      { principalId := principalId, pluginId := p.manifest.id, activeDigest := p.digest,
        enabled := false, source := p.source, revision := 1, modelBinding := none,
        modelBindingRevision := 0, createdAt := now, updatedAt := now, retiredAt := none }
  | some i =>
    Txn.when (i.retiredAt.isSome = true) do
      updateInstallation principalId p.manifest.id fun i ↦
        { i with retiredAt := none, revision := i.revision + 1, updatedAt := now }
      setVersionState p.digest .installed none now
  pure (withExtra [("type", .str names.receiptType), ("command_id", .str commandId),
    ("plugin_id", .str p.manifest.id), ("version", .str p.manifest.version),
    ("digest", .str p.digest), ("installed", .bool true),
    ("enabled", .bool ((installation.map Installation.enabled).getD false))]
    names.receiptExtra, now)

/-- `install_plugin_command` -/
def installPlugin (principalId commandId : String) (payload : Json) (p : Package)
    (names : CommandNames) : PluginTxn (Json × Bool) := do
  let now ← utcNow
  acceptPluginCommand principalId commandId names.commandType payload
    (installUncommitted principalId commandId p names now)

def notInstalled : StoreError := .pluginState "plugin_not_found" "plugin is not installed"

def digestChanged : StoreError :=
  .pluginState "plugin_digest_mismatch" "plugin active digest changed"

/-- The installation that `update` and `rollback` change. -/
def changeableInstallation (principalId pluginId : String) : PluginTxn Installation := do
  let installation? ← findInstallation principalId pluginId
  let installation ← Txn.getOr installation? notInstalled
  Txn.require (installation.retiredAt.isNone = true)
    (.pluginState "plugin_retired" "retired plugin must be reinstalled")
  pure installation

/-- `payload.get("expected_digest", payload.get("expected_active_digest"))` -/
def expectedDigest (payload : Json) : Option Json :=
  (payload.get? "expected_digest").or (payload.get? "expected_active_digest")

/-- `update_plugin_command`, if the command is new. -/
def updateUncommitted (principalId commandId : String) (payload : Json) (pluginId : String)
    (p : Package) (names : CommandNames) (now : Time) : PluginTxn (Json × Time) := do
  let installation ← changeableInstallation principalId pluginId
  Txn.require (expectedDigest payload ∈ [none, some .null,
      some (.str installation.activeDigest)]) digestChanged
  Txn.require (p.manifest.id = pluginId)
    (.pluginState "plugin_identity_mismatch" "update package has a different plugin id")
  Txn.require (p.compatibility = .compatible)
    (.pluginState "plugin_incompatible" "update is incompatible with this Runtime")
  let bound ← Txn.read fun db ↦ boundVersion db pluginId p.manifest.version
  Txn.require (bound.all (fun v ↦ v.digest = p.digest) = true)
    (contentConflict pluginId p.manifest.version)
  match bound with
  | none => insertVersion (p.newVersion pluginId now)
  | some _ => setVersionState p.digest .installed none now
  setActiveDigest principalId pluginId p.digest now
  pure (withExtra [("type", .str names.receiptType), ("command_id", .str commandId),
    ("plugin_id", .str pluginId), ("version", .str p.manifest.version),
    ("previous_digest", .str installation.activeDigest), ("digest", .str p.digest),
    ("enabled", .bool installation.enabled)] names.receiptExtra, now)

/-- `update_plugin_command` -/
def updatePlugin (principalId commandId : String) (payload : Json) (pluginId : String)
    (p : Package) (names : CommandNames) : PluginTxn (Json × Bool) := do
  let now ← utcNow
  acceptPluginCommand principalId commandId names.commandType payload
    (updateUncommitted principalId commandId payload pluginId p names now)

/-- The payload of a command on an installation. -/
def installationPayload (fields : List (String × Json)) (expected : Option String) : Json :=
  .obj (fields ++ (expected.map fun d ↦ ("expected_digest", Json.str d)).toList)

/-- `rollback_plugin_command` -/
def rollbackPlugin (principalId commandId pluginId targetDigest : String)
    (expected : Option String) : PluginTxn (Json × Bool) := do
  let payload := installationPayload [("type", .str "plugin.rollback"),
    ("plugin_id", .str pluginId), ("target_digest", .str targetDigest)] expected
  let now ← utcNow
  acceptPluginCommand principalId commandId "plugin.rollback" payload do
    let installation ← changeableInstallation principalId pluginId
    Txn.require (expected.all (fun d ↦ d = installation.activeDigest) = true) digestChanged
    let target? ← Txn.read fun db ↦
      (db.versions.find? targetDigest).filter fun v ↦ v.pluginId = pluginId
    let target ← Txn.getOr target?
      (.pluginState "plugin_version_unavailable" "rollback target is not installed")
    Txn.require (target.compatibility = .compatible)
      (.pluginState "plugin_incompatible" "rollback target is incompatible")
    setVersionState targetDigest .installed none now
    setActiveDigest principalId pluginId targetDigest now
    pure (.obj [("type", .str "plugin.rollback"), ("command_id", .str commandId),
      ("plugin_id", .str pluginId), ("version", .str target.version),
      ("previous_digest", .str installation.activeDigest), ("digest", .str targetDigest),
      ("enabled", .bool installation.enabled)], now)

/-- `remove_plugin_command`: the version is retired with its last user. -/
def removePlugin (principalId commandId pluginId : String) (expected : Option String) :
    PluginTxn (Json × Bool) := do
  let payload := installationPayload [("type", .str "plugin.remove"),
    ("plugin_id", .str pluginId)] expected
  let now ← utcNow
  acceptPluginCommand principalId commandId "plugin.remove" payload do
    let installation? ← findInstallation principalId pluginId
    let installation ← Txn.getOr installation? notInstalled
    let digest := installation.activeDigest
    Txn.require (expected.all (fun d ↦ d = digest) = true) digestChanged
    updateInstallation principalId pluginId fun i ↦
      { i with enabled := false, retiredAt := some now, revision := i.revision + 1,
               updatedAt := now }
    let activeCount ← Txn.read fun db ↦ db.installations.rowcount fun i ↦
      i.activeDigest = digest && i.retiredAt.isNone
    Txn.when (activeCount = 0) (setVersionState digest .retired (some now) now)
    pure (.obj [("type", .str "plugin.remove"), ("command_id", .str commandId),
      ("plugin_id", .str pluginId), ("digest", .str digest), ("retired", .bool true),
      ("enabled", .bool false)], now)

end ShejaneRuntime.Plugins
