import ShejaneRuntime.Plugins.Installations

/-!
# The package registry

A command that installs or updates a plugin first puts the content of the
package into a directory named by its digest, then commits the rows, and
removes the directory again if the store refuses. Commands of any number of
principals interleave at these points, and each may stop at any of them.
-/

namespace ShejaneRuntime.Plugins

open Lib Store

/-- The plugins that the Runtime manages itself. -/
def builtinPluginIds : List String :=
  ["org.shejane.computer-use", "org.shejane.browser-qa", "org.shejane.ocr"]

/-- The arguments of `install`, or of `update` for the plugin it names. -/
structure PackageRequest where
  principalId : String
  commandId : String
  pluginId : Option String
  sourcePath : String
  expectedDigest : Option String
  allowUnsigned : Bool

def PackageRequest.commandType (r : PackageRequest) : String :=
  if r.pluginId.isNone then "plugin.install" else "plugin.update"

def PackageRequest.payload (r : PackageRequest) : Json :=
  installationPayload
    ([("type", .str r.commandType)] ++ (r.pluginId.map fun p ↦ ("plugin_id", Json.str p)).toList ++
      [("source_path", .str r.sourcePath), ("allow_unsigned", .bool r.allowUnsigned)])
    r.expectedDigest

/-- A package archive that could be read and checked. -/
structure Archive (γ : Type) where
  content : γ
  manifest : PackageManifest
  signerKeyId : Option String
  compatibility : Compatibility

variable {γ ι : Type}

/-- What `ingest_package` makes of an archive, unless it raises. -/
def PackageRequest.ingest (r : PackageRequest) (digestOf : γ → String) (a : Archive γ) :
    Option Package :=
  let digest := digestOf a.content
  let expected := if r.pluginId.isNone then r.expectedDigest else none
  if a.manifest.id ∈ builtinPluginIds then none
  else if expected.any fun d ↦ d ≠ digest then none
  else if a.signerKeyId.isNone && !r.allowUnsigned then none
  else some
    { manifest := a.manifest, digest := digest
      signatureStatus := if a.signerKeyId.isSome then .verified else .unsigned
      signerKeyId := a.signerKeyId, compatibility := a.compatibility, source := "local_file" }

/-- The store command of a request. -/
def PackageRequest.storeCommand (r : PackageRequest) (p : Package) : PluginTxn (Json × Bool) :=
  match r.pluginId with
  | none => installPlugin r.principalId r.commandId r.payload p
      ⟨"plugin.install", "plugin.install", []⟩
  | some pluginId => updatePlugin r.principalId r.commandId r.payload pluginId p
      ⟨"plugin.update", "plugin.update", []⟩

/-- The errors after which a request cleans up. -/
def PackageRequest.catches (r : PackageRequest) : StoreError → Bool
  | .pluginVersionConflict _ => true
  | .pluginState _ _ => r.pluginId.isSome
  | _ => false

structure PreparedPackage where
  package : Package
  createdBlob : Bool

/-- Where a command is. -/
inductive CommandPoint where
  | check
  | ingest
  | commit (p : PreparedPackage)
  | discard (p : PreparedPackage)
  | succeeded
  | failed (p : Option PreparedPackage)

def CommandPoint.ended : CommandPoint → Bool
  | .succeeded | .failed _ => true
  | _ => false

/-- The package that a command in flight has placed or found. -/
def CommandPoint.prepared : CommandPoint → Option PreparedPackage
  | .commit p | .discard p => some p
  | _ => none

/-- The plugin store, the directories by digest, and the commands. -/
structure RegistryState (γ ι : Type) where
  db : PluginDatabase
  packages : String → Option γ
  commands : ι → Option (PackageRequest × CommandPoint)

inductive RegistryAct (γ ι : Type) where
  | begin (t : ι) (r : PackageRequest)
  | check (t : ι)
  | ingest (t : ι) (archive : Option (Archive γ))
  | commit (t : ι)
  | discard (t : ι)
  | stop (t : ι)
  | transact (op : PluginOp)

/-- The store commands that place no files. -/
def PluginOp.fileFree : PluginOp → Bool
  | .install _ _ _ _ _ | .update _ _ _ _ _ _ => false
  | _ => true

section

variable [DecidableEq ι]

def RegistryState.goOn (c : RegistryState γ ι) (t : ι) (r : PackageRequest) (next : CommandPoint) :
    RegistryState γ ι :=
  { c with commands := Function.update c.commands t (some (r, next)) }

/-- Whether the command was accepted before. -/
def RegistryState.replays (c : RegistryState γ ι) (r : PackageRequest) (w : World) : CommandPoint :=
  if r.pluginId.any fun p ↦ p ∈ builtinPluginIds then .failed none
  else
    match (Txn.commit (acceptedCommandReceiptUncommitted r.principalId r.commandId r.commandType
      (encodePayload r.payload)) c.db.store w).1 with
    | .ok (some _) => .succeeded
    | .ok none => .ingest
    | .error _ => .failed none

/-- Place the content of a package, unless its directory is there. -/
def RegistryState.place (c : RegistryState γ ι) (t : ι) (r : PackageRequest) (digest : String)
    (content : γ) (p : Package) : RegistryState γ ι :=
  match c.packages digest with
  | some _ => c.goOn t r (.commit ⟨p, false⟩)
  | none =>
    { c with packages := Function.update c.packages digest (some content) }.goOn t r
      (.commit ⟨p, true⟩)

/-- `discard_new_blob` -/
def RegistryState.discardNewBlob (c : RegistryState γ ι) (p : PreparedPackage) :
    RegistryState γ ι :=
  if p.createdBlob then
    { c with packages := Function.update c.packages p.package.digest none }
  else c

def RegistryAct.apply (digestOf : γ → String) (act : RegistryAct γ ι) (w : World)
    (c : RegistryState γ ι) : Option (RegistryState γ ι) :=
  match act with
  | .begin t r =>
    if (c.commands t).all fun x ↦ x.2.ended then some (c.goOn t r .check) else none
  | .check t =>
    match c.commands t with
    | some (r, .check) => some (c.goOn t r (c.replays r w))
    | _ => none
  | .ingest t archive =>
    match c.commands t with
    | some (r, .ingest) =>
      match archive.bind fun a ↦ (r.ingest digestOf a).map fun p ↦ (a, p) with
      | some (a, p) => some (c.place t r (digestOf a.content) a.content p)
      | none => some (c.goOn t r (.failed none))
    | _ => none
  | .commit t =>
    match c.commands t with
    | some (r, .commit p) =>
      match Txn.commit (r.storeCommand p.package) c.db w with
      | (.ok _, db) => some ({ c with db := db }.goOn t r .succeeded)
      | (.error e, db) => some ({ c with db := db }.goOn t r
          (if r.catches e then .discard p else .failed (some p)))
    | _ => none
  | .discard t =>
    match c.commands t with
    | some (r, .discard p) => some ((c.discardNewBlob p).goOn t r (.failed (some p)))
    | _ => none
  | .stop t =>
    match c.commands t with
    | some (r, point) => if point.ended then none else some (c.goOn t r (.failed point.prepared))
    | none => none
  | .transact op => if op.fileFree then some { c with db := op.after c.db w } else none

/-- The registry: commands of any tasks, from an empty data directory. -/
def registry (digestOf : γ → String) : System (RegistryState γ ι) (RegistryAct γ ι × World) where
  initial c := c = ⟨.empty, fun _ ↦ none, fun _ ↦ none⟩
  step i c c' := i.1.apply digestOf i.2 c = some c'

end

end ShejaneRuntime.Plugins
