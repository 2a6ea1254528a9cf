import ShejaneRuntime.Lib.Checks
import ShejaneRuntime.Plugins.Values

/-!
# The frames of a managed worker

What the host checks of the frames a worker writes while an action runs: its
progress notifications, its call of the vision model, its result and the files
of that. Each check refuses with a protocol error; where it compares or hashes
a value it is not made for, the exception is another one.
-/

namespace ShejaneRuntime.Plugins

open Lib

inductive PyException where
  | typeError
  | overflowError
  | recursionError
  | valueError
  | osError
  deriving DecidableEq

/-- What the checks read of the invocation. -/
structure Invocation where
  invocationId : Text
  operationId : Text
  capabilities : List Text
  modelBindingId : Option Text
  inputIds : List Text
  outputMb : ℕ

abbrev WorkerCheck (α : Type) := Check PyException α

open Check

/-! ## Characters -/

def isLower (c : CodePoint) : Bool := 0x61 ≤ c.val && c.val ≤ 0x7A

def isUpper (c : CodePoint) : Bool := 0x41 ≤ c.val && c.val ≤ 0x5A

def isDigit (c : CodePoint) : Bool := 0x30 ≤ c.val && c.val ≤ 0x39

def isAnyOf (chars : String) (c : CodePoint) : Bool := (Text.ofString chars).contains c

/-- `[a-z][a-z0-9._-]{0,99}` -/
def isPhase : Text → Bool
  | [] => false
  | c :: rest => isLower c && rest.length ≤ 99 &&
      rest.all fun c ↦ isLower c || isDigit c || isAnyOf "._-" c

/-- `worker:[a-z0-9._:-]{1,80}` -/
def isRequestId (text : Text) : Bool :=
  let rest := text.drop 7
  text.take 7 = Text.ofString "worker:" && 1 ≤ rest.length && rest.length ≤ 80 &&
    rest.all fun c ↦ isLower c || isDigit c || isAnyOf "._:-" c

/-- `[A-Za-z0-9._-]{1,100}` -/
def isBindingId (text : Text) : Bool :=
  1 ≤ text.length && text.length ≤ 100 &&
    text.all fun c ↦ isLower c || isUpper c || isDigit c || isAnyOf "._-" c

/-! ## Progress -/

def progressRequired : List String :=
  ["schema_version", "invocation_id", "operation_id", "sequence", "phase"]

def progressOptional : List String := ["message", "completed", "total", "unit"]

/-- The params of a notification of progress. -/
def progressParams (frame : Fields) : Option Fields :=
  if (frame.get "method").isText "notifications/progress" then (frame.get "params").dict? else none

def progressMessageFits (message : Value) : Bool :=
  message.isNull || message.str?.any fun text ↦ text.length ≤ 500

def progressUnitFits (unit : Value) : Bool :=
  unit.isNull || unit.str?.any fun text ↦ text ≠ [] && text.length ≤ 64

/-- A measure is missing or a finite number from zero on; of an integer beyond the floats
`math.isfinite` raises. -/
def checkMeasure (value : Value) : WorkerCheck Unit :=
  match value with
  | .null => .ok ()
  | .int n =>
      if Value.overlarge n then raise .overflowError
      else require (0 ≤ n) "managed worker progress value is invalid"
  | .float (.finite q) => require (0 ≤ q) "managed worker progress value is invalid"
  | _ => refuse "managed worker progress value is invalid"

/-- `total is None or total > 0 and completed <= total` -/
def rangeFits (completed total : Value) : Bool :=
  total.isNull || 0 < total.rational && completed.rational ≤ total.rational

/-- `_progress_notification`: the number of the notification. -/
def progressNotification (invocation : Invocation) (previousSequence : ℕ) (frame : Fields) :
    WorkerCheck Fields := do
  require (frame.Includes ["jsonrpc", "method", "params"] ∧
      frame.Within ["jsonrpc", "method", "params"] ∧ (frame.get "jsonrpc").isText "2.0" = true)
    "managed worker progress notification is invalid"
  let params ← getOr (progressParams frame) "managed worker notification method is unsupported"
  require (params.Includes progressRequired ∧ params.Within (progressRequired ++ progressOptional))
    "managed worker progress payload is invalid"
  require ((params.get "schema_version").equalsInt 1 = true ∧
      (params.get "invocation_id").str? = some invocation.invocationId ∧
      (params.get "operation_id").str? = some invocation.operationId)
    "managed worker progress identity changed"
  require ((params.get "sequence").int? = some (previousSequence + 1))
    "managed worker progress sequence is invalid"
  require ((params.get "phase").str?.any isPhase = true) "managed worker progress phase is invalid"
  require (progressMessageFits (params.get "message") = true)
    "managed worker progress message is invalid"
  require (progressUnitFits (params.get "unit") = true) "managed worker progress unit is invalid"
  require ((params.get "total").isNull = true ∨ (params.get "completed").isNull = false)
    "managed worker progress total requires completed"
  checkMeasure (params.get "completed")
  checkMeasure (params.get "total")
  require (rangeFits (params.get "completed") (params.get "total") = true)
    "managed worker progress range is invalid"
  pure params

/-! ## The vision call -/

def visionRequired : List String :=
  ["model_binding_id", "input_ids", "task", "prompt", "max_output_tokens"]

def visionOptional : List String := ["temperature", "detail"]

/-- The inputs of a call: some of those authorized, each once. -/
def inputsFit (invocation : Invocation) (items : List Value) : Bool :=
  items.all (fun item ↦ item.str?.any fun id ↦
    id.length ≤ 128 && invocation.inputIds.contains id) &&
    (items.filterMap Value.str?).Nodup

/-- The ids are counted in a set before anything else is asked of them. -/
def checkInputs (invocation : Invocation) (value : Value) : WorkerCheck Unit := do
  let items ← getOr (value.list?.filter fun items ↦ 1 ≤ items.length && items.length ≤ 16)
    "managed worker vision inputs are invalid"
  if items.any fun item ↦ !item.hashable then raise .typeError
  else require (inputsFit invocation items = true) "managed worker vision inputs are invalid"

/-- `value not in {…}` -/
def checkMember (value : Value) (members : List String) (orNull : Bool) (message : String) :
    WorkerCheck Unit :=
  if value.hashable then
    require ((orNull && value.isNull || members.any value.isText) = true) message
  else raise .typeError

def checkTemperature (value : Value) : WorkerCheck Unit :=
  match value with
  | .null => .ok ()
  | .int n =>
      if Value.overlarge n then raise .overflowError
      else require (0 ≤ n ∧ n ≤ 2) "managed worker vision temperature is invalid"
  | .float (.finite q) => require (0 ≤ q ∧ q ≤ 2) "managed worker vision temperature is invalid"
  | _ => refuse "managed worker vision temperature is invalid"

/-- `_vision_request` -/
def visionRequest (invocation : Invocation) (frame : Fields) : WorkerCheck Fields := do
  require (frame.Includes ["jsonrpc", "id", "method", "params"] ∧
      frame.Within ["jsonrpc", "id", "method", "params"] ∧
      (frame.get "jsonrpc").isText "2.0" = true)
    "managed worker host request is invalid"
  require ((frame.get "id").str?.any isRequestId = true) "managed worker host request id is invalid"
  require ((frame.get "method").isText "model/vision/invoke" = true)
    "managed worker host request method is unsupported"
  require (Text.ofString "model.vision.invoke" ∈ invocation.capabilities)
    "managed worker vision host call was not granted"
  let params ← getOr ((frame.get "params").dict?.filter fun params ↦
      params.Within (visionRequired ++ visionOptional) && params.Includes visionRequired)
    "managed worker vision host-call params are invalid"
  require ((params.get "model_binding_id").str?.any isBindingId = true)
    "managed worker vision model binding is invalid"
  require ((params.get "model_binding_id").str? = invocation.modelBindingId)
    "managed worker vision model binding changed"
  checkInputs invocation (params.get "input_ids")
  checkMember (params.get "task") ["describe", "question"] false
    "managed worker vision task is invalid"
  require (((params.get "prompt").str?.any fun text ↦ text ≠ [] && text.length ≤ 8000) = true)
    "managed worker vision prompt is invalid"
  require (((params.get "max_output_tokens").int?.any fun n ↦ 1 ≤ n && n ≤ 8192) = true)
    "managed worker vision output limit is invalid"
  checkTemperature (params.get "temperature")
  checkMember (params.get "detail") ["auto", "low", "high", "original"] true
    "managed worker vision detail is invalid"
  pure params

/-! ## The result -/

/-- `_validate_result_identity` -/
def validateResultIdentity (invocation : Invocation) (value : Value) : WorkerCheck Fields := do
  let result ← getOr value.dict? "managed worker result must be an object"
  require ((result.get "invocation_id").str? = some invocation.invocationId)
    "managed worker changed invocation_id"
  require ((result.get "operation_id").str? = some invocation.operationId)
    "managed worker changed operation_id"
  checkMember (result.get "status") ["succeeded", "failed"] false
    "managed worker returned an invalid status"
  pure result

/-- What `resolve(strict=True).relative_to(output_root)` comes to. -/
inductive Resolution where
  | inside
  | outside
  | missing
  | failed
  deriving DecidableEq

/-- The directory of the outputs, by the parts of a path below it; nothing where the call
raises. -/
structure OutputFiles where
  isSymlink : List Text → Option Bool
  resolve : List Text → Resolution
  isFile : List Text → Option Bool
  size : List Text → Option ℕ

/-- The names between the slashes of a path; empty ones and `.` stand for nothing. -/
def pathNames (path : Text) : List Text :=
  (path.splitOn (CodePoint.ofChar '/')).filter fun name ↦ name ≠ [] && name ≠ Text.ofString "."

/-- `PurePosixPath(path).relative_to("/output")`; two slashes at the beginning are another root. -/
def relativeToOutput (path : Text) : Option (List Text) :=
  let slash := CodePoint.ofChar '/'
  let doubled := path.take 2 = [slash, slash] && path[2]? ≠ some slash
  if path.head? = some slash && !doubled then
    match pathNames path with
    | first :: rest => if first = Text.ofString "output" then some rest else none
    | [] => none
  else none

/-- The parts of a path below the outputs, without any that lead up. -/
def safeParts (path : Text) : WorkerCheck (List Text) := do
  let parts ← getOr (relativeToOutput path) "artifact is outside /output"
  require (parts ≠ [] ∧ Text.ofString ".." ∉ parts) "artifact path is unsafe"
  pure parts

/-- `for part in relative.parts: current /= part`: none of the paths is a link. -/
def checkLinks (files : OutputFiles) (current : List Text) : List Text → WorkerCheck Unit
  | [] => .ok ()
  | part :: parts =>
      match files.isSymlink (current ++ [part]) with
      | none => raise .osError
      | some true => refuse "artifact path contains a symlink"
      | some false => checkLinks files (current ++ [part]) parts

def checkResolution (files : OutputFiles) (parts : List Text) : WorkerCheck Unit :=
  match files.resolve parts with
  | .inside => .ok ()
  | .outside => refuse "artifact does not resolve inside /output"
  | .missing => refuse "artifact does not resolve inside /output"
  | .failed => raise .osError

def orOsError {α : Type} (answer : Option α) : WorkerCheck α :=
  match answer with
  | some a => .ok a
  | none => raise .osError

section Library

-- `str` of a value, nothing where it raises: the nesting of lists may be too deep for it
variable (str : Value → Option Text) (files : OutputFiles)

/-- `str(artifact["path"])` -/
def artifactPath (artifact : Value) : WorkerCheck Text :=
  match artifact with
  | .dict fields => do
      let path ← getOr (Fields.get? fields "path") "artifact is outside /output"
      match path with
      | .str text => .ok text
      | path => match str path with
          | some text => .ok text
          | none => raise .recursionError
  | _ => raise .typeError

/-- One turn of the loop over the artifacts: the size of the file. -/
def stagedArtifact (artifact : Value) : WorkerCheck ℕ := do
  let path ← artifactPath str artifact
  let parts ← safeParts path
  checkLinks files [] parts
  checkResolution files parts
  let isFile ← orOsError (files.isFile parts)
  require (isFile = true) "artifact candidate is not a regular file"
  orOsError (files.size parts)

def stagedSizes : List Value → WorkerCheck (List ℕ)
  | [] => .ok []
  | artifact :: artifacts => do
      let size ← stagedArtifact str files artifact
      let sizes ← stagedSizes artifacts
      pure (size :: sizes)

/-- What iterating over `result.get("artifacts", [])` gives. -/
def iterArtifacts (result : Fields) : WorkerCheck (List Value) :=
  match result.get? "artifacts" with
  | none => .ok []
  | some (.list items) => .ok items
  | some (.dict fields) => .ok (fields.map fun f ↦ .str f.1)
  | some (.str text) => .ok (text.map fun c ↦ .str [c])
  | some _ => raise .typeError

/-- `_validate_staged_artifacts` -/
def validateStagedArtifacts (result : Fields) (outputMb : ℕ) : WorkerCheck Unit := do
  let artifacts ← iterArtifacts result
  let sizes ← stagedSizes str files artifacts
  require (sizes.sum ≤ outputMb * 1024 * 1024) "artifact output limit exceeded"

end Library

end ShejaneRuntime.Plugins
