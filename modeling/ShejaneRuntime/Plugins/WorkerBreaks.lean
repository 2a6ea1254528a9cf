import ShejaneRuntime.Plugins.WorkerProtocol

/-!
# What breaks the checks of a frame

The values on which a check of the host ends with another exception than the
protocol error: integers too large for a float, lists and dicts where a value is
looked up in a set, artifacts that are no dicts, and calls of the file system
that fail in another way than the checks expect.
-/

namespace ShejaneRuntime.Plugins

open Lib Check

variable {invocation : Invocation} {previousSequence : ℕ} {frame params result : Fields}
  {value completed total artifact : Value} {str : Value → Option Text} {files : OutputFiles}
  {parts current : List Text} {artifacts : List Value} {outputMb : ℕ}

/-! ## Progress -/

/-- A measure that passes: missing, or a finite number from zero on. -/
def Measured (value : Value) : Prop :=
  value = .null ∨ (∃ n, value = .int n ∧ Value.overlarge n = false ∧ 0 ≤ n) ∨
    ∃ q, value = .float (.finite q) ∧ 0 ≤ q

theorem passes_checkMeasure : Passes (checkMeasure value) ↔ Measured value := by
  unfold checkMeasure Measured
  cases value with
  | int n => by_cases h : Value.overlarge n = true <;> simp [h]
  | float x => cases x <;> simp
  | _ => simp

theorem breaks_checkMeasure : Breaks (checkMeasure value) ↔ value.Overlarge := by
  unfold checkMeasure Value.Overlarge
  cases value with
  | int n => by_cases h : Value.overlarge n = true <;> simp [h]
  | float x => cases x <;> simp
  | _ => simp

/-- A notification whose parts are valid before its measures are looked at. -/
structure ProgressHead (invocation : Invocation) (previousSequence : ℕ) (frame params : Fields) :
    Prop where
  frame_keys : frame.Includes ["jsonrpc", "method", "params"] ∧
    frame.Within ["jsonrpc", "method", "params"] ∧ (frame.get "jsonrpc").isText "2.0" = true
  params_eq : progressParams frame = some params
  params_keys : params.Includes progressRequired ∧
    params.Within (progressRequired ++ progressOptional)
  identity : (params.get "schema_version").equalsInt 1 = true ∧
    (params.get "invocation_id").str? = some invocation.invocationId ∧
    (params.get "operation_id").str? = some invocation.operationId
  sequence : (params.get "sequence").int? = some (previousSequence + 1)
  phase : (params.get "phase").str?.any isPhase = true
  message : progressMessageFits (params.get "message") = true
  unit : progressUnitFits (params.get "unit") = true
  completed : (params.get "total").isNull = true ∨ (params.get "completed").isNull = false

/-- A notification that is valid as a whole. -/
def ProgressValid (invocation : Invocation) (previousSequence : ℕ) (frame params : Fields) : Prop :=
  ProgressHead invocation previousSequence frame params ∧ Measured (params.get "completed") ∧
    Measured (params.get "total") ∧
    rangeFits (params.get "completed") (params.get "total") = true

/-- A measure is an integer beyond the floats. -/
def ProgressBreaks (invocation : Invocation) (previousSequence : ℕ) (frame : Fields) : Prop :=
  ∃ params, ProgressHead invocation previousSequence frame params ∧
    ((params.get "completed").Overlarge ∨
      Measured (params.get "completed") ∧ (params.get "total").Overlarge)

theorem exists_unit_ok {x : WorkerCheck Unit} {p : Prop} :
    (∃ u : Unit, x = .ok u ∧ p) ↔ Passes x ∧ p := by
  constructor
  · rintro ⟨u, hx, hp⟩
    exact ⟨⟨u, hx⟩, hp⟩
  · rintro ⟨⟨u, hx⟩, hp⟩
    exact ⟨u, hx, hp⟩

theorem progressNotification_eq_ok :
    progressNotification invocation previousSequence frame = .ok params ↔
      ProgressValid invocation previousSequence frame params := by
  unfold progressNotification ProgressValid
  simp only [bind_eq_ok, exists_unit_ok, passes_require, getOr_eq_ok, passes_checkMeasure]
  constructor
  · rintro ⟨h₁, params', h₂, h₃, h₄, h₅, h₆, h₇, h₈, h₉, h₁₀, h₁₁, h₁₂, hok⟩
    obtain rfl := Except.ok.inj hok
    exact ⟨⟨h₁, h₂, h₃, h₄, h₅, h₆, h₇, h₈, h₉⟩, h₁₀, h₁₁, h₁₂⟩
  · rintro ⟨h, hcompleted, htotal, hrange⟩
    exact ⟨h.frame_keys, params, h.params_eq, h.params_keys, h.identity, h.sequence, h.phase, h.message,
      h.unit, h.completed, hcompleted, htotal, hrange, rfl⟩

theorem breaks_progressNotification :
    Breaks (progressNotification invocation previousSequence frame) ↔
      ProgressBreaks invocation previousSequence frame := by
  unfold progressNotification ProgressBreaks
  simp only [breaks_bind, exists_unit_ok, passes_require, breaks_require, getOr_eq_ok,
    breaks_getOr, false_or, passes_checkMeasure, breaks_checkMeasure, breaks_pure, and_false,
    exists_false, or_false]
  constructor
  · rintro ⟨h₁, params, h₂, h₃, h₄, h₅, h₆, h₇, h₈, h₉, hbreaks⟩
    exact ⟨params, ⟨h₁, h₂, h₃, h₄, h₅, h₆, h₇, h₈, h₉⟩, hbreaks⟩
  · rintro ⟨params, h, hbreaks⟩
    exact ⟨h.frame_keys, params, h.params_eq, h.params_keys, h.identity, h.sequence, h.phase, h.message,
      h.unit, h.completed, hbreaks⟩

/-! ## The vision call -/

/-- A list or dict, which has no hash. -/
def Unhashable (value : Value) : Prop := value.hashable = false

theorem passes_checkMember {members : List String} {orNull : Bool} {message : String} :
    Passes (checkMember value members orNull message) ↔
      (orNull && value.isNull || members.any value.isText) = true := by
  unfold checkMember
  cases value <;> simp [Value.hashable, Value.isNull, Value.isText, Value.str?]

theorem breaks_checkMember {members : List String} {orNull : Bool} {message : String} :
    Breaks (checkMember value members orNull message) ↔ Unhashable value := by
  unfold checkMember Unhashable
  cases h : value.hashable <;> simp

/-- Between one and sixteen inputs are named. -/
def inputsOf (value : Value) : Option (List Value) :=
  value.list?.filter fun items ↦ 1 ≤ items.length && items.length ≤ 16

/-- The inputs are some of those authorized. -/
def InputsFit (invocation : Invocation) (value : Value) : Prop :=
  ∃ items, inputsOf value = some items ∧ inputsFit invocation items = true

theorem hashable_of_inputsFit {items : List Value} (h : inputsFit invocation items = true) :
    (items.any fun item ↦ !item.hashable) = false := by
  unfold inputsFit at h
  rw [Bool.and_eq_true, List.all_eq_true] at h
  rw [List.any_eq_false]
  intro item hitem hunhashable
  have hstr := h.1 item hitem
  cases item <;> simp_all [Value.hashable, Value.str?]

theorem passes_checkInputs : Passes (checkInputs invocation value) ↔ InputsFit invocation value := by
  unfold checkInputs InputsFit inputsOf
  simp only [passes_bind, getOr_eq_ok]
  constructor
  · rintro ⟨items, hitems, h⟩
    refine ⟨items, hitems, ?_⟩
    split at h
    · exact absurd h (passes_raise _)
    · exact passes_require.mp h
  · rintro ⟨items, hitems, h⟩
    refine ⟨items, hitems, ?_⟩
    rw [if_neg (by rw [hashable_of_inputsFit h]; exact Bool.false_ne_true)]
    exact passes_require.mpr h

theorem breaks_checkInputs : Breaks (checkInputs invocation value) ↔
    ∃ items, inputsOf value = some items ∧ ∃ item ∈ items, Unhashable item := by
  unfold checkInputs inputsOf Unhashable
  simp only [breaks_bind, breaks_getOr, false_or, getOr_eq_ok]
  constructor
  · rintro ⟨items, hitems, h⟩
    refine ⟨items, hitems, ?_⟩
    split at h
    · rename_i hany
      simpa using hany
    · exact absurd h breaks_require
  · rintro ⟨items, hitems, h⟩
    refine ⟨items, hitems, ?_⟩
    rw [if_pos (by simpa using h)]
    exact breaks_raise _

/-- A temperature that passes. -/
def Tempered (value : Value) : Prop :=
  value = .null ∨ (∃ n, value = .int n ∧ Value.overlarge n = false ∧ 0 ≤ n ∧ n ≤ 2) ∨
    ∃ q, value = .float (.finite q) ∧ 0 ≤ q ∧ q ≤ 2

theorem passes_checkTemperature : Passes (checkTemperature value) ↔ Tempered value := by
  unfold checkTemperature Tempered
  cases value with
  | int n => by_cases h : Value.overlarge n = true <;> simp [h]
  | float x => cases x <;> simp
  | _ => simp

theorem breaks_checkTemperature : Breaks (checkTemperature value) ↔ value.Overlarge := by
  unfold checkTemperature Value.Overlarge
  cases value with
  | int n => by_cases h : Value.overlarge n = true <;> simp [h]
  | float x => cases x <;> simp
  | _ => simp

/-- The params of a call that is granted. -/
def visionParams (frame : Fields) : Option Fields :=
  (frame.get "params").dict?.filter fun params ↦
    params.Within (visionRequired ++ visionOptional) && params.Includes visionRequired

/-- A call whose parts are valid before its inputs are looked at. -/
structure VisionHead (invocation : Invocation) (frame params : Fields) : Prop where
  frame_keys : frame.Includes ["jsonrpc", "id", "method", "params"] ∧
    frame.Within ["jsonrpc", "id", "method", "params"] ∧
    (frame.get "jsonrpc").isText "2.0" = true
  id : (frame.get "id").str?.any isRequestId = true
  method : (frame.get "method").isText "model/vision/invoke" = true
  granted : Text.ofString "model.vision.invoke" ∈ invocation.capabilities
  params_eq : visionParams frame = some params
  binding : (params.get "model_binding_id").str?.any isBindingId = true
  same_binding : (params.get "model_binding_id").str? = invocation.modelBindingId

/-- The prompt and the limit of the output are valid. -/
def PromptFits (params : Fields) : Prop :=
  ((params.get "prompt").str?.any fun text ↦ text ≠ [] && text.length ≤ 8000) = true ∧
    ((params.get "max_output_tokens").int?.any fun n ↦ 1 ≤ n && n ≤ 8192) = true

def TaskFits (params : Fields) : Prop :=
  ["describe", "question"].any (params.get "task").isText = true

def DetailFits (params : Fields) : Prop :=
  ((params.get "detail").isNull ||
    ["auto", "low", "high", "original"].any (params.get "detail").isText) = true

/-- A call that is valid as a whole. -/
structure VisionValid (invocation : Invocation) (frame params : Fields) : Prop where
  head : VisionHead invocation frame params
  inputs : InputsFit invocation (params.get "input_ids")
  task : TaskFits params
  prompt : PromptFits params
  temperature : Tempered (params.get "temperature")
  detail : DetailFits params

/-- What is looked up in a set has no hash, or the temperature is an integer beyond the floats. -/
def VisionBreaks (invocation : Invocation) (frame : Fields) : Prop :=
  ∃ params, VisionHead invocation frame params ∧
    ((∃ items, inputsOf (params.get "input_ids") = some items ∧ ∃ item ∈ items, Unhashable item) ∨
      InputsFit invocation (params.get "input_ids") ∧
        (Unhashable (params.get "task") ∨ TaskFits params ∧ PromptFits params ∧
          ((params.get "temperature").Overlarge ∨
            Tempered (params.get "temperature") ∧ Unhashable (params.get "detail"))))

theorem visionRequest_eq_ok :
    visionRequest invocation frame = .ok params ↔ VisionValid invocation frame params := by
  unfold visionRequest
  simp only [bind_eq_ok, exists_unit_ok, passes_require, getOr_eq_ok, passes_checkInputs,
    passes_checkMember, passes_checkTemperature, Bool.false_and, Bool.false_or, Bool.true_and]
  constructor
  · rintro ⟨h₁, h₂, h₃, h₄, params', h₅, h₆, h₇, h₈, h₉, h₁₀, h₁₁, h₁₂, h₁₃, hok⟩
    obtain rfl := Except.ok.inj hok
    exact ⟨⟨h₁, h₂, h₃, h₄, h₅, h₆, h₇⟩, h₈, h₉, ⟨h₁₀, h₁₁⟩, h₁₂, h₁₃⟩
  · rintro ⟨h, hinputs, htask, hprompt, htemperature, hdetail⟩
    exact ⟨h.frame_keys, h.id, h.method, h.granted, params, h.params_eq, h.binding, h.same_binding,
      hinputs, htask, hprompt.1, hprompt.2, htemperature, hdetail, rfl⟩

theorem breaks_visionRequest :
    Breaks (visionRequest invocation frame) ↔ VisionBreaks invocation frame := by
  unfold visionRequest VisionBreaks
  simp only [breaks_bind, exists_unit_ok, passes_require, breaks_require, getOr_eq_ok,
    breaks_getOr, false_or, passes_checkInputs, breaks_checkInputs, passes_checkMember, breaks_checkMember,
    passes_checkTemperature, breaks_checkTemperature, breaks_pure, and_false, exists_false, or_false,
    Bool.false_and, Bool.false_or]
  constructor
  · rintro ⟨h₁, h₂, h₃, h₄, params, h₅, h₆, h₇, hbreaks⟩
    refine ⟨params, ⟨h₁, h₂, h₃, h₄, h₅, h₆, h₇⟩, ?_⟩
    rcases hbreaks with h | ⟨hinputs, h | ⟨htask, hprompt, htokens, h⟩⟩
    · exact .inl h
    · exact .inr ⟨hinputs, .inl h⟩
    · exact .inr ⟨hinputs, .inr ⟨htask, ⟨hprompt, htokens⟩, h⟩⟩
  · rintro ⟨params, h, hbreaks⟩
    refine ⟨h.frame_keys, h.id, h.method, h.granted, params, h.params_eq, h.binding, h.same_binding, ?_⟩
    rcases hbreaks with h | ⟨hinputs, h | ⟨htask, ⟨hprompt, htokens⟩, h⟩⟩
    · exact .inl h
    · exact .inr ⟨hinputs, .inl h⟩
    · exact .inr ⟨hinputs, .inr ⟨htask, hprompt, htokens, h⟩⟩

/-! ## The result -/

/-- A result that carries the ids of the invocation. -/
def ResultHead (invocation : Invocation) (value : Value) (result : Fields) : Prop :=
  value.dict? = some result ∧
    (result.get "invocation_id").str? = some invocation.invocationId ∧
    (result.get "operation_id").str? = some invocation.operationId

def StatusFits (result : Fields) : Prop :=
  ["succeeded", "failed"].any (result.get "status").isText = true

theorem validateResultIdentity_eq_ok :
    validateResultIdentity invocation value = .ok result ↔
      ResultHead invocation value result ∧ StatusFits result := by
  unfold validateResultIdentity ResultHead StatusFits
  simp only [bind_eq_ok, exists_unit_ok, passes_require, getOr_eq_ok, passes_checkMember,
    Bool.false_and, Bool.false_or]
  constructor
  · rintro ⟨result', h₁, h₂, h₃, h₄, hok⟩
    obtain rfl := Except.ok.inj hok
    exact ⟨⟨h₁, h₂, h₃⟩, h₄⟩
  · rintro ⟨⟨h₁, h₂, h₃⟩, h₄⟩
    exact ⟨result, h₁, h₂, h₃, h₄, rfl⟩

theorem breaks_validateResultIdentity :
    Breaks (validateResultIdentity invocation value) ↔
      ∃ result, ResultHead invocation value result ∧ Unhashable (result.get "status") := by
  unfold validateResultIdentity ResultHead
  simp only [breaks_bind, exists_unit_ok, passes_require, breaks_require, getOr_eq_ok,
    breaks_getOr, false_or, breaks_checkMember, breaks_pure, and_false, exists_false, or_false]
  constructor
  · rintro ⟨result, h₁, h₂, h₃, hbreaks⟩
    exact ⟨result, ⟨h₁, h₂, h₃⟩, hbreaks⟩
  · rintro ⟨result, ⟨h₁, h₂, h₃⟩, hbreaks⟩
    exact ⟨result, h₁, h₂, h₃, hbreaks⟩

/-! ## The files of a result -/

/-- The path an artifact names, as text. -/
def PathOf (str : Value → Option Text) (artifact : Value) (path : Text) : Prop :=
  ∃ fields named, artifact = .dict fields ∧ Fields.get? fields "path" = some named ∧
    (named = .str path ∨ named.str? = none ∧ str named = some path)

/-- An artifact is no dict, or its path has no text. -/
def PathBreaks (str : Value → Option Text) (artifact : Value) : Prop :=
  artifact.dict? = none ∨ ∃ fields named, artifact = .dict fields ∧
    Fields.get? fields "path" = some named ∧ named.str? = none ∧ str named = none

theorem artifactPath_eq_ok {path : Text} :
    artifactPath str artifact = .ok path ↔ PathOf str artifact path := by
  unfold artifactPath PathOf
  cases artifact with
  | dict fields =>
      simp only [bind_eq_ok, getOr_eq_ok, Value.dict.injEq]
      constructor
      · rintro ⟨named, hnamed, h⟩
        refine ⟨fields, named, rfl, hnamed, ?_⟩
        cases named with
        | str text => exact .inl (congrArg Value.str (Except.ok.inj h))
        | _ =>
            right
            refine ⟨rfl, ?_⟩
            dsimp only at h
            split at h
            · rename_i hstr
              rw [hstr, Except.ok.inj h]
            · cases h
      · rintro ⟨_, named, rfl, hnamed, rfl | ⟨hstr, htext⟩⟩
        · exact ⟨_, hnamed, rfl⟩
        · refine ⟨named, hnamed, ?_⟩
          cases named with
          | str text => cases hstr
          | _ =>
              dsimp only
              rw [htext]
  | _ =>
      constructor
      · intro h
        cases h
      · rintro ⟨_, _, h, _⟩
        cases h

theorem breaks_artifactPath : Breaks (artifactPath str artifact) ↔ PathBreaks str artifact := by
  unfold artifactPath PathBreaks
  cases artifact with
  | dict fields =>
      simp only [breaks_bind, breaks_getOr, getOr_eq_ok, false_or, Value.dict?, reduceCtorEq,
        Value.dict.injEq]
      constructor
      · rintro ⟨named, hnamed, h⟩
        refine ⟨fields, named, rfl, hnamed, ?_⟩
        cases named with
        | str text => exact absurd h (breaks_ok text)
        | _ =>
            refine ⟨rfl, ?_⟩
            dsimp only at h
            split at h
            · exact absurd h (breaks_ok _)
            · assumption
      · rintro ⟨_, named, rfl, hnamed, hstr, htext⟩
        refine ⟨named, hnamed, ?_⟩
        cases named with
        | str text => cases hstr
        | _ =>
            dsimp only
            rw [htext]
            exact breaks_raise _
  | _ => exact ⟨fun _ ↦ .inl rfl, fun _ ↦ breaks_raise _⟩

/-- A path below the outputs, without any part that leads up. -/
def SafeParts (path : Text) (parts : List Text) : Prop :=
  relativeToOutput path = some parts ∧ parts ≠ [] ∧ Text.ofString ".." ∉ parts

theorem safeParts_eq_ok {path : Text} : safeParts path = .ok parts ↔ SafeParts path parts := by
  unfold safeParts SafeParts
  simp only [bind_eq_ok, exists_unit_ok, passes_require, getOr_eq_ok]
  constructor
  · rintro ⟨parts', h₁, h₂, hok⟩
    obtain rfl := Except.ok.inj hok
    exact ⟨h₁, h₂⟩
  · rintro ⟨h₁, h₂⟩
    exact ⟨parts, h₁, h₂, rfl⟩

theorem not_breaks_safeParts (path : Text) : ¬ Breaks (safeParts path) := by
  unfold safeParts
  simp only [breaks_bind, breaks_getOr, breaks_require, breaks_pure, and_false, exists_false,
    or_false, not_false_eq_true]

/-- None of the paths down to the last part is a link. -/
def Unlinked (files : OutputFiles) (current : List Text) : List Text → Prop
  | [] => True
  | part :: parts => files.isSymlink (current ++ [part]) = some false ∧
      Unlinked files (current ++ [part]) parts

/-- On the way down a call fails before there is a link. -/
def LinksBreak (files : OutputFiles) (current : List Text) : List Text → Prop
  | [] => False
  | part :: parts => files.isSymlink (current ++ [part]) = none ∨
      files.isSymlink (current ++ [part]) = some false ∧
        LinksBreak files (current ++ [part]) parts

theorem passes_checkLinks :
    Passes (checkLinks files current parts) ↔ Unlinked files current parts := by
  induction parts generalizing current with
  | nil => simp [checkLinks, Unlinked]
  | cons part parts ih =>
      unfold checkLinks Unlinked
      cases h : files.isSymlink (current ++ [part]) with
      | none => simp
      | some linked => cases linked <;> simp [ih]

theorem breaks_checkLinks :
    Breaks (checkLinks files current parts) ↔ LinksBreak files current parts := by
  induction parts generalizing current with
  | nil => simp [checkLinks, LinksBreak]
  | cons part parts ih =>
      unfold checkLinks LinksBreak
      cases h : files.isSymlink (current ++ [part]) with
      | none => simp
      | some linked => cases linked <;> simp [ih]

/-- An artifact is a regular file below the outputs, with its size. -/
structure Staged (str : Value → Option Text) (files : OutputFiles) (artifact : Value)
    (parts : List Text) (size : ℕ) : Prop where
  path : ∃ path, PathOf str artifact path ∧ SafeParts path parts
  unlinked : Unlinked files [] parts
  inside : files.resolve parts = .inside
  isFile : files.isFile parts = some true
  size : files.size parts = some size

/-- An artifact for which a check is not made. -/
def StagedBreaks (str : Value → Option Text) (files : OutputFiles) (artifact : Value) : Prop :=
  PathBreaks str artifact ∨ ∃ path parts, PathOf str artifact path ∧ SafeParts path parts ∧
    (LinksBreak files [] parts ∨ Unlinked files [] parts ∧ (files.resolve parts = .failed ∨
      files.resolve parts = .inside ∧ (files.isFile parts = none ∨
        files.isFile parts = some true ∧ files.size parts = none)))

theorem passes_checkResolution :
    Passes (checkResolution files parts) ↔ files.resolve parts = .inside := by
  unfold checkResolution
  cases files.resolve parts <;> simp

theorem breaks_checkResolution :
    Breaks (checkResolution files parts) ↔ files.resolve parts = .failed := by
  unfold checkResolution
  cases files.resolve parts <;> simp

theorem orOsError_eq_ok {α : Type} {answer : Option α} {a : α} :
    orOsError answer = .ok a ↔ answer = some a := by
  unfold orOsError
  cases answer with
  | none =>
      constructor
      · intro h
        cases h
      · intro h
        cases h
  | some b =>
      constructor
      · intro h
        cases h
        rfl
      · intro h
        cases h
        rfl

theorem breaks_orOsError {α : Type} {answer : Option α} :
    Breaks (orOsError answer) ↔ answer = none := by
  unfold orOsError
  cases answer <;> simp

theorem stagedArtifact_eq_ok {size : ℕ} :
    stagedArtifact str files artifact = .ok size ↔
      ∃ parts, Staged str files artifact parts size := by
  unfold stagedArtifact
  simp only [bind_eq_ok, exists_unit_ok, passes_require, artifactPath_eq_ok, safeParts_eq_ok,
    passes_checkLinks, passes_checkResolution, orOsError_eq_ok]
  constructor
  · rintro ⟨path, hpath, parts, hparts, hlinks, hinside, isFile, hisFile, rfl, hsize⟩
    exact ⟨parts, ⟨path, hpath, hparts⟩, hlinks, hinside, hisFile, hsize⟩
  · rintro ⟨parts, ⟨path, hpath, hparts⟩, hlinks, hinside, hisFile, hsize⟩
    exact ⟨path, hpath, parts, hparts, hlinks, hinside, true, hisFile, rfl, hsize⟩

theorem breaks_stagedArtifact :
    Breaks (stagedArtifact str files artifact) ↔ StagedBreaks str files artifact := by
  unfold stagedArtifact StagedBreaks
  simp only [breaks_bind, exists_unit_ok, passes_require, breaks_require, false_or,
    breaks_artifactPath, artifactPath_eq_ok, not_breaks_safeParts, safeParts_eq_ok,
    passes_checkLinks, breaks_checkLinks, passes_checkResolution, breaks_checkResolution,
    breaks_orOsError, orOsError_eq_ok]
  constructor
  · rintro (h | ⟨path, hpath, parts, hparts, h⟩)
    · exact .inl h
    · refine .inr ⟨path, parts, hpath, hparts, ?_⟩
      rcases h with h | ⟨hlinks, h | ⟨hinside, h | ⟨isFile, hisFile, rfl, h⟩⟩⟩
      · exact .inl h
      · exact .inr ⟨hlinks, .inl h⟩
      · exact .inr ⟨hlinks, .inr ⟨hinside, .inl h⟩⟩
      · exact .inr ⟨hlinks, .inr ⟨hinside, .inr ⟨hisFile, h⟩⟩⟩
  · rintro (h | ⟨path, parts, hpath, hparts, h⟩)
    · exact .inl h
    · refine .inr ⟨path, hpath, parts, hparts, ?_⟩
      rcases h with h | ⟨hlinks, h | ⟨hinside, h | ⟨hisFile, h⟩⟩⟩
      · exact .inl h
      · exact .inr ⟨hlinks, .inl h⟩
      · exact .inr ⟨hlinks, .inr ⟨hinside, .inl h⟩⟩
      · exact .inr ⟨hlinks, .inr ⟨hinside, .inr ⟨true, hisFile, rfl, h⟩⟩⟩

theorem stagedSizes_eq_ok {sizes : List ℕ} :
    stagedSizes str files artifacts = .ok sizes ↔
      List.Forall₂ (fun artifact size ↦ ∃ parts, Staged str files artifact parts size)
        artifacts sizes := by
  induction artifacts generalizing sizes with
  | nil =>
      constructor
      · intro h
        obtain rfl := Except.ok.inj h
        exact .nil
      · rintro ⟨⟩
        rfl
  | cons artifact artifacts ih =>
      unfold stagedSizes
      simp only [bind_eq_ok, stagedArtifact_eq_ok, ih]
      constructor
      · rintro ⟨size, hsize, sizes', hsizes, hok⟩
        obtain rfl := Except.ok.inj hok
        exact .cons hsize hsizes
      · rintro (_ | ⟨hsize, hsizes⟩)
        exact ⟨_, hsize, _, hsizes, rfl⟩

/-- The first artifact that does not pass is one for which a check is not made. -/
theorem breaks_stagedSizes :
    Breaks (stagedSizes str files artifacts) ↔ ∃ before artifact after,
      artifacts = before ++ artifact :: after ∧
        (∀ a ∈ before, ∃ parts size, Staged str files a parts size) ∧
        StagedBreaks str files artifact := by
  induction artifacts with
  | nil =>
      constructor
      · exact fun h ↦ absurd h (breaks_ok _)
      · rintro ⟨before, artifact, after, h, _⟩
        simp at h
  | cons first artifacts ih =>
      unfold stagedSizes
      simp only [breaks_bind, breaks_stagedArtifact, stagedArtifact_eq_ok, ih, breaks_pure, and_false,
        exists_false, or_false]
      constructor
      · rintro (h | ⟨size, ⟨parts, hstaged⟩, before, artifact, after, rfl, hbefore, hbreaks⟩)
        · exact ⟨[], first, artifacts, rfl, by simp, h⟩
        · refine ⟨first :: before, artifact, after, rfl, ?_, hbreaks⟩
          rintro a (_ | ⟨_, ha⟩)
          · exact ⟨parts, size, hstaged⟩
          · exact hbefore a ha
      · rintro ⟨before, artifact, after, heq, hbefore, hbreaks⟩
        cases before with
        | nil =>
            obtain ⟨rfl, rfl⟩ := List.cons.inj heq
            exact .inl hbreaks
        | cons a before =>
            obtain ⟨rfl, rfl⟩ := List.cons.inj heq
            obtain ⟨parts, size, hstaged⟩ := hbefore first List.mem_cons_self
            exact .inr ⟨size, ⟨parts, hstaged⟩, before, artifact, after, rfl,
              fun b hb ↦ hbefore b (List.mem_cons_of_mem _ hb), hbreaks⟩

/-- There are artifacts, and they are nothing that can be gone through. -/
def Uncountable (result : Fields) : Prop :=
  ∃ value, result.get? "artifacts" = some value ∧ value.list? = none ∧ value.dict? = none ∧
    value.str? = none

theorem breaks_iterArtifacts : Breaks (iterArtifacts result) ↔ Uncountable result := by
  unfold iterArtifacts Uncountable
  cases h : result.get? "artifacts" with
  | none => simp
  | some value => cases value <;> simp [Value.list?, Value.dict?, Value.str?]

end ShejaneRuntime.Plugins
