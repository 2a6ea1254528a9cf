import Mathlib
import ShejaneRuntime.Lib.FileTree
import ShejaneRuntime.Lib.Transition

/-!
# The artifact broker of the Linux launcher

The broker reads frames from the standard output of a sandboxed worker,
copies the artifacts that a response names from the private output directory
to the host output root, and forwards the frame. The worker may change the
private directory at any moment, so that what opening and reading an artifact
gives is an answer of its own each time.
-/

namespace ShejaneRuntime.Worker

open Lib

abbrev Bytes := List UInt8

/-- The host output root, whose names are byte strings. -/
abbrev HostTree := FileTree Bytes

/-- The descriptor of the host output root. -/
def hostRoot : ℕ := 0

/-! ## Paths -/

/-- `"/output/"` -/
def outputPrefix : Bytes := [47, 111, 117, 116, 112, 117, 116, 47]

/-- `strings.CutPrefix(artifact.Path, "/output/")` -/
def cutOutputPrefix (path : Bytes) : Option Bytes :=
  if outputPrefix.isPrefixOf path then some (path.drop outputPrefix.length) else none

/-- `strings.Split(path, "/")` -/
def splitPath (path : Bytes) : List Bytes := path.splitOn 47

/-- A part of a path that is neither empty, nor `.`, nor `..`, nor too long. -/
def validPart (part : Bytes) : Bool :=
  part ≠ [] && part ≠ [46] && part ≠ [46, 46] && part.length ≤ 255

/-- `validRelativePath`; the bytes not allowed are the backslash and zero. -/
def validRelativePath (path : Bytes) : Bool :=
  path ≠ [] && path.length ≤ 4096 && !path.contains 92 && !path.contains 0 &&
    (splitPath path).all validPart

/-! ## Frames -/

/-- What a frame says as `workerResponse`: its id, and the paths of the
artifacts of its result. -/
structure WorkerResponse where
  id : ℤ
  artifacts : Option (List Bytes)

inductive ReadFrame where
  | eof
  | failed
  | frame (frame rest : Bytes)

/-- `readFrame`: up to and with the next newline. -/
def readFrame (limit : ℕ) (input : Bytes) : ReadFrame :=
  match input.span fun b ↦ b ≠ 10 with
  | ([], []) => .eof
  | (_, []) => .failed
  | (line, newline :: rest) =>
    if line.length + 1 > limit then .failed else .frame (line ++ [newline]) rest

/-- The artifacts a frame has copied: those of a response to the invocation. -/
def declaredArtifacts (unmarshal : Bytes → Option WorkerResponse) (frame : Bytes) : List Bytes :=
  match unmarshal frame with
  | some ⟨2, some artifacts⟩ => artifacts
  | _ => []

/-! ## The answers of the system -/

/-- What an opened artifact turns out to be: what `Stat` says, what reading it
gives until its end, and after how many bytes writing the copy fails. -/
structure Source where
  statFails : Bool
  regular : Bool
  size : ℤ
  bytes : Bytes
  writeFailsAfter : Option ℕ
  syncFails : Bool

/-- For one artifact: what `openArtifact` gives, and which calls on the host
fail of their own. -/
structure Answer where
  source : Option Source
  mkdirFails : Bytes → Bool
  createFails : Bool

/-- For one frame: whether the private root opens, the answers for its
artifacts, and whether the frame is forwarded. -/
structure Answers where
  rootOpens : Bool
  artifact : ℕ → Answer
  forwards : Bool

/-! ## Copying -/

/-- A file the broker created, with what it has written to it. -/
structure Created where
  parts : List Bytes
  directory : ℕ
  inode : ℕ
  bytes : Bytes
  complete : Bool

structure Copying where
  host : HostTree
  created : List Created
  seen : List Bytes
  total : ℕ

/-- The directories of an artifact on the host, made where they are missing. -/
def descend (mkdirFails : Bytes → Bool) (host : HostTree) (directory : ℕ) :
    List Bytes → HostTree × Option ℕ
  | [] => (host, some directory)
  | part :: rest =>
    match host.openDir directory part with
    | .ok next => descend mkdirFails host next rest
    | .error .noent =>
      if mkdirFails part then (host, none)
      else
        match host.mkdirAt directory part with
        | .error _ => (host, none)
        | .ok host' =>
          match host'.openDir directory part with
          | .ok next => descend mkdirFails host' next rest
          | .error _ => (host', none)
    | .error _ => (host, none)

/-- `io.CopyN(destination, source, size)`: what reaches the destination. -/
def copyN (source : Source) : Bytes :=
  let bytes := source.bytes.take source.size.toNat
  match source.writeFailsAfter with
  | none => bytes
  | some n => bytes.take n

/-- Copy one opened artifact of the given parts. -/
def copyArtifact (c : Copying) (parts : List Bytes) (answer : Answer) (source : Source) :
    Copying × Bool :=
  match descend answer.mkdirFails c.host hostRoot parts.dropLast with
  | (host, none) => ({ c with host := host }, false)
  | (host, some directory) =>
    let name := parts.getLastD []
    if answer.createFails then ({ c with host := host }, false)
    else
      match host.createExclusive directory name with
      | .error _ => ({ c with host := host }, false)
      | .ok host' =>
        let bytes := copyN source
        let complete := bytes.length = source.size.toNat && !source.syncFails
        let written := host'.setBytes host.next bytes
        ({ c with
            host := if complete then written else written.unlink directory name,
            created := c.created ++ [⟨parts, directory, host.next, bytes, complete⟩] },
          complete)

/-- The body of the loop of `copyDeclaredArtifacts`. -/
def copyDeclared (outputBytes : ℕ) (c : Copying) (path : Bytes) (answer : Answer) :
    Copying × Bool :=
  match cutOutputPrefix path with
  | none => (c, false)
  | some relative =>
    if !validRelativePath relative || c.seen.contains relative then (c, false)
    else
      match answer.source with
      | none => ({ c with seen := c.seen ++ [relative] }, false)
      | some source =>
        -- the total stays below the limit, so that the difference does not wrap
        if source.statFails || !source.regular || source.size < 0 ||
            outputBytes - c.total < source.size.toNat then
          ({ c with seen := c.seen ++ [relative] }, false)
        else
          copyArtifact { c with seen := c.seen ++ [relative], total := c.total + source.size.toNat }
            (splitPath relative) answer source

/-- The loop of `copyDeclaredArtifacts`: it ends at the first failure. -/
def copyAll (outputBytes : ℕ) (answers : ℕ → Answer) (c : Copying) (k : ℕ) :
    List Bytes → Copying × Bool
  | [] => (c, true)
  | path :: rest =>
    match copyDeclared outputBytes c path (answers k) with
    | (c', true) => copyAll outputBytes answers c' (k + 1) rest
    | (c', false) => (c', false)

/-! ## The broker -/

structure Limits where
  outputBytes : ℕ
  maxFrameBytes : ℕ

structure State where
  input : Bytes
  host : HostTree
  created : List Created
  forwarded : List Bytes
  stopped : Bool

/-- `copyDeclaredArtifacts`: what is seen and the total start afresh. -/
def copyDeclaredArtifacts (unmarshal : Bytes → Option WorkerResponse) (limits : Limits)
    (answers : Answers) (s : State) (frame : Bytes) : State × Bool :=
  let paths := declaredArtifacts unmarshal frame
  if paths = [] then (s, true)
  else if paths.length > 256 then (s, false)
  else if !answers.rootOpens then (s, false)
  else
    let (c, ok) := copyAll limits.outputBytes answers.artifact ⟨s.host, s.created, [], 0⟩ 0 paths
    ({ s with host := c.host, created := c.created }, ok)

/-- One turn of the loop of `runBroker`. -/
def State.turn (unmarshal : Bytes → Option WorkerResponse) (limits : Limits) (answers : Answers)
    (s : State) : Option State :=
  if s.stopped then none
  else
    match readFrame limits.maxFrameBytes s.input with
    | .eof | .failed => some { s with stopped := true }
    | .frame frame rest =>
      match copyDeclaredArtifacts unmarshal limits answers { s with input := rest } frame with
      | (s', false) => some { s' with stopped := true }
      | (s', true) =>
        if answers.forwards then some { s' with forwarded := s'.forwarded ++ [frame] }
        else some { s' with stopped := true }

/-- The broker on any output of the worker, over a host tree whose root is a
directory. -/
def broker (unmarshal : Bytes → Option WorkerResponse) (limits : Limits) (host : HostTree) :
    System State Answers where
  initial s := (host.entries? hostRoot).isSome = true ∧ ∃ input, s = ⟨input, host, [], [], false⟩
  step answers s s' := s.turn unmarshal limits answers = some s'

end ShejaneRuntime.Worker
