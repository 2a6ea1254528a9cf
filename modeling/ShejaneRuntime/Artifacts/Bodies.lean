import ShejaneRuntime.Lib.Transition
import ShejaneRuntime.Store.Schema

/-!
# Bodies of artifacts and run inputs

A body is promoted under a key made of its digest before the transaction
that inserts its row, and a collection removes the old bodies that no row
named when it read the rows. A step is one access to the disk or one
statement, so that creations and collections interleave between them.
-/

namespace ShejaneRuntime.Artifacts

open Lib Store

/-- The directories beside the database that hold bodies. -/
inductive Root where
  | artifacts | inputs
  deriving DecidableEq, Repr

/-- `MAX_BLOB_ARTIFACT_BYTES` and `MAX_RUN_INPUT_BYTES` -/
def Root.maxBytes : Root → ℕ
  | artifacts => 2 * 1024 * 1024 * 1024
  | inputs => 200 * 1024 * 1024

/-- A blob key by the parts of its path. -/
abbrev BlobKey := List String

/-- The file name is the digest, in a directory of its first two digits. -/
def blobKey (sha256 : String) : BlobKey := ["sha256", (sha256.take 2).toString, sha256]

structure BodyFile where
  content : List UInt8
  mtime : Time

/-- What a row records of its body. -/
structure BodyRow where
  root : Root
  blobKey : BlobKey
  bytes : ℕ
  sha256 : String

/-! ## Creations -/

/-- How far a creation has come. `look` is the test `destination.exists()`. -/
inductive Creation.Phase where
  | copied | present | absent
  | promoted (promotedAt : Time)
  | ended
  deriving DecidableEq

/-- A file artifact or a run input under way, from the copy of its source on. -/
structure Creation where
  root : Root
  content : List UInt8
  writtenAt : Time
  phase : Creation.Phase

/-! ## Collections -/

inductive Collection.Phase where
  | begun | readArtifacts | readInputs
  | scanning (takenAt : Time)
  deriving DecidableEq

/-- `gc_orphan_bodies` under way: the keys it has read, and the candidate it
has judged and not yet removed. -/
structure Collection where
  phase : Collection.Phase
  referenced : Root → List BlobKey
  scanned : ℕ
  deleted : ℕ
  doomed : Option (Root × BlobKey)

/-- `max_scan` and `max_delete` -/
def maxScan : ℕ := 10000
def maxDelete : ℕ := 256

structure State where
  files : Root → BlobKey → Option BodyFile
  rows : List BodyRow
  creations : List Creation
  collections : List Collection

def State.initial : State := ⟨fun _ _ ↦ none, [], [], []⟩

/-- The keys that the rows of a root name. -/
def State.blobKeys (s : State) (root : Root) : List BlobKey :=
  (s.rows.filter fun r ↦ r.root = root).map BodyRow.blobKey

/-- The disk with one file replaced or removed. -/
def State.setFile (s : State) (root : Root) (key : BlobKey) (file : Option BodyFile) : State :=
  { s with files := fun root' key' ↦
      if root' = root ∧ key' = key then file else s.files root' key' }

def State.setCreation (s : State) (i : ℕ) (c : Creation) : State :=
  { s with creations := s.creations.set i c }

def State.setCollection (s : State) (j : ℕ) (g : Collection) : State :=
  { s with collections := s.collections.set j g }

inductive Action where
  | copy (root : Root) (content : List UInt8) (expectedSha256 : Option String) (writtenAt : Time)
  | look (i : ℕ)
  | verify (i : ℕ) (now : Time)
  | place (i : ℕ) (now : Time)
  | insert (i : ℕ) (now : Time)
  | fail (i : ℕ)
  | collect
  | readArtifacts (j : ℕ)
  | readInputs (j : ℕ)
  | takeTime (j : ℕ) (now : Time)
  | judge (j : ℕ) (root : Root) (key : BlobKey)
  | remove (j : ℕ)

section Steps

variable (sha256Hex : List UInt8 → String) (grace : Time)

def Creation.sha256 (c : Creation) : String := sha256Hex c.content

def Creation.key (c : Creation) : BlobKey := blobKey (c.sha256 sha256Hex)

def Creation.row (c : Creation) : BodyRow :=
  ⟨c.root, c.key sha256Hex, c.content.length, c.sha256 sha256Hex⟩

/-- `file_identity` of a file that is already there. -/
def Creation.sameIdentity (c : Creation) (f : BodyFile) : Bool :=
  f.content.length = c.content.length && sha256Hex f.content = c.sha256 sha256Hex

/-- `stat.st_mtime > cutoff` -/
def youngAt (grace : Time) (f : BodyFile) (takenAt : Time) : Bool := takenAt < f.mtime + grace

/-- The step of a creation. A row is inserted within the grace period of the
promotion of its body. -/
def Creation.step (c : Creation) (s : State) (i : ℕ) : Action → Option State
  | .look _ =>
    if c.phase = .copied then
      some (s.setCreation i { c with
        phase := if (s.files c.root (c.key sha256Hex)).isSome then .present else .absent })
    else none
  | .verify _ now =>
    if c.phase = .present then
      -- a file that is gone or differs fails the creation
      match s.files c.root (c.key sha256Hex) with
      | none => some (s.setCreation i { c with phase := .ended })
      | some f => some (s.setCreation i { c with
          phase := if c.sameIdentity sha256Hex f then .promoted now else .ended })
    else none
  | .place _ now =>
    if c.phase = .absent then
      some ((s.setFile c.root (c.key sha256Hex) (some ⟨c.content, c.writtenAt⟩)).setCreation i
        { c with phase := .promoted now })
    else none
  | .insert _ now =>
    match c.phase with
    | .promoted promotedAt =>
      if now ≤ promotedAt + grace then
        some { s.setCreation i { c with phase := .ended } with
          rows := s.rows ++ [c.row sha256Hex] }
      else none
    | _ => none
  | .fail _ => some (s.setCreation i { c with phase := .ended })
  | _ => none

/-- The step of a collection. -/
def Collection.step (g : Collection) (s : State) (j : ℕ) : Action → Option State
  | .readArtifacts _ =>
    if g.phase = .begun then
      some (s.setCollection j { g with
        phase := .readArtifacts,
        referenced := fun root ↦ if root = .artifacts then s.blobKeys .artifacts else [] })
    else none
  | .readInputs _ =>
    if g.phase = .readArtifacts then
      some (s.setCollection j { g with
        phase := .readInputs,
        referenced := fun root ↦
          if root = .inputs then s.blobKeys .inputs else g.referenced root })
    else none
  | .takeTime _ now =>
    if g.phase = .readInputs then some (s.setCollection j { g with phase := .scanning now })
    else none
  | .judge _ root key =>
    match g.phase with
    | .scanning takenAt =>
      if g.doomed = none ∧ g.scanned < maxScan ∧ g.deleted < maxDelete then
        let old := (s.files root key).any fun f ↦ !youngAt grace f takenAt
        some (s.setCollection j { g with
          scanned := g.scanned + 1,
          doomed := if old && !(g.referenced root).contains key then some (root, key) else none })
      else none
    | _ => none
  | .remove _ =>
    match g.doomed with
    | some (root, key) =>
      some ((s.setFile root key none).setCollection j { g with
        deleted := g.deleted + 1, doomed := none })
    | none => none
  | _ => none

/-- One step, or `none` where it is not the turn of the one it names. -/
def State.after (s : State) (a : Action) : Option State :=
  match a with
  | .copy root content expectedSha256 writtenAt =>
    if content.length ≤ root.maxBytes ∧ expectedSha256.all fun d ↦ d = sha256Hex content then
      some { s with creations := s.creations ++ [⟨root, content, writtenAt, .copied⟩] }
    else none
  | .collect => some { s with collections := s.collections ++ [⟨.begun, fun _ ↦ [], 0, 0, none⟩] }
  | .look i | .verify i _ | .place i _ | .insert i _ | .fail i =>
    (s.creations[i]?).bind fun c ↦ c.step sha256Hex grace s i a
  | .readArtifacts j | .readInputs j | .takeTime j _ | .judge j _ _ | .remove j =>
    (s.collections[j]?).bind fun g ↦ g.step grace s j a

/-- Creations and collections in any interleaving, at any clock readings. -/
def store : System State Action where
  initial s := s = State.initial
  step a s s' := s.after sha256Hex grace a = some s'

end Steps

end ShejaneRuntime.Artifacts
