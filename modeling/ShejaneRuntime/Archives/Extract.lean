import ShejaneRuntime.Lib.CodePoints
import ShejaneRuntime.Lib.Disk
import Mathlib.Data.List.DropRight

/-!
# Extracting a canonical archive

The entries of a ZIP are checked one by one, sorted into directories, files and
links, and made in this order below a new directory. When anything fails after
the directory was made, it is removed with all that is in it.
-/

namespace ShejaneRuntime.Archives

open Lib

abbrev Bytes := List UInt8

abbrev Tree := PathTree Text Bytes

abbrev Files := Disk Text Bytes

abbrev Path := List (Step Text)

/-- An exception that reading a member raises: an `OSError`, or one of `zipfile` or of the
decompressor. -/
inductive ReadError where
  | os (message : String)
  | other (exception : String)
  deriving DecidableEq

/-- What reading a member gives: the exception that opening it raises, or chunks and the
exception that ends them. -/
structure Stream where
  openFailure : Option ReadError := none
  chunks : List Bytes
  failure : Option ReadError := none

/-- A `zipfile.ZipInfo` and what reading it gives. -/
structure Member where
  filename : Text
  externalAttr : ℕ
  flagBits : ℕ
  fileSize : ℕ
  content : Stream

/-- A file that may be a ZIP; `members` is `infolist()` when it can be read. -/
structure ZipFile where
  size : ℕ
  members : Option (List Member)

/-- `unicodedata.normalize("NFC", ·)` and `str.casefold` -/
structure Unicode where
  nfc : Text → Text
  casefold : Text → Text

inductive Failure where
  | invalid (message : String)
  | os (errno : PathErrno)
  | read (exception : ReadError)
  deriving DecidableEq

abbrev Action (α : Type) := Call Failure Files α

/-- The keyword arguments of `extract_canonical_archive`. -/
structure Options where
  requiredManifest : Text
  maxArchiveBytes : ℕ
  maxTotalBytes : ℕ
  archiveLabel : String
  allowInternalSymlinks : Bool := false
  maxFiles : ℕ := 10000

def slash : CodePoint := CodePoint.ofChar '/'

def backslash : CodePoint := CodePoint.ofChar '\\'

/-- `text.split("/")` -/
def splitPath (text : Text) : List Text := text.splitOn slash

def dot : Text := Text.ofString "."

def dotdot : Text := Text.ofString ".."

/-- A name with no meaning of its own. -/
def PlainName (name : Text) : Prop := name ≠ [] ∧ name ≠ dot ∧ name ≠ dotdot

instance (name : Text) : Decidable (PlainName name) := by
  unfold PlainName
  infer_instance

/-- The path is written the one way it can be. -/
def Canonical (u : Unicode) (raw : Text) : Prop :=
  raw ≠ [] ∧ raw = u.nfc raw ∧ raw.head? ≠ some slash ∧ backslash ∉ raw ∧
    (∀ c ∈ raw, 32 ≤ c.val) ∧ ∀ part ∈ splitPath raw, PlainName part

instance (u : Unicode) (raw : Text) : Decidable (Canonical u raw) :=
  decidable_of_iff ((raw ≠ [] ∧ raw = u.nfc raw ∧ raw.head? ≠ some slash ∧ backslash ∉ raw) ∧
    (raw.all fun c ↦ 32 ≤ c.val) = true ∧ (splitPath raw).all (fun part ↦ PlainName part) = true)
    (by simp [Canonical, and_assoc])

/-! ## The modes of members -/

def modeOf (member : Member) : ℕ := (member.externalAttr >>> 16) &&& 0xFFFF

def fileType (mode : ℕ) : ℕ := mode &&& 0o170000

def ifReg : ℕ := 0o100000

def ifDir : ℕ := 0o040000

def ifLnk : ℕ := 0o120000

def isDirEntry (member : Member) : Bool := member.filename.getLast? = some slash

/-! ## Links -/

/-- `bytes.decode("utf-8")` -/
def decode (bytes : Bytes) : Option Text :=
  let octets := bytes.map UInt8.toNat
  let text := Text.decodeReplacing octets
  if text.encode = some octets then some text else none

/-- `archive.read(info).decode("utf-8")`, a text that can be the target of a link. -/
def linkTarget (member : Member) : Except Failure Text :=
  match member.content.openFailure.or member.content.failure with
  | some (.os _) => .error (.invalid "runtime asset link target is invalid")
  | some exception => .error (.read exception)
  | none =>
    match decode member.content.chunks.flatten with
    | none => .error (.invalid "runtime asset link target is invalid")
    | some target =>
      if target = [] ∨ target.head? = some slash ∨ backslash ∈ target ∨ CodePoint.ofChar '\x00' ∈ target then
        .error (.invalid "runtime asset link target is invalid")
      else .ok target

/-- How the system reads a path: empty components and dots are passed over. -/
def steps (text : Text) : Path :=
  ((splitPath text).filter fun part ↦ part ≠ [] ∧ part ≠ dot).map fun part ↦
    if part = dotdot then .up else .down part

def target (text : Text) : Target Text := ⟨text.head? = some slash, steps text⟩

/-! ## The scan of the members -/

structure Scan where
  files : List (Member × List Text) := []
  links : List (List Text × Text) := []
  directories : List (List Text) := []
  foldedPaths : List Text := []
  totalBytes : ℕ := 0

def scanMember (u : Unicode) (o : Options) (s : Scan) (member : Member) : Except Failure Scan :=
  let raw := member.filename.rdropWhile (· = slash)
  let parts := splitPath raw
  let fileType := fileType (modeOf member)
  if ¬Canonical u raw then .error (.invalid "plugin archive path is not canonical")
  else if u.casefold raw ∈ s.foldedPaths then
    .error (.invalid "plugin archive paths collide when case-folded")
  else if fileType ∉ [0, ifReg, ifDir] ∧ ¬(o.allowInternalSymlinks ∧ fileType = ifLnk) then
    .error (.invalid "plugin archives cannot contain links or special files")
  else if member.flagBits % 2 = 1 then .error (.invalid "encrypted plugin archives are unsupported")
  else
    let s := { s with foldedPaths := u.casefold raw :: s.foldedPaths }
    if isDirEntry member then .ok { s with directories := s.directories ++ [parts] }
    else
      let s := { s with totalBytes := s.totalBytes + member.fileSize }
      if s.totalBytes > o.maxTotalBytes then
        .error (.invalid (o.archiveLabel ++ " expanded size limit exceeded"))
      else if fileType = ifLnk then do
        let target ← linkTarget member
        return { s with links := s.links ++ [(parts, target)] }
      else .ok { s with files := s.files ++ [(member, parts)] }

def scan (u : Unicode) (o : Options) : Scan → List Member → Except Failure Scan
  | s, [] => .ok s
  | s, member :: members =>
    match scanMember u o s member with
    | .ok s' => scan u o s' members
    | .error e => .error e

/-- The checks before anything is made. -/
def check (u : Unicode) (o : Options) (source : Option ZipFile) (exists_ : Bool) :
    Except Failure Scan :=
  match source with
  | none => .error (.invalid (o.archiveLabel ++ " archive is missing or exceeds " ++
      toString (o.maxArchiveBytes / (1024 * 1024)) ++ " MiB"))
  | some zip =>
    if zip.size > o.maxArchiveBytes then
      .error (.invalid (o.archiveLabel ++ " archive is missing or exceeds " ++
        toString (o.maxArchiveBytes / (1024 * 1024)) ++ " MiB"))
    else if exists_ then .error (.invalid "plugin staging destination already exists")
    else
      match zip.members with
      | none => .error (.invalid "plugin archive is not a readable ZIP")
      | some members =>
        if members.length > o.maxFiles then .error (.invalid "plugin package file limit exceeded")
        else
          match scan u o {} members with
          | .error e => .error e
          | .ok s =>
            if s.files.any (fun file ↦ (Text.ofString "/").intercalate file.2 = o.requiredManifest) then
              .ok s
            else .error (.invalid (o.archiveLabel ++ " manifest is missing"))

/-! ## The passes -/

def below (destination : Path) (parts : List Text) : Path := destination ++ parts.map .down

/-- `path.mkdir(parents=True, exist_ok=...)` -/
def mkdirs (depth : ℕ) (existOk : Bool) (path : Path) : Action Unit :=
  Call.mapError .os (Disk.mkdirParents depth path.reverse existOk)

/-- The copying of a member into the file that was opened for it. -/
def copy (fileSize : ℕ) (place : Place Text) (failure : Option ReadError) :
    Bytes → List Bytes → Action Unit
  | written, [] =>
    match failure with
    | some exception => throw (.read exception)
    | none =>
      if written.length ≠ fileSize then
        throw (.invalid "plugin archive entry size changed while reading")
      else pure ()
  | written, chunk :: chunks =>
    if (written ++ chunk).length > fileSize then
      throw (.invalid "plugin archive entry exceeded declared size")
    else do
      modify fun s ↦ { s with tree := s.tree.setData place (written ++ chunk) }
      copy fileSize place failure (written ++ chunk) chunks

def writeFile (depth : ℕ) (destination : Path) (file : Member × List Text) : Action Unit := do
  mkdirs depth true (below destination file.2.dropLast)
  match file.1.content.openFailure with
  | some exception => throw (.read exception)
  | none =>
    let place ← Call.mapError .os (Disk.create depth (.file []) (below destination file.2))
    copy file.1.fileSize place file.1.content.failure [] file.1.content.chunks

def makeLink (depth : ℕ) (destination : Path) (link : List Text × Text) : Action Unit := do
  mkdirs depth true (below destination link.1.dropLast)
  let _ ← Call.mapError .os (Disk.create depth (.link (target link.2)) (below destination link.1))

/-- The link leads to something below the resolved root. -/
def checkLink (depth : ℕ) (destination : Path) (root : Place Text) (link : List Text × Text) :
    Action Unit := do
  let s ← get
  match s.tree.walk depth [] (below destination link.1) with
  | .ok place =>
    if root.isPrefixOf place then pure ()
    else throw (.invalid "runtime asset link escapes the asset")
  | .error _ => throw (.invalid "runtime asset link escapes the asset")

/-- The directories and the files, before any link is made. -/
def makePlain (depth : ℕ) (destination : Path) (s : Scan) : Action Unit := do
  (s.directories.mergeSort fun a b ↦ a.length ≤ b.length).forM fun parts ↦
    mkdirs depth true (below destination parts)
  s.files.forM (writeFile depth destination)

/-- The checks of the links, against the root as it resolves now. -/
def checkLinks (depth : ℕ) (destination : Path) (links : List (List Text × Text)) : Action Unit := do
  match (← get).tree.walk depth [] destination with
  | .ok root => links.forM (checkLink depth destination root)
  | .error e => throw (.os e)

def expand (depth : ℕ) (destination : Path) (s : Scan) : Action Unit := do
  makePlain depth destination s
  s.links.forM (makeLink depth destination)
  checkLinks depth destination s.links

/-- `Path.exists` -/
def pathExists (t : Tree) (depth : ℕ) (path : Path) : Bool :=
  match t.walk depth [] path with
  | .ok _ => true
  | .error _ => false

/-- What follows the checks: the destination is new, and goes again when anything fails. -/
def unpack (depth : ℕ) (destination : Path) (s : Scan) : Action Unit := do
  mkdirs depth false destination
  Call.onError (expand depth destination s) (Call.mapError .os (Disk.rmtree depth destination))

/-- `extract_canonical_archive` -/
def extractCanonicalArchive (u : Unicode) (depth : ℕ) (o : Options) (source : Option ZipFile)
    (destination : Path) : Action Unit := do
  match check u o source (pathExists (← get).tree depth destination) with
  | .error e => throw e
  | .ok s => unpack depth destination s

end ShejaneRuntime.Archives
