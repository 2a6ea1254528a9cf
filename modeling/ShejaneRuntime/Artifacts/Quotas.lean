import Mathlib
import ShejaneRuntime.Journal.Gapless
import ShejaneRuntime.Lib.Utf8

/-!
# The quotas of artifacts

An artifact is recorded in a transaction of its run that sums up what is
stored and refuses what would go over a limit. Creations follow one another
with any other transactions of the store in between.
-/

namespace ShejaneRuntime.Artifacts

open Lib Lib.Txn Store

/-! ## Records -/

def maxArtifactBytes : ℕ := 32 * 1024 * 1024
def maxBlobArtifactBytes : ℕ := 2 * 1024 * 1024 * 1024
def maxRunArtifactBytes : ℕ := 4 * 1024 * 1024 * 1024
def maxPrincipalArtifactBytes : ℕ := 16 * 1024 * 1024 * 1024
def maxTotalArtifactBytes : ℕ := 64 * 1024 * 1024 * 1024

inductive StorageKind where
  | inlineText | blob
  deriving DecidableEq, Repr

/-- What a replay of an artifact has to agree on, and what the request says. -/
structure Contents where
  runId : String
  kind : String
  title : String
  content : String
  contentType : String
  bytes : ℕ
  storageKind : StorageKind
  blobKey : Option String
  sha256 : String
  toolCallId : Option String
  toolName : Option String
  metadataJson : Json
  deriving DecidableEq

structure Record where
  id : String
  contents : Contents
  createdAt : Time

inductive CreateError where
  | quota (message : String)
  | conflict (message : String)
  | body (message : String)
  | store (error : StoreError)
  deriving DecidableEq

/-- The store with its artifact records. -/
structure ArtifactDb where
  store : Database
  records : Table Record.id

abbrev ArtifactTxn := Txn ArtifactDb World CreateError

/-- A transaction of the store as a part. -/
def onStore {α : Type} (m : StoreTxn α) : ArtifactTxn α := fun s ↦
  match m ⟨s.db.store, s.world⟩ with
  | .ok (a, s') => .ok (a, ⟨{ s.db with store := s'.db }, s'.world⟩)
  | .error e => .error (.store e)

def orRaise {α : Type} : Except CreateError α → ArtifactTxn α
  | .ok a => pure a
  | .error e => Txn.fail e

/-! ## Sums -/

/-- The bytes of the records that meet a condition. -/
def storedBytes (records : List Record) (p : Record → Bool) : ℕ :=
  ((records.filter p).map fun r ↦ r.contents.bytes).sum

def runBytes (d : ArtifactDb) (runId : String) : ℕ :=
  storedBytes d.records.rows fun r ↦ r.contents.runId = runId

/-- The principal of a run. -/
def principalOf (db : Database) (runId : String) : Option String :=
  (db.runs.find? runId).map Run.principalId

def principalBytes (d : ArtifactDb) (principalId : String) : ℕ :=
  storedBytes d.records.rows fun r ↦ principalOf d.store r.contents.runId = some principalId

def totalBytes (d : ArtifactDb) : ℕ := storedBytes d.records.rows fun _ ↦ true

/-! ## Creation -/

/-- `reconcile_replay` -/
def reconcileReplay (record persisted : Record) : ArtifactTxn Record := do
  Txn.require (persisted.contents = record.contents)
    (.conflict s!"artifact {record.id} was replayed with different content")
  pure persisted

def insertRecord (record : Record) : ArtifactTxn Record := do
  Txn.attempt (fun d ↦ (d.records.insert? record).map fun records ↦ { d with records := records })
    (.store (uniqueFailed "local_artifacts.id"))
  pure record

def requireQuotas (record : Record) : ArtifactTxn Unit := do
  let runId := record.contents.runId
  let owner? ← Txn.read fun d ↦ principalOf d.store runId
  let owner ← Txn.getOr owner? (.store (.keyError s!"unknown run: {runId}"))
  let ofRun ← Txn.read fun d ↦ runBytes d runId
  let ofPrincipal ← Txn.read fun d ↦ principalBytes d owner
  let total ← Txn.read totalBytes
  Txn.require (ofRun + record.contents.bytes ≤ maxRunArtifactBytes)
    (.quota "run artifact byte limit exceeded")
  Txn.require (ofPrincipal + record.contents.bytes ≤ maxPrincipalArtifactBytes)
    (.quota "principal artifact byte limit exceeded")
  Txn.require (total + record.contents.bytes ≤ maxTotalArtifactBytes)
    (.quota "local artifact storage byte limit exceeded")

/-- `_create_artifact_record`. A replayable record is looked up twice: before
the quotas, and when `INSERT OR IGNORE` finds its id taken. -/
def createArtifactRecord (lease : Option ExecutionLease) (record : Record) (replayable : Bool) :
    ArtifactTxn Record := do
  onStore (requireLease record.contents.runId lease)
  let existing ← Txn.read fun d ↦ if replayable then d.records.find? record.id else none
  match existing with
  | some persisted => reconcileReplay record persisted
  | none => do
    requireQuotas record
    let taken ← Txn.read fun d ↦ if replayable then d.records.find? record.id else none
    match taken with
    | some persisted => reconcileReplay record persisted
    | none => insertRecord record

/-- The body of a new artifact. A file is read and promoted beside the
database: it may be unreadable, and what lies in its place may be invalid. -/
inductive Body where
  | text (content : String)
  | file (source : Except CreateError (List ℕ)) (expectedSha256 : Option String)
      (storeEntry : Option CreateError)

structure Request where
  artifactId : Option String
  runId : String
  kind : String
  title : String
  contentType : String
  toolCallId : Option String
  toolName : Option String
  metadata : Option Json
  body : Body

section Create

variable (sha256Hex : List ℕ → String)

/-- `_promote_artifact_body`: size, digest and key of the promoted body. -/
def promoteArtifactBody (source : Except CreateError (List ℕ)) (expectedSha256 : Option String)
    (storeEntry : Option CreateError) : Except CreateError (ℕ × String × String) := do
  let content ← source
  if maxBlobArtifactBytes < content.length then
    throw (.quota "artifact body exceeds the per-item byte limit")
  let digest := sha256Hex content
  if expectedSha256.any fun d ↦ d ≠ digest then
    throw (.conflict "artifact body digest changed before promotion")
  match storeEntry with
  | some e => throw e
  | none => pure (content.length, digest, "sha256/" ++ (digest.take 2).toString ++ "/" ++ digest)

/-- What a request has recorded of itself, unless its body is refused. -/
def Request.contents (q : Request) : Except CreateError Contents :=
  match q.body with
  | .text content =>
    let encoded := Utf8.encode content.toList
    .ok ⟨q.runId, q.kind, q.title, content, q.contentType, encoded.length, .inlineText, none,
      sha256Hex encoded, q.toolCallId, q.toolName, encodePayload (Json.orEmpty q.metadata)⟩
  | .file source expectedSha256 storeEntry =>
    (promoteArtifactBody sha256Hex source expectedSha256 storeEntry).map fun (size, digest, key) ↦
      ⟨q.runId, q.kind, q.title, "", q.contentType, size, .blob, some key, digest, q.toolCallId,
        q.toolName, encodePayload (Json.orEmpty q.metadata)⟩

/-- `create_artifact` and `create_file_artifact`, by the body. Only a text has
a limit of its own left to check. -/
def createArtifact (lease : Option ExecutionLease) (q : Request) : ArtifactTxn Record := do
  let contents ← orRaise (q.contents sha256Hex)
  let id ← onStore (idOr q.artifactId "art")
  let createdAt ← onStore utcNow
  let record : Record := ⟨id, contents, createdAt⟩
  Txn.require (contents.storageKind = .inlineText → contents.bytes ≤ maxArtifactBytes)
    (.quota "artifact exceeds the per-item byte limit")
  createArtifactRecord lease record q.artifactId.isSome

end Create

/-! ## The store with its artifacts -/

inductive QuotaAct where
  | transact (op : StoreOp)
  | create (lease : Option ExecutionLease) (request : Request)

def ArtifactDb.after (sha256Hex : List ℕ → String) (d : ArtifactDb) (act : QuotaAct) (w : World) :
    ArtifactDb :=
  match act with
  | .transact op => { d with store := op.after d.store w }
  | .create lease q => (Txn.commit (createArtifact sha256Hex lease q) d w).2

def quotaSystem (sha256Hex : List ℕ → String) : System ArtifactDb (QuotaAct × World) where
  initial d := d = ⟨Database.empty, Table.empty⟩
  step i d d' := d' = d.after sha256Hex i.1 i.2

/-- The stored bytes stay within the three limits. -/
structure WithinLimits (d : ArtifactDb) : Prop where
  run : ∀ runId, runBytes d runId ≤ maxRunArtifactBytes
  principal : ∀ principalId, principalBytes d principalId ≤ maxPrincipalArtifactBytes
  total : totalBytes d ≤ maxTotalArtifactBytes

/-- Every record is of a run, and a text is within its own limit. -/
structure Sound (d : ArtifactDb) : Prop where
  limits : WithinLimits d
  owned : ∀ r ∈ d.records.rows, (principalOf d.store r.contents.runId).isSome
  items : ∀ r ∈ d.records.rows, r.contents.storageKind = .inlineText →
    r.contents.bytes ≤ maxArtifactBytes

/-! ## Sums of records -/

theorem storedBytes_append (records : List Record) (r : Record) (p : Record → Bool) :
    storedBytes (records ++ [r]) p =
      storedBytes records p + if p r then r.contents.bytes else 0 := by
  unfold storedBytes
  rw [List.filter_append, List.map_append, List.sum_append]
  by_cases hp : p r <;> simp [hp]

theorem storedBytes_congr {records : List Record} {p q : Record → Bool}
    (h : ∀ r ∈ records, p r = q r) : storedBytes records p = storedBytes records q := by
  unfold storedBytes
  rw [List.filter_congr h]

/-! ## Transactions of the store -/

/-- Runs keep their principals. -/
theorem principalOf_after (op : StoreOp) {db : Database} (w : World) {runId principalId : String}
    (h : principalOf db runId = some principalId) :
    principalOf (op.after db w) runId = some principalId := by
  have hinserted {run : Run} {db' : Database} (hrun : db.runs.insert? run = some db'.runs) :
      principalOf db' runId = some principalId := by
    unfold principalOf at h ⊢
    rw [Table.find?_insert? hrun]
    split
    · rename_i hid
      rw [hid, Table.find?_key_of_insert? hrun] at h
      cases h
    · exact h
  have hrest (hnew : Kind.newRun ∉ op.kinds) : principalOf (op.after db w) runId =
      some principalId := by
    have hsame := (op.exec_does.sameRuns hnew).commit db w runId
    unfold principalOf at h ⊢
    obtain ⟨run, hrun, howner⟩ := Option.map_eq_some_iff.mp h
    rw [hrun, Option.map_some] at hsame
    obtain ⟨run', hrun', hfixed⟩ := Option.map_eq_some_iff.mp hsame
    have hprincipal : run'.fixed.principalId = run.fixed.principalId := by rw [hfixed]
    exact Option.map_eq_some_iff.mpr ⟨run', hrun', hprincipal.trans howner⟩
  cases op with
  | acceptRunCommand c =>
      rcases after_acceptRunCommand c db w with hsame | ⟨run, hstarted⟩
      · rw [hsame]
        exact h
      · exact hinserted hstarted.inserted
  | acceptChildRun lease request =>
      rcases after_acceptChildRun lease request db w with hsame | ⟨child, hadmitted⟩
      · rw [hsame]
        exact h
      · exact hinserted hadmitted.inserted
  | appendEvent lease runId eventType payload =>
      apply hrest
      simp only [StoreOp.kinds]
      split <;> simp
  | _ => exact hrest (by simp [StoreOp.kinds])

theorem Sound.transact {d : ArtifactDb} (h : Sound d) (op : StoreOp) (w : World) :
    Sound { d with store := op.after d.store w } := by
  have hsame : ∀ r ∈ d.records.rows, principalOf (op.after d.store w) r.contents.runId =
      principalOf d.store r.contents.runId := by
    intro r hr
    obtain ⟨p, hp⟩ := Option.isSome_iff_exists.mp (h.owned r hr)
    rw [hp, principalOf_after op w hp]
  refine ⟨⟨h.limits.run, fun principalId ↦ ?_, h.limits.total⟩, fun r hr ↦ ?_, h.items⟩
  · refine le_of_eq_of_le (storedBytes_congr fun r hr ↦ ?_) (h.limits.principal principalId)
    rw [hsame r hr]
  · rw [hsame r hr]
    exact h.owned r hr

/-! ## Creations -/

theorem post_onStore {α : Type} {m : StoreTxn α} {s : Session ArtifactDb World}
    {Q : α → Session ArtifactDb World → Prop} (hm : Keeps Eq m) (h : ∀ a w, Q a ⟨s.db, w⟩) :
    Post (onStore m) s Q := by
  intro a s' hres
  unfold onStore at hres
  cases hrun : m ⟨s.db.store, s.world⟩ with
  | error e =>
      rw [hrun] at hres
      cases hres
  | ok r =>
      obtain ⟨b, t⟩ := r
      have hdb : s.db.store = t.db := hm _ _ _ hrun
      rw [hrun] at hres
      cases hres
      have hsame : ({ s.db with store := t.db } : ArtifactDb) = s.db := by rw [← hdb]
      dsimp only
      rw [hsame]
      exact h _ _

/-- The record fits into the quotas of its run, its principal and the whole. -/
structure Fits (d : ArtifactDb) (record : Record) : Prop where
  owner : ∃ owner, principalOf d.store record.contents.runId = some owner ∧
    principalBytes d owner + record.contents.bytes ≤ maxPrincipalArtifactBytes
  run : runBytes d record.contents.runId + record.contents.bytes ≤ maxRunArtifactBytes
  total : totalBytes d + record.contents.bytes ≤ maxTotalArtifactBytes

theorem requireQuotas_post {record : Record} {s : Session ArtifactDb World}
    {Q : Unit → Session ArtifactDb World → Prop} (h : Fits s.db record → Q () s) :
    Post (requireQuotas record) s Q := by
  unfold requireQuotas
  rw [post_bind, post_read, post_bind, post_getOr]
  intro owner howner
  rw [post_bind, post_read, post_bind, post_read, post_bind, post_read, post_bind, post_require]
  intro hrun
  rw [post_bind, post_require]
  intro hprincipal
  rw [post_require]
  intro htotal
  exact h ⟨⟨owner, howner, hprincipal⟩, hrun, htotal⟩

/-- What a successful creation did: it found the artifact, or recorded it. -/
def Created (d : ArtifactDb) (record result : Record) (d' : ArtifactDb) : Prop :=
  (d.records.find? record.id = some result ∧ result.contents = record.contents ∧ d' = d) ∨
  (result = record ∧ Fits d record ∧ d.records.insert? record = some d'.records ∧
    d'.store = d.store)

theorem createArtifactRecord_post (lease : Option ExecutionLease) (record : Record)
    (replayable : Bool) (s : Session ArtifactDb World) :
    Post (createArtifactRecord lease record replayable) s fun result s' ↦
      Created s.db record result s'.db := by
  have hreplay (t : Session ArtifactDb World) (hdb : t.db = s.db) (persisted : Record)
      (hfind : (if replayable then s.db.records.find? record.id else none) = some persisted) :
      Post (reconcileReplay record persisted) t fun result s' ↦
        Created s.db record result s'.db := by
    unfold reconcileReplay
    rw [post_bind, post_require]
    intro hsame
    rw [post_pure]
    cases replayable with
    | false => cases hfind
    | true => exact .inl ⟨hfind, hsame, hdb⟩
  unfold createArtifactRecord
  rw [post_bind]
  refine post_onStore (keeps_requireLease _ _) fun _ w ↦ ?_
  rw [post_bind, post_read]
  split
  · rename_i persisted hfind
    exact hreplay ⟨s.db, w⟩ rfl persisted hfind
  · rw [post_bind]
    refine requireQuotas_post fun hfits ↦ ?_
    rw [post_bind, post_read]
    split
    · rename_i persisted hfind
      exact hreplay ⟨s.db, w⟩ rfl persisted hfind
    · unfold insertRecord
      rw [post_bind, post_attempt]
      intro d' hd'
      obtain ⟨records, hinsert, rfl⟩ := Option.map_eq_some_iff.mp hd'
      exact (post_pure _).mpr (.inr ⟨rfl, hfits, hinsert, rfl⟩)

section Create

variable {sha256Hex : List ℕ → String} {lease : Option ExecutionLease} {q : Request}

theorem post_onStore_idOr {s : Session ArtifactDb World} (given : Option String) (pre : String) :
    Post (onStore (idOr given pre)) s fun id s' ↦
      (∀ id', nonEmpty given = some id' → id = id') ∧ s.db = s'.db := by
  cases hgiven : nonEmpty given with
  | none =>
      refine post_onStore (keeps_idOr _ _) fun id w ↦ ⟨fun id' hid' ↦ ?_, rfl⟩
      cases hid'
  | some id =>
      intro id' s' hres
      unfold onStore idOr at hres
      rw [hgiven] at hres
      cases hres
      exact ⟨fun id' hid' ↦ Option.some.inj hid', rfl⟩

theorem createArtifact_post (s : Session ArtifactDb World) :
    Post (createArtifact sha256Hex lease q) s fun result s' ↦ ∃ record,
      q.contents sha256Hex = .ok record.contents ∧
      (∀ id, nonEmpty q.artifactId = some id → record.id = id) ∧
      (record.contents.storageKind = .inlineText → record.contents.bytes ≤ maxArtifactBytes) ∧
      Created s.db record result s'.db := by
  unfold createArtifact orRaise
  rw [post_bind]
  split
  · rename_i contents hcontents
    rw [post_pure, post_bind]
    refine Post.mono (post_onStore_idOr q.artifactId "art") ?_
    rintro id ⟨db₁, w⟩ ⟨hid, rfl⟩
    rw [post_bind]
    refine post_onStore keeps_utcNow fun createdAt w' ↦ ?_
    rw [post_bind, post_require]
    intro hitem
    exact (createArtifactRecord_post lease ⟨id, contents, createdAt⟩ _ _).mono
      fun result s' h ↦ ⟨_, hcontents, hid, hitem, h⟩
  · exact post_fail _

theorem Sound.created {d d' : ArtifactDb} {record result : Record} (h : Sound d)
    (hitem : record.contents.storageKind = .inlineText → record.contents.bytes ≤ maxArtifactBytes)
    (hcreated : Created d record result d') : Sound d' := by
  rcases hcreated with ⟨_, _, rfl⟩ | ⟨_, hfits, hinsert, hstore⟩
  · exact h
  obtain ⟨owner, howner, hprincipal⟩ := hfits.owner
  have hrows := Table.rows_of_insert? hinsert
  refine ⟨⟨fun runId ↦ ?_, fun principalId ↦ ?_, ?_⟩, ?_, ?_⟩
  · unfold runBytes
    rw [hrows, storedBytes_append]
    have hold := h.limits.run runId
    have hnew := hfits.run
    unfold runBytes at hold hnew
    split
    · rename_i hsame
      obtain rfl : record.contents.runId = runId := by simpa using hsame
      exact hnew
    · exact hold
  · unfold principalBytes
    rw [hrows, storedBytes_append, hstore, howner]
    have hold := h.limits.principal principalId
    unfold principalBytes at hold hprincipal
    split
    · rename_i hsame
      obtain rfl : owner = principalId := by simpa using hsame
      exact hprincipal
    · exact hold
  · unfold totalBytes
    rw [hrows, storedBytes_append]
    exact hfits.total
  · intro r hr
    rw [hrows] at hr
    rw [hstore]
    rcases List.mem_append.mp hr with hold | hnew
    · exact h.owned r hold
    · obtain rfl := List.mem_singleton.mp hnew
      rw [howner]
      rfl
  · intro r hr
    rw [hrows] at hr
    rcases List.mem_append.mp hr with hold | hnew
    · exact h.items r hold
    · obtain rfl := List.mem_singleton.mp hnew
      exact hitem

theorem sound_of_reachable {d : ArtifactDb} (h : (quotaSystem sha256Hex).Reachable d) :
    Sound d := by
  refine System.ReachableBy.invariant ?_ ?_ h
  · rintro d rfl
    refine ⟨⟨fun _ ↦ Nat.zero_le _, fun _ ↦ Nat.zero_le _, Nat.zero_le _⟩, ?_, ?_⟩
    · intro r hr
      cases hr
    · intro r hr
      cases hr
  · rintro ⟨act, w⟩ d d' hsound _ rfl
    cases act with
    | transact op => exact hsound.transact op w
    | create lease q =>
        refine Post.commit hsound ((createArtifact_post ⟨d, w⟩).mono ?_)
        rintro result s' ⟨record, _, _, hitem, hcreated⟩
        exact hsound.created hitem hcreated

/-- A creation finds its artifact, records it, or is refused and changes
nothing. -/
def Outcome (d : ArtifactDb) : Except CreateError Record × ArtifactDb → Prop
  | (.error _, d') => d' = d
  | (.ok r, d') => d' = d ∧ d.records.find? r.id = some r ∨
      d.records.find? r.id = none ∧ d'.records.rows = d.records.rows ++ [r] ∧ d'.store = d.store

theorem outcome_of_create (d : ArtifactDb) (w : World) :
    Outcome d (Txn.commit (createArtifact sha256Hex lease q) d w) := by
  unfold Txn.commit
  cases hres : createArtifact sha256Hex lease q ⟨d, w⟩ with
  | error e => rfl
  | ok res =>
      obtain ⟨result, s'⟩ := res
      obtain ⟨record, _, _, _, hcreated⟩ := createArtifact_post _ _ _ hres
      rcases hcreated with ⟨hfind, _, hsame⟩ | ⟨rfl, _, hinsert, hstore⟩
      · have hid : result.id = record.id := Table.key_of_find? hfind
        exact .inl ⟨hsame, hid ▸ hfind⟩
      · exact .inr ⟨Table.find?_key_of_insert? hinsert, Table.rows_of_insert? hinsert, hstore⟩

/-! ## Replays -/

/-- The fence of a lease at a reading of the clock. -/
def leaseHeld (db : Database) (runId : String) (lease : Option ExecutionLease) (at' : Time) :
    Bool :=
  lease.all fun held ↦
    held.runId = runId && db.jobs.rows.any fun job ↦ job.admits held at'

theorem onStore_requireLease {s : Session ArtifactDb World} {runId : String}
    {Q : Unit → Session ArtifactDb World → Prop}
    (h : leaseHeld s.db.store runId lease (s.world.clock 0) = true) (hQ : ∀ w, Q () ⟨s.db, w⟩) :
    Yields (onStore (requireLease runId lease)) s Q := by
  cases lease with
  | none => exact ⟨(), s, rfl, hQ s.world⟩
  | some held =>
      simp only [leaseHeld, Option.all_some, Bool.and_eq_true, decide_eq_true_eq] at h
      obtain ⟨hrun, hheld⟩ := h
      have hyields : Yields (requireLease runId (some held)) ⟨s.db.store, s.world⟩ fun _ t ↦
          t.db = s.db.store := by
        unfold requireLease utcNow
        simp only [yields_bind, yields_require, yields_draw, yields_read]
        exact ⟨hrun, hheld, trivial⟩
      obtain ⟨a, t, hres, hdb⟩ := hyields
      refine ⟨(), ⟨{ s.db with store := t.db }, t.world⟩, ?_, ?_⟩
      · unfold onStore
        rw [hres]
      · rw [hdb]
        exact hQ t.world

/-- Behind its fence a replay with the same contents returns the record. -/
theorem commit_replay {d : ArtifactDb} {w : World} {id : String} {persisted : Record}
    (hid : nonEmpty q.artifactId = some id) (hfind : d.records.find? id = some persisted)
    (hcontents : q.contents sha256Hex = .ok persisted.contents)
    (hitem : persisted.contents.storageKind = .inlineText →
      persisted.contents.bytes ≤ maxArtifactBytes)
    (hheld : leaseHeld d.store persisted.contents.runId lease (w.clock 1) = true) :
    Txn.commit (createArtifact sha256Hex lease q) d w = (.ok persisted, d) := by
  have hsome : q.artifactId.isSome = true := by
    cases hgiven : q.artifactId with
    | none =>
        rw [hgiven] at hid
        cases hid
    | some _ => rfl
  have hyields : Yields (createArtifact sha256Hex lease q) ⟨d, w⟩ fun r s' ↦
      r = persisted ∧ s'.db = d := by
    unfold createArtifact orRaise
    rw [hcontents]
    simp only [yields_bind, yields_pure]
    refine ⟨id, ⟨d, w⟩, ?_, w.clock 0, ⟨d, { w with clock := fun n ↦ w.clock (n + 1) }⟩, rfl, ?_⟩
    · unfold onStore idOr
      rw [hid]
      rfl
    dsimp only
    rw [yields_require]
    refine ⟨hitem, ?_⟩
    unfold createArtifactRecord
    rw [yields_bind]
    refine onStore_requireLease hheld fun w' ↦ ?_
    rw [yields_bind, yields_read, hsome, if_pos rfl, hfind]
    unfold reconcileReplay
    rw [yields_bind, yields_require, yields_pure]
    exact ⟨rfl, rfl, rfl⟩
  obtain ⟨a, s', hres, rfl, hdb⟩ := hyields
  unfold Txn.commit
  rw [hres]
  exact congrArg _ hdb

/-- A replay with different contents is refused. -/
theorem commit_conflict {d : ArtifactDb} {w : World} {id : String} {persisted : Record}
    (hid : nonEmpty q.artifactId = some id) (hfind : d.records.find? id = some persisted)
    (hcontents : q.contents sha256Hex ≠ .ok persisted.contents) :
    ∃ e, Txn.commit (createArtifact sha256Hex lease q) d w = (.error e, d) := by
  apply commit_raises
  refine (createArtifact_post _).mono ?_
  rintro result s' ⟨record, hrecord, hsame, _, hcreated⟩
  rw [← hsame id hid] at hfind
  rcases hcreated with ⟨hfound, heq, _⟩ | ⟨_, _, hinsert, _⟩
  · rw [hfind] at hfound
    obtain rfl := Option.some.inj hfound
    exact hcontents (heq ▸ hrecord)
  · rw [Table.find?_key_of_insert? hinsert] at hfind
    cases hfind

/-- The stored bytes never exceed the three limits, a creation that is refused
changes nothing, and a replay finds the record or is refused. -/
theorem artifacts_within_quotas {d : ArtifactDb} (h : (quotaSystem sha256Hex).Reachable d) :
    WithinLimits d ∧
    (∀ (lease : Option ExecutionLease) (q : Request) (w : World),
      Outcome d (Txn.commit (createArtifact sha256Hex lease q) d w)) ∧
    ∀ (lease : Option ExecutionLease) (q : Request) (w : World) (id : String) (persisted : Record),
      nonEmpty q.artifactId = some id → d.records.find? id = some persisted →
      (q.contents sha256Hex = .ok persisted.contents →
        leaseHeld d.store persisted.contents.runId lease (w.clock 1) = true →
        Txn.commit (createArtifact sha256Hex lease q) d w = (.ok persisted, d)) ∧
      (q.contents sha256Hex ≠ .ok persisted.contents →
        ∃ e, Txn.commit (createArtifact sha256Hex lease q) d w = (.error e, d)) := by
  have hsound := sound_of_reachable h
  refine ⟨hsound.limits, fun lease q w ↦ outcome_of_create d w, ?_⟩
  intro lease q w id persisted hid hfind
  refine ⟨fun hcontents hheld ↦ ?_, commit_conflict hid hfind⟩
  exact commit_replay hid hfind hcontents (hsound.items persisted (Table.mem_of_find? hfind)) hheld

end Create

/-! ### A note -/

namespace Note

/-- The digest of the text of the note. -/
def digest (_ : List ℕ) : String :=
  "edb465624291e4053c6c5ea4b7eb320dec773e10a57d26b95dcf0564f8e310f8"

def note : Request where
  artifactId := some "note"
  runId := "run_xx"
  kind := "text"
  title := "Note"
  contentType := "text/plain"
  toolCallId := none
  toolName := none
  metadata := none
  body := .text "note"

def noted : ArtifactDb :=
  ArtifactDb.after digest ⟨Database.accepted, Table.empty⟩ (.create none note) (.counting 50)

theorem reachable_noted : (quotaSystem digest).Reachable noted := by
  have hempty : (quotaSystem digest).Reachable ⟨Database.empty, Table.empty⟩ := ⟨_, rfl, .refl _⟩
  have haccepted : (quotaSystem digest).Reachable ⟨Database.accepted, Table.empty⟩ := by
    rw [Database.accepted]
    exact hempty.step (i := (.transact (.acceptRunCommand .sample), .counting 0)) trivial rfl
  exact haccepted.step (i := (.create none note, .counting 50)) trivial rfl

theorem artifacts_within_quotas_noted : WithinLimits noted ∧ ∃ persisted,
    noted.records.find? "note" = some persisted ∧
      Txn.commit (createArtifact digest none note) noted (.counting 80) = (.ok persisted, noted) := by
  obtain ⟨hlimits, _, hreplay⟩ := artifacts_within_quotas reachable_noted
  have hstored : (noted.records.find? "note").map Record.contents =
      (note.contents digest).toOption := by decide +kernel
  obtain ⟨persisted, hfind, hcontents⟩ := Option.map_eq_some_iff.mp hstored
  refine ⟨hlimits, persisted, hfind, ?_⟩
  exact (hreplay none note (.counting 80) "note" persisted rfl hfind).1 (congrArg _ hcontents.symm) rfl

end Note

end ShejaneRuntime.Artifacts
