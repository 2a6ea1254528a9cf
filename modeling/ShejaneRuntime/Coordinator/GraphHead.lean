import Mathlib.Logic.Function.Basic
import ShejaneRuntime.Journal.Gapless
import ShejaneRuntime.Lib.Chase

/-!
# The graph head of a run

A run records the checkpoint its graph stands at. The attempt that drives the
graph moves this head along with the stream of checkpoints, and a
reconciliation after a crash moves it to the newest checkpoint of the run,
each by comparing and swapping. In between the other parts of the Runtime and
any number of further writers take their steps.
-/

namespace ShejaneRuntime.Store

open Lib Lib.Txn Lockstep

variable {db db' : Database}

/-! ## Who writes a head -/

/-- The head of a run, when there is the run. -/
def headOf (db : Database) (runId : String) : Option (Option String) :=
  (db.runs.find? runId).map Run.graphCheckpointId

theorem Write.headOf {k : Kind} (h : Write k db db') (hnew : k ≠ .newRun) (hhead : k ≠ .graphHead) :
    headOf db' = headOf db := by
  by_cases hparts : Part.runs ∉ k.parts
  · unfold Store.headOf
    rw [show db'.runs = db.runs from h.within .runs hparts]
  cases h with
  | runs hsame =>
      funext runId
      unfold Store.headOf
      rw [Table.find?_update, Option.map_map]
      apply Option.map_congr
      intro r hr
      dsimp only [Function.comp_apply]
      split
      · exact (hsame r (Table.mem_of_find? hr) ‹_›).2
      · rfl
  | heads _ => exact absurd rfl hhead
  | newRun _ _ => exact absurd rfl hnew
  | _ => exact absurd (by simp [Kind.parts]) hparts

theorem Writing.headOf {kinds : List Kind} (h : Writing kinds db db') (hnew : Kind.newRun ∉ kinds)
    (hhead : Kind.graphHead ∉ kinds) : headOf db' = headOf db := by
  refine Trace.preserves (P := fun db₁ ↦ Store.headOf db₁ = Store.headOf db) ?_ h rfl
  intro k hk s s' hw ih
  rw [hw.headOf (fun hc ↦ hnew (hc ▸ hk)) fun hc ↦ hhead (hc ▸ hk)]
  exact ih

/-- The transactions other than those that move a head. A fork starts its run
at a checkpoint with a name. -/
def StoreOp.movesNoHead : StoreOp → Prop
  | advanceGraphCheckpoint _ _ _ _ _ => False
  | acceptRunCommand c => c.graphCheckpointId ≠ some ""
  | _ => True

/-- A run starts with a head of its own, and no other head changes. -/
theorem headOf_inserted {run : Run} (h : db.runs.insert? run = some db'.runs) (runId : String) :
    headOf db' runId = if runId = run.id then some run.graphCheckpointId else headOf db runId := by
  unfold headOf
  rw [Table.find?_insert? h]
  split <;> rfl

/-- The heads of before stay, and every other one has a name. -/
structure HeadsStay (db db' : Database) : Prop where
  old : ∀ runId head, headOf db runId = some head → headOf db' runId = some head
  new : ∀ runId, headOf db' runId = some (some "") → headOf db runId = some (some "")

theorem HeadsStay.of_eq (h : headOf db' = headOf db) : HeadsStay db db' where
  old _ _ hhead := h ▸ hhead
  new _ hhead := h ▸ hhead

theorem HeadsStay.inserted {run : Run} (h : db.runs.insert? run = some db'.runs)
    (hnamed : run.graphCheckpointId ≠ some "") : HeadsStay db db' where
  old runId head hhead := by
    rw [headOf_inserted h]
    split
    · have hfresh := Table.find?_key_of_insert? h
      rename_i heq
      rw [heq] at hhead
      unfold headOf at hhead
      rw [hfresh] at hhead
      cases hhead
    · exact hhead
  new runId hhead := by
    rw [headOf_inserted h] at hhead
    split at hhead
    · exact absurd (Option.some.inj hhead) hnamed
    · exact hhead

theorem StoreOp.headsStay {op : StoreOp} (w : World) (hop : op.movesNoHead) :
    HeadsStay db (op.after db w) := by
  have hrest : Kind.newRun ∉ op.kinds → Kind.graphHead ∉ op.kinds →
      HeadsStay db (op.after db w) :=
    fun hnew hhead ↦ .of_eq ((op.after_writing db w).headOf hnew hhead)
  cases op with
  | acceptRunCommand c =>
      rcases after_acceptRunCommand c db w with hsame | ⟨run, hstarted⟩
      · rw [hsame]
        exact .of_eq rfl
      · obtain ⟨thread, journal, rootRunId, assistantItemId, hrecord, _⟩ := hstarted.turn
        apply HeadsStay.inserted hstarted.inserted
        rw [hrecord.graphCheckpointId]
        exact hop
  | acceptChildRun lease request =>
      rcases after_acceptChildRun lease request db w with hsame | ⟨child, hadmitted⟩
      · rw [hsame]
        exact .of_eq rfl
      · obtain ⟨parent, c, goal, definition, policy, _, _, hrecord, _⟩ := hadmitted.parent
        apply HeadsStay.inserted hadmitted.inserted
        rw [hrecord.graphCheckpointId]
        simp [childRecord]
  | advanceGraphCheckpoint => exact hop.elim
  | appendEvent lease runId eventType payload =>
      apply hrest
      · simp only [StoreOp.kinds]
        split <;> simp
      · simp only [StoreOp.kinds]
        split <;> simp
  | _ => exact hrest (by simp [StoreOp.kinds]) (by simp [StoreOp.kinds])

/-- What `advance_graph_checkpoint` does when it returns: the head is the
checkpoint afterwards, and it was before, or it was the expected one. -/
structure Advanced (runId : String) (expected : Option String) (checkpointId : String)
    (db db' : Database) : Prop where
  before : headOf db runId = some (some checkpointId) ∨ headOf db runId = some expected
  after : headOf db' = Function.update (headOf db) runId (some (some checkpointId))

theorem advanceGraphCheckpoint_post (lease : Option ExecutionLease)
    (runId graphThreadId checkpointId : String) (expected : Option String)
    (s : Session Database World) :
    Post (advanceGraphCheckpoint lease runId graphThreadId expected checkpointId) s
      fun _ s' ↦ Advanced runId expected checkpointId s.db s'.db := by
  unfold advanceGraphCheckpoint
  refine post_runWriteTransaction fun w _ ↦ ?_
  rw [post_bind, post_read, post_bind, post_getOr]
  intro run hrun
  rw [post_bind, post_require]
  intro _
  have hhead : headOf s.db runId = some run.graphCheckpointId := by
    unfold headOf
    rw [hrun]
    rfl
  rw [post_when]
  constructor
  · intro _
    rw [post_bind, post_require]
    intro hexpected
    rw [post_bind]
    refine post_utcNow fun now w' ↦ (post_write _).mpr ⟨.inr (hexpected ▸ hhead), ?_⟩
    funext other
    unfold headOf
    rw [Table.find?_update, Option.map_map]
    by_cases hother : other = runId
    · subst hother
      rw [hrun, Function.update_self]
      simp [Table.key_of_find? hrun]
    · rw [Function.update_of_ne hother]
      apply Option.map_congr
      intro r hr
      have hid : r.id ≠ runId := fun hc ↦ hother ((Table.key_of_find? hr).symm.trans hc)
      simp [hid]
  · intro hsame
    have hsame : run.graphCheckpointId = some checkpointId := by simpa using hsame
    rw [hsame] at hhead
    exact ⟨.inl hhead, by rw [← hhead, Function.update_eq_self]⟩

end ShejaneRuntime.Store

namespace ShejaneRuntime.Coordinator

open Store Lib Lib.Txn Relation

/-! ## Checkpoints -/

/-- A row of the checkpointer, with the run its metadata names. -/
structure Checkpoint where
  threadId : String
  checkpointNs : String
  checkpointId : String
  parentCheckpointId : Option String
  runtimeRunId : Option String
  deriving DecidableEq, Repr

/-- `aget_tuple` in the root namespace. -/
def agetTuple (rows : List Checkpoint) (threadId checkpointId : String) : Option Checkpoint :=
  rows.find? fun c ↦
    c.threadId = threadId && c.checkpointNs = "" && c.checkpointId = checkpointId

/-- A text that Python takes for true. -/
def nonEmpty (text : Option String) : Option String := text.filter (· ≠ "")

/-- The id in the parent config of a checkpoint, if it is stored and has one. -/
def parentCheckpoint (rows : List Checkpoint) (threadId checkpointId : String) : Option String :=
  nonEmpty ((agetTuple rows threadId checkpointId).bind Checkpoint.parentCheckpointId)

/-- The loop of `_checkpoint_is_ancestor` for so many rounds, `none` when they do not suffice. -/
def ancestorWalk (rows : List Checkpoint)
    (graphThreadId headCheckpointId candidateCheckpointId : String) (rounds : ℕ) : Option Bool :=
  chase (parentCheckpoint rows graphThreadId) candidateCheckpointId rounds []
    (nonEmpty (some headCheckpointId))

/-- `_checkpoint_is_ancestor` -/
def checkpointIsAncestor (rows : List Checkpoint)
    (graphThreadId headCheckpointId candidateCheckpointId : String) : Bool :=
  ancestorWalk rows graphThreadId headCheckpointId candidateCheckpointId (rows.length + 2) =
    some true

/-- The newest checkpoint of a run: `alist` with the run's id as a filter and one row as limit. -/
def newestCheckpoint (rows : List Checkpoint) (threadId runId : String) : Option Checkpoint :=
  ((rows.filter fun c ↦ c.threadId = threadId && c.checkpointNs = "" &&
    c.runtimeRunId = some runId).insertionSort fun a b ↦ b.checkpointId ≤ a.checkpointId).head?

/-- `run.get("graph_thread_id") or run_id` -/
def graphThread (run : Run) : String := textOr (some run.graphThreadId) run.id

/-- What a reconciliation comes to before it writes. -/
inductive Verdict where
  | settled
  | diverged
  | advance (latestId : String)
  deriving DecidableEq, Repr

/-- `_reconcile_graph_head` up to its write. -/
def reconcileGraphHead (checkpointer : Option (List Checkpoint)) (run : Run)
    (currentHead : Option String) : Verdict :=
  match checkpointer with
  | none => .settled
  | some rows =>
    match nonEmpty ((newestCheckpoint rows (graphThread run) run.id).map Checkpoint.checkpointId) with
    | none => .settled
    | some latestId =>
      if some latestId = currentHead then .settled
      else if (nonEmpty currentHead).all fun head ↦
          checkpointIsAncestor rows (graphThread run) latestId head then .advance latestId
      else .diverged

/-- An ancestor by parent links, or the checkpoint itself. -/
def Ancestor (rows : List Checkpoint) (graphThreadId ancestor checkpointId : String) : Prop :=
  ReflTransGen (Links (parentCheckpoint rows graphThreadId)) checkpointId ancestor

theorem mem_of_parentCheckpoint {rows : List Checkpoint} {threadId a b : String}
    (h : parentCheckpoint rows threadId a = some b) : a ∈ rows.map Checkpoint.checkpointId := by
  unfold parentCheckpoint nonEmpty at h
  obtain ⟨c, hc, _⟩ := Option.bind_eq_some_iff.mp (Option.eq_some_of_filter_eq_some h)
  have hid := List.find?_some hc
  simp only [Bool.and_eq_true, decide_eq_true_eq] at hid
  exact List.mem_map.mpr ⟨c, List.mem_of_find?_eq_some hc, hid.2⟩

/-- The walk ends after at most one round for each stored checkpoint and two
more, whatever the links are. -/
theorem ancestorWalk_spec (rows : List Checkpoint) (graphThreadId head candidate : String)
    {rounds : ℕ} (hrounds : rows.length + 2 ≤ rounds) :
    ∃ found, ancestorWalk rows graphThreadId head candidate rounds = some found ∧
      (found = true ↔ head ≠ "" ∧ Ancestor rows graphThreadId candidate head) := by
  have hstored : ∀ a b, parentCheckpoint rows graphThreadId a = some b →
      a ∈ rows.map Checkpoint.checkpointId := fun _ _ ↦ mem_of_parentCheckpoint
  have hstart : Chased (parentCheckpoint rows graphThreadId) candidate [] (nonEmpty (some head)) :=
    .start _
  have henough : ((rows.map Checkpoint.checkpointId).filter fun x ↦ x ∉ ([] : List String)).length +
      1 < rounds := by
    simp
    omega
  obtain ⟨found, hfound, hiff⟩ := chase_spec hstored henough hstart
  refine ⟨found, hfound, hiff.trans ?_⟩
  unfold nonEmpty Ancestor
  simp [Option.filter_eq_some_iff, and_assoc]

theorem checkpointIsAncestor_iff (rows : List Checkpoint)
    (graphThreadId head candidate : String) :
    checkpointIsAncestor rows graphThreadId head candidate = true ↔
      head ≠ "" ∧ Ancestor rows graphThreadId candidate head := by
  obtain ⟨found, hfound, hiff⟩ := ancestorWalk_spec rows graphThreadId head candidate le_rfl
  unfold checkpointIsAncestor
  rw [hfound, ← hiff]
  simp

/-! ## The writers of a head -/

inductive Stage where
  | read
  /-- About to write, with the checkpoints its walk saw. -/
  | compared (latestId : String) (walked : Option (List Checkpoint))
  | returned
  deriving DecidableEq, Repr

/-- A task with the run it read and the head it goes on from. -/
structure Writer where
  run : Run
  checkpointId : Option String
  stage : Stage

structure HeadState where
  db : Database
  checkpointer : Option (List Checkpoint)
  writers : List Writer

inductive HeadAct where
  | transact (op : StoreOp)
  /-- The graph library stores checkpoints of its own. -/
  | keep (checkpointer : Option (List Checkpoint))
  | read (runId : String)
  | reconcile (i : ℕ)
  | advance (i : ℕ) (lease : Option ExecutionLease)
  /-- The stream of the graph reports a checkpoint. -/
  | stream (i : ℕ) (lease : Option ExecutionLease) (checkpointId : String)
  | stop (i : ℕ)
  | crash

/-- The task compares and swaps, and goes on from the new head or fails. -/
def HeadState.advanced (s : HeadState) (i : ℕ) (writer : Writer) (lease : Option ExecutionLease)
    (graphThreadId checkpointId : String) (w : World) : HeadState :=
  match Txn.commit (advanceGraphCheckpoint lease writer.run.id graphThreadId writer.checkpointId
      checkpointId) s.db w with
  | (.ok _, db) => { s with
      db := db
      writers := s.writers.set i
        { writer with checkpointId := some checkpointId, stage := .returned } }
  | (.error _, db) => { s with db := db, writers := s.writers.eraseIdx i }

def HeadState.reconciled (s : HeadState) (i : ℕ) (writer : Writer) : HeadState :=
  match reconcileGraphHead s.checkpointer writer.run writer.checkpointId with
  | .settled => { s with writers := s.writers.set i { writer with stage := .returned } }
  | .diverged => { s with writers := s.writers.eraseIdx i }
  | .advance latestId => { s with
      writers := s.writers.set i { writer with stage := .compared latestId s.checkpointer } }

def HeadState.next (s : HeadState) (act : HeadAct) (w : World) : Option HeadState :=
  match act with
  | .transact op => some { s with db := op.after s.db w }
  | .keep checkpointer => some { s with checkpointer := checkpointer }
  | .read runId => (s.db.runs.find? runId).map fun run ↦
      { s with writers := s.writers ++ [⟨run, run.graphCheckpointId, .read⟩] }
  | .reconcile i =>
      match s.writers[i]? with
      | some writer => if writer.stage = .read then some (s.reconciled i writer) else none
      | none => none
  | .advance i lease =>
      match s.writers[i]? with
      | some writer =>
          match writer.stage with
          | .compared latestId _ =>
              some (s.advanced i writer lease (graphThread writer.run) latestId w)
          | _ => none
      | none => none
  | .stream i lease checkpointId =>
      match s.writers[i]? with
      | some writer =>
          if writer.stage = .returned ∧ checkpointId ≠ "" then
            some (s.advanced i writer lease writer.run.graphThreadId checkpointId w)
          else none
      | none => none
  | .stop i => some { s with writers := s.writers.eraseIdx i }
  | .crash => some { s with writers := [] }

/-- Only the writers move heads. -/
def HeadAct.permitted : HeadAct × World → HeadState → Prop
  | (.transact op, _), _ => op.movesNoHead
  | _, _ => True

def headSystem : System HeadState (HeadAct × World) where
  initial s := s.db = Database.empty ∧ s.writers = []
  step i s t := s.next i.1 i.2 = some t

/-! ## What a step does to the heads -/

/-- The writer read the head it goes on from in an earlier state of the run. -/
def HasRead (s : HeadState) (writer : Writer) : Prop :=
  ∃ u, headSystem.ReachableBy HeadAct.permitted u ∧ headSystem.Run HeadAct.permitted u s ∧
    headOf u.db writer.run.id = some writer.checkpointId

/-- A writer that has compared found the head it read among the ancestors. -/
def HasCompared (writer : Writer) : Prop :=
  ∀ latestId walked, writer.stage = .compared latestId walked → latestId ≠ "" ∧
    ∀ head, writer.checkpointId = some head →
      ∃ rows, walked = some rows ∧ Ancestor rows (graphThread writer.run) head latestId

/-- The head of a run moves from `head` on: a writer that read this head
compares and swaps, and one that reconciles moves it to a descendant. -/
def MovesBy (s : HeadState) (runId : String) (head head' : Option String) : Prop :=
  ∃ writer ∈ s.writers, writer.run.id = runId ∧ writer.checkpointId = head ∧ HasRead s writer ∧
    ∃ checkpointId, head' = some checkpointId ∧
      (writer.stage = .returned ∨ ∃ walked, writer.stage = .compared checkpointId walked ∧
        ∀ recorded, head = some recorded →
          ∃ rows, walked = some rows ∧ Ancestor rows (graphThread writer.run) recorded checkpointId)

section Steps

variable {s t : HeadState} {writer : Writer} {i : ℕ} {lease : Option ExecutionLease}
  {graphThreadId checkpointId runId : String} {head head' : Option String} {w : World}

theorem advanced_spec (s : HeadState) (i : ℕ) (writer : Writer) (lease : Option ExecutionLease)
    (graphThreadId checkpointId : String) (w : World) :
    ((s.advanced i writer lease graphThreadId checkpointId w).db = s.db ∧
      (s.advanced i writer lease graphThreadId checkpointId w).writers = s.writers.eraseIdx i) ∨
    Advanced writer.run.id writer.checkpointId checkpointId s.db
        (s.advanced i writer lease graphThreadId checkpointId w).db ∧
      (s.advanced i writer lease graphThreadId checkpointId w).writers = s.writers.set i
        { writer with checkpointId := some checkpointId, stage := .returned } := by
  unfold HeadState.advanced
  cases hres : Txn.commit (advanceGraphCheckpoint lease writer.run.id graphThreadId
      writer.checkpointId checkpointId) s.db w with
  | mk res db =>
      cases res with
      | error e =>
          have hsame := commit_error (congrArg Prod.fst hres)
          rw [hres] at hsame
          exact .inl ⟨hsame, rfl⟩
      | ok a =>
          obtain ⟨s', hs', hdb⟩ := commit_ok (congrArg Prod.fst hres)
          rw [hres] at hdb
          obtain rfl : db = s'.db := hdb
          have hpost : Advanced writer.run.id writer.checkpointId checkpointId s.db s'.db :=
            advanceGraphCheckpoint_post _ _ _ _ _ _ _ _ hs'
          exact .inr ⟨hpost, rfl⟩

/-- A write that changes a head changes it from the one the writer expects. -/
theorem head_of_advanced (hhead : headOf s.db runId = some head) :
    ∃ head', headOf (s.advanced i writer lease graphThreadId checkpointId w).db runId =
      some head' ∧ (head' = head ∨
        writer.run.id = runId ∧ writer.checkpointId = head ∧ head' = some checkpointId) := by
  rcases advanced_spec s i writer lease graphThreadId checkpointId w with ⟨hsame, _⟩ | ⟨hadv, _⟩
  · rw [hsame]
    exact ⟨head, hhead, .inl rfl⟩
  · rw [hadv.after]
    by_cases hrun : runId = writer.run.id
    · subst hrun
      refine ⟨some checkpointId, Function.update_self .., ?_⟩
      rcases hadv.before with hbefore | hbefore
      · rw [hhead] at hbefore
        exact .inl (Option.some.inj hbefore).symm
      · rw [hhead] at hbefore
        exact .inr ⟨rfl, (Option.some.inj hbefore).symm, rfl⟩
    · rw [Function.update_of_ne hrun]
      exact ⟨head, hhead, .inl rfl⟩

/-- A head that is there has a name. -/
def Named (s : HeadState) : Prop := ∀ runId, headOf s.db runId ≠ some (some "")

theorem Named.advanced (h : Named s) (hid : checkpointId ≠ "") :
    Named (s.advanced i writer lease graphThreadId checkpointId w) := by
  intro runId hempty
  rcases advanced_spec s i writer lease graphThreadId checkpointId w with ⟨hsame, _⟩ | ⟨hadv, _⟩
  · exact h runId (hsame ▸ hempty)
  · rw [hadv.after] at hempty
    by_cases hrun : runId = writer.run.id
    · subst hrun
      rw [Function.update_self] at hempty
      exact hid (Option.some.inj (Option.some.inj hempty))
    · rw [Function.update_of_ne hrun] at hempty
      exact h runId hempty

theorem HasRead.step {i : HeadAct × World} (h : HasRead s writer) (hok : HeadAct.permitted i s)
    (hstep : headSystem.step i s t) : HasRead t writer := by
  obtain ⟨u, hreach, hrun, hhead⟩ := h
  exact ⟨u, hreach, hrun.tail hok hstep, hhead⟩

theorem nonEmpty_ne {text : Option String} {value : String} (h : nonEmpty text = some value) :
    value ≠ "" := by
  have hne := (Option.filter_eq_some_iff.mp h).2
  simpa using hne

theorem hasCompared_of_reconcile {checkpointer : Option (List Checkpoint)} {latestId : String}
    (hverdict : reconcileGraphHead checkpointer writer.run writer.checkpointId = .advance latestId)
    (hnamed : writer.checkpointId ≠ some "") :
    HasCompared { writer with stage := .compared latestId checkpointer } := by
  rintro latestId' walked hstage
  obtain ⟨rfl, rfl⟩ := Stage.compared.inj hstage
  unfold reconcileGraphHead at hverdict
  cases checkpointer with
  | none => cases hverdict
  | some rows =>
      dsimp only at hverdict
      split at hverdict
      · cases hverdict
      · rename_i newest hnewest
        split at hverdict
        · cases hverdict
        split at hverdict
        · rename_i hancestor
          obtain rfl := Verdict.advance.inj hverdict
          refine ⟨nonEmpty_ne hnewest, fun recorded hrecorded ↦ ⟨rows, rfl, ?_⟩⟩
          dsimp only at hrecorded
          have hne : recorded ≠ "" := fun hc ↦ hnamed (hc ▸ hrecorded)
          rw [hrecorded] at hancestor
          have hfilter : nonEmpty (some recorded) = some recorded := by
            simp [nonEmpty, hne]
          rw [hfilter] at hancestor
          exact ((checkpointIsAncestor_iff _ _ _ _).mp hancestor).2
        · cases hverdict

theorem Named.step {i : HeadAct × World} (h : Named s) (hcompared : ∀ w ∈ s.writers, HasCompared w)
    (hok : HeadAct.permitted i s) (hstep : headSystem.step i s t) : Named t := by
  obtain ⟨act, w⟩ := i
  cases act with
  | transact op =>
      cases hstep
      exact fun runId hempty ↦ h runId ((StoreOp.headsStay w hok).new runId hempty)
  | keep checkpointer =>
      cases hstep
      exact h
  | read runId =>
      obtain ⟨run, _, rfl⟩ := Option.map_eq_some_iff.mp hstep
      exact h
  | reconcile i =>
      simp only [headSystem, HeadState.next] at hstep
      split at hstep
      · split at hstep
        · cases hstep
          unfold HeadState.reconciled
          split <;> exact h
        · cases hstep
      · cases hstep
  | advance i lease =>
      simp only [headSystem, HeadState.next] at hstep
      split at hstep
      · rename_i writer hwriter
        split at hstep
        · rename_i latestId walked hstage
          cases hstep
          exact h.advanced (hcompared writer (List.mem_of_getElem? hwriter) _ _ hstage).1
        · cases hstep
      · cases hstep
  | stream i lease checkpointId =>
      simp only [headSystem, HeadState.next] at hstep
      split at hstep
      · split at hstep
        · rename_i hnext
          cases hstep
          exact h.advanced hnext.2
        · cases hstep
      · cases hstep
  | stop i =>
      cases hstep
      exact h
  | crash =>
      cases hstep
      exact h

/-- What is true of every writer of a state. -/
structure HeadsSound (s : HeadState) : Prop where
  reachable : headSystem.ReachableBy HeadAct.permitted s
  named : Named s
  read : ∀ w ∈ s.writers, HasRead s w
  compared : ∀ w ∈ s.writers, HasCompared w
  heads : ∀ w ∈ s.writers, w.checkpointId ≠ some ""

/-- The writers of the next state are writers of before, or one that has just
read a head that is in the store now, or one that goes on with what it has. -/
theorem HeadsSound.of_writers {i : HeadAct × World} (h : HeadsSound s) (hok : HeadAct.permitted i s)
    (hstep : headSystem.step i s t)
    (hwriters : ∀ w' ∈ t.writers, w' ∈ s.writers ∨
      HasCompared w' ∧ (headOf t.db w'.run.id = some w'.checkpointId ∨
        ∃ w ∈ s.writers, w.run = w'.run ∧ w.checkpointId = w'.checkpointId)) : HeadsSound t := by
  have hreach : headSystem.ReachableBy HeadAct.permitted t := h.reachable.step hok hstep
  have hnamed : Named t := h.named.step h.compared hok hstep
  refine ⟨hreach, hnamed, fun w' hw' ↦ ?_, fun w' hw' ↦ ?_, fun w' hw' ↦ ?_⟩
  · rcases hwriters w' hw' with hold | ⟨_, hnow | ⟨w, hw, hrun, hhead⟩⟩
    · exact (h.read w' hold).step hok hstep
    · exact ⟨t, hreach, .refl t, hnow⟩
    · have hread := (h.read w hw).step hok hstep
      unfold HasRead at hread ⊢
      rwa [hrun, hhead] at hread
  · rcases hwriters w' hw' with hold | ⟨hcompared, _⟩
    · exact h.compared w' hold
    · exact hcompared
  · rcases hwriters w' hw' with hold | ⟨_, hnow | ⟨w, hw, _, hhead⟩⟩
    · exact h.heads w' hold
    · intro hempty
      exact hnamed _ (hempty ▸ hnow)
    · exact hhead ▸ h.heads w hw

theorem hasCompared_of_stage (h : writer.stage = .read ∨ writer.stage = .returned) :
    HasCompared writer := by
  intro latestId walked hstage
  rw [hstage] at h
  rcases h with h | h <;> cases h

theorem writers_of_advanced {w' : Writer}
    (hw' : w' ∈ (s.advanced i writer lease graphThreadId checkpointId w).writers) :
    w' ∈ s.writers ∨ HasCompared w' ∧
      headOf (s.advanced i writer lease graphThreadId checkpointId w).db w'.run.id =
        some w'.checkpointId := by
  rcases advanced_spec s i writer lease graphThreadId checkpointId w with
    ⟨_, hwriters⟩ | ⟨hadv, hwriters⟩
  · rw [hwriters] at hw'
    exact .inl (List.mem_of_mem_eraseIdx hw')
  · rw [hwriters] at hw'
    rcases List.mem_or_eq_of_mem_set hw' with hold | rfl
    · exact .inl hold
    · refine .inr ⟨hasCompared_of_stage (.inr rfl), ?_⟩
      rw [hadv.after, Function.update_self]

theorem HeadsSound.step {i : HeadAct × World} (h : HeadsSound s) (hok : HeadAct.permitted i s)
    (hstep : headSystem.step i s t) : HeadsSound t := by
  apply h.of_writers hok hstep
  obtain ⟨act, w⟩ := i
  intro w' hw'
  cases act with
  | transact op =>
      cases hstep
      exact .inl hw'
  | keep checkpointer =>
      cases hstep
      exact .inl hw'
  | read runId =>
      obtain ⟨run, hrun, rfl⟩ := Option.map_eq_some_iff.mp hstep
      rcases List.mem_append.mp hw' with hold | hnew
      · exact .inl hold
      · obtain rfl := List.mem_singleton.mp hnew
        refine .inr ⟨hasCompared_of_stage (.inl rfl), .inl ?_⟩
        obtain rfl : run.id = runId := Table.key_of_find? hrun
        simp [headOf, hrun]
  | reconcile i =>
      simp only [headSystem, HeadState.next] at hstep
      split at hstep
      · rename_i writer hwriter
        have hmem := List.mem_of_getElem? hwriter
        split at hstep
        · cases hstep
          unfold HeadState.reconciled at hw'
          split at hw'
          · rcases List.mem_or_eq_of_mem_set hw' with hold | rfl
            · exact .inl hold
            · exact .inr ⟨hasCompared_of_stage (.inr rfl), .inr ⟨writer, hmem, rfl, rfl⟩⟩
          · exact .inl (List.mem_of_mem_eraseIdx hw')
          · rename_i latestId hverdict
            rcases List.mem_or_eq_of_mem_set hw' with hold | rfl
            · exact .inl hold
            · exact .inr ⟨hasCompared_of_reconcile hverdict (h.heads writer hmem),
                .inr ⟨writer, hmem, rfl, rfl⟩⟩
        · cases hstep
      · cases hstep
  | advance i lease =>
      simp only [headSystem, HeadState.next] at hstep
      split at hstep
      · split at hstep
        · cases hstep
          exact (writers_of_advanced hw').imp_right fun h ↦ ⟨h.1, .inl h.2⟩
        · cases hstep
      · cases hstep
  | stream i lease checkpointId =>
      simp only [headSystem, HeadState.next] at hstep
      split at hstep
      · split at hstep
        · cases hstep
          exact (writers_of_advanced hw').imp_right fun h ↦ ⟨h.1, .inl h.2⟩
        · cases hstep
      · cases hstep
  | stop i =>
      cases hstep
      exact .inl (List.mem_of_mem_eraseIdx hw')
  | crash =>
      cases hstep
      cases hw'

theorem sound_of_reachable (h : headSystem.ReachableBy HeadAct.permitted s) : HeadsSound s := by
  obtain ⟨s₀, hinit, hrun⟩ := h
  have hstart : HeadsSound s₀ := by
    refine ⟨⟨s₀, hinit, .refl _⟩, fun runId hempty ↦ ?_, ?_, ?_, ?_⟩
    · unfold headOf at hempty
      rw [hinit.1] at hempty
      cases hempty
    all_goals
      rw [hinit.2]
      intro w hw
      cases hw
  exact hrun.preserves (fun _ _ _ h hok hstep ↦ h.step hok hstep) hstart

/-- Whatever step the Runtime takes, a head that moves is moved by a writer
that had read it. -/
theorem moves_of_step {i : HeadAct × World} (h : HeadsSound s) (hok : HeadAct.permitted i s)
    (hstep : headSystem.step i s t) (hhead : headOf s.db runId = some head) :
    ∃ head', headOf t.db runId = some head' ∧ (head' = head ∨ MovesBy s runId head head') := by
  have hsame (heq : headOf t.db = headOf s.db) :
      ∃ head', headOf t.db runId = some head' ∧ (head' = head ∨ MovesBy s runId head head') :=
    ⟨head, heq ▸ hhead, .inl rfl⟩
  obtain ⟨act, w⟩ := i
  cases act with
  | transact op =>
      cases hstep
      exact ⟨head, (StoreOp.headsStay w hok).old runId head hhead, .inl rfl⟩
  | keep checkpointer =>
      cases hstep
      exact hsame rfl
  | read runId =>
      obtain ⟨run, _, rfl⟩ := Option.map_eq_some_iff.mp hstep
      exact hsame rfl
  | reconcile i =>
      simp only [headSystem, HeadState.next] at hstep
      split at hstep
      · split at hstep
        · cases hstep
          apply hsame
          unfold HeadState.reconciled
          split <;> rfl
        · cases hstep
      · cases hstep
  | advance i lease =>
      simp only [headSystem, HeadState.next] at hstep
      split at hstep
      · rename_i writer hwriter
        have hmem := List.mem_of_getElem? hwriter
        split at hstep
        · rename_i latestId walked hstage
          cases hstep
          obtain ⟨head', hafter, hmoved⟩ := head_of_advanced hhead
          refine ⟨head', hafter, hmoved.imp_right ?_⟩
          rintro ⟨hrun, hread, rfl⟩
          have hcompared := (h.compared writer hmem _ _ hstage).2
          exact ⟨writer, hmem, hrun, hread, h.read writer hmem, latestId, rfl,
            .inr ⟨walked, hstage, hread ▸ hcompared⟩⟩
        · cases hstep
      · cases hstep
  | stream i lease checkpointId =>
      simp only [headSystem, HeadState.next] at hstep
      split at hstep
      · rename_i writer hwriter
        have hmem := List.mem_of_getElem? hwriter
        split at hstep
        · rename_i hnext
          cases hstep
          obtain ⟨head', hafter, hmoved⟩ := head_of_advanced hhead
          refine ⟨head', hafter, hmoved.imp_right ?_⟩
          rintro ⟨hrun, hread, rfl⟩
          exact ⟨writer, hmem, hrun, hread, h.read writer hmem, checkpointId, rfl, .inl hnext.1⟩
        · cases hstep
      · cases hstep
  | stop i =>
      cases hstep
      exact hsame rfl
  | crash =>
      cases hstep
      exact hsame rfl

end Steps

/-- The head of a run is linear: it moves only by a writer's comparison with
the head it read, a reconciliation moves it to a descendant alone, and the walk
that looks for the head among the ancestors ends on every graph with the
answer the parent links give. -/
theorem graph_head_is_linear {s t : HeadState} {i : HeadAct × World}
    (h : headSystem.ReachableBy HeadAct.permitted s) (hok : HeadAct.permitted i s)
    (hstep : headSystem.step i s t) :
    (∀ runId head, headOf s.db runId = some head →
      ∃ head', headOf t.db runId = some head' ∧ (head' = head ∨ MovesBy s runId head head')) ∧
    ∀ (rows : List Checkpoint) (graphThreadId head candidate : String),
      (∀ rounds, rows.length + 2 ≤ rounds →
        ancestorWalk rows graphThreadId head candidate rounds =
          some (checkpointIsAncestor rows graphThreadId head candidate)) ∧
      (checkpointIsAncestor rows graphThreadId head candidate = true ↔
        head ≠ "" ∧ Ancestor rows graphThreadId candidate head) := by
  refine ⟨fun runId head hhead ↦ moves_of_step (sound_of_reachable h) hok hstep hhead, ?_⟩
  intro rows graphThreadId head candidate
  have hiff := checkpointIsAncestor_iff rows graphThreadId head candidate
  refine ⟨fun rounds hrounds ↦ ?_, hiff⟩
  obtain ⟨found, hfound, hfound_iff⟩ := ancestorWalk_spec rows graphThreadId head candidate hrounds
  rw [hfound, Option.some.injEq, Bool.eq_iff_iff, hfound_iff, hiff]

/-! ### A recovery

A run is forked at a checkpoint, its process dies after the next checkpoint is
stored, and the reconciliation moves the head there.
-/

namespace Recovery

def fork : RunCommand :=
  { RunCommand.sample with graphThreadId := some "thread", graphCheckpointId := some "first" }

def runId : String := "run_xx"

def rows : List Checkpoint :=
  [⟨"thread", "", "first", none, none⟩, ⟨"thread", "", "second", some "first", some runId⟩]

def plain : HeadAct → Bool
  | .transact (.acceptRunCommand c) => c.graphCheckpointId ≠ some ""
  | .transact _ => false
  | _ => true

def steps : List (HeadAct × World) :=
  [(.transact (.acceptRunCommand fork), .counting 0), (.keep (some rows), .counting 0),
    (.read runId, .counting 0), (.reconcile 0, .counting 0)]

def reaches : Option HeadState :=
  steps.foldlM (fun s i ↦ if plain i.1 then s.next i.1 i.2 else none) ⟨Database.empty, none, []⟩

theorem reachable_of_reaches {s : HeadState} (h : reaches = some s) :
    headSystem.ReachableBy HeadAct.permitted s := by
  refine System.ReachableBy.foldlM ?_ ⟨_, ⟨rfl, rfl⟩, .refl _⟩ h
  intro s i t hnext
  split at hnext
  · rename_i hplain
    refine ⟨?_, hnext⟩
    obtain ⟨act, w⟩ := i
    cases act with
    | transact op =>
        cases op with
        | acceptRunCommand c =>
            change c.graphCheckpointId ≠ some ""
            simpa [plain] using hplain
        | _ => cases hplain
    | _ => trivial
  · cases hnext

theorem graph_head_is_linear_recovered : ∃ s t : HeadState, headOf s.db runId = some (some "first") ∧
    headOf t.db runId = some (some "second") ∧ MovesBy s runId (some "first") (some "second") := by
  have hend : (reaches.bind fun (s : HeadState) ↦ (s.next (.advance 0 none) (.counting 9)).map fun (t : HeadState) ↦
      (headOf s.db runId, headOf t.db runId)) = some (some (some "first"), some (some "second")) := by
    decide +kernel
  obtain ⟨s, hs, hnext⟩ := Option.bind_eq_some_iff.mp hend
  obtain ⟨t, ht, hheads⟩ := Option.map_eq_some_iff.mp hnext
  obtain ⟨hbefore, hafter⟩ := Prod.mk.inj hheads
  refine ⟨s, t, hbefore, hafter, ?_⟩
  have hlinear := graph_head_is_linear (reachable_of_reaches hs)
    (i := (.advance 0 none, .counting 9)) trivial ht
  obtain ⟨head', hhead', hsame | hmoves⟩ := hlinear.1 runId _ hbefore
  · rw [hafter, hsame] at hhead'
    simp at hhead'
  · rw [hafter] at hhead'
    obtain rfl := Option.some.inj hhead'
    exact hmoves

end Recovery

end ShejaneRuntime.Coordinator
