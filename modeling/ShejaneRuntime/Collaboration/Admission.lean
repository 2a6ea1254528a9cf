import ShejaneRuntime.Journal.Turns

/-!
# What admitting a child does

The admission of a child run summed up as a relation between the databases
before and after: what was checked of the parent and its children, and the
rows that were inserted.
-/

namespace ShejaneRuntime.Store

open Lib Lib.Txn

/-- The root of the collaboration a child of this parent joins. -/
def collaborationRoot (parent : Run) : String := textOr parent.rootRunId parent.id

/-- What the admission of a child checks. -/
structure Admissible (db : Database) (parent : Run) (c : Coordination) : Prop where
  running : parent.status = .running
  depth : parent.collaborationDepth + 1 ≤ maxDurableChildDepth
  fanout : (childRuns db parent.id).length < maxDurableChildrenPerRun
  siblings : ∀ id ∈ c.dependsOn, ∃ r ∈ childRuns db parent.id, r.id = id
  free : ∀ key ∈ c.resourceClaims,
    db.collaboration.resourceClaims.find? (collaborationRoot parent, key) = none

/-- The rows that record how a child coordinates and what it owns. -/
structure Recorded (child parent : Run) (c : Coordination) (before after : Collaboration) :
    Prop where
  coordination : after.coordination.rows = before.coordination.rows ++
    [⟨child.id, collaborationRoot parent, parent.id, c.completionMode, c.quorumGroup,
      c.quorumRequired, child.createdAt⟩]
  dependencies : after.dependencies.rows = before.dependencies.rows ++
    c.dependsOn.map fun id ↦ ⟨child.id, id, child.createdAt⟩
  resourceClaims : after.resourceClaims.rows = before.resourceClaims.rows ++
    c.resourceClaims.map fun key ↦ ⟨collaborationRoot parent, key, child.id, child.createdAt⟩

structure Admitted (request : ChildRequest) (child : Run) (db db' : Database) : Prop where
  parent : ∃ parent c goal definition policy,
    db.runs.find? request.parentRunId = some parent ∧ Admissible db parent c ∧
    child.RecordOf (childRecord request goal definition parent (collaborationRoot parent) policy) ∧
    Recorded child parent c db.collaboration db'.collaboration
  fresh : ∀ r ∈ db.runs.rows, r.spawnOperationId ≠ some request.spawnOperationId
  inserted : db.runs.insert? child = some db'.runs
  job : ∃ job : Job, job.RecordOf child.id .start none ∧ db.jobs.insert? job = some db'.jobs

/-! ## The checks -/

theorem requireFreeResource_post {rootRunId resourceKey : String} {s : Session Database World}
    {Q : Unit → Session Database World → Prop}
    (h : s.db.collaboration.resourceClaims.find? (rootRunId, resourceKey) = none → Q () s) :
    Post (requireFreeResource rootRunId resourceKey) s Q := by
  unfold requireFreeResource
  rw [post_bind, post_read]
  split
  · rename_i hnone
    exact (post_pure _).mpr (h hnone)
  · exact post_fail _

theorem requireFreeResources_post {rootRunId : String} {keys : List String}
    {s : Session Database World} {Q : Unit → Session Database World → Prop}
    (h : (∀ key ∈ keys, s.db.collaboration.resourceClaims.find? (rootRunId, key) = none) →
      Q () s) : Post (forM keys (requireFreeResource rootRunId)) s Q := by
  induction keys with
  | nil => exact (post_pure _).mpr (h (by simp))
  | cons key keys ih =>
      rw [List.forM_cons, post_bind]
      refine requireFreeResource_post fun hkey ↦ ih fun hkeys ↦ h ?_
      rintro key' hkey'
      rcases List.mem_cons.mp hkey' with rfl | hmem
      · exact hkey
      · exact hkeys key' hmem

theorem requireChildAdmission_post {parent : Run} {c : Coordination}
    {s : Session Database World} {Q : Unit → Session Database World → Prop}
    (h : Admissible s.db parent c → Q () s) :
    Post (requireChildAdmission parent (collaborationRoot parent) c) s Q := by
  unfold requireChildAdmission
  simp only [post_bind, post_require, post_read]
  intro hrunning hdepth hfanout hsiblings _
  refine requireFreeResources_post fun hfree ↦ h ⟨hrunning, hdepth, hfanout, ?_, hfree⟩
  intro id hid
  simpa using List.all_eq_true.mp hsiblings id hid

/-! ## The rows -/

theorem insertDependencies_post (childRunId : String) (createdAt : Time) (ids : List String)
    (s : Session Database World) :
    Post (forM ids (insertDependency childRunId createdAt)) s fun _ s' ↦ ∃ dependencies,
      dependencies.rows = s.db.collaboration.dependencies.rows ++
        ids.map (fun id ↦ ⟨childRunId, id, createdAt⟩) ∧
      s'.db = { s.db with collaboration :=
        { s.db.collaboration with dependencies := dependencies } } := by
  induction ids generalizing s with
  | nil => exact (post_pure _).mpr ⟨_, by simp, rfl⟩
  | cons id ids ih =>
      unfold insertDependency
      rw [List.forM_cons, post_bind, post_attempt]
      intro db hdb
      obtain ⟨rows, hrows, rfl⟩ := Option.map_eq_some_iff.mp hdb
      refine (ih _).mono ?_
      rintro _ s' ⟨dependencies, hdependencies, hs'⟩
      refine ⟨dependencies, ?_, hs'⟩
      rw [hdependencies, List.map_cons]
      simp only [Table.rows_of_insert? hrows, List.append_assoc, List.singleton_append]

theorem insertResourceClaims_post (rootRunId ownerRunId : String) (createdAt : Time)
    (keys : List String) (s : Session Database World) :
    Post (forM keys (insertResourceClaim rootRunId ownerRunId createdAt)) s fun _ s' ↦ ∃ claims,
      claims.rows = s.db.collaboration.resourceClaims.rows ++
        keys.map (fun key ↦ ⟨rootRunId, key, ownerRunId, createdAt⟩) ∧
      s'.db = { s.db with collaboration :=
        { s.db.collaboration with resourceClaims := claims } } := by
  induction keys generalizing s with
  | nil => exact (post_pure _).mpr ⟨_, by simp, rfl⟩
  | cons key keys ih =>
      unfold insertResourceClaim
      rw [List.forM_cons, post_bind, post_attempt]
      intro db hdb
      obtain ⟨rows, hrows, rfl⟩ := Option.map_eq_some_iff.mp hdb
      refine (ih _).mono ?_
      rintro _ s' ⟨claims, hclaims, hs'⟩
      refine ⟨claims, ?_, hs'⟩
      rw [hclaims, List.map_cons]
      simp only [Table.rows_of_insert? hrows, List.append_assoc, List.singleton_append]

theorem insertChildCollaboration_post (child parent : Run) (c : Coordination)
    (s : Session Database World) :
    Post (insertChildCollaboration child parent.id (collaborationRoot parent) c) s fun _ s' ↦
      ∃ collaboration, Recorded child parent c s.db.collaboration collaboration ∧
        s'.db = { s.db with collaboration := collaboration } := by
  unfold insertChildCollaboration insertCoordination
  rw [post_bind, post_attempt]
  intro db hdb
  obtain ⟨coordination, hcoordination, rfl⟩ := Option.map_eq_some_iff.mp hdb
  rw [post_bind]
  refine (insertDependencies_post _ _ _ _).mono ?_
  rintro _ s₁ ⟨dependencies, hdependencies, hdb₁⟩
  refine (insertResourceClaims_post _ _ _ _ _).mono ?_
  rintro _ s₂ ⟨claims, hclaims, hdb₂⟩
  rw [hdb₁] at hclaims hdb₂
  exact ⟨⟨coordination, dependencies, claims⟩,
    ⟨Table.rows_of_insert? hcoordination, hdependencies, hclaims⟩, hdb₂⟩

/-! ## The admission -/

theorem createChildRun_post {request : ChildRequest} {goal : String}
    {definition : ChildAgentDefinition} {parent : Run} {c : Coordination}
    {s : Session Database World} (hparent : s.db.runs.find? request.parentRunId = some parent)
    (hfresh : ∀ r ∈ s.db.runs.rows, r.spawnOperationId ≠ some request.spawnOperationId) :
    Post (createChildRun request goal definition parent c) s fun child s' ↦
      Admitted request child s.db s'.db := by
  have hid : request.parentRunId = parent.id := (Table.key_of_find? hparent).symm
  have hroot : textOr parent.rootRunId request.parentRunId = collaborationRoot parent := by
    rw [hid]
    rfl
  unfold createChildRun
  simp only [hroot]
  rw [post_bind]
  refine requireChildAdmission_post fun hadmissible ↦ ?_
  rw [post_bind]
  refine newRunRecord_post fun child w hrecord ↦ ?_
  rw [post_bind]
  refine (insertRun_spec child _).mono ?_
  rintro _ s₁ ⟨runs, hruns, _, hdb₁⟩
  rw [post_bind, hid]
  refine (insertChildCollaboration_post child parent c s₁).mono ?_
  rintro _ s₂ ⟨collaboration, hrecorded, hdb₂⟩
  unfold copyParentContent
  rw [post_bind, post_write, post_bind]
  refine newRunJobRecord_post fun job w' hjob ↦ ?_
  rw [post_bind]
  refine (insertRunJob_spec job _).mono ?_
  rintro _ s₃ ⟨jobs, hjobs, hdb₃⟩
  rw [post_bind]
  refine Post.mono ((appendEventUncommitted_does _ _ _ _ (by decide)).writes s₃) ?_
  rintro ⟨event, _⟩ s₄ hwithin₄
  rw [post_bind]
  have htouch : Writes [.journal] (touchThreadForRunEventUncommitted parent.id "child.spawned"
      event.seq child.createdAt) :=
    onJournal_writes fun _ ↦ (Journal.touchThreadForRunEvent_eventless _ _ _ _ _).quiet
  refine Post.mono (htouch s₄) ?_
  intro _ s₅ hwithin₅
  rw [post_pure]
  have hwithin : Within [.journal] s₃.db s₅.db := trans_of _ hwithin₄ hwithin₅
  have hcollaboration : s₅.db.collaboration = s₃.db.collaboration :=
    hwithin.same .collaboration (by decide)
  have hsameRuns : s₅.db.runs = s₃.db.runs := hwithin.same .runs (by decide)
  have hsameJobs : s₅.db.jobs = s₃.db.jobs := hwithin.same .jobs (by decide)
  rw [hdb₁] at hrecorded hdb₂
  rw [hdb₂] at hjobs hdb₃
  rw [hdb₃] at hcollaboration hsameRuns hsameJobs
  refine ⟨⟨parent, c, goal, definition, _, hparent, hadmissible, hrecord, ?_⟩, hfresh, ?_, ?_⟩
  · rw [hcollaboration]
    exact hrecorded
  · rw [hsameRuns]
    exact hruns
  · refine ⟨job, hjob, ?_⟩
    rw [hsameJobs]
    exact hjobs

/-- A request is a repetition of the one a child was admitted by, and changes
nothing, or it admits a child. -/
theorem acceptChildRun_post (lease : Option ExecutionLease) (request : ChildRequest)
    (s : Session Database World) :
    Post (acceptChildRun lease request) s fun result s' ↦
      (result.2 = false ∧ result.1 ∈ s.db.runs.rows ∧
        result.1.spawnOperationId = some request.spawnOperationId ∧ s'.db = s.db) ∨
      (result.2 = true ∧ Admitted request result.1 s.db s'.db) := by
  unfold acceptChildRun
  rw [post_bind, post_require]
  intro _
  rw [post_bind]
  refine post_readOnly (keeps_normalizeChildAgentDefinition _) fun definition w ↦ ?_
  refine post_runWriteTransaction fun w₁ _ ↦ ?_
  unfold findRun
  rw [post_bind, post_read, post_bind, post_getOr]
  intro parent hparent
  rw [post_bind]
  refine post_readOnly (keeps_normalizeChildCoordination _ _) fun coordination w₂ ↦ ?_
  rw [post_bind, post_read]
  split
  · rename_i record hrecord
    rw [post_bind, post_require]
    intro _
    have hspawn := List.find?_some hrecord
    exact (post_pure _).mpr
      (.inl ⟨rfl, List.mem_of_find?_eq_some hrecord, by simpa using hspawn, rfl⟩)
  · rename_i hnone
    rw [post_bind]
    refine post_readOnly (keeps_requireSpawnOperation _ _) fun _ w₃ ↦ ?_
    rw [post_bind]
    have hfresh : ∀ r ∈ s.db.runs.rows, r.spawnOperationId ≠ some request.spawnOperationId :=
      fun r hr ↦ by simpa using List.find?_eq_none.mp hnone r hr
    refine (createChildRun_post (s := ⟨s.db, w₃⟩) hparent hfresh).mono fun child s' h ↦ ?_
    exact (post_pure _).mpr (.inr ⟨rfl, h⟩)

end ShejaneRuntime.Store
