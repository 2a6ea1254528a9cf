import ShejaneRuntime.Collaboration.Families
import ShejaneRuntime.Lockstep.Reachable

/-!
# Dependencies between children

Whatever the Runtime does, the children of a run wait for older siblings
only, and there are boundedly many of them. A claim leases a child whose
dependencies have all completed; what has failed stays failed, so a child
that waits for it is never leased. A spawn operation that is replayed finds
the child it created.
-/

namespace ShejaneRuntime.Store

open Lib Lib.Txn Lockstep

variable {db db' : Database} {a b : String}

/-! ## A child that is admitted -/

theorem mem_childRuns {r : Run} {parentRunId : String} : r ∈ childRuns db parentRunId ↔
    r ∈ db.runs.rows ∧ r.parentRunId = some parentRunId ∧ r.runKind = .child := by
  simp [childRuns, Table.select]

theorem admittedAt_lt_length (h : a ∈ db.runs.rows.map Run.id) :
    admittedAt db a < (db.runs.rows.map Run.id).length :=
  List.idxOf_lt_length_of_mem h

/-- A run that is inserted comes after all others. -/
theorem admittedAt_inserted {run : Run} (h : db.runs.insert? run = some db'.runs) :
    admittedAt db' run.id = (db.runs.rows.map Run.id).length := by
  have hnew : run.id ∉ db.runs.rows.map Run.id := by
    intro hmem
    obtain ⟨r, hr, hid⟩ := List.mem_map.mp hmem
    exact Table.find?_eq_none_iff.mp (Table.find?_key_of_insert? h) r hr hid
  unfold admittedAt
  rw [Table.rows_of_insert? h, List.map_append, List.map_singleton,
    List.idxOf_append_of_notMem hnew, List.idxOf_cons_self, Nat.add_zero]

/-- The run waits for one of the children that are there, or it did before. -/
theorem Admitted.dependsOn_cases {request : ChildRequest} {child : Run}
    (h : Admitted request child db db') (hab : DependsOn db' a b) :
    DependsOn db a b ∨ a = child.id ∧ ∃ parentRunId, child.parentRunId = some parentRunId ∧
      ∃ r ∈ childRuns db parentRunId, r.id = b := by
  obtain ⟨parent, c, goal, definition, policy, hfind, hadmissible, hrecord, hrecorded⟩ := h.parent
  obtain ⟨d, hd, rfl, rfl⟩ := hab
  rw [hrecorded.dependencies, List.mem_append] at hd
  rcases hd with hold | hnew
  · exact .inl ⟨d, hold, rfl, rfl⟩
  · obtain ⟨id, hid, rfl⟩ := List.mem_map.mp hnew
    have hparent : child.parentRunId = some parent.id := by
      rw [hrecord.parentRunId, Table.key_of_find? hfind]
      rfl
    exact .inr ⟨rfl, parent.id, hparent, hadmissible.siblings id hid⟩

theorem Admitted.dependsOn {request : ChildRequest} {child : Run}
    (h : Admitted request child db db') (hab : DependsOn db a b) : DependsOn db' a b := by
  obtain ⟨_, _, _, _, _, _, _, _, hrecorded⟩ := h.parent
  obtain ⟨d, hd, hchild, hdependency⟩ := hab
  refine ⟨d, ?_, hchild, hdependency⟩
  rw [hrecorded.dependencies]
  exact List.mem_append_left _ hd

theorem Admitted.families {request : ChildRequest} {child : Run}
    (h : Admitted request child db db') (hf : Families db) : Families db' := by
  obtain ⟨parent, c, goal, definition, policy, hfind, hadmissible, hrecord, _⟩ := h.parent
  have hkind : child.runKind = .child := hrecord.runKind
  have hspawn : child.spawnOperationId = some request.spawnOperationId := hrecord.spawnOperationId
  have hparent : child.parentRunId = some parent.id := by
    rw [hrecord.parentRunId, Table.key_of_find? hfind]
    rfl
  have hmem : ∀ r, r ∈ db'.runs.rows ↔ r ∈ db.runs.rows ∨ r = child :=
    fun _ ↦ Table.mem_insert? h.inserted
  refine ⟨?_, ?_, ?_, ?_, ?_⟩
  · intro a b hab
    rcases h.dependsOn_cases hab with hold | ⟨rfl, p, hp, r, hr, rfl⟩
    · exact (hf.siblings a b hold).insert h.inserted
    · obtain ⟨hrows, hparent', hkind'⟩ := mem_childRuns.mp hr
      refine ⟨child, (hmem child).mpr (.inr rfl), r, (hmem r).mpr (.inl hrows), rfl, rfl, hkind,
        hkind', ?_, hp.trans hparent'.symm⟩
      rw [hp]
      rfl
  · intro a b hab
    rcases h.dependsOn_cases hab with hold | ⟨rfl, p, _, r, hr, rfl⟩
    · obtain ⟨ha, hb⟩ := (hf.siblings a b hold).mem
      rw [admittedAt_insert h.inserted ha, admittedAt_insert h.inserted hb]
      exact hf.earlier a b hold
    · have hold : r.id ∈ db.runs.rows.map Run.id :=
        List.mem_map_of_mem (mem_childRuns.mp hr).1
      rw [admittedAt_inserted h.inserted, admittedAt_insert h.inserted hold]
      exact admittedAt_lt_length hold
  · intro parentRunId
    rw [childRuns_insert h.inserted, List.length_append]
    have hle := hf.fanout parentRunId
    split
    · rename_i hchild
      have hid : parent.id = parentRunId := Option.some.inj (hparent.symm.trans hchild.1)
      have hlt := hadmissible.fanout
      rw [hid] at hlt
      rw [List.length_singleton]
      exact hlt
    · simpa using hle
  · intro r hr hchild
    rcases (hmem r).mp hr with hold | rfl
    · obtain ⟨hle, p, hp, hrest⟩ := hf.depth r hold hchild
      exact ⟨hle, p, (hmem p).mpr (.inl hp), hrest⟩
    · refine ⟨?_, parent, (hmem parent).mpr (.inl (Table.mem_of_find? hfind)), hparent,
        hrecord.collaborationDepth⟩
      rw [hrecord.collaborationDepth]
      exact hadmissible.depth
  · intro r hr r' hr' hsome hsame
    rcases (hmem r).mp hr with hold | rfl
    · rcases (hmem r').mp hr' with hold' | rfl
      · exact hf.spawns r hold r' hold' hsome hsame
      · exact absurd (hsame.trans hspawn) (h.fresh r hold)
    · rcases (hmem r').mp hr' with hold' | rfl
      · exact absurd (hsame.symm.trans hspawn) (h.fresh r' hold')
      · rfl

/-! ## Every operation -/

theorem Kind.eq_collaboration {k : Kind} (h : Part.collaboration ∈ k.parts) :
    k = .collaboration := by
  cases k <;> simp_all [Kind.parts]

theorem Writing.sameCollaboration {kinds : List Kind} (h : Writing kinds db db')
    (hkinds : Kind.collaboration ∉ kinds) : db'.collaboration = db.collaboration := by
  refine h.within.same .collaboration fun hmem ↦ ?_
  obtain ⟨k, hk, hpart⟩ := List.mem_flatMap.mp hmem
  exact hkinds (Kind.eq_collaboration hpart ▸ hk)

/-- What an operation does to families and their dependencies. -/
inductive FamilyStep (db db' : Database) : Prop
  | fixed : FixedRuns db db' → db'.collaboration = db.collaboration → FamilyStep db db'
  | started {c : RunCommand} {run : Run} : Started c run db db' →
      db'.collaboration = db.collaboration → FamilyStep db db'
  | admitted {request : ChildRequest} {child : Run} : Admitted request child db db' →
      FamilyStep db db'

theorem StoreOp.familyStep (op : StoreOp) (db : Database) (w : World) :
    FamilyStep db (op.after db w) := by
  have hwriting := op.after_writing db w
  have hrest : Kind.newRun ∉ op.kinds → Kind.collaboration ∉ op.kinds →
      FamilyStep db (op.after db w) := fun hrun hcollaboration ↦
    .fixed (hwriting.fixedRuns hrun) (hwriting.sameCollaboration hcollaboration)
  cases op with
  | acceptRunCommand c =>
      rcases after_acceptRunCommand c db w with hsame | ⟨run, hstarted⟩
      · rw [hsame]
        exact .fixed rfl rfl
      · exact .started hstarted (hwriting.sameCollaboration (by simp [StoreOp.kinds, startKinds]))
  | acceptChildRun lease request =>
      rcases after_acceptChildRun lease request db w with hsame | ⟨child, hadmitted⟩
      · rw [hsame]
        exact .fixed rfl rfl
      · exact .admitted hadmitted
  | appendEvent lease runId eventType payload =>
      refine hrest ?_ ?_
      · simp only [StoreOp.kinds]
        split <;> simp
      · simp only [StoreOp.kinds]
        split <;> simp
  | _ =>
      exact hrest (by simp [StoreOp.kinds, lifecycleKinds, answerKinds])
        (by simp [StoreOp.kinds, lifecycleKinds, answerKinds])

theorem FamilyStep.families (h : FamilyStep db db') (hf : Families db) : Families db' := by
  cases h with
  | fixed hfixed hsame => exact hf.of_fixedRuns hfixed (congrArg _ hsame)
  | @started c run hstarted hsame =>
      obtain ⟨thread, journal, rootRunId, assistantItemId, hrecord, _⟩ := hstarted.turn
      refine hf.insert hstarted.inserted ?_ hrecord.spawnOperationId (congrArg _ hsame)
      intro hkind
      rw [hrecord.runKind, runCommandRecord] at hkind
      dsimp only at hkind
      split at hkind <;> cases hkind
  | admitted hadmitted => exact hadmitted.families hf

theorem FamilyStep.dependsOn (h : FamilyStep db db') (hab : DependsOn db a b) :
    DependsOn db' a b := by
  cases h with
  | fixed _ hsame =>
      unfold DependsOn
      rw [hsame]
      exact hab
  | started _ hsame =>
      unfold DependsOn
      rw [hsame]
      exact hab
  | admitted hadmitted => exact hadmitted.dependsOn hab

/-- A run stays, with what was fixed when it was admitted. -/
theorem FamilyStep.run (h : FamilyStep db db') {r : Run} (hr : r ∈ db.runs.rows) :
    ∃ r' ∈ db'.runs.rows, r'.fixed = r.fixed := by
  cases h with
  | fixed hfixed _ =>
      obtain ⟨r', hr', heq⟩ := hfixed.symm.mem hr
      exact ⟨r', hr', heq.symm⟩
  | started hstarted _ => exact ⟨r, (Table.mem_insert? hstarted.inserted).mpr (.inl hr), rfl⟩
  | admitted hadmitted => exact ⟨r, (Table.mem_insert? hadmitted.inserted).mpr (.inl hr), rfl⟩

theorem families_empty : Families Database.empty := by
  refine ⟨?_, ?_, ?_, ?_, ?_⟩
  · rintro a b ⟨d, hd, _⟩
    cases hd
  · rintro a b ⟨d, hd, _⟩
    cases hd
  · intro parentRunId
    exact Nat.zero_le _
  · intro r hr
    cases hr
  · intro r hr
    cases hr

theorem families_of_reachable {ok : StoreOp × World → Database → Prop}
    (h : store.ReachableBy ok db) : Families db := by
  refine System.ReachableBy.invariant (P := Families) ?_ ?_ h
  · rintro db rfl
    exact families_empty
  · rintro i db db' hf _ rfl
    exact (i.1.familyStep db i.2).families hf

theorem dependsOn_run {ok : StoreOp × World → Database → Prop} (h : store.Run ok db db')
    (hab : DependsOn db a b) : DependsOn db' a b := by
  refine System.Run.preserves (P := fun db ↦ DependsOn db a b) ?_ h hab
  rintro i db db' hab _ rfl
  exact (i.1.familyStep db i.2).dependsOn hab

theorem run_stays {ok : StoreOp × World → Database → Prop} (h : store.Run ok db db') {r : Run}
    (hr : r ∈ db.runs.rows) : ∃ r' ∈ db'.runs.rows, r'.fixed = r.fixed := by
  refine System.Run.preserves (P := fun db ↦ ∃ r' ∈ db.runs.rows, r'.fixed = r.fixed) ?_ h
    ⟨r, hr, rfl⟩
  rintro i db db' ⟨r', hr', hfixed⟩ _ rfl
  obtain ⟨r'', hr'', hfixed'⟩ := (i.1.familyStep db i.2).run hr'
  exact ⟨r'', hr'', hfixed'.trans hfixed⟩

/-! ## Claims -/

/-- Every run the given one waits for has completed. -/
def DependenciesCompleted (db : Database) (runId : String) : Prop :=
  ∀ dependency, DependsOn db runId dependency →
    ∃ d, db.runs.find? dependency = some d ∧ d.status = .completed

/-- What a claim that leases a job leaves alone. -/
structure Leased (job job' : Job) (db db' : Database) : Prop where
  runId : job'.runId = job.runId
  collaboration : db'.collaboration = db.collaboration
  runs : ∀ runId, runId ≠ job.runId → db'.runs.find? runId = db.runs.find? runId
  kind : ∀ r', db'.runs.find? job.runId = some r' →
    ∃ r, db.runs.find? job.runId = some r ∧ r'.runKind = r.runKind

theorem leasePendingJob_leased {s : Session Database World} {job : Job} {workerId : String}
    {leaseSeconds now : Time} (hjob : job ∈ s.db.jobs.rows) :
    Post (leasePendingJob job workerId leaseSeconds now) s fun job? s' ↦
      ∀ job', job? = some job' → Leased job job' s.db s'.db := by
  unfold leasePendingJob updateJobs updateRuns
  rw [post_bind]
  refine post_utcNow fun leasedAt w ↦ ?_
  simp only [post_bind, post_write, post_read]
  intro job' hfind
  rw [Table.find?_update, Table.find?_of_mem hjob, Option.map_some, Option.some_inj] at hfind
  refine ⟨?_, rfl, ?_, ?_⟩
  · rw [← hfind]
    split <;> rfl
  · intro runId hne
    rw [Table.find?_update]
    cases hrun : s.db.runs.find? runId with
    | none => rfl
    | some r =>
        have hid : r.id ≠ job.runId := (Table.key_of_find? hrun).trans_ne hne
        simp [hid]
  · intro r' hr'
    rw [Table.find?_update] at hr'
    obtain ⟨r, hr, rfl⟩ := Option.map_eq_some_iff.mp hr'
    refine ⟨r, hr, ?_⟩
    split <;> rfl

/-- The job a claim leases was the next one, in a state that the claim itself reached. -/
theorem claimRunJob_leased (workerId : String) (leaseSeconds : Time)
    (s : Session Database World) :
    Post (claimRunJob workerId leaseSeconds) s fun job? s' ↦ ∀ job', job? = some job' →
      ∃ db₁ job, nextPendingJob db₁ = some job ∧ Leased job job' db₁ s'.db := by
  unfold claimRunJob
  rw [post_bind]
  refine post_utcNow fun now w ↦ ?_
  rw [post_bind]
  intro _ s₁ _
  rw [post_bind, post_read, post_bind]
  intro _ s₂ _
  rw [post_bind, post_read]
  split
  · exact (post_pure _).mpr fun _ h ↦ by cases h
  · rename_i job hnext
    have hjob : job ∈ s₂.db.jobs.rows :=
      (mem_pendingJobs.mp (List.mem_of_find?_eq_some hnext)).1
    exact (leasePendingJob_leased hjob).mono fun _ s₃ h job' hjob' ↦
      ⟨s₂.db, job, hnext, h job' hjob'⟩

theorem completed_of_next {job : Job} {r : Run} (hf : ∀ dependency,
      DependsOn db job.runId dependency → ∃ d, db.runs.find? dependency = some d)
    (hnext : nextPendingJob db = some job) (hrun : db.runs.find? job.runId = some r)
    (hkind : r.runKind = .child) : DependenciesCompleted db job.runId := by
  have hcond := List.find?_some hnext
  rw [hrun] at hcond
  simp only [hkind, ne_eq, not_true_eq_false, decide_false, Bool.false_or, List.all_eq_true,
    decide_eq_true_eq] at hcond
  intro dependency hdepends
  obtain ⟨d, hd⟩ := hf dependency hdepends
  obtain ⟨row, hrow, hchild, rfl⟩ := hdepends
  refine ⟨d, hd, hcond d.status ?_⟩
  unfold dependencyStatuses
  refine List.mem_filterMap.mpr ⟨row, ?_, ?_⟩
  · simp [Table.select, hrow, hchild]
  · rw [hd]
    rfl

/-- The result of a claim and the store it leaves. -/
abbrev claimed (workerId : String) (leaseSeconds : Time) (db : Database) (w : World) :
    Except StoreError (Option Job) × Database :=
  Txn.commit (claimRunJob workerId leaseSeconds) db w

theorem commit_effect {α : Type} (m : StoreTxn α) (db : Database) (w : World) :
    (Txn.commit (effect m) db w).2 = (Txn.commit m db w).2 := by
  unfold Txn.commit effect
  cases h : m ⟨db, w⟩ with
  | error e => simp [Functor.map, StateT.map, h, bind, Except.bind]
  | ok r => simp [Functor.map, StateT.map, h, bind, Except.bind, pure, Except.pure]

theorem after_claimRunJob (workerId : String) (leaseSeconds : Time) (db : Database) (w : World) :
    (StoreOp.claimRunJob workerId leaseSeconds).after db w =
      (claimed workerId leaseSeconds db w).2 :=
  commit_effect _ db w

/-- A child that a claim leases waits for no run that has not completed. -/
theorem claimed_completed {workerId : String} {leaseSeconds : Time} {w : World} {job : Job}
    (hf : Families db) (hclaim : claimed workerId leaseSeconds db w = (.ok (some job), db'))
    {r : Run} (hrun : db'.runs.find? job.runId = some r) (hkind : r.runKind = .child) :
    DependenciesCompleted db' job.runId := by
  have hafter : (StoreOp.claimRunJob workerId leaseSeconds).after db w = db' := by
    rw [after_claimRunJob, hclaim]
  have hf' : Families db' := hafter ▸ (StoreOp.familyStep _ db w).families hf
  have hexists : ∀ dependency, DependsOn db' job.runId dependency →
      dependency ≠ job.runId ∧ ∃ d, db'.runs.find? dependency = some d := by
    intro dependency hdepends
    obtain ⟨_, _, d, hd, _, rfl, _⟩ := hf'.siblings _ _ hdepends
    refine ⟨?_, d, Table.find?_of_mem hd⟩
    intro hself
    have hearlier := hf'.earlier _ _ hdepends
    rw [hself] at hearlier
    exact lt_irrefl _ hearlier
  have hok : (Txn.commit (Store.claimRunJob workerId leaseSeconds) db w).1 = .ok (some job) :=
    congrArg Prod.fst hclaim
  obtain ⟨s, hs, hdb⟩ := commit_ok hok
  have hdb' : s.db = db' := hdb.symm.trans (congrArg Prod.snd hclaim)
  obtain ⟨db₁, first, hnext, hleased⟩ :=
    claimRunJob_leased workerId leaseSeconds ⟨db, w⟩ _ s hs job rfl
  rw [hdb'] at hleased
  rw [hleased.runId] at hrun hexists ⊢
  obtain ⟨r₁, hr₁, hkind₁⟩ := hleased.kind r hrun
  have hsame : ∀ dependency, DependsOn db' first.runId dependency ↔
      DependsOn db₁ first.runId dependency := by
    intro dependency
    unfold DependsOn
    rw [hleased.collaboration]
  have hcompleted : DependenciesCompleted db₁ first.runId := by
    refine completed_of_next ?_ hnext hr₁ (hkind₁ ▸ hkind)
    intro dependency hdepends
    obtain ⟨hne, d, hd⟩ := hexists dependency ((hsame _).mpr hdepends)
    exact ⟨d, hleased.runs dependency hne ▸ hd⟩
  intro dependency hdepends
  obtain ⟨d, hd, hstatus⟩ := hcompleted dependency ((hsame _).mp hdepends)
  exact ⟨d, (hleased.runs dependency (hexists dependency hdepends).1).trans hd, hstatus⟩

/-! ## Dependencies that have failed -/

theorem steps_of_callsWhileWaiting (hlocked : Locked announces resumable (abs db))
    (hrun : store.Run callsWhileWaiting db db') : Steps announces resumable (abs db) (abs db') := by
  refine System.Run.relates (P := fun db ↦ Locked announces resumable (abs db))
    (R := fun db db' ↦ Steps announces resumable (abs db) (abs db')) ?_ ?_ ?_ hrun hlocked
  · intro _
    exact .refl
  · intro t u v htu huv
    exact Relation.ReflTransGen.trans htu huv
  · rintro i t u ht hcalls rfl
    have hsteps := (StoreOp.after_reports (.inl rfl) (fun st hst ↦ .inr hst) i.2
      (admitted_of_callsWhileWaiting hcalls) ht).1
    exact ⟨Steps.locked hsteps ht, hsteps⟩

/-- A child that waits for a run that ended otherwise than completed is never leased. -/
theorem blocked_never_leased {workerId : String} {leaseSeconds : Time} {w : World} {job : Job}
    {db'' : Database} {d : Run} (h : store.ReachableBy callsWhileWaiting db)
    (hab : DependsOn db a b) (hd : db.runs.find? b = some d) (hended : d.status.terminal = true)
    (hfailed : d.status ≠ .completed) (hrun : store.Run callsWhileWaiting db db')
    (hclaim : claimed workerId leaseSeconds db' w = (.ok (some job), db'')) : job.runId ≠ a := by
  rintro rfl
  have hafter : (StoreOp.claimRunJob workerId leaseSeconds).after db' w = db'' := by
    rw [after_claimRunJob, hclaim]
  have hrun' : store.Run callsWhileWaiting db db'' := by
    refine hrun.tail (i := (.claimRunJob workerId leaseSeconds, w)) ⟨trivial, ?_⟩ hafter.symm
    intro _ _ _ hop
    cases hop
  have hf : Families db'' := families_of_reachable (h.trans hrun')
  have hdepends : DependsOn db'' job.runId b := dependsOn_run hrun' hab
  obtain ⟨r, hr, _, _, hid, _, hkind, _⟩ := hf.siblings _ _ hdepends
  obtain ⟨d', hd', hcompleted⟩ := claimed_completed (families_of_reachable (h.trans hrun)) hclaim
    (hid ▸ Table.find?_of_mem hr) hkind b hdepends
  have hlocked := locked_of_callsWhileWaiting h
  have hspares := Steps.ended (steps_of_callsWhileWaiting hlocked hrun') hlocked
    (fun _ ↦ not_terminal_of_resumable) (status_of_find? hd) hended
  have hstatus := (status_of_find? hd').symm.trans (hspares.1.trans (status_of_find? hd))
  exact hfailed ((Option.some.inj hstatus).symm.trans hcompleted)

/-! ## Replayed spawn operations -/

/-- A child is admitted once for each spawn operation, and a replay changes nothing. -/
theorem spawn_replayed {child : Run} {lease : Option ExecutionLease} {request : ChildRequest}
    {w : World} (hf : Families db) (hchild : child ∈ db.runs.rows)
    (hspawn : child.spawnOperationId = some request.spawnOperationId) :
    (Txn.commit (acceptChildRun lease request) db w).2 = db ∧
      ∀ result, (Txn.commit (acceptChildRun lease request) db w).1 = .ok result →
        result = (child, false) := by
  cases hres : (Txn.commit (acceptChildRun lease request) db w).1 with
  | error e => exact ⟨commit_error hres, fun _ h ↦ by cases h⟩
  | ok result =>
      obtain ⟨s, hs, hdb⟩ := commit_ok hres
      rcases acceptChildRun_post lease request ⟨db, w⟩ result s hs with
        ⟨hold, hmem, hsame, hkept⟩ | ⟨_, hadmitted⟩
      · refine ⟨hdb.trans hkept, ?_⟩
        rintro _ ⟨rfl⟩
        have hrow : result.1 = child := hf.spawns _ hmem _ hchild (by rw [hsame]; rfl)
          (hsame.trans hspawn.symm)
        exact Prod.ext hrow hold
      · exact absurd hspawn (hadmitted.fresh child hchild)

/-! ## Repeating a request -/

/-- A transaction that reads nothing but how paths resolve, and changes nothing. -/
def Pathwise {α : Type} (m : StoreTxn α) : Prop :=
  ∀ s a t, m s = .ok (a, t) → t = s ∧ ∀ s' : Session Database World,
    s'.world.resolvePath = s.world.resolvePath → m s' = .ok (a, s')

section Pathwise

variable {α β : Type} {m : StoreTxn α}

theorem Pathwise.pure (a : α) : Pathwise (pure a : StoreTxn α) := by
  rintro s _ _ ⟨⟩
  exact ⟨rfl, fun _ _ ↦ rfl⟩

theorem Pathwise.fail (e : StoreError) : Pathwise (Txn.fail e : StoreTxn α) := by
  rintro s _ _ ⟨⟩

theorem Pathwise.require (c : Prop) [Decidable c] (e : StoreError) :
    Pathwise (Txn.require c e : StoreTxn Unit) := by
  unfold Txn.require
  split
  · exact .pure ()
  · exact .fail e

theorem Pathwise.getOr (o : Option α) (e : StoreError) :
    Pathwise (Txn.getOr o e : StoreTxn α) := by
  cases o with
  | none => exact .fail e
  | some a => exact .pure a

theorem Pathwise.bind {f : α → StoreTxn β} (hm : Pathwise m) (hf : ∀ a, Pathwise (f a)) :
    Pathwise (m >>= f) := by
  intro s b t h
  have hbind : ∀ s a, m s = .ok (a, s) → (m >>= f) s = f a s := by
    intro s a ha
    simp [Bind.bind, StateT.bind, ha, Except.bind]
  cases hms : m s with
  | error e => simp [Bind.bind, StateT.bind, hms, Except.bind] at h
  | ok r =>
      obtain ⟨a, u⟩ := r
      obtain ⟨rfl, hrepeat⟩ := hm s a u hms
      rw [hbind _ a hms] at h
      obtain ⟨rfl, hrepeat'⟩ := hf a _ b t h
      refine ⟨rfl, fun s' hs' ↦ ?_⟩
      rw [hbind s' a (hrepeat s' hs')]
      exact hrepeat' s' hs'

theorem Pathwise.resolvePath (path : String) : Pathwise (resolvePath path) := by
  rintro s _ _ ⟨⟩
  refine ⟨rfl, fun s' hs' ↦ ?_⟩
  unfold Store.resolvePath Txn.draw
  dsimp only
  rw [hs']

theorem Pathwise.mapM {f : β → StoreTxn α} (hf : ∀ b, Pathwise (f b)) (bs : List β) :
    Pathwise (bs.mapM f) := by
  induction bs with
  | nil => exact .pure []
  | cons b bs ih =>
      rw [List.mapM_cons]
      exact .bind (hf b) fun a ↦ .bind ih fun as ↦ .pure _

theorem Pathwise.forM {f : β → StoreTxn PUnit} (hf : ∀ b, Pathwise (f b)) (bs : List β) :
    Pathwise (forM bs f) := by
  induction bs with
  | nil => exact Pathwise.pure PUnit.unit
  | cons b bs ih =>
      rw [List.forM_cons]
      exact .bind (hf b) fun _ ↦ ih

/-- What succeeds once succeeds again wherever paths resolve the same. -/
theorem Pathwise.post {s : Session Database World} {Q : α → Session Database World → Prop}
    (hm : Pathwise m) (h : ∀ a, (∀ s' : Session Database World,
      s'.world.resolvePath = s.world.resolvePath → m s' = .ok (a, s')) → Q a s) : Post m s Q := by
  intro a t hms
  obtain ⟨rfl, hrepeat⟩ := hm s a t hms
  exact h a hrepeat

end Pathwise

theorem pathwise_normalizeChildAgentDefinition (d : ChildAgentDefinition) :
    Pathwise (normalizeChildAgentDefinition d) :=
  .bind (.forM (fun _ ↦ .require _ _) _) fun _ ↦ .bind (.require _ _) fun _ ↦
    .bind (.require _ _) fun _ ↦ .pure _

theorem pathwise_resolveResource (workspacePath raw : String) (workspace : List String) :
    Pathwise (resolveResource workspacePath raw workspace) := by
  unfold resolveResource
  split
  · refine .bind (.resolvePath _) fun absolute ↦ ?_
    split
    · exact .pure _
    · exact .resolvePath _
  · exact .resolvePath _

theorem pathwise_normalizeWorkspaceResourceKey (workspacePath : Option String)
    (requestedPath : String) :
    Pathwise (normalizeWorkspaceResourceKey workspacePath requestedPath) :=
  .bind (.getOr _ _) fun _ ↦ .bind (.require _ _) fun _ ↦ .bind (.resolvePath _) fun _ ↦
    .bind (pathwise_resolveResource _ _ _) fun _ ↦ .bind (.getOr _ _) fun _ ↦
    .bind (.require _ _) fun _ ↦ .bind (.require _ _) fun _ ↦ .pure _

theorem pathwise_normalizeQuorum (request : CoordinationRequest) :
    Pathwise (normalizeQuorum request) := by
  unfold normalizeQuorum
  split
  · exact .bind (.require _ _) fun _ ↦ .bind (.getOr _ _) fun _ ↦ .bind (.require _ _) fun _ ↦
      .pure _
  · exact .bind (.require _ _) fun _ ↦ .pure _

theorem pathwise_normalizeChildCoordination (request : CoordinationRequest)
    (workspacePath : Option String) :
    Pathwise (normalizeChildCoordination request workspacePath) :=
  .bind (.require _ _) fun _ ↦
    .bind (.mapM (fun _ ↦ pathwise_normalizeWorkspaceResourceKey _ _) _) fun _ ↦
    .bind (.require _ _) fun _ ↦ .bind (pathwise_normalizeQuorum _) fun _ ↦ .pure _

/-! ## The specification a child is stored with -/

theorem sortedItems_texts (texts : List String) :
    Json.sortedItems (texts.map Json.str) = texts.map Json.str := by
  induction texts with
  | nil => rfl
  | cons text texts ih =>
      rw [List.map_cons, Json.sortedItems, ih]
      rfl

theorem insertField_of_lt {kv : String × Json} {fields : List (String × Json)}
    (h : ∀ kv' ∈ fields, kv.1 < kv'.1) : Json.insertField kv fields = kv :: fields := by
  cases fields with
  | nil => rfl
  | cons kv' rest =>
      rw [Json.insertField, if_pos (h kv' List.mem_cons_self)]

/-- Fields that are sorted, values included, stay as they are. -/
theorem sortedFields_of_sorted {fields : List (String × Json)}
    (h : fields.Pairwise fun kv kv' ↦ kv.1 < kv'.1) (hvalues : ∀ kv ∈ fields, kv.2.sorted = kv.2) :
    Json.sortedFields fields = fields := by
  induction fields with
  | nil => rfl
  | cons kv rest ih =>
      obtain ⟨hlt, hrest⟩ := List.pairwise_cons.mp h
      rw [Json.sortedFields, hvalues kv List.mem_cons_self,
        ih hrest fun kv' hkv' ↦ hvalues kv' (List.mem_cons_of_mem _ hkv')]
      exact insertField_of_lt hlt

/-- The fields of a policy as they are stored. -/
def Coordination.storedFields (c : Coordination) : List (String × Json) :=
  [("completion_mode", .str c.completionMode.text),
   ("depends_on", .arr (c.dependsOn.map Json.str)),
   ("max_children", .num maxDurableChildrenPerRun),
   ("max_depth", .num maxDurableChildDepth),
   ("quorum_group", optText c.quorumGroup),
   ("quorum_required", (c.quorumRequired.map fun n ↦ Json.num n).getD .null),
   ("resource_claims", .arr (c.resourceClaims.map Json.str))]

theorem Coordination.sorted_of_mem {c : Coordination} {kv : String × Json}
    (h : kv ∈ c.storedFields) : kv.2.sorted = kv.2 := by
  simp only [storedFields, List.mem_cons, List.not_mem_nil, or_false] at h
  rcases h with rfl | rfl | rfl | rfl | rfl | rfl | rfl
  · rfl
  · exact congrArg Json.arr (sortedItems_texts _)
  · rfl
  · rfl
  · cases hgroup : c.quorumGroup <;> rfl
  · cases hrequired : c.quorumRequired <;> rfl
  · exact congrArg Json.arr (sortedItems_texts _)

theorem Coordination.sorted_storedFields (c : Coordination) :
    Json.sortedFields c.storedFields = c.storedFields := by
  refine sortedFields_of_sorted ?_ fun _ ↦ sorted_of_mem
  have hkeys : (c.storedFields.map Prod.fst).Pairwise (· < ·) := by
    change List.Pairwise _ ["completion_mode", "depends_on", "max_children", "max_depth",
      "quorum_group", "quorum_required", "resource_claims"]
    decide +kernel
  exact List.pairwise_map.mp hkeys

/-- A policy is stored with its fields in order. -/
theorem encodePayload_policy_eq (c : Coordination) :
    encodePayload c.policy = .obj c.storedFields := by
  have hgroup : (optText c.quorumGroup).sorted = optText c.quorumGroup := by
    cases c.quorumGroup <;> rfl
  have hrequired : ((c.quorumRequired.map fun n ↦ Json.num n).getD .null).sorted =
      (c.quorumRequired.map fun n ↦ Json.num n).getD .null := by
    cases c.quorumRequired <;> rfl
  have htexts : ∀ texts : List String, (Json.arr (texts.map Json.str)).sorted =
      .arr (texts.map Json.str) := fun texts ↦ congrArg Json.arr (sortedItems_texts texts)
  have hinsert : ∀ v₁ v₂ v₃ v₄ v₅ v₆ v₇ : Json, Json.insertField ("max_depth", v₁)
      (Json.insertField ("max_children", v₂) (Json.insertField ("completion_mode", v₃)
        (Json.insertField ("depends_on", v₄) (Json.insertField ("resource_claims", v₅)
          (Json.insertField ("quorum_group", v₆) [("quorum_required", v₇)]))))) =
      [("completion_mode", v₃), ("depends_on", v₄), ("max_children", v₂), ("max_depth", v₁),
        ("quorum_group", v₆), ("quorum_required", v₇), ("resource_claims", v₅)] := by
    intro v₁ v₂ v₃ v₄ v₅ v₆ v₇
    simp only [Json.insertField, String.reduceLT, if_true, if_false]
  unfold encodePayload Coordination.policy Coordination.fields
  rw [Json.sorted]
  simp only [List.cons_append, List.nil_append, Json.sortedFields, hgroup, hrequired, htexts]
  exact congrArg Json.obj (hinsert _ _ _ _ _ _ _)

/-- The stored policy is read back as it was written. -/
theorem encodePayload_policy (c : Coordination) :
    encodePayload (jsonPayload (some (encodePayload (Json.orEmpty (some c.policy))))) =
      encodePayload c.policy := by
  rw [show Json.orEmpty (some c.policy) = c.policy from rfl, encodePayload_policy_eq]
  exact congrArg Json.obj c.sorted_storedFields

theorem sameChild_of_fixed {request : ChildRequest} {goal : String}
    {definition : ChildAgentDefinition} {policy : Json} {r r' : Run} (h : r'.fixed = r.fixed) :
    sameChild request goal definition policy r' = sameChild request goal definition policy r := by
  have hgoal : r'.goal = r.goal :=
    (congrArg Run.goal h : r'.fixed.goal = r.fixed.goal)
  have hdefinition : r'.agentDefinitionId = r.agentDefinitionId :=
    (congrArg Run.agentDefinitionId h : r'.fixed.agentDefinitionId = r.fixed.agentDefinitionId)
  have hversion : r'.agentDefinitionVersion = r.agentDefinitionVersion :=
    (congrArg Run.agentDefinitionVersion h :
      r'.fixed.agentDefinitionVersion = r.fixed.agentDefinitionVersion)
  have hmetadata : r'.metadataJson = r.metadataJson :=
    (congrArg Run.metadataJson h : r'.fixed.metadataJson = r.fixed.metadataJson)
  have hpolicy : r'.collaborationPolicyJson = r.collaborationPolicyJson :=
    (congrArg Run.collaborationPolicyJson h :
      r'.fixed.collaborationPolicyJson = r.fixed.collaborationPolicyJson)
  unfold sameChild
  rw [Run.runKind_of_fixed h, Run.parentRunId_of_fixed h, hgoal, hdefinition, hversion, hmetadata,
    hpolicy]

/-- A child is recognized by the request it was admitted by. -/
theorem sameChild_of_recordOf {request : ChildRequest} {goal rootRunId : String}
    {definition : ChildAgentDefinition} {parent child : Run} {c : Coordination}
    (h : child.RecordOf (childRecord request goal definition parent rootRunId c.policy)) :
    sameChild request goal definition c.policy child = true := by
  have hpolicy : encodePayload (jsonPayload (some child.collaborationPolicyJson)) =
      encodePayload c.policy := by
    rw [h.collaborationPolicyJson]
    exact encodePayload_policy c
  unfold sameChild
  rw [hpolicy, h.runKind, h.parentRunId, h.goal, h.agentDefinitionId, h.agentDefinitionVersion,
    h.metadataJson]
  simp [childRecord, childMetadata, Json.orEmpty, Json.truthy, jsonPayload,
    Json.get?, ChildAgentDefinition.json]

/-! ## The same request again -/

/-- The request a child was admitted by, as it was normalized then. -/
structure SpawnedBy (request : ChildRequest) (resolvePath : String → List String)
    (parent child : Run) (definition : ChildAgentDefinition) (c : Coordination) : Prop where
  goal : pyStrip request.goal ≠ "" ∧ (pyStrip request.goal).length ≤ 32 * 1024
  normalized : ∀ s : Session Database World, s.world.resolvePath = resolvePath →
    normalizeChildAgentDefinition request.agentDefinition s = .ok (definition, s)
  coordinated : ∀ s : Session Database World, s.world.resolvePath = resolvePath →
    normalizeChildCoordination request.coordination parent.workspacePath s = .ok (c, s)
  record : child.RecordOf (childRecord request (pyStrip request.goal) definition parent
    (textOr parent.rootRunId request.parentRunId) c.policy)

theorem requireLease_post (runId : String) (lease : Option ExecutionLease)
    (s : Session Database World) : Post (requireLease runId lease) s fun _ s' ↦
      s'.db = s.db ∧ s'.world.resolvePath = s.world.resolvePath := by
  cases lease with
  | none =>
      rintro _ _ ⟨⟩
      exact ⟨rfl, rfl⟩
  | some lease =>
      unfold requireLease utcNow
      simp only [post_bind, post_require, post_draw, post_read]
      intro _ _
      exact ⟨trivial, trivial⟩

theorem createChildRun_recordOf (request : ChildRequest) (goal : String)
    (definition : ChildAgentDefinition) (parent : Run) (c : Coordination)
    (s : Session Database World) :
    Post (createChildRun request goal definition parent c) s fun child _ ↦
      child.RecordOf (childRecord request goal definition parent
        (textOr parent.rootRunId request.parentRunId) c.policy) := by
  unfold createChildRun
  rw [post_bind]
  intro _ s₁ _
  rw [post_bind]
  refine newRunRecord_post fun child _ hrecord ↦ ?_
  simp only [post_bind]
  intro _ s₂ _ _ s₃ _ _ s₄ _ _ s₅ _ _ s₆ _ _ s₇ _ _ s₈ _
  exact (post_pure _).mpr hrecord

/-- What an admission leaves of its request. -/
theorem acceptChildRun_spawned (lease : Option ExecutionLease) (request : ChildRequest)
    (s : Session Database World) :
    Post (acceptChildRun lease request) s fun result _ ↦ result.2 = true →
      ∃ parent definition c, s.db.runs.find? request.parentRunId = some parent ∧
        SpawnedBy request s.world.resolvePath parent result.1 definition c := by
  unfold acceptChildRun
  rw [post_bind, post_require]
  intro hgoal
  rw [post_bind]
  refine (pathwise_normalizeChildAgentDefinition _).post fun definition hdefinition ↦ ?_
  unfold runWriteTransaction
  rw [post_bind]
  refine (requireLease_post _ _ s).mono ?_
  rintro _ s₁ ⟨hdb₁, hpaths₁⟩
  unfold findRun
  rw [post_bind, post_read, post_bind, post_getOr]
  intro parent hparent
  rw [post_bind]
  refine (pathwise_normalizeChildCoordination _ _).post fun c hc ↦ ?_
  rw [post_bind, post_read]
  split
  · rw [post_bind, post_require]
    intro _
    exact (post_pure _).mpr fun h ↦ by cases h
  · rw [post_bind]
    intro _ s₂ _
    rw [post_bind]
    refine (createChildRun_recordOf _ _ _ _ _ s₂).mono fun child s₃ hrecord ↦ ?_
    refine (post_pure _).mpr fun _ ↦ ⟨parent, definition, c, ?_, hgoal, hdefinition, ?_, hrecord⟩
    · rw [← hdb₁]
      exact hparent
    · rw [← hpaths₁]
      exact hc

/-- The lease, if the caller holds one, is the one of the parent and stands at
that moment. -/
def LeaseStands (db : Database) (w : World) (runId : String) (lease : Option ExecutionLease) :
    Prop :=
  ∀ held, lease = some held → held.runId = runId ∧
    db.jobs.rows.any (fun job ↦ job.admits held (w.clock 0)) = true

theorem requireLease_yields {db : Database} {w : World} {runId : String}
    {lease : Option ExecutionLease} (h : LeaseStands db w runId lease) :
    Yields (requireLease runId lease) ⟨db, w⟩ fun _ s' ↦
      s'.db = db ∧ s'.world.resolvePath = w.resolvePath := by
  cases lease with
  | none => exact ⟨(), _, rfl, rfl, rfl⟩
  | some held =>
      obtain ⟨hrun, hstands⟩ := h held rfl
      unfold requireLease utcNow
      simp only [yields_bind, yields_require, yields_draw, yields_read]
      exact ⟨hrun, hstands, trivial, trivial⟩

theorem yields_of_ok {α : Type} {m : StoreTxn α} {s s' : Session Database World} {a : α}
    {Q : α → Session Database World → Prop} (hm : m s = .ok (a, s')) (h : Q a s') :
    Yields m s Q :=
  ⟨a, s', hm, h⟩

/-- The request a child was admitted by finds that child. -/
theorem acceptChildRun_again {request : ChildRequest} {lease : Option ExecutionLease} {w : World}
    {parent parent' child child' : Run} {definition : ChildAgentDefinition} {c : Coordination}
    (hspawned : SpawnedBy request w.resolvePath parent child definition c)
    (hf : Families db) (hstands : LeaseStands db w request.parentRunId lease)
    (hparent : db.runs.find? request.parentRunId = some parent')
    (hparentFixed : parent'.fixed = parent.fixed) (hchild : child' ∈ db.runs.rows)
    (hchildFixed : child'.fixed = child.fixed) :
    Txn.commit (acceptChildRun lease request) db w = (.ok (child', false), db) := by
  have hworkspace : parent'.workspacePath = parent.workspacePath :=
    (congrArg Run.workspacePath hparentFixed : parent'.fixed.workspacePath =
      parent.fixed.workspacePath)
  have hspawn : child'.spawnOperationId = some request.spawnOperationId :=
    (Run.spawnOperationId_of_fixed hchildFixed).trans hspawned.record.spawnOperationId
  have hfind : (db.runs.rows.find? fun r ↦
      r.spawnOperationId = some request.spawnOperationId) = some child' := by
    cases hfirst : db.runs.rows.find? fun r ↦
        r.spawnOperationId = some request.spawnOperationId with
    | none =>
        have habsent := List.find?_eq_none.mp hfirst child' hchild
        simp [hspawn] at habsent
    | some first =>
        have hfirstSpawn : first.spawnOperationId = some request.spawnOperationId := by
          simpa using List.find?_some hfirst
        rw [hf.spawns first (List.mem_of_find?_eq_some hfirst) child' hchild
          (by rw [hfirstSpawn]; rfl) (hfirstSpawn.trans hspawn.symm)]
  have hsame : sameChild request (pyStrip request.goal) definition c.policy child' = true :=
    (sameChild_of_fixed hchildFixed).trans (sameChild_of_recordOf hspawned.record)
  have hyields : Yields (acceptChildRun lease request) ⟨db, w⟩ fun result s' ↦
      result = (child', false) ∧ s'.db = db := by
    unfold acceptChildRun
    rw [yields_bind, yields_require]
    refine ⟨hspawned.goal, ?_⟩
    rw [yields_bind]
    refine yields_of_ok (hspawned.normalized ⟨db, w⟩ rfl) ?_
    unfold runWriteTransaction
    rw [yields_bind]
    refine (requireLease_yields hstands).mono ?_
    rintro _ s₁ ⟨hdb₁, hpaths₁⟩
    unfold findRun
    rw [yields_bind, yields_read, yields_bind, yields_getOr]
    refine ⟨parent', hdb₁ ▸ hparent, ?_⟩
    rw [yields_bind]
    refine yields_of_ok (hworkspace ▸ hspawned.coordinated s₁ hpaths₁) ?_
    rw [yields_bind, yields_read, hdb₁, hfind]
    dsimp only
    rw [yields_bind, yields_require]
    exact ⟨hsame, (yields_pure _).mpr ⟨rfl, hdb₁⟩⟩
  obtain ⟨result, s', hok, hresult, hdb⟩ := hyields
  unfold Txn.commit
  rw [hok]
  dsimp only
  rw [hresult, hdb]

/-- A request that admitted a child finds that child at any later time, whoever
repeats it. -/
theorem spawn_found_again {lease lease' : Option ExecutionLease} {request : ChildRequest}
    {w w' : World} {child : Run} {ok : StoreOp × World → Database → Prop}
    (h : store.ReachableBy ok db) (hok : ok (.acceptChildRun lease request, w) db)
    (hspawn : (Txn.commit (acceptChildRun lease request) db w).1 = .ok (child, true))
    (hrun : store.Run ok (Txn.commit (acceptChildRun lease request) db w).2 db')
    (hstands : LeaseStands db' w' request.parentRunId lease')
    (hpaths : w'.resolvePath = w.resolvePath) :
    ∃ child', child'.fixed = child.fixed ∧
      Txn.commit (acceptChildRun lease' request) db' w' = (.ok (child', false), db') := by
  obtain ⟨s, hs, hdb⟩ := commit_ok hspawn
  obtain ⟨parent, definition, c, hparent, hspawned⟩ :=
    acceptChildRun_spawned lease request ⟨db, w⟩ _ s hs rfl
  have hadmitted : Admitted request child db s.db := by
    rcases acceptChildRun_post lease request ⟨db, w⟩ _ s hs with ⟨hfalse, _⟩ | ⟨_, hadmitted⟩
    · cases hfalse
    · exact hadmitted
  rw [hdb] at hrun
  have hafter : (StoreOp.acceptChildRun lease request).after db w = s.db :=
    (commit_effect _ db w).trans hdb
  have hspawned' : store.ReachableBy ok s.db :=
    h.step (i := (StoreOp.acceptChildRun lease request, w)) hok hafter.symm
  have hf : Families db' := families_of_reachable (hspawned'.trans hrun)
  obtain ⟨parent', hparent', hparentFixed⟩ := run_stays hrun
    ((Table.mem_insert? hadmitted.inserted).mpr (.inl (Table.mem_of_find? hparent)))
  obtain ⟨child', hchild', hchildFixed⟩ := run_stays hrun
    ((Table.mem_insert? hadmitted.inserted).mpr (.inr rfl))
  have hkey : parent'.id = request.parentRunId :=
    (Run.id_of_fixed hparentFixed).trans (Table.key_of_find? hparent)
  refine ⟨child', hchildFixed, acceptChildRun_again (hpaths ▸ hspawned) hf hstands ?_ hparentFixed
    hchild' hchildFixed⟩
  rw [← hkey]
  exact Table.find?_of_mem hparent'

/-! ## Children in every reachable state -/

/-- What holds of the children of every run, at any time. -/
structure ChildrenInOrder (db : Database) : Prop where
  acyclic : ∀ runId, ¬Relation.TransGen (DependsOn db) runId runId
  siblings : ∀ a b, DependsOn db a b → Siblings db a b
  fanout : ∀ parentRunId, (childRuns db parentRunId).length ≤ maxDurableChildrenPerRun
  depth : ∀ r ∈ db.runs.rows, r.runKind = .child →
    r.collaborationDepth ≤ maxDurableChildDepth ∧
      ∃ p ∈ db.runs.rows, r.parentRunId = some p.id ∧
        r.collaborationDepth = p.collaborationDepth + 1
  /-- A claim leases a child when all it waits for has completed. -/
  gated : ∀ workerId leaseSeconds w job db',
    claimed workerId leaseSeconds db w = (.ok (some job), db') →
      ∀ r, db'.runs.find? job.runId = some r → r.runKind = .child →
        DependenciesCompleted db' job.runId
  /-- A child whose dependency has failed or was canceled is never leased again. -/
  blocked : ∀ a b d, DependsOn db a b → db.runs.find? b = some d →
    d.status = .failed ∨ d.status = .canceled →
      ∀ db', store.Run callsWhileWaiting db db' → ∀ workerId leaseSeconds w job db'',
        claimed workerId leaseSeconds db' w = (.ok (some job), db'') → job.runId ≠ a
  /-- A replay creates nothing, and finds no other child. -/
  replayed : ∀ child ∈ db.runs.rows, ∀ lease request w,
    child.spawnOperationId = some request.spawnOperationId →
      (Txn.commit (acceptChildRun lease request) db w).2 = db ∧
        ∀ result, (Txn.commit (acceptChildRun lease request) db w).1 = .ok result →
          result = (child, false)
  /-- A request that creates a child finds that child whenever it is repeated. -/
  found : ∀ lease request w child,
    (Txn.commit (acceptChildRun lease request) db w).1 = .ok (child, true) →
      ∀ db', store.Run callsWhileWaiting (Txn.commit (acceptChildRun lease request) db w).2 db' →
        ∀ lease' w', LeaseStands db' w' request.parentRunId lease' →
          w'.resolvePath = w.resolvePath → ∃ child', child'.fixed = child.fixed ∧
            Txn.commit (acceptChildRun lease' request) db' w' = (.ok (child', false), db')

/-- Whatever is admitted, claimed, completed, failed and canceled in whatever
order, the children of every run stay in order. -/
theorem children_in_order (h : store.ReachableBy callsWhileWaiting db) : ChildrenInOrder db := by
  have hf : Families db := families_of_reachable h
  refine ⟨hf.acyclic, hf.siblings, hf.fanout, hf.depth, ?_, ?_, ?_, ?_⟩
  · intro workerId leaseSeconds w job db' hclaim r hr hkind
    exact claimed_completed hf hclaim hr hkind
  · intro a b d hab hd hfailed db' hrun workerId leaseSeconds w job db'' hclaim
    refine blocked_never_leased h hab hd ?_ ?_ hrun hclaim
    · rcases hfailed with hst | hst <;> rw [hst] <;> rfl
    · rcases hfailed with hst | hst <;> rw [hst] <;> decide
  · intro child hchild lease request w hspawn
    exact spawn_replayed hf hchild hspawn
  · intro lease request w child hspawn db' hrun lease' w' hstands hpaths
    exact spawn_found_again h ⟨trivial, by simp⟩ hspawn hrun hstands hpaths

/-! ## Two children of the sample run -/

namespace Spawning

def runId : String := "run_xx"

def lease : ExecutionLease := ⟨"job_xxxxx", runId, "worker", 1⟩

/-- A call of `child.spawn` in the sample run. -/
def call (operationId : String) : PrepareToolReceipt where
  operationId := operationId
  runId := runId
  executionAttemptId := ⟨lease.jobId, lease.leaseGeneration⟩
  toolCallId := operationId
  toolName := "child.spawn"
  argumentsHash := "hash"
  argumentsJson := .obj []
  risk := "agent"

def request (operationId : String) (dependsOn : List String) : ChildRequest where
  parentRunId := runId
  spawnOperationId := operationId
  goal := "goal"
  agentDefinition := ⟨"agent", "1", "agent", "description", "prompt", []⟩
  coordination := { dependsOn := dependsOn }

/-- The sample run spawns a child. -/
@[irreducible] def spawn (operationId : String) (dependsOn : List String) (n : ℕ) (db : Database) :
    Database :=
  (StoreOp.acceptChildRun (some lease) (request operationId dependsOn)).after
    ((StoreOp.beginToolReceipt (some lease) operationId runId
      ⟨lease.jobId, lease.leaseGeneration⟩).after
        ((StoreOp.prepareToolReceipt (some lease) (call operationId)).after db (.counting n))
      (.counting (n + 1))) (.counting (n + 2))

/-- Two children, of which the second waits for the first. -/
@[irreducible] def siblings : Database :=
  spawn "second" ["run_xxxxxxxxxxxxxxxxxxxxxx"] 30 (spawn "first" [] 20 Database.claimed)

theorem reachable_after {op : StoreOp} {w : World} {db : Database}
    (h : store.ReachableBy callsWhileWaiting db) (hok : callsWhileWaiting (op, w) db) :
    store.ReachableBy callsWhileWaiting (op.after db w) :=
  h.step (i := (op, w)) hok rfl

theorem reachable_spawn {operationId : String} {dependsOn : List String} {n : ℕ} {db : Database}
    (h : store.ReachableBy callsWhileWaiting db) :
    store.ReachableBy callsWhileWaiting (spawn operationId dependsOn n db) := by
  rw [spawn]
  refine reachable_after (reachable_after (reachable_after h ?_) ?_) ?_
  · exact ⟨trivial, by simp⟩
  · exact ⟨trivial, by simp⟩
  · exact ⟨trivial, by simp⟩

end Spawning

theorem children_in_order_siblings : ChildrenInOrder Spawning.siblings ∧
    Spawning.siblings.collaboration.dependencies.rows.length = 1 := by
  refine ⟨children_in_order ?_, by decide +kernel⟩
  rw [Spawning.siblings]
  exact Spawning.reachable_spawn (Spawning.reachable_spawn reachable_claimed)

end ShejaneRuntime.Store
