import ShejaneRuntime.Journal.Gapless

/-!
# Families of runs

A child run waits only for siblings that were admitted before it, a parent
has a bounded number of children and a child stands directly below it. All
of this is fixed when the child is admitted, and no other operation changes
which runs there are.
-/

namespace ShejaneRuntime.Store

open Lib Lib.Txn Lockstep

variable {α : Type} {db db' : Database}

/-! ## Which runs there are -/

/-- The same runs in the same order, but for what their execution changes. -/
def FixedRuns (db db' : Database) : Prop :=
  db'.runs.rows.map Run.fixed = db.runs.rows.map Run.fixed

instance : Std.Refl FixedRuns := ⟨fun _ ↦ rfl⟩

instance : IsTrans Database FixedRuns := ⟨fun _ _ _ h h' ↦ h'.trans h⟩

theorem Write.fixedRuns {k : Kind} (h : Write k db db') (hk : k ≠ .newRun) :
    FixedRuns db db' := by
  unfold FixedRuns
  by_cases hparts : Part.runs ∉ k.parts
  · rw [show db'.runs = db.runs from h.within .runs hparts]
  cases h with
  | runs hfixed =>
      unfold Table.update
      dsimp only
      rw [List.map_map]
      apply List.map_congr_left
      intro r hr
      dsimp only [Function.comp_apply]
      split
      · exact (hfixed r hr ‹_›).1
      · rfl
  | heads hhead =>
      unfold Table.update
      dsimp only
      rw [List.map_map]
      apply List.map_congr_left
      intro r hr
      dsimp only [Function.comp_apply]
      split
      · rw [hhead r hr ‹_›]
        rfl
      · rfl
  | newRun _ _ => exact absurd rfl hk
  | _ => exact absurd (by simp [Kind.parts]) hparts

theorem Writing.fixedRuns {kinds : List Kind} (h : Writing kinds db db')
    (hkinds : Kind.newRun ∉ kinds) : FixedRuns db db' :=
  h.relates fun _ hk _ _ hw ↦ hw.fixedRuns fun hc ↦ hkinds (hc ▸ hk)

theorem FixedRuns.mem (h : FixedRuns db db') {r' : Run} (hr' : r' ∈ db'.runs.rows) :
    ∃ r ∈ db.runs.rows, r'.fixed = r.fixed := by
  have hmem : r'.fixed ∈ db.runs.rows.map Run.fixed := h ▸ List.mem_map_of_mem hr'
  obtain ⟨r, hr, hfixed⟩ := List.mem_map.mp hmem
  exact ⟨r, hr, hfixed.symm⟩

theorem FixedRuns.symm (h : FixedRuns db db') : FixedRuns db' db := Eq.symm h

theorem FixedRuns.ids (h : FixedRuns db db') :
    db'.runs.rows.map Run.id = db.runs.rows.map Run.id := by
  have hmap := congrArg (List.map Run.id) h
  rw [List.map_map, List.map_map] at hmap
  exact hmap

theorem FixedRuns.length_childRuns (h : FixedRuns db db') (parentRunId : String) :
    (childRuns db' parentRunId).length = (childRuns db parentRunId).length := by
  have hfilter : ∀ rows : List Run, (rows.filter fun r ↦
      r.parentRunId = some parentRunId && r.runKind = .child).length =
        ((rows.map Run.fixed).filter fun r ↦
          r.parentRunId = some parentRunId && r.runKind = .child).length := by
    intro rows
    rw [List.filter_map, List.length_map]
    rfl
  unfold childRuns Table.select
  rw [hfilter db'.runs.rows, hfilter db.runs.rows, h]

/-! ## The family -/

/-- The first run waits for the second. -/
def DependsOn (db : Database) (childRunId dependencyRunId : String) : Prop :=
  ∃ d ∈ db.collaboration.dependencies.rows,
    d.childRunId = childRunId ∧ d.dependencyRunId = dependencyRunId

/-- Where a run stands in the order in which runs were admitted. -/
def admittedAt (db : Database) (runId : String) : ℕ := (db.runs.rows.map Run.id).idxOf runId

/-- Two children of one parent. -/
def Siblings (db : Database) (a b : String) : Prop :=
  ∃ r ∈ db.runs.rows, ∃ r' ∈ db.runs.rows, r.id = a ∧ r'.id = b ∧ r.runKind = .child ∧
    r'.runKind = .child ∧ r.parentRunId.isSome ∧ r.parentRunId = r'.parentRunId

structure Families (db : Database) : Prop where
  siblings : ∀ a b, DependsOn db a b → Siblings db a b
  earlier : ∀ a b, DependsOn db a b → admittedAt db b < admittedAt db a
  fanout : ∀ parentRunId, (childRuns db parentRunId).length ≤ maxDurableChildrenPerRun
  depth : ∀ r ∈ db.runs.rows, r.runKind = .child →
    r.collaborationDepth ≤ maxDurableChildDepth ∧
      ∃ p ∈ db.runs.rows, r.parentRunId = some p.id ∧
        r.collaborationDepth = p.collaborationDepth + 1
  spawns : ∀ r ∈ db.runs.rows, ∀ r' ∈ db.runs.rows, r.spawnOperationId.isSome →
    r.spawnOperationId = r'.spawnOperationId → r = r'

/-- No run waits for itself, directly or through others. -/
theorem Families.acyclic (h : Families db) (runId : String) :
    ¬Relation.TransGen (DependsOn db) runId runId := by
  have hearlier : ∀ a b, Relation.TransGen (DependsOn db) a b →
      admittedAt db b < admittedAt db a := by
    intro a b hab
    induction hab with
    | single hab => exact h.earlier _ _ hab
    | tail _ hbc ih => exact (h.earlier _ _ hbc).trans ih
  intro hself
  exact lt_irrefl _ (hearlier runId runId hself)

theorem Siblings.of_fixedRuns (h : FixedRuns db db') {a b : String} (hab : Siblings db a b) :
    Siblings db' a b := by
  obtain ⟨r, hr, r', hr', ha, hb, hkind, hkind', hparent, hsame⟩ := hab
  obtain ⟨s, hs, hfixed⟩ := h.symm.mem hr
  obtain ⟨s', hs', hfixed'⟩ := h.symm.mem hr'
  rw [Run.id_of_fixed hfixed] at ha
  rw [Run.id_of_fixed hfixed'] at hb
  rw [Run.runKind_of_fixed hfixed] at hkind
  rw [Run.runKind_of_fixed hfixed'] at hkind'
  rw [Run.parentRunId_of_fixed hfixed, Run.parentRunId_of_fixed hfixed'] at hsame
  rw [Run.parentRunId_of_fixed hfixed] at hparent
  exact ⟨s, hs, s', hs', ha, hb, hkind, hkind', hparent, hsame⟩

theorem Run.depth_of_fixed {r r' : Run} (h : r'.fixed = r.fixed) :
    r'.collaborationDepth = r.collaborationDepth := by
  have hdepth : r'.fixed.collaborationDepth = r.fixed.collaborationDepth := by rw [h]
  exact hdepth

theorem Run.spawnOperationId_of_fixed {r r' : Run} (h : r'.fixed = r.fixed) :
    r'.spawnOperationId = r.spawnOperationId := by
  have hspawn : r'.fixed.spawnOperationId = r.fixed.spawnOperationId := by rw [h]
  exact hspawn

theorem Families.of_fixedRuns (h : Families db) (hruns : FixedRuns db db')
    (hdependencies : db'.collaboration.dependencies = db.collaboration.dependencies) :
    Families db' := by
  have hdepends : ∀ a b, DependsOn db' a b → DependsOn db a b := by
    unfold DependsOn
    rw [hdependencies]
    exact fun _ _ hab ↦ hab
  refine ⟨?_, ?_, ?_, ?_, ?_⟩
  · intro a b hab
    exact (h.siblings a b (hdepends a b hab)).of_fixedRuns hruns
  · intro a b hab
    unfold admittedAt
    rw [hruns.ids]
    exact h.earlier a b (hdepends a b hab)
  · intro parentRunId
    rw [hruns.length_childRuns]
    exact h.fanout parentRunId
  · intro r' hr' hkind
    obtain ⟨r, hr, hfixed⟩ := hruns.mem hr'
    rw [Run.runKind_of_fixed hfixed] at hkind
    obtain ⟨hle, p, hp, hparent, hdepth⟩ := h.depth r hr hkind
    obtain ⟨p', hp', hfixed'⟩ := hruns.symm.mem hp
    rw [Run.depth_of_fixed hfixed]
    refine ⟨hle, p', hp', ?_, ?_⟩
    · rw [Run.parentRunId_of_fixed hfixed, hparent, Run.id_of_fixed hfixed']
    · rw [hdepth, Run.depth_of_fixed hfixed']
  · intro r hr r' hr' hsome hsame
    obtain ⟨s, hs, hfixed⟩ := hruns.mem hr
    obtain ⟨s', hs', hfixed'⟩ := hruns.mem hr'
    rw [Run.spawnOperationId_of_fixed hfixed] at hsome hsame
    rw [Run.spawnOperationId_of_fixed hfixed'] at hsame
    have heq := h.spawns s hs s' hs' hsome hsame
    apply List.inj_on_of_nodup_map db'.runs.nodup hr hr'
    rw [Run.id_of_fixed hfixed, Run.id_of_fixed hfixed', heq]

/-! ## A run that is added -/

theorem childRuns_insert {run : Run} (h : db.runs.insert? run = some db'.runs)
    (parentRunId : String) : childRuns db' parentRunId = childRuns db parentRunId ++
      if (run.parentRunId = some parentRunId ∧ run.runKind = .child) then [run] else [] := by
  unfold childRuns Table.select
  rw [Table.rows_of_insert? h, List.filter_append]
  congr 1
  by_cases hchild : run.parentRunId = some parentRunId ∧ run.runKind = .child
  · simp [hchild]
  · rw [if_neg hchild, List.filter_eq_nil_iff]
    simpa using fun hparent hkind ↦ hchild ⟨hparent, hkind⟩

theorem admittedAt_insert {run : Run} (h : db.runs.insert? run = some db'.runs) {runId : String}
    (hmem : runId ∈ db.runs.rows.map Run.id) : admittedAt db' runId = admittedAt db runId := by
  unfold admittedAt
  rw [Table.rows_of_insert? h, List.map_append, List.idxOf_append_of_mem hmem]

theorem Siblings.mem {a b : String} (h : Siblings db a b) :
    a ∈ db.runs.rows.map Run.id ∧ b ∈ db.runs.rows.map Run.id := by
  obtain ⟨r, hr, r', hr', rfl, rfl, _⟩ := h
  exact ⟨List.mem_map_of_mem hr, List.mem_map_of_mem hr'⟩

theorem Siblings.insert {run : Run} (h : db.runs.insert? run = some db'.runs) {a b : String}
    (hab : Siblings db a b) : Siblings db' a b := by
  obtain ⟨r, hr, r', hr', hrest⟩ := hab
  exact ⟨r, (Table.mem_insert? h).mpr (.inl hr), r', (Table.mem_insert? h).mpr (.inl hr'), hrest⟩

/-- A run that is no child joins no family. -/
theorem Families.insert (h : Families db) {run : Run}
    (hinsert : db.runs.insert? run = some db'.runs) (hkind : run.runKind ≠ .child)
    (hspawn : run.spawnOperationId = none)
    (hdependencies : db'.collaboration.dependencies = db.collaboration.dependencies) :
    Families db' := by
  have hdepends : ∀ a b, DependsOn db' a b → DependsOn db a b := by
    unfold DependsOn
    rw [hdependencies]
    exact fun _ _ hab ↦ hab
  refine ⟨?_, ?_, ?_, ?_, ?_⟩
  · intro a b hab
    exact (h.siblings a b (hdepends a b hab)).insert hinsert
  · intro a b hab
    obtain ⟨ha, hb⟩ := (h.siblings a b (hdepends a b hab)).mem
    rw [admittedAt_insert hinsert ha, admittedAt_insert hinsert hb]
    exact h.earlier a b (hdepends a b hab)
  · intro parentRunId
    rw [childRuns_insert hinsert, if_neg fun hchild ↦ hkind hchild.2, List.append_nil]
    exact h.fanout parentRunId
  · intro r hr hchild
    rcases (Table.mem_insert? hinsert).mp hr with hold | rfl
    · obtain ⟨hle, p, hp, hrest⟩ := h.depth r hold hchild
      exact ⟨hle, p, (Table.mem_insert? hinsert).mpr (.inl hp), hrest⟩
    · exact absurd hchild hkind
  · intro r hr r' hr' hsome hsame
    rcases (Table.mem_insert? hinsert).mp hr with hold | rfl
    · rcases (Table.mem_insert? hinsert).mp hr' with hold' | rfl
      · exact h.spawns r hold r' hold' hsome hsame
      · rw [hsame, hspawn] at hsome
        cases hsome
    · rw [hspawn] at hsome
      cases hsome

end ShejaneRuntime.Store
