import ShejaneRuntime.Journal.Projection

/-!
# Logs without gaps

The events of a run and the changes of a thread are numbered from one
without a gap, nothing that was logged is changed, and an item never goes
back behind an event it has shown. The invariants say what the last numbers
are; the relation says what every later state keeps.
-/

namespace ShejaneRuntime.Store

open Lib Lib.Txn Lockstep

/-! ## Versions and watermarks -/

/-- The changes of a thread. -/
def Journal.changesOf (j : Journal) (threadId : String) : List ThreadChange :=
  j.changes.filter fun row ↦ row.threadId = threadId

/-- Every version of a thread has its change row. -/
structure Journal.Versioned (j : Journal) : Prop where
  cursors : j.changes.map ThreadChange.cursor = List.range' 1 j.changes.length
  owners : ∀ row ∈ j.changes, ∃ t ∈ j.threads.rows,
    t.id = row.threadId ∧ t.principalId = row.principalId
  versions : ∀ t ∈ j.threads.rows,
    (j.changesOf t.id).map ThreadChange.threadVersion = List.range' 1 t.version

/-- No item shows an event its run does not have. -/
def Journal.Watermarked (j : Journal) : Prop :=
  ∀ i ∈ j.items.rows, ∀ runId, i.runId = some runId → i.eventHighWatermark ≤ j.logged runId

/-- A thread stays with its owner. -/
def Thread.Owned (t t' : Thread) : Prop := t'.id = t.id ∧ t'.principalId = t.principalId

/-- What was logged stays as it is, and items only move ahead. -/
structure Journal.Kept (j j' : Journal) : Prop where
  events : j.events.rows <+: j'.events.rows
  changes : j.changes <+: j'.changes
  threads : ∀ t ∈ j.threads.rows, ∃ t' ∈ j'.threads.rows, t.Owned t'
  watermarks : ∀ id i, j.items.find? id = some i →
    ∃ i', j'.items.find? id = some i' ∧ i.eventHighWatermark ≤ i'.eventHighWatermark

namespace Journal

variable {j j' j'' : Journal}

theorem Kept.refl (j : Journal) : Kept j j :=
  ⟨List.prefix_refl _, List.prefix_refl _, fun t ht ↦ ⟨t, ht, rfl, rfl⟩,
    fun _ i hi ↦ ⟨i, hi, le_refl _⟩⟩

theorem Kept.trans (h : Kept j j') (h' : Kept j' j'') : Kept j j'' := by
  refine ⟨h.events.trans h'.events, h.changes.trans h'.changes, ?_, ?_⟩
  · intro t ht
    obtain ⟨t', ht', hid, howner⟩ := h.threads t ht
    obtain ⟨t'', ht'', hid', howner'⟩ := h'.threads t' ht'
    exact ⟨t'', ht'', hid'.trans hid, howner'.trans howner⟩
  · intro id i hi
    obtain ⟨i', hi', hle⟩ := h.watermarks id i hi
    obtain ⟨i'', hi'', hle'⟩ := h'.watermarks id i' hi'
    exact ⟨i'', hi'', hle.trans hle'⟩

theorem owned_update {threads : Table Thread.id} {p : Thread → Bool} {f : Thread → Thread}
    (hf : ∀ t, (f t).id = t.id) (howner : ∀ t, (f t).principalId = t.principalId) :
    ∀ t ∈ threads.rows, ∃ t' ∈ (threads.update p f hf).rows, t.Owned t' := by
  intro t ht
  refine ⟨_, List.mem_map.mpr ⟨t, ht, rfl⟩, ?_⟩
  split
  · exact ⟨hf t, howner t⟩
  · exact ⟨rfl, rfl⟩

/-- A thread takes its next version, with the row that records it. -/
theorem Versioned.advance {threads : Table Thread.id} {row : ThreadChange} {thread : Thread}
    (h : j.Versioned) (hcursor : row.cursor = j.changes.length + 1)
    (hthread : row.threadId = thread.id) (howner : row.principalId = thread.principalId)
    (hmem : thread ∈ threads.rows)
    (hkept : ∀ t ∈ j.threads.rows, ∃ t' ∈ threads.rows, t.Owned t')
    (hothers : ∀ t ∈ threads.rows, t.id ≠ thread.id → t ∈ j.threads.rows)
    (hversion : (j.changesOf thread.id).map ThreadChange.threadVersion ++ [row.threadVersion] =
      List.range' 1 thread.version)
    (items : Table ThreadItem.id) (events : EventLog) :
    Versioned ⟨threads, items, j.changes ++ [row], events⟩ := by
  refine ⟨?_, ?_, ?_⟩
  · simp only [List.map_append, List.map_cons, List.map_nil, h.cursors, hcursor,
      List.length_append, List.length_singleton]
    rw [List.range'_1_concat, Nat.add_comm 1]
  · intro row' hrow'
    rcases List.mem_append.mp hrow' with hold | hnew
    · obtain ⟨t, ht, hid, hprincipal⟩ := h.owners row' hold
      obtain ⟨t', ht', hid', hprincipal'⟩ := hkept t ht
      exact ⟨t', ht', hid'.trans hid, hprincipal'.trans hprincipal⟩
    · rw [List.mem_singleton] at hnew
      subst hnew
      exact ⟨thread, hmem, hthread.symm, howner.symm⟩
  · intro t ht
    unfold changesOf
    simp only [List.filter_append, List.map_append]
    by_cases hid : t.id = thread.id
    · have hsame : t = thread := List.inj_on_of_nodup_map threads.nodup ht hmem hid
      subst hsame
      simpa [hthread, changesOf] using hversion
    · have hnot : ¬row.threadId = t.id := fun hc ↦ hid (hc ▸ hthread)
      simpa [hnot, changesOf] using h.versions t (hothers t ht hid)

theorem Grows.versioned (h : Grows j j') (hv : j.Versioned) : j'.Versioned := by
  cases h with
  | event _ => exact ⟨hv.cursors, hv.owners, hv.versions⟩
  | item _ _ _ => exact ⟨hv.cursors, hv.owners, hv.versions⟩
  | @thread thread f changeType runId now hf hfind hversion =>
      have hmem : thread ∈ j.threads.rows := Table.mem_of_find? hfind
      refine hv.advance rfl (hf thread).symm (hversion thread).1.symm ?_ ?_
        ?_ ?_ _ _
      · exact Table.mem_update.mpr ⟨thread, hmem, by simp⟩
      · exact owned_update hf fun t ↦ (hversion t).1
      · intro t ht hne
        obtain ⟨t₀, ht₀, rfl⟩ := Table.mem_update.mp ht
        split at hne
        · rename_i hsame
          rw [hf, hf] at hne
          exact absurd (by simpa using hsame) hne
        · rename_i hother
          rw [if_neg hother]
          exact ht₀
      · rw [hf, hv.versions thread hmem, (hversion thread).2, List.range'_1_concat,
          Nat.add_comm 1]

theorem Grows.watermarked (h : Grows j j') (hw : j.Watermarked) : j'.Watermarked := by
  have hle := h.logged_le
  cases h with
  | event _ => exact fun i hi runId hrun ↦ (hw i hi runId hrun).trans (hle runId)
  | @item itemId run f hf hplaced hwatermark =>
      intro i hi runId hrun
      obtain ⟨i₀, hi₀, rfl⟩ := List.mem_map.mp hi
      dsimp only at hrun ⊢
      split at hrun
      · rename_i hsame
        simp only [Bool.and_eq_true, decide_eq_true_eq] at hsame
        have hrun₀ : (f i₀).runId = i₀.runId := by
          have hfield : (f i₀).placed.runId = i₀.placed.runId := by rw [hplaced]
          exact hfield
        rw [hrun₀, hsame.2] at hrun
        cases hrun
        rw [if_pos (by simp [hsame])]
        exact (hwatermark i₀ (hw i₀ hi₀ run hsame.2)).2
      · rename_i hother
        rw [if_neg hother]
        exact hw i₀ hi₀ runId hrun
  | thread _ _ _ => exact hw

theorem Grows.kept (h : Grows j j') (hw : j.Watermarked) : Kept j j' := by
  cases h with
  | event hrows =>
      exact ⟨by rw [hrows]; exact List.prefix_append _ _, List.prefix_refl _,
        fun t ht ↦ ⟨t, ht, rfl, rfl⟩, fun _ i hi ↦ ⟨i, hi, le_refl _⟩⟩
  | @item itemId run f hf hplaced hwatermark =>
      refine ⟨List.prefix_refl _, List.prefix_refl _, fun t ht ↦ ⟨t, ht, rfl, rfl⟩,
        fun id i hi ↦ ?_⟩
      rw [Table.find?_update, hi]
      refine ⟨_, rfl, ?_⟩
      dsimp only
      split
      · rename_i hsame
        simp only [Bool.and_eq_true, decide_eq_true_eq] at hsame
        exact (hwatermark i (hw i (Table.mem_of_find? hi) run hsame.2)).1
      · exact le_refl _
  | thread hf _ hversion =>
      exact ⟨List.prefix_refl _, List.prefix_append _ _, owned_update hf fun t ↦ (hversion t).1,
        fun _ i hi ↦ ⟨i, hi, le_refl _⟩⟩

/-- What the journal keeps while it grows. -/
theorem Grown.keeps (h : Grown j j') (hv : j.Versioned) (hw : j.Watermarked) :
    j'.Versioned ∧ j'.Watermarked ∧ Kept j j' := by
  induction h with
  | refl => exact ⟨hv, hw, .refl j⟩
  | tail _ hstep ih =>
      obtain ⟨hv', hw', hkept⟩ := ih
      exact ⟨hstep.versioned hv', hstep.watermarked hw', hkept.trans (hstep.kept hw')⟩

end Journal

/-! ## Turns -/

theorem Wrote.versioned {c : RunCommand} {busy : Bool} {threadId runId : String}
    {thread : TurnThread} {j j₁ j' : Journal} (hopened : Opened c busy threadId j thread j₁)
    (hwrote : Wrote c runId thread j₁ j') (hv : j.Versioned) : j'.Versioned := by
  obtain ⟨row, hcursor, howner, hthread, hversion, hchanges⟩ := hwrote.changes
  obtain ⟨threads, items, changes, events⟩ := j'
  obtain rfl : threads = j₁.threads := hwrote.threads
  subst hchanges
  cases hopened with
  | @new t _ _ added _ hid hprincipal ht hinsert _ _ =>
      have hfresh : j.changesOf t.id = [] := by
        rw [Journal.changesOf, List.filter_eq_nil_iff]
        intro row' hrow' hsame
        obtain ⟨t', ht', hid', _⟩ := hv.owners row' hrow'
        have hnone := Table.find?_key_of_insert? hinsert
        rw [decide_eq_true_eq] at hsame
        exact Table.find?_eq_none_iff.mp hnone t' ht' (hid'.trans hsame)
      refine hv.advance hcursor (hthread.trans hid.symm)
        (howner.trans hprincipal.symm) ?_ ?_ ?_ ?_ _ _
      · exact (Table.mem_insert? hinsert).mpr (.inr rfl)
      · exact fun t' ht' ↦ ⟨t', (Table.mem_insert? hinsert).mpr (.inl ht'), rfl, rfl⟩
      · intro t' ht' hne
        rcases (Table.mem_insert? hinsert).mp ht' with hold | rfl
        · exact hold
        · exact absurd rfl hne
      · rw [hfresh, hversion, ht]
        rfl
  | @next t f hf base hfind hprincipal _ _ hnext =>
      have hmem : t ∈ j.threads.rows := Table.mem_of_find? hfind
      have hid : t.id = threadId := Table.key_of_find? hfind
      refine hv.advance hcursor (hthread.trans (hid.symm.trans (hf t).symm))
        (howner.trans (hprincipal.symm.trans (hnext t).1.symm)) ?_ ?_ ?_ ?_ _ _
      · exact List.mem_map.mpr ⟨t, hmem, by simp [hid]⟩
      · exact Journal.owned_update hf fun t' ↦ (hnext t').1
      · intro t' ht' hne
        obtain ⟨t₀, ht₀, rfl⟩ := List.mem_map.mp ht'
        dsimp only at hne ⊢
        split at hne
        · rename_i hsame
          rw [hf, hf, hid] at hne
          exact absurd (by simpa using hsame) hne
        · rename_i hother
          rw [if_neg hother]
          exact ht₀
      · rw [hf, hv.versions t hmem, hversion, (hnext t).2, List.range'_1_concat, Nat.add_comm 1]

theorem Opened.threads {c : RunCommand} {busy : Bool} {threadId : String} {thread : TurnThread}
    {j j' : Journal} (h : Opened c busy threadId j thread j') :
    ∀ t ∈ j.threads.rows, ∃ t' ∈ j'.threads.rows, t.Owned t' := by
  cases h with
  | new _ _ _ _ hinsert _ _ =>
      exact fun t ht ↦ ⟨t, (Table.mem_insert? hinsert).mpr (.inl ht), rfl, rfl⟩
  | next hf _ _ _ _ hnext => exact Journal.owned_update hf fun t ↦ (hnext t).1

/-- What opening a thread adds shows no event. -/
theorem Opened.items {c : RunCommand} {busy : Bool} {threadId : String} {thread : TurnThread}
    {j j' : Journal} (h : Opened c busy threadId j thread j') :
    ∃ added : List ThreadItem, j'.items.rows = j.items.rows ++ added ∧
      ∀ i ∈ added, i.eventHighWatermark = 0 := by
  cases h with
  | @new t threads items added _ _ _ _ _ hrows hadded =>
      refine ⟨added, hrows, fun i hi ↦ ?_⟩
      obtain ⟨n, hn, rfl⟩ := List.getElem_of_mem hi
      have hn' : n < (seedHistory c).zipIdx.length := hadded.length_eq ▸ hn
      exact ((List.forall₂_iff_get.mp hadded).2 n hn' hn).watermark
  | next => exact ⟨[], by simp, by simp⟩

theorem Opened.events {c : RunCommand} {busy : Bool} {threadId : String} {thread : TurnThread}
    {j j' : Journal} (h : Opened c busy threadId j thread j') :
    j'.events = j.events ∧ j'.changes = j.changes := by
  cases h with
  | new => exact ⟨rfl, rfl⟩
  | next => exact ⟨rfl, rfl⟩

theorem ThreadItem.watermark_supersede (runId : String) (now : Time) (i : ThreadItem) :
    (i.supersede runId now).eventHighWatermark = i.eventHighWatermark ∧
      (i.supersede runId now).runId = i.runId ∧ (i.supersede runId now).id = i.id :=
  ⟨rfl, rfl, rfl⟩

/-- The items after a turn: those before it, some of them replaced, and items
that show no event yet. -/
theorem Wrote.items_cases {c : RunCommand} {busy : Bool} {threadId runId : String}
    {thread : TurnThread} {j j₁ j' : Journal} (hopened : Opened c busy threadId j thread j₁)
    (hwrote : Wrote c runId thread j₁ j') :
    ∃ (g : ThreadItem → ThreadItem) (added : List ThreadItem),
      (∀ i, (g i).eventHighWatermark = i.eventHighWatermark ∧ (g i).runId = i.runId ∧
        (g i).id = i.id) ∧ (∀ i ∈ added, i.eventHighWatermark = 0) ∧
      j'.items.rows = j.items.rows.map g ++ added := by
  obtain ⟨now, user, assistant, huser, hassistant, hrows⟩ := hwrote.items
  obtain ⟨seeds, hseeds, hzero⟩ := hopened.items
  let g : ThreadItem → ThreadItem := fun i ↦
    if c.replaceFromClientId.isSome && i.after thread.threadId thread.basePosition
    then i.supersede runId now else i
  have hg : ∀ i, (g i).eventHighWatermark = i.eventHighWatermark ∧ (g i).runId = i.runId ∧
      (g i).id = i.id := by
    intro i
    dsimp only [g]
    split
    · exact i.watermark_supersede runId now
    · exact ⟨rfl, rfl, rfl⟩
  refine ⟨g, seeds.map g ++ [user, assistant], hg, ?_, ?_⟩
  · intro i hi
    rcases List.mem_append.mp hi with hseed | hturn
    · obtain ⟨i₀, hi₀, rfl⟩ := List.mem_map.mp hseed
      exact (hg i₀).1.trans (hzero i₀ hi₀)
    · rcases List.mem_pair.mp hturn with rfl | rfl
      · exact huser.watermark
      · exact hassistant.watermark
  · rw [hrows, hseeds, List.map_append, List.append_assoc]

/-- A turn keeps what growing keeps. -/
theorem Started.keeps {c : RunCommand} {run : Run} {db db' : Database}
    (h : Started c run db db') (hv : db.journal.Versioned) (hw : db.journal.Watermarked) :
    db'.journal.Versioned ∧ db'.journal.Watermarked ∧ db.journal.Kept db'.journal := by
  obtain ⟨thread, journal, rootRunId, assistantItemId, _, hopened, hwrote⟩ := h.turn
  obtain ⟨g, added, hg, hzero, hrows⟩ := hwrote.items_cases hopened
  have hevents : db'.journal.events = db.journal.events := hwrote.events.trans hopened.events.1
  have hlogged : ∀ runId, db'.journal.logged runId = db.journal.logged runId := by
    intro runId
    unfold Journal.logged
    rw [hevents]
  refine ⟨hwrote.versioned hopened hv, ?_, ?_, ?_, ?_, ?_⟩
  · intro i hi runId hrun
    rw [hlogged]
    rw [hrows] at hi
    rcases List.mem_append.mp hi with hold | hnew
    · obtain ⟨i₀, hi₀, rfl⟩ := List.mem_map.mp hold
      rw [(hg i₀).1]
      exact hw i₀ hi₀ runId ((hg i₀).2.1 ▸ hrun)
    · rw [hzero i hnew]
      exact Nat.zero_le _
  · exact hevents ▸ List.prefix_refl _
  · obtain ⟨row, _, _, _, _, hchanges⟩ := hwrote.changes
    rw [hchanges, hopened.events.2]
    exact List.prefix_append _ _
  · rw [hwrote.threads]
    exact hopened.threads
  · intro id i hi
    have hmem : g i ∈ db'.journal.items.rows := by
      rw [hrows]
      exact List.mem_append_left _ (List.mem_map_of_mem (Table.mem_of_find? hi))
    refine ⟨g i, Table.find?_eq_some_iff.mpr ⟨hmem, ?_⟩, le_of_eq (hg i).1.symm⟩
    rw [(hg i).2.2]
    exact Table.key_of_find? hi

/-! ## Families of runs -/

/-- Every child has a parent, which is another run. -/
def FamilyTies (db : Database) : Prop :=
  ∀ r ∈ db.runs.rows, r.id ≠ "" ∧ (r.runKind = .child →
    ∃ p ∈ db.runs.rows, r.parentRunId = some p.id ∧ p.id ≠ r.id)

theorem nonEmpty_some {text : String} (h : text ≠ "") : nonEmpty (some text) = some text := by
  simp [nonEmpty, h]

theorem FamilyTies.parentRun {db : Database} (h : FamilyTies db) {child : Run}
    (hchild : child ∈ db.runs.rows) (hkind : child.runKind = .child) {p : String}
    (hparent : child.parentRunId = some p) : Store.parentRun db child.id = some p := by
  obtain ⟨parent, hmem, hid, _⟩ := (h child hchild).2 hkind
  rw [hparent, Option.some.injEq] at hid
  have hne : p ≠ "" := hid ▸ (h parent hmem).1
  simp only [Store.parentRun, Table.find?_of_mem hchild, Option.filter_some, hkind, decide_true,
    if_true, Option.bind_some, hparent, nonEmpty_some hne]

theorem FamilyTies.descends {db : Database} (h : FamilyTies db) : Descends db := by
  intro runId hself
  obtain ⟨r, hr, hparent⟩ := Option.bind_eq_some_iff.mp hself
  obtain ⟨hfind, hkind⟩ := Option.filter_eq_some_iff.mp hr
  obtain rfl : r.id = runId := Table.key_of_find? hfind
  obtain ⟨p, _, hid, hne⟩ := (h r (Table.mem_of_find? hfind)).2 (by simpa using hkind)
  rw [hid] at hparent
  unfold nonEmpty at hparent
  split at hparent
  · rename_i text htext
    cases htext
    split at hparent
    · cases hparent
    · exact hne (Option.some.inj hparent)
  · cases hparent

theorem SameRuns.mem {db db' : Database} (h : SameRuns db db') {r' : Run}
    (hr' : r' ∈ db'.runs.rows) : ∃ r ∈ db.runs.rows, r'.fixed = r.fixed := by
  have hfind := h r'.id
  rw [Table.find?_of_mem hr', Option.map_some] at hfind
  obtain ⟨r, hr, hfixed⟩ := Option.map_eq_some_iff.mp hfind.symm
  exact ⟨r, Table.mem_of_find? hr, hfixed.symm⟩

theorem SameRuns.symm {db db' : Database} (h : SameRuns db db') : SameRuns db' db :=
  fun runId ↦ (h runId).symm

theorem SameRuns.familyTies {db db' : Database} (h : SameRuns db db') (hf : FamilyTies db) :
    FamilyTies db' := by
  intro r' hr'
  obtain ⟨r, hr, hfixed⟩ := h.mem hr'
  obtain ⟨hid, hchild⟩ := hf r hr
  have hsame := Run.id_of_fixed hfixed
  refine ⟨hsame ▸ hid, fun hkind ↦ ?_⟩
  obtain ⟨p, hp, hparent, hne⟩ := hchild (Run.runKind_of_fixed hfixed ▸ hkind)
  obtain ⟨p', hp', hfixed'⟩ := h.symm.mem hp
  have hpid := Run.id_of_fixed hfixed'
  refine ⟨p', hp', ?_, ?_⟩
  · rw [Run.parentRunId_of_fixed hfixed, hparent, hpid]
  · rw [← hpid, hsame]
    exact hne

theorem FamilyTies.insert {db db' : Database} (h : FamilyTies db) {run : Run}
    (hinsert : db.runs.insert? run = some db'.runs) (hid : run.id ≠ "")
    (hchild : run.runKind = .child → ∃ p ∈ db.runs.rows, run.parentRunId = some p.id) :
    FamilyTies db' := by
  have hmem : ∀ r, r ∈ db'.runs.rows ↔ r ∈ db.runs.rows ∨ r = run :=
    fun _ ↦ Table.mem_insert? hinsert
  intro r hr
  rcases (hmem r).mp hr with hold | rfl
  · obtain ⟨hne, hparent⟩ := h r hold
    refine ⟨hne, fun hkind ↦ ?_⟩
    obtain ⟨p, hp, hrest⟩ := hparent hkind
    exact ⟨p, (hmem p).mpr (.inl hp), hrest⟩
  · refine ⟨hid, fun hkind ↦ ?_⟩
    obtain ⟨p, hp, hparent⟩ := hchild hkind
    refine ⟨p, (hmem p).mpr (.inl hp), hparent, ?_⟩
    exact Table.find?_eq_none_iff.mp (Table.find?_key_of_insert? hinsert) p hp

theorem Started.familyTies {c : RunCommand} {run : Run} {db db' : Database}
    (h : Started c run db db') (hf : FamilyTies db) : FamilyTies db' := by
  obtain ⟨thread, journal, rootRunId, assistantItemId, hrecord, _⟩ := h.turn
  refine hf.insert h.inserted hrecord.id fun hkind ↦ ?_
  rw [hrecord.runKind, runCommandRecord] at hkind
  dsimp only at hkind
  split at hkind <;> cases hkind

theorem Admitted.familyTies {request : ChildRequest} {child : Run} {db db' : Database}
    (h : Admitted request child db db') (hf : FamilyTies db) : FamilyTies db' := by
  obtain ⟨parent, c, goal, definition, policy, hparent, _, hrecord, _⟩ := h.parent
  refine hf.insert h.inserted hrecord.id fun _ ↦ ?_
  refine ⟨parent, Table.mem_of_find? hparent, ?_⟩
  rw [hrecord.parentRunId, Table.key_of_find? hparent]
  rfl

/-! ## Every operation -/

/-- An operation leaves the store as it was or as its transaction leaves it. -/
theorem StoreOp.after_post (op : StoreOp) {db : Database} {w : World} {Q : Database → Prop}
    (h : Post op.exec ⟨db, w⟩ fun _ s ↦ Q s.db) : op.after db w = db ∨ Q (op.after db w) := by
  unfold StoreOp.after
  cases hres : (Txn.commit op.exec db w).1 with
  | error e => exact .inl (commit_error hres)
  | ok a =>
      obtain ⟨s, hs, hdb⟩ := commit_ok hres
      rw [hdb]
      exact .inr (h a s hs)

theorem after_acceptRunCommand (c : RunCommand) (db : Database) (w : World) :
    (StoreOp.acceptRunCommand c).after db w = db ∨
      ∃ run, Started c run db ((StoreOp.acceptRunCommand c).after db w) := by
  have hpost := (StoreOp.acceptRunCommand c).after_post
    (Q := fun db' ↦ db' = db ∨ ∃ run, Started c run db db')
    ((post_map _ _).mpr (acceptRunCommand_post c ⟨db, w⟩))
  exact hpost.elim .inl id

theorem after_acceptChildRun (lease : Option ExecutionLease) (request : ChildRequest)
    (db : Database) (w : World) :
    (StoreOp.acceptChildRun lease request).after db w = db ∨
      ∃ child, Admitted request child db ((StoreOp.acceptChildRun lease request).after db w) := by
  have hpost := (StoreOp.acceptChildRun lease request).after_post
    (Q := fun db' ↦ db' = db ∨ ∃ child, Admitted request child db db')
    ((post_map _ _).mpr ((acceptChildRun_post lease request ⟨db, w⟩).mono fun r s' h ↦
      h.elim (fun h ↦ .inl h.2.2.2) fun h ↦ .inr ⟨r.1, h.2⟩))
  exact hpost.elim .inl id

/-- What the logs of a reachable state rest on. -/
structure Sound (db : Database) : Prop where
  locked : Locked announces (fun _ ↦ True) (abs db)
  ties : FamilyTies db
  versioned : db.journal.Versioned
  watermarked : db.journal.Watermarked

theorem StoreOp.keeps_sound {op : StoreOp} {db : Database} (w : World) (h : Sound db)
    (hop : op.called) : Sound (op.after db w) ∧ db.journal.Kept (op.after db w).journal := by
  have hlocked : Locked announces (fun _ ↦ True) (abs (op.after db w)) :=
    Steps.locked (StoreOp.after_reports trivial (fun _ _ ↦ trivial) w
      ⟨hop, fun _ _ _ _ _ _ _ ↦ trivial⟩ h.locked).1 h.locked
  have hgrown : JournalGrown db (op.after db w) → FamilyTies (op.after db w) →
      Sound (op.after db w) ∧ db.journal.Kept (op.after db w).journal := by
    intro hjournal hties
    obtain ⟨hv, hw, hkept⟩ := Journal.Grown.keeps hjournal h.versioned h.watermarked
    exact ⟨⟨hlocked, hties, hv, hw⟩, hkept⟩
  have hwriting := op.after_writing db w
  have hrest : Kind.turn ∉ op.kinds → Kind.newRun ∉ op.kinds →
      Sound (op.after db w) ∧ db.journal.Kept (op.after db w).journal := by
    intro hturn hrun
    exact hgrown (hwriting.journalGrown hturn (.inr ⟨hrun, h.ties.descends⟩))
      (((op.exec_does.sameRuns hrun).commit db w).familyTies h.ties)
  cases op with
  | acceptRunCommand c =>
      rcases after_acceptRunCommand c db w with hsame | ⟨run, hstarted⟩
      · rw [hsame]
        exact ⟨h, .refl _⟩
      · obtain ⟨hv, hw, hkept⟩ := hstarted.keeps h.versioned h.watermarked
        exact ⟨⟨hlocked, hstarted.familyTies h.ties, hv, hw⟩, hkept⟩
  | acceptChildRun lease request =>
      rcases after_acceptChildRun lease request db w with hsame | ⟨child, hadmitted⟩
      · rw [hsame]
        exact ⟨h, .refl _⟩
      · exact hgrown (hwriting.journalGrown (by simp [StoreOp.kinds])
          (.inl (by simp [StoreOp.kinds]))) (hadmitted.familyTies h.ties)
  | appendEvent lease runId eventType payload =>
      refine hrest ?_ ?_
      · simp only [StoreOp.kinds]
        split <;> simp
      · simp only [StoreOp.kinds]
        split <;> simp
  | _ => exact hrest (by simp [StoreOp.kinds]) (by simp [StoreOp.kinds])

/-! ## Runs of the store -/

/-- The calls of the Runtime, whatever they ask for. -/
def calls (i : StoreOp × World) (_ : Database) : Prop := i.1.called

theorem sound_empty : Sound Database.empty := by
  refine ⟨locked_empty, ?_, ⟨rfl, ?_, ?_⟩, ?_⟩
  · intro r hr
    cases hr
  · intro row hrow
    cases hrow
  · intro t ht
    cases ht
  · intro i hi
    cases hi

theorem sound_of_calls {db : Database} (h : store.ReachableBy calls db) : Sound db := by
  refine System.ReachableBy.invariant (P := Sound) ?_ ?_ h
  · rintro db rfl
    exact sound_empty
  · rintro i db db' hsound hcalled rfl
    exact (StoreOp.keeps_sound i.2 hsound hcalled).1

/-- The events of every run and the changes of every thread are numbered
without a gap. -/
structure Gapless (db : Database) : Prop where
  events : ∀ runId, (db.journal.events.ofRun runId).map Event.seq =
    List.range' 1 (db.journal.events.ofRun runId).length
  version : ∀ t ∈ db.journal.threads.rows, t.version = (db.journal.changesOf t.id).length
  changes : ∀ t ∈ db.journal.threads.rows,
    (db.journal.changesOf t.id).map ThreadChange.threadVersion =
      List.range' 1 (db.journal.changesOf t.id).length
  cursors : db.journal.changes.map ThreadChange.cursor =
    List.range' 1 db.journal.changes.length

theorem Sound.gapless {db : Database} (h : Sound db) : Gapless db := by
  have hlength : ∀ t ∈ db.journal.threads.rows,
      t.version = (db.journal.changesOf t.id).length := by
    intro t ht
    have hversions := congrArg List.length (h.versioned.versions t ht)
    rw [List.length_map, List.length_range'] at hversions
    exact hversions.symm
  refine ⟨db.journal.events.gapless, hlength, fun t ht ↦ ?_, h.versioned.cursors⟩
  rw [← hlength t ht]
  exact h.versioned.versions t ht

/-- A child that came to wait or to an end was reported to its parent by one
event, in the transaction that moved it. -/
def ToldOnce (db db' : Database) : Prop :=
  ∀ child ∈ db'.runs.rows, child.runKind = .child → settles child.status →
    (db.runs.find? child.id).map Run.status ≠ some child.status →
    ∀ p, child.parentRunId = some p →
      ∃ added source e, db'.journal.events.rows = db.journal.events.rows ++ added ∧
        added.filter (Event.isLifecycleOf child.id) = [source] ∧
        added.filter (Event.tellsOf p child.id) = [e] ∧ announces source child.status ∧
        Projects source e

/-- In every reachable state the logs have no gap; every run of the store
keeps what was logged, and tells every parent once. -/
theorem event_and_change_logs_gapless {db : Database} (h : store.ReachableBy calls db) :
    Gapless db ∧ (∀ db', store.Run calls db db' → db.journal.Kept db'.journal) ∧
      ∀ op : StoreOp, op.called → ∀ w, ToldOnce db (op.after db w) := by
  have hsound := sound_of_calls h
  refine ⟨hsound.gapless, ?_, ?_⟩
  · intro db' hrun
    refine System.Run.relates (P := Sound) (R := fun db db' ↦ db.journal.Kept db'.journal)
      (fun _ ↦ .refl _) (fun _ _ _ ↦ Journal.Kept.trans) ?_ hrun hsound
    rintro i db db' hsound hcalled rfl
    exact StoreOp.keeps_sound i.2 hsound hcalled
  · intro op hop w child hchild hkind hsettles hmoved p hparent
    have hties := (StoreOp.keeps_sound w hsound hop).1.ties
    exact StoreOp.tells_parent w hsound.locked hop hchild hsettles hmoved
      (hties.parentRun hchild hkind hparent)

theorem calls_of_callsWhileWaiting {db : Database} (h : store.ReachableBy callsWhileWaiting db) :
    store.ReachableBy calls db :=
  h.weaken fun _ _ hi ↦ hi.1

theorem event_and_change_logs_gapless_claimed :
    Database.claimed.journal.threads.rows.length = 1 ∧ Gapless Database.claimed ∧
      (∀ db', store.Run calls Database.claimed db' →
        Database.claimed.journal.Kept db'.journal) ∧
      ∀ op : StoreOp, op.called → ∀ w, ToldOnce Database.claimed (op.after Database.claimed w) :=
  ⟨by decide +kernel, event_and_change_logs_gapless (calls_of_callsWhileWaiting reachable_claimed)⟩

/-- The first version of a thread has its change row too. -/
theorem version_not_one_ahead :
    ¬∀ db, store.ReachableBy calls db → ∀ t ∈ db.journal.threads.rows,
      t.version = (db.journal.changesOf t.id).length + 1 := by
  intro h
  have hone : ∃ t ∈ Database.accepted.journal.threads.rows,
      t.version ≠ (Database.accepted.journal.changesOf t.id).length + 1 := by decide +kernel
  obtain ⟨t, ht, hne⟩ := hone
  exact hne (h _ (calls_of_callsWhileWaiting reachable_accepted) t ht)

end ShejaneRuntime.Store
