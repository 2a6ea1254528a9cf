import ShejaneRuntime.Coordinator.Conversations
import ShejaneRuntime.Store.Snapshots

/-!
# Snapshots and catching up

The pages of a chain of snapshot reads put together are the live items of
the thread. What a snapshot returns of the log of a run is the beginning of
that log, and its cursor stands before every change of the thread that is
recorded later.
-/

namespace ShejaneRuntime.Store

open Lib Lib.Txn Lockstep

variable {datetime : Time → Time} {db db' : Database} {principalId threadId : String}

/-! ## Pages -/

/-- The live items of a thread before a position. -/
def olderItems (db : Database) (threadId : String) (beforePosition : Option ℤ) :
    List ThreadItem :=
  (db.journal.live threadId).filter fun i ↦
    beforePosition.all fun position ↦ i.position < position

theorem live_pairwise (hp : db.journal.Placed) (threadId : String) :
    (db.journal.live threadId).Pairwise fun a b ↦ a.position < b.position := by
  obtain ⟨n, hn⟩ := hp.positions threadId
  exact List.pairwise_map.mp (hn ▸ pairwise_upTo n)

theorem newestItems_eq (hp : db.journal.Placed) (threadId : String)
    (beforePosition : Option ℤ) :
    newestItems db threadId beforePosition = (olderItems db threadId beforePosition).reverse := by
  have hrows : (db.journal.items.select fun i ↦ i.threadId = threadId && i.supersededAt.isNone &&
      beforePosition.all fun position ↦ i.position < position) =
        olderItems db threadId beforePosition := by
    unfold olderItems Journal.live liveItems Table.select
    rw [List.filter_filter]
    apply List.filter_congr
    intro i _
    exact Bool.and_comm _ _
  have hsorted : (olderItems db threadId beforePosition).Pairwise fun a b ↦
      a.position < b.position := (live_pairwise hp threadId).sublist List.filter_sublist
  unfold newestItems
  rw [hrows]
  apply orderBy_eq_of_perm (List.reverse_perm _)
  rw [List.pairwise_reverse]
  refine hsorted.imp fun {a b} hlt ↦ ?_
  rw [OrderDual.toDual_lt_toDual, Prod.Lex.toLex_lt_toLex]
  exact .inl hlt

theorem olderItems_none (db : Database) (threadId : String) :
    olderItems db threadId none = db.journal.live threadId := by
  unfold olderItems
  exact List.filter_eq_self.mpr fun _ _ ↦ rfl

/-- The items before an item that stands before the cursor. -/
theorem olderItems_split (hp : db.journal.Placed) {beforePosition : Option ℤ}
    {before after : List ThreadItem} {i : ThreadItem}
    (h : olderItems db threadId beforePosition = before ++ i :: after) :
    olderItems db threadId (some i.position) = before := by
  have hsorted : (before ++ i :: after).Pairwise fun a b ↦ a.position < b.position :=
    h ▸ (live_pairwise hp threadId).sublist List.filter_sublist
  have hi : (beforePosition.all fun position ↦ decide (i.position < position)) = true := by
    have hmem : i ∈ olderItems db threadId beforePosition := by
      rw [h]
      exact List.mem_append_right _ List.mem_cons_self
    exact (List.mem_filter.mp hmem).2
  have hcut : olderItems db threadId (some i.position) =
      (olderItems db threadId beforePosition).filter fun y ↦
        decide (y.position < i.position) := by
    unfold olderItems
    rw [List.filter_filter]
    apply List.filter_congr
    intro y _
    cases beforePosition with
    | none => simp
    | some position =>
        simp only [Option.all_some, decide_eq_true_eq] at hi ⊢
        by_cases hlt : y.position < i.position
        · simp [hlt, hlt.trans hi]
        · simp [hlt]
  rw [hcut, h]
  exact filter_lt_of_pairwise hsorted

/-- What a read finds: the thread, and a page of its items. -/
structure ReadsPage (datetime : Time → Time) (db : Database) (principalId threadId : String)
    (beforePosition : Option ℤ) (page : ThreadSnapshot) : Prop where
  found : page.thread ∈ db.journal.threads.rows
  id : page.thread.id = threadId
  owner : page.thread.principalId = principalId
  shape : ∃ (itemLimit : ℕ) (eventLimit : ℤ), 2 ≤ itemLimit ∧
    page = snapshotOf datetime db page.thread
      ((olderItems db threadId beforePosition).drop
        ((olderItems db threadId beforePosition).length - itemLimit))
      (decide (itemLimit < (olderItems db threadId beforePosition).length)) eventLimit

theorem readsPage_of_snapshot (hp : db.journal.Placed) {beforePosition : Option ℤ}
    {itemLimit eventLimit : ℤ} {expectedVersion : Option ℤ} {page : ThreadSnapshot}
    (h : getThreadSnapshot datetime db principalId threadId beforePosition itemLimit eventLimit
      expectedVersion = .ok (some page)) :
    ReadsPage datetime db principalId threadId beforePosition page := by
  unfold getThreadSnapshot at h
  split at h
  · cases h
  · rename_i thread hthread
    obtain ⟨hfind, howner⟩ := Option.filter_eq_some_iff.mp hthread
    simp only [Bool.and_eq_true, decide_eq_true_eq] at howner
    split at h
    · cases h
    · simp only [Except.ok.injEq, Option.some.injEq] at h
      rw [newestItems_eq hp, reverse_take_reverse,
        decide_eq_decide.mpr (lt_length_take_reverse (n := boundedItemLimit itemLimit))] at h
      have hthread : page.thread = thread := by
        rw [← h]
        rfl
      rw [← hthread] at hfind howner h
      refine ⟨Table.mem_of_find? hfind, Table.key_of_find? hfind, howner.1,
        boundedItemLimit itemLimit, eventLimit, ?_, h.symm⟩
      unfold boundedItemLimit
      omega

/-- The items a chain of reads has still to come to. -/
def itemsLeft (db : Database) (threadId : String) : Option ℤ → List ThreadItem
  | some position => olderItems db threadId (some position)
  | none => []

theorem ReadsPage.items (hp : db.journal.Placed) {beforePosition : Option ℤ}
    {page : ThreadSnapshot} (h : ReadsPage datetime db principalId threadId beforePosition page) :
    olderItems db threadId beforePosition =
        itemsLeft db threadId page.nextBeforePosition ++ page.items ∧
      (page.nextBeforePosition.isSome → 2 ≤ page.items.length) := by
  obtain ⟨itemLimit, eventLimit, hlimit, hpage⟩ := h.shape
  generalize hxs : olderItems db threadId beforePosition = xs at hpage ⊢
  rw [hpage]
  by_cases hmore : itemLimit < xs.length
  · obtain ⟨k, hk⟩ : ∃ k, k = xs.length - itemLimit := ⟨_, rfl⟩
    have hdrop : xs.drop k = xs[k] :: xs.drop (k + 1) := List.drop_eq_getElem_cons (by omega)
    have hsplit : olderItems db threadId beforePosition =
        xs.take k ++ xs[k] :: xs.drop (k + 1) := by
      rw [hxs, ← hdrop, List.take_append_drop]
    have hleft := olderItems_split hp hsplit
    rw [← hk]
    constructor
    · simp only [snapshotOf, hmore, decide_true, if_true, hdrop, List.head?_cons, Option.map_some,
        itemsLeft, hleft]
      rw [← hdrop, List.take_append_drop]
    · intro _
      rw [snapshotOf, List.length_drop]
      omega
  · have hzero : xs.length - itemLimit = 0 := by omega
    simp [snapshotOf, hmore, hzero, itemsLeft]

/-! ### A thread at a fixed version -/

/-- The items of a thread are placed anew only with a change of the thread. -/
def Journal.SameItems (j j' : Journal) : Prop :=
  ∀ threadId, (j'.changesOf threadId).length = (j.changesOf threadId).length →
    (j'.live threadId).map ThreadItem.placed = (j.live threadId).map ThreadItem.placed

theorem Journal.Grows.live_placed {j j' : Journal} (h : Journal.Grows j j') (threadId : String) :
    (j'.live threadId).map ThreadItem.placed = (j.live threadId).map ThreadItem.placed := by
  cases h with
  | event _ => rfl
  | @item itemId runId f hf hplaced _ =>
      let g : ThreadItem → ThreadItem := fun i ↦
        if (decide (i.id = itemId) && decide (i.runId = some runId)) = true then f i else i
      have hg : ∀ i, (g i).placed = i.placed := by
        intro i
        dsimp only [g]
        split
        · exact hplaced i
        · rfl
      unfold Journal.live liveItems Table.select Table.update
      rw [filter_live_map (g := g) (fun i ↦ .of_placed (hg i)), List.map_map]
      apply List.map_congr_left
      intro i _
      exact hg i
  | thread _ _ _ => rfl

theorem Journal.Grown.live_placed {j j' : Journal} (h : Journal.Grown j j') (threadId : String) :
    (j'.live threadId).map ThreadItem.placed = (j.live threadId).map ThreadItem.placed := by
  induction h with
  | refl => rfl
  | tail _ hstep ih => exact (hstep.live_placed threadId).trans ih

theorem Opened.live_others {c : RunCommand} {busy : Bool} {thread : TurnThread}
    {opened : String} {j j₁ : Journal} (h : Opened c busy opened j thread j₁)
    (hne : threadId ≠ opened) : j₁.live threadId = j.live threadId := by
  cases h with
  | @new t threads items added _ _ _ _ _ hrows hadded =>
      have hadded' : added.filter
          (fun i ↦ i.threadId = threadId && i.supersededAt.isNone) = [] := by
        rw [List.filter_eq_nil_iff]
        intro i hi
        obtain ⟨row, _, hseed⟩ := exists_of_forall₂ hadded hi
        simp [hseed.threadId, hne.symm]
      unfold Journal.live liveItems Table.select
      rw [hrows, List.filter_append, hadded', List.append_nil]
  | next => rfl

theorem Started.sameItems {c : RunCommand} {run : Run} (h : Started c run db db') :
    db.journal.SameItems db'.journal := by
  obtain ⟨thread, journal, rootRunId, assistantItemId, _, hopened, hwrote⟩ := h.turn
  obtain ⟨row, _, _, hrow, _, hchanges⟩ := hwrote.changes
  obtain ⟨_, _, _, _, _, _, hothers⟩ := hwrote.live
  intro threadId hsame
  by_cases hid : threadId = thread.threadId
  · -- the turn is a change of its thread
    subst hid
    unfold Journal.changesOf at hsame
    rw [hchanges, hopened.events.2, List.filter_append, List.length_append] at hsame
    simp [hrow] at hsame
  · rw [hothers threadId hid, hopened.live_others hid]

theorem StoreOp.keeps_items {op : StoreOp} (w : World) (hsound : Sound db) :
    db.journal.SameItems (op.after db w).journal := by
  have hgrown : JournalGrown db (op.after db w) →
      db.journal.SameItems (op.after db w).journal :=
    fun h threadId _ ↦ Journal.Grown.live_placed h threadId
  have hwriting := op.after_writing db w
  have hrest : Kind.turn ∉ op.kinds → Kind.newRun ∉ op.kinds →
      db.journal.SameItems (op.after db w).journal :=
    fun hturn hrun ↦ hgrown (hwriting.journalGrown hturn (.inr ⟨hrun, hsound.ties.descends⟩))
  cases op with
  | acceptRunCommand c =>
      rcases after_acceptRunCommand c db w with hsame | ⟨run, hstarted⟩
      · rw [hsame]
        exact fun _ _ ↦ rfl
      · exact hstarted.sameItems
  | acceptChildRun lease request =>
      exact hgrown (hwriting.journalGrown (by simp [StoreOp.kinds])
        (.inl (by simp [StoreOp.kinds])))
  | appendEvent lease runId eventType payload =>
      refine hrest ?_ ?_
      · simp only [StoreOp.kinds]
        split <;> simp
      · simp only [StoreOp.kinds]
        split <;> simp
  | _ => exact hrest (by simp [StoreOp.kinds]) (by simp [StoreOp.kinds])

/-- What later states keep of the logs and of the items of a thread. -/
structure Later (db db' : Database) : Prop where
  kept : db.journal.Kept db'.journal
  items : db.journal.SameItems db'.journal

theorem Journal.Kept.length_changesOf {j j' : Journal} (h : j.Kept j') (threadId : String) :
    (j.changesOf threadId).length ≤ (j'.changesOf threadId).length :=
  (h.changes.filter _).length_le

theorem Later.trans {db'' : Database} (h : Later db db') (h' : Later db' db'') :
    Later db db'' := by
  refine ⟨h.kept.trans h'.kept, fun threadId hsame ↦ ?_⟩
  have hle := h.kept.length_changesOf threadId
  have hle' := h'.kept.length_changesOf threadId
  exact (h'.items threadId (by omega)).trans (h.items threadId (by omega))

theorem later_of_run (hsound : Sound db) (h : store.Run calls db db') : Later db db' := by
  refine System.Run.relates (P := Sound) (R := Later) (fun _ ↦ ⟨.refl _, fun _ _ ↦ rfl⟩)
    (fun _ _ _ ↦ Later.trans) ?_ h hsound
  rintro i db db' hsound hcalled rfl
  obtain ⟨hsound', hkept⟩ := StoreOp.keeps_sound i.2 hsound hcalled
  exact ⟨hsound', hkept, StoreOp.keeps_items i.2 hsound⟩

theorem olderItems_later (h : Later db db')
    (hsame : (db'.journal.changesOf threadId).length = (db.journal.changesOf threadId).length)
    (beforePosition : Option ℤ) :
    (olderItems db' threadId beforePosition).map ThreadItem.placed =
      (olderItems db threadId beforePosition).map ThreadItem.placed := by
  have hfilter : ∀ items : List ThreadItem, (items.filter fun i ↦
      beforePosition.all fun position ↦ decide (i.position < position)).map ThreadItem.placed =
        (items.map ThreadItem.placed).filter fun i ↦
          beforePosition.all fun position ↦ decide (i.position < position) := by
    intro items
    rw [List.filter_map]
    rfl
  unfold olderItems
  rw [hfilter, hfilter, h.items threadId hsame]

/-- A chain of snapshot reads while the thread stays at a version: a read
starts where the one before it says, and the store may move on in between. -/
inductive Pages (datetime : Time → Time) (principalId threadId : String) (version : ℕ) :
    Database → Option ℤ → List ThreadSnapshot → Option ℤ → Prop
  | last {db : Database} {beforePosition expectedVersion : Option ℤ} {itemLimit eventLimit : ℤ}
      {page : ThreadSnapshot} :
      getThreadSnapshot datetime db principalId threadId beforePosition itemLimit eventLimit
        expectedVersion = .ok (some page) →
      page.thread.version = version →
      Pages datetime principalId threadId version db beforePosition [page]
        page.nextBeforePosition
  | next {db db' : Database} {beforePosition expectedVersion rest : Option ℤ}
      {itemLimit eventLimit position : ℤ} {page : ThreadSnapshot} {pages : List ThreadSnapshot} :
      getThreadSnapshot datetime db principalId threadId beforePosition itemLimit eventLimit
        expectedVersion = .ok (some page) →
      page.thread.version = version → page.nextBeforePosition = some position →
      store.Run calls db db' →
      Pages datetime principalId threadId version db' (some position) pages rest →
      Pages datetime principalId threadId version db beforePosition (page :: pages) rest

/-- The items of a chain of pages, which go back from the newest. -/
def itemsOf (pages : List ThreadSnapshot) : List ThreadItem :=
  pages.reverse.flatMap ThreadSnapshot.items

theorem itemsOf_cons (page : ThreadSnapshot) (pages : List ThreadSnapshot) :
    itemsOf (page :: pages) = itemsOf pages ++ page.items := by
  simp [itemsOf]

theorem ReadsPage.version {beforePosition : Option ℤ} {page : ThreadSnapshot} {version : ℕ}
    (hsound : Sound db) (h : ReadsPage datetime db principalId threadId beforePosition page)
    (hversion : page.thread.version = version) :
    (db.journal.changesOf threadId).length = version := by
  rw [← hversion, hsound.gapless.version _ h.found, h.id]

theorem Pages.version {version : ℕ} {beforePosition rest : Option ℤ}
    {pages : List ThreadSnapshot} (hdb : store.ReachableBy calls db)
    (h : Pages datetime principalId threadId version db beforePosition pages rest) :
    (db.journal.changesOf threadId).length = version := by
  cases h with
  | last hread hversion =>
      exact (readsPage_of_snapshot (placed_of_calls hdb) hread).version (sound_of_calls hdb)
        hversion
  | next hread hversion _ _ _ =>
      exact (readsPage_of_snapshot (placed_of_calls hdb) hread).version (sound_of_calls hdb)
        hversion

/-- The pages of a chain and what is left before them are the items before
its first cursor. -/
theorem Pages.items {version : ℕ} {beforePosition rest : Option ℤ}
    {pages : List ThreadSnapshot} (hdb : store.ReachableBy calls db)
    (h : Pages datetime principalId threadId version db beforePosition pages rest) :
    (olderItems db threadId beforePosition).map ThreadItem.placed =
        (itemsLeft db threadId rest ++ itemsOf pages).map ThreadItem.placed ∧
      (rest.isSome → 2 * pages.length ≤ (itemsOf pages).length) := by
  induction h with
  | last hread _ =>
      obtain ⟨hitems, hlength⟩ :=
        (readsPage_of_snapshot (placed_of_calls hdb) hread).items (placed_of_calls hdb)
      simp only [itemsOf, List.reverse_singleton, List.flatMap_singleton]
      exact ⟨congrArg _ hitems, hlength⟩
  | @next db db' beforePosition _ rest _ _ position page pages hread hversion hnext hrun hrest ih =>
      have hpage := readsPage_of_snapshot (placed_of_calls hdb) hread
      have hdb' := hdb.trans hrun
      have hsame : (db'.journal.changesOf threadId).length =
          (db.journal.changesOf threadId).length :=
        (hrest.version hdb').trans (hpage.version (sound_of_calls hdb) hversion).symm
      have holder := olderItems_later (later_of_run (sound_of_calls hdb) hrun) hsame
      have hleft : (itemsLeft db' threadId rest).map ThreadItem.placed =
          (itemsLeft db threadId rest).map ThreadItem.placed := by
        cases rest with
        | none => rfl
        | some position => exact holder (some position)
      obtain ⟨hitems, hlength⟩ := hpage.items (placed_of_calls hdb)
      obtain ⟨htail, htailLength⟩ := ih hdb'
      rw [hnext] at hitems hlength
      constructor
      · calc (olderItems db threadId beforePosition).map ThreadItem.placed
            = (olderItems db threadId (some position)).map ThreadItem.placed ++
                page.items.map ThreadItem.placed := by rw [hitems, List.map_append]; rfl
          _ = (itemsLeft db' threadId rest ++ itemsOf pages).map ThreadItem.placed ++
                page.items.map ThreadItem.placed := by rw [← holder, htail]
          _ = (itemsLeft db threadId rest ++ itemsOf (page :: pages)).map ThreadItem.placed := by
              rw [itemsOf_cons, List.map_append, List.map_append, List.map_append, hleft,
                List.append_assoc]
      · intro hsome
        have hone := hlength rfl
        have hmany := htailLength hsome
        rw [itemsOf_cons, List.length_append, List.length_cons]
        omega

/-! ## Events -/

theorem pairwise_seq (log : EventLog) (runId : String) :
    (log.ofRun runId).Pairwise fun a b ↦ a.seq < b.seq := by
  rw [← List.pairwise_map (f := Event.seq), EventLog.ofRun, log.gapless runId]
  exact List.pairwise_lt_range'

/-- The events after the first `n` of a run. -/
theorem eventsSince_eq (db : Database) (runId : String) (n : ℕ) :
    eventsSince db runId n none = (db.journal.events.ofRun runId).drop n := by
  have hrows : (db.journal.events.rows.filter fun e ↦ e.runId = runId && (n : ℤ) < e.seq) =
      (db.journal.events.ofRun runId).drop n := by
    unfold EventLog.ofRun
    rw [← filter_lt_of_range' (db.journal.events.gapless runId) n, List.filter_filter]
    apply List.filter_congr
    intro e _
    rw [Bool.and_comm]
    simp
  unfold eventsSince
  rw [hrows]
  exact orderBy_eq_self (((pairwise_seq _ runId).sublist (List.drop_sublist _ _)).imp le_of_lt)

/-- The events of a run among those of the runs of a page. -/
theorem eventsOfRuns_filter (datetime : Time → Time) (db : Database) (principalId : String)
    (runIds : List String) (runId : String) :
    (eventsOfRuns datetime db principalId runIds).filter (fun e ↦ e.runId = runId) <+:
      db.journal.events.ofRun runId := by
  let readable : Bool := runIds.contains runId &&
    (db.runs.find? runId).any fun r ↦ r.principalId = principalId
  have hrows : (db.journal.events.rows.filter fun e ↦ runIds.contains e.runId &&
      (db.runs.find? e.runId).any fun r ↦ r.principalId = principalId).filter
        (fun e ↦ e.runId = runId) = (db.journal.events.ofRun runId).filter fun _ ↦ readable := by
    unfold EventLog.ofRun
    rw [List.filter_filter, List.filter_filter]
    apply List.filter_congr
    intro e _
    by_cases hrun : e.runId = runId
    · simp [hrun, readable]
    · simp [hrun]
  have hleads : ((db.journal.events.ofRun runId).filter fun _ ↦ readable) <+:
      db.journal.events.ofRun runId := by
    cases readable with
    | true => exact (List.filter_true _).symm ▸ List.prefix_refl _
    | false =>
        rw [List.filter_false]
        exact List.nil_prefix
  unfold eventsOfRuns
  rw [filter_orderBy, hrows]
  · exact hleads
  · rw [hrows]
    refine ((pairwise_seq _ runId).sublist hleads.sublist).imp_of_mem fun {a b} ha hb hlt ↦ ?_
    have hrun : ∀ e ∈ (db.journal.events.ofRun runId).filter fun _ ↦ readable,
        e.runId = runId := fun e he ↦ by
      simpa using (List.mem_filter.mp (List.mem_of_mem_filter he)).2
    rw [hrun a ha, hrun b hb, Prod.Lex.toLex_le_toLex]
    refine .inr ⟨rfl, ?_⟩
    rw [Prod.Lex.toLex_le_toLex]
    exact .inr ⟨rfl, le_of_lt hlt⟩

theorem maxSeq_of_leads {log : EventLog} {events : List Event} {runId : String}
    (h : events.filter (fun e ↦ e.runId = runId) <+: log.ofRun runId) :
    maxSeq events runId = (events.filter fun e ↦ e.runId = runId).length := by
  have hseqs : (events.filter fun e ↦ e.runId = runId).map Event.seq =
      List.range' 1 (events.filter fun e ↦ e.runId = runId).length := by
    have hle := h.length_le
    have hmap := List.prefix_iff_eq_take.mp (h.map Event.seq)
    unfold EventLog.ofRun at hle hmap
    rw [log.gapless runId, List.length_map, List.take_range'_of_length_ge hle] at hmap
    exact hmap
  unfold maxSeq
  rw [hseqs, ← Nat.zero_add 1, EventLog.foldr_max_range']
  split <;> omega

theorem snapshotOf_events (datetime : Time → Time) (db : Database) (thread : Thread)
    (page : List ThreadItem) (hasMoreItems : Bool) (eventLimit : ℤ) :
    ∃ runIds, (snapshotOf datetime db thread page hasMoreItems eventLimit).events <+:
      eventsOfRuns datetime db thread.principalId runIds :=
  ⟨_, List.take_prefix _ _⟩

/-- What a page returns of the log of a run is its beginning, and the
watermark says how long that is. -/
theorem ReadsPage.events {beforePosition : Option ℤ} {page : ThreadSnapshot}
    (h : ReadsPage datetime db principalId threadId beforePosition page) {runId : String}
    {watermark : ℕ} (hmem : (runId, watermark) ∈ page.eventHighWatermarks) :
    (page.events.filter fun e ↦ e.runId = runId) <+: db.journal.events.ofRun runId ∧
      watermark = (page.events.filter fun e ↦ e.runId = runId).length := by
  obtain ⟨itemLimit, eventLimit, _, hpage⟩ := h.shape
  have hleads : (page.events.filter fun e ↦ e.runId = runId) <+:
      db.journal.events.ofRun runId := by
    obtain ⟨runIds, hevents⟩ := snapshotOf_events datetime db page.thread
      ((olderItems db threadId beforePosition).drop
        ((olderItems db threadId beforePosition).length - itemLimit))
      (decide (itemLimit < (olderItems db threadId beforePosition).length)) eventLimit
    rw [← hpage] at hevents
    exact (hevents.filter _).trans (eventsOfRuns_filter datetime db _ runIds runId)
  have hwatermark : watermark = maxSeq page.events runId := by
    rw [hpage] at hmem ⊢
    obtain ⟨id, _, hpair⟩ := List.mem_map.mp hmem
    cases hpair
    rfl
  exact ⟨hleads, hwatermark.trans (maxSeq_of_leads hleads)⟩

theorem ReadsPage.log {beforePosition : Option ℤ} {page : ThreadSnapshot}
    (h : ReadsPage datetime db principalId threadId beforePosition page) (hlater : Later db db')
    {runId : String} {watermark : ℕ} (hmem : (runId, watermark) ∈ page.eventHighWatermarks) :
    (page.events.filter fun e ↦ e.runId = runId) ++ eventsSince db' runId watermark none =
      db'.journal.events.ofRun runId := by
  obtain ⟨hleads, hwatermark⟩ := h.events hmem
  have hlog : db.journal.events.ofRun runId <+: db'.journal.events.ofRun runId :=
    hlater.kept.events.filter _
  rw [eventsSince_eq, hwatermark]
  exact List.prefix_iff_eq_append.mp (hleads.trans hlog)

/-- Every run of the page has a watermark. -/
theorem ReadsPage.watermarked {beforePosition : Option ℤ} {page : ThreadSnapshot}
    (h : ReadsPage datetime db principalId threadId beforePosition page) {i : ThreadItem}
    (hi : i ∈ page.items) {runId : String} (hrun : nonEmpty i.runId = some runId) :
    ∃ watermark, (runId, watermark) ∈ page.eventHighWatermarks := by
  obtain ⟨itemLimit, eventLimit, _, hpage⟩ := h.shape
  rw [hpage] at hi ⊢
  refine ⟨_, List.mem_map.mpr ⟨runId, ?_, rfl⟩⟩
  rw [fromKeys, List.mem_reverse, List.mem_dedup, List.mem_reverse, List.mem_filterMap]
  exact ⟨i, hi, hrun⟩

/-! ## Changes -/

/-- The changes of a principal after a cursor. -/
def changesAhead (db : Database) (principalId : String) (cursor : ℤ) : List ThreadChange :=
  db.journal.changes.filter fun row ↦ row.principalId = principalId && max 0 cursor < row.cursor

theorem changesAhead_pairwise (hv : db.journal.Versioned) (principalId : String) (cursor : ℤ) :
    (changesAhead db principalId cursor).Pairwise fun a b ↦ a.cursor < b.cursor := by
  have hcursors : db.journal.changes.Pairwise fun a b ↦ a.cursor < b.cursor := by
    rw [← List.pairwise_map (f := ThreadChange.cursor), hv.cursors]
    exact List.pairwise_lt_range'
  exact hcursors.sublist List.filter_sublist

/-- How many changes a read returns at most. -/
def boundedChangeLimit (limit : ℤ) : ℕ := (max 1 (min limit 1000)).toNat

theorem boundedChangeLimit_pos (limit : ℤ) : 0 < boundedChangeLimit limit := by
  unfold boundedChangeLimit
  omega

/-- A read returns the first changes that are ahead, up to its limit. -/
theorem threadChangesSince_eq (hv : db.journal.Versioned) (principalId : String)
    (afterCursor limit : ℤ) :
    threadChangesSince db principalId afterCursor limit =
      ((changesAhead db principalId afterCursor).take (boundedChangeLimit limit),
        (((changesAhead db principalId afterCursor).take (boundedChangeLimit limit)).getLast?.map
          fun row ↦ (row.cursor : ℤ)).getD (max 0 afterCursor)) := by
  have hsorted := changesAhead_pairwise hv principalId afterCursor
  have horder := orderBy_eq_self (hsorted.imp le_of_lt)
  unfold changesAhead at horder ⊢
  unfold threadChangesSince boundedChangeLimit
  rw [horder]

/-- A read takes the first of the changes that are ahead, and leaves the rest
ahead of the cursor it returns. -/
theorem changesAhead_read (hv : db.journal.Versioned) (principalId : String)
    (afterCursor limit : ℤ) :
    changesAhead db principalId afterCursor =
      (threadChangesSince db principalId afterCursor limit).1 ++
        changesAhead db principalId (threadChangesSince db principalId afterCursor limit).2 := by
  rw [threadChangesSince_eq hv]
  obtain ⟨n, hn⟩ : ∃ n, n + 1 = boundedChangeLimit limit :=
    ⟨boundedChangeLimit limit - 1, Nat.sub_add_cancel (boundedChangeLimit_pos limit)⟩
  rw [← hn]
  dsimp only
  rcases List.eq_nil_or_concat ((changesAhead db principalId afterCursor).take (n + 1)) with
    hnil | ⟨before, row, hlast⟩
  · rw [hnil, List.nil_append, List.getLast?_nil, Option.map_none, Option.getD_none]
    unfold changesAhead
    rw [max_eq_right (le_max_left 0 afterCursor)]
  · rw [List.concat_eq_append] at hlast
    have hsplit : changesAhead db principalId afterCursor =
        before ++ row :: (changesAhead db principalId afterCursor).drop (n + 1) := by
      conv_lhs => rw [← List.take_append_drop (n + 1) (changesAhead db principalId afterCursor),
        hlast, List.append_assoc]
      rfl
    have hrow : (max 0 afterCursor : ℤ) < row.cursor := by
      have hmem : row ∈ changesAhead db principalId afterCursor := by
        rw [hsplit]
        exact List.mem_append_right _ List.mem_cons_self
      have hahead := (List.mem_filter.mp hmem).2
      simp only [Bool.and_eq_true, decide_eq_true_eq] at hahead
      exact hahead.2
    have hrest : changesAhead db principalId row.cursor =
        (changesAhead db principalId afterCursor).filter fun y ↦
          decide (row.cursor < y.cursor) := by
      unfold changesAhead
      rw [List.filter_filter]
      apply List.filter_congr
      intro y _
      by_cases hlt : row.cursor < y.cursor
      · have hy : (max 0 afterCursor : ℤ) < y.cursor := by omega
        simp [hlt, hy]
      · simp [hlt]
    rw [hlast, List.getLast?_concat, Option.map_some, Option.getD_some, hrest]
    conv_rhs => rw [hsplit]
    rw [filter_gt_of_pairwise (hsplit ▸ changesAhead_pairwise hv principalId afterCursor)]
    conv_lhs => rw [hsplit]
    simp

/-- Reading on from a cursor while the store moves on. -/
inductive Feed (principalId : String) (db : Database) (cursor : ℤ) :
    Database → List ThreadChange → ℤ → Prop
  | start : Feed principalId db cursor db [] cursor
  | move {db' db'' : Database} {rows : List ThreadChange} {after : ℤ} :
      Feed principalId db cursor db' rows after → store.Run calls db' db'' →
      Feed principalId db cursor db'' rows after
  | read {db' : Database} {rows : List ThreadChange} {after : ℤ} (limit : ℤ) :
      Feed principalId db cursor db' rows after →
      Feed principalId db cursor db' (rows ++ (threadChangesSince db' principalId after limit).1)
        (threadChangesSince db' principalId after limit).2

/-- What is recorded later is ahead of every cursor of before. -/
theorem changesAhead_later (hv : db'.journal.Versioned) (hlater : Later db db') {cursor : ℤ}
    (hcursor : cursor ≤ db.journal.changes.length) :
    changesAhead db' principalId cursor = changesAhead db principalId cursor ++
      (db'.journal.changes.drop db.journal.changes.length).filter fun row ↦
        row.principalId = principalId := by
  have hsplit := List.prefix_iff_eq_append.mp hlater.kept.changes
  unfold changesAhead
  conv_lhs => rw [← hsplit, List.filter_append]
  congr 1
  apply List.filter_congr
  intro row hrow
  have hnew : db.journal.changes.length < row.cursor := by
    rw [← filter_lt_of_range' hv.cursors] at hrow
    simpa using (List.mem_filter.mp hrow).2
  have hahead : (max 0 cursor : ℤ) < row.cursor := by omega
  simp [hahead]

theorem cursor_le_length (hv : db.journal.Versioned) {row : ThreadChange}
    (hrow : row ∈ db.journal.changes) : row.cursor ≤ db.journal.changes.length := by
  obtain ⟨k, hk, rfl⟩ := List.getElem_of_mem hrow
  rw [get_of_range' hv.cursors hk]
  exact hk

theorem threadChangesSince_le (hv : db.journal.Versioned) {after limit : ℤ}
    (h : after ≤ db.journal.changes.length) :
    (threadChangesSince db principalId after limit).2 ≤ db.journal.changes.length := by
  have hmem : ∀ row ∈ (threadChangesSince db principalId after limit).1,
      (row.cursor : ℤ) ≤ db.journal.changes.length := by
    intro row hrow
    have hrow' := List.mem_of_mem_filter (mem_orderBy.mp (List.mem_of_mem_take hrow))
    exact_mod_cast cursor_le_length hv hrow'
  unfold threadChangesSince at hmem ⊢
  dsimp only at hmem ⊢
  generalize List.take _ _ = rows at hmem ⊢
  cases hlast : rows.getLast? with
  | none =>
      rw [Option.map_none, Option.getD_none]
      omega
  | some row => exact hmem row (List.mem_of_getLast? hlast)

/-- What is read and what is still ahead are all changes after the cursor. -/
theorem Feed.ahead {cursor after : ℤ} {rows : List ThreadChange}
    (hdb : store.ReachableBy calls db) (hcursor : cursor ≤ db.journal.changes.length)
    (h : Feed principalId db cursor db' rows after) :
    store.Run calls db db' ∧ after ≤ db'.journal.changes.length ∧
      changesAhead db' principalId cursor = rows ++ changesAhead db' principalId after := by
  induction h with
  | start => exact ⟨.refl _, hcursor, rfl⟩
  | @move db' db'' rows after _ hrun ih =>
      obtain ⟨hbefore, hafter, hahead⟩ := ih
      have hsound := sound_of_calls (hdb.trans hbefore)
      have hv := (sound_of_calls ((hdb.trans hbefore).trans hrun)).versioned
      have hlater := later_of_run hsound hrun
      have hlength := (later_of_run (sound_of_calls hdb) hbefore).kept.changes.length_le
      have hlength' := hlater.kept.changes.length_le
      refine ⟨hbefore.trans hrun, by omega, ?_⟩
      rw [changesAhead_later hv hlater (by omega), changesAhead_later hv hlater hafter, hahead,
        List.append_assoc]
  | @read db' rows after limit _ ih =>
      obtain ⟨hbefore, hafter, hahead⟩ := ih
      have hv := (sound_of_calls (hdb.trans hbefore)).versioned
      refine ⟨hbefore, threadChangesSince_le hv hafter, ?_⟩
      rw [hahead, List.append_assoc, ← changesAhead_read hv]

/-- The cursor of a snapshot stands at the last change of its thread. -/
theorem changesAhead_thread (hv : db'.journal.Versioned) (hlater : Later db db')
    (howned : ∃ t ∈ db'.journal.threads.rows, t.id = threadId ∧ t.principalId = principalId)
    (hcursor : (threadCursor db principalId threadId : ℤ) ≤ db.journal.changes.length) :
    (changesAhead db' principalId (threadCursor db principalId threadId)).filter
        (fun row ↦ row.threadId = threadId) =
      (db'.journal.changesOf threadId).drop (db.journal.changesOf threadId).length := by
  obtain ⟨t, ht, hid, howner⟩ := howned
  have hsplit := List.prefix_iff_eq_append.mp hlater.kept.changes
  -- every change of the thread is recorded for the owner of the thread
  have hprincipal : ∀ row ∈ db'.journal.changes, row.threadId = threadId →
      row.principalId = principalId := by
    intro row hrow hthread
    obtain ⟨t', ht', hid', howner'⟩ := hv.owners row hrow
    have hsame : t' = t :=
      List.inj_on_of_nodup_map db'.journal.threads.nodup ht' ht (hid'.trans (hthread.trans hid.symm))
    rw [← howner', hsame, howner]
  have hpast : (changesAhead db principalId (threadCursor db principalId threadId)).filter
      (fun row ↦ row.threadId = threadId) = [] := by
    rw [List.filter_eq_nil_iff]
    intro row hrow hthread
    obtain ⟨hmem, hahead⟩ := List.mem_filter.mp hrow
    simp only [Bool.and_eq_true, decide_eq_true_eq] at hahead hthread
    have hle : row.cursor ≤ threadCursor db principalId threadId := by
      apply le_foldr_max
      refine List.mem_map.mpr ⟨row, List.mem_filter.mpr ⟨hmem, ?_⟩, rfl⟩
      simp [hahead.1, hthread]
    omega
  have hdrop : (db'.journal.changesOf threadId).drop (db.journal.changesOf threadId).length =
      (db'.journal.changes.drop db.journal.changes.length).filter
        fun row ↦ row.threadId = threadId := by
    unfold Journal.changesOf
    conv_lhs => rw [← hsplit, List.filter_append, List.drop_left]
  rw [changesAhead_later hv hlater hcursor, List.filter_append, hpast, List.nil_append, hdrop,
    List.filter_filter]
  apply List.filter_congr
  intro row hrow
  by_cases hthread : row.threadId = threadId
  · simp [hthread, hprincipal row (List.mem_of_mem_drop hrow) hthread]
  · simp [hthread]

theorem threadCursor_le_length (hv : db.journal.Versioned) :
    threadCursor db principalId threadId ≤ db.journal.changes.length := by
  apply foldr_max_le
  intro n hn
  obtain ⟨row, hrow, rfl⟩ := List.mem_map.mp hn
  exact cursor_le_length hv (List.mem_of_mem_filter hrow)

/-! ## Nothing is lost -/

theorem ReadsPage.cursor {beforePosition : Option ℤ} {page : ThreadSnapshot}
    (h : ReadsPage datetime db principalId threadId beforePosition page) :
    page.cursor = threadCursor db principalId threadId := by
  obtain ⟨itemLimit, eventLimit, _, hpage⟩ := h.shape
  rw [← h.owner, ← h.id, hpage]
  rfl

/-- The changes of the thread that a feed from the cursor of a snapshot has
read and those still ahead of it are the later changes of the thread. -/
theorem ReadsPage.feed {beforePosition : Option ℤ} {page : ThreadSnapshot}
    (hdb : store.ReachableBy calls db)
    (h : ReadsPage datetime db principalId threadId beforePosition page) {after : ℤ}
    {rows : List ThreadChange} (hfeed : Feed principalId db page.cursor db' rows after) :
    (rows ++ changesAhead db' principalId after).filter (fun row ↦ row.threadId = threadId) =
      (db'.journal.changesOf threadId).drop (db.journal.changesOf threadId).length := by
  have hv := (sound_of_calls hdb).versioned
  have hlength : (threadCursor db principalId threadId : ℤ) ≤ db.journal.changes.length := by
    exact_mod_cast threadCursor_le_length hv
  rw [h.cursor] at hfeed
  obtain ⟨hrun, _, hahead⟩ := hfeed.ahead hdb hlength
  have hlater := later_of_run (sound_of_calls hdb) hrun
  obtain ⟨t, ht, hid, howner⟩ := hlater.kept.threads page.thread h.found
  rw [← hahead]
  exact changesAhead_thread (sound_of_calls (hdb.trans hrun)).versioned hlater
    ⟨t, ht, hid.trans h.id, howner.trans h.owner⟩ hlength

theorem ReadsPage.versioned_of_feed {beforePosition : Option ℤ} {page : ThreadSnapshot}
    (hdb : store.ReachableBy calls db)
    (h : ReadsPage datetime db principalId threadId beforePosition page) {after : ℤ}
    {rows : List ThreadChange} (hfeed : Feed principalId db page.cursor db' rows after) :
    db'.journal.Versioned := by
  have hlength : (threadCursor db principalId threadId : ℤ) ≤ db.journal.changes.length := by
    exact_mod_cast threadCursor_le_length (sound_of_calls hdb).versioned
  rw [h.cursor] at hfeed
  exact (sound_of_calls (hdb.trans (hfeed.ahead hdb hlength).1)).versioned

/-- The pages of a chain show the newest live items of the thread, each once
and in order; a chain that has come to its end shows all of them. -/
structure PagesAreLive (db : Database) (threadId : String) (pages : List ThreadSnapshot)
    (rest : Option ℤ) : Prop where
  all : (db.journal.live threadId).map ThreadItem.placed =
    (itemsLeft db threadId rest ++ itemsOf pages).map ThreadItem.placed
  ordered : (itemsOf pages).Pairwise fun a b ↦ a.position < b.position
  progress : rest.isSome → 2 * pages.length ≤ (itemsOf pages).length

/-- What a page returns and what is read from its watermarks and its cursor
on are the whole logs. -/
structure ContinuesLogs (db : Database) (principalId threadId : String) (page : ThreadSnapshot) :
    Prop where
  runs : ∀ i ∈ page.items, ∀ runId, nonEmpty i.runId = some runId →
    ∃ watermark, (runId, watermark) ∈ page.eventHighWatermarks
  events : ∀ runId watermark, (runId, watermark) ∈ page.eventHighWatermarks →
    ∀ db', store.Run calls db db' →
      (page.events.filter fun e ↦ e.runId = runId) ++ eventsSince db' runId watermark none =
        db'.journal.events.ofRun runId
  changes : ∀ db' rows after, Feed principalId db page.cursor db' rows after →
    (rows ++ changesAhead db' principalId after).filter (fun row ↦ row.threadId = threadId) =
      (db'.journal.changesOf threadId).drop (db.journal.changesOf threadId).length
  /-- A read returns the next changes, as many as its limit allows and at least
  one of them. -/
  reads : ∀ db' rows after, Feed principalId db page.cursor db' rows after → ∀ limit,
    0 < boundedChangeLimit limit ∧ (threadChangesSince db' principalId after limit).1 =
      (changesAhead db' principalId after).take (boundedChangeLimit limit)
  /-- Whoever reads until a read is empty has every later change of the thread,
  each once and in order. -/
  caughtUp : ∀ db' rows after, Feed principalId db page.cursor db' rows after → ∀ limit,
    (threadChangesSince db' principalId after limit).1 = [] →
      rows.filter (fun row ↦ row.threadId = threadId) =
        (db'.journal.changesOf threadId).drop (db.journal.changesOf threadId).length

theorem Pages.live {version : ℕ} {rest : Option ℤ} {pages : List ThreadSnapshot}
    (hdb : store.ReachableBy calls db)
    (h : Pages datetime principalId threadId version db none pages rest) :
    PagesAreLive db threadId pages rest := by
  obtain ⟨hitems, hprogress⟩ := h.items hdb
  rw [olderItems_none] at hitems
  refine ⟨hitems, ?_, hprogress⟩
  have hplaced : ((itemsLeft db threadId rest ++ itemsOf pages).map ThreadItem.placed).Pairwise
      fun a b ↦ a.position < b.position := by
    rw [← hitems, List.pairwise_map]
    exact live_pairwise (placed_of_calls hdb) threadId
  rw [List.pairwise_map, List.pairwise_append] at hplaced
  exact hplaced.2.1

/-- Reading a thread page by page and then catching up loses nothing and
repeats nothing. -/
theorem snapshot_and_catch_up_lose_nothing (datetime : Time → Time) {db : Database}
    (h : store.ReachableBy calls db) (principalId threadId : String) :
    (∀ version pages rest, Pages datetime principalId threadId version db none pages rest →
      PagesAreLive db threadId pages rest) ∧
    ∀ beforePosition itemLimit eventLimit expectedVersion page,
      getThreadSnapshot datetime db principalId threadId beforePosition itemLimit eventLimit
        expectedVersion = .ok (some page) → ContinuesLogs db principalId threadId page := by
  refine ⟨fun version pages rest hpages ↦ hpages.live h, ?_⟩
  intro beforePosition itemLimit eventLimit expectedVersion page hread
  have hpage := readsPage_of_snapshot (placed_of_calls h) hread
  have hreads : ∀ db' rows after, Feed principalId db page.cursor db' rows after → ∀ limit,
      (threadChangesSince db' principalId after limit).1 =
        (changesAhead db' principalId after).take (boundedChangeLimit limit) := by
    intro db' rows after hfeed limit
    rw [threadChangesSince_eq (hpage.versioned_of_feed h hfeed)]
  refine ⟨?_, ?_, ?_, ?_, ?_⟩
  · intro i hi runId hrun
    exact hpage.watermarked hi hrun
  · intro runId watermark hmem db' hrun
    exact hpage.log (later_of_run (sound_of_calls h) hrun) hmem
  · intro db' rows after hfeed
    exact hpage.feed h hfeed
  · intro db' rows after hfeed limit
    exact ⟨boundedChangeLimit_pos limit, hreads db' rows after hfeed limit⟩
  · intro db' rows after hfeed limit hnone
    rw [hreads db' rows after hfeed limit] at hnone
    have hahead : changesAhead db' principalId after = [] :=
      (List.take_eq_nil_iff.mp hnone).resolve_left (boundedChangeLimit_pos limit).ne'
    have hlater := hpage.feed h hfeed
    rwa [hahead, List.append_nil] at hlater

theorem snapshot_and_catch_up_lose_nothing_claimed :
    (∃ page, getThreadSnapshot id Database.claimed localOwnerPrincipalId "thread_" none 200 5000
        (some 1) = .ok (some page) ∧ page.items.length = 2 ∧
      ContinuesLogs Database.claimed localOwnerPrincipalId "thread_" page) ∧
    ∀ version pages rest,
      Pages id localOwnerPrincipalId "thread_" version Database.claimed none pages rest →
        PagesAreLive Database.claimed "thread_" pages rest := by
  have hall := snapshot_and_catch_up_lose_nothing id
    (calls_of_callsWhileWaiting reachable_claimed) localOwnerPrincipalId "thread_"
  have hfound : (getThreadSnapshot id Database.claimed localOwnerPrincipalId "thread_" none 200
      5000 (some 1)).toOption.join.any (fun page ↦ page.items.length = 2) = true := by
    decide +kernel
  obtain ⟨page, hpage, hlength⟩ := (Option.any_eq_true _ _).mp hfound
  have hread : getThreadSnapshot id Database.claimed localOwnerPrincipalId "thread_" none 200
      5000 (some 1) = .ok (some page) := by
    cases hres : getThreadSnapshot id Database.claimed localOwnerPrincipalId "thread_" none 200
      5000 (some 1) with
    | error e =>
        rw [hres] at hpage
        cases hpage
    | ok found =>
        rw [hres] at hpage
        exact congrArg _ hpage
  exact ⟨⟨page, hread, by simpa using hlength, hall.2 none 200 5000 (some 1) page hread⟩, hall.1⟩

end ShejaneRuntime.Store
