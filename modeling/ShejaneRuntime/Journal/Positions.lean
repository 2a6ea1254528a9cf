import ShejaneRuntime.Journal.Gapless
import ShejaneRuntime.Lib.Positions

/-!
# Positions of a thread and the history of a turn

The items of a thread that no edit has replaced stand at the positions one
to `n`, in the order they were inserted. A turn goes after one of these
positions; what it is handed as history are the items up to there.
-/

namespace ShejaneRuntime.Store

open Lib Lib.Txn

namespace Journal

/-- The items of a thread that no edit has replaced. -/
abbrev live (j : Journal) (threadId : String) : List ThreadItem := liveItems j.items threadId

structure Placed (j : Journal) : Prop where
  positions : ∀ threadId, ∃ n, (j.live threadId).map ThreadItem.position = upTo n
  types : ∀ i ∈ j.items.rows, i.itemType = "user_message" ∨ i.itemType = "assistant_message"
  threads : ∀ i ∈ j.items.rows, ∃ t ∈ j.threads.rows, t.id = i.threadId

end Journal

/-! ## Growing -/

/-- Where an item is and what it is. -/
structure ThreadItem.SamePlace (i i' : ThreadItem) : Prop where
  threadId : i'.threadId = i.threadId
  itemType : i'.itemType = i.itemType
  position : i'.position = i.position
  supersededAt : i'.supersededAt = i.supersededAt

theorem ThreadItem.SamePlace.of_placed {i i' : ThreadItem} (h : i'.placed = i.placed) :
    i.SamePlace i' := by
  have hthread : i'.placed.threadId = i.placed.threadId := by rw [h]
  have htype : i'.placed.itemType = i.placed.itemType := by rw [h]
  have hposition : i'.placed.position = i.placed.position := by rw [h]
  have hsuperseded : i'.placed.supersededAt = i.placed.supersededAt := by rw [h]
  exact ⟨hthread, htype, hposition, hsuperseded⟩

theorem filter_live_map {rows : List ThreadItem} {g : ThreadItem → ThreadItem}
    (hg : ∀ i : ThreadItem, i.SamePlace (g i)) (threadId : String) :
    (rows.map g).filter (fun i ↦ i.threadId = threadId && i.supersededAt.isNone) =
      (rows.filter fun i ↦ i.threadId = threadId && i.supersededAt.isNone).map g := by
  rw [List.filter_map]
  congr 1
  apply List.filter_congr
  intro i _
  simp [(hg i).threadId, (hg i).supersededAt]

theorem Journal.Grows.placed {j j' : Journal} (h : Journal.Grows j j') (hp : j.Placed) :
    j'.Placed := by
  cases h with
  | event _ => exact ⟨hp.positions, hp.types, hp.threads⟩
  | @item itemId runId f hf hplaced _ =>
      have hsame : ∀ i : ThreadItem, i.SamePlace (if (decide (i.id = itemId) && decide (i.runId = some runId))
          = true then f i else i) := by
        intro i
        split
        · exact .of_placed (hplaced i)
        · exact ⟨rfl, rfl, rfl, rfl⟩
      refine ⟨fun threadId ↦ ?_, fun i hi ↦ ?_, fun i hi ↦ ?_⟩
      · obtain ⟨n, hn⟩ := hp.positions threadId
        refine ⟨n, ?_⟩
        rw [← hn]
        unfold Journal.live liveItems Table.select Table.update at *
        rw [filter_live_map hsame, List.map_map]
        apply List.map_congr_left
        intro i _
        exact (hsame i).position
      · obtain ⟨i₀, hi₀, rfl⟩ := List.mem_map.mp hi
        rw [(hsame i₀).itemType]
        exact hp.types i₀ hi₀
      · obtain ⟨i₀, hi₀, rfl⟩ := List.mem_map.mp hi
        rw [(hsame i₀).threadId]
        exact hp.threads i₀ hi₀
  | thread hf _ _ =>
      refine ⟨hp.positions, hp.types, fun i hi ↦ ?_⟩
      obtain ⟨t, ht, hid⟩ := hp.threads i hi
      refine ⟨_, List.mem_map.mpr ⟨t, ht, rfl⟩, ?_⟩
      dsimp only
      split
      · exact (hf t).trans hid
      · exact hid

theorem Journal.Grown.placed {j j' : Journal} (h : Journal.Grown j j') (hp : j.Placed) :
    j'.Placed := by
  induction h with
  | refl => exact hp
  | tail _ hstep ih => exact hstep.placed ih

/-! ## A turn -/

/-- An item as a message of the history. -/
def ThreadItem.message (i : ThreadItem) : HistoryMessage :=
  ⟨if i.itemType = "user_message" then "user" else "assistant", i.content⟩

/-- The messages of a list of items up to a position. -/
def messagesUpTo (base : ℤ) (items : List ThreadItem) : List HistoryMessage :=
  (items.filter fun i ↦ i.position ≤ base && i.content ≠ "").map ThreadItem.message

/-- In order of their positions items need no sorting. -/
theorem turnHistory_eq {live : List ThreadItem} {n : ℕ}
    (hn : live.map ThreadItem.position = upTo n)
    (htypes : ∀ i ∈ live, i.itemType = "user_message" ∨ i.itemType = "assistant_message")
    (base : ℤ) : turnHistory live base = messagesUpTo base live := by
  unfold turnHistory messagesUpTo
  have hrows : (live.filter fun i ↦ i.position ≤ base &&
      (i.itemType = "user_message" || i.itemType = "assistant_message") && i.content ≠ "") =
        live.filter fun i ↦ i.position ≤ base && i.content ≠ "" := by
    apply List.filter_congr
    intro i hi
    rcases htypes i hi with htype | htype <;> simp [htype]
  have hsorted : live.Pairwise fun a b ↦ a.position < b.position :=
    List.pairwise_map.mp (hn ▸ pairwise_upTo n)
  dsimp only
  rw [hrows, List.Pairwise.insertionSort_eq]
  · rfl
  · exact (hsorted.filter _).imp fun hlt ↦ .inl hlt

/-- The position a turn goes after is one of the thread, or before the first. -/
theorem RunCommand.TurnsAfter.le {c : RunCommand} {live : List ThreadItem} {base : ℤ} {n : ℕ}
    (h : c.TurnsAfter live base) (hn : live.map ThreadItem.position = upTo n) :
    ∃ m : ℕ, m ≤ n ∧ base = m ∧ (c.replaceFromClientId = none → m = n) := by
  rcases h with ⟨i, hi, hreplaces, rfl⟩ | ⟨hnone, rfl⟩
  · have hmem : i.position ∈ upTo n := hn ▸ List.mem_map_of_mem hi
    rw [mem_upTo] at hmem
    refine ⟨(i.position - 1).toNat, by omega, by omega, fun hnone ↦ ?_⟩
    obtain ⟨_, _, hsome⟩ := hreplaces
    rw [hnone] at hsome
    cases hsome
  · exact ⟨n, le_refl n, by rw [hn, max?_upTo], fun _ ↦ rfl⟩

/-- The items a seed starts a thread with stand at the first positions. -/
theorem SeedRow.positions {threadId : String} {seed : List HistoryMessage} {k : ℕ}
    {added : List ThreadItem} (h : List.Forall₂ (SeedRow threadId) (seed.zipIdx k) added) :
    added.map ThreadItem.position = (List.range' k seed.length).map fun n : ℕ ↦ (n : ℤ) + 1 := by
  induction seed generalizing k added with
  | nil =>
      cases h
      rfl
  | cons m seed ih =>
      rw [List.zipIdx_cons] at h
      cases h with
      | cons hrow hrest =>
          rw [List.map_cons, ih hrest, List.length_cons, List.range'_succ, List.map_cons,
            hrow.position]

theorem SeedRow.message {threadId : String} {row : HistoryMessage × ℕ} {i : ThreadItem}
    (h : SeedRow threadId row i) (hrole : row.1.role = "user" ∨ row.1.role = "assistant") :
    i.message = row.1 ∧ (i.itemType = "user_message" ∨ i.itemType = "assistant_message") := by
  obtain ⟨⟨role, content⟩, n⟩ := row
  unfold ThreadItem.message
  rw [h.itemType, h.content]
  rcases hrole with hrole | hrole
  · obtain rfl : role = "user" := hrole
    exact ⟨by simp, by simp⟩
  · obtain rfl : role = "assistant" := hrole
    exact ⟨by simp, by simp⟩

theorem SeedRow.messages {threadId : String} {seed : List HistoryMessage} {k : ℕ}
    {added : List ThreadItem} (h : List.Forall₂ (SeedRow threadId) (seed.zipIdx k) added)
    (hroles : ∀ m ∈ seed, m.role = "user" ∨ m.role = "assistant") :
    added.map ThreadItem.message = seed := by
  induction seed generalizing k added with
  | nil =>
      cases h
      rfl
  | cons m seed ih =>
      rw [List.zipIdx_cons] at h
      cases h with
      | cons hrow hrest =>
          rw [List.map_cons, ih hrest fun m' hm' ↦ hroles m' (by simp [hm']),
            (hrow.message (hroles m (by simp))).1]

theorem exists_of_forall₂ {α β : Type} {R : α → β → Prop} {xs : List α} {ys : List β}
    (h : List.Forall₂ R xs ys) {y : β} (hy : y ∈ ys) : ∃ x ∈ xs, R x y := by
  induction h with
  | nil => cases hy
  | cons hR _ ih =>
      rcases List.mem_cons.mp hy with rfl | hmem
      · exact ⟨_, List.mem_cons_self, hR⟩
      · obtain ⟨x, hx, hxy⟩ := ih hmem
        exact ⟨x, List.mem_cons_of_mem _ hx, hxy⟩

theorem mem_seedHistory {c : RunCommand} {m : HistoryMessage} (h : m ∈ seedHistory c) :
    (m.role = "user" ∨ m.role = "assistant") ∧ m.content ≠ "" := by
  unfold seedHistory at h
  rw [List.mem_filter] at h
  simp only [Bool.and_eq_true, Bool.or_eq_true, decide_eq_true_eq] at h
  refine ⟨h.2.1, fun hempty ↦ h.2.2 ?_⟩
  rw [hempty]
  decide

/-- What is live after a thread is opened, and what a turn is handed. -/
theorem Opened.live {c : RunCommand} {busy : Bool} {threadId : String} {thread : TurnThread}
    {j j₁ : Journal} (h : Opened c busy threadId j thread j₁) (hp : j.Placed) :
    j₁.Placed ∧ (∃ t ∈ j₁.threads.rows, t.id = thread.threadId) ∧
      thread.threadId = threadId ∧ ∃ n m : ℕ,
      (j₁.live threadId).map ThreadItem.position = upTo n ∧ m ≤ n ∧ thread.basePosition = m ∧
      (c.replaceFromClientId = none → m = n) ∧
      thread.history = messagesUpTo m (j₁.live threadId) := by
  cases h with
  | @new t threads items added hnone hid _ _ hinsert hrows hadded =>
      have hfresh : ∀ i ∈ j.items.rows, i.threadId ≠ threadId := by
        intro i hi hsame
        obtain ⟨t', ht', hid'⟩ := hp.threads i hi
        have habsent := Table.find?_eq_none_iff.mp (Table.find?_key_of_insert? hinsert) t' ht'
        exact habsent (hid'.trans (hsame.trans hid.symm))
      have hseed : ∀ i ∈ added, i.threadId = threadId ∧ i.supersededAt = none ∧ i.content ≠ "" ∧
          (i.itemType = "user_message" ∨ i.itemType = "assistant_message") := by
        intro i hi
        obtain ⟨row, hrow, hseed⟩ := exists_of_forall₂ hadded hi
        obtain ⟨hrole, hcontent⟩ := mem_seedHistory (List.fst_mem_of_mem_zipIdx hrow)
        exact ⟨hseed.threadId, hseed.live, hseed.content ▸ hcontent, (hseed.message hrole).2⟩
      have hpositions : added.map ThreadItem.position = upTo (seedHistory c).length := by
        rw [SeedRow.positions hadded, ← List.range_eq_range']
        rfl
      have hmessages : added.map ThreadItem.message = seedHistory c :=
        SeedRow.messages hadded fun m hm ↦ (mem_seedHistory hm).1
      have hlive : liveItems items threadId = added := by
        unfold liveItems Table.select
        rw [hrows, List.filter_append, List.filter_eq_nil_iff.mpr, List.nil_append,
          List.filter_eq_self]
        · intro i hi
          simp [(hseed i hi).1, (hseed i hi).2.1]
        · intro i hi
          simp [hfresh i hi]
      have hothers : ∀ threadId', threadId' ≠ threadId →
          liveItems items threadId' = liveItems j.items threadId' := by
        intro threadId' hne
        have hadded' : added.filter
            (fun i ↦ i.threadId = threadId' && i.supersededAt.isNone) = [] := by
          rw [List.filter_eq_nil_iff]
          intro i hi
          simp [(hseed i hi).1, hne.symm]
        unfold liveItems Table.select
        rw [hrows, List.filter_append, hadded', List.append_nil]
      refine ⟨⟨?_, ?_, ?_⟩, ⟨t, (Table.mem_insert? hinsert).mpr (.inr rfl), hid⟩, rfl,
        (seedHistory c).length, (seedHistory c).length, ?_, le_refl _, rfl, fun _ ↦ rfl, ?_⟩
      · intro threadId'
        by_cases hsame : threadId' = threadId
        · subst hsame
          exact ⟨_, by rw [Journal.live, hlive, hpositions]⟩
        · obtain ⟨n, hn⟩ := hp.positions threadId'
          exact ⟨n, by rw [Journal.live, hothers threadId' hsame]; exact hn⟩
      · intro i hi
        rw [hrows] at hi
        rcases List.mem_append.mp hi with hold | hnew
        · exact hp.types i hold
        · exact (hseed i hnew).2.2.2
      · intro i hi
        rw [hrows] at hi
        rcases List.mem_append.mp hi with hold | hnew
        · obtain ⟨t', ht', hid'⟩ := hp.threads i hold
          exact ⟨t', (Table.mem_insert? hinsert).mpr (.inl ht'), hid'⟩
        · exact ⟨t, (Table.mem_insert? hinsert).mpr (.inr rfl), hid.trans (hseed i hnew).1.symm⟩
      · rw [Journal.live, hlive, hpositions]
      · rw [Journal.live, hlive, messagesUpTo, List.filter_eq_self.mpr, hmessages]
        intro i hi
        have hmem : i.position ∈ upTo (seedHistory c).length :=
          hpositions ▸ List.mem_map_of_mem hi
        simp [(mem_upTo.mp hmem).2, (hseed i hi).2.2.1]
  | @next t f hf base hfind _ _ hbase _ =>
      obtain ⟨n, hn⟩ := hp.positions threadId
      obtain ⟨m, hm, rfl, hall⟩ := hbase.le hn
      have htypes : ∀ i ∈ j.live threadId,
          i.itemType = "user_message" ∨ i.itemType = "assistant_message" :=
        fun i hi ↦ hp.types i (List.mem_of_mem_filter hi)
      have hkept : ∀ t' ∈ j.threads.rows,
          ∃ t'' ∈ (j.threads.update (fun t ↦ t.id = threadId) f hf).rows, t''.id = t'.id := by
        intro t' ht'
        refine ⟨_, List.mem_map.mpr ⟨t', ht', rfl⟩, ?_⟩
        dsimp only
        split
        · exact hf t'
        · rfl
      refine ⟨⟨hp.positions, hp.types, ?_⟩, ?_, rfl, n, m, hn, hm, rfl, hall,
        turnHistory_eq hn htypes _⟩
      · intro i hi
        obtain ⟨t', ht', hid⟩ := hp.threads i hi
        obtain ⟨t'', ht'', hid'⟩ := hkept t' ht'
        exact ⟨t'', ht'', hid'.trans hid⟩
      · obtain ⟨t'', ht'', hid'⟩ := hkept t (Table.mem_of_find? hfind)
        exact ⟨t'', ht'', hid'.trans (Table.key_of_find? hfind)⟩

theorem filter_live_supersede (rows : List ThreadItem) (replaced : ThreadItem → Bool)
    (runId threadId : String) (now : Time) :
    (rows.map fun i ↦ if replaced i then i.supersede runId now else i).filter
        (fun i ↦ i.threadId = threadId && i.supersededAt.isNone) =
      (rows.filter fun i ↦ i.threadId = threadId && i.supersededAt.isNone).filter
        fun i ↦ !replaced i := by
  induction rows with
  | nil => rfl
  | cons i rows ih =>
      rw [List.map_cons, List.filter_cons, List.filter_cons, ih]
      by_cases hreplaced : replaced i = true
      · have hgone : (i.supersede runId now).supersededAt.isNone = false := rfl
        rw [if_pos hreplaced, hgone, Bool.and_false, if_neg Bool.false_ne_true]
        split
        · rw [List.filter_cons_of_neg (by simp [hreplaced])]
        · rfl
      · rw [if_neg hreplaced]
        split
        · rw [List.filter_cons_of_pos (by simp [hreplaced])]
        · rfl

/-- The turn replaces what is after its base and adds its two items. -/
theorem Wrote.live {c : RunCommand} {runId : String} {thread : TurnThread} {j j' : Journal}
    (h : Wrote c runId thread j j') : ∃ user assistant : ThreadItem,
    TurnRow thread.threadId runId "user_message" (thread.basePosition + 1) user ∧
    TurnRow thread.threadId runId "assistant_message" (thread.basePosition + 2) assistant ∧
    (∀ i ∈ j'.items.rows, (∃ i₀ ∈ j.items.rows, i.threadId = i₀.threadId ∧
      i.itemType = i₀.itemType) ∨ i = user ∨ i = assistant) ∧
    j'.live thread.threadId = ((j.live thread.threadId).filter fun i ↦
      c.replaceFromClientId.isNone || i.position ≤ thread.basePosition) ++ [user, assistant] ∧
    ∀ threadId, threadId ≠ thread.threadId → j'.live threadId = j.live threadId := by
  obtain ⟨now, user, assistant, huser, hassistant, hrows⟩ := h.items
  refine ⟨user, assistant, huser, hassistant, ?_, ?_, ?_⟩
  · intro i hi
    rw [hrows] at hi
    rcases List.mem_append.mp hi with hold | hnew
    · obtain ⟨i₀, hi₀, rfl⟩ := List.mem_map.mp hold
      refine .inl ⟨i₀, hi₀, ?_⟩
      split
      · exact ⟨rfl, rfl⟩
      · exact ⟨rfl, rfl⟩
    · exact .inr (by simpa using hnew)
  · unfold Journal.live liveItems Table.select
    rw [hrows, List.filter_append, filter_live_supersede]
    congr 1
    · apply List.filter_congr
      intro i hi
      have hlive := List.of_mem_filter hi
      simp only [Bool.and_eq_true, decide_eq_true_eq] at hlive
      cases hreplace : c.replaceFromClientId with
      | none => simp
      | some clientId =>
          simp only [ThreadItem.after, hlive.1, hlive.2, Option.isSome_some, Option.isNone_some,
            decide_true, Bool.true_and, Bool.and_true, Bool.false_or, ← decide_not]
          exact decide_eq_decide.mpr Int.not_lt
    · simp [huser.threadId, huser.live, hassistant.threadId, hassistant.live]
  · intro threadId hne
    unfold Journal.live liveItems Table.select
    rw [hrows, List.filter_append, filter_live_supersede, List.filter_eq_self.mpr]
    · simp [huser.threadId, hassistant.threadId, hne.symm]
    · intro i hi
      have hlive := List.of_mem_filter hi
      simp only [Bool.and_eq_true, decide_eq_true_eq] at hlive
      simp [ThreadItem.after, hlive.1, hne]

/-- What a turn leaves of its thread, and what its run is handed. -/
structure Continues (run : Run) (j : Journal) : Prop where
  turn : ∃ (threadId : String) (user assistant : ThreadItem) (before : List ThreadItem),
    run.threadId = some threadId ∧ j.live threadId = before ++ [user, assistant] ∧
    user.runId = some run.id ∧ user.itemType = "user_message" ∧
    assistant.runId = some run.id ∧ assistant.itemType = "assistant_message" ∧
    run.historyJson = historyJson
      ((before.filter fun i ↦ i.content ≠ "").map ThreadItem.message)

theorem Started.placed {c : RunCommand} {run : Run} {db db' : Database}
    (h : Started c run db db') (hp : db.journal.Placed) :
    db'.journal.Placed ∧ Continues run db'.journal := by
  obtain ⟨thread, journal, rootRunId, assistantItemId, hrecord, hopened, hwrote⟩ := h.turn
  obtain ⟨hp₁, hthread, _, n, m, hn, hm, hbase, hall, hhistory⟩ := hopened.live hp
  obtain ⟨user, assistant, huser, hassistant, hcases, hlive, hothers⟩ := hwrote.live
  -- what stays live of the thread stands at the first positions up to the base
  have hcut : ((journal.live thread.threadId).filter fun i ↦
      c.replaceFromClientId.isNone || i.position ≤ thread.basePosition) =
        (journal.live thread.threadId).filter fun i ↦ i.position ≤ (m : ℤ) := by
    rw [hbase]
    apply List.filter_congr
    intro i hi
    cases hreplace : c.replaceFromClientId with
    | some clientId => simp
    | none =>
        have hmem : i.position ∈ upTo n := hn ▸ List.mem_map_of_mem hi
        rw [← hall hreplace] at hmem
        simp [(mem_upTo.mp hmem).2]
  rw [hcut] at hlive
  have hpositions := eq_upTo_of_cut hn hm
  refine ⟨⟨?_, ?_, ?_⟩, ⟨thread.threadId, user, assistant, _, ?_, hlive, huser.runId,
    huser.itemType, hassistant.runId, hassistant.itemType, ?_⟩⟩
  · intro threadId
    by_cases hsame : threadId = thread.threadId
    · subst hsame
      refine ⟨m + 2, ?_⟩
      rw [hlive, List.map_append, hpositions, upTo_succ, upTo_succ, List.append_assoc]
      have huserAt : user.position = (m : ℤ) + 1 := by rw [huser.position, hbase]
      have hassistantAt : assistant.position = ((m + 1 : ℕ) : ℤ) + 1 := by
        rw [hassistant.position, hbase]
        omega
      rw [List.map_cons, List.map_cons, List.map_nil, huserAt, hassistantAt]
      rfl
    · rw [hothers threadId hsame]
      exact hp₁.positions threadId
  · intro i hi
    rcases hcases i hi with ⟨i₀, hi₀, _, htype⟩ | rfl | rfl
    · rw [htype]
      exact hp₁.types i₀ hi₀
    · exact .inl huser.itemType
    · exact .inr hassistant.itemType
  · intro i hi
    rw [hwrote.threads]
    rcases hcases i hi with ⟨i₀, hi₀, hid, _⟩ | rfl | rfl
    · rw [hid]
      exact hp₁.threads i₀ hi₀
    · rw [huser.threadId]
      exact hthread
    · rw [hassistant.threadId]
      exact hthread
  · rw [hrecord.threadId]
    rfl
  · rw [hrecord.historyJson]
    simp only [runCommandRecord]
    rw [hhistory, messagesUpTo, List.filter_filter]
    congr 2
    apply List.filter_congr
    intro i _
    exact Bool.and_comm _ _

end ShejaneRuntime.Store
