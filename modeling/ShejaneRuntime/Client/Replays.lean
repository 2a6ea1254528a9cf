import Mathlib.Data.String.Basic
import ShejaneRuntime.Client.Presentation
import ShejaneRuntime.Lib.Latest

/-!
# Replayed changes of a presentation

Every upsert leaves the items sorted, one for each id. Of an item the
greatest revision stays, so that changes that come again or in another order
lead to the same items.
-/

namespace ShejaneRuntime.Client

open Lib

variable {β : Type}

/-- What the comparison of two texts by the language of the user promises. -/
structure Collates (localeCompare : String → String → ℤ) : Prop where
  total : ∀ a b, localeCompare a b ≤ 0 ∨ localeCompare b a ≤ 0
  trans : ∀ a b c, localeCompare a b ≤ 0 → localeCompare b c ≤ 0 → localeCompare a c ≤ 0

/-- The comparison tells the ids of some items apart. -/
def Separates (localeCompare : String → String → ℤ) (items : List (RunPresentationItem β)) :
    Prop :=
  ∀ x ∈ items, ∀ y ∈ items, localeCompare x.id y.id ≤ 0 → localeCompare y.id x.id ≤ 0 →
    x.id = y.id

/-- The items of a state in the order in which they are shown. -/
def RunPresentationState.items (state : RunPresentationState β) : List (RunPresentationItem β) :=
  state.snapshot.items.getD []

/-- The item of an id: the last one, where several have the id. -/
def RunPresentationState.held (state : RunPresentationState β) (id : String) :
    Option (RunPresentationItem β) :=
  state.items.reverse.find? fun item ↦ item.id = id

section

variable (localeCompare : String → String → ℤ)

/-- One item for each id, in the order of the comparison. -/
def Canonical (items : List (RunPresentationItem β)) : Prop :=
  (items.map RunPresentationItem.id).Nodup ∧
    items.Pairwise fun left right ↦ comparePresentationItems localeCompare left right ≤ 0

def applyRunPresentationChanges (state : RunPresentationState β)
    (changes : List (RunPresentationChange β)) : RunPresentationState β :=
  changes.foldl (applyRunPresentationChange localeCompare) state

end

variable {localeCompare : String → String → ℤ} {state : RunPresentationState β}
  {items l l' : List (RunPresentationItem β)} {item x y : RunPresentationItem β} {id : String}

/-! ## The order of the items -/

theorem comparePresentationItems_le : comparePresentationItems localeCompare x y ≤ 0 ↔
    x.order.eventSeq < y.order.eventSeq ∨ x.order.eventSeq = y.order.eventSeq ∧
      (x.order.slot < y.order.slot ∨ x.order.slot = y.order.slot ∧
        localeCompare x.id y.id ≤ 0) := by
  unfold comparePresentationItems
  split_ifs with hseq hslot
  · omega
  · omega
  · have hseq' : x.order.eventSeq = y.order.eventSeq := by omega
    have hslot' : x.order.slot = y.order.slot := by omega
    simp [hseq', hslot']

theorem comparePresentationItems_total (h : Collates localeCompare)
    (x y : RunPresentationItem β) : comparePresentationItems localeCompare x y ≤ 0 ∨
      comparePresentationItems localeCompare y x ≤ 0 := by
  rw [comparePresentationItems_le, comparePresentationItems_le]
  have htotal := h.total x.id y.id
  omega

theorem comparePresentationItems_trans (h : Collates localeCompare)
    (x y z : RunPresentationItem β) (hxy : comparePresentationItems localeCompare x y ≤ 0)
    (hyz : comparePresentationItems localeCompare y z ≤ 0) :
    comparePresentationItems localeCompare x z ≤ 0 := by
  rw [comparePresentationItems_le] at hxy hyz ⊢
  have htrans := h.trans x.id y.id z.id
  omega

theorem pairwise_sorted (h : Collates localeCompare) (items : List (RunPresentationItem β)) :
    (items.insertionSort fun left right ↦
      comparePresentationItems localeCompare left right ≤ 0).Pairwise fun left right ↦
        comparePresentationItems localeCompare left right ≤ 0 := by
  have : Std.Total fun left right : RunPresentationItem β ↦
      comparePresentationItems localeCompare left right ≤ 0 :=
    ⟨comparePresentationItems_total h⟩
  have : IsTrans (RunPresentationItem β) fun left right ↦
      comparePresentationItems localeCompare left right ≤ 0 :=
    ⟨comparePresentationItems_trans h⟩
  exact List.pairwise_insertionSort _ items

/-- Items that are the same for each id are the same list where the ids are told apart. -/
theorem Canonical.eq_of_held (hl : Canonical localeCompare l) (hl' : Canonical localeCompare l')
    (hseparates : Separates localeCompare l)
    (hsame : ∀ id, OrderedMap.get? RunPresentationItem.id l id =
      OrderedMap.get? RunPresentationItem.id l' id) : l = l' := by
  have hperm := OrderedMap.perm_of_get? hl.1 hl'.1 hsame
  refine List.Perm.eq_of_pairwise ?_ hl.2 hl'.2 hperm
  intro x y hx hy hxy hyx
  have hy := hperm.mem_iff.mpr hy
  rw [comparePresentationItems_le] at hxy hyx
  have hid : x.id = y.id := by
    apply hseparates x hx y hy <;> omega
  exact List.inj_on_of_nodup_map hl.1 hx hy hid

/-! ## One upsert -/

/-- The entries of the map of an upsert before they are sorted. -/
def entriesAfter (state : RunPresentationState β) (item : RunPresentationItem β) :
    List (RunPresentationItem β) :=
  let items := OrderedMap.ofEntries RunPresentationItem.id state.items
  match OrderedMap.get? RunPresentationItem.id items item.id with
  | none => OrderedMap.set RunPresentationItem.id items item
  | some current =>
      if current.revision ≤ item.revision then OrderedMap.set RunPresentationItem.id items item
      else items

theorem items_upsert : (applyRunPresentationChange localeCompare state (.itemUpsert item)).items =
    (entriesAfter state item).insertionSort fun left right ↦
      comparePresentationItems localeCompare left right ≤ 0 := rfl

theorem nodup_entriesAfter : ((entriesAfter state item).map RunPresentationItem.id).Nodup := by
  have hnodup := OrderedMap.nodup_ofEntries RunPresentationItem.id state.items
  unfold entriesAfter
  dsimp only
  split
  · exact OrderedMap.nodup_set hnodup
  · split
    · exact OrderedMap.nodup_set hnodup
    · exact hnodup

theorem canonical_upsert (h : Collates localeCompare) : Canonical localeCompare
    (applyRunPresentationChange localeCompare state (.itemUpsert item)).items := by
  rw [items_upsert]
  refine ⟨?_, pairwise_sorted h _⟩
  have hperm := List.perm_insertionSort (fun left right : RunPresentationItem β ↦
    comparePresentationItems localeCompare left right ≤ 0) (entriesAfter state item)
  exact (hperm.map RunPresentationItem.id).nodup_iff.mpr nodup_entriesAfter

theorem held_eq_get? (state : RunPresentationState β) (id : String) : state.held id =
    OrderedMap.get? RunPresentationItem.id
      (OrderedMap.ofEntries RunPresentationItem.id state.items) id :=
  (OrderedMap.get?_ofEntries state.items id).symm

theorem held_of_nodup (h : (state.items.map RunPresentationItem.id).Nodup) :
    state.held id = OrderedMap.get? RunPresentationItem.id state.items id := by
  rw [held_eq_get?, OrderedMap.ofEntries_of_nodup h]

theorem get?_entriesAfter : OrderedMap.get? RunPresentationItem.id (entriesAfter state item) id =
    if item.id = id then newer RunPresentationItem.revision (state.held id) item
    else state.held id := by
  have hnodup := OrderedMap.nodup_ofEntries RunPresentationItem.id state.items
  rw [held_eq_get?]
  unfold entriesAfter
  dsimp only
  by_cases hid : item.id = id
  · subst hid
    rw [if_pos rfl]
    cases hcurrent : OrderedMap.get? RunPresentationItem.id
        (OrderedMap.ofEntries RunPresentationItem.id state.items) item.id with
    | none =>
        dsimp only
        rw [OrderedMap.get?_set hnodup, if_pos rfl, newer_none]
    | some current =>
        dsimp only
        rw [newer_some]
        split
        · rw [OrderedMap.get?_set hnodup, if_pos rfl]
        · exact hcurrent
  · rw [if_neg hid]
    split
    · rw [OrderedMap.get?_set hnodup, if_neg hid]
    · split
      · rw [OrderedMap.get?_set hnodup, if_neg hid]
      · rfl

/-- An upsert changes the item of its id alone, and only for one that is not older. -/
theorem held_upsert : (applyRunPresentationChange localeCompare state (.itemUpsert item)).held id =
    if item.id = id then newer RunPresentationItem.revision (state.held id) item
    else state.held id := by
  have hperm := List.perm_insertionSort (fun left right : RunPresentationItem β ↦
    comparePresentationItems localeCompare left right ≤ 0) (entriesAfter state item)
  have hsorted := (hperm.map RunPresentationItem.id).nodup_iff.mpr nodup_entriesAfter
  rw [held_of_nodup (by rw [items_upsert]; exact hsorted), items_upsert,
    OrderedMap.get?_perm nodup_entriesAfter hperm.symm, get?_entriesAfter]

/-! ## All changes -/

/-- The items that some changes bring. -/
def upserts (changes : List (RunPresentationChange β)) : List (RunPresentationItem β) :=
  changes.filterMap fun
    | .itemUpsert item => some item
    | .draftDelta _ _ => none
    | .draftClosed _ => none

/-- What has been seen of an id: the item of the state first. -/
def RunPresentationState.seen (state : RunPresentationState β)
    (changes : List (RunPresentationChange β)) (id : String) : List (RunPresentationItem β) :=
  (state.held id).toList ++ (upserts changes).filter fun item ↦ item.id = id

variable {state' : RunPresentationState β} {change : RunPresentationChange β}
  {changes changes' : List (RunPresentationChange β)}

theorem upserts_append : upserts (changes ++ changes') = upserts changes ++ upserts changes' :=
  List.filterMap_append

/-- The snapshot after some changes is that after their upserts. -/
theorem snapshot_changes (h : state.snapshot = state'.snapshot) :
    (applyRunPresentationChanges localeCompare state changes).snapshot =
      ((upserts changes).foldl
        (fun s x ↦ applyRunPresentationChange localeCompare s (.itemUpsert x)) state').snapshot := by
  induction changes generalizing state state' with
  | nil => exact h
  | cons change changes ih =>
      cases change with
      | itemUpsert item =>
          apply ih
          simp only [applyRunPresentationChange, h]
      | draftDelta roundId content => exact ih h
      | draftClosed roundId => exact ih h

theorem held_changes : (applyRunPresentationChanges localeCompare state changes).held id =
    ((upserts changes).filter fun item ↦ item.id = id).foldl
      (newer RunPresentationItem.revision) (state.held id) := by
  induction changes generalizing state with
  | nil => rfl
  | cons change changes ih =>
      change (applyRunPresentationChanges localeCompare
        (applyRunPresentationChange localeCompare state change) changes).held id = _
      rw [ih]
      cases change with
      | itemUpsert item =>
          rw [held_upsert]
          change _ = ((item :: upserts changes).filter fun item ↦ item.id = id).foldl _ _
          by_cases hid : item.id = id
          · rw [if_pos hid, List.filter_cons_of_pos (by simpa using hid)]
            rfl
          · rw [if_neg hid, List.filter_cons_of_neg (by simpa using hid)]
      | draftDelta roundId content => rfl
      | draftClosed roundId => rfl

theorem held_changes_eq_latest (localeCompare : String → String → ℤ) :
    (applyRunPresentationChanges localeCompare state changes).held id =
      latest RunPresentationItem.revision (state.seen changes id) := by
  rw [held_changes]
  unfold RunPresentationState.seen
  cases state.held id with
  | none => rfl
  | some current => rfl

theorem canonical_changes (h : Collates localeCompare)
    (hstart : upserts changes ≠ [] ∨ Canonical localeCompare state.items) :
    Canonical localeCompare (applyRunPresentationChanges localeCompare state changes).items := by
  induction changes generalizing state with
  | nil => exact hstart.resolve_left (by simp [upserts])
  | cons change changes ih =>
      apply ih
      cases change with
      | itemUpsert item => exact .inr (canonical_upsert h)
      | draftDelta roundId content => exact hstart
      | draftClosed roundId => exact hstart

theorem mem_items_iff (h : (state.items.map RunPresentationItem.id).Nodup) :
    x ∈ state.items ↔ state.held x.id = some x := by
  rw [held_of_nodup h, OrderedMap.get?_eq_some_iff h]
  simp

/-- The items shown are those that count among all seen. -/
theorem mem_items_changes (h : Collates localeCompare)
    (hstart : upserts changes ≠ [] ∨ Canonical localeCompare state.items) :
    x ∈ (applyRunPresentationChanges localeCompare state changes).items ↔
      latest RunPresentationItem.revision (state.seen changes x.id) = some x := by
  rw [mem_items_iff (canonical_changes h hstart).1, held_changes_eq_latest]

theorem watermark_changes :
    (applyRunPresentationChanges localeCompare state changes).snapshot.eventHighWatermark =
      (upserts changes).foldl (fun n item ↦ max n item.revision)
        state.snapshot.eventHighWatermark := by
  induction changes generalizing state with
  | nil => rfl
  | cons change changes ih =>
      cases change with
      | itemUpsert item => exact ih
      | draftDelta roundId content => exact ih
      | draftClosed roundId => exact ih

theorem le_foldl_max {n m : ℕ} : items.foldl (fun n item ↦ max n item.revision) n ≤ m ↔
    n ≤ m ∧ ∀ item ∈ items, item.revision ≤ m := by
  induction items generalizing n with
  | nil => simp
  | cons item items ih =>
      rw [List.foldl_cons, ih, Nat.max_le]
      simp [and_assoc]

theorem drafts_changes (h : state.drafts = state'.drafts) :
    (applyRunPresentationChanges localeCompare state changes).drafts =
      (applyRunPresentationChanges localeCompare state' changes).drafts := by
  induction changes generalizing state state' with
  | nil => exact h
  | cons change changes ih =>
      apply ih
      cases change with
      | itemUpsert item => simp only [applyRunPresentationChange, h]
      | draftDelta roundId content => simp only [applyRunPresentationChange, h]
      | draftClosed roundId => simp only [applyRunPresentationChange, h]

theorem applyRunPresentationChanges_append :
    applyRunPresentationChanges localeCompare state (changes ++ changes') =
      applyRunPresentationChanges localeCompare
        (applyRunPresentationChanges localeCompare state changes) changes' :=
  List.foldl_append

/-- A final answer leaves only the drafts that come after it. -/
theorem drafts_finalAnswer {content : String} (hfinal : item.body = .finalAnswer content) :
    (applyRunPresentationChanges localeCompare state
      (changes ++ .itemUpsert item :: changes')).drafts =
      (applyRunPresentationChanges localeCompare { state with drafts := [] } changes').drafts := by
  rw [applyRunPresentationChanges_append]
  change (applyRunPresentationChanges localeCompare
    (applyRunPresentationChange localeCompare _ (.itemUpsert item)) changes').drafts = _
  apply drafts_changes
  simp only [applyRunPresentationChange, hfinal]

/-! ## Other orders and repetitions -/

/-- Upserts of an item in one revision are the same upsert. -/
def Consistent (items : List (RunPresentationItem β)) : Prop :=
  ∀ x ∈ items, ∀ y ∈ items, x.id = y.id → x.revision = y.revision → x = y

theorem held_congr (localeCompare : String → String → ℤ) (state : RunPresentationState β)
    (hconsistent : Consistent (upserts changes))
    (hsame : ∀ x, x ∈ upserts changes ↔ x ∈ upserts changes') (id : String) :
    (applyRunPresentationChanges localeCompare state changes).held id =
      (applyRunPresentationChanges localeCompare state changes').held id := by
  rw [held_changes, held_changes, foldl_newer, foldl_newer]
  have hlatest : latest RunPresentationItem.revision
      ((upserts changes).filter fun item ↦ item.id = id) = latest RunPresentationItem.revision
      ((upserts changes').filter fun item ↦ item.id = id) := by
    apply latest_congr
    · intro x hx y hy hrevision
      obtain ⟨hx, hxid⟩ := List.mem_filter.mp hx
      obtain ⟨hy, hyid⟩ := List.mem_filter.mp hy
      have hid : x.id = y.id := by
        rw [of_decide_eq_true hxid, of_decide_eq_true hyid]
      exact hconsistent x hx y hy hid hrevision
    · intro x
      rw [List.mem_filter, List.mem_filter, hsame]
  rw [hlatest]

theorem held_again (id : String) :
    (applyRunPresentationChanges localeCompare state (changes ++ changes)).held id =
      (applyRunPresentationChanges localeCompare state changes).held id := by
  rw [held_changes, held_changes, upserts_append, List.filter_append, List.foldl_append]
  exact foldl_newer_again _ _

theorem watermark_congr (localeCompare : String → String → ℤ) (state : RunPresentationState β)
    (hsame : ∀ x, x ∈ upserts changes ↔ x ∈ upserts changes') :
    (applyRunPresentationChanges localeCompare state changes).snapshot.eventHighWatermark =
      (applyRunPresentationChanges localeCompare state
        changes').snapshot.eventHighWatermark := by
  rw [watermark_changes, watermark_changes]
  apply Nat.le_antisymm
  · rw [le_foldl_max]
    obtain ⟨hstart, hall⟩ := le_foldl_max.mp (Nat.le_refl ((upserts changes').foldl
      (fun n item ↦ max n item.revision) state.snapshot.eventHighWatermark))
    exact ⟨hstart, fun x hx ↦ hall x ((hsame x).mp hx)⟩
  · rw [le_foldl_max]
    obtain ⟨hstart, hall⟩ := le_foldl_max.mp (Nat.le_refl ((upserts changes).foldl
      (fun n item ↦ max n item.revision) state.snapshot.eventHighWatermark))
    exact ⟨hstart, fun x hx ↦ hall x ((hsame x).mpr hx)⟩

theorem runId_changes : (applyRunPresentationChanges localeCompare state changes).snapshot.runId =
    state.snapshot.runId := by
  induction changes generalizing state with
  | nil => rfl
  | cons change changes ih => cases change <;> exact ih

theorem snapshot_items (localeCompare : String → String → ℤ) (state : RunPresentationState β)
    (hstart : upserts changes ≠ [] ∨ state.snapshot.items.isSome) :
    (applyRunPresentationChanges localeCompare state changes).snapshot.items =
      some (applyRunPresentationChanges localeCompare state changes).items := by
  induction changes generalizing state with
  | nil =>
      obtain ⟨items, hitems⟩ := Option.isSome_iff_exists.mp
        (hstart.resolve_left (by simp [upserts]))
      change state.snapshot.items = some (state.snapshot.items.getD [])
      rw [hitems]
      rfl
  | cons change changes ih =>
      apply ih
      cases change with
      | itemUpsert item => exact .inr rfl
      | draftDelta roundId content => exact hstart
      | draftClosed roundId => exact hstart

theorem separates_changes (h : Collates localeCompare) (hupserts : upserts changes ≠ [])
    (hseparates : Separates localeCompare (state.items ++ upserts changes)) :
    Separates localeCompare (applyRunPresentationChanges localeCompare state changes).items := by
  have hmem : ∀ x ∈ (applyRunPresentationChanges localeCompare state changes).items,
      x ∈ state.items ++ upserts changes := by
    intro x hx
    rw [mem_items_changes h (.inl hupserts)] at hx
    rcases List.mem_append.mp (isLatest_of_latest hx).mem with hheld | hnew
    · rw [Option.mem_toList] at hheld
      exact List.mem_append_left _ (List.mem_reverse.mp (List.mem_of_find?_eq_some hheld))
    · exact List.mem_append_right _ (List.mem_of_mem_filter hnew)
  intro x hx y hy
  exact hseparates x (hmem x hx) y (hmem y hy)

/-- Changes that bring the same upserts and lead to the same items lead to the same list. -/
theorem snapshot_congr (h : Collates localeCompare)
    (hseparates : Separates localeCompare (state.items ++ upserts changes))
    (hsame : ∀ x, x ∈ upserts changes ↔ x ∈ upserts changes')
    (hheld : ∀ id, (applyRunPresentationChanges localeCompare state changes).held id =
      (applyRunPresentationChanges localeCompare state changes').held id) :
    (applyRunPresentationChanges localeCompare state changes).snapshot =
      (applyRunPresentationChanges localeCompare state changes').snapshot := by
  by_cases hnil : upserts changes = []
  · have hnil' : upserts changes' = [] := by
      rw [List.eq_nil_iff_forall_not_mem]
      intro x hx
      rw [← hsame, hnil] at hx
      cases hx
    rw [snapshot_changes rfl, snapshot_changes rfl, hnil, hnil']
  · have hnil' : upserts changes' ≠ [] := by
      obtain ⟨x, hx⟩ := List.exists_mem_of_ne_nil _ hnil
      exact List.ne_nil_of_mem ((hsame x).mp hx)
    have hcanonical : Canonical localeCompare
        (applyRunPresentationChanges localeCompare state changes).items :=
      canonical_changes h (.inl hnil)
    have hcanonical' : Canonical localeCompare
        (applyRunPresentationChanges localeCompare state changes').items :=
      canonical_changes h (.inl hnil')
    have hitems : (applyRunPresentationChanges localeCompare state changes).items =
        (applyRunPresentationChanges localeCompare state changes').items := by
      refine Canonical.eq_of_held hcanonical hcanonical'
        (separates_changes h hnil hseparates) ?_
      intro id
      rw [← held_of_nodup hcanonical.1, ← held_of_nodup hcanonical'.1, hheld]
    have hsome := snapshot_items localeCompare state (.inl hnil)
    have hsome' := snapshot_items localeCompare state (.inl hnil')
    rw [← hitems, ← hsome] at hsome'
    have hwatermark := watermark_congr localeCompare state hsame
    have hrun : (applyRunPresentationChanges localeCompare state changes).snapshot.runId =
        (applyRunPresentationChanges localeCompare state changes').snapshot.runId := by
      rw [runId_changes, runId_changes]
    generalize (applyRunPresentationChanges localeCompare state changes).snapshot = s at *
    generalize (applyRunPresentationChanges localeCompare state changes').snapshot = s' at *
    cases s
    cases s'
    simp_all

/-! ## Streams -/

/-- What a message shows of its run. -/
def ChatMessage.shown (message : ChatMessage β) : RunPresentationState β :=
  message.presentation.getD (emptyPresentation (message.runId.getD ""))

/-- Deltas bring drafts alone. -/
def DeltasDraft (events : List (AgentRunEvent β)) : Prop :=
  ∀ event ∈ events, event.eventType = "llm.delta" → upserts event.changes = []

def processStreamEvents (localeCompare : String → String → ℤ)
    (message : ChatMessage β × List String) (events : List (AgentRunEvent β)) :
    ChatMessage β × List String :=
  events.foldl (processStreamEvent localeCompare) message

variable {message : ChatMessage β} {event : AgentRunEvent β} {seen : List String}
  {events : List (AgentRunEvent β)}

theorem foldl_applyChange (localeCompare : String → String → ℤ)
    (changes : List (RunPresentationChange β)) (m : ChatMessage β × RunPresentationState β) :
    (changes.foldl (applyChange localeCompare) m).2 =
        applyRunPresentationChanges localeCompare m.2 changes ∧
      (changes.foldl (applyChange localeCompare) m).1.runId = m.1.runId := by
  induction changes generalizing m with
  | nil => exact ⟨rfl, rfl⟩
  | cons change changes ih =>
      obtain ⟨hstate, hrun⟩ := ih (applyChange localeCompare m change)
      refine ⟨hstate, hrun.trans ?_⟩
      unfold applyChange
      split <;> rfl

theorem shown_applyRunPresentationEvent (localeCompare : String → String → ℤ)
    (event : AgentRunEvent β) (hrun : (given message.runId).isSome) :
    (applyRunPresentationEvent localeCompare message event).shown =
        applyRunPresentationChanges localeCompare message.shown event.changes ∧
      (applyRunPresentationEvent localeCompare message event).runId = message.runId := by
  obtain ⟨runId, hgiven⟩ := Option.isSome_iff_exists.mp hrun
  have hid : message.runId = some runId := (Option.filter_eq_some_iff.mp hgiven).1
  unfold applyRunPresentationEvent
  rw [hgiven]
  dsimp only
  by_cases hnil : event.changes = []
  · rw [if_pos hnil, hnil]
    exact ⟨rfl, rfl⟩
  · rw [if_neg hnil]
    obtain ⟨hstate, hkept⟩ := foldl_applyChange localeCompare event.changes
      (message, message.presentation.getD (emptyPresentation runId))
    refine ⟨?_, hkept⟩
    unfold ChatMessage.shown
    rw [hid]
    exact hstate

theorem processStreamEvent_snapshot (localeCompare : String → String → ℤ) (seen : List String)
    (hrun : (given message.runId).isSome)
    (hdraft : event.eventType = "llm.delta" → upserts event.changes = []) :
    (processStreamEvent localeCompare (message, seen) event).1.shown.snapshot =
        (applyRunPresentationChanges localeCompare message.shown event.changes).snapshot ∧
      (processStreamEvent localeCompare (message, seen) event).1.runId = message.runId := by
  obtain ⟨hshown, hid⟩ := shown_applyRunPresentationEvent localeCompare event hrun
  unfold processStreamEvent
  dsimp only
  by_cases hdelta : event.eventType = "llm.delta"
  · have hsame : message.shown.snapshot =
        (applyRunPresentationChanges localeCompare message.shown event.changes).snapshot := by
      rw [snapshot_changes rfl, hdraft hdelta]
      rfl
    rw [if_pos hdelta]
    split
    · split
      · exact ⟨hsame, rfl⟩
      · exact ⟨congrArg _ hshown, hid⟩
    · exact ⟨hsame, rfl⟩
  · rw [if_neg hdelta]
    refine ⟨?_, hid⟩
    rw [← hshown]
    rfl

/-- A stream leads to the snapshot of all its changes. -/
theorem processStreamEvents_snapshot (localeCompare : String → String → ℤ) (seen : List String)
    (hrun : (given message.runId).isSome)
    (hdraft : DeltasDraft events) :
    (processStreamEvents localeCompare (message, seen) events).1.shown.snapshot =
      (applyRunPresentationChanges localeCompare message.shown
        (events.flatMap AgentRunEvent.changes)).snapshot := by
  induction events generalizing message seen with
  | nil => rfl
  | cons event events ih =>
      obtain ⟨hhead, hid⟩ := processStreamEvent_snapshot localeCompare seen hrun
        (hdraft event List.mem_cons_self)
      change (processStreamEvents localeCompare
        (processStreamEvent localeCompare (message, seen) event) events).1.shown.snapshot = _
      rw [ih _ (by rw [hid]; exact hrun) fun e he ↦ hdraft e (List.mem_cons_of_mem _ he),
        List.flatMap_cons, applyRunPresentationChanges_append, snapshot_changes hhead,
        ← snapshot_changes rfl]

/-- Where upserts come in, or the state has one item for each id in order: one item for
each id in order, each the latest one seen. Twice is once, and neither order nor repetition
of consistent upserts matters, to the item of each id and, where the ids are told apart, to
the whole snapshot; so too for two streams. The watermark does not fall, and after a final
answer there are only the drafts that follow it. -/
theorem presentation_converges (h : Collates localeCompare) (state : RunPresentationState β)
    (changes : List (RunPresentationChange β)) :
    let result := applyRunPresentationChanges localeCompare state
    (upserts changes ≠ [] ∨ Canonical localeCompare state.items →
      Canonical localeCompare (result changes).items ∧
      (∀ x ∈ (result changes).items,
        IsLatest RunPresentationItem.revision (state.seen changes x.id) x) ∧
      ∀ id, state.seen changes id ≠ [] → ∃ x ∈ (result changes).items, x.id = id) ∧
    (∀ id, (result (changes ++ changes)).held id = (result changes).held id) ∧
    (∀ changes', Consistent (upserts changes) →
      (∀ x, x ∈ upserts changes ↔ x ∈ upserts changes') →
      ∀ id, (result changes).held id = (result changes').held id) ∧
    (Separates localeCompare (state.items ++ upserts changes) →
      (result (changes ++ changes)).snapshot = (result changes).snapshot ∧
      ∀ changes', Consistent (upserts changes) →
        (∀ x, x ∈ upserts changes ↔ x ∈ upserts changes') →
        (result changes).snapshot = (result changes').snapshot) ∧
    (∀ (message : ChatMessage β) (seen seen' : List String)
        (events events' : List (AgentRunEvent β)),
      (given message.runId).isSome → DeltasDraft events → DeltasDraft events' →
      Consistent (upserts (events.flatMap AgentRunEvent.changes)) →
      (∀ x, x ∈ upserts (events.flatMap AgentRunEvent.changes) ↔
        x ∈ upserts (events'.flatMap AgentRunEvent.changes)) →
      let after := (processStreamEvents localeCompare (message, seen) events).1.shown
      let after' := (processStreamEvents localeCompare (message, seen') events').1.shown
      (∀ id, after.held id = after'.held id) ∧
      (Separates localeCompare
        (message.shown.items ++ upserts (events.flatMap AgentRunEvent.changes)) →
        after.snapshot = after'.snapshot)) ∧
    state.snapshot.eventHighWatermark ≤ (result changes).snapshot.eventHighWatermark ∧
    ∀ item content after, item.body = .finalAnswer content →
      (result (changes ++ .itemUpsert item :: after)).drafts =
        (applyRunPresentationChanges localeCompare { state with drafts := [] } after).drafts := by
  intro result
  refine ⟨?_, held_again, fun changes' hc hsame ↦ held_congr _ _ hc hsame, ?_, ?_, ?_, ?_⟩
  · intro hstart
    refine ⟨canonical_changes h hstart, ?_, ?_⟩
    · intro x hx
      exact isLatest_of_latest ((mem_items_changes h hstart).mp hx)
    · intro id hseen
      cases hlatest : latest RunPresentationItem.revision (state.seen changes id) with
      | none => exact absurd (latest_eq_none_iff.mp hlatest) hseen
      | some x =>
          have hid : x.id = id := by
            rw [← held_changes_eq_latest localeCompare] at hlatest
            simpa using List.find?_some hlatest
          subst hid
          exact ⟨x, (mem_items_changes h hstart).mpr hlatest, rfl⟩
  · intro hseparates
    constructor
    · symm
      apply snapshot_congr h hseparates
      · intro x
        rw [upserts_append, List.mem_append, or_self]
      · exact fun id ↦ (held_again id).symm
    · intro changes' hconsistent hsame
      exact snapshot_congr h hseparates hsame (held_congr _ _ hconsistent hsame)
  · intro message seen seen' events events' hrun hdraft hdraft' hconsistent hsame after after'
    have hafter := processStreamEvents_snapshot localeCompare seen hrun hdraft
    have hafter' := processStreamEvents_snapshot localeCompare seen' hrun hdraft'
    constructor
    · intro id
      have hheld := held_congr localeCompare message.shown hconsistent hsame id
      unfold RunPresentationState.held RunPresentationState.items at hheld ⊢
      rw [hafter, hafter', hheld]
    · intro hseparates
      rw [hafter, hafter']
      exact snapshot_congr h hseparates hsame (held_congr _ _ hconsistent hsame)
  · rw [watermark_changes]
    exact (le_foldl_max.mp (Nat.le_refl _)).1
  · intro item content after hfinal
    exact drafts_finalAnswer hfinal

namespace Ties

/-- A composed letter and its letter with an accent are one to the comparison. -/
def composed (text : String) : String := if text = "e\u0301" then "é" else text

def collate (a b : String) : ℤ :=
  if composed a = composed b then 0 else if composed a < composed b then -1 else 1

theorem collate_le {a b : String} : collate a b ≤ 0 ↔ composed a ≤ composed b := by
  unfold collate
  split_ifs with heq hlt
  · simp [heq]
  · simpa using hlt.le
  · have hne : ¬composed a ≤ composed b := fun hle ↦ hlt (lt_of_le_of_ne hle heq)
    simp [hne]

theorem collates : Collates collate where
  total a b := by
    rw [collate_le, collate_le]
    exact le_total _ _
  trans a b c := by
    rw [collate_le, collate_le, collate_le]
    exact le_trans

def plain (id : String) (revision : ℕ) (eventSeq : ℤ) : RunPresentationItem Unit where
  id := id
  revision := revision
  order := { eventSeq, slot := 0 }
  body := .other ()

def stateOf (items : List (RunPresentationItem Unit)) : RunPresentationState Unit where
  snapshot := { runId := "run_1", items := some items, eventHighWatermark := 0 }
  drafts := []

def itemsAfter (start l : List (RunPresentationItem Unit)) : List (RunPresentationItem Unit) :=
  (applyRunPresentationChanges collate (stateOf start) (l.map .itemUpsert)).items

theorem presentation_converges_twice :
    itemsAfter [] ([plain "a" 1 7, plain "b" 3 2, plain "a" 4 7] ++
        [plain "a" 1 7, plain "b" 3 2, plain "a" 4 7]) =
      itemsAfter [] [plain "a" 1 7, plain "b" 3 2, plain "a" 4 7] := by
  have hseparates : Separates collate ((stateOf []).items ++ upserts
      ([plain "a" 1 7, plain "b" 3 2, plain "a" 4 7].map .itemUpsert)) := by
    unfold Separates
    decide +kernel
  have htwice := (presentation_converges collates (stateOf [])
    ([plain "a" 1 7, plain "b" 3 2, plain "a" 4 7].map .itemUpsert)).2.2.2.1 hseparates
  unfold itemsAfter RunPresentationState.items
  rw [List.map_append, htwice.1]

/-- No upsert leaves items unsorted; of two items with one id the first is lost even if it
is the newer one; and ids that the comparison does not tell apart stand in the order of
their coming, on the second time in another one. -/
theorem not_converges :
    ¬Canonical collate (itemsAfter [plain "b" 1 2, plain "a" 1 1] []) ∧
    itemsAfter [plain "a" 5 1, plain "a" 1 1] [plain "a" 2 1] = [plain "a" 2 1] ∧
    itemsAfter [] [plain "é" 1 1, plain "e\u0301" 1 1] ≠
      itemsAfter [] [plain "e\u0301" 1 1, plain "é" 1 1] ∧
    (let l := [plain "e\u0301" 1 20, plain "é" 1 9, plain "é" 1 1, plain "e\u0301" 2 1]
     itemsAfter [] (l ++ l) ≠ itemsAfter [] l) := by
  unfold Canonical
  decide +kernel

end Ties

end ShejaneRuntime.Client
