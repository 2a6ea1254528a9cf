import ShejaneRuntime.Collaboration.Summary
import ShejaneRuntime.Lib.Futures

/-!
# What the summary says of the futures

A summary is exact: a group is satisfied when enough of its members have
completed and impossible when they cannot in any future. As long as it
reports neither an end nor a violation there is a child to wait for, so a
parent is never settled for want of a continuation.
-/

namespace ShejaneRuntime.Collaboration

open Lib Store

variable {children children' : List Child} {group : String} {ms : List Child}

/-! ## Futures -/

/-- What may become of a child: an active one ends somehow, any other stays. -/
def Child.Becomes (c c' : Child) : Prop :=
  c' = { c with status := c'.status } ∧
    if c.active then c'.active = false else c'.status = c.status

/-- An assignment of outcomes to the active children. -/
def Future (children children' : List Child) : Prop := List.Forall₂ Child.Becomes children children'

/-- The child after the best it can do. -/
def Child.best (c : Child) : Child := if c.active then { c with status := .completed } else c

def Child.mayComplete (c : Child) : Bool := c.completed || c.active

theorem Child.becomes_best (c : Child) : c.Becomes c.best := by
  unfold Child.Becomes Child.best
  by_cases hactive : c.active = true
  · rw [if_pos hactive, if_pos hactive]
    exact ⟨rfl, rfl⟩
  · rw [if_neg hactive, if_neg hactive]
    exact ⟨rfl, rfl⟩

theorem Child.mayComplete_of_becomes {c c' : Child} (h : c.Becomes c')
    (hcompleted : c'.completed = true) : c.mayComplete = true := by
  unfold Child.mayComplete
  by_cases hactive : c.active = true
  · rw [hactive, Bool.or_true]
  · have hstatus : c'.status = c.status := by simpa [hactive] using h.2
    have hsame : c.completed = c'.completed := by
      unfold Child.completed
      rw [hstatus]
    rw [hsame, hcompleted, Bool.true_or]

theorem Child.completed_best {c : Child} (h : c.mayComplete = true) : c.best.completed = true := by
  unfold Child.mayComplete at h
  unfold Child.best
  by_cases hactive : c.active = true
  · rw [if_pos hactive]
    rfl
  · rw [if_neg hactive]
    simpa [hactive] using h

theorem Child.completionMode_of_becomes {c c' : Child} (h : c.Becomes c') :
    c'.completionMode = c.completionMode := by
  rw [h.1]

theorem Child.quorumRequired_of_becomes {c c' : Child} (h : c.Becomes c') :
    c'.quorumRequired = c.quorumRequired := by
  rw [h.1]

theorem Child.group_of_becomes {c c' : Child} (h : c.Becomes c') : c'.group = c.group := by
  rw [h.1]
  rfl

theorem Future.best (children : List Child) : Future children (children.map Child.best) :=
  forall₂_map_self Child.becomes_best children

theorem Future.members (h : Future children children') (group : String) :
    Future (members children group) (members children' group) := by
  apply forall₂_filter ?_ h
  intro c c' hc
  unfold Child.inGroup
  rw [Child.completionMode_of_becomes hc, Child.group_of_becomes hc]

theorem Future.groupNames (h : Future children children') :
    groupNames children' = groupNames children := by
  have hquorum : List.Forall₂ Child.Becomes
      (children.filter fun c ↦ c.completionMode = .quorum)
      (children'.filter fun c ↦ c.completionMode = .quorum) := by
    apply forall₂_filter ?_ h
    intro c c' hc
    rw [Child.completionMode_of_becomes hc]
  unfold Collaboration.groupNames
  rw [map_eq_of_forall₂ (fun _ _ hc ↦ Child.group_of_becomes hc) hquorum]

theorem length_eq_countP (ms : List Child) :
    ms.length = ms.countP Child.mayComplete + ms.countP Child.failed := by
  rw [List.length_eq_countP_add_countP Child.mayComplete]
  congr 1
  apply List.countP_congr
  intro c _
  unfold Child.mayComplete Child.failed Child.active Child.completed
  cases c.status <;> decide

theorem countP_mayComplete (ms : List Child) :
    ms.countP Child.mayComplete = ms.countP Child.completed + ms.countP Child.active := by
  induction ms with
  | nil => rfl
  | cons c ms ih =>
      simp only [List.countP_cons, ih]
      unfold Child.mayComplete Child.active Child.completed
      cases c.status <;> simp [childTerminal] <;> omega

/-! ## One group -/

/-- The members agree on a quorum, and so many of them have completed. -/
def EnoughCompleted (ms : List Child) : Prop :=
  ∃ k : ℤ, 0 < k ∧ (∀ c ∈ ms, c.quorumRequired = some k) ∧ k ≤ ms.countP Child.completed

theorem dedup_eq_singleton {α : Type} [DecidableEq α] {l : List α} {a : α} (hl : l ≠ []) :
    l.dedup = [a] ↔ ∀ b ∈ l, b = a := by
  constructor
  · intro h b hb
    have hmem : b ∈ l.dedup := List.mem_dedup.mpr hb
    rw [h] at hmem
    exact List.mem_singleton.mp hmem
  · intro h
    rw [List.eq_replicate_iff.mpr ⟨rfl, h⟩]
    exact List.replicate_dedup (by simpa using hl)

theorem agreedRequirement_eq {k : ℤ} (hk : 0 < k) (hms : ms ≠ []) :
    agreedRequirement ms = k ↔ ∀ c ∈ ms, c.quorumRequired = some k := by
  have hrequirement : ∀ c : Child, c.requirement = k ↔ c.quorumRequired = some k := by
    intro c
    unfold Child.requirement
    cases c.quorumRequired with
    | none => simpa using hk.ne
    | some n => simp
  have hall : (ms.map Child.requirement).dedup = [k] ↔ ∀ c ∈ ms, c.quorumRequired = some k := by
    rw [dedup_eq_singleton (by simpa using hms)]
    simp only [List.forall_mem_map, hrequirement]
  rw [← hall]
  unfold agreedRequirement
  split
  · rename_i required hrequired
    rw [hrequired]
    simp
  · rename_i hno
    constructor
    · intro hzero
      exact absurd hzero.symm hk.ne'
    · intro heq
      exact absurd heq (hno k)

theorem summarizeGroup_satisfied (group : String) (hms : ms ≠ []) :
    (summarizeGroup group ms).satisfied = true ↔ EnoughCompleted ms := by
  have hsatisfied : (summarizeGroup group ms).satisfied = true ↔
      0 < agreedRequirement ms ∧ agreedRequirement ms ≤ ms.countP Child.completed := by
    unfold summarizeGroup
    simp
  rw [hsatisfied]
  constructor
  · rintro ⟨hpos, hle⟩
    exact ⟨agreedRequirement ms, hpos, (agreedRequirement_eq hpos hms).mp rfl, hle⟩
  · rintro ⟨k, hpos, hagree, hle⟩
    rw [(agreedRequirement_eq hpos hms).mpr hagree]
    exact ⟨hpos, hle⟩

theorem summarizeGroup_impossible (group : String) (ms : List Child) :
    (summarizeGroup group ms).impossible = true ↔
      ¬(0 < agreedRequirement ms ∧ agreedRequirement ms ≤ ms.countP Child.mayComplete) := by
  have hlength := length_eq_countP ms
  have hcount := countP_mayComplete ms
  unfold summarizeGroup
  simp only [Bool.or_eq_true, decide_eq_true_eq]
  omega

theorem within_reach_of_future {ms' : List Child} (hms : ms ≠ []) (hfuture : Future ms ms')
    (h : EnoughCompleted ms') :
    0 < agreedRequirement ms ∧ agreedRequirement ms ≤ ms.countP Child.mayComplete := by
  obtain ⟨k, hpos, hagree, hle⟩ := h
  have hcount : ms'.countP Child.completed ≤ ms.countP Child.mayComplete :=
    countP_le_of_forall₂ (fun _ _ hc ↦ Child.mayComplete_of_becomes hc) hfuture
  have hsame : ms'.map Child.quorumRequired = ms.map Child.quorumRequired :=
    map_eq_of_forall₂ (fun _ _ hc ↦ Child.quorumRequired_of_becomes hc) hfuture
  have hagree' : ∀ c ∈ ms, c.quorumRequired = some k := by
    rw [← List.forall_mem_map (P := fun n ↦ n = some k), ← hsame, List.forall_mem_map]
    exact hagree
  rw [(agreedRequirement_eq hpos hms).mpr hagree']
  exact ⟨hpos, by omega⟩

theorem enoughCompleted_best (hms : ms ≠ []) (hpos : 0 < agreedRequirement ms)
    (hle : agreedRequirement ms ≤ ms.countP Child.mayComplete) :
    EnoughCompleted (ms.map Child.best) := by
  have hagree := (agreedRequirement_eq hpos hms).mp rfl
  refine ⟨agreedRequirement ms, hpos, ?_, ?_⟩
  · rw [List.forall_mem_map]
    intro c hc
    rw [Child.quorumRequired_of_becomes c.becomes_best]
    exact hagree c hc
  · have hcount : ms.countP Child.mayComplete ≤ (ms.map Child.best).countP Child.completed := by
      rw [List.countP_map]
      exact List.countP_mono_left fun c _ hc ↦ Child.completed_best hc
    omega

/-! ## The groups of a summary -/

theorem mem_groupNames : group ∈ groupNames children ↔ members children group ≠ [] := by
  unfold groupNames members Child.inGroup
  rw [List.mem_insertionSort, List.mem_dedup, List.mem_map]
  constructor
  · rintro ⟨c, hc, rfl⟩
    rw [List.mem_filter] at hc
    exact List.ne_nil_of_mem (List.mem_filter.mpr ⟨hc.1, by simpa using hc.2⟩)
  · intro hne
    obtain ⟨c, hc⟩ := List.exists_mem_of_ne_nil _ hne
    rw [List.mem_filter, Bool.and_eq_true] at hc
    exact ⟨c, List.mem_filter.mpr ⟨hc.1, hc.2.1⟩, by simpa using hc.2.2⟩

theorem members_best (children : List Child) (group : String) :
    members (children.map Child.best) group = (members children group).map Child.best := by
  unfold members
  rw [List.filter_map]
  congr 1
  apply List.filter_congr
  intro c _
  have hc := c.becomes_best
  unfold Child.inGroup
  rw [Function.comp_apply, Child.completionMode_of_becomes hc, Child.group_of_becomes hc]

/-- What a reported group says of the members it has. -/
structure GroupExact (children : List Child) (g : QuorumGroup) : Prop where
  satisfied : g.satisfied = true ↔ EnoughCompleted (members children g.group)
  impossible : g.impossible = true ↔
    ∀ children', Future children children' → ¬EnoughCompleted (members children' g.group)
  apart : ¬(g.satisfied = true ∧ g.impossible = true)

theorem groupExact (hgroup : group ∈ groupNames children) :
    GroupExact children (summarizeGroup group (members children group)) := by
  have hms := mem_groupNames.mp hgroup
  have himpossible := summarizeGroup_impossible group (members children group)
  have hsatisfied := summarizeGroup_satisfied group hms
  refine ⟨hsatisfied, ?_, ?_⟩
  · rw [himpossible]
    constructor
    · intro hout children' hfuture henough
      exact hout (within_reach_of_future hms (hfuture.members group) henough)
    · rintro hnever ⟨hpos, hle⟩
      apply hnever _ (Future.best children)
      have hbest := enoughCompleted_best hms hpos hle
      rw [← members_best] at hbest
      exact hbest
  · rintro ⟨hdone, hout⟩
    obtain ⟨k, hpos, hagree, hle⟩ := hsatisfied.mp hdone
    apply himpossible.mp hout
    have hcount := countP_mayComplete (members children group)
    rw [(agreedRequirement_eq hpos hms).mpr hagree]
    exact ⟨hpos, by omega⟩

/-! ## The whole summary -/

/-- All required children and enough members of every group have completed. -/
structure AllSatisfied (children : List Child) : Prop where
  required : ∀ c ∈ children, c.completionMode = .required → c.completed = true
  quorum : ∀ group ∈ groupNames children, EnoughCompleted (members children group)

theorem Child.failed_eq_not_mayComplete (c : Child) : c.failed = !c.mayComplete := by
  unfold Child.failed Child.mayComplete Child.active Child.completed
  cases c.status <;> decide

theorem isEmpty_map_filter {p q : Child → Bool} :
    (((children.filter p).filter q).map Child.id).isEmpty = true ↔
      ∀ c ∈ children, p c = true → q c = false := by
  rw [List.isEmpty_iff, List.map_eq_nil_iff, List.filter_filter, List.filter_eq_nil_iff]
  constructor
  · intro h c hc hp
    simpa [hp] using h c hc
  · intro h c hc
    by_cases hp : p c = true
    · simp [h c hc hp]
    · simp [hp]

theorem impossible_eq_false : (completionSummary children).impossible = false ↔
    (∀ c ∈ children, c.completionMode = .required → c.mayComplete = true) ∧
      ∀ group ∈ groupNames children,
        (summarizeGroup group (members children group)).impossible = false := by
  unfold completionSummary quorumGroups
  rw [Bool.or_eq_false_iff, Bool.not_eq_false', isEmpty_map_filter]
  simp [Child.failed_eq_not_mayComplete]

theorem satisfied_iff : (completionSummary children).satisfied = true ↔ AllSatisfied children := by
  have hsatisfied : (completionSummary children).satisfied = true ↔
      (∀ c ∈ children, c.completionMode = .required → c.failed = false ∧ c.active = false) ∧
        (∀ group ∈ groupNames children,
          (summarizeGroup group (members children group)).satisfied = true) ∧
        (completionSummary children).impossible = false := by
    unfold completionSummary quorumGroups
    simp only [Bool.and_eq_true, isEmpty_map_filter, decide_eq_true_eq, List.all_map,
      List.all_eq_true, Function.comp_apply, Bool.not_eq_true']
    grind
  have hcompleted : ∀ c : Child, c.completed = true ↔ c.failed = false ∧ c.active = false := by
    intro c
    unfold Child.failed Child.active Child.completed
    cases c.status <;> decide
  rw [hsatisfied]
  constructor
  · rintro ⟨hrequired, hgroups, _⟩
    refine ⟨fun c hc hmode ↦ (hcompleted c).mpr (hrequired c hc hmode), fun group hgroup ↦ ?_⟩
    exact (groupExact hgroup).satisfied.mp (hgroups group hgroup)
  · rintro ⟨hrequired, hgroups⟩
    have hdone : ∀ group ∈ groupNames children,
        (summarizeGroup group (members children group)).satisfied = true :=
      fun group hgroup ↦ (groupExact hgroup).satisfied.mpr (hgroups group hgroup)
    refine ⟨fun c hc hmode ↦ (hcompleted c).mp (hrequired c hc hmode), hdone, ?_⟩
    rw [impossible_eq_false]
    refine ⟨fun c hc hmode ↦ ?_, fun group hgroup ↦ ?_⟩
    · unfold Child.mayComplete
      rw [hrequired c hc hmode, Bool.true_or]
    · have hapart := (groupExact hgroup).apart
      simpa [hdone group hgroup] using hapart

/-- The summary is impossible when no future satisfies everything at once. -/
theorem impossible_iff : (completionSummary children).impossible = true ↔
    ∀ children', Future children children' → ¬AllSatisfied children' := by
  constructor
  · intro himpossible children' hfuture hall
    have hpossible : (completionSummary children).impossible = false := by
      rw [impossible_eq_false]
      refine ⟨fun c hc hmode ↦ ?_, fun group hgroup ↦ ?_⟩
      · obtain ⟨c', hc', hbecomes⟩ := exists_mem_of_forall₂ hfuture hc
        have hmode' : c'.completionMode = .required := by
          rw [Child.completionMode_of_becomes hbecomes, hmode]
        exact Child.mayComplete_of_becomes hbecomes (hall.required c' hc' hmode')
      · have henough := hall.quorum group (by rw [hfuture.groupNames]; exact hgroup)
        have hiff := (groupExact hgroup).impossible
        rw [← Bool.not_eq_true]
        intro hout
        exact hiff.mp hout children' hfuture henough
    rw [hpossible] at himpossible
    cases himpossible
  · intro hnever
    rw [← Bool.not_eq_false]
    intro hpossible
    obtain ⟨hrequired, hgroups⟩ := impossible_eq_false.mp hpossible
    apply hnever _ (Future.best children)
    refine ⟨?_, ?_⟩
    · rw [List.forall_mem_map]
      intro c hc hmode
      rw [Child.completionMode_of_becomes c.becomes_best] at hmode
      exact Child.completed_best (hrequired c hc hmode)
    · intro group hgroup
      rw [(Future.best children).groupNames] at hgroup
      have hpossible := hgroups group hgroup
      rw [← Bool.not_eq_true, summarizeGroup_impossible, not_not] at hpossible
      rw [members_best]
      exact enoughCompleted_best (mem_groupNames.mp hgroup) hpossible.1 hpossible.2

/-! ## Something to wait for -/

theorem fromKeys_eq_nil {ids : List String} : fromKeys ids = [] ↔ ids = [] := by
  unfold fromKeys
  cases ids with
  | nil => simp
  | cons id ids => simp [List.eraseDups_cons]

/-- An undecided group has an active member. -/
theorem exists_active_of_undecided (hgroup : group ∈ groupNames children)
    (hsatisfied : (summarizeGroup group (members children group)).satisfied = false)
    (himpossible : (summarizeGroup group (members children group)).impossible = false) :
    ∃ c ∈ members children group, c.active = true := by
  have hcount := countP_mayComplete (members children group)
  rw [← Bool.not_eq_true, summarizeGroup_impossible, not_not] at himpossible
  rw [← List.countP_pos_iff]
  have hshort : ¬agreedRequirement (members children group) ≤
      (members children group).countP Child.completed := by
    intro hle
    apply Bool.false_ne_true
    rw [← hsatisfied, summarizeGroup_satisfied group (mem_groupNames.mp hgroup)]
    exact ⟨_, himpossible.1,
      (agreedRequirement_eq himpossible.1 (mem_groupNames.mp hgroup)).mp rfl, hle⟩
  omega

theorem waitFor_ne_nil (himpossible : (completionSummary children).impossible = false)
    (hsatisfied : (completionSummary children).satisfied = false) :
    (completionSummary children).waitFor ≠ [] := by
  intro hnone
  have hwaiting : ((children.filter fun c ↦ c.completionMode = .required).filter
        Child.active).map Child.id = [] ∧
      (activeMembers children fun g ↦ !(g.satisfied || g.impossible)) = [] := by
    have hempty : fromKeys _ = [] := hnone
    rw [fromKeys_eq_nil, if_neg (by rw [Bool.not_eq_true]; exact himpossible)] at hempty
    exact List.append_eq_nil_iff.mp hempty
  obtain ⟨hrequired, hgroups⟩ := impossible_eq_false.mp himpossible
  have hinactive : ∀ c ∈ children, c.completionMode = .required → c.active = false := by
    have hempty := List.isEmpty_iff.mpr hwaiting.1
    rw [isEmpty_map_filter] at hempty
    simpa using hempty
  apply Bool.false_ne_true
  rw [← hsatisfied, satisfied_iff]
  refine ⟨?_, ?_⟩
  · intro c hc hmode
    have hmay := hrequired c hc hmode
    unfold Child.mayComplete at hmay
    rwa [hinactive c hc hmode, Bool.or_false] at hmay
  · intro group hgroup
    apply (summarizeGroup_satisfied group (mem_groupNames.mp hgroup)).mp
    by_contra hopen
    rw [Bool.not_eq_true] at hopen
    obtain ⟨c, hc, hactive⟩ := exists_active_of_undecided hgroup hopen (hgroups group hgroup)
    have hmem : c.id ∈ activeMembers children fun g ↦ !(g.satisfied || g.impossible) := by
      unfold activeMembers quorumGroups
      refine List.mem_flatMap.mpr ⟨summarizeGroup group (members children group), ?_, ?_⟩
      · rw [List.mem_filter, hopen, hgroups group hgroup]
        exact ⟨List.mem_map_of_mem hgroup, rfl⟩
      · exact List.mem_map_of_mem (List.mem_filter.mpr ⟨hc, hactive⟩)
    rw [hwaiting.2] at hmem
    cases hmem

/-! ## Settling the parent -/

/-- Not settled for want of a continuation, and a point that waits has something to wait for. -/
def Point.Continues : Point → Prop
  | .ending active | .failing active => active ≠ []
  | .canceling toCancel => toCancel ≠ []
  | .waiting waitFor => waitFor ≠ []
  | .settled e _ => e ≠ .noContinuation

variable {status : RunStatus}

theorem continues_afterCancel : (afterCancel status children).Continues := by
  unfold afterCancel
  dsimp only
  split
  · split
    · assumption
    · rintro ⟨⟩
  · rename_i himpossible
    split
    · rintro ⟨⟩
    · rename_i hsatisfied
      rw [Bool.not_eq_true] at himpossible hsatisfied
      have hwait := waitFor_ne_nil himpossible hsatisfied
      rw [if_neg hwait]
      exact hwait

theorem continues_loopHead : (loopHead status children).Continues := by
  unfold loopHead
  dsimp only
  split
  · assumption
  · exact continues_afterCancel

theorem continues_settleChildCoordination :
    (settleChildCoordination status children).Continues := by
  unfold settleChildCoordination
  split
  · rintro ⟨⟩
  · split
    · exact continues_loopHead
    · split
      · assumption
      · rintro ⟨⟩

theorem Point.Continues.next {p : Point} (h : p.Continues) : (p.next status children).Continues := by
  cases p with
  | ending active => rintro ⟨⟩
  | canceling toCancel => exact continues_afterCancel
  | failing active => rintro ⟨⟩
  | waiting waitFor => exact continues_loopHead
  | settled e summary => exact h

theorem Point.Continues.foldl {p : Point} (h : p.Continues) (reads : List (List Child)) :
    (reads.foldl (Point.next status) p).Continues := by
  induction reads generalizing p with
  | nil => exact h
  | cons children reads ih => exact ih h.next

theorem nodup_groupNames (children : List Child) : (groupNames children).Nodup :=
  (List.perm_insertionSort _ _).nodup_iff.mpr (List.nodup_dedup _)

/-- What the summary reports about the children is exact, and the parent always has a
continuation. -/
structure SummaryExact (children : List Child) : Prop where
  reported : ∀ group, members children group ≠ [] ↔
    group ∈ (completionSummary children).quorumGroups.map QuorumGroup.group
  once : ((completionSummary children).quorumGroups.map QuorumGroup.group).Nodup
  groups : ∀ g ∈ (completionSummary children).quorumGroups, GroupExact children g
  satisfied : (completionSummary children).satisfied = true ↔ AllSatisfied children
  impossible : (completionSummary children).impossible = true ↔
    ∀ children', Future children children' → ¬AllSatisfied children'
  waits : (completionSummary children).impossible = false →
    (completionSummary children).satisfied = false → (completionSummary children).waitFor ≠ []

theorem map_group_quorumGroups (children : List Child) :
    (completionSummary children).quorumGroups.map QuorumGroup.group = groupNames children := by
  have hmap : (quorumGroups children).map QuorumGroup.group = groupNames children := by
    unfold quorumGroups
    rw [List.map_map]
    exact List.map_id _
  exact hmap

theorem child_coordination_exact (children : List Child) :
    SummaryExact children ∧ ∀ (status : RunStatus) (reads : List (List Child)) (summary : Summary),
      reads.foldl (Point.next status) (settleChildCoordination status children) ≠
        .settled .noContinuation summary := by
  refine ⟨⟨?_, ?_, ?_, satisfied_iff, impossible_iff, waitFor_ne_nil⟩, ?_⟩
  · intro group
    rw [map_group_quorumGroups, mem_groupNames]
  · rw [map_group_quorumGroups]
    exact nodup_groupNames children
  · intro g hg
    obtain ⟨group, hgroup, rfl⟩ := List.mem_map.mp hg
    exact groupExact hgroup
  · intro status reads summary hsettled
    have hstart : (settleChildCoordination status children).Continues :=
      continues_settleChildCoordination
    have hcontinues : (reads.foldl (Point.next status)
        (settleChildCoordination status children)).Continues := hstart.foldl reads
    rw [hsettled] at hcontinues
    exact hcontinues rfl

end ShejaneRuntime.Collaboration
