import ShejaneRuntime.Lib.Transition
import ShejaneRuntime.Lib.Waiters

/-!
# The tool execution gate

Shared and exclusive sections and the ordered turns of a batch, on one
condition variable. A task runs from one suspension to the next in one step.
No code that holds the lock of the condition suspends except in a wait,
which gives the lock back; so the lock is free between steps, and taking it
never suspends.
-/

namespace ShejaneRuntime.Agent

open Lib

/-- What a task asks the gate for. -/
inductive GateSection where
  | read
  | write
  | ordered (batchKey : String) (position completedPrefix : ℤ)
  deriving DecidableEq

/-- `AsyncToolExecutionGate`, with the tasks inside its sections and in a wait. -/
structure ToolExecutionGate (ι : Type) where
  readers : ℤ
  writer : Bool
  waitingWriters : ℤ
  batchNext : String → ℤ
  inside : ι → Option GateSection
  waiters : Waiters ι GateSection

namespace ToolExecutionGate

variable {ι : Type}

def init : ToolExecutionGate ι := ⟨0, false, 0, fun _ ↦ 0, fun _ ↦ none, .empty⟩

/-- The predicate a section waits for. -/
def admits (g : ToolExecutionGate ι) : GateSection → Bool
  | .read => !g.writer && g.waitingWriters = 0
  | .write => !g.writer && g.readers = 0
  | .ordered batchKey position _ => g.batchNext batchKey = position

theorem admits_read {g : ToolExecutionGate ι} :
    g.admits .read = true ↔ g.writer = false ∧ g.waitingWriters = 0 := by
  simp [admits]

theorem admits_write {g : ToolExecutionGate ι} :
    g.admits .write = true ↔ g.writer = false ∧ g.readers = 0 := by
  simp [admits]

theorem admits_ordered {g : ToolExecutionGate ι} {batchKey : String} {position p : ℤ} :
    g.admits (.ordered batchKey position p) = true ↔ g.batchNext batchKey = position := by
  simp [admits]

def notifyAll (g : ToolExecutionGate ι) : ToolExecutionGate ι :=
  { g with waiters := g.waiters.notifyAll }

/-- What a section does before its first wait. -/
def announce (g : ToolExecutionGate ι) : GateSection → ToolExecutionGate ι
  | .read => g
  | .write => { g with waitingWriters := g.waitingWriters + 1 }
  | .ordered batchKey _ completedPrefix =>
    { g with batchNext := if g.batchNext batchKey < completedPrefix then
        Function.update g.batchNext batchKey completedPrefix else g.batchNext }

/-- What a section does when its predicate holds. -/
def letIn (g : ToolExecutionGate ι) : GateSection → ToolExecutionGate ι
  | .read => { g with readers := g.readers + 1 }
  | .write => { g with writer := true, waitingWriters := g.waitingWriters - 1 }
  | .ordered _ _ _ => g

/-- The `finally` of a wait that failed. -/
def withdraw (g : ToolExecutionGate ι) : GateSection → ToolExecutionGate ι
  | .write => { g with waitingWriters := g.waitingWriters - 1 }
  | _ => g

/-- The end of a section whose body completed or failed. -/
def release (g : ToolExecutionGate ι) (completed : Bool) : GateSection → ToolExecutionGate ι
  | .read => notifyAll { g with readers := g.readers - 1 }
  | .write => notifyAll { g with writer := false }
  | .ordered batchKey position _ =>
    if completed then
      notifyAll { g with batchNext := Function.update g.batchNext batchKey (position + 1) }
    else g

variable [DecidableEq ι]

/-- The test of the predicate in `wait_for`: go in, or wait. -/
def attempt (g : ToolExecutionGate ι) (t : ι) (s : GateSection) : ToolExecutionGate ι :=
  if g.admits s then { g.letIn s with inside := Function.update g.inside t (some s) }
  else { g with waiters := g.waiters.join t s }

def enter (g : ToolExecutionGate ι) (t : ι) (s : GateSection) : ToolExecutionGate ι :=
  (g.announce s).attempt t s

/-- A notified task tests its predicate again. -/
def resume (g : ToolExecutionGate ι) (t : ι) (s : GateSection) : ToolExecutionGate ι :=
  attempt { g with waiters := g.waiters.quit t } t s

def cancel (g : ToolExecutionGate ι) (t : ι) : ToolExecutionGate ι :=
  { g with waiters := g.waiters.rouse t .canceled }

/-- A canceled wait fails. From some version on, the condition of the
interpreter passes the wait on to another task (`relays`). -/
def unwind (relays : Bool) (g : ToolExecutionGate ι) (t : ι) (s : GateSection) :
    ToolExecutionGate ι :=
  let waiters := g.waiters.quit t
  withdraw { g with waiters := if relays then waiters.notifyOne else waiters } s

def leave (g : ToolExecutionGate ι) (t : ι) (completed : Bool) (s : GateSection) :
    ToolExecutionGate ι :=
  release { g with inside := Function.update g.inside t none } completed s

end ToolExecutionGate

open ToolExecutionGate

/-- What a task may do next. A cancellation inside a section ends its body. -/
inductive GateAct (ι : Type) where
  | enter (t : ι) (s : GateSection)
  | resume (t : ι)
  | cancel (t : ι)
  | unwind (t : ι)
  | leave (t : ι) (completed : Bool)

section

variable {ι : Type} [DecidableEq ι]

inductive GateStep (relays : Bool) :
    GateAct ι → ToolExecutionGate ι → ToolExecutionGate ι → Prop
  | enter {g : ToolExecutionGate ι} {t : ι} (s : GateSection) :
      g.inside t = none → g.waiters.wait t = none →
      GateStep relays (.enter t s) g (g.enter t s)
  | resume {g : ToolExecutionGate ι} {t : ι} {s : GateSection} :
      g.waiters.wait t = some (s, .notified) → GateStep relays (.resume t) g (g.resume t s)
  | cancel {g : ToolExecutionGate ι} {t : ι} {s : GateSection} {wake : Wake} :
      g.waiters.wait t = some (s, wake) → GateStep relays (.cancel t) g (g.cancel t)
  | unwind {g : ToolExecutionGate ι} {t : ι} {s : GateSection} :
      g.waiters.wait t = some (s, .canceled) →
      GateStep relays (.unwind t) g (g.unwind relays t s)
  | leave {g : ToolExecutionGate ι} {t : ι} {s : GateSection} (completed : Bool) :
      g.inside t = some s → GateStep relays (.leave t completed) g (g.leave t completed s)

/-- The gate with any number of tasks, from the moment it is made. -/
def gate (ι : Type) [DecidableEq ι] (relays : Bool) :
    System (ToolExecutionGate ι) (GateAct ι) where
  initial g := g = init
  step := GateStep relays

end

/-! ## What the gate keeps -/

namespace ToolExecutionGate

variable {ι : Type}

/-- The counters count the tasks they are about, and a writer is alone. -/
structure Counted (g : ToolExecutionGate ι) : Prop where
  readers : Counts (fun t ↦ g.inside t = some .read) g.readers
  waiting : Counts (fun t ↦ (g.waiters.wait t).map Prod.fst = some .write) g.waitingWriters
  writers : Counts (fun t ↦ g.inside t = some .write) (if g.writer then 1 else 0)
  alone : g.writer = true → g.readers = 0
  apart : ∀ t, g.inside t = none ∨ g.waiters.wait t = none

/-- A task whose predicate holds has an open wait. -/
def Lost (g : ToolExecutionGate ι) : Prop :=
  ∃ t s, g.waiters.Pending t s ∧ g.admits s = true

theorem counted_init : Counted (init : ToolExecutionGate ι) := by
  refine ⟨?_, ?_, ?_, ?_, ?_⟩
  · exact Counts.nil.congr fun t ↦ by simp [init]
  · exact Counts.nil.congr fun t ↦ by simp [init, Waiters.empty]
  · exact Counts.nil.congr fun t ↦ by simp [init]
  · exact fun _ ↦ rfl
  · exact fun _ ↦ .inl rfl

/-- Tasks may change how they wait as long as they wait for the same. -/
theorem Counted.rewait {g : ToolExecutionGate ι} (h : Counted g) {w : Waiters ι GateSection}
    (hw : ∀ t, (w.wait t).map Prod.fst = (g.waiters.wait t).map Prod.fst) :
    Counted { g with waiters := w } := by
  refine ⟨h.readers, ?_, h.writers, h.alone, ?_⟩
  · exact h.waiting.congr fun t ↦ by rw [hw t]
  · intro t
    refine (h.apart t).imp id fun hnone ↦ ?_
    have hsame := hw t
    rw [hnone, Option.map_none, Option.map_eq_none_iff] at hsame
    exact hsame

/-- Setting the next position of a batch counts nobody. -/
theorem Counted.rebatch {g : ToolExecutionGate ι} (h : Counted g) (next : String → ℤ) :
    Counted { g with batchNext := next } :=
  ⟨h.readers, h.waiting, h.writers, h.alone, h.apart⟩

theorem Counted.notifyAll {g : ToolExecutionGate ι} (h : Counted g) : Counted g.notifyAll :=
  h.rewait g.waiters.wait_notifyAll

/-- A task that is about to test its predicate: it is in no wait, and a
writer is already counted as waiting. -/
structure Testing (g : ToolExecutionGate ι) (t : ι) (s : GateSection) : Prop where
  readers : Counts (fun t ↦ g.inside t = some .read) g.readers
  waiting : Counts (fun t' ↦ (g.waiters.wait t').map Prod.fst = some .write ∨ t' = t ∧ s = .write)
    g.waitingWriters
  writers : Counts (fun t ↦ g.inside t = some .write) (if g.writer then 1 else 0)
  alone : g.writer = true → g.readers = 0
  apart : ∀ t', g.inside t' = none ∨ g.waiters.wait t' = none
  out : g.inside t = none ∧ g.waiters.wait t = none

variable [DecidableEq ι]

theorem Testing.attempt {g : ToolExecutionGate ι} {t : ι} {s : GateSection}
    (h : Testing g t s) : Counted (g.attempt t s) := by
  obtain ⟨hinside, hwait⟩ := h.out
  have hone : ∀ (kind : GateSection) (t' : ι),
      Function.update g.inside t (some s) t' = some kind ↔
        t' = t ∧ s = kind ∨ g.inside t' = some kind := by
    intro kind t'
    rw [Function.update_apply]
    split
    · rename_i heq
      simp [heq, hinside]
    · rename_i hne
      simp [hne]
  have hapart : ∀ t', Function.update g.inside t (some s) t' = none ∨
      g.waiters.wait t' = none := by
    intro t'
    rw [Function.update_apply]
    split
    · rename_i heq
      exact .inr (heq ▸ hwait)
    · exact h.apart t'
  unfold ToolExecutionGate.attempt
  split
  · rename_i hadmits
    cases s with
    | read =>
        rw [admits_read] at hadmits
        refine ⟨?_, ?_, ?_, ?_, hapart⟩
        · exact h.readers.add (t := t) (by simp [hinside]) fun t' ↦ by simp [hone]
        · exact h.waiting.congr fun t' ↦ by simp [letIn]
        · exact h.writers.congr fun t' ↦ by simp [hone]
        · intro hwriter
          rw [letIn, hadmits.1] at hwriter
          cases hwriter
    | write =>
        rw [admits_write] at hadmits
        refine ⟨?_, ?_, ?_, ?_, hapart⟩
        · exact h.readers.congr fun t' ↦ by simp [hone]
        · refine h.waiting.remove (t := t) (.inr ⟨rfl, rfl⟩) fun t' ↦ ?_
          by_cases ht : t' = t
          · simp [letIn, ht, hwait]
          · simp [letIn, ht]
        · have hnone := h.writers
          rw [hadmits.1] at hnone
          exact hnone.add (t := t) (by simp [hinside]) fun t' ↦ by simp [hone]
        · exact fun _ ↦ hadmits.2
    | ordered batchKey position completedPrefix =>
        refine ⟨?_, ?_, ?_, h.alone, hapart⟩
        · exact h.readers.congr fun t' ↦ by simp [hone]
        · exact h.waiting.congr fun t' ↦ by simp [letIn]
        · exact h.writers.congr fun t' ↦ by simp [hone]
  · refine ⟨h.readers, ?_, h.writers, h.alone, ?_⟩
    · refine h.waiting.congr fun t' ↦ ?_
      dsimp only [Waiters.join]
      rw [Function.update_apply]
      split
      · rename_i heq
        simp [heq, hwait]
      · rename_i hne
        simp [hne]
    · intro t'
      dsimp only [Waiters.join]
      rw [Function.update_apply]
      split
      · rename_i heq
        exact .inl (heq ▸ hinside)
      · exact h.apart t'

theorem Counted.enter {g : ToolExecutionGate ι} (h : Counted g) {t : ι} (s : GateSection)
    (hinside : g.inside t = none) (hwait : g.waiters.wait t = none) : Counted (g.enter t s) := by
  refine Testing.attempt ?_
  cases s with
  | read =>
      exact ⟨h.readers, h.waiting.congr fun t' ↦ by simp [announce], h.writers, h.alone, h.apart,
        hinside, hwait⟩
  | write =>
      refine ⟨h.readers, ?_, h.writers, h.alone, h.apart, hinside, hwait⟩
      exact h.waiting.add (t := t) (by simp [hwait]) fun t' ↦ by simp [announce, or_comm]
  | ordered batchKey position completedPrefix =>
      exact ⟨h.readers, h.waiting.congr fun t' ↦ by simp [announce], h.writers, h.alone, h.apart,
        hinside, hwait⟩

theorem Counted.quit {g : ToolExecutionGate ι} (h : Counted g) {t : ι} {s : GateSection}
    {wake : Wake} (hwait : g.waiters.wait t = some (s, wake)) :
    Testing { g with waiters := g.waiters.quit t } t s := by
  have hinside : g.inside t = none := by
    rcases h.apart t with hnone | hnone
    · exact hnone
    · rw [hwait] at hnone
      cases hnone
  refine ⟨h.readers, h.waiting.congr fun t' ↦ ?_, h.writers, h.alone, fun t' ↦ ?_, hinside, ?_⟩
  · dsimp only [Waiters.quit]
    rw [Function.update_apply]
    split
    · rename_i heq
      simp [heq, hwait]
    · rename_i hne
      simp [hne]
  · dsimp only [Waiters.quit]
    rw [Function.update_apply]
    split
    · exact .inr rfl
    · exact h.apart t'
  · simp [Waiters.quit]

theorem Counted.resume {g : ToolExecutionGate ι} (h : Counted g) {t : ι} {s : GateSection}
    (hwait : g.waiters.wait t = some (s, .notified)) : Counted (g.resume t s) :=
  (h.quit hwait).attempt

theorem Counted.unwind {g : ToolExecutionGate ι} (h : Counted g) (relays : Bool) {t : ι}
    {s : GateSection} (hwait : g.waiters.wait t = some (s, .canceled)) :
    Counted (g.unwind relays t s) := by
  have hquit := h.quit hwait
  have hwithdrawn : Counted (withdraw { g with waiters := g.waiters.quit t } s) := by
    cases s with
    | write =>
        refine ⟨hquit.readers, ?_, hquit.writers, hquit.alone, hquit.apart⟩
        refine hquit.waiting.remove (t := t) (.inr ⟨rfl, rfl⟩) fun t' ↦ ?_
        by_cases ht : t' = t
        · simp [withdraw, ht, Waiters.quit]
        · simp [withdraw, ht]
    | read =>
        exact ⟨hquit.readers, hquit.waiting.congr fun t' ↦ by simp [withdraw], hquit.writers,
          hquit.alone, hquit.apart⟩
    | ordered batchKey position completedPrefix =>
        exact ⟨hquit.readers, hquit.waiting.congr fun t' ↦ by simp [withdraw], hquit.writers,
          hquit.alone, hquit.apart⟩
  cases relays with
  | false => exact hwithdrawn
  | true =>
      have hrelayed := hwithdrawn.rewait (w := (g.waiters.quit t).notifyOne) fun t' ↦ by
        rw [Waiters.wait_notifyOne]
        cases s <;> rfl
      cases s with
      | write => exact hrelayed
      | read => exact hrelayed
      | ordered _ _ _ => exact hrelayed

theorem Counted.leave {g : ToolExecutionGate ι} (h : Counted g) (completed : Bool) {t : ι}
    {s : GateSection} (hinside : g.inside t = some s) : Counted (g.leave t completed s) := by
  have hone : ∀ (kind : GateSection) (t' : ι), Function.update g.inside t none t' = some kind ↔
      t' ≠ t ∧ g.inside t' = some kind := by
    intro kind t'
    rw [Function.update_apply]
    split
    · rename_i heq
      simp [heq]
    · rename_i hne
      simp [hne]
  have hothers : ∀ kind, kind ≠ s → ∀ t', Function.update g.inside t none t' = some kind ↔
      g.inside t' = some kind := by
    intro kind hne t'
    rw [hone]
    refine ⟨And.right, fun hkind ↦ ⟨?_, hkind⟩⟩
    rintro rfl
    rw [hinside, Option.some.injEq] at hkind
    exact hne hkind.symm
  have hapart : ∀ t', Function.update g.inside t none t' = none ∨ g.waiters.wait t' = none := by
    intro t'
    rw [Function.update_apply]
    split
    · exact .inl rfl
    · exact h.apart t'
  unfold ToolExecutionGate.leave release
  cases s with
  | read =>
      refine Counted.notifyAll ⟨?_, h.waiting, ?_, ?_, hapart⟩
      · exact h.readers.remove hinside (hone .read)
      · exact h.writers.congr (hothers .write (by simp))
      · intro hwriter
        have hzero := h.readers.eq_zero_iff.mp (h.alone hwriter) t
        exact absurd hinside hzero
  | write =>
      refine Counted.notifyAll ⟨?_, h.waiting, ?_, ?_, hapart⟩
      · exact h.readers.congr (hothers .read (by simp))
      · have hwriter : g.writer = true := by
          by_contra hnot
          have hcount := h.writers
          rw [if_neg hnot] at hcount
          exact hcount.eq_zero_iff.mp rfl t hinside
        have hcount := h.writers
        rw [if_pos hwriter] at hcount
        exact hcount.remove hinside (hone .write)
      · intro hwriter
        cases hwriter
  | ordered batchKey position completedPrefix =>
      have hgone : Counted { g with inside := Function.update g.inside t none } :=
        ⟨h.readers.congr (hothers .read (by simp)), h.waiting,
          h.writers.congr (hothers .write (by simp)), h.alone, hapart⟩
      dsimp only
      split
      · exact (hgone.rebatch _).notifyAll
      · exact hgone

theorem Counted.step {relays : Bool} {a : GateAct ι} {g g' : ToolExecutionGate ι}
    (h : Counted g) (hstep : GateStep relays a g g') : Counted g' := by
  cases hstep with
  | enter s hinside hwait => exact h.enter s hinside hwait
  | resume hwait => exact h.resume hwait
  | cancel hwait => exact h.rewait fun t' ↦ g.waiters.wait_rouse _ _ _
  | unwind hwait => exact h.unwind relays hwait
  | leave completed hinside => exact h.leave completed hinside

/-! ## Wake-ups -/

/-- The step wakes every task whose predicate it makes true. Two kinds of
step may not: the last waiting writer is canceled, and the completed prefix
of an ordered section moves the turn of its batch. -/
def Wakes (relays : Bool) (g : ToolExecutionGate ι) : GateAct ι → Prop
  | .enter _ (.ordered batchKey _ completedPrefix) =>
    completedPrefix ≤ g.batchNext batchKey ∨
      ∀ t p, ¬g.waiters.Pending t (.ordered batchKey completedPrefix p)
  | .unwind t =>
    (g.waiters.wait t).map Prod.fst = some .write →
      g.writer = true ∨ g.waitingWriters ≠ 1 ∨
        ∀ t', g.waiters.Pending t' .read → relays = true ∧ (g.waiters.quit t).first = some t'
  | _ => True

omit [DecidableEq ι] in
theorem not_lost_of {g g' : ToolExecutionGate ι} (h : ¬Lost g)
    (hpending : ∀ t s, g'.waiters.Pending t s → g'.admits s = true →
      g.waiters.Pending t s ∧ g.admits s = true) : ¬Lost g' := by
  rintro ⟨t, s, hp, ha⟩
  exact h ⟨t, s, hpending t s hp ha⟩

omit [DecidableEq ι] in
theorem not_lost_notifyAll (g : ToolExecutionGate ι) : ¬Lost g.notifyAll := by
  rintro ⟨t, s, hp, _⟩
  exact g.waiters.not_pending_notifyAll hp

omit [DecidableEq ι] in
/-- Admission of one task makes the predicate of no other task true. -/
theorem admits_of_letIn {g : ToolExecutionGate ι} {s s' : GateSection}
    (hreaders : 0 ≤ g.readers) (hs : g.admits s = true) (hs' : (g.letIn s).admits s' = true) :
    g.admits s' = true := by
  cases s with
  | read =>
      cases s' with
      | read => exact hs
      | write =>
          have hmore : g.readers + 1 = 0 := (admits_write.mp hs').2
          omega
      | ordered _ _ _ => exact hs'
  | write =>
      cases s' with
      | read => exact absurd (admits_read.mp hs').1 (by simp [letIn])
      | write => exact hs
      | ordered _ _ _ => exact hs'
  | ordered _ _ _ =>
      cases s' with
      | read => exact hs'
      | write => exact hs'
      | ordered _ _ _ => exact hs'

theorem not_lost_attempt {g : ToolExecutionGate ι} (h : ¬Lost g) (hreaders : 0 ≤ g.readers)
    (t : ι) (s : GateSection) : ¬Lost (g.attempt t s) := by
  unfold attempt
  split
  · rename_i hadmits
    refine not_lost_of h fun t' s' hp ha ↦ ?_
    have hwaiters : (g.letIn s).waiters = g.waiters := by cases s <;> rfl
    refine ⟨?_, admits_of_letIn hreaders hadmits ha⟩
    rw [← hwaiters]
    exact hp
  · rename_i hadmits
    refine not_lost_of h fun t' s' hp ha ↦ ?_
    rw [Waiters.pending_join] at hp
    split at hp
    · rw [hp] at ha
      exact absurd ha hadmits
    · exact ⟨hp, ha⟩

theorem not_lost_announce {g : ToolExecutionGate ι} (h : ¬Lost g)
    (hwriters : 0 ≤ g.waitingWriters) {t : ι} {s : GateSection} {relays : Bool}
    (hok : Wakes relays g (.enter t s)) : ¬Lost (g.announce s) := by
  cases s with
  | read => exact h
  | write =>
      refine not_lost_of h fun t' s' hp ha ↦ ⟨hp, ?_⟩
      cases s' with
      | read =>
          have hmore : g.waitingWriters + 1 = 0 := (admits_read.mp ha).2
          omega
      | write => exact ha
      | ordered _ _ _ => exact ha
  | ordered batchKey position completedPrefix =>
      refine not_lost_of h fun t' s' hp ha ↦ ⟨hp, ?_⟩
      cases s' with
      | read => exact ha
      | write => exact ha
      | ordered batchKey' position' p =>
          rw [admits_ordered] at ha ⊢
          dsimp only [announce] at ha
          split at ha
          · rename_i hlt
            rw [Function.update_apply] at ha
            split at ha
            · rename_i heq
              rcases hok with hle | hnone
              · omega
              · rw [heq, ← ha] at hp
                exact absurd hp (hnone t' p)
            · exact ha
          · exact ha

theorem not_lost_quit {g : ToolExecutionGate ι} (h : ¬Lost g) (t : ι) :
    ¬Lost { g with waiters := g.waiters.quit t } := by
  refine not_lost_of h fun t' s' hp ha ↦ ⟨?_, ha⟩
  exact (g.waiters.pending_quit.mp hp).2

theorem not_lost_unwind {g : ToolExecutionGate ι} (h : ¬Lost g) {t : ι} {s : GateSection}
    {relays : Bool} (hwait : g.waiters.wait t = some (s, .canceled))
    (hok : Wakes relays g (.unwind t)) : ¬Lost (g.unwind relays t s) := by
  have hfewer : ∀ t' s', (g.unwind relays t s).waiters.Pending t' s' →
      (g.waiters.quit t).Pending t' s' ∧
        (relays = true → (g.waiters.quit t).first ≠ some t') := by
    intro t' s' hp
    have hwaiters : (g.unwind relays t s).waiters =
        if relays then (g.waiters.quit t).notifyOne else g.waiters.quit t := by
      cases s <;> rfl
    rw [hwaiters] at hp
    split at hp
    · rename_i hrelays
      rw [Waiters.pending_notifyOne] at hp
      exact ⟨hp.2, fun _ ↦ hp.1⟩
    · rename_i hrelays
      exact ⟨hp, fun hr ↦ absurd hr hrelays⟩
  refine not_lost_of h fun t' s' hp ha ↦ ?_
  obtain ⟨hp', hfirst⟩ := hfewer t' s' hp
  have hpending := (g.waiters.pending_quit.mp hp').2
  refine ⟨hpending, ?_⟩
  cases s with
  | read => cases s' <;> exact ha
  | ordered _ _ _ => cases s' <;> exact ha
  | write =>
      cases s' with
      | write => exact ha
      | ordered _ _ _ => exact ha
      | read =>
          obtain ⟨hfree, hlast⟩ := admits_read.mp ha
          have hlast : g.waitingWriters - 1 = 0 := hlast
          rcases hok (by rw [hwait]; rfl) with hwriter | hmore | hrelayed
          · exact absurd (hwriter.symm.trans hfree) (by decide)
          · omega
          · obtain ⟨hrelays, hthis⟩ := hrelayed t' hpending
            exact absurd hthis (hfirst hrelays)

theorem not_lost_leave {g : ToolExecutionGate ι} (h : ¬Lost g) (t : ι) (completed : Bool)
    (s : GateSection) : ¬Lost (g.leave t completed s) := by
  unfold leave release
  cases s with
  | read => exact not_lost_notifyAll _
  | write => exact not_lost_notifyAll _
  | ordered _ _ _ =>
      dsimp only
      split
      · exact not_lost_notifyAll _
      · exact h

/-- A step that wakes whom it must leaves no wake-up lost. -/
theorem Counted.not_lost_step {relays : Bool} {a : GateAct ι} {g g' : ToolExecutionGate ι}
    (hc : Counted g) (h : ¬Lost g) (hok : Wakes relays g a) (hstep : GateStep relays a g g') :
    ¬Lost g' := by
  cases hstep with
  | enter s hinside hwait =>
      refine not_lost_attempt (not_lost_announce h hc.waiting.nonneg hok) ?_ _ _
      cases s with
      | read => exact hc.readers.nonneg
      | write => exact hc.readers.nonneg
      | ordered _ _ _ => exact hc.readers.nonneg
  | resume hwait => exact not_lost_attempt (not_lost_quit h _) hc.readers.nonneg _ _
  | cancel hwait =>
      refine not_lost_of h fun t' s' hp ha ↦ ⟨?_, ha⟩
      exact ((g.waiters.pending_rouse (by decide)).mp hp).2
  | unwind hwait => exact not_lost_unwind h hwait hok
  | leave completed hinside => exact not_lost_leave h _ _ _

theorem lost_enter {g : ToolExecutionGate ι} {relays : Bool} {t : ι} {s : GateSection}
    (hwait : g.waiters.wait t = none) (hbad : ¬Wakes relays g (.enter t s)) :
    Lost (g.enter t s) := by
  cases s with
  | read => exact absurd trivial hbad
  | write => exact absurd trivial hbad
  | ordered batchKey position completedPrefix =>
      obtain ⟨hmoved, hsome⟩ := not_or.mp hbad
      push Not at hmoved hsome
      obtain ⟨t', p, hp⟩ := hsome
      have hne : t' ≠ t := by
        rintro rfl
        rw [Waiters.Pending, hwait] at hp
        cases hp
      have hnext : (g.announce (.ordered batchKey position completedPrefix)).batchNext batchKey =
          completedPrefix := by
        simp [announce, hmoved]
      refine ⟨t', .ordered batchKey completedPrefix p, ?_, ?_⟩
      · unfold enter attempt
        split
        · exact hp
        · rw [Waiters.pending_join, if_neg hne]
          exact hp
      · unfold enter attempt
        split
        · exact admits_ordered.mpr hnext
        · exact admits_ordered.mpr hnext

theorem lost_unwind {g : ToolExecutionGate ι} {relays : Bool} {t : ι} {s : GateSection}
    (hwait : g.waiters.wait t = some (s, .canceled)) (hbad : ¬Wakes relays g (.unwind t)) :
    Lost (g.unwind relays t s) := by
  rw [Wakes, hwait, Option.map_some, Option.some.injEq] at hbad
  push Not at hbad
  obtain ⟨rfl, hfree, hlast, t', hp, hmissed⟩ := hbad
  have hne : t' ≠ t := by
    rintro rfl
    rw [Waiters.Pending, hwait, Option.some.injEq, Prod.mk.injEq] at hp
    cases hp.2
  have hstill : (g.waiters.quit t).Pending t' .read := g.waiters.pending_quit.mpr ⟨hne, hp⟩
  refine ⟨t', .read, ?_, ?_⟩
  · dsimp only [unwind, withdraw]
    split
    · rename_i hrelays
      exact (g.waiters.quit t).pending_notifyOne.mpr ⟨hmissed hrelays, hstill⟩
    · exact hstill
  · have hzero : g.waitingWriters - 1 = 0 := by omega
    exact admits_read.mpr ⟨(Bool.not_eq_true _).mp hfree, hzero⟩

/-- A step that does not wake whom it must loses a wake-up. -/
theorem lost_of_not_wakes {relays : Bool} {a : GateAct ι} {g g' : ToolExecutionGate ι}
    (hbad : ¬Wakes relays g a) (hstep : GateStep relays a g g') : Lost g' := by
  cases hstep with
  | enter s hinside hwait => exact lost_enter hwait hbad
  | resume hwait => exact absurd trivial hbad
  | cancel hwait => exact absurd trivial hbad
  | unwind hwait => exact lost_unwind hwait hbad
  | leave completed hinside => exact absurd trivial hbad

/-! ## Whole runs -/

theorem counted_of_reachable {relays : Bool} {g : ToolExecutionGate ι}
    (h : (gate ι relays).Reachable g) : Counted g := by
  refine h.invariant (fun g hinit ↦ ?_) fun a g g' hc _ hstep ↦ hc.step hstep
  rw [show g = init from hinit]
  exact counted_init

omit [DecidableEq ι] in
theorem not_lost_init : ¬Lost (init : ToolExecutionGate ι) := by
  rintro ⟨t, s, hp, _⟩
  cases hp

theorem not_lost_of_reachable {relays : Bool} {g : ToolExecutionGate ι}
    (h : (gate ι relays).ReachableBy (fun a g ↦ Wakes relays g a) g) : ¬Lost g := by
  have hboth : Counted g ∧ ¬Lost g := by
    refine h.invariant (P := fun g ↦ Counted g ∧ ¬Lost g) (fun g hinit ↦ ?_)
      fun a g g' hc hok hstep ↦ ?_
    · rw [show g = init from hinit]
      exact ⟨counted_init, not_lost_init⟩
    · exact ⟨hc.1.step hstep, hc.1.not_lost_step hc.2 hok hstep⟩
  exact hboth.2

/-- A writer is alone in the gate. -/
def Exclusive (g : ToolExecutionGate ι) : Prop :=
  ∀ t t', g.inside t = some .write →
    g.inside t' ≠ some .read ∧ (g.inside t' = some .write → t' = t)

omit [DecidableEq ι] in
theorem Counted.exclusive {g : ToolExecutionGate ι} (h : Counted g) : Exclusive g := by
  intro t t' ht
  have hwriter : g.writer = true := by
    by_contra hnot
    have hcount := h.writers
    rw [if_neg hnot] at hcount
    exact hcount.eq_zero_iff.mp rfl t ht
  have hcount := h.writers
  rw [if_pos hwriter] at hcount
  refine ⟨h.readers.eq_zero_iff.mp (h.alone hwriter) t', ?_⟩
  exact (hcount.eq_one_iff ht).mp rfl t'

/-- Writers are alone, the counters are never negative and come back to zero,
and as long as every step wakes whom it must no task is left waiting while
its predicate holds; the first step that does not leaves one. -/
theorem gate_excludes_and_wakes (relays : Bool) {g : ToolExecutionGate ι}
    (h : (gate ι relays).Reachable g) :
    Exclusive g ∧ 0 ≤ g.readers ∧ 0 ≤ g.waitingWriters ∧
      ((∀ t, g.inside t = none ∧ g.waiters.wait t = none) →
        g.readers = 0 ∧ g.waitingWriters = 0) ∧
      ((gate ι relays).ReachableBy (fun a g ↦ Wakes relays g a) g →
        ¬Lost g ∧ ∀ a g', GateStep relays a g g' → (¬Lost g' ↔ Wakes relays g a)) := by
  have hc := counted_of_reachable h
  refine ⟨hc.exclusive, hc.readers.nonneg, hc.waiting.nonneg, ?_, ?_⟩
  · intro hempty
    refine ⟨hc.readers.eq_zero_iff.mpr fun t ↦ ?_, hc.waiting.eq_zero_iff.mpr fun t ↦ ?_⟩
    · rw [(hempty t).1]
      simp
    · rw [(hempty t).2]
      simp
  · intro hwakes
    have hnot := not_lost_of_reachable hwakes
    refine ⟨hnot, fun a g' hstep ↦ ⟨fun hnot' ↦ ?_, fun hok ↦ hc.not_lost_step hnot hok hstep⟩⟩
    by_contra hbad
    exact hnot' (lost_of_not_wakes hbad hstep)

section Canceled

/-- A reader is inside, a writer waits for it and two readers for the writer. -/
def crowded : ToolExecutionGate ℕ :=
  (((init.enter 0 .read).enter 1 .write).enter 2 .read).enter 3 .read

theorem reachable_enter {relays : Bool} {g : ToolExecutionGate ι} {t : ι} {s : GateSection}
    (h : (gate ι relays).ReachableBy (fun a g ↦ Wakes relays g a) g)
    (hok : Wakes relays g (.enter t s)) (hinside : g.inside t = none)
    (hwait : g.waiters.wait t = none) :
    (gate ι relays).ReachableBy (fun a g ↦ Wakes relays g a) (g.enter t s) :=
  h.step (i := .enter t s) hok (GateStep.enter s hinside hwait)

theorem reachable_crowded (relays : Bool) :
    (gate ℕ relays).ReachableBy (fun a g ↦ Wakes relays g a) crowded := by
  have h₀ : (gate ℕ relays).ReachableBy (fun a g ↦ Wakes relays g a) init :=
    ⟨init, rfl, .refl _⟩
  have h₁ := reachable_enter (t := 0) (s := .read) h₀ trivial rfl rfl
  have h₂ := reachable_enter (t := 1) (s := .write) h₁ trivial rfl rfl
  have h₃ := reachable_enter (t := 2) (s := .read) h₂ trivial rfl rfl
  exact reachable_enter (t := 3) (s := .read) h₃ trivial rfl rfl

theorem gate_excludes_and_wakes_crowded :
    Exclusive crowded ∧ 0 ≤ crowded.readers ∧ 0 ≤ crowded.waitingWriters ∧
      ((∀ t, crowded.inside t = none ∧ crowded.waiters.wait t = none) →
        crowded.readers = 0 ∧ crowded.waitingWriters = 0) ∧
      ((gate ℕ true).ReachableBy (fun a g ↦ Wakes true g a) crowded →
        ¬Lost crowded ∧
          ∀ a g', GateStep true a crowded g' → (¬Lost g' ↔ Wakes true crowded a)) :=
  gate_excludes_and_wakes true ((reachable_crowded true).weaken fun _ _ _ ↦ trivial)

/-- The writer is canceled: it no longer waits, and a reader is not told. -/
def deserted (relays : Bool) : ToolExecutionGate ℕ := (crowded.cancel 1).unwind relays 1 .write

theorem reachable_deserted (relays : Bool) : (gate ℕ relays).Reachable (deserted relays) := by
  have hcrowded : (gate ℕ relays).Reachable crowded :=
    (reachable_crowded relays).weaken fun _ _ _ ↦ trivial
  have hcancel : GateStep relays (.cancel 1) crowded (crowded.cancel 1) :=
    .cancel (show crowded.waiters.wait 1 = some (.write, .pending) from rfl)
  have hunwind : GateStep relays (.unwind 1) (crowded.cancel 1) (deserted relays) :=
    .unwind (s := .write) rfl
  have hcanceled : (gate ℕ relays).Reachable (crowded.cancel 1) :=
    hcrowded.step (i := .cancel 1) trivial hcancel
  exact hcanceled.step (i := .unwind 1) trivial hunwind

theorem wake_up_lost :
    ¬(∀ g, (gate ℕ false).Reachable g → ¬Lost g) ∧
      ¬(∀ g, (gate ℕ true).Reachable g → ¬Lost g) := by
  refine ⟨fun h ↦ ?_, fun h ↦ ?_⟩
  · exact h _ (reachable_deserted false) ⟨3, .read, rfl, rfl⟩
  · exact h _ (reachable_deserted true) ⟨3, .read, rfl, rfl⟩

end Canceled

end ToolExecutionGate

end ShejaneRuntime.Agent
