import Mathlib.Logic.Function.Basic
import ShejaneRuntime.Lib.Transition
import ShejaneRuntime.Store.Schema

/-!
# Runs and their jobs in lockstep

What the job queue is for, without its tables: a run has a status, at most
one job that is pending or leased, and a log of the events that report its
lifecycle. The machine moves the run, the job and the log together. Which
statuses allow a new job is a parameter, since the two ways of asking for
one do not check the same thing.
-/

namespace ShejaneRuntime.Lockstep

open Store Lib

variable {R J E : Type}

/-- A job without its payload. It is live while its lease has an expiry. -/
structure JobView (R : Type) where
  run : R
  status : JobStatus
  quarantined : Bool
  live : Bool

namespace JobView

def active (v : JobView R) : Prop := v.status = .pending ∨ v.status = .leased

/-- Leased to an attempt that has not been fenced off. -/
def held (v : JobView R) : Prop := v.status = .leased ∧ v.quarantined = false

/-- Leased to an attempt that is fenced off and not yet cleaned up. -/
def lost (v : JobView R) : Prop := v.status = .leased ∧ v.quarantined = true

theorem held.active {v : JobView R} (h : v.held) : v.active := Or.inr h.1

theorem lost.active {v : JobView R} (h : v.lost) : v.active := Or.inr h.1

end JobView

@[ext] structure State (R J E : Type) where
  status : R → Option RunStatus
  job : J → Option (JobView R)
  log : R → List E

namespace State

/-- Move a run to a status and report it. -/
def setRun [DecidableEq R] (s : State R J E) (r : R) (st : RunStatus) (es : List E) : State R J E :=
  { s with status := Function.update s.status r (some st),
           log := Function.update s.log r (s.log r ++ es) }

def setJob [DecidableEq J] (s : State R J E) (j : J) (v : JobView R) : State R J E :=
  { s with job := Function.update s.job j (some v) }

section setRun

variable [DecidableEq R] (s : State R J E) (r : R) (st : RunStatus) (es : List E)

@[simp] theorem setRun_job : (s.setRun r st es).job = s.job := rfl

theorem setRun_status (r' : R) :
    (s.setRun r st es).status r' = if r' = r then some st else s.status r' := by
  simp [setRun, Function.update_apply]

theorem setRun_log (r' : R) :
    (s.setRun r st es).log r' = if r' = r then s.log r ++ es else s.log r' := by
  by_cases hr : r' = r
  · subst hr
    simp [setRun]
  · simp [setRun, hr]

theorem setRun_setRun (st' : RunStatus) (es' : List E) :
    (s.setRun r st es).setRun r st' es' = s.setRun r st' (es ++ es') := by
  simp [setRun]

end setRun

section setJob

variable [DecidableEq J] (s : State R J E) (j : J) (v : JobView R)

@[simp] theorem setJob_status : (s.setJob j v).status = s.status := rfl

@[simp] theorem setJob_log : (s.setJob j v).log = s.log := rfl

theorem setJob_job (j' : J) :
    (s.setJob j v).job j' = if j' = j then some v else s.job j' := by
  simp [setJob, Function.update_apply]

end setJob

/-- No job of the run is pending or leased. -/
def Idle (s : State R J E) (r : R) : Prop :=
  ∀ j v, s.job j = some v → v.run = r → ¬v.active

end State

/-- The statuses a job that is no longer active ends with. -/
def JobStatus.isFinal : JobStatus → Prop
  | .pending | .leased => False
  | _ => True

/-- The results an attempt may settle its run with. -/
def settles (st : RunStatus) : Prop := st.terminal = true ∨ st.waiting = true

theorem not_active_of_final {v : JobView R} {final : JobStatus} (hfinal : JobStatus.isFinal final)
    (live : Bool) : ¬{ v with status := final, live := live }.active := by
  rintro (h | h) <;> simp_all [JobStatus.isFinal]

/-! ## The invariant -/

section Invariant

variable (announces : E → RunStatus → Prop) (allowed : RunStatus → Prop)

/-- The status of a run and an active job of it agree. -/
def Fits (st : RunStatus) (v : JobView R) : Prop :=
  match v.status with
  | .pending => v.quarantined = false ∧ allowed st
  | .leased => if v.quarantined then st = .cleanupRequired ∧ v.live = false else st = .running
  | _ => True

/-- The lockstep of runs and jobs. -/
structure Locked (s : State R J E) : Prop where
  unique : ∀ {j j' v v'}, s.job j = some v → s.job j' = some v' → v.active → v'.active →
    v.run = v'.run → j = j'
  fits : ∀ {j v}, s.job j = some v → v.active →
    ∃ st, s.status v.run = some st ∧ Fits allowed st v
  owed : ∀ {r}, s.status r = some .cleanupRequired →
    ∃ j v, s.job j = some v ∧ v.run = r ∧ v.lost
  closed : ∀ {r st}, s.status r = some st → st.terminal = true →
    ∃ e, (s.log r).getLast? = some e ∧ announces e st

end Invariant

variable {announces : E → RunStatus → Prop} {allowed : RunStatus → Prop} {s : State R J E}

namespace Locked

/-- The active job of a run is the only one. -/
theorem only (h : Locked announces allowed s) {j : J} {v : JobView R} (hj : s.job j = some v)
    (hv : v.active) : ∀ j' v', s.job j' = some v' → v'.run = v.run → v'.active → j' = j :=
  fun _ _ hj' hrun hv' ↦ h.unique hj' hj hv' hv hrun

theorem status_of_pending (h : Locked announces allowed s) {j : J} {v : JobView R}
    (hj : s.job j = some v) (hv : v.status = .pending) :
    v.quarantined = false ∧ ∃ st, s.status v.run = some st ∧ allowed st := by
  obtain ⟨st, hst, hfits⟩ := h.fits hj (.inl hv)
  simp only [Fits, hv] at hfits
  exact ⟨hfits.1, st, hst, hfits.2⟩

theorem status_of_held (h : Locked announces allowed s) {j : J} {v : JobView R}
    (hj : s.job j = some v) (hv : v.held) : s.status v.run = some .running := by
  obtain ⟨st, hst, hfits⟩ := h.fits hj hv.active
  simp only [Fits, hv.1, hv.2, Bool.false_eq_true, if_false] at hfits
  rw [hst, hfits]

theorem status_of_lost (h : Locked announces allowed s) {j : J} {v : JobView R}
    (hj : s.job j = some v) (hv : v.lost) :
    s.status v.run = some .cleanupRequired ∧ v.live = false := by
  obtain ⟨st, hst, hfits⟩ := h.fits hj hv.active
  simp only [Fits, hv.1, hv.2, if_true] at hfits
  exact ⟨by rw [hst, hfits.1], hfits.2⟩

/-- A job of a run that has ended is over. -/
theorem idle_of_terminal (h : Locked announces allowed s)
    (hallowed : ∀ st, allowed st → st.terminal = false) {r : R} {st : RunStatus}
    (hr : s.status r = some st) (hst : st.terminal = true) : s.Idle r := by
  rintro j v hj rfl hactive
  rcases hactive with hv | hv
  · obtain ⟨_, st', hst', hall⟩ := h.status_of_pending hj hv
    rw [hr] at hst'
    cases hst'
    simp [hallowed st hall] at hst
  · cases hq : v.quarantined with
    | false =>
        rw [h.status_of_held hj ⟨hv, hq⟩] at hr
        cases hr
        cases hst
    | true =>
        rw [(h.status_of_lost hj ⟨hv, hq⟩).1] at hr
        cases hr
        cases hst

section DecidableEq

variable [DecidableEq R]

theorem setRun (h : Locked announces allowed s) {r : R} {st : RunStatus} {es : List E}
    (hfits : ∀ j v, s.job j = some v → v.run = r → v.active → Fits allowed st v)
    (howed : st = .cleanupRequired → ∃ j v, s.job j = some v ∧ v.run = r ∧ v.lost)
    (hclosed : st.terminal = true → ∃ e, es.getLast? = some e ∧ announces e st) :
    Locked announces allowed (s.setRun r st es) := by
  refine ⟨?_, ?_, ?_, ?_⟩
  · exact h.unique
  · intro j v hj hv
    rw [State.setRun_status]
    by_cases hr : v.run = r
    · exact ⟨st, by simp [hr], hfits j v hj hr hv⟩
    · simpa [hr] using h.fits hj hv
  · intro r' hr'
    rw [State.setRun_status] at hr'
    by_cases hr : r' = r
    · subst hr
      simp only [if_true, Option.some.injEq] at hr'
      exact howed hr'
    · simp only [hr, if_false] at hr'
      exact h.owed hr'
  · intro r' st' hr' hst'
    rw [State.setRun_status] at hr'
    rw [State.setRun_log]
    by_cases hr : r' = r
    · subst hr
      simp only [if_true, Option.some.injEq] at hr'
      subst hr'
      obtain ⟨e, he, hann⟩ := hclosed hst'
      exact ⟨e, by simp [List.getLast?_append, he], hann⟩
    · simp only [hr, if_false] at hr' ⊢
      exact h.closed hr' hst'

variable [DecidableEq J]

/-- Change the only active job of a run and the run with it. -/
theorem write (h : Locked announces allowed s) {j : J} {v : JobView R} {st : RunStatus}
    {es : List E} {v₀ : JobView R} (hj : s.job j = some v₀) (hv₀ : v₀.active)
    (hrun₀ : v.run = v₀.run) (hfits : v.active → Fits allowed st v) (howed : st = .cleanupRequired → v.lost)
    (hclosed : st.terminal = true → ∃ e, es.getLast? = some e ∧ announces e st) :
    Locked announces allowed ((s.setJob j v).setRun v.run st es) := by
  have hothers : ∀ j' v', s.job j' = some v' → v'.run = v.run → v'.active → j' = j :=
    fun j' v' hj' hrun hv' ↦ h.only hj hv₀ j' v' hj' (hrun.trans hrun₀) hv'
  refine ⟨?_, ?_, ?_, ?_⟩
  · intro j₁ j₂ v₁ v₂ h₁ h₂ hv₁ hv₂ hrun
    simp only [State.setRun_job, State.setJob_job] at h₁ h₂
    split at h₁ <;> split at h₂
    · simp_all
    · cases h₁
      exact (‹j₁ = j›).trans (hothers j₂ v₂ h₂ hrun.symm hv₂).symm
    · cases h₂
      exact (hothers j₁ v₁ h₁ hrun hv₁).trans (‹j₂ = j›).symm
    · exact h.unique h₁ h₂ hv₁ hv₂ hrun
  · intro j₁ v₁ h₁ hv₁
    simp only [State.setRun_job, State.setJob_job, State.setRun_status, State.setJob_status]
      at h₁ ⊢
    split at h₁
    · cases h₁
      exact ⟨st, by simp, hfits hv₁⟩
    · rename_i hne
      have hrun : v₁.run ≠ v.run := fun hc ↦ hne (hothers j₁ v₁ h₁ hc hv₁)
      simpa [hrun] using h.fits h₁ hv₁
  · intro r hr
    simp only [State.setRun_job, State.setJob_job, State.setRun_status, State.setJob_status]
      at hr ⊢
    split at hr
    · rename_i hrun
      exact ⟨j, v, by simp, hrun.symm, howed (by simpa using hr)⟩
    · rename_i hrun
      obtain ⟨j₁, v₁, h₁, hrun₁, hlost⟩ := h.owed hr
      have hne : j₁ ≠ j := by
        rintro rfl
        rw [hj] at h₁
        cases h₁
        exact hrun (hrun₁.symm.trans hrun₀.symm)
      exact ⟨j₁, v₁, by simp [hne, h₁], hrun₁, hlost⟩
  · intro r st' hr hst'
    simp only [State.setRun_status, State.setRun_log, State.setJob_status, State.setJob_log]
      at hr ⊢
    split at hr
    · rename_i hrun
      cases hr
      obtain ⟨e, he, hann⟩ := hclosed hst'
      exact ⟨e, by simp [hrun, List.getLast?_append, he], hann⟩
    · rename_i hrun
      simpa [hrun] using h.closed hr hst'

end DecidableEq

/-- Change the only active job of a run whose status does not depend on it. -/
theorem setJob [DecidableEq J] (h : Locked announces allowed s) {j : J} {v : JobView R}
    (hothers : ∀ j' v', s.job j' = some v' → v'.run = v.run → v'.active → j' = j)
    (hkeep : ∀ v₀, s.job j = some v₀ → ¬v₀.lost)
    (hfits : v.active → ∃ st, s.status v.run = some st ∧ Fits allowed st v) :
    Locked announces allowed (s.setJob j v) := by
  refine ⟨?_, ?_, ?_, ?_⟩
  · intro j₁ j₂ v₁ v₂ h₁ h₂ hv₁ hv₂ hrun
    simp only [State.setJob_job] at h₁ h₂
    split at h₁ <;> split at h₂
    · simp_all
    · cases h₁
      exact (‹j₁ = j›).trans (hothers j₂ v₂ h₂ hrun.symm hv₂).symm
    · cases h₂
      exact (hothers j₁ v₁ h₁ hrun hv₁).trans (‹j₂ = j›).symm
    · exact h.unique h₁ h₂ hv₁ hv₂ hrun
  · intro j₁ v₁ h₁ hv₁
    simp only [State.setJob_job] at h₁
    split at h₁
    · cases h₁
      exact hfits hv₁
    · exact h.fits h₁ hv₁
  · intro r hr
    obtain ⟨j₁, v₁, h₁, hrun₁, hlost⟩ := h.owed hr
    have hj : j₁ ≠ j := by
      rintro rfl
      exact hkeep v₁ h₁ hlost
    exact ⟨j₁, v₁, by simp [State.setJob_job, hj, h₁], hrun₁, hlost⟩
  · exact h.closed

end Locked

/-! ## The steps -/

variable [DecidableEq R] [DecidableEq J]

/-- The steps. `announces` tells which status an event reports, `allowed` in
which statuses a run may be given a new job. -/
inductive Step (announces : E → RunStatus → Prop) (allowed : RunStatus → Prop) :
    State R J E → State R J E → Prop
  | spawn {s : State R J E} (r : R) :
      s.status r = none → Step announces allowed s (s.setRun r .queued [])
  | enqueue {s : State R J E} (j : J) (r : R) (st : RunStatus) :
      s.job j = none → s.status r = some st → allowed st → s.Idle r →
      Step announces allowed s (s.setJob j ⟨r, .pending, false, false⟩)
  | claim {s : State R J E} (j : J) (v : JobView R) :
      s.job j = some v → v.status = .pending →
      Step announces allowed s ((s.setJob j { v with status := .leased, live := true }).setRun v.run .running [])
  | settle {s : State R J E} (j : J) (v : JobView R) (st : RunStatus) (final : JobStatus) (e : E) :
      s.job j = some v → v.held → settles st → announces e st → JobStatus.isFinal final →
      Step announces allowed s ((s.setJob j { v with status := final, live := false }).setRun v.run st [e])
  | orphan {s : State R J E} (r : R) (cur st : RunStatus) (e : E) :
      s.status r = some cur → cur.terminal = false → s.Idle r → settles st →
      announces e st → Step announces allowed s (s.setRun r st [e])
  | finish {s : State R J E} (j : J) (v : JobView R) (final : JobStatus) :
      s.job j = some v → v.status = .leased → v.live = true → JobStatus.isFinal final →
      Step announces allowed s (s.setJob j { v with status := final, live := false })
  | quarantine {s : State R J E} (j : J) (v : JobView R) (e : E) :
      s.job j = some v → v.held →
      Step announces allowed s ((s.setJob j { v with quarantined := true, live := false }).setRun v.run
        .cleanupRequired [e])
  | confirm {s : State R J E} (j : J) (v : JobView R) (e : E) :
      s.job j = some v → v.lost → announces e .failed →
      Step announces allowed s ((s.setJob j { v with status := .dead, live := false }).setRun v.run .failed [e])
  | cancelPending {s : State R J E} (j : J) (v : JobView R) (e : E) :
      s.job j = some v → v.status = .pending → announces e .canceled →
      Step announces allowed s ((s.setJob j { v with status := .canceled }).setRun v.run .canceled [e])
  | cancelWaiting {s : State R J E} (r : R) (cur : RunStatus) (e : E) :
      s.status r = some cur → cur.waiting = true →
      (∀ j v, s.job j = some v → v.run = r → v.active → v.quarantined = true) →
      announces e .canceled → Step announces allowed s (s.setRun r .canceled [e])
  | note {s : State R J E} (r : R) (e : E) :
      s.status r = some .running → Step announces allowed s (s.setRun r .running [e])

/-- Every step keeps the lockstep. -/
theorem Step.locked {s' : State R J E} (hstep : Step announces allowed s s')
    (h : Locked announces allowed s) : Locked announces allowed s' := by
  cases hstep with
  | spawn r hr =>
      refine h.setRun ?_ (by simp) (by simp [RunStatus.terminal])
      rintro j v hj rfl hv
      obtain ⟨st, hst, _⟩ := h.fits hj hv
      rw [hr] at hst
      cases hst
  | enqueue j r st hj hr hall hidle =>
      refine h.setJob ?_ (by simp [hj]) fun _ ↦ ⟨st, hr, by simp [Fits, hall]⟩
      intro j' v' hj' hrun hv'
      exact absurd hv' (hidle j' v' hj' hrun)
  | claim j v hj hv =>
      have hq := (h.status_of_pending hj hv).1
      exact h.write hj (.inl hv) rfl (by simp [Fits, hq]) (by simp) (by simp [RunStatus.terminal])
  | settle j v st final e hj hv hst he hfinal =>
      refine h.write hj hv.active rfl ?_ ?_ fun _ ↦ ⟨e, rfl, he⟩
      · exact fun hc ↦ absurd hc (not_active_of_final hfinal _)
      · rintro rfl
        simp [settles, RunStatus.terminal, RunStatus.waiting] at hst
  | orphan r cur st e hr hcur hidle hst he =>
      refine h.setRun ?_ ?_ fun _ ↦ ⟨e, rfl, he⟩
      · exact fun j v hj hrun hv ↦ absurd hv (hidle j v hj hrun)
      · rintro rfl
        simp [settles, RunStatus.terminal, RunStatus.waiting] at hst
  | finish j v final hj hv hlive hfinal =>
      have hothers := h.only hj (.inr hv)
      refine h.setJob hothers ?_ fun hc ↦ absurd hc (not_active_of_final hfinal _)
      rintro v₀ hj₀ hlost
      rw [hj] at hj₀
      cases hj₀
      simp [(h.status_of_lost hj hlost).2] at hlive
  | quarantine j v e hj hv =>
      refine h.write hj hv.active rfl ?_ (fun _ ↦ ⟨hv.1, rfl⟩)
        (by simp [RunStatus.terminal])
      simp [Fits, hv.1]
  | confirm j v e hj hv he =>
      refine h.write hj hv.active rfl ?_ (by simp) fun _ ↦ ⟨e, rfl, he⟩
      simp [JobView.active]
  | cancelPending j v e hj hv he =>
      refine h.write hj (.inl hv) rfl ?_ (by simp) fun _ ↦ ⟨e, rfl, he⟩
      simp [JobView.active]
  | cancelWaiting r cur e hr hcur hquiet he =>
      refine h.setRun ?_ (by simp) fun _ ↦ ⟨e, rfl, he⟩
      rintro j v hj rfl hv
      have hq := hquiet j v hj rfl hv
      rcases hv with hv | hv
      · simp [(h.status_of_pending hj hv).1] at hq
      · rw [(h.status_of_lost hj ⟨hv, hq⟩).1] at hr
        cases hr
        cases hcur
  | note r e hr =>
      refine h.setRun ?_ (by simp) (by simp [RunStatus.terminal])
      rintro j v hj rfl hv
      obtain ⟨st, hst, hfits⟩ := h.fits hj hv
      rw [hr] at hst
      cases hst
      exact hfits

/-! ## What a step leaves alone -/

/-- A step leaves the status and the log of a run as they are. -/
def Spares (s s' : State R J E) (r : R) : Prop := s'.status r = s.status r ∧ s'.log r = s.log r

/-- A run that a step may move: it has not ended, and its pending job, if it
has one and the run is not running, is pending no more. -/
structure Moves (s s' : State R J E) (r : R) : Prop where
  open_ : ∀ st, s.status r = some st → st.terminal = false
  taken : s.status r ≠ some .running → ∀ j v, s.job j = some v → v.run = r →
    v.status = .pending → ∀ v', s'.job j = some v' → v'.status ≠ .pending

omit [DecidableEq R] [DecidableEq J] in
theorem Moves.of_running {s s' : State R J E} {r : R} (hr : s.status r = some .running) :
    Moves s s' r := by
  refine ⟨?_, fun hne ↦ absurd hr hne⟩
  intro st hst
  rw [hr] at hst
  cases hst
  rfl

omit [DecidableEq J] in
theorem spares_setRun {s s' : State R J E} {r r' : R} {st : RunStatus} {es : List E}
    (hstatus : s'.status = s.status) (hlog : s'.log = s.log) (hr : r' ≠ r) :
    Spares s (s'.setRun r st es) r' := by
  simp [Spares, State.setRun_status, State.setRun_log, hr, hstatus, hlog]

omit [DecidableEq R] [DecidableEq J] in
/-- When the pending job of a run stops being pending, the run may move. -/
theorem Locked.moves_of_pending {s' : State R J E} (h : Locked announces allowed s)
    (hallowed : ∀ st, allowed st → st.terminal = false) {j : J} {v : JobView R}
    (hj : s.job j = some v) (hv : v.status = .pending)
    (hj' : ∀ v', s'.job j = some v' → v'.status ≠ .pending) : Moves s s' v.run := by
  obtain ⟨_, st, hst, hall⟩ := h.status_of_pending hj hv
  constructor
  · intro st' hst'
    rw [hst] at hst'
    cases hst'
    exact hallowed st hall
  · intro _ j' v' hjv' hrun hv'
    have hsame : j' = j := h.unique hjv' hj (.inl hv') (.inl hv) hrun
    rw [hsame]
    exact hj'

/-- A step leaves every run alone but one, which was free to move. -/
theorem Step.spares_or_moves {s' : State R J E} (hstep : Step announces allowed s s')
    (h : Locked announces allowed s) (hallowed : ∀ st, allowed st → st.terminal = false) (r : R) :
    Spares s s' r ∨ Moves s s' r := by
  cases hstep with
  | spawn r₀ hr₀ =>
      by_cases hr : r = r₀
      · subst hr
        refine .inr ⟨by simp [hr₀], fun _ j v hj hrun hv ↦ ?_⟩
        subst hrun
        obtain ⟨_, st, hst, _⟩ := h.status_of_pending hj hv
        rw [hr₀] at hst
        cases hst
      · exact .inl (spares_setRun rfl rfl hr)
  | enqueue j r₀ st hj hr₀ hall hidle => exact .inl ⟨rfl, rfl⟩
  | claim j v hj hv =>
      by_cases hr : r = v.run
      · subst hr
        exact .inr (h.moves_of_pending hallowed hj hv (by simp [State.setJob_job]))
      · exact .inl (spares_setRun rfl rfl hr)
  | settle j v st final e hj hv hst he hfinal =>
      by_cases hr : r = v.run
      · subst hr
        exact .inr (Moves.of_running (h.status_of_held hj hv))
      · exact .inl (spares_setRun rfl rfl hr)
  | orphan r₀ cur st e hcur hopen hidle hst he =>
      by_cases hr : r = r₀
      · subst hr
        refine .inr ⟨by simp [hcur, hopen], fun _ j v hj hrun hv ↦ ?_⟩
        exact absurd (Or.inl hv) (hidle j v hj hrun)
      · exact .inl (spares_setRun rfl rfl hr)
  | finish j v final hj hv hlive hfinal => exact .inl ⟨rfl, rfl⟩
  | quarantine j v e hj hv =>
      by_cases hr : r = v.run
      · subst hr
        exact .inr (Moves.of_running (h.status_of_held hj hv))
      · exact .inl (spares_setRun rfl rfl hr)
  | confirm j v e hj hv he =>
      by_cases hr : r = v.run
      · subst hr
        have hcleanup := (h.status_of_lost hj hv).1
        refine .inr ⟨by simp [hcleanup, RunStatus.terminal], fun _ j' v' hj' hrun hv' ↦ ?_⟩
        have hsame : j' = j := h.unique hj' hj (.inl hv') hv.active hrun
        subst hsame
        rw [hj] at hj'
        cases hj'
        simp [hv.1] at hv'
      · exact .inl (spares_setRun rfl rfl hr)
  | cancelPending j v e hj hv he =>
      by_cases hr : r = v.run
      · subst hr
        exact .inr (h.moves_of_pending hallowed hj hv (by simp [State.setJob_job]))
      · exact .inl (spares_setRun rfl rfl hr)
  | cancelWaiting r₀ cur e hcur hwait hquiet he =>
      by_cases hr : r = r₀
      · subst hr
        refine .inr ⟨?_, fun _ j v hj hrun hv ↦ ?_⟩
        · intro st hst
          rw [hcur] at hst
          cases hst
          cases cur <;> simp_all [RunStatus.terminal, RunStatus.waiting]
        · have hq := hquiet j v hj hrun (.inl hv)
          simp [(h.status_of_pending hj hv).1] at hq
      · exact .inl (spares_setRun rfl rfl hr)
  | note r₀ e hr₀ =>
      by_cases hr : r = r₀
      · subst hr
        exact .inr (Moves.of_running hr₀)
      · exact .inl (spares_setRun rfl rfl hr)

/-- A run that has ended keeps its status and its log. -/
theorem Step.ended {s' : State R J E} (hstep : Step announces allowed s s')
    (h : Locked announces allowed s) (hallowed : ∀ st, allowed st → st.terminal = false) {r : R}
    {st : RunStatus} (hr : s.status r = some st) (hst : st.terminal = true) : Spares s s' r := by
  rcases hstep.spares_or_moves h hallowed r with hspares | hmoves
  · exact hspares
  · simp [hmoves.open_ st hr] at hst

/-- The log of a run only grows. -/
theorem Step.log_grows {s' : State R J E} (hstep : Step announces allowed s s') (r : R) :
    ∃ es, s'.log r = s.log r ++ es := by
  have hset : ∀ (t : State R J E) (r₀ : R) (st : RunStatus) (es : List E), t.log = s.log →
      ∃ es', (t.setRun r₀ st es).log r = s.log r ++ es' := by
    intro t r₀ st es ht
    rw [State.setRun_log, ht]
    by_cases hr : r = r₀
    · subst hr
      exact ⟨es, if_pos rfl⟩
    · exact ⟨[], by rw [if_neg hr, List.append_nil]⟩
  have hsame : ∃ es, s.log r = s.log r ++ es := ⟨[], (List.append_nil _).symm⟩
  cases hstep with
  | spawn r₀ hr => exact hset _ _ _ _ rfl
  | enqueue j r₀ st hj hr hall hidle => exact hsame
  | claim j v hj hv => exact hset _ _ _ _ rfl
  | settle j v st final e hj hv hst he hfinal => exact hset _ _ _ _ rfl
  | orphan r₀ cur st e hcur hopen hidle hst he => exact hset _ _ _ _ rfl
  | finish j v final hj hv hlive hfinal => exact hsame
  | quarantine j v e hj hv => exact hset _ _ _ _ rfl
  | confirm j v e hj hv he => exact hset _ _ _ _ rfl
  | cancelPending j v e hj hv he => exact hset _ _ _ _ rfl
  | cancelWaiting r₀ cur e hcur hwait hquiet he => exact hset _ _ _ _ rfl
  | note r₀ e hr => exact hset _ _ _ _ rfl

/-- A run that waits or has ended was there before the step, or the step
reports it. -/
theorem Step.enters {s' : State R J E} (hstep : Step announces allowed s s') {r : R}
    {st : RunStatus} (hr : s'.status r = some st) (hst : settles st) :
    Spares s s' r ∨ ∃ e, s'.log r = s.log r ++ [e] ∧ announces e st := by
  have hset : ∀ (t : State R J E) (r₀ : R) (st₀ : RunStatus) (es : List E),
      t.status = s.status → t.log = s.log → (t.setRun r₀ st₀ es).status r = some st →
      (st₀ = st → ∃ e, es = [e] ∧ announces e st) →
      Spares s (t.setRun r₀ st₀ es) r ∨
        ∃ e, (t.setRun r₀ st₀ es).log r = s.log r ++ [e] ∧ announces e st := by
    intro t r₀ st₀ es hstatus hlog hmoved hreport
    by_cases hr₀ : r = r₀
    · subst hr₀
      rw [State.setRun_status, if_pos rfl, Option.some.injEq] at hmoved
      obtain ⟨e, rfl, he⟩ := hreport hmoved
      exact .inr ⟨e, by simp [State.setRun_log, hlog], he⟩
    · exact .inl (spares_setRun hstatus hlog hr₀)
  have hsilent : ∀ st₀ : RunStatus, ¬settles st₀ → ∀ es : List E,
      st₀ = st → ∃ e, es = [e] ∧ announces e st := by
    rintro st₀ hnot es rfl
    exact absurd hst hnot
  have hunsettled : ¬settles .queued ∧ ¬settles .running ∧ ¬settles .cleanupRequired := by
    simp [settles, RunStatus.terminal, RunStatus.waiting]
  cases hstep with
  | spawn r₀ hnone => exact hset _ _ _ _ rfl rfl hr (hsilent _ hunsettled.1 _)
  | enqueue j r₀ st₀ hj hr₀ hall hidle => exact .inl ⟨rfl, rfl⟩
  | claim j v hj hv => exact hset _ _ _ _ rfl rfl hr (hsilent _ hunsettled.2.1 _)
  | settle j v st₀ final e hj hv hsettles he hfinal =>
      exact hset _ _ _ _ rfl rfl hr fun hsame ↦ ⟨e, rfl, hsame ▸ he⟩
  | orphan r₀ cur st₀ e hcur hopen hidle hsettles he =>
      exact hset _ _ _ _ rfl rfl hr fun hsame ↦ ⟨e, rfl, hsame ▸ he⟩
  | finish j v final hj hv hlive hfinal => exact .inl ⟨rfl, rfl⟩
  | quarantine j v e hj hv => exact hset _ _ _ _ rfl rfl hr (hsilent _ hunsettled.2.2 _)
  | confirm j v e hj hv he => exact hset _ _ _ _ rfl rfl hr fun hsame ↦ ⟨e, rfl, hsame ▸ he⟩
  | cancelPending j v e hj hv he =>
      exact hset _ _ _ _ rfl rfl hr fun hsame ↦ ⟨e, rfl, hsame ▸ he⟩
  | cancelWaiting r₀ cur e hcur hwait hquiet he =>
      exact hset _ _ _ _ rfl rfl hr fun hsame ↦ ⟨e, rfl, hsame ▸ he⟩
  | note r₀ e hrunning => exact hset _ _ _ _ rfl rfl hr (hsilent _ hunsettled.2.1 _)

/-! ## Runs of the machine -/

/-- Any number of steps. -/
abbrev Steps (announces : E → RunStatus → Prop) (allowed : RunStatus → Prop) :
    State R J E → State R J E → Prop :=
  Relation.ReflTransGen (Step announces allowed)

namespace Steps

variable {s' : State R J E}

theorem locked (hsteps : Steps announces allowed s s') (h : Locked announces allowed s) :
    Locked announces allowed s' := by
  induction hsteps with
  | refl => exact h
  | tail _ hstep ih => exact hstep.locked ih

/-- A run that has ended stays as it is. -/
theorem ended (hsteps : Steps announces allowed s s') (h : Locked announces allowed s)
    (hallowed : ∀ st, allowed st → st.terminal = false) {r : R} {st : RunStatus}
    (hr : s.status r = some st) (hst : st.terminal = true) : Spares s s' r := by
  induction hsteps with
  | refl => exact ⟨rfl, rfl⟩
  | tail hsteps hstep ih =>
      have hspares := hstep.ended (locked hsteps h) hallowed (ih.1.trans hr) hst
      exact ⟨hspares.1.trans ih.1, hspares.2.trans ih.2⟩

theorem log_grows (hsteps : Steps announces allowed s s') (r : R) :
    ∃ es, s'.log r = s.log r ++ es := by
  induction hsteps with
  | refl => exact ⟨[], (List.append_nil _).symm⟩
  | tail _ hstep ih =>
      obtain ⟨es, hes⟩ := ih
      obtain ⟨es', hes'⟩ := hstep.log_grows r
      exact ⟨es ++ es', by rw [hes', hes, List.append_assoc]⟩

/-- A run that waits or has ended is where it was, or reported it last. -/
theorem enters (hsteps : Steps announces allowed s s') {r : R} {st : RunStatus}
    (hr : s'.status r = some st) (hst : settles st) :
    Spares s s' r ∨ ∃ es e, s'.log r = s.log r ++ es ++ [e] ∧ announces e st := by
  induction hsteps with
  | refl => exact .inl ⟨rfl, rfl⟩
  | @tail t u hsteps hstep ih =>
      obtain ⟨es, hes⟩ := log_grows hsteps r
      rcases hstep.enters hr hst with hspares | ⟨e, he, hannounces⟩
      · rcases ih (hspares.1 ▸ hr) with hfirst | ⟨es', e, hes', he⟩
        · exact .inl ⟨hspares.1.trans hfirst.1, hspares.2.trans hfirst.2⟩
        · exact .inr ⟨es', e, hspares.2.trans hes', he⟩
      · exact .inr ⟨es, e, by rw [he, hes], hannounces⟩

end Steps

/-! ## Reporting once -/

/-- A step appends at most one event to each log. -/
def ReportsOnce (s s' : State R J E) : Prop :=
  ∀ r, s'.log r = s.log r ∨ ∃ e, s'.log r = s.log r ++ [e]

omit [DecidableEq J] in
theorem reportsOnce_setRun {t : State R J E} {r : R} {st : RunStatus} {es : List E}
    (hlog : t.log = s.log) (hes : es = [] ∨ ∃ e, es = [e]) :
    ReportsOnce s (t.setRun r st es) := by
  intro r'
  rw [State.setRun_log, hlog]
  by_cases hr : r' = r
  · subst hr
    rcases hes with rfl | ⟨e, rfl⟩
    · exact .inl (by simp)
    · exact .inr ⟨e, by simp⟩
  · exact .inl (if_neg hr)

theorem Step.reportsOnce {s' : State R J E} (hstep : Step announces allowed s s') :
    ReportsOnce s s' := by
  cases hstep with
  | spawn r hr => exact reportsOnce_setRun rfl (.inl rfl)
  | enqueue j r st hj hr hall hidle => exact fun _ ↦ .inl rfl
  | claim j v hj hv => exact reportsOnce_setRun rfl (.inl rfl)
  | settle j v st final e hj hv hst he hfinal => exact reportsOnce_setRun rfl (.inr ⟨e, rfl⟩)
  | orphan r cur st e hcur hopen hidle hst he => exact reportsOnce_setRun rfl (.inr ⟨e, rfl⟩)
  | finish j v final hj hv hlive hfinal => exact fun _ ↦ .inl rfl
  | quarantine j v e hj hv => exact reportsOnce_setRun rfl (.inr ⟨e, rfl⟩)
  | confirm j v e hj hv he => exact reportsOnce_setRun rfl (.inr ⟨e, rfl⟩)
  | cancelPending j v e hj hv he => exact reportsOnce_setRun rfl (.inr ⟨e, rfl⟩)
  | cancelWaiting r cur e hcur hwait hquiet he => exact reportsOnce_setRun rfl (.inr ⟨e, rfl⟩)
  | note r e hr => exact reportsOnce_setRun rfl (.inr ⟨e, rfl⟩)

theorem reportsOnce_of_reflGen {s' : State R J E}
    (h : Relation.ReflGen (Step announces allowed) s s') : ReportsOnce s s' := by
  cases h with
  | refl => exact fun _ ↦ .inl rfl
  | single hstep => exact hstep.reportsOnce

/-- A run that waits for nothing and has no job but a lost one. -/
def State.Spent (s : State R J E) (r : R) : Prop :=
  (∀ j v, s.job j = some v → v.run = r → v.active → v.quarantined = true) ∧
    ∀ st, s.status r = some st → st.waiting = false

/-- Every run that reports reports once and is spent by it. -/
def Closes (s s' : State R J E) : Prop :=
  ∀ r, (s'.log r = s.log r ∧ (s.Spent r → s'.Spent r)) ∨
    (¬s.Spent r ∧ s'.Spent r ∧ ∃ e, s'.log r = s.log r ++ [e])

namespace Closes

variable {s' s'' : State R J E}

omit [DecidableEq R] [DecidableEq J] in
theorem refl (s : State R J E) : Closes s s := fun _ ↦ .inl ⟨rfl, id⟩

omit [DecidableEq R] [DecidableEq J] in
theorem trans (h : Closes s s') (h' : Closes s' s'') : Closes s s'' := by
  intro r
  rcases h r with ⟨hlog, hkeep⟩ | ⟨hopen, hspent, e, hlog⟩
  · rcases h' r with ⟨hlog', hkeep'⟩ | ⟨hopen', hspent', e, hlog'⟩
    · exact .inl ⟨hlog'.trans hlog, fun hs ↦ hkeep' (hkeep hs)⟩
    · exact .inr ⟨fun hs ↦ hopen' (hkeep hs), hspent', e, by rw [hlog', hlog]⟩
  · rcases h' r with ⟨hlog', hkeep'⟩ | ⟨hopen', _, _⟩
    · exact .inr ⟨hopen, hkeep' hspent, e, hlog'.trans hlog⟩
    · exact absurd hspent hopen'

omit [DecidableEq R] [DecidableEq J] in
theorem reportsOnce (h : Closes s s') : ReportsOnce s s' := by
  intro r
  rcases h r with ⟨hlog, _⟩ | ⟨_, _, e, hlog⟩
  · exact .inl hlog
  · exact .inr ⟨e, hlog⟩

/-- The only active job of a run that was not spent is written, with its run:
silently, or to where the run is spent. -/
theorem write (h : Locked announces allowed s) {j : J} {v v₀ : JobView R} {st : RunStatus}
    {es : List E} (hj : s.job j = some v₀) (hv₀ : v₀.active) (hrun : v.run = v₀.run)
    (hopen : v₀.quarantined = false)
    (hes : es = [] ∨
      (∃ e, es = [e]) ∧ (v.active → v.quarantined = true) ∧ st.waiting = false) :
    Closes s ((s.setJob j v).setRun v.run st es) := by
  have hunspent : ¬s.Spent v.run := by
    intro hspent
    have hquarantined := hspent.1 j v₀ hj hrun.symm hv₀
    simp [hopen] at hquarantined
  intro r
  by_cases hr : r = v.run
  · subst hr
    rcases hes with rfl | ⟨⟨e, rfl⟩, hv, hst⟩
    · exact .inl ⟨by simp [State.setRun_log], fun hs ↦ absurd hs hunspent⟩
    · refine .inr ⟨hunspent, ⟨?_, ?_⟩, e, by simp [State.setRun_log]⟩
      · intro j' v' hj' hrun' hv'
        rw [State.setRun_job, State.setJob_job] at hj'
        split at hj'
        · cases hj'
          exact hv hv'
        · rename_i hne
          exact absurd (h.only hj hv₀ j' v' hj' (hrun'.trans hrun) hv') hne
      · intro st' hst'
        rw [State.setRun_status, if_pos rfl] at hst'
        cases hst'
        exact hst
  · refine .inl ⟨by simp [State.setRun_log, hr], ?_⟩
    rintro ⟨hjobs, hstatus⟩
    refine ⟨?_, ?_⟩
    · intro j' v' hj' hrun' hv'
      rw [State.setRun_job, State.setJob_job] at hj'
      split at hj'
      · cases hj'
        exact absurd hrun'.symm hr
      · exact hjobs j' v' hj' hrun' hv'
    · intro st' hst'
      rw [State.setRun_status, if_neg hr] at hst'
      exact hstatus st' hst'

end Closes

/-- Steps in which every run reports at most once. -/
def Turn (announces : E → RunStatus → Prop) (allowed : RunStatus → Prop)
    (s s' : State R J E) : Prop :=
  Steps announces allowed s s' ∧ Closes s s'

namespace Turn

variable {s' s'' : State R J E}

theorem refl (s : State R J E) : Turn announces allowed s s := ⟨.refl, .refl s⟩

theorem trans (h : Turn announces allowed s s') (h' : Turn announces allowed s' s'') :
    Turn announces allowed s s'' := ⟨h.1.trans h'.1, h.2.trans h'.2⟩

theorem claim (h : Locked announces allowed s) {j : J} {v : JobView R}
    (hj : s.job j = some v) (hv : v.status = .pending) :
    Turn announces allowed s
      ((s.setJob j { v with status := .leased, live := true }).setRun v.run .running []) :=
  ⟨.single (.claim j v hj hv),
    .write h hj (.inl hv) rfl (h.status_of_pending hj hv).1 (.inl rfl)⟩

theorem quarantine (h : Locked announces allowed s) {j : J} {v : JobView R} (e : E)
    (hj : s.job j = some v) (hv : v.held) :
    Turn announces allowed s
      ((s.setJob j { v with quarantined := true, live := false }).setRun v.run .cleanupRequired
        [e]) :=
  ⟨.single (.quarantine j v e hj hv),
    .write h hj hv.active rfl hv.2 (.inr ⟨⟨e, rfl⟩, fun _ ↦ rfl, rfl⟩)⟩

theorem cancelPending (h : Locked announces allowed s) {j : J} {v : JobView R} {e : E}
    (hj : s.job j = some v) (hv : v.status = .pending) (he : announces e .canceled) :
    Turn announces allowed s
      ((s.setJob j { v with status := .canceled }).setRun v.run .canceled [e]) := by
  refine ⟨.single (.cancelPending j v e hj hv he), ?_⟩
  refine .write h hj (.inl hv) rfl (h.status_of_pending hj hv).1 (.inr ⟨⟨e, rfl⟩, ?_, rfl⟩)
  simp [JobView.active]

theorem cancelWaiting {r : R} {cur : RunStatus} {e : E} (hr : s.status r = some cur)
    (hcur : cur.waiting = true)
    (hquiet : ∀ j v, s.job j = some v → v.run = r → v.active → v.quarantined = true)
    (he : announces e .canceled) : Turn announces allowed s (s.setRun r .canceled [e]) := by
  refine ⟨.single (.cancelWaiting r cur e hr hcur hquiet he), ?_⟩
  intro r'
  by_cases hr' : r' = r
  · subst hr'
    refine .inr ⟨?_, ⟨hquiet, ?_⟩, e, by simp [State.setRun_log]⟩
    · intro hspent
      have hwaits := hspent.2 cur hr
      rw [hcur] at hwaits
      cases hwaits
    · intro st hst
      rw [State.setRun_status, if_pos rfl] at hst
      cases hst
      rfl
  · refine .inl ⟨by simp [State.setRun_log, hr'], ?_⟩
    rintro ⟨hjobs, hstatus⟩
    refine ⟨hjobs, ?_⟩
    intro st hst
    rw [State.setRun_status, if_neg hr'] at hst
    exact hstatus st hst

end Turn

end ShejaneRuntime.Lockstep
