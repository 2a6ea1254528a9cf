import Mathlib.Logic.Relation

/-!
# Labelled transition systems

Runs are finite sequences of steps. A run may be restricted to steps that
meet a condition on the label and the state it starts from, which is how
a property that holds only under a condition on the steps is stated.
-/

namespace ShejaneRuntime.Lib

variable {σ τ ι κ : Type}

structure System (σ ι : Type) where
  initial : σ → Prop
  step : ι → σ → σ → Prop

namespace System

/-- A run every step of which meets `ok`. -/
inductive Run (S : System σ ι) (ok : ι → σ → Prop) : σ → σ → Prop
  | refl (s : σ) : Run S ok s s
  | tail {s t u : σ} {i : ι} : Run S ok s t → ok i t → S.step i t u → Run S ok s u

/-- The states a run from an initial state reaches by steps that meet `ok`. -/
def ReachableBy (S : System σ ι) (ok : ι → σ → Prop) (s : σ) : Prop :=
  ∃ s₀, S.initial s₀ ∧ S.Run ok s₀ s

def Reachable (S : System σ ι) : σ → Prop := S.ReachableBy fun _ _ ↦ True

variable {S : System σ ι} {ok : ι → σ → Prop} {P : σ → Prop}

/-- What every permitted step preserves, every run preserves. -/
theorem Run.preserves (hstep : ∀ i s t, P s → ok i s → S.step i s t → P t) {s t : σ}
    (hrun : S.Run ok s t) (hs : P s) : P t := by
  induction hrun with
  | refl => exact hs
  | tail _ hok hst ih => exact hstep _ _ _ ih hok hst

theorem Run.trans {s t u : σ} (hst : S.Run ok s t) (htu : S.Run ok t u) : S.Run ok s u := by
  induction htu with
  | refl => exact hst
  | tail _ hok hstep ih => exact ih.tail hok hstep

theorem Run.single {s t : σ} {i : ι} (hok : ok i s) (hstep : S.step i s t) : S.Run ok s t :=
  (Run.refl s).tail hok hstep

theorem Run.weaken {ok' : ι → σ → Prop} (himp : ∀ i s, ok i s → ok' i s) {s t : σ}
    (hrun : S.Run ok s t) : S.Run ok' s t := by
  induction hrun with
  | refl => exact Run.refl _
  | tail _ hok hstep ih => exact ih.tail (himp _ _ hok) hstep

theorem ReachableBy.weaken {ok' : ι → σ → Prop} (himp : ∀ i s, ok i s → ok' i s) {s : σ}
    (h : S.ReachableBy ok s) : S.ReachableBy ok' s := by
  obtain ⟨s₀, hinit, hrun⟩ := h
  exact ⟨s₀, hinit, hrun.weaken himp⟩

theorem ReachableBy.trans {s t : σ} (h : S.ReachableBy ok s) (hrun : S.Run ok s t) :
    S.ReachableBy ok t := by
  obtain ⟨s₀, hinit, hrun₀⟩ := h
  exact ⟨s₀, hinit, hrun₀.trans hrun⟩

theorem ReachableBy.step {s t : σ} {i : ι} (h : S.ReachableBy ok s) (hok : ok i s)
    (hstep : S.step i s t) : S.ReachableBy ok t :=
  h.trans (.single hok hstep)

/-- A state that a list of permitted labels leads to, one after the other. -/
theorem ReachableBy.foldlM {f : σ → ι → Option σ} {labels : List ι} {s t : σ}
    (hnext : ∀ s i t, f s i = some t → ok i s ∧ S.step i s t) (h : S.ReachableBy ok s)
    (hrun : labels.foldlM f s = some t) : S.ReachableBy ok t := by
  induction labels generalizing s with
  | nil =>
      cases hrun
      exact h
  | cons i rest ih =>
      rw [List.foldlM_cons] at hrun
      obtain ⟨u, hu, hrest⟩ := Option.bind_eq_some_iff.mp hrun
      obtain ⟨hok, hstep⟩ := hnext s i u hu
      exact ih (h.step hok hstep) hrest

/-- A run together with the labels of its steps. -/
inductive Path (S : System σ ι) (ok : ι → σ → Prop) : List ι → σ → σ → Prop
  | nil (s : σ) : Path S ok [] s s
  | snoc {labels : List ι} {s t u : σ} {i : ι} : Path S ok labels s t → ok i t → S.step i t u →
      Path S ok (labels ++ [i]) s u

theorem Path.run {labels : List ι} {s t : σ} (h : S.Path ok labels s t) : S.Run ok s t := by
  induction h with
  | nil => exact Run.refl _
  | snoc _ hok hstep ih => exact ih.tail hok hstep

theorem Path.cons {labels : List ι} {s t u : σ} {i : ι} (hok : ok i s) (hstep : S.step i s t)
    (h : S.Path ok labels t u) : S.Path ok (i :: labels) s u := by
  induction h with
  | nil => exact Path.snoc (.nil _) hok hstep
  | snoc _ hok' hstep' ih => exact (ih hstep).snoc hok' hstep'

/-- The run of the labels that lead from one state to another. -/
theorem Path.foldlM {f : σ → ι → Option σ} {labels : List ι} {s t : σ}
    (hnext : ∀ s i t, f s i = some t → ok i s ∧ S.step i s t)
    (hrun : labels.foldlM f s = some t) : S.Path ok labels s t := by
  induction labels generalizing s with
  | nil =>
      cases hrun
      exact .nil _
  | cons i rest ih =>
      rw [List.foldlM_cons] at hrun
      obtain ⟨u, hu, hrest⟩ := Option.bind_eq_some_iff.mp hrun
      obtain ⟨hok, hstep⟩ := hnext s i u hu
      exact (ih hrest).cons hok hstep

/-- The invariant rule: what holds initially and is preserved by every
permitted step holds in every state reached. -/
theorem ReachableBy.invariant (hinit : ∀ s, S.initial s → P s)
    (hstep : ∀ i s t, P s → ok i s → S.step i s t → P t) {s : σ} (h : S.ReachableBy ok s) :
    P s := by
  obtain ⟨s₀, h₀, hrun⟩ := h
  exact hrun.preserves hstep (hinit s₀ h₀)

/-- A relation that every permitted step from a state with `P` satisfies
holds between the ends of a run, when it is reflexive and transitive. -/
theorem Run.relates {R : σ → σ → Prop} (hrefl : ∀ s, R s s)
    (htrans : ∀ s t u, R s t → R t u → R s u)
    (hstep : ∀ i s t, P s → ok i s → S.step i s t → P t ∧ R s t) {s t : σ}
    (hrun : S.Run ok s t) (hs : P s) : R s t := by
  have hboth : P t ∧ R s t := by
    induction hrun with
    | refl => exact ⟨hs, hrefl _⟩
    | tail _ hok hst ih =>
        obtain ⟨hP, hR⟩ := ih
        obtain ⟨hP', hR'⟩ := hstep _ _ _ hP hok hst
        exact ⟨hP', htrans _ _ _ hR hR'⟩
  exact hboth.2

end System

end ShejaneRuntime.Lib
