import Mathlib.Logic.Relation
import ShejaneRuntime.Lib.Txn

/-!
# Chains of primitive writes

The writes a program makes fall into kinds. A chain of writes of some kinds
relates the states before and after it, and what every write of these kinds
preserves the whole chain preserves. Transactions are put together from
writes, and so are the kinds of a transaction from those of its parts.
-/

namespace ShejaneRuntime.Lib

variable {σ κ : Type}

/-- A chain of writes, each of one of the kinds. -/
def Trace (W : κ → σ → σ → Prop) (kinds : List κ) : σ → σ → Prop :=
  Relation.ReflTransGen fun s s' ↦ ∃ k ∈ kinds, W k s s'

namespace Trace

variable {W : κ → σ → σ → Prop} {kinds kinds' : List κ} {s s' s'' : σ}

instance : Std.Refl (Trace W kinds) := ⟨fun _ ↦ .refl⟩

instance : IsTrans σ (Trace W kinds) := ⟨fun _ _ _ h h' ↦ Relation.ReflTransGen.trans h h'⟩

theorem single {k : κ} (h : W k s s') (hk : k ∈ kinds) : Trace W kinds s s' :=
  Relation.ReflTransGen.single ⟨k, hk, h⟩

theorem widen (h : Trace W kinds s s') (hsub : kinds ⊆ kinds') : Trace W kinds' s s' :=
  Relation.ReflTransGen.mono (fun _ _ ⟨k, hk, hw⟩ ↦ ⟨k, hsub hk, hw⟩) _ _ h

/-- What every write of the kinds relates, the chain relates. -/
theorem relates {R : σ → σ → Prop} [Std.Refl R] [IsTrans σ R]
    (hR : ∀ k ∈ kinds, ∀ s s', W k s s' → R s s') (h : Trace W kinds s s') : R s s' := by
  induction h with
  | refl => exact refl_of R s
  | tail _ hw ih =>
      obtain ⟨k, hk, hw⟩ := hw
      exact trans_of R ih (hR k hk _ _ hw)

/-- What every write of the kinds preserves, the chain preserves. -/
theorem preserves {P : σ → Prop} (hP : ∀ k ∈ kinds, ∀ s s', W k s s' → P s → P s')
    (h : Trace W kinds s s') (hs : P s) : P s' := by
  induction h with
  | refl => exact hs
  | tail _ hw ih =>
      obtain ⟨k, hk, hw⟩ := hw
      exact hP k hk _ _ hw ih

/-- Preserving one property may rest on another that the writes preserve too. -/
theorem relates_of {R : σ → σ → Prop} {P : σ → Prop} (hrefl : ∀ s, R s s)
    (htrans : ∀ s s' s'', R s s' → R s' s'' → R s s'')
    (hstep : ∀ k ∈ kinds, ∀ s s', W k s s' → P s → P s' ∧ R s s') (h : Trace W kinds s s')
    (hs : P s) : R s s' := by
  have hboth : P s' ∧ R s s' := by
    induction h with
    | refl => exact ⟨hs, hrefl s⟩
    | tail _ hw ih =>
        obtain ⟨k, hk, hw⟩ := hw
        obtain ⟨hP, hR⟩ := ih
        obtain ⟨hP', hR'⟩ := hstep k hk _ _ hw hP
        exact ⟨hP', htrans _ _ _ hR hR'⟩
  exact hboth.2

end Trace

namespace Txn

variable {ω ε α : Type}

/-- The transaction can lead from one database to the other. -/
def Effect (m : Txn σ ω ε α) (db db' : σ) : Prop :=
  ∃ w a w', m ⟨db, w⟩ = .ok (a, ⟨db', w'⟩)

theorem Effect.relates {R : σ → σ → Prop} {m : Txn σ ω ε α} {db db' : σ} (h : Effect m db db')
    (hm : Keeps R m) : R db db' := by
  obtain ⟨w, a, w', hrun⟩ := h
  exact hm _ _ _ hrun

theorem Effect.post {m : Txn σ ω ε α} {db db' : σ} {Q : σ → Prop} (h : Effect m db db')
    (hm : ∀ w, Post m ⟨db, w⟩ fun _ s ↦ Q s.db) : Q db' := by
  obtain ⟨w, a, w', hrun⟩ := h
  exact hm w a _ hrun

theorem keeps_of_effect {R : σ → σ → Prop} {m : Txn σ ω ε α}
    (h : ∀ db db', Effect m db db' → R db db') : Keeps R m := by
  rintro ⟨db, w⟩ a ⟨db', w'⟩ hrun
  exact h db db' ⟨w, a, w', hrun⟩

end Txn

end ShejaneRuntime.Lib
