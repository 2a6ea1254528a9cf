import Mathlib.Data.List.Basic
import Mathlib.Tactic.Common

/-!
# Calls that fail with a state

A call that fails leaves what it has done. `Ends` speaks of both outcomes: what
holds when the call returns, and what holds when it raises.
-/

namespace ShejaneRuntime.Lib

abbrev Call (ε σ α : Type) := EStateM ε σ α

namespace Call

variable {ε σ α β : Type}

/-- The state after the call. -/
def after (m : Call ε σ α) (s : σ) : σ :=
  match m s with
  | .ok _ s' => s'
  | .error _ s' => s'

def Returns (m : Call ε σ α) (s : σ) : Prop := ∃ a s', m s = .ok a s'

def Raises (m : Call ε σ α) (s : σ) : Prop := ∃ e s', m s = .error e s'

def Ends (m : Call ε σ α) (s : σ) (Q : α → σ → Prop) (E : ε → σ → Prop) : Prop :=
  match m s with
  | .ok a s' => Q a s'
  | .error e s' => E e s'

/-- Clean up when the call raises, and raise again. -/
def onError (m : Call ε σ α) (cleanup : Call ε σ Unit) : Call ε σ α := fun s ↦
  match m s with
  | .ok a s' => .ok a s'
  | .error e s' => .error e (cleanup.after s')

/-- Raise another error in the place of each. -/
def mapError {ε' : Type} (g : ε → ε') (m : Call ε σ α) : Call ε' σ α := fun s ↦
  match m s with
  | .ok a s' => .ok a s'
  | .error e s' => .error (g e) s'

variable {m : Call ε σ α} {f : α → Call ε σ β} {s : σ} {Q Q' : α → σ → Prop} {E E' : ε → σ → Prop}

theorem ends_iff : Ends m s Q E ↔
    (∀ a s', m s = .ok a s' → Q a s') ∧ ∀ e s', m s = .error e s' → E e s' := by
  unfold Ends
  cases hm : m s with
  | ok a s' =>
      constructor
      · intro h
        refine ⟨?_, by rintro _ _ ⟨⟩⟩
        rintro _ _ ⟨⟩
        exact h
      · intro h
        exact h.1 a s' rfl
  | error e s' =>
      constructor
      · intro h
        refine ⟨by rintro _ _ ⟨⟩, ?_⟩
        rintro _ _ ⟨⟩
        exact h
      · intro h
        exact h.2 e s' rfl

theorem Ends.mono (h : Ends m s Q E) (hQ : ∀ a s', Q a s' → Q' a s')
    (hE : ∀ e s', E e s' → E' e s') : Ends m s Q' E' := by
  rw [ends_iff] at h ⊢
  exact ⟨fun a s' heq ↦ hQ a s' (h.1 a s' heq), fun e s' heq ↦ hE e s' (h.2 e s' heq)⟩

theorem Ends.after {P : σ → Prop} (h : Ends m s (fun _ ↦ P) fun _ ↦ P) : P (m.after s) := by
  unfold Ends at h
  unfold Call.after
  cases hm : m s with
  | ok a s' => rwa [hm] at h
  | error e s' => rwa [hm] at h

@[simp] theorem ends_pure {a : α} : Ends (pure a : Call ε σ α) s Q E ↔ Q a s := Iff.rfl

@[simp] theorem ends_throw {e : ε} : Ends (throw e : Call ε σ α) s Q E ↔ E e s := Iff.rfl

theorem bind_eq (m : Call ε σ α) (f : α → Call ε σ β) (s : σ) : (m >>= f) s =
    match m s with
    | .ok a s' => f a s'
    | .error e s' => .error e s' := rfl

theorem ends_bind {Q : β → σ → Prop} :
    Ends (m >>= f) s Q E ↔ Ends m s (fun a s' ↦ Ends (f a) s' Q E) E := by
  unfold Ends
  rw [bind_eq]
  cases m s <;> rfl

theorem bind_eq_ok {b : β} {s' : σ} :
    (m >>= f) s = .ok b s' ↔ ∃ a s₁, m s = .ok a s₁ ∧ f a s₁ = .ok b s' := by
  rw [bind_eq]
  cases m s with
  | ok a s₁ =>
      constructor
      · intro h
        exact ⟨a, s₁, rfl, h⟩
      · rintro ⟨_, _, ⟨⟩, h⟩
        exact h
  | error e s₁ =>
      constructor
      · intro h
        cases h
      · rintro ⟨_, _, h, _⟩
        cases h

theorem forM_cons {act : β → Call ε σ PUnit} (b : β) (items : List β) :
    (b :: items).forM act = (act b >>= fun _ ↦ items.forM act) := rfl

end Call

end ShejaneRuntime.Lib
