import Mathlib.Logic.Basic

/-!
# Checks that refuse or break

A check passes with a value, refuses what it checks, or breaks off where it
comes to something it is not made for. What breaks a sequence of checks is what
breaks one of them after those before it have passed.
-/

namespace ShejaneRuntime.Lib

inductive Failure (ε : Type) where
  | refused (message : String)
  | broken (e : ε)
  deriving DecidableEq

abbrev Check (ε α : Type) := Except (Failure ε) α

namespace Check

variable {ε α β : Type}

def require (p : Prop) [Decidable p] (message : String) : Check ε Unit :=
  if p then .ok () else .error (.refused message)

def refuse (message : String) : Check ε α := .error (.refused message)

def raise (e : ε) : Check ε α := .error (.broken e)

/-- What is there, or a refusal. -/
def getOr (o : Option α) (message : String) : Check ε α :=
  match o with
  | some a => .ok a
  | none => refuse message

def Breaks (x : Check ε α) : Prop := ∃ e, x = .error (.broken e)

/-- The check passes, with whatever value. -/
def Passes (x : Check ε α) : Prop := ∃ a, x = .ok a

variable {p : Prop} [Decidable p] {message : String} {x : Check ε α} {f : α → Check ε β}

@[simp] theorem breaks_ok (a : α) : ¬ Breaks (.ok a : Check ε α) := by
  rintro ⟨e, h⟩
  cases h

@[simp] theorem breaks_pure (a : α) : ¬ Breaks (pure a : Check ε α) := breaks_ok a

@[simp] theorem breaks_refuse (message : String) : ¬ Breaks (refuse message : Check ε α) := by
  rintro ⟨e, h⟩
  cases h

@[simp] theorem breaks_raise (e : ε) : Breaks (raise e : Check ε α) := ⟨e, rfl⟩

@[simp] theorem breaks_require : ¬ Breaks (require p message : Check ε Unit) := by
  rintro ⟨e, h⟩
  unfold require at h
  split at h <;> cases h

@[simp] theorem passes_ok (a : α) : Passes (.ok a : Check ε α) := ⟨a, rfl⟩

@[simp] theorem passes_pure (a : α) : Passes (pure a : Check ε α) := ⟨a, rfl⟩

@[simp] theorem passes_refuse (message : String) : ¬ Passes (refuse message : Check ε α) := by
  rintro ⟨a, h⟩
  cases h

@[simp] theorem passes_raise (e : ε) : ¬ Passes (raise e : Check ε α) := by
  rintro ⟨a, h⟩
  cases h

@[simp] theorem require_eq_ok {u : Unit} : (require p message : Check ε Unit) = .ok u ↔ p := by
  unfold require
  split <;> simp_all

@[simp] theorem passes_require : Passes (require p message : Check ε Unit) ↔ p := by
  unfold Passes
  simp

/-- What breaks two checks one after the other. -/
theorem breaks_bind : Breaks (x >>= f) ↔ Breaks x ∨ ∃ a, x = .ok a ∧ Breaks (f a) := by
  cases x with
  | error e =>
      constructor
      · rintro ⟨b, h⟩
        exact .inl ⟨b, congrArg Except.error (Except.error.inj h)⟩
      · rintro (⟨b, h⟩ | ⟨a, h, _⟩)
        · exact ⟨b, congrArg Except.error (Except.error.inj h)⟩
        · cases h
  | ok a =>
      constructor
      · exact fun h ↦ .inr ⟨a, rfl, h⟩
      · rintro (h | ⟨b, h, hb⟩)
        · exact absurd h (breaks_ok a)
        · cases h
          exact hb

theorem bind_eq_ok {b : β} : (x >>= f) = .ok b ↔ ∃ a, x = .ok a ∧ f a = .ok b := by
  cases x with
  | error e =>
      constructor
      · intro h
        cases h
      · rintro ⟨a, h, _⟩
        cases h
  | ok a =>
      constructor
      · exact fun h ↦ ⟨a, rfl, h⟩
      · rintro ⟨b, h, hb⟩
        cases h
        exact hb

theorem passes_bind : Passes (x >>= f) ↔ ∃ a, x = .ok a ∧ Passes (f a) := by
  unfold Passes
  simp only [bind_eq_ok]
  constructor
  · rintro ⟨b, a, ha, hb⟩
    exact ⟨a, ha, b, hb⟩
  · rintro ⟨a, ha, b, hb⟩
    exact ⟨b, a, ha, hb⟩

@[simp] theorem breaks_getOr {o : Option α} : ¬ Breaks (getOr o message : Check ε α) := by
  cases o with
  | none => exact breaks_refuse message
  | some a => exact breaks_ok a

@[simp] theorem getOr_eq_ok {o : Option α} {a : α} :
    (getOr o message : Check ε α) = .ok a ↔ o = some a := by
  cases o with
  | none =>
      constructor
      · intro h
        cases h
      · intro h
        cases h
  | some b =>
      constructor
      · intro h
        cases h
        rfl
      · intro h
        cases h
        rfl

end Check

end ShejaneRuntime.Lib
