import Mathlib.Data.Nat.Notation
import Mathlib.Logic.Relation

/-!
# Forests

Elements that hang on one another. Hanging an element on one that is not
above it already closes no cycle, and where every element hangs on at most
one other, the steps from an element up to another are determined.
-/

namespace ShejaneRuntime.Lib

open Relation

variable {α : Type} {r : α → α → Prop} {a b : α}

/-- Nothing hangs on itself, however far up. -/
def Acyclic (r : α → α → Prop) : Prop := ∀ a, ¬TransGen r a a

/-- The relation with one more element hung up. -/
def Hung (r : α → α → Prop) (a b : α) : α → α → Prop := fun x y ↦ r x y ∨ x = a ∧ y = b

/-- A way up in the larger relation takes the new step once at most, as long
as the old relation has no way back from its end. -/
theorem transGen_hung (hback : ¬ReflTransGen r b a) {x y : α} (h : TransGen (Hung r a b) x y) :
    TransGen r x y ∨ ReflTransGen r x a ∧ ReflTransGen r b y := by
  induction h with
  | single hxy =>
      rcases hxy with hold | ⟨rfl, rfl⟩
      · exact .inl (.single hold)
      · exact .inr ⟨.refl, .refl⟩
  | tail _ hyz ih =>
      rcases hyz with hold | ⟨rfl, rfl⟩
      · rcases ih with hxy | ⟨hxa, hby⟩
        · exact .inl (hxy.tail hold)
        · exact .inr ⟨hxa, hby.tail hold⟩
      · rcases ih with hxy | ⟨_, hba⟩
        · exact .inr ⟨hxy.to_reflTransGen, .refl⟩
        · exact absurd hba hback

theorem Acyclic.hung (h : Acyclic r) (hback : ¬ReflTransGen r b a) : Acyclic (Hung r a b) := by
  intro x hx
  rcases transGen_hung hback hx with hold | ⟨hxa, hbx⟩
  · exact h x hold
  · exact hback (hbx.trans hxa)

theorem Acyclic.of_empty (h : ∀ x y, ¬r x y) : Acyclic r := by
  intro x hx
  cases hx with
  | single hxx => exact h x x hxx
  | tail _ hyx => exact h _ x hyx

/-- From an element up to another in so many steps. -/
def Steps (r : α → α → Prop) : ℕ → α → α → Prop
  | 0, a, b => a = b
  | n + 1, a, b => ∃ c, r a c ∧ Steps r n c b

theorem steps_succ_iff {n : ℕ} : Steps r (n + 1) a b ↔ ∃ c, Steps r n a c ∧ r c b := by
  induction n generalizing a with
  | zero =>
      constructor
      · rintro ⟨c, hac, rfl⟩
        exact ⟨a, rfl, hac⟩
      · rintro ⟨c, rfl, hcb⟩
        exact ⟨b, hcb, rfl⟩
  | succ n ih =>
      constructor
      · rintro ⟨c, hac, hcb⟩
        obtain ⟨c', hcc', hc'b⟩ := ih.mp hcb
        exact ⟨c', ⟨c, hac, hcc'⟩, hc'b⟩
      · rintro ⟨c', ⟨c, hac, hcc'⟩, hc'b⟩
        exact ⟨c, hac, ih.mpr ⟨c', hcc', hc'b⟩⟩

theorem transGen_iff_steps : TransGen r a b ↔ ∃ n, Steps r (n + 1) a b := by
  constructor
  · intro h
    induction h using TransGen.head_induction_on with
    | single hab => exact ⟨0, b, hab, rfl⟩
    | head hac _ ih =>
        obtain ⟨n, hn⟩ := ih
        exact ⟨n + 1, _, hac, hn⟩
  · rintro ⟨n, hn⟩
    induction n generalizing a with
    | zero =>
        obtain ⟨c, hac, rfl⟩ := hn
        exact .single hac
    | succ n ih =>
        obtain ⟨c, hac, hcb⟩ := hn
        exact .head hac (ih hcb)

/-- The number of steps up to an element is determined. -/
theorem Steps.unique (hacyclic : Acyclic r) (hone : ∀ a b c, r a b → r a c → b = c) {m n : ℕ}
    (hm : Steps r m a b) (hn : Steps r n a b) : m = n := by
  induction m generalizing a n with
  | zero =>
      cases n with
      | zero => rfl
      | succ n =>
          obtain rfl := hm
          exact absurd (transGen_iff_steps.mpr ⟨n, hn⟩) (hacyclic a)
  | succ m ih =>
      cases n with
      | zero =>
          obtain rfl := hn
          exact absurd (transGen_iff_steps.mpr ⟨m, hm⟩) (hacyclic a)
      | succ n =>
          obtain ⟨c, hac, hcb⟩ := hm
          obtain ⟨c', hac', hcb'⟩ := hn
          obtain rfl := hone a c c' hac hac'
          rw [ih hcb hcb']

end ShejaneRuntime.Lib
