import Mathlib.Data.List.Nodup
import Mathlib.Data.List.Perm.Basic

/-!
# What the members of a list hold together

Each member holds a list of resources. Replacing one member changes what all
hold together by what this member holds.
-/

namespace ShejaneRuntime.Lib

variable {α β : Type}

/-- What the others hold, when one member is taken out. -/
theorem perm_flatMap_set {members : List α} {j : ℕ} {t : α} (u : α) (held : α → List β)
    (hj : members[j]? = some t) :
    (held u ++ members.flatMap held).Perm (held t ++ (members.set j u).flatMap held) := by
  induction members generalizing j with
  | nil => simp at hj
  | cons a rest ih =>
      cases j with
      | zero =>
          cases hj
          simp only [List.set_cons_zero, List.flatMap_cons]
          rw [← List.append_assoc, ← List.append_assoc]
          exact List.perm_append_comm.append_right _
      | succ j =>
          simp only [List.set_cons_succ, List.flatMap_cons]
          have hrest := ih hj
          have hfront := List.perm_append_comm_assoc (held u) (held a) (rest.flatMap held)
          have hback := List.perm_append_comm_assoc (held a) (held t) ((rest.set j u).flatMap held)
          exact hfront.trans ((hrest.append_left (held a)).trans hback)

end ShejaneRuntime.Lib
