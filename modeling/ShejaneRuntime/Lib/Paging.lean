import Mathlib.Data.List.Sort
import Mathlib.Order.Basic

/-!
# Reading in order

Rows ordered by a key and read a page at a time. A page of the last rows
together with what is before it is the whole, and rows that stand in order
already keep their order whatever they are sorted with.
-/

namespace ShejaneRuntime.Lib

variable {α κ : Type} [LinearOrder κ] {key : α → κ}

/-- `ORDER BY key` -/
def orderBy (key : α → κ) (rows : List α) : List α :=
  rows.insertionSort fun a b ↦ key a ≤ key b

theorem orderBy_perm (key : α → κ) (rows : List α) : (orderBy key rows).Perm rows :=
  List.perm_insertionSort _ _

@[simp] theorem mem_orderBy {rows : List α} {x : α} : x ∈ orderBy key rows ↔ x ∈ rows :=
  (orderBy_perm key rows).mem_iff

theorem pairwise_orderBy (key : α → κ) (rows : List α) :
    (orderBy key rows).Pairwise fun a b ↦ key a ≤ key b := by
  have htotal : Std.Total fun a b : α ↦ key a ≤ key b := ⟨fun a b ↦ le_total (key a) (key b)⟩
  have htrans : IsTrans α fun a b ↦ key a ≤ key b := ⟨fun _ _ _ h h' ↦ le_trans h h'⟩
  exact List.pairwise_insertionSort _ _

theorem orderBy_eq_self {rows : List α} (h : rows.Pairwise fun a b ↦ key a ≤ key b) :
    orderBy key rows = rows :=
  h.insertionSort_eq

/-- Rows of a kind that are in order among themselves are found in that order. -/
theorem filter_orderBy {rows : List α} {p : α → Bool}
    (h : (rows.filter p).Pairwise fun a b ↦ key a ≤ key b) :
    (orderBy key rows).filter p = rows.filter p := by
  have hsub : (rows.filter p).Sublist (orderBy key rows) :=
    List.sublist_insertionSort h List.filter_sublist
  have hfilter : ((rows.filter p).filter p).Sublist ((orderBy key rows).filter p) :=
    hsub.filter p
  rw [List.filter_filter, List.filter_congr (fun x _ ↦ Bool.and_self (p x))] at hfilter
  have hlength : ((orderBy key rows).filter p).length = (rows.filter p).length :=
    ((orderBy_perm key rows).filter p).length_eq
  exact (hfilter.eq_of_length hlength.symm).symm

/-- Sorting finds the strictly increasing arrangement of the rows. -/
theorem orderBy_eq_of_perm {rows sorted : List α} (hperm : sorted.Perm rows)
    (h : sorted.Pairwise fun a b ↦ key a < key b) : orderBy key rows = sorted := by
  have hinj : ∀ a ∈ sorted, ∀ b ∈ sorted, key a = key b → a = b := by
    have hnodup : (sorted.map key).Nodup := by
      rw [List.Nodup, List.pairwise_map]
      exact h.imp fun hlt ↦ ne_of_lt hlt
    intro a ha b hb hab
    exact List.inj_on_of_nodup_map hnodup ha hb hab
  refine List.Perm.eq_of_pairwise ?_ (pairwise_orderBy key rows) (h.imp le_of_lt)
    ((orderBy_perm key rows).trans hperm.symm)
  intro a b ha hb hab hba
  exact hinj a (hperm.mem_iff.mpr (mem_orderBy.mp ha)) b hb (le_antisymm hab hba)

/-- Read from the end, a page is what is left when the rows before it are
dropped. -/
theorem reverse_take_reverse (xs : List α) (n : ℕ) :
    ((xs.reverse.take (n + 1)).take n).reverse = xs.drop (xs.length - n) := by
  rw [List.take_take, Nat.min_eq_left (Nat.le_succ n), List.take_reverse, List.reverse_reverse]

/-- One row more than the page is found when there are rows before it. -/
theorem lt_length_take_reverse {xs : List α} {n : ℕ} :
    n < (xs.reverse.take (n + 1)).length ↔ n < xs.length := by
  rw [List.length_take, List.length_reverse]
  omega

/-- The rows before a row of a strictly increasing list. -/
theorem filter_lt_of_pairwise {before after : List α} {x : α}
    (h : (before ++ x :: after).Pairwise fun a b ↦ key a < key b) :
    (before ++ x :: after).filter (fun y ↦ decide (key y < key x)) = before := by
  rw [List.pairwise_append, List.pairwise_cons] at h
  obtain ⟨_, ⟨hafter, _⟩, hbefore⟩ := h
  rw [List.filter_append, List.filter_eq_self.mpr, List.filter_eq_nil_iff.mpr, List.append_nil]
  · intro y hy
    rw [decide_eq_true_eq, not_lt]
    rcases List.mem_cons.mp hy with rfl | hy
    · exact le_refl _
    · exact le_of_lt (hafter y hy)
  · intro y hy
    rw [decide_eq_true_eq]
    exact hbefore y hy x List.mem_cons_self

/-- The rows after a row of a strictly increasing list. -/
theorem filter_gt_of_pairwise {before after : List α} {x : α}
    (h : (before ++ x :: after).Pairwise fun a b ↦ key a < key b) :
    (before ++ x :: after).filter (fun y ↦ decide (key x < key y)) = after := by
  rw [List.pairwise_append, List.pairwise_cons] at h
  obtain ⟨_, ⟨hafter, _⟩, hbefore⟩ := h
  rw [List.filter_append, List.filter_eq_nil_iff.mpr, List.nil_append,
    List.filter_cons_of_neg (by simp), List.filter_eq_self.mpr]
  · intro y hy
    rw [decide_eq_true_eq]
    exact hafter y hy
  · intro y hy
    rw [decide_eq_true_eq, not_lt]
    exact le_of_lt (hbefore y hy x List.mem_cons_self)

/-! ## Numbered rows -/

theorem le_foldr_max {ns : List ℕ} {n : ℕ} (h : n ∈ ns) : n ≤ ns.foldr max 0 := by
  induction ns with
  | nil => cases h
  | cons m ns ih =>
      rcases List.mem_cons.mp h with rfl | hmem
      · exact le_max_left _ _
      · exact (ih hmem).trans (le_max_right _ _)

theorem foldr_max_le {ns : List ℕ} {n : ℕ} (h : ∀ m ∈ ns, m ≤ n) : ns.foldr max 0 ≤ n := by
  induction ns with
  | nil => exact Nat.zero_le n
  | cons m ns ih =>
      exact max_le (h m List.mem_cons_self) (ih fun k hk ↦ h k (List.mem_cons_of_mem m hk))

theorem get_of_range' {f : α → ℕ} {xs : List α} (h : xs.map f = List.range' 1 xs.length) {k : ℕ}
    (hk : k < xs.length) : f xs[k] = k + 1 := by
  have hget : (xs.map f)[k]? = some (f xs[k]) := by simp [hk]
  rw [h, List.getElem?_range' hk, Option.some.injEq] at hget
  omega

/-- The rows numbered above `n` are those after the first `n`. -/
theorem filter_lt_of_range' {f : α → ℕ} {xs : List α} (h : xs.map f = List.range' 1 xs.length)
    (n : ℕ) : xs.filter (fun x ↦ decide (n < f x)) = xs.drop n := by
  have htake : ∀ x ∈ xs.take n, ¬n < f x := by
    intro x hx
    obtain ⟨k, hk, rfl⟩ := List.getElem_of_mem hx
    rw [List.length_take] at hk
    rw [List.getElem_take, get_of_range' h (by omega)]
    omega
  have hdrop : ∀ x ∈ xs.drop n, n < f x := by
    intro x hx
    obtain ⟨k, hk, rfl⟩ := List.getElem_of_mem hx
    rw [List.length_drop] at hk
    rw [List.getElem_drop, get_of_range' h (by omega)]
    omega
  conv_lhs => rw [← List.take_append_drop n xs]
  rw [List.filter_append, List.filter_eq_nil_iff.mpr, List.filter_eq_self.mpr, List.nil_append]
  · simpa using hdrop
  · simpa using htake

end ShejaneRuntime.Lib
