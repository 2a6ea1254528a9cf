import Mathlib.Data.Nat.Notation
import Mathlib.Tactic.SplitIfs

/-!
# Marks inserted into a text

Texts that are inserted from the last position to the first stand at the
positions of the text as it was. The result is the text with its marks woven
in, and without the marks it is the text again.
-/

namespace ShejaneRuntime.Lib

inductive Piece (α μ : Type) where
  | plain (a : α)
  | mark (m : μ)

variable {α μ : Type} {marks marks' : ℕ → List μ} {k position : ℕ} {text rest : List α}

/-! ## Weaving -/

/-- A text from position `k` on, each place with its marks before it; those of the end are left
out. -/
def weaveInit (marks : ℕ → List μ) : ℕ → List α → List (Piece α μ)
  | _, [] => []
  | k, a :: text => (marks k).map .mark ++ .plain a :: weaveInit marks (k + 1) text

/-- A text with the marks of each of its positions. -/
def weave (marks : ℕ → List μ) (text : List α) : List (Piece α μ) :=
  weaveInit marks 0 text ++ (marks text.length).map .mark

def plains : List (Piece α μ) → List α
  | [] => []
  | .plain a :: pieces => a :: plains pieces
  | .mark _ :: pieces => plains pieces

/-- The marks, each with the number of letters before it. -/
def marksFrom : ℕ → List (Piece α μ) → List (ℕ × μ)
  | _, [] => []
  | k, .plain _ :: pieces => marksFrom (k + 1) pieces
  | k, .mark m :: pieces => (k, m) :: marksFrom k pieces

@[simp] theorem plains_append (pieces pieces' : List (Piece α μ)) :
    plains (pieces ++ pieces') = plains pieces ++ plains pieces' := by
  induction pieces with
  | nil => rfl
  | cons piece pieces ih => cases piece <;> simp [plains, ih]

@[simp] theorem plains_marks (l : List μ) : plains (l.map (.mark : μ → Piece α μ)) = [] := by
  induction l with
  | nil => rfl
  | cons m l ih => simpa [plains] using ih

@[simp] theorem plains_map_plain (text : List α) :
    plains (text.map (.plain : α → Piece α μ)) = text := by
  induction text with
  | nil => rfl
  | cons a text ih => rw [List.map_cons, plains, ih]

@[simp] theorem marksFrom_map_plain (k : ℕ) (text : List α) :
    marksFrom k (text.map (.plain : α → Piece α μ)) = [] := by
  induction text generalizing k with
  | nil => rfl
  | cons a text ih => rw [List.map_cons, marksFrom, ih]

theorem plains_weaveInit (marks : ℕ → List μ) (k : ℕ) (text : List α) :
    plains (weaveInit marks k text) = text := by
  induction text generalizing k with
  | nil => rfl
  | cons a text ih => simp [weaveInit, plains, ih]

/-- Without its marks a text is what it was. -/
@[simp] theorem plains_weave (marks : ℕ → List μ) (text : List α) :
    plains (weave marks text) = text := by
  simp [weave, plains_weaveInit]

theorem marksFrom_append (k : ℕ) (pieces pieces' : List (Piece α μ)) :
    marksFrom k (pieces ++ pieces') =
      marksFrom k pieces ++ marksFrom (k + (plains pieces).length) pieces' := by
  induction pieces generalizing k with
  | nil => rfl
  | cons piece pieces ih =>
      cases piece with
      | plain a => simp [marksFrom, plains, ih, Nat.add_assoc, Nat.add_comm 1]
      | mark m => simp [marksFrom, plains, ih]

theorem marksFrom_marks (k : ℕ) (l : List μ) :
    marksFrom k (l.map (.mark : μ → Piece α μ)) = l.map fun m ↦ (k, m) := by
  induction l with
  | nil => rfl
  | cons m l ih => simp [marksFrom, ih]

theorem marksFrom_weaveInit (marks : ℕ → List μ) (k : ℕ) (text : List α) :
    marksFrom k (weaveInit marks k text) =
      (List.range' k text.length).flatMap fun p ↦ (marks p).map fun m ↦ (p, m) := by
  induction text generalizing k with
  | nil => rfl
  | cons a text ih =>
      rw [weaveInit, marksFrom_append, marksFrom_marks, plains_marks, List.length_nil, Nat.add_zero,
        marksFrom, ih, List.length_cons, List.range'_succ, List.flatMap_cons]

/-- Each mark stands at its position. -/
theorem marksFrom_weave (marks : ℕ → List μ) (text : List α) :
    marksFrom 0 (weave marks text) =
      (List.range (text.length + 1)).flatMap fun p ↦ (marks p).map fun m ↦ (p, m) := by
  rw [weave, marksFrom_append, marksFrom_weaveInit, plains_weaveInit, marksFrom_marks,
    List.range_succ, List.flatMap_append, List.range_eq_range', Nat.zero_add]
  simp

theorem weaveInit_append (marks : ℕ → List μ) (k : ℕ) (text rest : List α) :
    weaveInit marks k (text ++ rest) =
      weaveInit marks k text ++ weaveInit marks (k + text.length) rest := by
  induction text generalizing k with
  | nil => rfl
  | cons a text ih => simp [weaveInit, ih, Nat.add_assoc, Nat.add_comm 1]

theorem weaveInit_congr (h : ∀ p, k ≤ p → p < k + text.length → marks p = marks' p) :
    weaveInit marks k text = weaveInit marks' k text := by
  induction text generalizing k with
  | nil => rfl
  | cons a text ih =>
      rw [List.length_cons] at h
      rw [weaveInit, weaveInit, h k (Nat.le_refl k) (by omega)]
      congr 2
      exact ih fun p hle hlt ↦ h p (by omega) (by omega)

theorem weaveInit_of_unmarked (h : ∀ p, k ≤ p → marks p = []) :
    weaveInit marks k text = text.map .plain := by
  induction text generalizing k with
  | nil => rfl
  | cons a text ih =>
      rw [weaveInit, h k (Nat.le_refl k), ih fun p hp ↦ h p (by omega)]
      rfl

/-! ## Inserting from the right -/

def insertAt (position : ℕ) (inserted text : List α) : List α :=
  text.take position ++ inserted ++ text.drop position

/-- Texts inserted one after the other. -/
def spliceAll (inserted : ℕ → List α) (positions : List ℕ) (text : List α) : List α :=
  positions.foldl (fun text position ↦ insertAt position (inserted position) text) text

/-- A text with its marks written out. -/
def write (spell : μ → List α) (pieces : List (Piece α μ)) : List α :=
  pieces.flatMap fun
    | .plain a => [a]
    | .mark m => spell m

variable {inserted : ℕ → List α} {positions : List ℕ} {spell : μ → List α}

@[simp] theorem write_append (spell : μ → List α) (pieces pieces' : List (Piece α μ)) :
    write spell (pieces ++ pieces') = write spell pieces ++ write spell pieces' :=
  List.flatMap_append

@[simp] theorem write_marks (spell : μ → List α) (l : List μ) :
    write spell (l.map .mark) = l.flatMap spell := by
  unfold write
  rw [List.flatMap_map]

@[simp] theorem write_plains (spell : μ → List α) (text : List α) :
    write spell (text.map .plain) = text := by
  unfold write
  rw [List.flatMap_map]
  simp

@[simp] theorem write_nil (spell : μ → List α) : write spell [] = [] := rfl

@[simp] theorem write_cons_plain (spell : μ → List α) (a : α) (pieces : List (Piece α μ)) :
    write spell (.plain a :: pieces) = a :: write spell pieces := rfl

theorem insertAt_append (h : position ≤ text.length) (new : List α) :
    insertAt position new (text ++ rest) = insertAt position new text ++ rest := by
  unfold insertAt
  rw [List.take_append_of_le_length h, List.drop_append_of_le_length h]
  simp

theorem length_insertAt_ge (position : ℕ) (new text : List α) :
    text.length ≤ (insertAt position new text).length := by
  unfold insertAt
  simp only [List.length_append, List.length_take, List.length_drop]
  omega

/-- What is inserted into the first part of a text leaves the rest alone. -/
theorem spliceAll_append (h : ∀ p ∈ positions, p ≤ text.length) :
    spliceAll inserted positions (text ++ rest) = spliceAll inserted positions text ++ rest := by
  induction positions generalizing text with
  | nil => rfl
  | cons p positions ih =>
      unfold spliceAll
      rw [List.foldl_cons, List.foldl_cons, insertAt_append (h p List.mem_cons_self)]
      apply ih
      intro q hq
      exact Nat.le_trans (h q (List.mem_cons_of_mem p hq)) (length_insertAt_ge p _ _)

/-- Texts that are inserted from the right stand where the text has their positions. -/
theorem spliceAll_eq_write_weave (horder : positions.Pairwise (· > ·))
    (hle : ∀ p ∈ positions, p ≤ text.length)
    (hmarks : ∀ p ∈ positions, inserted p = (marks p).flatMap spell)
    (hnone : ∀ p, p ∉ positions → marks p = []) :
    spliceAll inserted positions text = write spell (weave marks text) := by
  induction positions generalizing text marks with
  | nil =>
      have hunmarked : ∀ p, marks p = [] := fun p ↦ hnone p List.not_mem_nil
      rw [weave, weaveInit_of_unmarked fun p _ ↦ hunmarked p, hunmarked]
      simp [spliceAll]
  | cons p positions ih =>
      obtain ⟨hgreater, horder⟩ := List.pairwise_cons.mp horder
      have hp := hle p List.mem_cons_self
      have htake : (text.take p).length = p := List.length_take_of_le hp
      -- the other marks stand before the first position
      let others : ℕ → List μ := fun q ↦ if q = p then [] else marks q
      have hfirst : spliceAll inserted positions (text.take p) =
          write spell (weave others (text.take p)) := by
        apply ih horder
        · intro q hq
          rw [htake]
          exact Nat.le_of_lt (hgreater q hq)
        · intro q hq
          have hne : q ≠ p := Nat.ne_of_lt (hgreater q hq)
          rw [hmarks q (List.mem_cons_of_mem p hq)]
          simp only [others, if_neg hne]
        · intro q hq
          simp only [others]
          split_ifs with hqp
          · rfl
          · exact hnone q fun hc ↦ (List.mem_cons.mp hc).elim hqp hq
      have hbeyond : ∀ q, p < q → marks q = [] := by
        intro q hq
        apply hnone
        intro hc
        rcases List.mem_cons.mp hc with rfl | hc
        · omega
        · exact absurd (hgreater q hc) (by omega)
      have hinit : weaveInit others 0 (text.take p) = weaveInit marks 0 (text.take p) := by
        apply weaveInit_congr
        intro q _ hq
        rw [htake, Nat.zero_add] at hq
        simp only [others, if_neg (Nat.ne_of_lt hq)]
      have hend : others p = [] := if_pos rfl
      have hstep : spliceAll inserted (p :: positions) text =
          spliceAll inserted positions (text.take p) ++ (inserted p ++ text.drop p) := by
        unfold spliceAll
        rw [List.foldl_cons, insertAt, List.append_assoc]
        apply spliceAll_append
        intro q hq
        rw [htake]
        exact Nat.le_of_lt (hgreater q hq)
      rw [hstep, hfirst, weave, htake, hend, hinit, hmarks p List.mem_cons_self]
      have hrest : weave marks text = weaveInit marks 0 (text.take p) ++ (marks p).map .mark ++
          (text.drop p).map .plain := by
        conv => lhs; rw [← List.take_append_drop p text]
        rw [weave, weaveInit_append, htake, Nat.zero_add]
        cases hdrop : text.drop p with
        | nil => simp [weaveInit, htake]
        | cons a after =>
            have hafter : weaveInit marks (p + 1) after = after.map .plain :=
              weaveInit_of_unmarked fun q hq ↦ hbeyond q hq
            have hlast : marks (text.take p ++ a :: after).length = [] := by
              apply hbeyond
              rw [List.length_append, htake, List.length_cons]
              omega
            rw [weaveInit, hafter, hlast]
            simp
      rw [hrest]
      simp only [write_append, write_marks, write_plains, List.flatMap_nil, List.append_nil,
        List.append_assoc]

end ShejaneRuntime.Lib
