import Mathlib.Data.List.Basic

/-!
# Lines and frames of a text

Two ways to cut a text: at every pair of separators, keeping what comes after
the last pair, and at every line end there is. A text that arrives in parts is
cut the first way as its parts arrive.
-/

namespace ShejaneRuntime.Lib

/-! ## Cutting at pairs -/

section Pairs

variable {α : Type} [DecidableEq α] {x : α}

/-- Put a text before the pieces that follow it. -/
def prepend (text : List α) : List (List α) × List α → List (List α) × List α
  | ([], rest) => ([], text ++ rest)
  | (piece :: pieces, rest) => ((text ++ piece) :: pieces, rest)

/-- The pieces that end with a pair of separators, and what is left. -/
def splitPairs (x : α) : List α → List (List α) × List α
  | [] => ([], [])
  | [a] => ([], [a])
  | a :: b :: rest =>
    if a = x ∧ b = x then ([] :: (splitPairs x rest).1, (splitPairs x rest).2)
    else prepend [a] (splitPairs x (b :: rest))

@[simp] theorem splitPairs_nil : splitPairs x [] = ([], []) := rfl

omit [DecidableEq α] in
theorem prepend_cons (a : α) (text : List α) (pieces : List (List α) × List α) :
    prepend [a] (prepend text pieces) = prepend (a :: text) pieces := by
  obtain ⟨pieces, rest⟩ := pieces
  cases pieces <;> rfl

/-- Where nothing was cut off everything is left. -/
theorem splitPairs_rest {text : List α} (h : (splitPairs x text).1 = []) :
    (splitPairs x text).2 = text := by
  fun_induction splitPairs x text with
  | case1 => rfl
  | case2 a => rfl
  | case3 a b rest hab ih => cases h
  | case4 a b rest hab ih =>
      cases hpieces : splitPairs x (b :: rest) with
      | mk pieces left =>
          rw [hpieces] at h ih
          cases pieces with
          | nil =>
              have hleft : left = b :: rest := ih rfl
              rw [hleft]
              rfl
          | cons piece pieces => cases h

/-- A text that arrives in two parts is cut as a whole when what is left of the
first part is put before the second. -/
theorem splitPairs_append (text more : List α) :
    splitPairs x (text ++ more) =
      ((splitPairs x text).1 ++ (splitPairs x ((splitPairs x text).2 ++ more)).1,
        (splitPairs x ((splitPairs x text).2 ++ more)).2) := by
  fun_induction splitPairs x text with
  | case1 => rfl
  | case2 a => rfl
  | case3 a b rest hab ih =>
      rw [List.cons_append, List.cons_append, splitPairs, if_pos hab, ih]
      rfl
  | case4 a b rest hab ih =>
      cases hpieces : splitPairs x (b :: rest) with
      | mk pieces left =>
          rw [hpieces] at ih
          cases pieces with
          | nil =>
              have hleft : left = b :: rest := by
                have hrest := @splitPairs_rest α _ x (b :: rest) (by rw [hpieces])
                rw [hpieces] at hrest
                exact hrest
              rw [hleft]
              rfl
          | cons piece pieces =>
              rw [List.cons_append] at ih
              rw [List.cons_append, List.cons_append, splitPairs, if_neg hab, ih]
              rfl

theorem splitPairs_line {line : List α} (hline : x ∉ line) {a : α} (ha : a ≠ x)
    (rest : List α) :
    splitPairs x (line ++ x :: a :: rest) = prepend (line ++ [x]) (splitPairs x (a :: rest)) := by
  induction line with
  | nil =>
      rw [List.nil_append, splitPairs, if_neg (fun h ↦ ha h.2)]
      rfl
  | cons b line ih =>
      have hb : b ≠ x := fun h ↦ hline (h ▸ List.mem_cons_self)
      have hstep : splitPairs x (b :: (line ++ x :: a :: rest)) =
          prepend [b] (splitPairs x (line ++ x :: a :: rest)) := by
        cases line with
        | nil => rw [List.nil_append, splitPairs, if_neg (fun h ↦ hb h.1)]
        | cons c line => rw [List.cons_append, splitPairs, if_neg (fun h ↦ hb h.1)]
      rw [List.cons_append, hstep, ih (fun h ↦ hline (List.mem_cons_of_mem _ h)), prepend_cons]
      rfl

theorem splitPairs_lastLine {line : List α} (hline : x ∉ line) (rest : List α) :
    splitPairs x (line ++ x :: x :: rest) =
      (line :: (splitPairs x rest).1, (splitPairs x rest).2) := by
  induction line with
  | nil => rw [List.nil_append, splitPairs, if_pos ⟨rfl, rfl⟩]
  | cons b line ih =>
      have hb : b ≠ x := fun h ↦ hline (h ▸ List.mem_cons_self)
      have hstep : splitPairs x (b :: (line ++ x :: x :: rest)) =
          prepend [b] (splitPairs x (line ++ x :: x :: rest)) := by
        cases line with
        | nil => rw [List.nil_append, splitPairs, if_neg (fun h ↦ hb h.1)]
        | cons c line => rw [List.cons_append, splitPairs, if_neg (fun h ↦ hb h.1)]
      rw [List.cons_append, hstep, ih (fun h ↦ hline (List.mem_cons_of_mem _ h))]
      rfl

/-- Lines, each with its separator, and one more: they are one piece. -/
theorem splitPairs_lines {lines : List (List α)} (hne : lines ≠ [])
    (hlines : ∀ line ∈ lines, x ∉ line ∧ line ≠ []) (rest : List α) :
    splitPairs x (lines.flatMap (fun line ↦ line ++ [x]) ++ x :: rest) =
      ([x].intercalate lines :: (splitPairs x rest).1, (splitPairs x rest).2) := by
  induction lines with
  | nil => exact absurd rfl hne
  | cons line lines ih =>
      obtain ⟨hline, _⟩ := hlines line List.mem_cons_self
      cases lines with
      | nil =>
          have htext : [line].flatMap (fun line ↦ line ++ [x]) ++ x :: rest =
              line ++ x :: x :: rest := by simp
          rw [htext, splitPairs_lastLine hline, List.intercalate_singleton]
      | cons second lines =>
          have hsecond := hlines second (by simp)
          obtain ⟨a, tail, rfl⟩ := List.exists_cons_of_ne_nil hsecond.2
          have ha : a ≠ x := fun h ↦ hsecond.1 (h ▸ List.mem_cons_self)
          have hrest := ih (List.cons_ne_nil _ _)
            (fun line hline ↦ hlines line (List.mem_cons_of_mem _ hline))
          have htext : (line :: (a :: tail) :: lines).flatMap (fun line ↦ line ++ [x]) ++
              x :: rest = line ++ x :: (a :: (tail ++ [x] ++
                lines.flatMap (fun line ↦ line ++ [x]) ++ x :: rest)) := by simp
          have htext' : ((a :: tail) :: lines).flatMap (fun line ↦ line ++ [x]) ++ x :: rest =
              a :: (tail ++ [x] ++ lines.flatMap (fun line ↦ line ++ [x]) ++ x :: rest) := by
            simp
          rw [htext, splitPairs_line hline ha, ← htext', hrest, List.intercalate_cons_cons]
          simp [prepend]

end Pairs

/-! ## Line ends -/

/-- The characters at which `str.splitlines` ends a line. -/
def isLineBreak (c : Char) : Bool :=
  c.toNat ∈ [0x0A, 0x0B, 0x0C, 0x0D, 0x1C, 0x1D, 0x1E, 0x85, 0x2028, 0x2029]

/-- `text.splitlines()` -/
def splitlines : List Char → List (List Char)
  | [] => []
  | [c] => if isLineBreak c then [[]] else [[c]]
  | c :: c' :: text =>
    if c = '\r' ∧ c' = '\n' then [] :: splitlines text
    else if isLineBreak c then [] :: splitlines (c' :: text)
    else
      match splitlines (c' :: text) with
      | [] => [[c]]
      | line :: lines => (c :: line) :: lines

theorem splitlines_break {c : Char} (hbreak : isLineBreak c = true) (hne : c ≠ '\r')
    (text : List Char) : splitlines (c :: text) = [] :: splitlines text := by
  cases text with
  | nil => simp only [splitlines, if_pos hbreak]
  | cons c' text => rw [splitlines, if_neg (fun h ↦ hne h.1), if_pos hbreak]

theorem splitlines_cons {c : Char} (h : isLineBreak c = false) {line : List Char}
    {lines : List (List Char)} {text : List Char} (htext : splitlines text = line :: lines) :
    splitlines (c :: text) = (c :: line) :: lines := by
  have hne : c ≠ '\r' := by
    rintro rfl
    cases h
  cases text with
  | nil => cases htext
  | cons c' text =>
      rw [splitlines, if_neg (fun h ↦ hne h.1), h, htext]
      rfl

/-- A line ends at the first line end. -/
theorem splitlines_line {line : List Char} (hline : ∀ c ∈ line, isLineBreak c = false) {c : Char}
    (hbreak : isLineBreak c = true) (hne : c ≠ '\r') (text : List Char) :
    splitlines (line ++ c :: text) = line :: splitlines text := by
  induction line with
  | nil => exact splitlines_break hbreak hne text
  | cons b line ih =>
      rw [List.cons_append]
      exact splitlines_cons (hline b List.mem_cons_self)
        (ih fun c hc ↦ hline c (List.mem_cons_of_mem _ hc))

theorem splitlines_lines {lines : List (List Char)}
    (hlines : ∀ line ∈ lines, ∀ c ∈ line, isLineBreak c = false) (text : List Char) :
    splitlines (lines.flatMap (fun line ↦ line ++ ['\n']) ++ text) = lines ++ splitlines text := by
  induction lines with
  | nil => rfl
  | cons line lines ih =>
      have hrest := ih fun line hline ↦ hlines line (List.mem_cons_of_mem _ hline)
      rw [List.flatMap_cons, List.append_assoc, List.append_assoc, List.singleton_append,
        splitlines_line (hlines line List.mem_cons_self) rfl (by decide), hrest]
      rfl

/-- However a text begins, two line feeds in it end an empty line. -/
theorem nil_mem_splitlines (text more : List Char) :
    [] ∈ (splitlines (text ++ '\n' :: '\n' :: more)).tail := by
  have hfeeds : splitlines ('\n' :: '\n' :: more) = [] :: [] :: splitlines more := by
    rw [splitlines_break rfl (by decide), splitlines_break rfl (by decide)]
  fun_induction splitlines text with
  | case1 =>
      rw [List.nil_append, hfeeds]
      exact List.mem_cons_self
  | case2 c hbreak =>
      by_cases hc : c = '\r'
      · rw [hc, List.singleton_append, splitlines, if_pos ⟨rfl, rfl⟩,
          splitlines_break rfl (by decide)]
        exact List.mem_cons_self
      · rw [List.singleton_append, splitlines_break hbreak hc, hfeeds]
        exact List.mem_cons_self
  | case3 c hbreak =>
      rw [List.singleton_append, splitlines_cons (by simpa using hbreak) hfeeds]
      exact List.mem_cons_self
  | case4 c c' text h ih =>
      rw [List.cons_append, List.cons_append, splitlines, if_pos h]
      exact List.mem_of_mem_tail ih
  | case5 c c' text h hbreak ih =>
      rw [List.cons_append, List.cons_append, splitlines, if_neg h, if_pos hbreak]
      exact List.mem_of_mem_tail ih
  | case6 c c' text h hbreak hnil ih =>
      rw [List.cons_append] at ih
      rw [List.cons_append, List.cons_append, splitlines, if_neg h, if_neg hbreak]
      split
      · rename_i hempty
        rw [hempty] at ih
        cases ih
      · rename_i hlines
        rw [hlines] at ih
        exact ih
  | case7 c c' text h hbreak line lines hlines ih =>
      rw [List.cons_append] at ih
      rw [List.cons_append, List.cons_append, splitlines, if_neg h, if_neg hbreak]
      split
      · rename_i hempty
        rw [hempty] at ih
        cases ih
      · rename_i hlines
        rw [hlines] at ih
        exact ih

end ShejaneRuntime.Lib
