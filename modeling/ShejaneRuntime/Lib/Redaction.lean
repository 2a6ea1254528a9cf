import Mathlib.Data.Nat.Notation
import Mathlib.Data.List.Basic
import Mathlib.Tactic.Common

/-!
# Putting a marker in the place of a word

Words are struck out of a text from left to right, and a marker is put where
each of them stood. A word that cannot overlap the marker occurs in the result
only where it occurred in the text.
-/

namespace ShejaneRuntime.Lib

variable {α : Type} [DecidableEq α]

/-! ## Replacing -/

/-- What remains of the text is replaced after `skip` more letters of a word that was found. -/
def replaceFrom (word marker : List α) : ℕ → List α → List α
  | _, [] => []
  | skip + 1, _ :: text => replaceFrom word marker skip text
  | 0, a :: text =>
    if word.isPrefixOf (a :: text) then marker ++ replaceFrom word marker (word.length - 1) text
    else a :: replaceFrom word marker 0 text

/-- Python's `text.replace(word, marker)`, for a word that is not empty. -/
def replace (word marker text : List α) : List α := replaceFrom word marker 0 text

variable {word marker text other : List α}

@[simp] theorem replace_nil : replace word marker [] = [] := rfl

theorem replaceFrom_eq_drop (skip : ℕ) (text : List α) :
    replaceFrom word marker skip text = replace word marker (text.drop skip) := by
  induction text generalizing skip with
  | nil =>
      rw [List.drop_nil]
      cases skip <;> rfl
  | cons a text ih =>
      cases skip with
      | zero => rfl
      | succ skip =>
          rw [replaceFrom, ih]
          rfl

theorem replace_append (hword : word ≠ []) (rest : List α) :
    replace word marker (word ++ rest) = marker ++ replace word marker rest := by
  cases word with
  | nil => exact absurd rfl hword
  | cons w ws =>
      have hfound : (w :: ws).isPrefixOf (w :: (ws ++ rest)) = true :=
        List.isPrefixOf_iff_prefix.mpr (List.prefix_append (w :: ws) rest)
      rw [List.cons_append, replace, replaceFrom, if_pos hfound, replaceFrom_eq_drop]
      simp

theorem replace_cons {a : α} (h : ¬ word <+: a :: text) :
    replace word marker (a :: text) = a :: replace word marker text := by
  have hnot : ¬(word.isPrefixOf (a :: text) = true) := by
    rw [List.isPrefixOf_iff_prefix]
    exact h
  rw [replace, replaceFrom, if_neg hnot]
  rfl

/-- The word does not occur, or the text is cut at its first occurrence. -/
theorem replace_cases (hword : word ≠ []) (marker text : List α) :
    (¬ word <:+: text ∧ replace word marker text = text) ∨
      ∃ before after, text = before ++ word ++ after ∧ ¬ word <:+: before ∧
        replace word marker text = before ++ marker ++ replace word marker after := by
  induction text with
  | nil =>
      refine .inl ⟨?_, rfl⟩
      rw [List.infix_nil]
      exact hword
  | cons a text ih =>
      by_cases hfound : word <+: a :: text
      · obtain ⟨after, hafter⟩ := hfound
        refine .inr ⟨[], after, ?_, ?_, ?_⟩
        · rw [List.nil_append, hafter]
        · rw [List.infix_nil]
          exact hword
        · rw [← hafter, replace_append hword, List.nil_append]
      · rcases ih with ⟨hno, heq⟩ | ⟨before, after, htext, hbefore, heq⟩
        · refine .inl ⟨?_, by rw [replace_cons hfound, heq]⟩
          rw [List.infix_cons_iff]
          rintro (h | h)
          · exact hfound h
          · exact hno h
        · refine .inr ⟨a :: before, after, by rw [htext]; rfl, ?_, ?_⟩
          · rw [List.infix_cons_iff]
            rintro (h | h)
            · apply hfound
              rw [htext, List.append_assoc, ← List.cons_append]
              exact h.trans (List.prefix_append _ _)
            · exact hbefore h
          · rw [replace_cons hfound, heq]
            rfl

theorem replace_of_absent (hword : word ≠ []) (h : ¬ word <:+: text) :
    replace word marker text = text := by
  rcases replace_cases hword marker text with ⟨_, heq⟩ | ⟨before, after, htext, _⟩
  · exact heq
  · exact absurd ⟨before, after, htext.symm⟩ h

theorem marker_infix_replace (hword : word ≠ []) (h : word <:+: text) :
    marker <:+: replace word marker text := by
  rcases replace_cases hword marker text with ⟨hno, _⟩ | ⟨before, after, _, _, heq⟩
  · exact absurd h hno
  · rw [heq]
    exact List.infix_append before marker _

/-! ## Words that keep clear of the marker -/

/-- A part of the word can stand on a part of the marker. -/
def Meets (word marker : List α) : Prop :=
  word <:+: marker ∨ (∃ a b, word = a ++ b ∧ b ≠ [] ∧ b <+: marker) ∨
    (∃ a b, word = a ++ b ∧ a ≠ [] ∧ a <:+ marker) ∨ marker <:+: word

theorem not_meets_of_disjoint (hword : word ≠ []) (hmarker : marker ≠ [])
    (hall : (word.all fun a ↦ decide (a ∉ marker)) = true) : ¬Meets word marker := by
  have h : ∀ a ∈ word, a ∉ marker := fun a ha ↦ of_decide_eq_true (List.all_eq_true.mp hall a ha)
  have hlast : ∀ part : List α, part ≠ [] → (∀ a ∈ part, a ∈ word) → (∀ a ∈ part, a ∈ marker) →
      False := by
    intro part hpart hin hon
    obtain ⟨a, ha⟩ := List.exists_mem_of_ne_nil part hpart
    exact h a (hin a ha) (hon a ha)
  rintro (hin | ⟨a, b, rfl, hb, hon⟩ | ⟨a, b, rfl, ha, hon⟩ | hin)
  · exact hlast word hword (fun _ ha ↦ ha) fun _ ha ↦ hin.subset ha
  · exact hlast b hb (fun _ hx ↦ List.mem_append_right a hx) fun _ hx ↦ hon.subset hx
  · exact hlast a ha (fun _ hx ↦ List.mem_append_left b hx) fun _ hx ↦ hon.subset hx
  · exact hlast marker hmarker (fun _ ha ↦ hin.subset ha) fun _ ha ↦ ha

omit [DecidableEq α] in
/-- A word that keeps clear of the marker stands on one of its sides. -/
theorem infix_of_infix_marker (hclear : ¬Meets word marker) {before after : List α}
    (h : word <:+: before ++ marker ++ after) : word <:+: before ∨ word <:+: after := by
  rcases List.infix_append_iff.mp h with hleft | hright | ⟨a, b, hword, ha, hb⟩
  · rcases List.infix_append_iff.mp hleft with hbefore | hmarker | ⟨a, b, hword, ha, hb⟩
    · exact .inl hbefore
    · exact absurd (.inl hmarker) hclear
    · by_cases hempty : b = []
      · rw [hword, hempty, List.append_nil]
        exact .inl ha.isInfix
      · exact absurd (.inr (.inl ⟨a, b, hword, hempty, hb⟩)) hclear
  · exact .inr hright
  · by_cases hempty : a = []
    · rw [hword, hempty, List.nil_append]
      exact .inr hb.isInfix
    · obtain ⟨front, hfront⟩ := ha
      rcases List.append_eq_append_iff.mp hfront with ⟨c, hc, hc'⟩ | ⟨c, hc, hc'⟩
      · refine absurd (.inr (.inr (.inr ?_))) hclear
        rw [hword, hc']
        exact (List.infix_append c marker b)
      · exact absurd (.inr (.inr (.inl ⟨a, b, hword, hempty, ⟨c, hc'.symm⟩⟩))) hclear

omit [DecidableEq α] in
theorem infix_of_infix_intercalate (hword : word ≠ []) (hclear : ¬Meets word marker)
    {pieces : List (List α)} (h : word <:+: marker.intercalate pieces) :
    ∃ piece ∈ pieces, word <:+: piece := by
  induction pieces with
  | nil => exact absurd (List.infix_nil.mp h) hword
  | cons piece pieces ih =>
      cases pieces with
      | nil =>
          rw [List.intercalate_singleton] at h
          exact ⟨piece, List.mem_cons_self, h⟩
      | cons next pieces =>
          rw [List.intercalate_cons_cons] at h
          rcases infix_of_infix_marker hclear h with hpiece | hrest
          · exact ⟨piece, List.mem_cons_self, hpiece⟩
          · obtain ⟨q, hq, hin⟩ := ih hrest
            exact ⟨q, List.mem_cons_of_mem piece hq, hin⟩

theorem infix_of_infix_replace (hword : word ≠ []) (hclear : ¬Meets other marker)
    (h : other <:+: replace word marker text) : other <:+: text := by
  induction hlength : text.length using Nat.strongRecOn generalizing text with
  | ind n ih =>
      rcases replace_cases hword marker text with ⟨_, heq⟩ | ⟨before, after, htext, _, heq⟩
      · rw [heq] at h
        exact h
      · rw [heq] at h
        rw [htext]
        rcases infix_of_infix_marker hclear h with hbefore | hafter
        · exact List.infix_append_of_infix_left (List.infix_append_of_infix_left hbefore)
        · have hpos := List.length_pos_iff.mpr hword
          have hlt : after.length < n := by
            rw [← hlength, htext]
            simp only [List.length_append]
            omega
          exact List.infix_append_of_infix_right (ih after.length hlt hafter rfl)

theorem not_infix_replace (hword : word ≠ []) (hclear : ¬Meets word marker) :
    ¬ word <:+: replace word marker text := by
  induction hlength : text.length using Nat.strongRecOn generalizing text with
  | ind n ih =>
      intro h
      rcases replace_cases hword marker text with ⟨hno, heq⟩ | ⟨before, after, htext, hbefore, heq⟩
      · rw [heq] at h
        exact hno h
      · rw [heq] at h
        rcases infix_of_infix_marker hclear h with hin | hafter
        · exact hbefore hin
        · have hpos := List.length_pos_iff.mpr hword
          have hlt : after.length < n := by
            rw [← hlength, htext]
            simp only [List.length_append]
            omega
          exact ih after.length hlt rfl hafter

/-! ## Striking out several words -/

/-- The words are struck out one after the other. -/
def strike (words : List (List α)) (marker text : List α) : List α :=
  words.foldl (fun t word ↦ replace word marker t) text

variable {words : List (List α)}

theorem infix_of_infix_strike (hwords : ∀ w ∈ words, w ≠ []) (hclear : ¬Meets other marker)
    (h : other <:+: strike words marker text) : other <:+: text := by
  induction words generalizing text with
  | nil => exact h
  | cons w words ih =>
      have hrest := ih (fun v hv ↦ hwords v (List.mem_cons_of_mem w hv)) h
      exact infix_of_infix_replace (hwords w List.mem_cons_self) hclear hrest

/-- Words that keep clear of the marker are gone. -/
theorem not_infix_strike (hwords : ∀ w ∈ words, w ≠ []) (hclear : ∀ w ∈ words, ¬Meets w marker)
    {w : List α} (hw : w ∈ words) : ¬ w <:+: strike words marker text := by
  induction words generalizing text with
  | nil => cases hw
  | cons v words ih =>
      intro h
      have hne := fun u hu ↦ hwords u (List.mem_cons_of_mem v hu)
      rcases List.mem_cons.mp hw with rfl | hmem
      · have hgone := infix_of_infix_strike hne (hclear w List.mem_cons_self) h
        exact not_infix_replace (hwords w List.mem_cons_self) (hclear w List.mem_cons_self) hgone
      · exact ih hne (fun u hu ↦ hclear u (List.mem_cons_of_mem v hu)) hmem h

theorem strike_of_absent (hwords : ∀ w ∈ words, w ≠ []) (h : ∀ w ∈ words, ¬ w <:+: text) :
    strike words marker text = text := by
  induction words with
  | nil => rfl
  | cons w words ih =>
      have hsame : replace w marker text = text :=
        replace_of_absent (hwords w List.mem_cons_self) (h w List.mem_cons_self)
      unfold strike
      rw [List.foldl_cons, hsame]
      exact ih (fun v hv ↦ hwords v (List.mem_cons_of_mem w hv))
        fun v hv ↦ h v (List.mem_cons_of_mem w hv)

/-- The marker that was put in last is there in the end. -/
theorem marker_infix_strike (hwords : ∀ w ∈ words, w ≠ []) (h : ∃ w ∈ words, w <:+: text) :
    marker <:+: strike words marker text := by
  induction words generalizing text with
  | nil =>
      obtain ⟨w, hw, _⟩ := h
      cases hw
  | cons v words ih =>
      have hne := fun u hu ↦ hwords u (List.mem_cons_of_mem v hu)
      have hv := hwords v List.mem_cons_self
      by_cases hrest : ∃ w ∈ words, w <:+: replace v marker text
      · exact ih hne hrest
      · have hsame : strike words marker (replace v marker text) = replace v marker text :=
          strike_of_absent hne fun w hw hin ↦ hrest ⟨w, hw, hin⟩
        have hstep : strike (v :: words) marker text = strike words marker (replace v marker text) :=
          rfl
        rw [hstep, hsame]
        by_cases hin : v <:+: text
        · exact marker_infix_replace hv hin
        · obtain ⟨w, hw, hwt⟩ := h
          rw [replace_of_absent hv hin] at hrest
          rcases List.mem_cons.mp hw with rfl | hmem
          · exact absurd hwt hin
          · exact absurd ⟨w, hmem, hwt⟩ hrest

end ShejaneRuntime.Lib
