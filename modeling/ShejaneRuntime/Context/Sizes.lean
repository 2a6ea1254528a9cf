import ShejaneRuntime.Context.Cuts

/-!
# The sizes of messages

A counter that grows with the texts of a message sees nothing of a text but its
length: so what a cut message counts is told by the lengths of the texts before
the cut.
-/

namespace ShejaneRuntime.Context

open Lib

variable {β : Type} {serializedSize : List (Block β) → ℕ} {cost : Message β → ℕ}

/-! ## Blank messages -/

/-- A text of which only the length is left. -/
def blanks (n : ℕ) : String := String.ofList (List.replicate n ' ')

def Block.blank : Block β → Block β
  | .str own => .str (blanks own.length)
  | .text own rest => .text (blanks own.length) rest
  | .other block => .other block

def Content.blank : Content β → Content β
  | .text own => .text (blanks own.length)
  | .blocks own => .blocks (own.map Block.blank)

def Message.blank (m : Message β) : Message β := { m with content := m.content.blank }

theorem length_blanks (n : ℕ) : (blanks n).length = n := by
  rw [blanks, String.length_ofList, List.length_replicate]

theorem Block.le_blank (block : Block β) : block.Le block.blank ∧ block.blank.Le block := by
  cases block with
  | str own =>
      exact ⟨.str (Nat.le_of_eq (length_blanks _).symm), .str (Nat.le_of_eq (length_blanks _))⟩
  | text own rest =>
      exact ⟨.text (Nat.le_of_eq (length_blanks _).symm), .text (Nat.le_of_eq (length_blanks _))⟩
  | other block => exact ⟨.other block, .other block⟩

theorem Content.le_blank (content : Content β) :
    content.Le content.blank ∧ content.blank.Le content := by
  cases content with
  | text own =>
      exact ⟨.text (Nat.le_of_eq (length_blanks _).symm), .text (Nat.le_of_eq (length_blanks _))⟩
  | blocks own =>
      constructor
      · apply Content.Le.blocks
        rw [List.forall₂_map_right_iff, List.forall₂_same]
        exact fun block _ ↦ block.le_blank.1
      · apply Content.Le.blocks
        rw [List.forall₂_map_left_iff, List.forall₂_same]
        exact fun block _ ↦ block.le_blank.2

/-- The counter sees no characters. -/
theorem cost_blank (hmono : GrowsWithText cost) (m : Message β) : cost m.blank = cost m := by
  have hself : m = { m with content := m.content } := rfl
  apply Nat.le_antisymm
  · conv => rhs; rw [hself]
    exact hmono m _ _ m.content.le_blank.2
  · conv => lhs; rw [hself]
    exact hmono m _ _ m.content.le_blank.1

/-! ## Held messages -/

def Block.held (limit : ℕ) (block : Block β) : Block β :=
  match block.part with
  | none => block
  | some own => block.withPart (blanks (min own.length limit))

variable (serializedSize) in
/-- A message with its texts held to `n` characters together. A result without a text is held by
its notice, if it is large. -/
def Message.held (n : ℕ) (m : Message β) : Message β :=
  match m.content with
  | .text own => { m with content := .text (blanks (min own.length n)) }
  | .blocks own =>
      let parts := own.filterMap Block.part
      if parts = [] ∧ m.role = .tool ∧ n < serializedSize own then
        { m with content := .text (blanks (omission m).length) }
      else { m with content := .blocks (own.map (Block.held (perPartLimit parts n))) }

theorem blank_of_part_none {block : Block β} (h : block.part = none) : block.blank = block := by
  have hown : ∀ own : String, (if own = "" then none else some own) = none →
      blanks own.length = own := by
    intro own hnone
    split at hnone
    · rename_i hempty
      rw [hempty]
      rfl
    · cases hnone
  cases block with
  | str own => exact congrArg Block.str (hown own h)
  | text own rest => exact congrArg (Block.text · rest) (hown own h)
  | other block => rfl

theorem blank_withPart (block : Block β) (text : String) :
    (block.withPart text).blank = block.withPart (blanks text.length) := by
  cases block <;> rfl

theorem blank_cut (block : Block β) (n : ℕ) : (block.cut n).blank = block.held n := by
  unfold Block.cut Block.held
  cases hpart : block.part with
  | none => exact blank_of_part_none hpart
  | some text =>
      dsimp only
      rw [blank_withPart, length_cutText]

/-- Parts that keep to the limit together are whole below the limit of each. -/
theorem length_le_perPartLimit {parts : List String} {n : ℕ}
    (h : (parts.map String.length).sum ≤ n) {text : String} (ht : text ∈ parts) :
    text.length ≤ perPartLimit parts n := by
  have hlongest : text.length ≤ (parts.map String.length).foldl max 0 :=
    length_le_foldl_max (.inl (List.mem_map_of_mem ht))
  refine Nat.le_trans hlongest ((perPartLimit_greatest parts n).le (Nat.lt_succ_self _) ?_)
  rw [decide_eq_true_eq]
  refine Nat.le_trans (Nat.le_of_eq ?_) h
  congr 1
  apply List.map_congr_left
  intro own hown
  exact Nat.min_eq_left (length_le_foldl_max (.inl (List.mem_map_of_mem hown)))

/-- What is left of a cut message, but for the characters. -/
theorem blank_truncate (m : Message β) (n : ℕ) :
    (truncateLargeMessage serializedSize m n).blank = m.held serializedSize n := by
  cases hcontent : m.content with
  | text own =>
      rw [truncate_text hcontent]
      unfold Message.held Message.blank Content.blank
      rw [hcontent]
      dsimp only
      rw [length_cutText]
  | blocks own =>
      unfold Message.held
      rw [hcontent]
      dsimp only
      by_cases hbinary : own.filterMap Block.part = [] ∧ m.role = .tool ∧ n < serializedSize own
      · rw [if_pos hbinary]
        unfold truncateLargeMessage
        rw [hcontent]
        dsimp only
        rw [if_pos hbinary]
        rfl
      · rw [if_neg hbinary]
        unfold truncateLargeMessage
        rw [hcontent]
        dsimp only
        rw [if_neg hbinary]
        split
        · rename_i hsum
          have hblank : m.blank = { m with content := .blocks (own.map Block.blank) } := by
            unfold Message.blank
            rw [hcontent]
            rfl
          rw [hblank]
          congr 2
          apply List.map_congr_left
          intro block hblock
          unfold Block.held
          cases hpart : block.part with
          | none => exact blank_of_part_none hpart
          | some text =>
              have hle := length_le_perPartLimit hsum (List.mem_filterMap.mpr ⟨block, hblock, hpart⟩)
              dsimp only
              rw [Nat.min_eq_left hle, ← blank_withPart, Block.withPart_part hpart]
        · unfold Message.blank Content.blank
          dsimp only
          rw [List.map_map]
          congr 2
          apply List.map_congr_left
          intro block _
          exact blank_cut block _

theorem cost_truncate (hmono : GrowsWithText cost) (m : Message β) (n : ℕ) :
    cost (truncateLargeMessage serializedSize m n) = cost (m.held serializedSize n) := by
  rw [← blank_truncate, cost_blank hmono]

variable (serializedSize cost) in
/-- What messages count with the texts of each one held to `n` characters. -/
def heldSize (messages : List (Message β)) (n : ℕ) : ℕ :=
  conservativeTokenCount cost (messages.map (·.held serializedSize n))

theorem count_truncate (hmono : GrowsWithText cost) (messages : List (Message β)) (n : ℕ) :
    conservativeTokenCount cost (messages.map (truncateLargeMessage serializedSize · n)) =
      heldSize serializedSize cost messages n := by
  unfold heldSize conservativeTokenCount
  rw [List.map_map, List.map_map]
  congr 1
  apply List.map_congr_left
  exact fun m _ ↦ cost_truncate hmono m n

end ShejaneRuntime.Context
