import ShejaneRuntime.Context.Sizes

/-!
# Sound envelopes

What an envelope keeps of the messages, and when it fits the limit: the last
resort is sent whether it fits or not, and the latest turn is cut off from what
came before it, whatever tool calls lie on both sides.
-/

namespace ShejaneRuntime.Context

open Lib

variable {β : Type}

/-- A message after any number of cuts. -/
inductive Cut (serializedSize : List (Block β) → ℕ) (m : Message β) : Message β → Prop
  | refl : Cut serializedSize m m
  | cut {m' : Message β} (n : ℕ) :
      Cut serializedSize m m' → Cut serializedSize m (truncateLargeMessage serializedSize m' n)

def Message.Calls (m : Message β) (id : String) : Prop := m.role = .ai ∧ id ∈ m.toolCalls

def Message.Answers (m : Message β) (id : String) : Prop :=
  m.role = .tool ∧ m.toolCallId = some id

instance (m : Message β) (id : String) : Decidable (m.Calls id) :=
  inferInstanceAs (Decidable (_ ∧ _))

instance (m : Message β) (id : String) : Decidable (m.Answers id) :=
  inferInstanceAs (Decidable (_ ∧ _))

/-- No result without its call, and no call without its result, of those that there are. -/
structure Paired (messages out : List (Message β)) : Prop where
  results : ∀ t ∈ out, ∀ id, t.Answers id → (∃ a ∈ messages, a.Calls id) → ∃ a ∈ out, a.Calls id
  calls : ∀ a ∈ out, ∀ id, a.Calls id → (∃ t ∈ messages, t.Answers id) → ∃ t ∈ out, t.Answers id

/-- The envelope consists of messages in their order, cut, and at most a marker between them;
the latest human message is one of them. -/
def InOrder (serializedSize : List (Block β) → ℕ) (messages out : List (Message β)) : Prop :=
  ∃ kept : List ℕ, kept.Pairwise (· < ·) ∧
    (∀ index, latestHuman messages = some index → index ∈ kept) ∧
    ∃ front back, (out = front ++ back ∨ out = front ++ marker :: back) ∧
      List.Forall₂ (fun index m ↦ ∃ original, messages[index]? = some original ∧
        Cut serializedSize original m) kept (front ++ back)

structure Sound (serializedSize : List (Block β) → ℕ) (cost : Message β → ℕ)
    (messages : List (Message β)) (maxTokens : ℕ) (out : List (Message β)) : Prop where
  within : conservativeTokenCount cost out ≤ maxTokens
  inOrder : InOrder serializedSize messages out
  paired : Paired messages out

variable {serializedSize : List (Block β) → ℕ} {cost : Message β → ℕ} {m m' h : Message β}
  {messages turn pre l post : List (Message β)} {maxTokens index n : ℕ}

/-! ## What a cut leaves -/

theorem truncateLargeMessage_eq (m : Message β) (n : ℕ) :
    ∃ content, truncateLargeMessage serializedSize m n = { m with content } := by
  unfold truncateLargeMessage
  split
  · split
    · exact ⟨m.content, rfl⟩
    · exact ⟨_, rfl⟩
  · dsimp only
    split
    · exact ⟨_, rfl⟩
    · split
      · exact ⟨m.content, rfl⟩
      · exact ⟨_, rfl⟩

theorem Cut.eq (h : Cut serializedSize m m') : ∃ content, m' = { m with content } := by
  induction h with
  | refl => exact ⟨m.content, rfl⟩
  | cut n _ ih =>
      obtain ⟨content, rfl⟩ := ih
      exact truncateLargeMessage_eq _ n

theorem Cut.role (h : Cut serializedSize m m') : m'.role = m.role := by
  obtain ⟨content, rfl⟩ := h.eq
  rfl

theorem Cut.calls {id : String} (h : Cut serializedSize m m') : m'.Calls id ↔ m.Calls id := by
  obtain ⟨content, rfl⟩ := h.eq
  rfl

theorem Cut.answers {id : String} (h : Cut serializedSize m m') :
    m'.Answers id ↔ m.Answers id := by
  obtain ⟨content, rfl⟩ := h.eq
  rfl

theorem Cut.trans {m'' : Message β} (h : Cut serializedSize m m')
    (h' : Cut serializedSize m' m'') : Cut serializedSize m m'' := by
  induction h' with
  | refl => exact h
  | cut n _ ih => exact .cut n ih

/-! ## The parts of a list of messages -/

theorem Paired.map {out : List (Message β)} {f : Message β → Message β}
    (hf : ∀ m, Cut serializedSize m (f m)) :
    Paired messages (out.map f) ↔ Paired messages out := by
  have hcalls : ∀ id, (∃ a ∈ out.map f, a.Calls id) ↔ ∃ a ∈ out, a.Calls id := by
    intro id
    simp [(hf _).calls]
  have hanswers : ∀ id, (∃ t ∈ out.map f, t.Answers id) ↔ ∃ t ∈ out, t.Answers id := by
    intro id
    simp [(hf _).answers]
  constructor
  · intro h
    refine ⟨?_, ?_⟩
    · intro t ht id hid hcall
      exact (hcalls id).mp (h.results (f t) (List.mem_map_of_mem ht) id
        ((hf t).answers.mpr hid) hcall)
    · intro a ha id hid hanswer
      exact (hanswers id).mp (h.calls (f a) (List.mem_map_of_mem ha) id
        ((hf a).calls.mpr hid) hanswer)
  · intro h
    refine ⟨?_, ?_⟩
    · intro t' ht' id hid hcall
      obtain ⟨t, ht, rfl⟩ := List.mem_map.mp ht'
      exact (hcalls id).mpr (h.results t ht id ((hf t).answers.mp hid) hcall)
    · intro a' ha' id hid hanswer
      obtain ⟨a, ha, rfl⟩ := List.mem_map.mp ha'
      exact (hanswers id).mpr (h.calls a ha id ((hf a).calls.mp hid) hanswer)

section

variable (serializedSize : List (Block β) → ℕ) (cost : Message β → ℕ)
  (messages : List (Message β)) (maxTokens : ℕ)

/-- The size of what comes first: the leading system messages and the marker. -/
def frontSize : ℕ :=
  heldSize serializedSize cost (systemPrefix messages) (maxSingleChars maxTokens) + cost marker

/-- The room behind it, or 128. -/
def turnRoom : ℕ := max 128 (maxTokens - frontSize serializedSize cost messages maxTokens)

/-- The latest turn with its texts held to the limit of a single message. -/
def heldTurn : List (Message β) :=
  (latestTurn messages).map (·.held serializedSize (maxSingleChars maxTokens))

/-- The limit by which the turn keeps to the room, halving between 128 and its longest text. -/
def turnLimit : Option ℕ :=
  let turn := heldTurn serializedSize messages maxTokens
  let past := longestText turn + 1
  searchGreatest (fun n ↦ heldSize serializedSize cost turn n ≤
    turnRoom serializedSize cost messages maxTokens) (past - 128) 128 past none

/-- It is the greatest limit that does where the turn has no result without a text. -/
theorem mem_turnLimit_iff {serializedSize : List (Block β) → ℕ} {cost : Message β → ℕ}
    (hmono : GrowsWithText cost)
    (hbinary : ∀ m ∈ heldTurn serializedSize messages maxTokens, ¬m.Binary) {n : ℕ} :
    n ∈ turnLimit serializedSize cost messages maxTokens ↔
      GreatestIn (fun n ↦ heldSize serializedSize cost (heldTurn serializedSize messages maxTokens) n
          ≤ turnRoom serializedSize cost messages maxTokens) 128
        (longestText (heldTurn serializedSize messages maxTokens) + 1) n := by
  have hdown : ∀ a b, 128 ≤ a → a ≤ b →
      b < longestText (heldTurn serializedSize messages maxTokens) + 1 →
      decide (heldSize serializedSize cost (heldTurn serializedSize messages maxTokens) b ≤
        turnRoom serializedSize cost messages maxTokens) = true →
      decide (heldSize serializedSize cost (heldTurn serializedSize messages maxTokens) a ≤
        turnRoom serializedSize cost messages maxTokens) = true := by
    intro a b _ hab _ hb
    rw [decide_eq_true_eq] at hb ⊢
    refine Nat.le_trans ?_ hb
    rw [← count_truncate hmono, ← count_truncate hmono]
    exact count_mono hmono hbinary hab
  unfold turnLimit
  dsimp only
  rcases searchGreatest_spec (o := none) (Nat.le_refl _) hdown with
    ⟨c, hsearch, hc⟩ | ⟨hsearch, hnone⟩
  · rw [hsearch]
    constructor
    · intro h
      obtain rfl := Option.some.inj h
      exact hc
    · intro h
      have hle := hc.le h.lt_past h.holds
      have hge := h.le hc.lt_past hc.holds
      exact congrArg some (Nat.le_antisymm hge hle)
  · rw [hsearch]
    constructor
    · rintro ⟨⟩
    · intro h
      have hnot := hnone n h.low_le h.lt_past
      rw [h.holds] at hnot
      cases hnot

end

namespace Overlong

/-- A token for each character, and three for each message. -/
def tokens (message : Message Unit) : ℕ :=
  message.content.stringLength.getD 0 + message.name.elim 0 String.length +
    message.toolCallId.elim 0 String.length + (message.toolCalls.map String.length).sum +
    (match message.role with
      | .system => "system".length
      | .human => "user".length
      | .ai => "assistant".length
      | .tool => "tool".length) + 3

def say (role : Role) (length : ℕ) : Message Unit where
  role := role
  name := none
  content := .text (String.ofList (List.replicate length 'x'))
  toolCalls := if role = .ai then ["call_1"] else []
  toolCallId := if role = .tool then some "call_1" else none
  artifactId := none

def crowded : List (Message Unit) := [say .system 100, say .system 100, say .human 2]

theorem monotone_tokens : GrowsWithText tokens := by
  intro m content content' h
  have hlength : content.stringLength.getD 0 ≤ content'.stringLength.getD 0 := by
    cases h with
    | text hle => exact hle
    | blocks _ => exact Nat.le_refl 0
  unfold tokens
  dsimp only
  omega

end Overlong

end ShejaneRuntime.Context
