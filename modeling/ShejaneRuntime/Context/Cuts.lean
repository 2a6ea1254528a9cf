import ShejaneRuntime.Context.Envelope

/-!
# How far messages are cut

A cut text is as long as its limit, and the searches for the limit find the
greatest one: that of the parts of a content, and that of the messages of a turn.
-/

namespace ShejaneRuntime.Context

open Lib

variable {β : Type} {serializedSize : List (Block β) → ℕ} {cost : Message β → ℕ}
  {m m' : Message β} {messages : List (Message β)} {parts : List String} {text : String}
  {n n' limit budget : ℕ}

/-! ## Cut texts -/

/-- The cut as the callers make it, of longer texts alone. -/
def cutText (text : String) (n : ℕ) : String :=
  if text.length ≤ n then text else truncateText text n

theorem length_truncateText_le (text : String) (n : ℕ) : (truncateText text n).length ≤ n := by
  unfold truncateText
  dsimp only
  split
  · rename_i hle
    rw [String.length_ofList, List.length_take]
    omega
  · rename_i hlt
    simp only [String.length_append, String.length_ofList, List.length_take, List.length_drop,
      String.length_toList]
    simp only [String.length_append] at hlt
    omega

/-- A longer text is cut to the limit and no further. -/
theorem length_truncateText (h : n ≤ text.length) : (truncateText text n).length = n := by
  unfold truncateText
  dsimp only
  split
  · rename_i hle
    rw [String.length_ofList, List.length_take, String.length_toList]
    omega
  · rename_i hlt
    simp only [String.length_append, String.length_ofList, List.length_take, List.length_drop,
      String.length_toList]
    simp only [String.length_append] at hlt
    omega

theorem length_cutText (text : String) (n : ℕ) : (cutText text n).length = min text.length n := by
  unfold cutText
  split
  · omega
  · rw [length_truncateText (by omega)]
    omega

/-! ## The limit of the parts of a content -/

theorem length_le_foldl_max {l : List ℕ} {start a : ℕ} (h : a ∈ l ∨ a ≤ start) :
    a ≤ l.foldl max start := by
  induction l generalizing start with
  | nil => exact h.resolve_left List.not_mem_nil
  | cons b l ih =>
      apply ih
      rcases h with h | h
      · rcases List.mem_cons.mp h with rfl | h
        · exact .inr (Nat.le_max_right _ _)
        · exact .inl h
      · exact .inr (Nat.le_trans h (Nat.le_max_left _ _))

theorem sum_min_mono (parts : List String) (h : n ≤ n') :
    (parts.map fun text ↦ min text.length n).sum ≤
      (parts.map fun text ↦ min text.length n').sum := by
  induction parts with
  | nil => exact Nat.le_refl 0
  | cons text parts ih =>
      simp only [List.map_cons, List.sum_cons]
      omega

theorem perPartLimit_greatest (parts : List String) (n : ℕ) :
    GreatestIn (fun limit ↦ (parts.map fun text ↦ min text.length limit).sum ≤ n) 0
      ((parts.map String.length).foldl max 0 + 1) (perPartLimit parts n) := by
  have hdown : ∀ a b, 0 ≤ a → a ≤ b → b < (parts.map String.length).foldl max 0 + 1 →
      decide ((parts.map fun text ↦ min text.length b).sum ≤ n) = true →
      decide ((parts.map fun text ↦ min text.length a).sum ≤ n) = true := by
    intro a b _ hab _ hb
    rw [decide_eq_true_eq] at hb ⊢
    exact Nat.le_trans (sum_min_mono parts hab) hb
  have hzero : (parts.map fun text ↦ min text.length 0).sum = 0 := by
    induction parts with
    | nil => rfl
    | cons text parts ih => simp
  rcases searchGreatest_spec (o := none) (Nat.le_refl _) hdown with ⟨c, hsearch, hc⟩ | ⟨_, hnone⟩
  · unfold perPartLimit
    dsimp only
    rw [Nat.sub_zero] at hsearch
    rw [hsearch]
    exact hc
  · have h := hnone 0 (Nat.le_refl 0) (Nat.succ_pos _)
    rw [decide_eq_false_iff_not, hzero] at h
    exact absurd (Nat.zero_le n) h

theorem perPartLimit_mono (parts : List String) (h : n ≤ n') :
    perPartLimit parts n ≤ perPartLimit parts n' := by
  have hn := perPartLimit_greatest parts n
  refine (perPartLimit_greatest parts n').le hn.lt_past ?_
  have hholds := hn.holds
  rw [decide_eq_true_eq] at hholds ⊢
  exact Nat.le_trans hholds h

/-! ## Shorter messages -/

inductive Block.Le : Block β → Block β → Prop
  | str {text text' : String} : text.length ≤ text'.length → Le (.str text) (.str text')
  | text {text text' : String} {rest : β} :
      text.length ≤ text'.length → Le (.text text rest) (.text text' rest)
  | other (block : β) : Le (.other block) (.other block)

inductive Content.Le : Content β → Content β → Prop
  | text {text text' : String} : text.length ≤ text'.length → Le (.text text) (.text text')
  | blocks {blocks blocks' : List (Block β)} :
      List.Forall₂ Block.Le blocks blocks' → Le (.blocks blocks) (.blocks blocks')

/-- The count of tokens grows with the texts of a message. -/
def GrowsWithText (cost : Message β → ℕ) : Prop :=
  ∀ (m : Message β) (content content' : Content β), content.Le content' →
    cost { m with content := content } ≤ cost { m with content := content' }

theorem Block.Le.refl (block : Block β) : block.Le block := by
  cases block with
  | str text => exact .str (Nat.le_refl _)
  | text text rest => exact .text (Nat.le_refl _)
  | other block => exact .other block

theorem Content.Le.refl (content : Content β) : content.Le content := by
  cases content with
  | text text => exact .text (Nat.le_refl _)
  | blocks blocks => exact .blocks (List.forall₂_same.mpr fun block _ ↦ .refl block)

theorem Block.withPart_le {block : Block β} {a b : String} (h : a.length ≤ b.length) :
    (block.withPart a).Le (block.withPart b) := by
  cases block with
  | str text => exact .str h
  | text text rest => exact .text h
  | other block => exact .other block

theorem Block.withPart_part {block : Block β} (h : block.part = some text) :
    block.withPart text = block := by
  cases block with
  | str own =>
      unfold Block.part at h
      dsimp only at h
      split at h
      · cases h
      · obtain rfl := Option.some.inj h
        rfl
  | text own rest =>
      unfold Block.part at h
      dsimp only at h
      split at h
      · cases h
      · obtain rfl := Option.some.inj h
        rfl
  | other block => cases h

/-! ## Cut messages -/

def Block.cut (limit : ℕ) (block : Block β) : Block β :=
  match block.part with
  | none => block
  | some text => block.withPart (cutText text limit)

theorem Block.cut_mono (block : Block β) (h : n ≤ n') : (block.cut n).Le (block.cut n') := by
  unfold Block.cut
  cases block.part with
  | none => exact .refl block
  | some text =>
      apply Block.withPart_le
      rw [length_cutText, length_cutText]
      omega

theorem Block.cut_le (block : Block β) (n : ℕ) : (block.cut n).Le block := by
  unfold Block.cut
  cases hpart : block.part with
  | none => exact .refl block
  | some text =>
      conv => rhs; rw [← Block.withPart_part hpart]
      apply Block.withPart_le
      rw [length_cutText]
      omega

/-- A result that holds no text at all is left out as a whole, if it is large. -/
def Message.Binary (m : Message β) : Prop :=
  m.role = .tool ∧ ∃ blocks, m.content = .blocks blocks ∧ blocks.filterMap Block.part = []

theorem truncate_text (h : m.content = .text text) (n : ℕ) :
    truncateLargeMessage serializedSize m n = { m with content := .text (cutText text n) } := by
  unfold truncateLargeMessage cutText
  rw [h]
  dsimp only
  split
  · rw [← h]
  · rfl

theorem truncate_blocks {blocks : List (Block β)} (h : m.content = .blocks blocks)
    (hbinary : ¬m.Binary) (n : ℕ) : truncateLargeMessage serializedSize m n =
      if ((blocks.filterMap Block.part).map String.length).sum ≤ n then m
      else
        { m with
          content := .blocks (blocks.map fun block ↦
            block.cut (perPartLimit (blocks.filterMap Block.part) n)) } := by
  unfold truncateLargeMessage
  rw [h]
  dsimp only
  rw [if_neg fun hempty ↦ hbinary ⟨hempty.2.1, blocks, h, hempty.1⟩]
  rfl

variable (serializedSize) in
/-- A smaller limit leaves no more text. -/
theorem truncate_mono (hbinary : ¬m.Binary) (h : n ≤ n') :
    ∃ content content', truncateLargeMessage serializedSize m n = { m with content := content } ∧
      truncateLargeMessage serializedSize m n' = { m with content := content' } ∧
      content.Le content' := by
  cases hcontent : m.content with
  | text text =>
      refine ⟨_, _, truncate_text hcontent n, truncate_text hcontent n', .text ?_⟩
      rw [length_cutText, length_cutText]
      omega
  | blocks blocks =>
      have hself : m = { m with content := .blocks blocks } := by rw [← hcontent]
      rw [truncate_blocks hcontent hbinary, truncate_blocks hcontent hbinary]
      by_cases hn : ((blocks.filterMap Block.part).map String.length).sum ≤ n
      · rw [if_pos hn, if_pos (Nat.le_trans hn h)]
        exact ⟨_, _, hself, hself, .refl _⟩
      · rw [if_neg hn]
        by_cases hn' : ((blocks.filterMap Block.part).map String.length).sum ≤ n'
        · rw [if_pos hn']
          refine ⟨_, _, rfl, hself, .blocks ?_⟩
          rw [List.forall₂_map_left_iff, List.forall₂_same]
          exact fun block _ ↦ block.cut_le _
        · rw [if_neg hn']
          refine ⟨_, _, rfl, rfl, .blocks ?_⟩
          rw [List.forall₂_map_left_iff, List.forall₂_map_right_iff, List.forall₂_same]
          exact fun block _ ↦ block.cut_mono (perPartLimit_mono _ h)

def Content.textLength : Content β → ℕ
  | .text own => own.length
  | .blocks own => ((own.filterMap Block.part).map String.length).sum

theorem sum_cut (blocks : List (Block β)) (limit : ℕ) :
    (((blocks.map (Block.cut limit)).filterMap Block.part).map String.length).sum =
      ((blocks.filterMap Block.part).map fun text ↦ min text.length limit).sum := by
  induction blocks with
  | nil => rfl
  | cons block blocks ih =>
      rw [List.map_cons]
      cases hpart : block.part with
      | none =>
          have hcut : block.cut limit = block := by
            unfold Block.cut
            rw [hpart]
          rw [hcut, List.filterMap_cons_none hpart, List.filterMap_cons_none hpart, ih]
      | some text =>
          have hcut : block.cut limit = block.withPart (cutText text limit) := by
            unfold Block.cut
            rw [hpart]
          have hnew : (block.withPart (cutText text limit)).part =
              if cutText text limit = "" then none else some (cutText text limit) := by
            cases block with
            | str own => rfl
            | text own rest => rfl
            | other block => cases hpart
          rw [hcut, List.filterMap_cons_some hpart, List.map_cons, List.sum_cons, ← ih]
          by_cases hempty : cutText text limit = ""
          · have hzero : min text.length limit = 0 := by
              rw [← length_cutText, hempty]
              rfl
            rw [if_pos hempty] at hnew
            rw [List.filterMap_cons_none hnew, hzero, Nat.zero_add]
          · rw [if_neg hempty] at hnew
            rw [List.filterMap_cons_some hnew, List.map_cons, List.sum_cons, length_cutText]

/-- A cut message keeps to its limit. -/
theorem textLength_truncate_le (hbinary : ¬m.Binary) (n : ℕ) :
    (truncateLargeMessage serializedSize m n).content.textLength ≤ n := by
  cases hcontent : m.content with
  | text text =>
      rw [truncate_text hcontent]
      change (cutText text n).length ≤ n
      rw [length_cutText]
      omega
  | blocks blocks =>
      rw [truncate_blocks hcontent hbinary]
      split
      · rename_i hle
        rw [hcontent]
        exact hle
      · change (((blocks.map (Block.cut _)).filterMap Block.part).map String.length).sum ≤ n
        rw [sum_cut]
        have hholds := (perPartLimit_greatest (blocks.filterMap Block.part) n).holds
        rwa [decide_eq_true_eq] at hholds

/-! ## The limit of the messages of a turn -/

/-- The limits that a search may settle on. -/
def Admissible (n : ℕ) : Prop := 128 ≤ n

/-- The content of the message is one text. -/
def Message.IsText (m : Message β) : Prop := ∃ text, m.content = .text text

theorem Message.IsText.not_binary (h : m.IsText) : ¬m.Binary := by
  rintro ⟨_, blocks, hblocks, _⟩
  obtain ⟨text, htext⟩ := h
  rw [htext] at hblocks
  cases hblocks

theorem length_le_longestText (hm : m ∈ messages) (h : m.content = .text text) :
    text.length ≤ longestText messages := by
  unfold longestText
  have hmem : text.length ∈ messages.filterMap fun m ↦ m.content.stringLength := by
    rw [List.mem_filterMap]
    exact ⟨m, hm, by rw [h]; rfl⟩
  split
  · rename_i hnil
    rw [hnil] at hmem
    cases hmem
  · rename_i length lengths hcons
    rw [hcons] at hmem
    apply length_le_foldl_max
    rcases List.mem_cons.mp hmem with heq | hmem
    · exact .inr (Nat.le_of_eq heq)
    · exact .inl hmem

/-- A limit past the longest text cuts none of the texts. -/
theorem truncate_past_longest (htext : ∀ m ∈ messages, m.IsText) (hn : longestText messages ≤ n) :
    messages.map (truncateLargeMessage serializedSize · n) = messages := by
  conv => rhs; rw [← List.map_id messages]
  apply List.map_congr_left
  intro m hm
  obtain ⟨text, hcontent⟩ := htext m hm
  have hlength := length_le_longestText hm hcontent
  unfold truncateLargeMessage
  rw [hcontent]
  dsimp only
  rw [if_pos (Nat.le_trans hlength hn)]
  rfl

theorem count_mono (hmono : GrowsWithText cost) (hbinary : ∀ m ∈ messages, ¬m.Binary)
    (h : n ≤ n') :
    conservativeTokenCount cost (messages.map (truncateLargeMessage serializedSize · n)) ≤
      conservativeTokenCount cost (messages.map (truncateLargeMessage serializedSize · n')) := by
  unfold conservativeTokenCount
  induction messages with
  | nil => exact Nat.le_refl 0
  | cons m messages ih =>
      simp only [List.map_cons, List.sum_cons]
      obtain ⟨content, content', hn, hn', hle⟩ :=
        truncate_mono serializedSize (hbinary m List.mem_cons_self) h
      have hhead := hmono m content content' hle
      have htail := ih fun m' hm' ↦ hbinary m' (List.mem_cons_of_mem m hm')
      rw [hn, hn']
      omega

/-- The messages as they are if they fit; else cut to the greatest admissible limit by which
they fit, and none where there is no such limit. -/
def FindsLongest (serializedSize : List (Block β) → ℕ) (cost : Message β → ℕ)
    (messages : List (Message β)) (budget : ℕ) : Prop :=
  let count := fun n ↦
    conservativeTokenCount cost (messages.map (truncateLargeMessage serializedSize · n))
  let fitted := fitMessageContents serializedSize cost messages budget
  (conservativeTokenCount cost messages ≤ budget → fitted = messages) ∧
  (budget < conservativeTokenCount cost messages →
    ((∃ n, Admissible n ∧ count n ≤ budget) → ∃ n, Admissible n ∧
      fitted = messages.map (truncateLargeMessage serializedSize · n) ∧ count n ≤ budget ∧
      ∀ d, Admissible d → count d ≤ budget → d ≤ n) ∧
    ((∀ n, Admissible n → budget < count n) → fitted = []))

theorem findsLongest_of_texts (hmono : GrowsWithText cost) (htext : ∀ m ∈ messages, m.IsText)
    (budget : ℕ) : FindsLongest serializedSize cost messages budget := by
  unfold FindsLongest
  intro count fitted
  refine ⟨fun hfits ↦ if_pos hfits, ?_⟩
  intro hover
  have hdown : ∀ a b, 128 ≤ a → a ≤ b → b < longestText messages + 1 →
      decide (count b ≤ budget) = true → decide (count a ≤ budget) = true := by
    intro a b _ hab _ hcount
    rw [decide_eq_true_eq] at hcount ⊢
    exact Nat.le_trans (count_mono hmono (fun m hm ↦ (htext m hm).not_binary) hab) hcount
  -- past the longest text the messages are whole, and whole they do not fit
  have hpast : ∀ d, count d ≤ budget → d < longestText messages + 1 := by
    intro d hd
    by_contra hlt
    have hwhole : count d = conservativeTokenCount cost messages :=
      congrArg (conservativeTokenCount cost) (truncate_past_longest htext (by omega))
    omega
  have hfitted : fitted = ((searchGreatest (fun limit ↦ count limit ≤ budget)
      (longestText messages + 1 - 128) 128 (longestText messages + 1) none).map fun limit ↦
        messages.map (truncateLargeMessage serializedSize · limit)).getD [] :=
    if_neg (Nat.not_le_of_lt hover)
  rcases searchGreatest_spec (o := none) (Nat.le_refl _) hdown with
    ⟨c, hsearch, hc⟩ | ⟨hsearch, hnone⟩
  · rw [hsearch] at hfitted
    have hholds := of_decide_eq_true hc.holds
    constructor
    · intro _
      refine ⟨c, hc.low_le, hfitted, hholds, ?_⟩
      intro d _ hcount
      exact hc.le (hpast d hcount) (decide_eq_true hcount)
    · intro hall
      exact absurd hholds (Nat.not_le_of_lt (hall c hc.low_le))
  · rw [hsearch] at hfitted
    constructor
    · rintro ⟨n, hn, hcount⟩
      exact absurd hcount (of_decide_eq_false (hnone n hn (hpast n hcount)))
    · exact fun _ ↦ hfitted

/-- The searches end, and for texts they find the longest admissible cut: of a message, and of a
turn; the parts of a cut message keep to its limit together; and a text is cut to its limit if it
is longer, and left alone if it is not. -/
theorem truncation_by_search (serializedSize : List (Block β) → ℕ) (hmono : GrowsWithText cost) :
    (∀ (does : ℕ → Bool) (low past fuel : ℕ) (best : Option ℕ), past - low ≤ fuel →
      searchGreatest does fuel low past best = searchGreatest does (past - low) low past best) ∧
    (∀ (messages : List (Message β)) (budget : ℕ), (∀ m ∈ messages, m.IsText) →
      FindsLongest serializedSize cost messages budget) ∧
    (∀ (m : Message β) (n : ℕ), ¬m.Binary →
      (truncateLargeMessage serializedSize m n).content.textLength ≤ n) ∧
    (∀ (parts : List String) (n : ℕ),
      GreatestIn (fun limit ↦ (parts.map fun text ↦ min text.length limit).sum ≤ n) 0
        ((parts.map String.length).foldl max 0 + 1) (perPartLimit parts n)) ∧
    (∀ (text : String) (n : ℕ), (truncateText text n).length ≤ n ∧ (cutText text n).length ≤ n ∧
      (text.length ≤ n → cutText text n = text)) := by
  refine ⟨?_, fun messages budget htext ↦ findsLongest_of_texts hmono htext budget,
    fun m n hbinary ↦ textLength_truncate_le hbinary n, perPartLimit_greatest, ?_⟩
  · intro does low past fuel best hfuel
    have hsum : fuel = past - low + (fuel - (past - low)) := by omega
    rw [hsum]
    exact searchGreatest_add (Nat.le_refl _) _
  · intro text n
    refine ⟨length_truncateText_le text n, ?_, fun hle ↦ if_pos hle⟩
    rw [length_cutText]
    omega

namespace Lengths

/-- A token for each character of the text. -/
def tokens (m : Message Unit) : ℕ := m.content.textLength + 10

theorem part_le {block block' : Block Unit} (h : block.Le block') :
    block.part.elim 0 String.length ≤ block'.part.elim 0 String.length := by
  have hpart : ∀ own : String,
      (if own = "" then none else some own : Option String).elim 0 String.length = own.length := by
    intro own
    split
    · rename_i hempty
      rw [hempty]
      rfl
    · rfl
  cases h with
  | str hle =>
      unfold Block.part
      dsimp only
      rwa [hpart, hpart]
  | text hle =>
      unfold Block.part
      dsimp only
      rwa [hpart, hpart]
  | other block => exact Nat.le_refl _

theorem monotone_tokens : GrowsWithText tokens := by
  intro m content content' h
  have hsum : ∀ blocks : List (Block Unit),
      ((blocks.filterMap Block.part).map String.length).sum =
        (blocks.map fun block ↦ block.part.elim 0 String.length).sum := by
    intro blocks
    induction blocks with
    | nil => rfl
    | cons block blocks ih =>
        rw [List.map_cons, List.sum_cons, ← ih]
        cases hpart : block.part with
        | none =>
            rw [List.filterMap_cons_none hpart]
            simp
        | some text =>
            rw [List.filterMap_cons_some hpart]
            simp
  have hlength : content.textLength ≤ content'.textLength := by
    cases h with
    | text hle => exact hle
    | blocks hall =>
        unfold Content.textLength
        dsimp only
        rw [hsum, hsum]
        induction hall with
        | nil => exact Nat.le_refl 0
        | cons hle _ ih =>
            simp only [List.map_cons, List.sum_cons]
            exact Nat.add_le_add (part_le hle) ih
  exact Nat.add_le_add_right hlength 10

/-- A text of 300 characters. -/
def long : Message Unit where
  role := .human
  name := none
  content := .text (String.ofList (List.replicate 300 'x'))
  toolCalls := []
  toolCallId := none
  artifactId := none

theorem tokens_long (n : ℕ) :
    tokens (truncateLargeMessage (fun _ ↦ 0) long n) = min 300 n + 10 := by
  rw [truncate_text (m := long) rfl]
  change (cutText _ n).length + 10 = _
  rw [length_cutText, String.length_ofList, List.length_replicate]

/-- Of 300 characters and 10 tokens more a budget of 210 leaves 200. -/
theorem truncation_by_search_lengths : fitMessageContents (fun _ ↦ 0) tokens [long] 210 =
    [truncateLargeMessage (fun _ ↦ 0) long 200] := by
  have htext : ∀ m ∈ [long], m.IsText := by
    intro m hm
    rw [List.mem_singleton.mp hm]
    exact ⟨_, rfl⟩
  have hcount : ∀ n, conservativeTokenCount tokens
      ([long].map (truncateLargeMessage (fun _ ↦ 0) · n)) = min 300 n + 10 := by
    intro n
    unfold conservativeTokenCount
    rw [List.map_singleton, List.map_singleton, List.sum_singleton, tokens_long]
  have hover : 210 < conservativeTokenCount tokens [long] := by
    have hwhole : tokens long = (String.ofList (List.replicate 300 'x')).length + 10 := by
      unfold tokens long Content.textLength
      dsimp only
    rw [String.length_ofList, List.length_replicate] at hwhole
    unfold conservativeTokenCount
    rw [List.map_singleton, List.sum_singleton, hwhole]
    omega
  have hfits : ∀ n, n ≤ 200 → conservativeTokenCount tokens
      ([long].map (truncateLargeMessage (fun _ ↦ 0) · n)) ≤ 210 := by
    intro n hn
    rw [hcount]
    omega
  obtain ⟨n, _, hfitted, hholds, hlongest⟩ :=
    (((truncation_by_search (fun _ ↦ 0) monotone_tokens).2.1 [long] 210 htext).2
      hover).1 ⟨128, Nat.le_refl _, hfits 128 (by decide)⟩
  have hlast : 200 ≤ n :=
    hlongest 200 (by unfold Admissible; decide) (hfits 200 (Nat.le_refl _))
  have hupper : min 300 n + 10 ≤ 210 := Nat.le_trans (Nat.le_of_eq (hcount n).symm) hholds
  obtain rfl : n = 200 := by omega
  exact hfitted

/-- The function that cuts puts its notice into a short text as well. -/
theorem not_identity : truncateText "ab" 2 ≠ "ab" := by decide +kernel

end Lengths

end ShejaneRuntime.Context
