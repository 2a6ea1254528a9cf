import ShejaneRuntime.Agent.CallAttempts

/-!
# The retries of logical model calls

What holds of the rows of the ledger and of the logical calls in hand: a
further attempt is reserved only where the last one failed without output,
no two tasks work at one logical call, and every purpose stays within its
budget.
-/

namespace ShejaneRuntime.Agent

open Lib Store

/-! ## Rows over time -/

/-- A model call later. What its reservation fixed stays, output that has
started stays started, and a call that has ended stays as it is. -/
structure Revised (c c' : ModelCall) : Prop where
  fixed : c'.fixed = c.fixed
  output : c.outputStarted = true → c'.outputStarted = true
  ended : c.open = false → c' = c

theorem Revised.refl (c : ModelCall) : Revised c c := ⟨rfl, id, fun _ ↦ rfl⟩

theorem Revised.trans {c c' c'' : ModelCall} (h : Revised c c') (h' : Revised c' c'') :
    Revised c c'' := by
  refine ⟨h'.fixed.trans h.fixed, fun hout ↦ h'.output (h.output hout), fun hended ↦ ?_⟩
  obtain rfl := h.ended hended
  exact h'.ended hended

theorem revised_of_later {c c' : ModelCall} (h : c.Later c') : Revised c c' := by
  rcases h with rfl | h
  · exact .refl _
  · refine ⟨h.fixed, fun hout ↦ h.output.trans hout, fun hended ↦ ?_⟩
    rw [h.wasOpen] at hended
    cases hended

/-- The columns that a reservation fixes. -/
theorem columns_of_fixed {c c' : ModelCall} (h : c'.fixed = c.fixed) :
    c'.id = c.id ∧ c'.runId = c.runId ∧ c'.callIndex = c.callIndex ∧ c'.purpose = c.purpose ∧
      c'.logicalCallId = c.logicalCallId ∧ c'.retryAttempt = c.retryAttempt := by
  simp only [ModelCall.fixed, ModelCall.mk.injEq] at h
  obtain ⟨hid, hrun, _, hindex, _, hpurpose, _, hlogical, hattempt, _⟩ := h
  exact ⟨hid, hrun, hindex, hpurpose, hlogical, hattempt⟩

theorem Revised.id {c c' : ModelCall} (h : Revised c c') : c'.id = c.id :=
  (columns_of_fixed h.fixed).1

theorem Revised.runId {c c' : ModelCall} (h : Revised c c') : c'.runId = c.runId :=
  (columns_of_fixed h.fixed).2.1

theorem Revised.callIndex {c c' : ModelCall} (h : Revised c c') : c'.callIndex = c.callIndex :=
  (columns_of_fixed h.fixed).2.2.1

theorem Revised.purpose {c c' : ModelCall} (h : Revised c c') : c'.purpose = c.purpose :=
  (columns_of_fixed h.fixed).2.2.2.1

theorem Revised.logicalCallId {c c' : ModelCall} (h : Revised c c') :
    c'.logicalCallId = c.logicalCallId :=
  (columns_of_fixed h.fixed).2.2.2.2.1

theorem Revised.retryAttempt {c c' : ModelCall} (h : Revised c c') :
    c'.retryAttempt = c.retryAttempt :=
  (columns_of_fixed h.fixed).2.2.2.2.2

/-! ## What is recorded -/

/-- The last attempt of a logical call, which failed without output and may
be followed by another. -/
structure Retryable (rows : List ModelCall) (logicalCallId : String) (attempt : ℕ) : Prop where
  allowed : attempt < modelRetryAttempts
  last : ∀ c ∈ rows, c.logicalCallId = logicalCallId → c.retryAttempt ≤ attempt
  failed : ∃ c ∈ rows, c.logicalCallId = logicalCallId ∧ c.retryAttempt = attempt ∧
    c.status = .failed ∧ c.outputStarted = false

structure Recorded (limit : String → String → ℕ) (rows : List ModelCall) : Prop where
  indexed : ∀ runId, (rows.filter fun c ↦ c.runId = runId).map ModelCall.callIndex =
    List.range' 1 (rows.filter fun c ↦ c.runId = runId).length
  budget : ∀ runId purpose,
    (rows.filter fun c ↦ c.runId = runId).countP (fun c ↦ c.purpose = purpose) ≤
      limit runId purpose
  logical : ∀ c ∈ rows, c.logicalCallId ≠ "" ∧ ∃ c' ∈ rows, c'.id = c.logicalCallId
  attempts : ∀ c ∈ rows, ∀ c' ∈ rows, c.logicalCallId = c'.logicalCallId →
    c.retryAttempt = c'.retryAttempt → c.id = c'.id
  allowed : ∀ c ∈ rows, c.retryAttempt ≤ modelRetryAttempts
  retried : ∀ c ∈ rows, ∀ attempt, c.retryAttempt = attempt + 1 →
    ∃ c' ∈ rows, c'.logicalCallId = c.logicalCallId ∧ c'.retryAttempt = attempt ∧
      c'.status = .failed ∧ c'.outputStarted = false

theorem closed_of_failed {c : ModelCall} (h : c.status = .failed) : c.open = false := by
  simp [ModelCall.open, h]

variable {limit : String → String → ℕ} {rows : List ModelCall} {g : ModelCall → ModelCall}

theorem filter_runId_map (hg : ∀ c ∈ rows, Revised c (g c)) (runId : String) :
    ((rows.map g).filter fun c ↦ c.runId = runId) =
      (rows.filter fun c ↦ c.runId = runId).map g := by
  rw [List.filter_map]
  congr 1
  refine List.filter_congr fun c hc ↦ ?_
  simp [(hg c hc).runId]

theorem Recorded.revised (h : Recorded limit rows) (hg : ∀ c ∈ rows, Revised c (g c)) :
    Recorded limit (rows.map g) := by
  refine ⟨fun runId ↦ ?_, fun runId purpose ↦ ?_, ?_, ?_, ?_, ?_⟩
  · rw [filter_runId_map hg, List.length_map, ← h.indexed runId, List.map_map]
    refine List.map_congr_left fun c hc ↦ ?_
    exact (hg c (List.mem_of_mem_filter hc)).callIndex
  · rw [filter_runId_map hg, List.countP_map]
    refine le_of_eq_of_le (List.countP_congr fun c hc ↦ ?_) (h.budget runId purpose)
    simp [(hg c (List.mem_of_mem_filter hc)).purpose]
  · intro c hc
    obtain ⟨b, hb, rfl⟩ := List.mem_map.mp hc
    obtain ⟨hne, b', hb', hid⟩ := h.logical b hb
    rw [(hg b hb).logicalCallId]
    exact ⟨hne, g b', List.mem_map_of_mem hb', ((hg b' hb').id).trans hid⟩
  · intro c hc c' hc' hlogical hattempt
    obtain ⟨b, hb, rfl⟩ := List.mem_map.mp hc
    obtain ⟨b', hb', rfl⟩ := List.mem_map.mp hc'
    rw [(hg b hb).logicalCallId, (hg b' hb').logicalCallId]
      at hlogical
    rw [(hg b hb).retryAttempt, (hg b' hb').retryAttempt]
      at hattempt
    rw [(hg b hb).id, (hg b' hb').id]
    exact h.attempts b hb b' hb' hlogical hattempt
  · intro c hc
    obtain ⟨b, hb, rfl⟩ := List.mem_map.mp hc
    rw [(hg b hb).retryAttempt]
    exact h.allowed b hb
  · intro c hc attempt hattempt
    obtain ⟨b, hb, rfl⟩ := List.mem_map.mp hc
    rw [(hg b hb).retryAttempt] at hattempt
    obtain ⟨b', hb', hlogical, heq, hfailed, hout⟩ := h.retried b hb attempt hattempt
    have hsame : g b' = b' := (hg b' hb').ended (closed_of_failed hfailed)
    rw [(hg b hb).logicalCallId]
    exact ⟨b', hsame ▸ List.mem_map_of_mem hb', hlogical, heq, hfailed, hout⟩

/-- A row that a reservation may add: a first attempt under its own id, or
one that follows the last attempt. -/
def Follows (rows : List ModelCall) (c : ModelCall) : Prop :=
  (c.logicalCallId = c.id ∧ c.retryAttempt = 0) ∨
    ∃ attempt, c.retryAttempt = attempt + 1 ∧ Retryable rows c.logicalCallId attempt

theorem Recorded.last_of_follows (h : Recorded limit rows) {c : ModelCall}
    (hid : ∀ c' ∈ rows, c'.id ≠ c.id) (hfollows : Follows rows c) :
    ∀ c' ∈ rows, c'.logicalCallId = c.logicalCallId → c'.retryAttempt < c.retryAttempt := by
  intro c' hc' hlogical
  rcases hfollows with ⟨hself, _⟩ | ⟨attempt, hattempt, hretry⟩
  · obtain ⟨_, b, hb, hbid⟩ := h.logical c' hc'
    exact absurd (hbid.trans (hlogical.trans hself)) (hid b hb)
  · have hle := hretry.last c' hc' hlogical
    omega

theorem Recorded.reserved (h : Recorded limit rows) {c : ModelCall}
    (hid : ∀ c' ∈ rows, c'.id ≠ c.id) (hne : c.id ≠ "")
    (hindex : c.callIndex = (rows.filter fun c' ↦ c'.runId = c.runId).length + 1)
    (hbudget : (rows.filter fun c' ↦ c'.runId = c.runId).countP (fun c' ↦ c'.purpose = c.purpose)
      + 1 ≤ limit c.runId c.purpose)
    (hfollows : Follows rows c) : Recorded limit (rows ++ [c]) := by
  have hlast := h.last_of_follows hid hfollows
  refine ⟨fun runId ↦ ?_, fun runId purpose ↦ ?_, ?_, ?_, ?_, ?_⟩
  · rw [List.filter_append, List.map_append, List.length_append, h.indexed runId]
    by_cases hrun : c.runId = runId
    · subst hrun
      rw [show ([c].filter fun c' ↦ c'.runId = c.runId) = [c] by simp, List.map_singleton,
        List.length_singleton, List.range'_1_concat, hindex, Nat.add_comm]
    · simp [hrun]
  · rw [List.filter_append, List.countP_append]
    have hle := h.budget runId purpose
    by_cases hrun : c.runId = runId
    · subst hrun
      by_cases hpurpose : c.purpose = purpose
      · subst hpurpose
        simpa using hbudget
      · simpa [hpurpose] using hle
    · simpa [hrun] using hle
  · have hself : c.logicalCallId ≠ "" ∧ ∃ c' ∈ rows ++ [c], c'.id = c.logicalCallId := by
      rcases hfollows with ⟨hself, _⟩ | ⟨attempt, _, hretry⟩
      · rw [hself]
        exact ⟨hne, c, by simp, rfl⟩
      · obtain ⟨b, hb, hlogical, _⟩ := hretry.failed
        obtain ⟨hneb, b', hb', hid'⟩ := h.logical b hb
        rw [← hlogical]
        exact ⟨hneb, b', List.mem_append_left _ hb', hid'⟩
    intro c' hc'
    rcases List.mem_append.mp hc' with hc' | hc'
    · obtain ⟨hne', b, hb, hbid⟩ := h.logical c' hc'
      exact ⟨hne', b, List.mem_append_left _ hb, hbid⟩
    · rw [List.mem_singleton.mp hc']
      exact hself
  · intro c₁ h₁ c₂ h₂ hlogical hattempt
    rcases List.mem_append.mp h₁ with hold | hnew <;>
      rcases List.mem_append.mp h₂ with hold' | hnew'
    · exact h.attempts c₁ hold c₂ hold' hlogical hattempt
    · obtain rfl := List.mem_singleton.mp hnew'
      have hlt := hlast c₁ hold hlogical
      omega
    · obtain rfl := List.mem_singleton.mp hnew
      have hlt := hlast c₂ hold' hlogical.symm
      omega
    · rw [List.mem_singleton.mp hnew, List.mem_singleton.mp hnew']
  · intro c' hc'
    rcases List.mem_append.mp hc' with hc' | hc'
    · exact h.allowed c' hc'
    · obtain rfl := List.mem_singleton.mp hc'
      rcases hfollows with ⟨_, hzero⟩ | ⟨attempt, hattempt, hretry⟩
      · omega
      · have hlt := hretry.allowed
        omega
  · intro c' hc' attempt hattempt
    rcases List.mem_append.mp hc' with hc' | hc'
    · obtain ⟨b, hb, hrest⟩ := h.retried c' hc' attempt hattempt
      exact ⟨b, List.mem_append_left _ hb, hrest⟩
    · obtain rfl := List.mem_singleton.mp hc'
      rcases hfollows with ⟨_, hzero⟩ | ⟨k, hk, hretry⟩
      · omega
      · obtain rfl : k = attempt := by omega
        obtain ⟨b, hb, hrest⟩ := hretry.failed
        exact ⟨b, List.mem_append_left _ hb, hrest⟩

theorem Recorded.earlier_failed (h : Recorded limit rows) (hids : (rows.map ModelCall.id).Nodup)
    {b b' : ModelCall} (hb : b ∈ rows) (hb' : b' ∈ rows)
    (hlogical : b.logicalCallId = b'.logicalCallId) (hlt : b.retryAttempt < b'.retryAttempt) :
    b.status = .failed ∧ b.outputStarted = false := by
  obtain ⟨n, hn⟩ := Nat.exists_eq_add_of_lt hlt
  clear hlt
  induction n generalizing b' with
  | zero =>
      obtain ⟨c, hc, hcl, hattempt, hfailed, hout⟩ := h.retried b' hb' b.retryAttempt hn
      have hid : c.id = b.id := h.attempts c hc b hb (hcl.trans hlogical.symm) hattempt
      rw [← List.inj_on_of_nodup_map hids hc hb hid]
      exact ⟨hfailed, hout⟩
  | succ n ih =>
      obtain ⟨c, hc, hcl, hattempt, _⟩ := h.retried b' hb' (b.retryAttempt + n + 1) hn
      exact ih hc (hlogical.trans hcl.symm) hattempt

theorem Recorded.length_attempts (h : Recorded limit rows)
    (hids : (rows.map ModelCall.id).Nodup) (logicalCallId : String) :
    (rows.filter fun c ↦ c.logicalCallId = logicalCallId).length ≤ modelRetryAttempts + 1 := by
  have hmem : ∀ c ∈ rows.filter fun c ↦ c.logicalCallId = logicalCallId,
      c ∈ rows ∧ c.logicalCallId = logicalCallId := by
    intro c hc
    simpa using List.mem_filter.mp hc
  have hnodup :
      ((rows.filter fun c ↦ c.logicalCallId = logicalCallId).map ModelCall.retryAttempt).Nodup := by
    refine List.Nodup.map_on (fun c hc c' hc' hattempt ↦ ?_) (hids.of_map.filter _)
    obtain ⟨hin, hlogical⟩ := hmem c hc
    obtain ⟨hin', hlogical'⟩ := hmem c' hc'
    exact List.inj_on_of_nodup_map hids hin hin'
      (h.attempts c hin c' hin' (hlogical.trans hlogical'.symm) hattempt)
  have hsub : (rows.filter fun c ↦ c.logicalCallId = logicalCallId).map ModelCall.retryAttempt ⊆
      List.range (modelRetryAttempts + 1) := by
    intro k hk
    obtain ⟨c, hc, rfl⟩ := List.mem_map.mp hk
    have hle := h.allowed c (hmem c hc).1
    rw [List.mem_range]
    omega
  have hle := (List.subperm_of_subset hnodup hsub).length_le
  rwa [List.length_map, List.length_range] at hle

/-! ## What is in hand -/

/-- The row of an attempt in hand, the last one of its logical call. Output
of the row has started only if the attempt knows of it. -/
structure Held (rows : List ModelCall) (receipt : ModelCall) (outputStarted : Bool) : Prop where
  row : ∃ c ∈ rows, c.fixed = receipt.fixed ∧ (c.outputStarted = true → outputStarted = true)
  last : ∀ c ∈ rows, c.logicalCallId = receipt.logicalCallId →
    c.retryAttempt ≤ receipt.retryAttempt

def InHand (rows : List ModelCall) : CallPoint → Prop
  | .reserve none retryAttempt => retryAttempt = 0
  | .reserve (some logicalCallId) retryAttempt =>
    ∃ attempt, retryAttempt = attempt + 1 ∧ Retryable rows logicalCallId attempt
  | .invoke receipt outputStarted => Held rows receipt outputStarted
  | .settled receipt outputStarted => Held rows receipt outputStarted
  | .failing receipt outputStarted _ => Held rows receipt outputStarted

/-- The logical call that a point works at, once it has an id. -/
def CallPoint.logicalCallId : CallPoint → Option String
  | .reserve logicalCallId _ => logicalCallId
  | .invoke receipt _ | .settled receipt _ | .failing receipt _ _ => some receipt.logicalCallId

theorem Retryable.revised {logicalCallId : String} {attempt : ℕ}
    (h : Retryable rows logicalCallId attempt) (hg : ∀ c ∈ rows, Revised c (g c)) :
    Retryable (rows.map g) logicalCallId attempt := by
  refine ⟨h.allowed, ?_, ?_⟩
  · intro c hc hlogical
    obtain ⟨b, hb, rfl⟩ := List.mem_map.mp hc
    rw [(hg b hb).logicalCallId] at hlogical
    rw [(hg b hb).retryAttempt]
    exact h.last b hb hlogical
  · obtain ⟨b, hb, hlogical, hattempt, hfailed, hout⟩ := h.failed
    have hsame : g b = b := (hg b hb).ended (closed_of_failed hfailed)
    exact ⟨b, hsame ▸ List.mem_map_of_mem hb, hlogical, hattempt, hfailed, hout⟩

theorem Retryable.appended {logicalCallId : String} {attempt : ℕ}
    (h : Retryable rows logicalCallId attempt) {c : ModelCall}
    (hc : c.logicalCallId ≠ logicalCallId) : Retryable (rows ++ [c]) logicalCallId attempt := by
  refine ⟨h.allowed, ?_, ?_⟩
  · intro c' hc' hlogical
    rcases List.mem_append.mp hc' with hold | hnew
    · exact h.last c' hold hlogical
    · rw [List.mem_singleton.mp hnew] at hlogical
      exact absurd hlogical hc
  · obtain ⟨b, hb, hrest⟩ := h.failed
    exact ⟨b, List.mem_append_left _ hb, hrest⟩

/-- The attempt in hand learns of output no later than its row. -/
theorem Held.revised {receipt : ModelCall} {outputStarted outputStarted' : Bool}
    (h : Held rows receipt outputStarted) (hg : ∀ c ∈ rows, Revised c (g c))
    (hout : ∀ c ∈ rows, c.fixed = receipt.fixed → (c.outputStarted = true → outputStarted = true) →
      (g c).outputStarted = true → outputStarted' = true) :
    Held (rows.map g) receipt outputStarted' := by
  refine ⟨?_, ?_⟩
  · obtain ⟨b, hb, hfixed, hknown⟩ := h.row
    exact ⟨g b, List.mem_map_of_mem hb, (hg b hb).fixed.trans hfixed, hout b hb hfixed hknown⟩
  · intro c hc hlogical
    obtain ⟨b, hb, rfl⟩ := List.mem_map.mp hc
    rw [(hg b hb).logicalCallId] at hlogical
    rw [(hg b hb).retryAttempt]
    exact h.last b hb hlogical

theorem Held.appended {receipt : ModelCall} {outputStarted : Bool}
    (h : Held rows receipt outputStarted) {c : ModelCall}
    (hc : c.logicalCallId ≠ receipt.logicalCallId) : Held (rows ++ [c]) receipt outputStarted := by
  refine ⟨?_, ?_⟩
  · obtain ⟨b, hb, hrest⟩ := h.row
    exact ⟨b, List.mem_append_left _ hb, hrest⟩
  · intro c' hc' hlogical
    rcases List.mem_append.mp hc' with hold | hnew
    · exact h.last c' hold hlogical
    · rw [List.mem_singleton.mp hnew] at hlogical
      exact absurd hlogical hc

/-- Rows revised without new output in the logical call of a point. -/
theorem InHand.revised {point : CallPoint} (h : InHand rows point)
    (hg : ∀ c ∈ rows, Revised c (g c))
    (hout : ∀ c ∈ rows, point.logicalCallId = some c.logicalCallId →
      (g c).outputStarted = c.outputStarted) : InHand (rows.map g) point := by
  have hheld : ∀ {receipt : ModelCall} {outputStarted : Bool},
      point.logicalCallId = some receipt.logicalCallId → Held rows receipt outputStarted →
        Held (rows.map g) receipt outputStarted := by
    intro receipt outputStarted hpoint hheld
    refine hheld.revised hg fun c hc hfixed hknown hgc ↦ hknown ?_
    rw [← hgc]
    refine (hout c hc ?_).symm
    rw [hpoint, (columns_of_fixed hfixed).2.2.2.2.1]
  cases point with
  | reserve logicalCallId retryAttempt =>
      cases logicalCallId with
      | none => exact h
      | some logicalCallId =>
          obtain ⟨attempt, hattempt, hretry⟩ := h
          exact ⟨attempt, hattempt, hretry.revised hg⟩
  | invoke receipt outputStarted => exact hheld rfl h
  | settled receipt outputStarted => exact hheld rfl h
  | failing receipt outputStarted f => exact hheld rfl h

theorem InHand.appended {point : CallPoint} (h : InHand rows point) {c : ModelCall}
    (hc : point.logicalCallId ≠ some c.logicalCallId) : InHand (rows ++ [c]) point := by
  have hne : ∀ {logicalCallId : String}, point.logicalCallId = some logicalCallId →
      c.logicalCallId ≠ logicalCallId := by
    rintro _ hpoint rfl
    exact hc hpoint
  cases point with
  | reserve logicalCallId retryAttempt =>
      cases logicalCallId with
      | none => exact h
      | some logicalCallId =>
          obtain ⟨attempt, hattempt, hretry⟩ := h
          exact ⟨attempt, hattempt, hretry.appended (hne rfl)⟩
  | invoke receipt outputStarted => exact Held.appended h (hne rfl)
  | settled receipt outputStarted => exact Held.appended h (hne rfl)
  | failing receipt outputStarted f => exact Held.appended h (hne rfl)

/-- A logical call that has an id has a row under it. -/
theorem InHand.named (h : Recorded limit rows) {point : CallPoint} (hpoint : InHand rows point)
    {logicalCallId : String} (hid : point.logicalCallId = some logicalCallId) :
    ∃ c ∈ rows, c.id = logicalCallId := by
  have hheld : ∀ {receipt : ModelCall} {outputStarted : Bool},
      some receipt.logicalCallId = some logicalCallId → Held rows receipt outputStarted →
        ∃ c ∈ rows, c.id = logicalCallId := by
    intro receipt outputStarted hreceipt hheld
    obtain ⟨b, hb, hfixed, _⟩ := hheld.row
    rw [← Option.some.inj hreceipt, ← (columns_of_fixed hfixed).2.2.2.2.1]
    exact (h.logical b hb).2
  cases point with
  | reserve logical retryAttempt =>
      obtain rfl : logical = some logicalCallId := hid
      obtain ⟨attempt, _, hretry⟩ := hpoint
      obtain ⟨b, hb, hlogical, _⟩ := hretry.failed
      rw [← hlogical]
      exact (h.logical b hb).2
  | invoke receipt outputStarted => exact hheld hid hpoint
  | settled receipt outputStarted => exact hheld hid hpoint
  | failing receipt outputStarted f => exact hheld hid hpoint

end ShejaneRuntime.Agent
