import ShejaneRuntime.Agent.ModelRetries
import ShejaneRuntime.Lockstep.Reachable

/-!
# The ledger of model calls over whole runs

In every state that any number of logical calls reach, with any errors,
cancellations and crashes, the rows of the ledger are numbered without gap
and stay within their budgets, and no attempt follows one that put out
something or ended without a known outcome.
-/

namespace ShejaneRuntime.Agent

open Lib Lib.Txn Store

variable {ι : Type}

/-! ## The writes of an attempt -/

theorem revised_of_rewrites {db db' : Database} {runId callId : String} {f : ModelCall → ModelCall}
    {c : ModelCall} (h : Rewrites db db' runId callId f c)
    (hf : ∀ b : ModelCall, b.open = true → Revised b (f b)) :
    ∀ b ∈ db.ledger.modelCalls.rows, Revised b (if b.id = callId then f b else b) := by
  intro b hb
  by_cases hid : b.id = callId
  · have heq : b = c :=
      List.inj_on_of_nodup_map db.ledger.modelCalls.nodup hb h.mem (hid.trans h.id.symm)
    rw [if_pos hid]
    exact hf b (heq ▸ h.wasOpen)
  · rw [if_neg hid]
    exact .refl b

theorem revised_of_open {c c' : ModelCall} (hopen : c.open = true) (hfixed : c'.fixed = c.fixed)
    (hout : c.outputStarted = true → c'.outputStarted = true) : Revised c c' := by
  refine ⟨hfixed, hout, fun hended ↦ ?_⟩
  rw [hopen] at hended
  cases hended

theorem post_updateOpenModelCall {lease : Option ExecutionLease} {runId callId message : String}
    {f : ModelCall → ModelCall} {hf : ∀ c, (f c).id = c.id} {s : Session Database World} :
    Post (runWriteTransaction runId lease (updateOpenModelCall runId callId message f hf)) s
      fun _ s' ↦ ∃ c, Rewrites s.db s'.db runId callId f c :=
  post_runWriteTransaction fun _ _ ↦ updateOpenModelCall_post.mono fun _ _ h ↦
    rewrites_of_post h.1 h.2

theorem markModelCallOutput_post (lease : Option ExecutionLease) (runId callId : String)
    (s : Session Database World) : Post (markModelCallOutput lease runId callId) s fun _ s' ↦
      ∃ c, Rewrites s.db s'.db runId callId
        (fun c ↦ { c with status := .streaming, outputStarted := true }) c :=
  post_updateOpenModelCall

theorem settleModelCall_post (lease : Option ExecutionLease) (runId callId : String)
    (inputTokens outputTokens : Option ℕ) (s : Session Database World) :
    Post (settleModelCall lease runId callId inputTokens outputTokens) s fun _ s' ↦
      ∃ status now c, Rewrites s.db s'.db runId callId
        (fun c ↦ { c with
          status := status, inputTokens := inputTokens, outputTokens := outputTokens,
          completedAt := some now }) c := by
  unfold settleModelCall utcNow
  rw [post_bind, post_draw]
  exact post_updateOpenModelCall.mono fun _ _ ⟨c, hc⟩ ↦ ⟨_, _, c, hc⟩

theorem failModelCall_post (lease : Option ExecutionLease) (runId callId : String)
    (outcomeUnknown : Bool) (errorCode : Option String) (inputTokens outputTokens : Option ℕ)
    (s : Session Database World) :
    Post (failModelCall lease runId callId outcomeUnknown errorCode inputTokens outputTokens) s
      fun _ s' ↦ ∃ now c, Rewrites s.db s'.db runId callId
        (fun c ↦ { c with
          status := if outcomeUnknown then .outcomeUnknown else .failed, errorCode := errorCode,
          inputTokens := inputTokens, outputTokens := outputTokens,
          completedAt := some now }) c := by
  unfold failModelCall utcNow
  refine post_runWriteTransaction fun w _ ↦ ?_
  rw [post_bind, post_draw]
  exact updateOpenModelCall_post.mono fun _ _ h ↦ ⟨_, rewrites_of_post h.1 h.2⟩

/-! ## Sound states -/

variable {limit : String → String → ℕ}

def LedgerState.rows (c : LedgerState ι) : List ModelCall := c.db.ledger.modelCalls.rows

structure Sound (limit : String → String → ℕ) (c : LedgerState ι) : Prop where
  recorded : Recorded limit c.rows
  inHand : ∀ t l, c.calls t = some l → InHand c.rows l.point
  budgets : ∀ t l, c.calls t = some l →
    1 ≤ l.model.maxCalls ∧ l.model.maxCalls ≤ limit l.model.runId l.model.callPurpose
  apart : ∀ t t' l l' logicalCallId, c.calls t = some l → c.calls t' = some l' →
    l.point.logicalCallId = some logicalCallId → l'.point.logicalCallId = some logicalCallId →
    t = t'

variable [DecidableEq ι]

omit [DecidableEq ι] in
theorem sound_initial : Sound limit (⟨Database.empty, fun _ ↦ none⟩ : LedgerState ι) where
  recorded := ⟨fun _ ↦ rfl, fun _ _ ↦ Nat.zero_le _, by rintro _ ⟨⟩, by rintro _ ⟨⟩,
    by rintro _ ⟨⟩, by rintro _ ⟨⟩⟩
  inHand := by rintro _ _ ⟨⟩
  budgets := by rintro _ _ ⟨⟩
  apart := by rintro _ _ _ _ _ ⟨⟩

/-- A task goes on while the rows of the others stand as before. -/
theorem Sound.goOn {c : LedgerState ι} (h : Sound limit c) {t : ι} {db : Database}
    {m : LedgerChatModel} {next : Option CallPoint}
    (hm : 1 ≤ m.maxCalls ∧ m.maxCalls ≤ limit m.runId m.callPurpose)
    (hrecorded : Recorded limit db.ledger.modelCalls.rows)
    (hothers : ∀ t' l, t' ≠ t → c.calls t' = some l →
      InHand db.ledger.modelCalls.rows l.point)
    (hnext : ∀ point, next = some point → InHand db.ledger.modelCalls.rows point ∧
      ∀ logicalCallId, point.logicalCallId = some logicalCallId → ∀ t' l, t' ≠ t →
        c.calls t' = some l → l.point.logicalCallId ≠ some logicalCallId) :
    Sound limit (c.goOn t db m next) := by
  have hcalls : ∀ t' l, (c.goOn t db m next).calls t' = some l →
      (t' = t ∧ l.model = m ∧ next = some l.point) ∨ (t' ≠ t ∧ c.calls t' = some l) := by
    intro t' l hl
    by_cases ht : t' = t
    · subst ht
      simp only [LedgerState.goOn, Function.update_self] at hl
      obtain ⟨point, hpoint, rfl⟩ := Option.map_eq_some_iff.mp hl
      exact .inl ⟨rfl, rfl, hpoint⟩
    · simp only [LedgerState.goOn, Function.update_of_ne ht] at hl
      exact .inr ⟨ht, hl⟩
  refine ⟨hrecorded, ?_, ?_, ?_⟩
  · intro t' l hl
    rcases hcalls t' l hl with ⟨_, _, hpoint⟩ | ⟨ht, hl⟩
    · exact (hnext _ hpoint).1
    · exact hothers t' l ht hl
  · intro t' l hl
    rcases hcalls t' l hl with ⟨_, rfl, _⟩ | ⟨_, hl⟩
    · exact hm
    · exact h.budgets t' l hl
  · intro t₁ t₂ l₁ l₂ logicalCallId h₁ h₂ hid₁ hid₂
    rcases hcalls t₁ l₁ h₁ with ⟨rfl, _, hp₁⟩ | ⟨ht₁, hl₁⟩ <;>
      rcases hcalls t₂ l₂ h₂ with ⟨heq, _, hp₂⟩ | ⟨ht₂, hl₂⟩
    · exact heq.symm
    · exact absurd hid₂ ((hnext _ hp₁).2 _ hid₁ _ _ ht₂ hl₂)
    · subst heq
      exact absurd hid₁ ((hnext _ hp₂).2 _ hid₂ _ _ ht₁ hl₁)
    · exact h.apart _ _ _ _ _ hl₁ hl₂ hid₁ hid₂

/-- A task goes on at its logical call without a write. -/
theorem Sound.goOn_same {c : LedgerState ι} (h : Sound limit c) {t : ι} {l : LogicalCall}
    (hcall : c.calls t = some l) {next : Option CallPoint}
    (hnext : ∀ point, next = some point → InHand c.rows point ∧
      point.logicalCallId = l.point.logicalCallId) :
    Sound limit (c.goOn t c.db l.model next) := by
  refine h.goOn (h.budgets t l hcall) h.recorded (fun t' l' _ hl' ↦ h.inHand t' l' hl') ?_
  intro point hpoint
  obtain ⟨hin, hsame⟩ := hnext point hpoint
  refine ⟨hin, fun logicalCallId hid t' l' ht hl' hid' ↦ ht ?_⟩
  exact h.apart t' t l' l logicalCallId hl' hcall hid' (hsame ▸ hid)

/-- A task changes the row of the attempt it holds. -/
theorem Sound.rewrite {c : LedgerState ι} (h : Sound limit c) {t : ι} {l : LogicalCall}
    (hcall : c.calls t = some l) {receipt : ModelCall} {outputStarted : Bool}
    (hheld : Held c.rows receipt outputStarted)
    (hlogical : l.point.logicalCallId = some receipt.logicalCallId) {db : Database}
    {f : ModelCall → ModelCall} {row : ModelCall}
    (hw : Rewrites c.db db l.model.runId receipt.id f row)
    (hf : ∀ b : ModelCall, b.open = true → Revised b (f b)) {next : Option CallPoint}
    (hnext : ∀ point, next = some point → InHand db.ledger.modelCalls.rows point ∧
      point.logicalCallId = some receipt.logicalCallId) :
    Sound limit (c.goOn t db l.model next) := by
  have hrevised := revised_of_rewrites hw hf
  refine h.goOn (h.budgets t l hcall) ?_ (fun t' l' ht hl' ↦ ?_) fun point hpoint ↦ ?_
  · rw [hw.rows]
    exact h.recorded.revised hrevised
  · rw [hw.rows]
    refine (h.inHand t' l' hl').revised hrevised fun b hb hid ↦ ?_
    by_cases hkey : b.id = receipt.id
    · obtain ⟨held, hmem, hfixed, _⟩ := hheld.row
      have heq : b = held := List.inj_on_of_nodup_map c.db.ledger.modelCalls.nodup hb hmem
        (hkey.trans (columns_of_fixed hfixed).1.symm)
      rw [heq, (columns_of_fixed hfixed).2.2.2.2.1] at hid
      exact absurd (h.apart t' t l' l _ hl' hcall hid hlogical) ht
    · rw [if_neg hkey]
  · obtain ⟨hin, hsame⟩ := hnext point hpoint
    refine ⟨hin, fun logicalCallId hid t' l' ht hl' hid' ↦ ht ?_⟩
    exact h.apart t' t l' l logicalCallId hl' hcall hid' (by rw [hlogical, ← hsame, hid])

/-- A committed write of a task goes one of two ways. -/
theorem LedgerState.commit_cases {α : Type} (c : LedgerState ι) (t : ι) (m : LedgerChatModel)
    (done : α → Option CallPoint) (raised : Option CallPoint) {write : StoreTxn α} {w : World}
    {Q : α → Session Database World → Prop} (hpost : Post write ⟨c.db, w⟩ Q) :
    c.commit t m write w done raised = c.goOn t c.db m raised ∨
      ∃ a s, Q a s ∧ c.commit t m write w done raised = c.goOn t s.db m (done a) := by
  unfold LedgerState.commit
  cases hcommit : Txn.commit write c.db w with
  | mk result db =>
      cases result with
      | error e =>
          have hsame := commit_error (show (Txn.commit write c.db w).1 = .error e by rw [hcommit])
          rw [hcommit] at hsame
          subst hsame
          exact .inl rfl
      | ok a =>
          obtain ⟨s, hs, hdb⟩ := commit_ok (show (Txn.commit write c.db w).1 = .ok a by rw [hcommit])
          rw [hcommit] at hdb
          subst hdb
          exact .inr ⟨a, s, hpost a s hs, rfl⟩

/-! ## The steps -/

/-- The rows of one state, revised, are rows of another. -/
def Keeps (c c' : LedgerState ι) : Prop := ∀ b ∈ c.rows, ∃ b' ∈ c'.rows, Revised b b'

omit [DecidableEq ι] in
theorem Keeps.refl (c : LedgerState ι) : Keeps c c := fun b hb ↦ ⟨b, hb, .refl b⟩

omit [DecidableEq ι] in
theorem Keeps.trans {c c' c'' : LedgerState ι} (h : Keeps c c') (h' : Keeps c' c'') :
    Keeps c c'' := by
  intro b hb
  obtain ⟨b', hb', hrevised⟩ := h b hb
  obtain ⟨b'', hb'', hrevised'⟩ := h' b' hb'
  exact ⟨b'', hb'', hrevised.trans hrevised'⟩

omit [DecidableEq ι] in
theorem keeps_of_map {c c' : LedgerState ι} {g : ModelCall → ModelCall}
    (hrows : c'.rows = c.rows.map g) (hg : ∀ b ∈ c.rows, Revised b (g b)) : Keeps c c' := by
  intro b hb
  rw [hrows]
  exact ⟨g b, List.mem_map_of_mem hb, hg b hb⟩

omit [DecidableEq ι] in
theorem Sound.transact {c : LedgerState ι} (h : Sound limit c) {op : StoreOp}
    (hop : ledgerWrite op = false) (w : World) :
    Sound limit { c with db := op.after c.db w } ∧ Keeps c { c with db := op.after c.db w } := by
  obtain ⟨g, hrows, hg⟩ := after_callsEnd hop c.db w
  have hrevised : ∀ b ∈ c.rows, Revised b (g b) := fun b hb ↦ revised_of_later (hg b hb)
  refine ⟨⟨?_, fun t l hl ↦ ?_, h.budgets, h.apart⟩, keeps_of_map hrows hrevised⟩
  · rw [LedgerState.rows, hrows]
    exact h.recorded.revised hrevised
  · rw [LedgerState.rows, hrows]
    refine (h.inHand t l hl).revised hrevised fun b hb _ ↦ ?_
    rcases hg b hb with heq | hends
    · rw [heq]
    · exact hends.output

theorem Sound.begin {c : LedgerState ι} (h : Sound limit c) {t : ι} {m : LedgerChatModel}
    (hm : 1 ≤ m.maxCalls ∧ m.maxCalls ≤ limit m.runId m.callPurpose) :
    Sound limit (c.goOn t c.db m (some (.reserve none 0))) := by
  refine h.goOn hm h.recorded (fun t' l' _ hl' ↦ h.inHand t' l' hl') fun point hpoint ↦ ?_
  cases hpoint
  exact ⟨rfl, by rintro _ ⟨⟩⟩

/-- A reservation adds a row that follows the attempts of its logical call. -/
theorem Sound.reserve {c : LedgerState ι} (h : Sound limit c) {t : ι} {m : LedgerChatModel}
    {logicalCallId : Option String} {retryAttempt : ℕ}
    (hcall : c.calls t = some ⟨m, .reserve logicalCallId retryAttempt⟩) {db : Database}
    {receipt : ModelCall} (hr : Reserved (m.request logicalCallId retryAttempt) c.db db receipt) :
    Sound limit (c.goOn t db m (some (.invoke receipt false))) ∧
      Keeps c (c.goOn t db m (some (.invoke receipt false))) := by
  have hin : InHand c.rows (.reserve logicalCallId retryAttempt) := h.inHand t _ hcall
  have hrows : db.ledger.modelCalls.rows = c.rows ++ [receipt] := Table.rows_of_insert? hr.inserted
  have hid : ∀ b ∈ c.rows, b.id ≠ receipt.id := by
    have hnodup := db.ledger.modelCalls.nodup
    rw [hrows, List.map_append, List.nodup_append] at hnodup
    intro b hb
    exact hnodup.2.2 _ (List.mem_map_of_mem hb) _ (by simp)
  have hlogical : receipt.logicalCallId = receipt.id ∧ retryAttempt = 0 ∧ logicalCallId = none ∨
      logicalCallId = some receipt.logicalCallId := by
    have htext : receipt.logicalCallId = textOr logicalCallId receipt.id := hr.logical
    cases logicalCallId with
    | none => exact .inl ⟨htext, hin, rfl⟩
    | some logical =>
        obtain ⟨attempt, _, hretry⟩ := hin
        obtain ⟨b, hb, hbl, _⟩ := hretry.failed
        have hne : logical ≠ "" := hbl ▸ (h.recorded.logical b hb).1
        right
        rw [htext]
        simp [textOr, hne]
  have hattempt : receipt.retryAttempt = retryAttempt := hr.retryAttempt
  have hfollows : Follows c.rows receipt := by
    rcases hlogical with ⟨hself, hzero, _⟩ | rfl
    · exact .inl ⟨hself, hattempt.trans hzero⟩
    · obtain ⟨attempt, heq, hretry⟩ := hin
      exact .inr ⟨attempt, hattempt.trans heq, hretry⟩
  have hother : ∀ t' l, t' ≠ t → c.calls t' = some l →
      l.point.logicalCallId ≠ some receipt.logicalCallId := by
    intro t' l ht hl heq
    rcases hlogical with ⟨hself, _, _⟩ | hsame
    · obtain ⟨b, hb, hbid⟩ := (h.inHand t' l hl).named h.recorded heq
      exact hid b hb (hbid.trans hself)
    · exact ht (h.apart t' t l _ _ hl hcall heq hsame)
  obtain ⟨hlow, hhigh⟩ := h.budgets t _ hcall
  refine ⟨h.goOn ⟨hlow, hhigh⟩ ?_ (fun t' l ht hl ↦ ?_) fun point hpoint ↦ ?_, ?_⟩
  · rw [hrows]
    have hrun : receipt.runId = m.runId := hr.run
    have hpurpose : receipt.purpose = m.callPurpose := hr.purpose
    refine h.recorded.reserved hid hr.id ?_ ?_ hfollows
    · rw [hrun]
      exact hr.index
    · rw [hrun, hpurpose]
      have hbudget := hr.budget
      simp only [LedgerChatModel.request] at hbudget
      rw [max_eq_right hlow] at hbudget
      exact_mod_cast hbudget.trans hhigh
  · rw [hrows]
    exact (h.inHand t' l hl).appended (hother t' l ht hl)
  · cases hpoint
    refine ⟨⟨⟨receipt, by simp [hrows], rfl, fun hout ↦ ?_⟩, fun b hb hbl ↦ ?_⟩, ?_⟩
    · rw [hr.noOutput] at hout
      cases hout
    · rw [hrows] at hb
      rcases List.mem_append.mp hb with hold | hnew
      · exact (h.recorded.last_of_follows hid hfollows b hold hbl).le
      · rw [List.mem_singleton.mp hnew]
    · intro logical heq t' l ht hl
      rw [← heq]
      exact hother t' l ht hl
  · intro b hb
    refine ⟨b, ?_, .refl b⟩
    change b ∈ db.ledger.modelCalls.rows
    rw [hrows]
    exact List.mem_append_left _ hb

theorem Held.rewritten {db db' : Database} {receipt : ModelCall}
    {outputStarted outputStarted' : Bool} (h : Held db.ledger.modelCalls.rows receipt outputStarted)
    {runId : String} {f : ModelCall → ModelCall} {row : ModelCall}
    (hw : Rewrites db db' runId receipt.id f row)
    (hf : ∀ b : ModelCall, b.open = true → Revised b (f b))
    (hout : (row.outputStarted = true → outputStarted = true) →
      (f row).outputStarted = true → outputStarted' = true) :
    Held db'.ledger.modelCalls.rows receipt outputStarted' := by
  rw [hw.rows]
  refine h.revised (revised_of_rewrites hw hf) fun b hb hfixed hknown hnow ↦ ?_
  have hid : b.id = receipt.id := (columns_of_fixed hfixed).1
  have heq : b = row :=
    List.inj_on_of_nodup_map db.ledger.modelCalls.nodup hb hw.mem (hid.trans hw.id.symm)
  subst heq
  rw [if_pos hid] at hnow
  exact hout hknown hnow

theorem Sound.output {c : LedgerState ι} (h : Sound limit c) {t : ι} {m : LedgerChatModel}
    {receipt : ModelCall} {outputStarted : Bool}
    (hcall : c.calls t = some ⟨m, .invoke receipt outputStarted⟩) {db : Database}
    {row : ModelCall} (hw : Rewrites c.db db m.runId receipt.id
      (fun b ↦ { b with status := .streaming, outputStarted := true }) row) :
    Sound limit (c.goOn t db m (some (.invoke receipt true))) := by
  have hheld : Held c.rows receipt outputStarted := h.inHand t _ hcall
  have hf : ∀ b : ModelCall, b.open = true →
      Revised b { b with status := .streaming, outputStarted := true } :=
    fun b hopen ↦ revised_of_open hopen rfl fun _ ↦ rfl
  refine h.rewrite (l := ⟨m, _⟩) hcall hheld rfl hw hf fun point hpoint ↦ ?_
  cases hpoint
  exact ⟨hheld.rewritten hw hf fun _ _ ↦ rfl, rfl⟩

theorem Sound.settle {c : LedgerState ι} (h : Sound limit c) {t : ι} {m : LedgerChatModel}
    {receipt : ModelCall} {outputStarted : Bool}
    (hcall : c.calls t = some ⟨m, .invoke receipt outputStarted⟩) {db : Database}
    {f : ModelCall → ModelCall} {row : ModelCall}
    (hw : Rewrites c.db db m.runId receipt.id f row) (hfixed : ∀ b, (f b).fixed = b.fixed)
    (hout : ∀ b, (f b).outputStarted = b.outputStarted) :
    Sound limit (c.goOn t db m (some (.settled receipt outputStarted))) := by
  have hheld : Held c.rows receipt outputStarted := h.inHand t _ hcall
  have hf : ∀ b : ModelCall, b.open = true → Revised b (f b) :=
    fun b hopen ↦ revised_of_open hopen (hfixed b) (hout b).trans
  refine h.rewrite (l := ⟨m, _⟩) hcall hheld rfl hw hf fun point hpoint ↦ ?_
  cases hpoint
  refine ⟨hheld.rewritten hw hf fun hknown hnow ↦ hknown ?_, rfl⟩
  rwa [hout] at hnow

/-- A retry follows a failure that is on record without output. -/
theorem Sound.fail {c : LedgerState ι} (h : Sound limit c) {t : ι} {m : LedgerChatModel}
    {receipt : ModelCall} {outputStarted : Bool} {e : Failure}
    (hcall : c.calls t = some ⟨m, .failing receipt outputStarted e⟩) {db : Database}
    {f : ModelCall → ModelCall} {row : ModelCall}
    (hw : Rewrites c.db db m.runId receipt.id f row) (hfixed : ∀ b, (f b).fixed = b.fixed)
    (hout : ∀ b, (f b).outputStarted = b.outputStarted)
    (hstatus : ∀ b, (f b).status =
      if m.outcomeUnknown e outputStarted then .outcomeUnknown else .failed)
    {next : Option CallPoint}
    (hnext : ∀ point, next = some point → afterFailure m receipt outputStarted e = some point) :
    Sound limit (c.goOn t db m next) := by
  have hheld : Held c.rows receipt outputStarted := h.inHand t _ hcall
  have hf : ∀ b : ModelCall, b.open = true → Revised b (f b) :=
    fun b hopen ↦ revised_of_open hopen (hfixed b) (hout b).trans
  refine h.rewrite (l := ⟨m, _⟩) hcall hheld rfl hw hf fun point hpoint ↦ ?_
  have hafter := hnext point hpoint
  unfold afterFailure at hafter
  split at hafter
  · rename_i hretry
    cases hafter
    unfold shouldRetry at hretry
    split at hretry
    · cases hretry
    · rename_i hplain
      simp only [Bool.or_eq_true, decide_eq_true_eq, not_or, Bool.not_eq_true] at hplain
      obtain ⟨⟨hquiet, hknown⟩, _⟩ := hplain
      rw [Bool.and_eq_true, decide_eq_true_eq] at hretry
      obtain ⟨held, hmem, hheldFixed, hheldOut⟩ := hheld.row
      have hid : held.id = receipt.id := (columns_of_fixed hheldFixed).1
      have hmem' : f held ∈ db.ledger.modelCalls.rows := by
        rw [hw.rows]
        refine List.mem_map.mpr ⟨held, hmem, ?_⟩
        rw [if_pos hid]
      have hcolumns := columns_of_fixed ((hfixed held).trans hheldFixed)
      have hlast : Held db.ledger.modelCalls.rows receipt outputStarted :=
        hheld.rewritten hw hf fun hrow hnow ↦ hrow (by rwa [hout] at hnow)
      refine ⟨⟨_, rfl, hretry.2, hlast.last, f held, hmem', hcolumns.2.2.2.2.1,
        hcolumns.2.2.2.2.2, ?_, ?_⟩, rfl⟩
      · rw [hstatus, hknown]
        rfl
      · rw [hout]
        cases hheldEq : held.outputStarted with
        | false => rfl
        | true =>
            rw [hheldOut hheldEq] at hquiet
            cases hquiet
  · cases hafter

theorem keeps_of_rewrites {c : LedgerState ι} {t : ι} {m : LedgerChatModel}
    {next : Option CallPoint} {db : Database} {runId callId : String} {f : ModelCall → ModelCall}
    {row : ModelCall} (hw : Rewrites c.db db runId callId f row)
    (hfixed : ∀ b, (f b).fixed = b.fixed)
    (hout : ∀ b : ModelCall, b.outputStarted = true → (f b).outputStarted = true) :
    Keeps c (c.goOn t db m next) :=
  keeps_of_map hw.rows (revised_of_rewrites hw fun b hopen ↦ revised_of_open hopen (hfixed b) (hout b))

/-- Every step of the ledger keeps a sound state sound, and its rows. -/
theorem Sound.step {i : LedgerAct ι × World} {c c' : LedgerState ι} (h : Sound limit c)
    (hstep : LedgerStep limit i c c') : Sound limit c' ∧ Keeps c c' := by
  cases hstep with
  | transact hop => exact h.transact hop _
  | begin _ hlow hhigh => exact ⟨h.begin ⟨hlow, hhigh⟩, .refl c⟩
  | @reserve t m logicalCallId retryAttempt w c hcall =>
      rcases c.commit_cases t m (fun receipt ↦ some (.invoke receipt false)) none
          (reserveModelCall_post m.lease (m.request logicalCallId retryAttempt) ⟨c.db, w⟩) with
        heq | ⟨receipt, s, hr, heq⟩
      · rw [heq]
        exact ⟨h.goOn_same (l := ⟨m, _⟩) hcall (by rintro _ ⟨⟩), .refl c⟩
      · rw [heq]
        exact h.reserve hcall hr
  | @output t m receipt outputStarted e w c hcall =>
      rcases c.commit_cases t m (fun _ ↦ some (.invoke receipt true))
          (some (.failing receipt outputStarted e))
          (markModelCallOutput_post m.lease m.runId receipt.id ⟨c.db, w⟩) with
        heq | ⟨_, s, ⟨row, hw⟩, heq⟩
      · rw [heq]
        refine ⟨h.goOn_same (l := ⟨m, _⟩) hcall fun point hpoint ↦ ?_, .refl c⟩
        cases hpoint
        exact ⟨h.inHand t _ hcall, rfl⟩
      · rw [heq]
        exact ⟨h.output hcall hw, keeps_of_rewrites hw (fun _ ↦ rfl) fun _ _ ↦ rfl⟩
  | @settle t m receipt outputStarted inputTokens outputTokens e w c hcall =>
      rcases c.commit_cases t m (fun _ ↦ some (.settled receipt outputStarted))
          (some (.failing receipt outputStarted e))
          (settleModelCall_post m.lease m.runId receipt.id inputTokens outputTokens ⟨c.db, w⟩) with
        heq | ⟨_, s, ⟨status, now, row, hw⟩, heq⟩
      · rw [heq]
        refine ⟨h.goOn_same (l := ⟨m, _⟩) hcall fun point hpoint ↦ ?_, .refl c⟩
        cases hpoint
        exact ⟨h.inHand t _ hcall, rfl⟩
      · rw [heq]
        exact ⟨h.settle hcall hw (fun _ ↦ rfl) fun _ ↦ rfl,
          keeps_of_rewrites hw (fun _ ↦ rfl) fun _ hout ↦ hout⟩
  | @finish t m receipt outputStarted w c hcall =>
      exact ⟨h.goOn_same (l := ⟨m, _⟩) hcall (by rintro _ ⟨⟩), .refl c⟩
  | @raise t m point receipt outputStarted e w c hcall hpoint =>
      refine ⟨h.goOn_same (l := ⟨m, _⟩) hcall fun next hnext ↦ ?_, .refl c⟩
      cases hnext
      have hin := h.inHand t _ hcall
      rcases hpoint with rfl | rfl
      · exact ⟨hin, rfl⟩
      · exact ⟨hin, rfl⟩
  | @fail t m receipt outputStarted e inputTokens outputTokens canceled w c hcall =>
      rcases c.commit_cases t m
          (fun _ ↦ if canceled then none else afterFailure m receipt outputStarted e) none
          (failModelCall_post m.lease m.runId receipt.id (m.outcomeUnknown e outputStarted)
            (some e.errorCode) inputTokens outputTokens ⟨c.db, w⟩) with
        heq | ⟨_, s, ⟨now, row, hw⟩, heq⟩
      · rw [heq]
        exact ⟨h.goOn_same (l := ⟨m, _⟩) hcall (by rintro _ ⟨⟩), .refl c⟩
      · rw [heq]
        refine ⟨h.fail hcall hw (fun _ ↦ rfl) (fun _ ↦ rfl) (fun _ ↦ rfl) ?_,
          keeps_of_rewrites hw (fun _ ↦ rfl) fun _ hout ↦ hout⟩
        intro point hpoint
        cases canceled with
        | true => cases hpoint
        | false => exact hpoint
  | @stop t w c =>
      have hcalls : ∀ t' l, Function.update c.calls t none t' = some l → c.calls t' = some l := by
        intro t' l hl
        by_cases ht : t' = t
        · subst ht
          rw [Function.update_self] at hl
          cases hl
        · rwa [Function.update_of_ne ht] at hl
      refine ⟨⟨h.recorded, ?_, ?_, ?_⟩, .refl c⟩
      · exact fun t' l hl ↦ h.inHand t' l (hcalls t' l hl)
      · exact fun t' l hl ↦ h.budgets t' l (hcalls t' l hl)
      · exact fun t' t'' l l' logical hl hl' ↦
          h.apart t' t'' l l' logical (hcalls t' l hl) (hcalls t'' l' hl')

/-! ## Whole runs -/

def LedgerState.callsOf (c : LedgerState ι) (runId : String) : List ModelCall :=
  c.rows.filter fun b ↦ b.runId = runId

/-- Settling or failing a call that has ended raises and changes nothing. -/
def EndsOnce (db : Database) : Prop :=
  ∀ b ∈ db.ledger.modelCalls.rows, b.open = false → ∀ lease runId inputTokens outputTokens w,
    (∃ e, Txn.commit (settleModelCall lease runId b.id inputTokens outputTokens) db w =
      (.error e, db)) ∧
    ∀ outcomeUnknown errorCode, ∃ e, Txn.commit (failModelCall lease runId b.id outcomeUnknown
      errorCode inputTokens outputTokens) db w = (.error e, db)

theorem not_rewrites {db db' : Database} {b : ModelCall} (hb : b ∈ db.ledger.modelCalls.rows)
    (hended : b.open = false) {runId : String} {f : ModelCall → ModelCall} {c : ModelCall} :
    ¬Rewrites db db' runId b.id f c := by
  intro hw
  have heq : c = b := List.inj_on_of_nodup_map db.ledger.modelCalls.nodup hw.mem hb hw.id
  have hopen := hw.wasOpen
  rw [heq, hended] at hopen
  cases hopen

theorem ends_once (db : Database) : EndsOnce db := by
  intro b hb hended lease runId inputTokens outputTokens w
  refine ⟨commit_raises ?_, fun outcomeUnknown errorCode ↦ commit_raises ?_⟩
  · refine (settleModelCall_post lease runId b.id inputTokens outputTokens ⟨db, w⟩).mono ?_
    rintro _ _ ⟨_, _, _, hw⟩
    exact not_rewrites hb hended hw
  · refine (failModelCall_post lease runId b.id outcomeUnknown errorCode inputTokens outputTokens
      ⟨db, w⟩).mono ?_
    rintro _ _ ⟨_, _, hw⟩
    exact not_rewrites hb hended hw

/-- The ledger over every run: indexes without gap, budgets, ends for good,
and attempts that follow failures without output only. -/
theorem model_calls_bounded_and_final {c : LedgerState ι} (h : (ledger ι limit).Reachable c) :
    (∀ runId, (c.callsOf runId).map ModelCall.callIndex =
      List.range' 1 (c.callsOf runId).length) ∧
    (∀ runId purpose, (c.callsOf runId).countP (fun b ↦ b.purpose = purpose) ≤
      limit runId purpose) ∧
    EndsOnce c.db ∧
    (∀ c', (ledger ι limit).Run (fun _ _ ↦ True) c c' → Keeps c c') ∧
    (∀ logicalCallId, (c.rows.filter fun b ↦ b.logicalCallId = logicalCallId).length ≤
      modelRetryAttempts + 1) ∧
    ∀ b ∈ c.rows, ∀ b' ∈ c.rows, b.logicalCallId = b'.logicalCallId →
      b.retryAttempt < b'.retryAttempt → b.status = .failed ∧ b.outputStarted = false := by
  have hsound : Sound limit c := by
    refine System.ReachableBy.invariant ?_ ?_ h
    · rintro _ rfl
      exact sound_initial
    · intro i c c' hsound _ hstep
      exact (hsound.step hstep).1
  have hids : (c.rows.map ModelCall.id).Nodup := c.db.ledger.modelCalls.nodup
  refine ⟨hsound.recorded.indexed, hsound.recorded.budget, ends_once c.db, fun c' hrun ↦ ?_,
    hsound.recorded.length_attempts hids, fun b hb b' hb' ↦ ?_⟩
  · refine System.Run.relates (P := Sound limit) (R := Keeps) Keeps.refl (fun _ _ _ ↦ Keeps.trans)
      ?_ hrun hsound
    intro i c c' hsound _ hstep
    exact hsound.step hstep
  · exact hsound.recorded.earlier_failed hids hb hb'

/-! ## A retried call -/

namespace Retried

def model : LedgerChatModel where
  runId := "run_xx"
  executionAttemptId := ⟨"job", 1⟩
  modelName := "agent"
  maxCalls := 2
  callPurpose := "agent"
  parentToolOperationId := none
  lease := none

def overloaded : Failure := ⟨.other, true, "http_503"⟩

abbrev twice : String → String → ℕ := fun _ _ ↦ 2

/-- The only task goes on. -/
def next (c : LedgerState Unit) (w : World) : LedgerState Unit :=
  match c.calls () with
  | some ⟨m, .reserve logicalCallId retryAttempt⟩ =>
    c.commit () m (reserveModelCall m.lease (m.request logicalCallId retryAttempt)) w
      (fun receipt ↦ some (.invoke receipt false)) none
  | some ⟨m, .invoke receipt outputStarted⟩ =>
    if receipt.retryAttempt = 0 then
      c.goOn () c.db m (some (.failing receipt outputStarted overloaded))
    else
      c.commit () m (settleModelCall m.lease m.runId receipt.id (some 10) (some 20)) w
        (fun _ ↦ some (.settled receipt outputStarted))
        (some (.failing receipt outputStarted overloaded))
  | some ⟨m, .failing receipt outputStarted f⟩ =>
    c.commit () m (failModelCall m.lease m.runId receipt.id
        (m.outcomeUnknown f outputStarted) (some f.errorCode) none none) w
      (fun _ ↦ if false then none else afterFailure m receipt outputStarted f) none
  | some ⟨m, .settled _ _⟩ => c.goOn () c.db m none
  | none => c

theorem reachable_next {c : LedgerState Unit} (h : (ledger Unit twice).Reachable c) (w : World) :
    (ledger Unit twice).Reachable (next c w) := by
  unfold next
  split
  · rename_i hcall
    exact h.step (i := (.reserve (), w)) trivial (.reserve hcall)
  · rename_i hcall
    split
    · exact h.step (i := (.raise () overloaded, w)) trivial (.raise hcall (.inl rfl))
    · exact h.step (i := (.settle () (some 10) (some 20) overloaded, w)) trivial (.settle hcall)
  · rename_i hcall
    exact h.step (i := (.fail () none none false, w)) trivial (.fail hcall)
  · rename_i hcall
    exact h.step (i := (.finish (), w)) trivial (.finish hcall)
  · exact h

def begun : LedgerState Unit :=
  LedgerState.goOn ⟨Database.accepted, fun _ ↦ none⟩ () Database.accepted model
    (some (.reserve none 0))

@[irreducible] def settled : LedgerState Unit :=
  ([20, 30, 40, 50, 60, 70].map World.counting).foldl next begun

theorem reachable_begun : (ledger Unit twice).Reachable begun := by
  have hempty : (ledger Unit twice).Reachable ⟨Database.empty, fun _ ↦ none⟩ := ⟨_, rfl, .refl _⟩
  have haccepted : (ledger Unit twice).Reachable ⟨Database.accepted, fun _ ↦ none⟩ := by
    rw [Database.accepted]
    exact hempty.step (i := (.transact (.acceptRunCommand .sample), .counting 0)) trivial
      (.transact rfl)
  exact haccepted.step (i := (.begin () model, .counting 10)) trivial
    (.begin rfl (by decide) (by decide))

theorem reachable_settled : (ledger Unit twice).Reachable settled := by
  have hfold : ∀ (ws : List World) {c : LedgerState Unit}, (ledger Unit twice).Reachable c →
      (ledger Unit twice).Reachable (ws.foldl next c) := by
    intro ws
    induction ws with
    | nil => exact id
    | cons w ws ih => exact fun h ↦ ih (reachable_next h w)
  rw [settled]
  exact hfold _ reachable_begun

theorem model_calls_bounded_and_final_settled :
    (settled.rows.map fun b ↦ (b.retryAttempt, b.status)) = [(0, .failed), (1, .completed)] ∧
      EndsOnce settled.db ∧ ∀ b ∈ settled.rows, ∀ b' ∈ settled.rows,
        b.logicalCallId = b'.logicalCallId → b.retryAttempt < b'.retryAttempt →
          b.status = .failed ∧ b.outputStarted = false := by
  obtain ⟨_, _, hends, _, _, hretries⟩ := model_calls_bounded_and_final reachable_settled
  exact ⟨by decide +kernel, hends, hretries⟩

end Retried

end ShejaneRuntime.Agent
