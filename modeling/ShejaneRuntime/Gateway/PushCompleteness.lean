import Mathlib.Data.List.Infix
import ShejaneRuntime.Gateway.PushOutbox
import ShejaneRuntime.Snapshot.CatchUp

/-!
# The completeness of the push outbox

What each step of the gateway does to the cursors and the rows, and the
condition under which every configuration is told every later event once.
-/

namespace ShejaneRuntime.Gateway

open Lib Lib.Txn Store

/-! ## What other transactions keep -/

/-- A task stays with its peer, and with its run once it has one. -/
def A2ATask.Same (t t' : A2ATask) : Prop :=
  t'.peerId = t.peerId ∧
    ∀ runId, nonEmpty t.runtimeRunId = some runId → nonEmpty t'.runtimeRunId = some runId

theorem A2ATask.Same.refl (t : A2ATask) : t.Same t := ⟨rfl, fun _ h ↦ h⟩

theorem A2ATask.Same.trans {t t' t'' : A2ATask} (h : t.Same t') (h' : t'.Same t'') : t.Same t'' :=
  ⟨h'.1.trans h.1, fun runId hrun ↦ h'.2 runId (h.2 runId hrun)⟩

/-- The task read once is still there. -/
def GatewayDatabase.Knows (db : GatewayDatabase) (t : A2ATask) : Prop :=
  ∃ t', db.tasks.find? t.id = some t' ∧ t.Same t'

/-- Tasks stay what they are, cursors and rows stand still, and a
configuration can only be deleted. -/
structure Advances (db db' : GatewayDatabase) : Prop where
  tasks : ∀ t ∈ db.tasks.rows, db'.Knows t
  cursors : db'.pushCursors = db.pushCursors
  configs : ∀ k, (db'.pushConfigs.find? k).isSome = (db.pushConfigs.find? k).isSome
  active : ∀ k c', db'.pushConfigs.find? k = some c' → c'.deletedAt = none →
    ∃ c, db.pushConfigs.find? k = some c ∧ c.deletedAt = none
  sent : ∀ k eventKey, db'.sent k eventKey = db.sent k eventKey

theorem knows_of_mem {db : GatewayDatabase} {t : A2ATask} (h : t ∈ db.tasks.rows) : db.Knows t :=
  ⟨t, Table.find?_of_mem h, .refl t⟩

theorem GatewayDatabase.Knows.advance {db db' : GatewayDatabase} {t : A2ATask} (h : db.Knows t)
    (hadv : ∀ t ∈ db.tasks.rows, db'.Knows t) : db'.Knows t := by
  obtain ⟨t₁, hfind, hsame⟩ := h
  obtain ⟨t₂, hfind', hsame'⟩ := hadv t₁ (Table.mem_of_find? hfind)
  rw [Table.key_of_find? hfind] at hfind'
  exact ⟨t₂, hfind', hsame.trans hsame'⟩

/-- Transactions that leave the push tables alone. -/
theorem Advances.of_tasks {db db' : GatewayDatabase} (h : ∀ t ∈ db.tasks.rows, db'.Knows t)
    (hconfigs : db'.pushConfigs = db.pushConfigs) (hcursors : db'.pushCursors = db.pushCursors)
    (houtbox : db'.pushOutbox = db.pushOutbox) : Advances db db' := by
  refine ⟨h, hcursors, fun k ↦ by rw [hconfigs], fun k c' hc' hnone ↦ ?_, fun k eventKey ↦ ?_⟩
  · exact ⟨c', hconfigs ▸ hc', hnone⟩
  · unfold GatewayDatabase.sent
    rw [houtbox]

instance : Std.Refl Advances := ⟨fun _ ↦ .of_tasks (fun _ ↦ knows_of_mem) rfl rfl rfl⟩

instance : IsTrans GatewayDatabase Advances := by
  refine ⟨fun db db' db'' h h' ↦ ⟨fun t ht ↦ (h.tasks t ht).advance h'.tasks,
    h'.cursors.trans h.cursors, fun k ↦ (h'.configs k).trans (h.configs k), ?_,
    fun k eventKey ↦ (h'.sent k eventKey).trans (h.sent k eventKey)⟩⟩
  intro k c'' hc'' hnone
  obtain ⟨c', hc', hnone'⟩ := h'.active k c'' hc'' hnone
  exact h.active k c' hc' hnone'

theorem advances_insertTask (t : A2ATask) : Keeps Advances (insertTask t) := by
  refine .bind (.read _) fun _ ↦ .bind (.require _ _) fun _ ↦ .attempt fun db db' hdb ↦ ?_
  obtain ⟨tasks, hinsert, rfl⟩ := Option.map_eq_some_iff.mp hdb
  refine .of_tasks (fun t' ht' ↦ knows_of_mem ?_) rfl rfl rfl
  exact (Table.mem_insert? hinsert).mpr (.inl ht')

theorem advances_insertMessage (m : A2AMessage) : Keeps Advances (insertMessage m) := by
  refine .bind (.read _) fun _ ↦ .bind (.require _ _) fun _ ↦ .attempt fun db db' hdb ↦ ?_
  obtain ⟨messages, _, rfl⟩ := Option.map_eq_some_iff.mp hdb
  exact .of_tasks (fun _ ↦ knows_of_mem) rfl rfl rfl

theorem advances_updateTask {p : A2ATask → Bool} {f : A2ATask → A2ATask} {hf : ∀ t, (f t).id = t.id}
    (h : ∀ t, p t = true → t.Same (f t)) : Keeps Advances (updateTask p f hf) := by
  refine .bind (.read _) fun _ ↦ .bind (.write fun db ↦ ?_) fun _ ↦ .pure _
  refine .of_tasks (fun t ht ↦ ⟨if p t then f t else t, ?_, ?_⟩) rfl rfl rfl
  · rw [Table.find?_update, Table.find?_of_mem ht]
    rfl
  · split
    · rename_i hp
      exact h t hp
    · exact .refl t

theorem advances_updateMessage {p : A2AMessage → Bool} {f : A2AMessage → A2AMessage}
    {hf : ∀ m, (f m).key = m.key} : Keeps Advances (updateMessage p f hf) :=
  .bind (.read _) fun _ ↦ .bind (.write fun _ ↦ .of_tasks (fun _ ↦ knows_of_mem) rfl rfl rfl)
    fun _ ↦ .pure _

theorem advances_registerArtifact (a : A2AArtifact) : Keeps Advances (registerArtifact a) :=
  .bind (.read _) fun _ ↦ .bind (.require _ _) fun _ ↦
    .bind (.write fun _ ↦ .of_tasks (fun _ ↦ knows_of_mem) rfl rfl rfl) fun _ ↦
    .bind (.read _) fun _ ↦ .getOr _ _

theorem sent_update {db : GatewayDatabase} {p : OutboxRow → Bool} {f : OutboxRow → OutboxRow}
    (hf : ∀ r, (f r).key = r.key) (hpayload : ∀ r, (f r).payload = r.payload)
    (k : String × String × String) (eventKey : EventKey) :
    GatewayDatabase.sent { db with pushOutbox := db.pushOutbox.update p f hf } k eventKey =
      db.sent k eventKey := by
  unfold GatewayDatabase.sent
  rw [Table.find?_update, Option.map_map]
  congr 1
  funext r
  dsimp only [Function.comp_apply]
  split
  · exact hpayload r
  · rfl

theorem advances_updateOutbox {p : OutboxRow → Bool} {f : OutboxRow → OutboxRow}
    (hf : ∀ r, (f r).key = r.key) (hpayload : ∀ r, (f r).payload = r.payload) :
    Keeps Advances (write fun db : GatewayDatabase ↦
      { db with pushOutbox := db.pushOutbox.update p f hf } : GatewayTxn Unit) :=
  .write fun _ ↦ ⟨fun _ ↦ knows_of_mem, rfl, fun _ ↦ rfl, fun _ c' hc' hnone ↦ ⟨c', hc', hnone⟩,
    sent_update hf hpayload⟩

theorem advances_deleteConfigs {p : PushConfig → Bool} {f : PushConfig → PushConfig}
    (hf : ∀ c, (f c).key = c.key) (hdeleted : ∀ c, (f c).deletedAt ≠ none) :
    Keeps Advances (write fun db : GatewayDatabase ↦
      { db with pushConfigs := db.pushConfigs.update p f hf } : GatewayTxn Unit) := by
  refine .write fun db ↦ ⟨fun _ ↦ knows_of_mem, rfl, fun k ↦ ?_, fun k c' hc' hnone ↦ ?_,
    fun _ _ ↦ rfl⟩
  · rw [Table.find?_update, Option.isSome_map]
  · rw [Table.find?_update] at hc'
    obtain ⟨c, hc, heq⟩ := Option.map_eq_some_iff.mp hc'
    refine ⟨c, hc, ?_⟩
    split at heq
    · exact absurd (heq ▸ hnone) (hdeleted c)
    · rw [heq]
      exact hnone

theorem advances_exec (op : GatewayOp) : Keeps Advances op.exec := by
  cases op with
  | prepareMessage r =>
      refine .map _ (.bind (.read _) fun existing ↦ ?_)
      cases existing with
      | some m =>
          exact .bind (.require _ _) fun _ ↦ .bind (.read _) fun _ ↦ .bind (.getOr _ _) fun _ ↦
            .pure _
      | none =>
          refine .bind ?_ fun _ ↦ .bind (.read _) fun _ ↦ .bind (.require _ _) fun _ ↦
            .bind (.draw _) fun _ ↦ .bind (.when (advances_insertTask _)) fun _ ↦
            .bind (advances_insertMessage _) fun _ ↦ .pure _
          unfold selectContext
          split
          · exact .bind (.read _) fun _ ↦ .bind (.getOr _ _) fun _ ↦
              .bind (.require _ _) fun _ ↦ .pure _
          · exact .bind (.read _) fun _ ↦ .bind (.require _ _) fun _ ↦ .pure _
          · exact .pure _
  | settleTaskAdmission peerId taskId runtimeRunId =>
      refine .bind (.draw _) fun _ ↦ .bind (.read _) fun _ ↦ .bind (advances_updateTask ?_)
        fun _ ↦ .bind (.require _ _) fun _ ↦ .require _ _
      intro t ht
      refine ⟨rfl, fun runId hrun ↦ ?_⟩
      simp only [Bool.and_eq_true] at ht
      cases hcurrent : t.runtimeRunId with
      | none => simp [hcurrent, nonEmpty] at hrun
      | some current =>
          rw [hcurrent] at ht hrun
          simp only [Option.all_some, decide_eq_true_eq] at ht
          rw [← ht.2]
          exact hrun
  | settleMessageDelivery peerId messageId runtimeInstructionId =>
      exact .bind (.draw _) fun _ ↦ .bind advances_updateMessage fun _ ↦ .require _ _
  | rejectTaskAdmission peerId taskId reason =>
      exact .bind (.draw _) fun _ ↦ .bind (advances_updateTask fun _ _ ↦ ⟨rfl, fun _ h ↦ h⟩)
        fun _ ↦ .bind (.read _) fun _ ↦ .require _ _
  | rejectMessageDelivery peerId messageId reason =>
      exact .bind (.draw _) fun _ ↦ .bind advances_updateMessage fun _ ↦ .bind (.read _) fun _ ↦
        .require _ _
  | registerArtifact artifact => exact .map _ (advances_registerArtifact artifact)
  | deletePushConfig peerId tenant taskId configId =>
      refine .map _ (.bind (.draw _) fun _ ↦ .bind (.read _) fun _ ↦ .bind (.when ?_) fun _ ↦
        .pure _)
      exact .bind (advances_deleteConfigs _ (by simp)) fun _ ↦
        advances_updateOutbox _ fun _ ↦ rfl
  | claimPushDelivery leaseSeconds =>
      refine .map _ (.bind (.draw _) fun _ ↦ .bind (.read _) fun _ ↦ ?_)
      split
      · exact .pure _
      · exact .bind (advances_updateOutbox _ fun _ ↦ rfl) fun _ ↦ .pure _
  | settlePushDelivery key =>
      exact .bind (.draw _) fun _ ↦ advances_updateOutbox _ fun _ ↦ rfl
  | retryPushDelivery key availableAt error dead =>
      exact advances_updateOutbox _ fun _ ↦ rfl

/-! ## Projections only register artifacts -/

theorem advances_registerEventArtifact (env : Surroundings) (task : A2ATask)
    (known : List A2AArtifact) (event : Event) :
    Keeps Advances (registerEventArtifact env task known event) := by
  unfold registerEventArtifact
  refine .ite (.pure _) ?_
  split
  · exact .pure _
  · refine .ite (.pure _) (.bind (.getOr _ _) fun _ ↦ .bind ?_ fun _ ↦
      .bind (advances_registerArtifact _) fun _ ↦ .pure _)
    unfold raise
    split
    · exact .pure _
    · exact .fail _

theorem advances_projectRuntimeArtifacts (env : Surroundings) (task : A2ATask)
    (events : List Event) : Keeps Advances (projectRuntimeArtifacts env task events) := by
  refine .bind (.read _) fun known ↦ .bind ?_ fun _ ↦ .pure _
  induction events generalizing known with
  | nil => exact .pure _
  | cons event events ih =>
      rw [List.foldlM_cons]
      exact .bind (advances_registerEventArtifact env task known event) fun known' ↦ ih known'

theorem advances_projectStreamEvent (env : Surroundings) (task : A2ATask) (event : Event) :
    Keeps Advances (projectStreamEvent env task event) := by
  unfold projectStreamEvent
  refine .ite (.bind (advances_projectRuntimeArtifacts env task _) fun _ ↦ .pure _) ?_
  split
  · exact .pure _
  · exact .pure _

theorem advances_finishTask (env : Surroundings) (task : A2ATask) (historyLength : Option ℕ)
    (includeArtifacts : Bool) (events : List Event) (status : TaskStatus) :
    Keeps Advances (finishTask env task historyLength includeArtifacts events status) :=
  .bind (.read _) fun _ ↦
    .bind (.ite (advances_projectRuntimeArtifacts env task events) (.pure _)) fun _ ↦ .pure _

theorem advances_projectTask (env : Surroundings) (task : A2ATask) (historyLength : Option ℕ)
    (includeArtifacts : Bool) (run : Option Run) (events : List Event) :
    Keeps Advances (projectTask env task historyLength includeArtifacts run events) := by
  unfold projectTask
  split
  · exact advances_finishTask _ _ _ _ _ _
  · exact .bind (.getOr _ _) fun _ ↦ advances_finishTask _ _ _ _ _ _
  · exact advances_finishTask _ _ _ _ _ _

theorem advances_snapshot (env : Surroundings) (task : A2ATask) (thread : Option ThreadSnapshot) :
    Keeps Advances (snapshot env task thread) := by
  unfold snapshot
  split
  · exact .bind (advances_projectTask _ _ _ _ _ _) fun _ ↦ .pure _
  · exact .bind (.getOr _ _) fun _ ↦ .bind (.getOr _ _) fun _ ↦
      .bind (advances_projectTask _ _ _ _ _ _) fun _ ↦ .pure _

/-! ## Rows of an event -/

/-- What a list of rows says under a key. -/
def saidBy (rows : List OutboxRow) (k : String × String × String) (eventKey : EventKey) :
    Option StreamResponse :=
  (rows.find? fun r ↦ r.key = (k, eventKey)).map OutboxRow.payload

theorem saidBy_append (rows rows' : List OutboxRow) (k : String × String × String)
    (eventKey : EventKey) :
    saidBy (rows ++ rows') k eventKey = (saidBy rows k eventKey).or (saidBy rows' k eventKey) := by
  unfold saidBy
  rw [List.find?_append]
  cases rows.find? fun r ↦ r.key = (k, eventKey) with
  | none => rfl
  | some r => rfl

/-- Rows were added, and where one existed it stayed. -/
structure Added (rows : List OutboxRow) (db db' : GatewayDatabase) : Prop where
  tasks : db'.tasks = db.tasks
  configs : db'.pushConfigs = db.pushConfigs
  cursors : db'.pushCursors = db.pushCursors
  sent : ∀ k eventKey, db'.sent k eventKey = (db.sent k eventKey).or (saidBy rows k eventKey)

theorem Added.refl (db : GatewayDatabase) : Added [] db db :=
  ⟨rfl, rfl, rfl, fun _ _ ↦ (Option.or_none).symm⟩

theorem Added.append {rows rows' : List OutboxRow} {db db' db'' : GatewayDatabase}
    (h : Added rows db db') (h' : Added rows' db' db'') : Added (rows ++ rows') db db'' := by
  refine ⟨h'.tasks.trans h.tasks, h'.configs.trans h.configs, h'.cursors.trans h.cursors,
    fun k eventKey ↦ ?_⟩
  rw [h'.sent, h.sent, saidBy_append, Option.or_assoc]

theorem added_insertOutboxRowOrIgnore (r : OutboxRow) (s : Session GatewayDatabase World) :
    Post (insertOutboxRowOrIgnore r) s fun _ s' ↦ Added [r] s.db s'.db := by
  refine (post_write _).mpr ⟨rfl, rfl, rfl, fun k eventKey ↦ ?_⟩
  unfold GatewayDatabase.sent saidBy
  dsimp only
  cases hinsert : s.db.pushOutbox.insert? r with
  | none =>
      rw [Option.getD_none, List.find?_singleton]
      split
      · rename_i hkey
        rw [decide_eq_true_eq] at hkey
        -- the row is refused because there is one under its key
        have htaken : ¬(s.db.pushOutbox.insert? r).isSome = true := by simp [hinsert]
        rw [Table.insert?_isSome_iff, hkey] at htaken
        obtain ⟨r', hr'⟩ := Option.ne_none_iff_exists'.mp htaken
        rw [hr']
        rfl
      · exact Option.or_none.symm
  | some rows =>
      rw [Option.getD_some, Table.find?_insert? hinsert, List.find?_singleton]
      split
      · rename_i hkey
        have hfresh := Table.find?_key_of_insert? hinsert
        rw [← hkey] at hfresh
        rw [hfresh]
        simp [hkey]
      · rename_i hkey
        have hne : ¬r.key = (k, eventKey) := fun h ↦ hkey h.symm
        simp [hne]

theorem added_forM {α : Type} (row : α → OutboxRow) (xs : List α)
    (s : Session GatewayDatabase World) :
    Post (forM xs fun x ↦ insertOutboxRowOrIgnore (row x)) s
      fun _ s' ↦ Added (xs.map row) s.db s'.db := by
  induction xs generalizing s with
  | nil => simpa using Added.refl s.db
  | cons x xs ih =>
      simp only [List.forM_cons, post_bind]
      refine (added_insertOutboxRowOrIgnore (row x) s).mono fun _ s' hadded ↦ ?_
      exact (ih s').mono fun _ s'' hadded' ↦ hadded.append hadded'

theorem added_forM_forM {α β : Type} (row : α → β → OutboxRow) (xs : List α) (ys : List β)
    (s : Session GatewayDatabase World) :
    Post (forM xs fun x ↦ forM ys fun y ↦ insertOutboxRowOrIgnore (row x y)) s
      fun _ s' ↦ Added (xs.flatMap fun x ↦ ys.map (row x)) s.db s'.db := by
  induction xs generalizing s with
  | nil => simpa using Added.refl s.db
  | cons x xs ih =>
      simp only [List.forM_cons, post_bind]
      refine (added_forM (row x) ys s).mono fun _ s' hadded ↦ ?_
      exact (ih s').mono fun _ s'' hadded' ↦ hadded.append hadded'

/-- The rows of an event for some configurations. -/
def eventRows (configs : List PushConfig) (seq : ℕ) (payloads : List StreamResponse) (now : Time) :
    List OutboxRow :=
  configs.flatMap fun c ↦ payloads.zipIdx.map fun x ↦ .new c.key (.event seq x.2) x.1 now

theorem key_new (k : String × String × String) (eventKey : EventKey) (payload : StreamResponse)
    (now : Time) : (OutboxRow.new k eventKey payload now).key = (k, eventKey) := rfl

theorem find?_zipIdx {α : Type} (xs : List α) (n index : ℕ) :
    ((xs.zipIdx n).find? fun x ↦ x.2 = n + index).map Prod.fst = xs[index]? := by
  induction xs generalizing n index with
  | nil => rfl
  | cons x xs ih =>
      rw [List.zipIdx_cons, List.find?_cons]
      cases index with
      | zero => simp
      | succ index =>
          have hne : ¬n = n + (index + 1) := by omega
          simp only [hne, decide_false, List.getElem?_cons_succ]
          rw [← ih (n + 1) index, Nat.add_right_comm n 1 index, Nat.add_assoc]

theorem saidBy_eventRows (configs : List PushConfig) (seq : ℕ) (payloads : List StreamResponse)
    (now : Time) (k : String × String × String) (index : ℕ) :
    saidBy (eventRows configs seq payloads now) k (.event seq index) =
      if k ∈ configs.map PushConfig.key then payloads[index]? else none := by
  induction configs with
  | nil => rfl
  | cons c configs ih =>
      have hone : saidBy (payloads.zipIdx.map fun x ↦
          OutboxRow.new c.key (.event seq x.2) x.1 now) k (.event seq index) =
            if c.key = k then payloads[index]? else none := by
        unfold saidBy
        rw [List.find?_map, Option.map_map]
        by_cases hkey : c.key = k
        · rw [if_pos hkey, ← find?_zipIdx payloads 0 index]
          simp only [Function.comp_def, key_new, hkey, Prod.mk.injEq, true_and,
            EventKey.event.injEq, Nat.zero_add]
          rfl
        · simp [Function.comp_def, key_new, hkey]
      unfold eventRows at ih ⊢
      rw [List.flatMap_cons, saidBy_append, hone, ih]
      simp only [List.map_cons, List.mem_cons]
      by_cases hkey : c.key = k
      · cases payloads[index]? with
        | none => simp [hkey]
        | some payload => simp [hkey]
      · have hne : ¬k = c.key := fun h ↦ hkey h.symm
        simp [hkey, hne]

theorem saidBy_eventRows_of_ne (configs : List PushConfig) {seq : ℕ}
    (payloads : List StreamResponse) (now : Time) (k : String × String × String)
    {eventKey : EventKey} (h : ∀ index, eventKey ≠ .event seq index) :
    saidBy (eventRows configs seq payloads now) k eventKey = none := by
  unfold saidBy
  rw [Option.map_eq_none_iff, List.find?_eq_none]
  intro r hr
  obtain ⟨c, _, hmem⟩ := List.mem_flatMap.mp hr
  obtain ⟨x, _, rfl⟩ := List.mem_map.mp hmem
  rw [key_new, decide_eq_true_eq, Prod.mk.injEq]
  exact fun heq ↦ h x.2 heq.2.symm

/-- An event was recorded: every active configuration has its rows, and the
cursor stands at it. -/
structure Recorded (peerId taskId : String) (seq : ℕ) (payloads : List StreamResponse)
    (db db' : GatewayDatabase) : Prop where
  tasks : db'.tasks = db.tasks
  configs : db'.pushConfigs = db.pushConfigs
  cursor : ∃ cursor, db.cursorOf taskId = some cursor ∧ cursor < seq
  cursorOf : ∀ id, db'.cursorOf id = if id = taskId then some seq else db.cursorOf id
  cursors : ∀ c' ∈ db'.pushCursors.rows, ∃ c ∈ db.pushCursors.rows,
    c.taskId = c'.taskId ∧ c.peerId = c'.peerId
  event : ∀ k index, db'.sent k (.event seq index) = (db.sent k (.event seq index)).or
    (if k ∈ (db.pushConfigs.select (PushConfig.activeOf peerId taskId)).map PushConfig.key then
      payloads[index]? else none)
  others : ∀ k eventKey, (∀ index, eventKey ≠ .event seq index) →
    db'.sent k eventKey = db.sent k eventKey

theorem recordPushEvent_post (peerId taskId : String) (seq : ℕ) (payloads : List StreamResponse)
    (s : Session GatewayDatabase World) :
    Post (recordPushEvent peerId taskId seq payloads) s fun _ s' ↦
      (s'.db = s.db ∧ ∀ c, s.db.pushCursors.find? taskId = some c → c.peerId = peerId →
        seq ≤ c.runtimeAfter) ∨ Recorded peerId taskId seq payloads s.db s'.db := by
  unfold recordPushEvent
  rw [post_bind, post_read]
  cases hfilter : (s.db.pushCursors.find? taskId).filter fun c ↦ c.peerId = peerId with
  | none =>
      rw [post_pure]
      refine .inl ⟨rfl, fun c hc hpeer ↦ ?_⟩
      simp [hc, hpeer] at hfilter
  | some c =>
      obtain ⟨hc, hpeer⟩ := Option.filter_eq_some_iff.mp hfilter
      rw [decide_eq_true_eq] at hpeer
      rw [post_when]
      constructor
      · intro hlt
        simp only [post_bind, post_read, gatewayNow, post_draw]
        refine (added_forM_forM (fun (c : PushConfig) (x : StreamResponse × ℕ) ↦
          OutboxRow.new c.key (.event seq x.2) x.1 (s.world.clock 0)) _ _ _).mono
            fun _ s' hadded ↦ ?_
        rw [post_write]
        have hid : c.taskId = taskId := Table.key_of_find? hc
        refine .inr ⟨hadded.tasks, hadded.configs, ⟨c.runtimeAfter, ?_, hlt⟩, fun id ↦ ?_,
          fun c' hc' ↦ ?_, fun k index ↦ ?_, fun k eventKey hne ↦ ?_⟩
        · unfold GatewayDatabase.cursorOf
          rw [hc]
          rfl
        · unfold GatewayDatabase.cursorOf
          dsimp only
          rw [Table.find?_update, hadded.cursors]
          by_cases heq : id = taskId
          · subst heq
            rw [hc]
            simp [hid, hpeer, hlt]
          · rw [if_neg heq, Option.map_map]
            cases hfind : s.db.pushCursors.find? id with
            | none => rfl
            | some c₁ =>
                have hid₁ : c₁.taskId = id := Table.key_of_find? hfind
                have hne : ¬c₁.taskId = taskId := fun h ↦ heq (hid₁.symm.trans h)
                simp [hne]
        · rw [hadded.cursors] at hc'
          obtain ⟨c₁, hc₁, rfl⟩ := List.mem_map.mp hc'
          refine ⟨c₁, hc₁, ?_⟩
          split
          · exact ⟨rfl, rfl⟩
          · exact ⟨rfl, rfl⟩
        · exact (hadded.sent k _).trans (congrArg _ (saidBy_eventRows _ _ _ _ _ _))
        · refine (hadded.sent k eventKey).trans ?_
          have hnone := saidBy_eventRows_of_ne (s.db.pushConfigs.select
            (PushConfig.activeOf peerId taskId)) payloads (s.world.clock 0) k hne
          exact (congrArg _ hnone).trans Option.or_none
      · intro hle
        refine .inl ⟨rfl, fun c' hc' _ ↦ ?_⟩
        rw [hc] at hc'
        cases hc'
        omega

/-! ## A new configuration -/

/-- A configuration was created, behind a snapshot. -/
structure Created (r : CreatePushConfig) (start : ℕ) (db db' : GatewayDatabase) : Prop where
  tasks : db'.tasks = db.tasks
  task : ∃ t, db.tasks.find? r.taskId = some t ∧ t.peerId = r.peerId
  fresh : db.pushConfigs.find? r.key = none
  room : (db.pushConfigs.select (PushConfig.activeOf r.peerId r.taskId)).length < 8
  config : ∃ c, c.key = r.key ∧ db.pushConfigs.insert? c = some db'.pushConfigs
  cursorOf : ∀ id, db'.cursorOf id = if id = r.taskId then
    some (((db.cursorOf id).map fun cursor ↦ max cursor start).getD start) else db.cursorOf id
  cursors : ∀ c' ∈ db'.pushCursors.rows, (c'.taskId = r.taskId ∧ c'.peerId = r.peerId) ∨
    ∃ c ∈ db.pushCursors.rows, c.taskId = c'.taskId ∧ c.peerId = c'.peerId
  snapshot : (db'.sent r.key .snapshot).isSome = true
  others : ∀ k eventKey, (k, eventKey) ≠ (r.key, .snapshot) →
    db'.sent k eventKey = db.sent k eventKey

theorem createPushConfig_post (r : CreatePushConfig) (start : ℕ) (payload : StreamResponse)
    (s : Session GatewayDatabase World) :
    Post (createPushConfig r start payload) s fun result s' ↦
      (result.2 = false ∧ s'.db = s.db) ∨
        (result.2 = true ∧ Created r start s.db s'.db) := by
  unfold createPushConfig
  simp only [findTask, post_bind, post_read, post_require]
  intro htask
  cases hfind : s.db.pushConfigs.find? r.key with
  | some config =>
      simp only [post_bind, post_require, post_pure]
      exact fun _ ↦ .inl ⟨trivial, trivial⟩
  | none =>
      simp only [post_bind, post_read, post_require, gatewayNow, post_draw, insertPushConfig,
        post_attempt, raisePushCursor, post_write, insertOutboxRow, post_pure]
      intro hroom db₁ hdb₁ db₂ hdb₂
      obtain ⟨configs, hconfigs, rfl⟩ := Option.map_eq_some_iff.mp hdb₁
      obtain ⟨outbox, houtbox, rfl⟩ := Option.map_eq_some_iff.mp hdb₂
      refine .inr ⟨trivial, rfl, ?_, hfind, hroom, ⟨_, rfl, hconfigs⟩, fun id ↦ ?_, fun c' hc' ↦ ?_,
        ?_, fun k eventKey hne ↦ ?_⟩
      · obtain ⟨t, ht⟩ := Option.isSome_iff_exists.mp htask
        obtain ⟨hfound, howner⟩ := Option.filter_eq_some_iff.mp ht
        simp only [Bool.and_eq_true, decide_eq_true_eq] at howner
        exact ⟨t, hfound, howner.1⟩
      · unfold GatewayDatabase.cursorOf
        dsimp only
        cases hinsert : s.db.pushCursors.insert?
            ⟨r.taskId, r.peerId, start, s.world.clock 0⟩ with
        | some cursors =>
            rw [Option.getD_some, Table.find?_insert? hinsert]
            have hnone := Table.find?_key_of_insert? hinsert
            dsimp only at hnone ⊢
            by_cases heq : id = r.taskId
            · subst heq
              simp [hnone]
            · simp [heq]
        | none =>
            rw [Option.getD_none, Table.find?_update]
            by_cases heq : id = r.taskId
            · subst heq
              have htaken : ¬(s.db.pushCursors.insert?
                  ⟨r.taskId, r.peerId, start, s.world.clock 0⟩).isSome = true := by
                simp [hinsert]
              rw [Table.insert?_isSome_iff] at htaken
              obtain ⟨c, hc⟩ := Option.ne_none_iff_exists'.mp htaken
              dsimp only at hc
              have hid : c.taskId = r.taskId := Table.key_of_find? hc
              rw [hc]
              simp [hid]
            · rw [if_neg heq, Option.map_map]
              cases hfind : s.db.pushCursors.find? id with
              | none => rfl
              | some c =>
                  have hid : c.taskId = id := Table.key_of_find? hfind
                  have hne : ¬c.taskId = r.taskId := fun h ↦ heq (hid.symm.trans h)
                  simp [hne]
      · dsimp only at hc'
        cases hinsert : s.db.pushCursors.insert?
            ⟨r.taskId, r.peerId, start, s.world.clock 0⟩ with
        | some cursors =>
            rw [hinsert, Option.getD_some] at hc'
            rcases (Table.mem_insert? hinsert).mp hc' with hold | rfl
            · exact .inr ⟨c', hold, rfl, rfl⟩
            · exact .inl ⟨rfl, rfl⟩
        | none =>
            rw [hinsert, Option.getD_none] at hc'
            obtain ⟨c, hc, rfl⟩ := List.mem_map.mp hc'
            refine .inr ⟨c, hc, ?_⟩
            split
            · exact ⟨rfl, rfl⟩
            · exact ⟨rfl, rfl⟩
      · unfold GatewayDatabase.sent
        rw [Table.find?_insert? houtbox, key_new, if_pos rfl]
        rfl
      · unfold GatewayDatabase.sent
        dsimp only
        rw [Table.find?_insert? houtbox, key_new, if_neg hne]

/-! ## Events of a task -/

namespace PushState

variable {s s' : PushState} {taskId : String}

theorem eventsOf_of_run {runId : String} (h : s.gateway.runOf taskId = some runId) :
    s.eventsOf taskId = s.runtime.journal.events.ofRun runId := by
  unfold eventsOf
  rw [h]

theorem seq_eventsOf (s : PushState) (taskId : String) :
    (s.eventsOf taskId).map Event.seq = List.range' 1 (s.eventsOf taskId).length := by
  unfold eventsOf
  split
  · rfl
  · exact s.runtime.journal.events.gapless _

theorem seq_le_of_mem {e : Event} (h : e ∈ s.eventsOf taskId) :
    1 ≤ e.seq ∧ e.seq ≤ (s.eventsOf taskId).length := by
  have hmem : e.seq ∈ List.range' 1 (s.eventsOf taskId).length :=
    seq_eventsOf s taskId ▸ List.mem_map_of_mem h
  rw [List.mem_range'_1] at hmem
  omega

theorem exists_event {seq : ℕ} (hone : 1 ≤ seq) (hle : seq ≤ (s.eventsOf taskId).length) :
    ∃ e ∈ s.eventsOf taskId, e.seq = seq := by
  have hmem : seq ∈ (s.eventsOf taskId).map Event.seq := by
    rw [seq_eventsOf, List.mem_range'_1]
    omega
  exact List.mem_map.mp hmem

/-- What is later than a list of events is behind its last number. -/
theorem mem_of_seq_le (hleads : s.eventsOf taskId <+: s'.eventsOf taskId) {e : Event}
    (h : e ∈ s'.eventsOf taskId) (hle : e.seq ≤ (s.eventsOf taskId).length) :
    e ∈ s.eventsOf taskId := by
  obtain ⟨rest, hrest⟩ := hleads
  rw [← hrest] at h
  rcases List.mem_append.mp h with hold | hnew
  · exact hold
  · have hseqs := seq_eventsOf s' taskId
    rw [← hrest, List.map_append, seq_eventsOf s taskId, List.length_append] at hseqs
    have hrange : rest.map Event.seq =
        List.range' (1 + (s.eventsOf taskId).length) rest.length := by
      rw [← List.range'_append_1] at hseqs
      exact List.append_cancel_left hseqs
    have hmem : e.seq ∈ List.range' (1 + (s.eventsOf taskId).length) rest.length :=
      hrange ▸ List.mem_map_of_mem hnew
    rw [List.mem_range'_1] at hmem
    omega

/-- The first event after a number has the next one. -/
theorem seq_of_drop {after : ℕ} {e : Event} {es : List Event}
    (h : e :: es <+: (s.eventsOf taskId).drop after) : e ∈ s.eventsOf taskId ∧ e.seq = after + 1 ∧
      es <+: (s.eventsOf taskId).drop (after + 1) := by
  obtain ⟨rest, hrest⟩ := h
  have hlt : after < (s.eventsOf taskId).length := by
    have hlength := congrArg List.length hrest
    simp only [List.cons_append, List.length_cons, List.length_drop] at hlength
    omega
  rw [List.drop_eq_getElem_cons hlt, List.cons_append] at hrest
  injection hrest with hhead htail
  refine ⟨hhead ▸ List.getElem_mem hlt, ?_, ⟨rest, htail⟩⟩
  have hseq : ((s.eventsOf taskId).map Event.seq)[after]? = some (1 + after) := by
    rw [seq_eventsOf, List.getElem?_range' hlt, Nat.one_mul]
  rw [List.getElem?_map, List.getElem?_eq_getElem hlt, ← hhead, Option.map_some] at hseq
  rw [Option.some.inj hseq, Nat.add_comm]

/-! ## What every step keeps -/

/-- Tasks stay, logs grow, cursors move ahead and projections are remembered. -/
structure Forward (s s' : PushState) : Prop where
  tasks : ∀ t, s.gateway.Knows t → s'.gateway.Knows t
  events : ∀ taskId, s.eventsOf taskId <+: s'.eventsOf taskId
  cursors : ∀ taskId cursor, s.gateway.cursorOf taskId = some cursor →
    ∃ cursor', s'.gateway.cursorOf taskId = some cursor' ∧ cursor ≤ cursor'
  projections : s.projections ⊆ s'.projections

/-- A task that is to be polled, after an event the cursor has passed. -/
def Watched (s : PushState) (t : A2ATask) (after : ℕ) : Prop :=
  s.gateway.Knows t ∧ ∃ cursor, s.gateway.cursorOf t.id = some cursor ∧ after ≤ cursor

structure KnownCreating (s : PushState) (c : Creating) : Prop where
  id : c.task.id = c.request.taskId
  peer : c.task.peerId = c.request.peerId
  knows : s.gateway.Knows c.task
  behind : ∀ projected start, c.snapshot = some (projected, start) →
    start ≤ (s.eventsOf c.task.id).length

structure KnownProducing (s : PushState) (p : Producing) : Prop where
  watched : ∀ w ∈ p.watched, s.Watched w.1 w.2
  polled : ∀ t after es, p.polled = some (t, after, es) →
    s.Watched t after ∧ es <+: (s.eventsOf t.id).drop after
  projected : ∀ updates, p.projected = some updates → ∃ t after e es,
    p.polled = some (t, after, e :: es) ∧ (t.id, e, updates) ∈ s.projections

theorem Forward.watched (h : Forward s s') {t : A2ATask} {after : ℕ} (hw : s.Watched t after) :
    s'.Watched t after := by
  obtain ⟨hknows, cursor, hcursor, hle⟩ := hw
  obtain ⟨cursor', hcursor', hle'⟩ := h.cursors t.id cursor hcursor
  exact ⟨h.tasks t hknows, cursor', hcursor', hle.trans hle'⟩

theorem KnownCreating.forward {c : Creating} (hc : s.KnownCreating c) (h : Forward s s') :
    s'.KnownCreating c :=
  ⟨hc.id, hc.peer, h.tasks _ hc.knows, fun projected start hsnapshot ↦
    (hc.behind projected start hsnapshot).trans (h.events c.task.id).length_le⟩

theorem KnownProducing.forward {p : Producing} (hp : s.KnownProducing p) (h : Forward s s') :
    s'.KnownProducing p := by
  refine ⟨fun w hw ↦ h.watched (hp.watched w hw), fun t after es hpolled ↦ ?_,
    fun updates hprojected ↦ ?_⟩
  · obtain ⟨hw, hleads⟩ := hp.polled t after es hpolled
    exact ⟨h.watched hw, hleads.trans (List.IsPrefix.drop (h.events t.id) after)⟩
  · obtain ⟨t, after, e, es, hpolled, hmem⟩ := hp.projected updates hprojected
    exact ⟨t, after, e, es, hpolled, h.projections hmem⟩

theorem runOf_of_knows {db : GatewayDatabase} {t : A2ATask} (h : db.Knows t) {runId : String}
    (hrun : nonEmpty t.runtimeRunId = some runId) : db.runOf t.id = some runId := by
  obtain ⟨t', hfind, hsame⟩ := h
  unfold GatewayDatabase.runOf
  rw [hfind]
  exact hsame.2 runId hrun

theorem forward_of_advances (hadv : Advances s.gateway s'.gateway)
    (hkept : s.runtime.journal.events.rows <+: s'.runtime.journal.events.rows)
    (hprojections : s.projections ⊆ s'.projections) : Forward s s' := by
  refine ⟨fun t ht ↦ ht.advance hadv.tasks, fun taskId ↦ ?_, fun taskId cursor hcursor ↦ ?_,
    hprojections⟩
  · cases hrun : s.gateway.runOf taskId with
    | none =>
        unfold eventsOf
        rw [hrun]
        exact List.nil_prefix
    | some runId =>
        have hrun' : s'.gateway.runOf taskId = some runId := by
          obtain ⟨t, hfind, hsome⟩ := Option.bind_eq_some_iff.mp hrun
          have hid := Table.key_of_find? hfind
          exact hid ▸ runOf_of_knows (hadv.tasks t (Table.mem_of_find? hfind)) hsome
        rw [eventsOf_of_run hrun, eventsOf_of_run hrun']
        exact hkept.filter _
  · refine ⟨cursor, ?_, le_refl _⟩
    unfold GatewayDatabase.cursorOf
    rw [hadv.cursors]
    exact hcursor

/-! ## The ledger -/

/-- What a configuration has been told while the cursor stands at a number. -/
structure ToldUpTo (s : PushState) (k : String × String × String) (start cursor : ℕ) : Prop where
  le : start ≤ cursor
  snapshot : (s.gateway.sent k .snapshot).isSome = true
  updates : ∀ e ∈ s.eventsOf k.2.1, start < e.seq → e.seq ≤ cursor →
    ∃ updates, s.Projected k.2.1 e updates ∧
      ∀ index, s.gateway.sent k (.event e.seq index) = updates[index]?.map StreamResponse.update
  only : ∀ seq index, (s.gateway.sent k (.event seq index)).isSome = true →
    start < seq ∧ seq ≤ cursor

structure Ledger (s : PushState) : Prop where
  runtime : store.ReachableBy calls s.runtime
  cursors : ∀ c ∈ s.gateway.pushCursors.rows, c.runtimeAfter ≤ (s.eventsOf c.taskId).length ∧
    ∃ t, s.gateway.tasks.find? c.taskId = some t ∧ t.peerId = c.peerId
  owned : ∀ k eventKey, (s.gateway.sent k eventKey).isSome = true →
    (s.gateway.pushConfigs.find? k).isSome = true
  peers : ∀ k, (s.gateway.pushConfigs.find? k).isSome = true →
    ∃ t, s.gateway.tasks.find? k.2.1 = some t ∧ t.peerId = k.1
  created : ∀ p ∈ s.snapshots, (s.gateway.pushConfigs.find? p.1).isSome = true
  once : (s.snapshots.map Prod.fst).Nodup
  told : ∀ k c, s.gateway.pushConfigs.find? k = some c → c.deletedAt = none →
    ∃ start cursor, (k, start) ∈ s.snapshots ∧ s.gateway.cursorOf k.2.1 = some cursor ∧
      s.ToldUpTo k start cursor

theorem Ledger.cursor_le (h : Ledger s) {cursor : ℕ}
    (hcursor : s.gateway.cursorOf taskId = some cursor) :
    cursor ≤ (s.eventsOf taskId).length := by
  obtain ⟨c, hc, rfl⟩ := Option.map_eq_some_iff.mp hcursor
  have hid := Table.key_of_find? hc
  exact hid ▸ (h.cursors c (Table.mem_of_find? hc)).1

theorem Projected.mono {e : Event} {updates : List Update} (h : s.Projected taskId e updates)
    (hsub : s.projections ⊆ s'.projections) : s'.Projected taskId e updates :=
  h.imp (fun hmem ↦ hsub hmem) id

/-- What has been told stays told while the cursor stands. -/
theorem ToldUpTo.forward {k : String × String × String} {start cursor : ℕ}
    (h : s.ToldUpTo k start cursor) (hforward : Forward s s')
    (hle : cursor ≤ (s.eventsOf k.2.1).length)
    (hsent : ∀ eventKey, s'.gateway.sent k eventKey = s.gateway.sent k eventKey) :
    s'.ToldUpTo k start cursor := by
  refine ⟨h.le, hsent _ ▸ h.snapshot, fun e he hstart hcursor ↦ ?_, fun seq index hsome ↦ ?_⟩
  · have hold : e ∈ s.eventsOf k.2.1 :=
      mem_of_seq_le (hforward.events _) he (hcursor.trans hle)
    obtain ⟨updates, hprojected, hrows⟩ := h.updates e hold hstart hcursor
    exact ⟨updates, hprojected.mono hforward.projections,
      fun index ↦ (hsent _).trans (hrows index)⟩
  · rw [hsent] at hsome
    exact h.only seq index hsome

theorem Ledger.advance (h : Ledger s) (hruntime : store.ReachableBy calls s'.runtime)
    (hforward : Forward s s') (hadv : Advances s.gateway s'.gateway) (hsnapshots : s'.snapshots = s.snapshots) :
    Ledger s' := by
  have htask : ∀ taskId peerId, (∃ t, s.gateway.tasks.find? taskId = some t ∧ t.peerId = peerId) →
      ∃ t, s'.gateway.tasks.find? taskId = some t ∧ t.peerId = peerId := by
    rintro taskId peerId ⟨t, hfind, hpeer⟩
    obtain ⟨t', hfind', hsame⟩ := hadv.tasks t (Table.mem_of_find? hfind)
    rw [Table.key_of_find? hfind] at hfind'
    exact ⟨t', hfind', hsame.1.trans hpeer⟩
  refine ⟨hruntime, fun c hc ↦ ?_, fun k eventKey hsome ↦ ?_, fun k hsome ↦ ?_, fun p hp ↦ ?_,
    hsnapshots ▸ h.once, fun k c' hc' hactive ↦ ?_⟩
  · rw [hadv.cursors] at hc
    obtain ⟨hle, hexists⟩ := h.cursors c hc
    exact ⟨hle.trans (hforward.events _).length_le, htask _ _ hexists⟩
  · rw [hadv.sent] at hsome
    rw [hadv.configs]
    exact h.owned k eventKey hsome
  · rw [hadv.configs] at hsome
    exact htask _ _ (h.peers k hsome)
  · rw [hadv.configs]
    exact h.created p (hsnapshots ▸ hp)
  · obtain ⟨c, hc, hactive'⟩ := hadv.active k c' hc' hactive
    obtain ⟨start, cursor, hmem, hcursor, htold⟩ := h.told k c hc hactive'
    refine ⟨start, cursor, hsnapshots ▸ hmem, ?_,
      htold.forward hforward (h.cursor_le hcursor) (hadv.sent k)⟩
    unfold GatewayDatabase.cursorOf
    rw [hadv.cursors]
    exact hcursor

/-! ## A configuration is created -/

theorem eventsOf_congr (htasks : s'.gateway.tasks = s.gateway.tasks)
    (hruntime : s'.runtime = s.runtime) (taskId : String) : s'.eventsOf taskId = s.eventsOf taskId := by
  unfold eventsOf GatewayDatabase.runOf
  rw [htasks, hruntime]

theorem knows_congr {db db' : GatewayDatabase} (htasks : db'.tasks = db.tasks) {t : A2ATask}
    (h : db.Knows t) : db'.Knows t := by
  unfold GatewayDatabase.Knows
  rw [htasks]
  exact h

theorem forward_of_created {r : CreatePushConfig} {start : ℕ}
    (h : Created r start s.gateway s'.gateway) (hruntime : s'.runtime = s.runtime)
    (hprojections : s'.projections = s.projections) : Forward s s' := by
  refine ⟨fun t ht ↦ knows_congr h.tasks ht, fun id ↦ ?_, fun id cursor hcursor ↦ ?_,
    fun _ hp ↦ hprojections ▸ hp⟩
  · rw [eventsOf_congr h.tasks hruntime]
  · rw [h.cursorOf]
    split
    · exact ⟨max cursor start, by simp [hcursor], le_max_left _ _⟩
    · exact ⟨cursor, hcursor, le_refl _⟩

/-- Nothing is told between two numbers, so what was told up to the first
was told up to the second. -/
theorem ToldUpTo.extend {k : String × String × String} {start cursor cursor' : ℕ}
    (h : s.ToldUpTo k start cursor) (hle : cursor ≤ cursor')
    (hquiet : s.Quiet k.2.1 cursor cursor') : s.ToldUpTo k start cursor' := by
  refine ⟨h.le.trans hle, h.snapshot, fun e he hstart hcursor ↦ ?_, fun seq index hsome ↦ ?_⟩
  · rcases Nat.lt_or_ge cursor e.seq with hlt | hge
    · refine ⟨[], .inr ⟨hquiet e he hlt hcursor, rfl⟩, fun index ↦ ?_⟩
      rw [List.getElem?_nil, Option.map_none, ← Option.not_isSome_iff_eq_none]
      intro hsome
      exact absurd (h.only _ _ hsome).2 (by omega)
    · exact h.updates e he hstart hge
  · obtain ⟨hstart, hcursor⟩ := h.only seq index hsome
    exact ⟨hstart, hcursor.trans hle⟩

/-- A new configuration has been told its snapshot. -/
theorem toldUpTo_new {k : String × String × String} {start cursor : ℕ} (hle : start ≤ cursor)
    (hsnapshot : (s.gateway.sent k .snapshot).isSome = true)
    (hnone : ∀ seq index, s.gateway.sent k (.event seq index) = none)
    (hquiet : s.Quiet k.2.1 start cursor) : s.ToldUpTo k start cursor := by
  refine ⟨hle, hsnapshot, fun e he hstart hcursor ↦ ?_, fun seq index hsome ↦ ?_⟩
  · exact ⟨[], .inr ⟨hquiet e he hstart hcursor, rfl⟩, fun index ↦ hnone _ _⟩
  · rw [hnone] at hsome
    cases hsome

theorem ledger_created (h : Ledger s) {r : CreatePushConfig} {start : ℕ}
    (hcreated : Created r start s.gateway s'.gateway) (hruntime : s'.runtime = s.runtime)
    (hprojections : s'.projections = s.projections)
    (hsnapshots : s'.snapshots = s.snapshots ++ [(r.key, start)])
    (hbehind : start ≤ (s.eventsOf r.taskId).length)
    (hquiet : ∀ cursor, s.gateway.cursorOf r.taskId = some cursor →
      s.Quiet r.taskId start cursor ∧
        (s.gateway.pushConfigs.rows.any (PushConfig.activeOf r.peerId r.taskId) = true →
          s.Quiet r.taskId cursor start)) : Ledger s' := by
  have hforward := forward_of_created hcreated hruntime hprojections
  have hevents : ∀ id, s'.eventsOf id = s.eventsOf id := eventsOf_congr hcreated.tasks hruntime
  obtain ⟨row, hrow, hinsert⟩ := hcreated.config
  have hfind : ∀ k, s'.gateway.pushConfigs.find? k =
      if k = r.key then some row else s.gateway.pushConfigs.find? k :=
    fun k ↦ hrow ▸ Table.find?_insert? hinsert k
  -- the new configuration has no rows but its snapshot
  have hempty : ∀ eventKey, s.gateway.sent r.key eventKey = none := by
    intro eventKey
    rw [← Option.not_isSome_iff_eq_none]
    intro hsome
    have hexists := h.owned r.key eventKey hsome
    rw [hcreated.fresh] at hexists
    cases hexists
  refine ⟨hruntime ▸ h.runtime, fun c' hc' ↦ ?_, fun k eventKey hsome ↦ ?_, fun k hsome ↦ ?_,
    fun p hp ↦ ?_, ?_, fun k c' hc' hactive ↦ ?_⟩
  · have hcursor : s'.gateway.cursorOf c'.taskId = some c'.runtimeAfter := by
      unfold GatewayDatabase.cursorOf
      rw [Table.find?_of_mem hc']
      rfl
    rw [hevents, hcreated.tasks]
    refine ⟨?_, ?_⟩
    · rw [hcreated.cursorOf] at hcursor
      split at hcursor
      · rename_i hid
        rw [hid] at hcursor ⊢
        rw [← Option.some.inj hcursor]
        cases hold : s.gateway.cursorOf r.taskId with
        | none => simpa using hbehind
        | some cursor =>
            have hle := h.cursor_le hold
            simp only [Option.map_some, Option.getD_some]
            omega
      · exact h.cursor_le hcursor
    · rcases hcreated.cursors c' hc' with ⟨hid, hpeer⟩ | ⟨c, hc, hid, hpeer⟩
      · rw [hid, hpeer]
        exact hcreated.task
      · rw [← hid, ← hpeer]
        exact (h.cursors c hc).2
  · rw [hfind]
    split
    · rfl
    · rename_i hne
      rw [hcreated.others k eventKey fun heq ↦ hne (Prod.mk.inj heq).1] at hsome
      exact h.owned k eventKey hsome
  · rw [hcreated.tasks]
    rw [hfind] at hsome
    split at hsome
    · rename_i hkey
      rw [hkey]
      exact hcreated.task
    · exact h.peers k hsome
  · rw [hsnapshots] at hp
    rw [hfind]
    split
    · rfl
    · rename_i hne
      rcases List.mem_append.mp hp with hold | hnew
      · exact h.created p hold
      · rw [List.mem_singleton.mp hnew] at hne
        exact absurd rfl hne
  · rw [hsnapshots, List.map_append, List.nodup_append]
    refine ⟨h.once, by simp, ?_⟩
    intro k hk k' hk' heq
    obtain ⟨p, hp, rfl⟩ := List.mem_map.mp hk
    have hexists := h.created p hp
    have hkey : p.1 = r.key := heq.trans (by simpa using hk')
    rw [hkey, hcreated.fresh] at hexists
    cases hexists
  · rw [hfind] at hc'
    split at hc'
    · rename_i hkey
      subst hkey
      have hother : ∀ seq index, s'.gateway.sent r.key (.event seq index) = none := by
        intro seq index
        rw [hcreated.others _ _ (by simp), hempty]
      cases hold : s.gateway.cursorOf r.taskId with
      | none =>
          refine ⟨start, start, by simp [hsnapshots], ?_, toldUpTo_new (le_refl _)
            hcreated.snapshot hother fun e _ hlt hle ↦ absurd hlt (by omega)⟩
          rw [hcreated.cursorOf]
          simp [CreatePushConfig.key, hold]
      | some cursor =>
          refine ⟨start, max cursor start, by simp [hsnapshots], ?_, toldUpTo_new
            (le_max_right _ _) hcreated.snapshot hother fun e he hlt hle ↦ ?_⟩
          · rw [hcreated.cursorOf]
            simp [CreatePushConfig.key, hold]
          · rw [hevents] at he
            exact (hquiet cursor hold).1 e he hlt (by omega)
    · rename_i hne
      obtain ⟨first, cursor, hmem, hcursor, htold⟩ := h.told k c' hc' hactive
      have htold' : s'.ToldUpTo k first cursor := htold.forward hforward (h.cursor_le hcursor)
        fun eventKey ↦ hcreated.others k eventKey fun heq ↦ hne (Prod.mk.inj heq).1
      have hmem' : (k, first) ∈ s'.snapshots := by
        rw [hsnapshots]
        exact List.mem_append_left _ hmem
      by_cases hid : k.2.1 = r.taskId
      · refine ⟨first, max cursor start, hmem', ?_, htold'.extend (le_max_left _ _)
          fun e he hlt hle ↦ ?_⟩
        · rw [hcreated.cursorOf, if_pos hid, hcursor]
          rfl
        · -- this configuration needs what the cursor skips
          rw [hevents, hid] at he
          rw [hid] at hcursor
          refine (hquiet cursor hcursor).2 ?_ e he hlt (by omega)
          obtain ⟨t, ht, hpeer⟩ := h.peers k (by simp [hc'])
          obtain ⟨t', ht', hpeer'⟩ := hcreated.task
          rw [hid, ht'] at ht
          have hkey : c'.key = k := Table.key_of_find? hc'
          refine List.any_eq_true.mpr ⟨c', Table.mem_of_find? hc', ?_⟩
          have hpeerId : c'.peerId = r.peerId := by
            have hk : c'.peerId = k.1 := congrArg Prod.fst hkey
            rw [hk, ← hpeer, ← Option.some.inj ht, hpeer']
          have htaskId : c'.taskId = r.taskId :=
            (congrArg (fun k : String × String × String ↦ k.2.1) hkey).trans hid
          simp [PushConfig.activeOf, hpeerId, htaskId, hactive]
      · refine ⟨first, cursor, hmem', ?_, htold'⟩
        rw [hcreated.cursorOf, if_neg hid]
        exact hcursor

/-! ## An event is recorded -/

theorem eq_of_seq {e e' : Event} (he : e ∈ s.eventsOf taskId) (he' : e' ∈ s.eventsOf taskId)
    (heq : e.seq = e'.seq) : e = e' := by
  have hnodup : ((s.eventsOf taskId).map Event.seq).Nodup := by
    rw [seq_eventsOf]
    exact List.nodup_range'
  exact List.inj_on_of_nodup_map hnodup he he' heq

theorem forward_of_recorded {peerId : String} {seq : ℕ} {payloads : List StreamResponse}
    (h : Recorded peerId taskId seq payloads s.gateway s'.gateway) (hruntime : s'.runtime = s.runtime)
    (hprojections : s'.projections = s.projections) : Forward s s' := by
  refine ⟨fun t ht ↦ knows_congr h.tasks ht, fun id ↦ ?_, fun id cursor hcursor ↦ ?_,
    fun _ hp ↦ hprojections ▸ hp⟩
  · rw [eventsOf_congr h.tasks hruntime]
  · rw [h.cursorOf]
    split
    · rename_i hid
      obtain ⟨current, hcurrent, hlt⟩ := h.cursor
      rw [hid, hcurrent] at hcursor
      exact ⟨seq, rfl, (Option.some.inj hcursor) ▸ hlt.le⟩
    · exact ⟨cursor, hcursor, le_refl _⟩

/-- An active configuration of the task is told the updates of the event
right behind the cursor. -/
theorem ToldUpTo.record {peerId : String} {e : Event} {updates : List Update} {cursor start : ℕ}
    {k : String × String × String} (h : s.ToldUpTo k start cursor) (hid : k.2.1 = taskId)
    (hrecorded : Recorded peerId taskId e.seq (updates.map StreamResponse.update) s.gateway
      s'.gateway)
    (hevents : s'.eventsOf taskId = s.eventsOf taskId)
    (hprojections : s'.projections = s.projections) (he : e ∈ s.eventsOf taskId)
    (hprojected : (taskId, e, updates) ∈ s.projections) (hnext : e.seq = cursor + 1)
    (hactive : k ∈ (s.gateway.pushConfigs.select
      (PushConfig.activeOf peerId taskId)).map PushConfig.key) :
    s'.ToldUpTo k start e.seq := by
  subst hid
  have hle := h.le
  have hsame : ∀ seq index, seq ≠ e.seq →
      s'.gateway.sent k (.event seq index) = s.gateway.sent k (.event seq index) := by
    intro seq index hne
    refine hrecorded.others k _ fun index' heq ↦ hne ?_
    injection heq
  refine ⟨by omega, ?_, fun e' he' hstart hcursor ↦ ?_, fun seq index hsome ↦ ?_⟩
  · rw [hrecorded.others k _ (by simp)]
    exact h.snapshot
  · rw [hevents] at he'
    by_cases heq : e'.seq = e.seq
    · obtain rfl := eq_of_seq he' he heq
      refine ⟨updates, .inl (hprojections ▸ hprojected), fun index ↦ ?_⟩
      have hnone : s.gateway.sent k (.event e'.seq index) = none := by
        rw [← Option.not_isSome_iff_eq_none]
        intro hsome
        have hbound := (h.only _ _ hsome).2
        omega
      rw [hrecorded.event, hnone, Option.none_or, if_pos hactive, List.getElem?_map]
    · obtain ⟨updates', hprojected', hrows⟩ := h.updates e' he' hstart (by omega)
      refine ⟨updates', hprojected'.mono (hprojections ▸ fun _ hp ↦ hp), fun index ↦ ?_⟩
      rw [hsame _ _ heq, hrows]
  · by_cases heq : seq = e.seq
    · omega
    · rw [hsame _ _ heq] at hsome
      have hbound := h.only seq index hsome
      omega

theorem ledger_recorded (h : Ledger s) {peerId : String} {e : Event} {updates : List Update}
    (hrecorded : Recorded peerId taskId e.seq (updates.map StreamResponse.update) s.gateway
      s'.gateway)
    (hruntime : s'.runtime = s.runtime) (hprojections : s'.projections = s.projections)
    (hsnapshots : s'.snapshots = s.snapshots) (he : e ∈ s.eventsOf taskId)
    (hprojected : (taskId, e, updates) ∈ s.projections)
    (hnext : ∀ cursor, s.gateway.cursorOf taskId = some cursor → e.seq ≤ cursor + 1)
    (htask : ∃ t, s.gateway.tasks.find? taskId = some t ∧ t.peerId = peerId) : Ledger s' := by
  have hforward := forward_of_recorded hrecorded hruntime hprojections
  have hevents : ∀ id, s'.eventsOf id = s.eventsOf id := eventsOf_congr hrecorded.tasks hruntime
  have hrows : ∀ k eventKey, (s'.gateway.sent k eventKey).isSome = true →
      (s.gateway.pushConfigs.find? k).isSome = true := by
    intro k eventKey hsome
    by_cases hkey : ∃ index, eventKey = .event e.seq index
    · obtain ⟨index, rfl⟩ := hkey
      rw [hrecorded.event, Option.isSome_or, Bool.or_eq_true] at hsome
      rcases hsome with hold | hnew
      · exact h.owned k _ hold
      · split at hnew
        · rename_i hmem
          obtain ⟨c, hc, rfl⟩ := List.mem_map.mp hmem
          rw [Table.find?_of_mem (List.mem_of_mem_filter hc)]
          rfl
        · cases hnew
    · rw [hrecorded.others k eventKey fun index heq ↦ hkey ⟨index, heq⟩] at hsome
      exact h.owned k eventKey hsome
  refine ⟨hruntime ▸ h.runtime, fun c' hc' ↦ ?_, fun k eventKey hsome ↦ ?_, fun k hsome ↦ ?_,
    fun p hp ↦ ?_, hsnapshots ▸ h.once, fun k c hc hactive ↦ ?_⟩
  · have hcursor : s'.gateway.cursorOf c'.taskId = some c'.runtimeAfter := by
      unfold GatewayDatabase.cursorOf
      rw [Table.find?_of_mem hc']
      rfl
    rw [hevents, hrecorded.tasks]
    refine ⟨?_, ?_⟩
    · rw [hrecorded.cursorOf] at hcursor
      split at hcursor
      · rename_i hid
        rw [hid, ← Option.some.inj hcursor]
        exact (seq_le_of_mem he).2
      · exact h.cursor_le hcursor
    · obtain ⟨c, hc, hid, hpeer⟩ := hrecorded.cursors c' hc'
      rw [← hid, ← hpeer]
      exact (h.cursors c hc).2
  · rw [hrecorded.configs]
    exact hrows k eventKey hsome
  · rw [hrecorded.tasks]
    rw [hrecorded.configs] at hsome
    exact h.peers k hsome
  · rw [hrecorded.configs]
    exact h.created p (hsnapshots ▸ hp)
  · rw [hrecorded.configs] at hc
    obtain ⟨start, cursor, hmem, hcursor, htold⟩ := h.told k c hc hactive
    by_cases hid : k.2.1 = taskId
    · have hcursor' : s.gateway.cursorOf taskId = some cursor := hid ▸ hcursor
      obtain ⟨current, hcurrent, hlt⟩ := hrecorded.cursor
      have hle := hnext cursor hcursor'
      rw [hcursor', Option.some.injEq] at hcurrent
      refine ⟨start, e.seq, hsnapshots ▸ hmem, ?_, htold.record hid hrecorded (hevents _)
        hprojections he hprojected (by omega) ?_⟩
      · rw [hrecorded.cursorOf, if_pos hid]
      · have hkey : c.key = k := Table.key_of_find? hc
        obtain ⟨t, ht, hpeer⟩ := h.peers k (by simp [hc])
        obtain ⟨t', ht', hpeer'⟩ := htask
        rw [hid, ht'] at ht
        refine List.mem_map.mpr ⟨c, List.mem_filter.mpr ⟨Table.mem_of_find? hc, ?_⟩, hkey⟩
        have hpeerId : c.peerId = peerId := by
          have hk : c.peerId = k.1 := congrArg Prod.fst hkey
          rw [hk, ← hpeer, ← Option.some.inj ht, hpeer']
        have htaskId : c.taskId = taskId :=
          (congrArg (fun k : String × String × String ↦ k.2.1) hkey).trans hid
        simp [PushConfig.activeOf, hpeerId, htaskId, hactive]
    · have hsent : ∀ eventKey, s'.gateway.sent k eventKey = s.gateway.sent k eventKey := by
        intro eventKey
        by_cases hkey : ∃ index, eventKey = .event e.seq index
        · obtain ⟨index, rfl⟩ := hkey
          rw [hrecorded.event, if_neg, Option.or_none]
          intro hmem
          obtain ⟨c', hc', rfl⟩ := List.mem_map.mp hmem
          have hactive' := (List.mem_filter.mp hc').2
          simp only [PushConfig.activeOf, Bool.and_eq_true, decide_eq_true_eq] at hactive'
          exact hid hactive'.1.2
        · exact hrecorded.others k eventKey fun index heq ↦ hkey ⟨index, heq⟩
      refine ⟨start, cursor, hsnapshots ▸ hmem, ?_,
        htold.forward hforward (h.cursor_le hcursor) hsent⟩
      rw [hrecorded.cursorOf, if_neg hid]
      exact hcursor

/-! ## Steps -/

/-- The ledger is right, and what is under way rests on it. -/
structure InOrder (s : PushState) : Prop where
  ledger : s.Ledger
  creating : ∀ c ∈ s.creating, s.KnownCreating c
  producing : ∀ p, s.producing = some p → s.KnownProducing p

/-- A step that leaves the push tables alone. -/
theorem InOrder.advance (h : s.InOrder) (hruntime : store.ReachableBy calls s'.runtime)
    (hadv : Advances s.gateway s'.gateway)
    (hkept : s.runtime.journal.events.rows <+: s'.runtime.journal.events.rows)
    (hsnapshots : s'.snapshots = s.snapshots) (hprojections : s.projections ⊆ s'.projections)
    (hcreating : ∀ c ∈ s'.creating, c ∈ s.creating ∨ s'.KnownCreating c)
    (hproducing : ∀ p, s'.producing = some p → s.producing = some p ∨ s'.KnownProducing p) :
    s'.InOrder := by
  have hforward := forward_of_advances hadv hkept hprojections
  refine ⟨h.ledger.advance hruntime hforward hadv hsnapshots, fun c hc ↦ ?_, fun p hp ↦ ?_⟩
  · rcases hcreating c hc with hold | hnew
    · exact (h.creating c hold).forward hforward
    · exact hnew
  · rcases hproducing p hp with hold | hnew
    · exact (h.producing p hold).forward hforward
    · exact hnew

theorem snapshot_post (env : Surroundings) (task : A2ATask) (thread : Option ThreadSnapshot)
    (s : Session GatewayDatabase World) :
    Post (snapshot env task thread) s fun result _ ↦ result.2 = 0 ∨
      ∃ runId page, nonEmpty task.runtimeRunId = some runId ∧ thread = some page ∧
        (runId, result.2) ∈ page.eventHighWatermarks := by
  unfold snapshot
  cases hrun : nonEmpty task.runtimeRunId with
  | none =>
      simp only [post_bind, post_pure]
      exact fun _ _ _ ↦ .inl trivial
  | some runId =>
      simp only [post_bind, post_getOr, post_pure]
      intro page hpage run _ _ _ _
      cases hfind : page.eventHighWatermarks.find? fun p ↦ p.1 = runId with
      | none => exact .inl rfl
      | some p =>
          have hkey : p.1 = runId := by simpa using List.find?_some hfind
          exact .inr ⟨runId, page, rfl, hpage, hkey ▸ List.mem_of_find?_eq_some hfind⟩

/-- The log is at least as long as a snapshot of it says. -/
theorem watermark_le {db : Database} (h : store.ReachableBy calls db) {datetime : Time → Time}
    {principalId threadId runId : String} {page : ThreadSnapshot} {watermark : ℕ}
    (hread : readThread datetime db principalId threadId = some page)
    (hmem : (runId, watermark) ∈ page.eventHighWatermarks) :
    watermark ≤ (db.journal.events.ofRun runId).length := by
  have hread' : getThreadSnapshot datetime db principalId threadId none 200 5000 none =
      .ok (some page) := by
    unfold readThread at hread
    cases hres : getThreadSnapshot datetime db principalId threadId none 200 5000 none with
    | error e =>
        rw [hres] at hread
        cases hread
    | ok found =>
        rw [hres] at hread
        exact congrArg _ hread
  obtain ⟨hleads, hlength⟩ := (readsPage_of_snapshot (placed_of_calls h) hread').events hmem
  exact hlength ▸ hleads.length_le

theorem InOrder.readTask (h : s.InOrder) (r : CreatePushConfig) : (s.readTask r).InOrder := by
  unfold PushState.readTask
  split
  · exact h
  · rename_i task htask
    obtain ⟨hfind, howner⟩ := Option.filter_eq_some_iff.mp htask
    simp only [Bool.and_eq_true, decide_eq_true_eq] at howner
    have hid : task.id = r.taskId := Table.key_of_find? hfind
    split
    · exact h
    · refine h.advance h.ledger.runtime (refl_of Advances _) (List.prefix_refl _) rfl
        (fun _ hp ↦ hp) (fun c hc ↦ ?_) fun p hp ↦ .inl hp
      rcases List.mem_append.mp hc with hold | hnew
      · exact .inl hold
      · rw [List.mem_singleton.mp hnew]
        exact .inr ⟨hid, howner.1, knows_of_mem (Table.mem_of_find? hfind), fun _ _ h ↦ by cases h⟩

theorem InOrder.takeSnapshot (h : s.InOrder) (n : ℕ) (env : Surroundings)
    (datetime : Time → Time) (principalId : String) (w : World) :
    (s.takeSnapshot n env
      (fun t ↦ readThread datetime s.runtime principalId t.runtimeThreadId) w).InOrder := by
  unfold PushState.takeSnapshot
  split
  · exact h
  · rename_i c hc
    have hmem : c ∈ s.creating := List.mem_of_getElem? hc
    have hknown := h.creating c hmem
    have hadv := (advances_snapshot env c.task (readThread datetime s.runtime principalId
      c.task.runtimeThreadId)).commit s.gateway w
    dsimp only
    split
    · exact h.advance h.ledger.runtime hadv (List.prefix_refl _) rfl (fun _ hp ↦ hp)
        (fun c hc ↦ .inl (List.mem_of_mem_eraseIdx hc)) fun p hp ↦ .inl hp
    · rename_i taken htaken
      obtain ⟨t, ht, _⟩ := commit_ok htaken
      refine h.advance h.ledger.runtime hadv (List.prefix_refl _) rfl (fun _ hp ↦ hp)
        (fun c' hc' ↦ ?_) fun p hp ↦ .inl hp
      rcases List.mem_or_eq_of_mem_set hc' with hold | rfl
      · exact .inl hold
      · refine .inr ⟨hknown.id, hknown.peer, hknown.knows.advance hadv.tasks,
          fun projected start hstart ↦ ?_⟩
        cases hstart
        rcases snapshot_post env c.task _ _ _ _ ht with hzero | ⟨runId, page, hrun, hread, hin⟩
        · have hstart : start = 0 := hzero
          omega
        · have hle := watermark_le h.ledger.runtime hread hin
          rw [eventsOf_of_run (runOf_of_knows (hknown.knows.advance hadv.tasks) hrun)]
          exact hle

theorem InOrder.storeConfig (h : s.InOrder) {n : ℕ} {w : World}
    (hok : Aligned (.storeConfig n w) s) : (s.storeConfig n w).InOrder := by
  unfold PushState.storeConfig
  split
  · exact h
  · rename_i r projected start hrequest
    obtain ⟨c, hc, htaken⟩ := Option.bind_eq_some_iff.mp hrequest
    obtain ⟨taken, htaken, hpair⟩ := Option.map_eq_some_iff.mp htaken
    cases hpair
    have hknown := h.creating c (List.mem_of_getElem? hc)
    have hcreating : ∀ c' ∈ s.creating.eraseIdx n, c' ∈ s.creating :=
      fun c' hc' ↦ List.mem_of_mem_eraseIdx hc'
    have hsame : ∀ gateway created, gateway = s.gateway → created = [] →
        PushState.InOrder { s with
          gateway := gateway
          creating := s.creating.eraseIdx n
          snapshots := s.snapshots ++ created } := by
      rintro gateway created rfl rfl
      exact h.advance h.ledger.runtime (refl_of Advances _) (List.prefix_refl _)
        (List.append_nil _) (fun _ hp ↦ hp) (fun c' hc' ↦ .inl (hcreating c' hc'))
        fun p hp ↦ .inl hp
    dsimp only
    cases hres : (commit (createPushConfig c.request start (.task projected)) s.gateway w).1 with
    | error e => exact hsame _ _ (commit_error hres) rfl
    | ok result =>
        obtain ⟨t, ht, hdb⟩ := commit_ok hres
        rw [hdb]
        rcases createPushConfig_post c.request start (.task projected) _ _ _ ht with
          ⟨hfalse, heq⟩ | ⟨htrue, hcreated⟩
        · exact hsame _ _ heq (by rw [← Prod.mk.eta (p := result), hfalse])
        · rw [← Prod.mk.eta (p := result), htrue]
          have hbehind : start ≤ (s.eventsOf c.request.taskId).length := by
            rw [← hknown.id]
            exact hknown.behind projected start htaken
          have hledger : Ledger { s with
              gateway := t.db
              creating := s.creating.eraseIdx n
              snapshots := s.snapshots ++ [(c.request.key, start)] } :=
            ledger_created h.ledger hcreated rfl rfl rfl hbehind
              (hok c.request projected start hrequest hcreated.fresh hcreated.room)
          have hforward : Forward s { s with
              gateway := t.db
              creating := s.creating.eraseIdx n
              snapshots := s.snapshots ++ [(c.request.key, start)] } :=
            forward_of_created hcreated rfl rfl
          exact ⟨hledger, fun c' hc' ↦ (h.creating c' (hcreating c' hc')).forward hforward,
            fun p hp ↦ (h.producing p hp).forward hforward⟩

/-- What an iteration of `produce_once` knows when it has moved on. -/
theorem InOrder.produce (h : s.InOrder) {p : Option Producing}
    (hp : ∀ p', p = some p' → s.KnownProducing p') :
    PushState.InOrder { s with producing := p } :=
  h.advance h.ledger.runtime (refl_of Advances _) (List.prefix_refl _) rfl (fun _ hp ↦ hp)
    (fun _ hc ↦ .inl hc) fun p' hp' ↦ .inr ((hp p' hp').forward
      (forward_of_advances (refl_of Advances _) (List.prefix_refl _) fun _ hp ↦ hp))

theorem knownProducing_watched {watched : List (A2ATask × ℕ)}
    (h : ∀ w ∈ watched, s.Watched w.1 w.2) : s.KnownProducing ⟨watched, none, none⟩ :=
  ⟨h, fun _ _ _ hpolled ↦ (by cases hpolled), fun _ hprojected ↦ (by cases hprojected)⟩

theorem KnownProducing.polling {p : Producing} (h : s.KnownProducing p) {t : A2ATask} {after : ℕ}
    {es : List Event} (hw : s.Watched t after) (hes : es <+: (s.eventsOf t.id).drop after) :
    s.KnownProducing ⟨p.watched, some (t, after, es), none⟩ := by
  refine ⟨h.watched, fun t' after' es' hpolled ↦ ?_, fun _ hprojected ↦ by cases hprojected⟩
  cases hpolled
  exact ⟨hw, hes⟩

theorem InOrder.listWatchTasks (h : s.InOrder) : s.listWatchTasks.InOrder := by
  unfold PushState.listWatchTasks
  split
  · refine h.produce fun p hp ↦ ?_
    cases hp
    refine knownProducing_watched fun x hx ↦ ?_
    obtain ⟨t, ht, hcursor⟩ := List.mem_filterMap.mp hx
    obtain ⟨c, hc, rfl⟩ := Option.map_eq_some_iff.mp hcursor
    rw [mem_orderBy] at ht
    refine ⟨knows_of_mem (List.mem_of_mem_filter ht), c.runtimeAfter, ?_, le_refl _⟩
    unfold GatewayDatabase.cursorOf
    rw [hc]
    rfl
  · exact h

theorem InOrder.listEvents (h : s.InOrder) : s.listEvents.InOrder := by
  unfold PushState.listEvents
  split
  · rename_i task after watched hproducing
    have hknown := h.producing _ hproducing
    have hrest : s.KnownProducing ⟨watched, none, none⟩ :=
      knownProducing_watched fun w hw ↦ hknown.watched w (List.mem_cons_of_mem _ hw)
    have hw := hknown.watched (task, after) List.mem_cons_self
    split
    · refine h.produce fun p hp ↦ ?_
      cases hp
      exact hrest
    · rename_i runId hrun
      refine h.produce fun p hp ↦ ?_
      cases hp
      refine hrest.polling hw ?_
      rw [eventsSince_eq, eventsOf_of_run (runOf_of_knows hw.1 hrun)]
  · rename_i watched _ _ hproducing
    refine h.produce fun p hp ↦ ?_
    cases hp
    exact knownProducing_watched (h.producing _ hproducing).watched
  · exact h

theorem InOrder.skipTask (h : s.InOrder) : s.skipTask.InOrder := by
  unfold PushState.skipTask
  split
  · rename_i w watched hproducing
    refine h.produce fun p hp ↦ ?_
    cases hp
    exact knownProducing_watched fun w hw ↦
      (h.producing _ hproducing).watched w (List.mem_cons_of_mem _ hw)
  · exact h

theorem InOrder.projectEvent (h : s.InOrder) (env : Surroundings) (w : World) :
    (s.projectEvent env w).InOrder := by
  unfold PushState.projectEvent
  split
  · rename_i watched task after event events hproducing
    have hknown := h.producing _ hproducing
    obtain ⟨hw, hleads⟩ := hknown.polled task after _ rfl
    obtain ⟨_, hseq, _⟩ := seq_of_drop hleads
    split
    · omega
    · have hadv := (advances_projectStreamEvent env task event).commit s.gateway w
      dsimp only
      split
      · exact h.advance h.ledger.runtime hadv (List.prefix_refl _) rfl (fun _ hp ↦ hp)
          (fun _ hc ↦ .inl hc) fun p hp ↦ by cases hp
      · rename_i updates _
        have hsub : s.projections ⊆ s.projections ++ [(task.id, event, updates)] :=
          fun _ hp ↦ List.mem_append_left _ hp
        refine h.advance h.ledger.runtime hadv (List.prefix_refl _) rfl hsub
          (fun _ hc ↦ .inl hc) fun p hp ↦ ?_
        cases hp
        have hforward : Forward s { s with
            gateway := (commit (projectStreamEvent env task event) s.gateway w).2
            producing := some ⟨watched, some (task, after, event :: events), some updates⟩
            projections := s.projections ++ [(task.id, event, updates)] } :=
          forward_of_advances hadv (List.prefix_refl _) hsub
        have hmoved := hknown.forward hforward
        refine .inr ⟨hmoved.watched, hmoved.polled, fun updates' hprojected ↦ ?_⟩
        cases hprojected
        exact ⟨task, after, event, events, rfl, by simp⟩
  · exact h

/-- The cursor a task was found with has its peer. -/
theorem Ledger.cursor_peer (h : Ledger s) {t : A2ATask} (ht : s.gateway.Knows t) {c : PushCursor}
    (hc : s.gateway.pushCursors.find? t.id = some c) : c.peerId = t.peerId := by
  obtain ⟨t', hfind, hsame⟩ := ht
  have hid : c.taskId = t.id := Table.key_of_find? hc
  obtain ⟨_, t'', hfind', hpeer⟩ := h.cursors c (Table.mem_of_find? hc)
  rw [hid, hfind] at hfind'
  rw [← hpeer, ← Option.some.inj hfind', hsame.1]

theorem InOrder.recordEvent (h : s.InOrder) (w : World) : (s.recordEvent w).InOrder := by
  unfold PushState.recordEvent
  split
  · rename_i watched task after event events updates hproducing
    have hknown := h.producing _ hproducing
    obtain ⟨hw, hleads⟩ := hknown.polled task after _ rfl
    obtain ⟨hmem, hseq, hrest⟩ := seq_of_drop hleads
    obtain ⟨t, after', e, es, hpolled, hprojected⟩ := hknown.projected updates rfl
    cases hpolled
    obtain ⟨hknows, cursor, hcursor, hle⟩ := hw
    have hnext : ∀ s' : PushState, Forward s s' → (s'.eventsOf task.id) = s.eventsOf task.id →
        s'.Watched task event.seq →
        s'.KnownProducing ⟨watched, some (task, event.seq, events), none⟩ := by
      intro s' hforward hevents hwatched
      refine (hknown.forward hforward).polling hwatched ?_
      rw [hevents, hseq]
      exact hrest
    dsimp only
    cases hres : (commit (recordPushEvent task.peerId task.id event.seq
        (updates.map StreamResponse.update)) s.gateway w).1 with
    | error e =>
        dsimp only
        rw [commit_error hres]
        exact h.produce fun p hp ↦ by cases hp
    | ok u =>
        dsimp only
        obtain ⟨t', ht', hdb⟩ := commit_ok hres
        rw [hdb]
        rcases recordPushEvent_post _ _ _ _ _ _ _ ht' with ⟨heq, hpassed⟩ | hrecorded
        · rw [heq]
          refine h.produce fun p hp ↦ ?_
          cases hp
          refine hnext s (forward_of_advances (refl_of Advances _) (List.prefix_refl _)
            fun _ hp ↦ hp) rfl ⟨hknows, cursor, hcursor, ?_⟩
          obtain ⟨c, hc, rfl⟩ := Option.map_eq_some_iff.mp hcursor
          exact hpassed c hc (h.ledger.cursor_peer hknows hc)
        · have hforward : Forward s { s with
              gateway := t'.db
              producing := some ⟨watched, some (task, event.seq, events), none⟩ } :=
            forward_of_recorded hrecorded rfl rfl
          refine ⟨ledger_recorded h.ledger hrecorded rfl rfl rfl hmem hprojected
              (fun cursor' hcursor' ↦ ?_) ?_,
            fun c hc ↦ (h.creating c hc).forward hforward, fun p hp ↦ ?_⟩
          · rw [hcursor] at hcursor'
            cases hcursor'
            omega
          · obtain ⟨t₁, hfind, hsame⟩ := hknows
            exact ⟨t₁, hfind, hsame.1⟩
          · cases hp
            refine hnext _ hforward (eventsOf_congr (s := s) hrecorded.tasks (by rfl) _)
              ⟨hforward.tasks _ hknows, event.seq, ?_, le_refl _⟩
            have hnow := hrecorded.cursorOf task.id
            rw [if_pos rfl] at hnow
            exact hnow
  · exact h

theorem InOrder.step (h : s.InOrder) {i : PushStep} (hok : Aligned i s) : (s.after i).InOrder := by
  cases i with
  | runtime op w =>
      obtain ⟨_, hkept⟩ := StoreOp.keeps_sound w (sound_of_calls h.ledger.runtime) hok
      exact h.advance (h.ledger.runtime.step (i := (op, w)) hok rfl) (refl_of Advances _)
        hkept.events rfl (fun _ hp ↦ hp) (fun _ hc ↦ .inl hc) fun _ hp ↦ .inl hp
  | gateway op w =>
      exact h.advance h.ledger.runtime ((advances_exec op).commit s.gateway w)
        (List.prefix_refl _) rfl (fun _ hp ↦ hp) (fun _ hc ↦ .inl hc) fun _ hp ↦ .inl hp
  | readTask r => exact h.readTask r
  | takeSnapshot n env datetime principalId w => exact h.takeSnapshot n env datetime principalId w
  | storeConfig n w => exact h.storeConfig hok
  | dropRequest n =>
      exact h.advance h.ledger.runtime (refl_of Advances _) (List.prefix_refl _) rfl
        (fun _ hp ↦ hp) (fun _ hc ↦ .inl (List.mem_of_mem_eraseIdx hc)) fun _ hp ↦ .inl hp
  | listWatchTasks => exact h.listWatchTasks
  | listEvents => exact h.listEvents
  | skipTask => exact h.skipTask
  | projectEvent env w => exact h.projectEvent env w
  | recordEvent w => exact h.recordEvent w
  | giveUp => exact h.produce fun p hp ↦ by cases hp
  | restart =>
      exact h.advance h.ledger.runtime (refl_of Advances _) (List.prefix_refl _) rfl
        (fun _ hp ↦ hp) (fun _ hc ↦ by cases hc) fun _ hp ↦ by cases hp

theorem inOrder_initial : PushState.initial.InOrder := by
  refine ⟨⟨⟨_, rfl, .refl _⟩, ?_, ?_, ?_, ?_, List.nodup_nil, ?_⟩, ?_, ?_⟩
  · intro c hc
    cases hc
  · intro k eventKey hsome
    cases hsome
  · intro k hsome
    cases hsome
  · intro p hp
    cases hp
  · intro k c hc
    cases hc
  · intro c hc
    cases hc
  · intro p hp
    cases hp

theorem inOrder_of_aligned (h : pushSystem.ReachableBy Aligned s) : s.InOrder := by
  refine System.ReachableBy.invariant (P := PushState.InOrder) ?_ ?_ h
  · rintro s rfl
    exact inOrder_initial
  · rintro i s t hs hok rfl
    exact hs.step hok

/-- What was told up to a cursor behind every event is all there is to tell. -/
theorem ToldUpTo.told {k : String × String × String} {start cursor : ℕ}
    (h : s.ToldUpTo k start cursor) (hle : cursor ≤ (s.eventsOf k.2.1).length)
    (hall : ∀ e ∈ s.eventsOf k.2.1, e.seq ≤ cursor) : s.Told k start := by
  refine ⟨h.snapshot, fun e he hstart ↦ h.updates e he hstart (hall e he),
    fun seq index hsome ↦ ?_⟩
  obtain ⟨hstart, hcursor⟩ := h.only seq index hsome
  exact ⟨hstart, exists_event (by omega) (by omega)⟩

theorem Ledger.outboxComplete (h : s.Ledger) : s.OutboxComplete := by
  intro c hc hactive
  obtain ⟨start, cursor, hmem, hcursor, htold⟩ :=
    h.told c.key c (Table.find?_of_mem hc) hactive
  refine ⟨start, hmem, fun start' hmem' ↦ ?_, fun hproduced ↦ ?_⟩
  · have heq := List.inj_on_of_nodup_map h.once hmem' hmem rfl
    exact congrArg Prod.snd heq
  · obtain ⟨cursor', hcursor', hall⟩ := hproduced
    have heq : cursor' = cursor := Option.some.inj (hcursor'.symm.trans hcursor)
    subst heq
    exact htold.told (h.cursor_le hcursor) hall

end PushState

/-- As long as configurations are stored where nothing is told between their
snapshot and the cursor of the task, every configuration is told everything
once, whatever is interleaved and wherever the process stops. -/
theorem push_outbox_complete_while_aligned {s : PushState}
    (h : pushSystem.ReachableBy Aligned s) : s.OutboxComplete :=
  (PushState.inOrder_of_aligned h).ledger.outboxComplete

namespace Outpaced

/-! ## Two configurations of one task -/

theorem reachable_foldl {ok : PushStep → PushState → Prop} {s : PushState} (steps : List PushStep)
    (h : pushSystem.ReachableBy ok s) (hok : ∀ i ∈ steps, ∀ t, ok i t) :
    pushSystem.ReachableBy ok (steps.foldl PushState.after s) := by
  induction steps generalizing s with
  | nil => exact h
  | cons i steps ih =>
      exact ih (h.step (hok i List.mem_cons_self s) rfl)
        fun i' hi' ↦ hok i' (List.mem_cons_of_mem _ hi')

/-- A configuration may be stored when the cursor stands at its snapshot. -/
theorem aligned_of_level {s : PushState} {n : ℕ} {w : World}
    (h : ((s.creating[n]?.bind fun c ↦ c.snapshot.map fun taken ↦ (c.request, taken)).all fun p ↦
      (s.gateway.cursorOf p.1.taskId).all (· = p.2.2)) = true) : Aligned (.storeConfig n w) s := by
  intro r projected start hrequest _ _ cursor hcursor
  rw [hrequest, Option.all_some] at h
  have heq : cursor = start := by simpa [hcursor] using h
  exact ⟨fun e _ hlt hle ↦ absurd hlt (by omega), fun _ e _ hlt hle ↦ absurd hlt (by omega)⟩

def message : MessageRequest where
  peerId := "peer"
  tenant := "tenant"
  messageId := "message"
  taskId := none
  contextId := none
  referenceTaskIds := []
  requestFingerprint := "print"
  message := .obj []
  newTaskId := "task"
  newContextId := "context"
  runtimeThreadId := "thread_"
  runtimeCommandId := "command"
  runtimeClientMessageId := "client"
  outputMode := "text/plain"

def config (id : String) : CreatePushConfig where
  configId := id
  peerId := "peer"
  tenant := "tenant"
  taskId := "task"
  requestFingerprint := "print"
  url := "url"
  tokenCiphertext := none
  authScheme := none
  credentialsCiphertext := none

def surroundings : Surroundings := ⟨fun _ ↦ none, fun _ ↦ none, id, ""⟩

/-- A request up to its snapshot. -/
def request (id : String) : List PushStep :=
  [.readTask (config id),
    .takeSnapshot 0 surroundings (fun time ↦ time) localOwnerPrincipalId (.counting 0)]

def store : PushStep := .storeConfig 0 (.counting 0)

/-- A worker runs the run of the task, which has not told anything yet. -/
def opening : List PushStep :=
  [.runtime (.acceptRunCommand .sample) (.counting 0),
    .runtime (.claimRunJob "worker" 50) (.counting 10),
    .gateway (.prepareMessage message) (.counting 0),
    .gateway (.settleTaskAdmission "peer" "task" "run_xx") (.counting 0)]

def start : PushStep :=
  .runtime (.appendEvent (some ⟨"job_xxxxx", "run_xx", "worker", 1⟩) "run_xx" "run.started"
    (.obj [])) (.counting 20)

def produce : List PushStep :=
  [.listWatchTasks, .listEvents, .projectEvent surroundings (.counting 0),
    .recordEvent (.counting 0), .giveUp]

@[irreducible] def requested : PushState := (opening ++ request "first").foldl .after .initial

/-- The first configuration is stored before the run starts, the second is
requested afterwards. -/
@[irreducible] def outpaced : PushState := (start :: request "second").foldl .after (requested.after store)

/-- The same, but the start is recorded before the second is requested. -/
@[irreducible] def recorded : PushState :=
  (start :: produce ++ request "second").foldl .after (requested.after store)

theorem aligned_any {i : PushStep} (hi : i ∈ opening ++ request "first" ++ start :: produce ++
    request "second") (s : PushState) : Aligned i s := by
  simp only [opening, request, start, produce, List.cons_append, List.nil_append,
    List.mem_cons, List.not_mem_nil, or_false] at hi
  rcases hi with rfl | rfl | rfl | rfl | rfl | rfl | rfl | rfl | rfl | rfl | rfl | rfl | rfl | rfl
  all_goals trivial

theorem reachable_requested : pushSystem.ReachableBy Aligned (requested.after store) := by
  have hinitial : pushSystem.ReachableBy Aligned PushState.initial := ⟨_, rfl, .refl _⟩
  have hrequested : pushSystem.ReachableBy Aligned requested := by
    rw [requested]
    refine reachable_foldl _ hinitial fun i hi t ↦ aligned_any ?_ t
    simp only [List.mem_append] at hi ⊢
    tauto
  exact hrequested.step (aligned_of_level (by decide +kernel)) rfl

theorem reachable_recorded : pushSystem.ReachableBy Aligned (recorded.after store) := by
  have hrecorded : pushSystem.ReachableBy Aligned recorded := by
    rw [recorded]
    refine reachable_foldl _ reachable_requested fun i hi t ↦ aligned_any ?_ t
    simp only [List.mem_append] at hi ⊢
    tauto
  exact hrecorded.step (aligned_of_level (by decide +kernel)) rfl

theorem push_outbox_complete_while_aligned_recorded :
    (recorded.after store).snapshots = [(("peer", "task", "first"), 0), (("peer", "task", "second"), 1)] ∧
      (recorded.after store).gateway.pushOutbox.rows.length = 3 ∧
      (recorded.after store).OutboxComplete :=
  ⟨by decide +kernel, by decide +kernel, push_outbox_complete_while_aligned reachable_recorded⟩

theorem reachable_outpaced : pushSystem.ReachableBy runtimeCalls (outpaced.after store) := by
  have haligned : ∀ i s, Aligned i s → runtimeCalls i s := by
    rintro i s hok
    cases i with
    | runtime op w => exact hok
    | _ => trivial
  have houtpaced : pushSystem.ReachableBy runtimeCalls outpaced := by
    rw [outpaced]
    refine reachable_foldl _ (reachable_requested.weaken haligned) fun i hi t ↦
      haligned _ _ (aligned_any ?_ t)
    simp only [List.mem_append, List.mem_cons] at hi ⊢
    tauto
  exact houtpaced.step (i := store) trivial rfl

/-- The second configuration moves the cursor over the start of the run,
which the first one is never told. -/
theorem push_outbox_incomplete :
    ¬∀ s, pushSystem.ReachableBy runtimeCalls s → s.OutboxComplete := by
  intro h
  have hcomplete := h _ reachable_outpaced
  have hfirst : (outpaced.after store).gateway.pushConfigs.rows.any (fun c ↦
      c.key = ("peer", "task", "first") && c.deletedAt = none) = true := by decide +kernel
  obtain ⟨c, hc, hproperties⟩ := List.any_eq_true.mp hfirst
  simp only [Bool.and_eq_true, decide_eq_true_eq] at hproperties
  obtain ⟨hkey, hactive⟩ := hproperties
  obtain ⟨first, hmem, _, htold⟩ := hcomplete c hc hactive
  have hsnapshots : (outpaced.after store).snapshots =
      [(("peer", "task", "first"), 0), (("peer", "task", "second"), 1)] := by decide +kernel
  rw [hkey, hsnapshots] at hmem
  have hzero : first = 0 := by simpa using hmem
  have hid : c.taskId = "task" := congrArg (fun k : String × String × String ↦ k.2.1) hkey
  have hproduced : (outpaced.after store).Produced c.taskId := by
    have hall : ((outpaced.after store).eventsOf "task").all (·.seq ≤ 1) = true := by
      decide +kernel
    rw [hid]
    refine ⟨1, by decide +kernel, fun e he ↦ ?_⟩
    simpa using List.all_eq_true.mp hall e he
  have htelling : ((outpaced.after store).eventsOf "task").any (fun e ↦
      e.seq = 1 && decide (telling e)) = true := by decide +kernel
  obtain ⟨e, he, htells⟩ := List.any_eq_true.mp htelling
  simp only [Bool.and_eq_true, decide_eq_true_eq] at htells
  obtain ⟨updates, hprojected, _⟩ := (htold hproduced).updates e
    (by rw [hkey]; exact he) (by omega)
  have hnone : (outpaced.after store).projections.isEmpty = true := by decide +kernel
  rcases hprojected with hmem' | ⟨hquiet, _⟩
  · rw [List.isEmpty_iff.mp hnone] at hmem'
    cases hmem'
  · exact hquiet htells.2

end Outpaced

end ShejaneRuntime.Gateway
