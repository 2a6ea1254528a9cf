import ShejaneRuntime.Gateway.Delivery
import ShejaneRuntime.Store.Operations

/-!
# The convergence of deliveries

What each step keeps of the tasks, the messages and the requests under way,
and the condition under which the gateway and the Runtime come to agree.
-/

namespace ShejaneRuntime.Gateway

open Lib Lib.Txn Store

/-! ## Rows -/

theorem eq_of_key {κ ρ : Type} {key : ρ → κ} {t : Table key} {r r' : ρ} (hr : r ∈ t.rows)
    (hr' : r' ∈ t.rows) (h : key r = key r') : r = r' :=
  List.inj_on_of_nodup_map t.nodup hr hr' h

/-- A task goes on, and does not change how it was settled. -/
structure A2ATask.Moves (t t' : A2ATask) : Prop where
  id : t'.id = t.id
  command : t'.createCommandId = t.createCommandId
  final : t.admissionStatus ≠ .pending → t'.admissionStatus = t.admissionStatus

structure A2AMessage.Moves (m m' : A2AMessage) : Prop where
  key : m'.key = m.key
  task : m'.taskId = m.taskId
  command : m'.runtimeCommandId = m.runtimeCommandId
  final : m.deliveryStatus ≠ .pending → m'.deliveryStatus = m.deliveryStatus

theorem A2ATask.Moves.refl (t : A2ATask) : t.Moves t := ⟨rfl, rfl, fun _ ↦ rfl⟩

theorem A2AMessage.Moves.refl (m : A2AMessage) : m.Moves m := ⟨rfl, rfl, rfl, fun _ ↦ rfl⟩

theorem A2AMessage.Moves.opens {m m' : A2AMessage} (hm : m.Moves m') {t t' : A2ATask}
    (ht : t.Moves t') : m'.opens t' = m.opens t := by
  unfold A2AMessage.opens
  rw [hm.command, ht.command]

/-- Every row goes on, and no new message opens an old task. -/
structure Proceeds (db db' : GatewayDatabase) : Prop where
  tasks : ∀ t ∈ db.tasks.rows, ∃ t' ∈ db'.tasks.rows, t.Moves t'
  messages : ∀ m ∈ db.messages.rows, ∃ m' ∈ db'.messages.rows, m.Moves m'
  sources : ∀ m' ∈ db'.messages.rows, (∃ m ∈ db.messages.rows, m.Moves m') ∨
    ∀ t ∈ db.tasks.rows, m'.opens t = false

theorem Proceeds.refl (db : GatewayDatabase) : Proceeds db db :=
  ⟨fun t ht ↦ ⟨t, ht, .refl t⟩, fun m hm ↦ ⟨m, hm, .refl m⟩, fun m hm ↦ .inl ⟨m, hm, .refl m⟩⟩

/-! ## Knowledge of the requests under way -/

namespace DeliveryState

variable {s s' : DeliveryState} {d : Delivering}

/-- The task is settled, and the message that opened it alike. -/
def Settled (s : DeliveryState) (t : A2ATask) : Prop :=
  t.admissionStatus ≠ .pending ∧ ∀ m ∈ s.gateway.messages.rows, m.taskId = t.id →
    m.opens t = true → m.deliveryStatus = t.admissionStatus

/-- The message of the request opened the task. -/
def Opening (s : DeliveryState) (d : Delivering) (task : A2ATask) : Prop :=
  ∃ t ∈ s.gateway.tasks.rows, t.id = task.id ∧ t.createCommandId = task.createCommandId ∧
    ∃ m ∈ s.gateway.messages.rows, m.key = d.key ∧ m.taskId = t.id ∧ m.opens t = true

/-- The message of the request follows up a task that is accepted. -/
def Following (s : DeliveryState) (d : Delivering) (message : A2AMessage) : Prop :=
  ∃ m ∈ s.gateway.messages.rows, m.key = d.key ∧
    m.runtimeCommandId = message.runtimeCommandId ∧
    ∃ t ∈ s.gateway.tasks.rows, t.id = m.taskId ∧ m.opens t = false ∧
      t.admissionStatus = .accepted ∧ s.Settled t

def Stands (s : DeliveryState) (task : A2ATask) (status : Admission) : Prop :=
  ∃ t ∈ s.gateway.tasks.rows, t.id = task.id ∧ t.admissionStatus = status

def Known (s : DeliveryState) (d : Delivering) : Prop :=
  match d.phase with
  | .creating task => s.Opening d task
  | .rejectingTask task => s.Opening d task ∧ ¬holds s.runs task.createCommandId
  | .settlingTask task runId => s.Opening d task ∧ (task.createCommandId, runId) ∈ s.runs
  | .settlingMessage task => s.Opening d task ∧ s.Stands task .accepted
  | .rejectingMessage task => s.Opening d task ∧ s.Stands task .rejected
  | .reading _ message => s.Following d message
  | .injecting _ message => s.Following d message
  | .rejectingFollowup _ message =>
    s.Following d message ∧ ¬holds s.instructions message.runtimeCommandId
  | .settlingFollowup _ message _ => s.Following d message
  | .returned outcome => outcome ≠ .internalError →
    ∃ m ∈ s.gateway.messages.rows, m.key = d.key ∧
      ∃ t ∈ s.gateway.tasks.rows, t.id = m.taskId ∧ s.Settled t

theorem Settled.proceeds {t t' : A2ATask} (h : s.Settled t) (ht : t ∈ s.gateway.tasks.rows)
    (hmoves : t.Moves t') (hdb : Proceeds s.gateway s'.gateway) : s'.Settled t' := by
  obtain ⟨hfinal, hopener⟩ := h
  have hstatus := hmoves.final hfinal
  refine ⟨hstatus ▸ hfinal, fun m' hm' htask hopens ↦ ?_⟩
  rcases hdb.sources m' hm' with ⟨m, hm, hmoved⟩ | hnew
  · rw [hmoved.opens hmoves] at hopens
    have heq := hopener m hm (hmoved.task ▸ hmoves.id ▸ htask) hopens
    rw [hstatus, ← heq]
    exact hmoved.final (heq ▸ hfinal)
  · have hnot := hnew t ht
    unfold A2AMessage.opens at hopens hnot
    rw [hmoves.command] at hopens
    rw [hopens] at hnot
    cases hnot

theorem Opening.proceeds {task : A2ATask} (h : s.Opening d task)
    (hdb : Proceeds s.gateway s'.gateway) : s'.Opening d task := by
  obtain ⟨t, ht, hid, hcommand, m, hm, hkey, htask, hopens⟩ := h
  obtain ⟨t', ht', hmoves⟩ := hdb.tasks t ht
  obtain ⟨m', hm', hmoved⟩ := hdb.messages m hm
  exact ⟨t', ht', hmoves.id.trans hid, hmoves.command.trans hcommand, m', hm',
    hmoved.key.trans hkey, hmoved.task.trans (htask.trans hmoves.id.symm),
    (hmoved.opens hmoves).trans hopens⟩

theorem Following.proceeds {message : A2AMessage} (h : s.Following d message)
    (hdb : Proceeds s.gateway s'.gateway) : s'.Following d message := by
  obtain ⟨m, hm, hkey, hcommand, t, ht, hid, hopens, haccepted, hsettled⟩ := h
  obtain ⟨t', ht', hmoves⟩ := hdb.tasks t ht
  obtain ⟨m', hm', hmoved⟩ := hdb.messages m hm
  refine ⟨m', hm', hmoved.key.trans hkey, hmoved.command.trans hcommand, t', ht',
    hmoves.id.trans (hid.trans hmoved.task.symm), (hmoved.opens hmoves).trans hopens, ?_,
    hsettled.proceeds ht hmoves hdb⟩
  exact (hmoves.final hsettled.1).trans haccepted

theorem Stands.proceeds {task : A2ATask} {status : Admission} (h : s.Stands task status)
    (hfinal : status ≠ .pending) (hdb : Proceeds s.gateway s'.gateway) :
    s'.Stands task status := by
  obtain ⟨t, ht, hid, hstatus⟩ := h
  obtain ⟨t', ht', hmoves⟩ := hdb.tasks t ht
  exact ⟨t', ht', hmoves.id.trans hid, (hmoves.final (hstatus ▸ hfinal)).trans hstatus⟩

/-- What is known of a request stays true while rows go on and nothing is
accepted that it is about to reject. -/
theorem Known.proceeds (h : s.Known d) (hdb : Proceeds s.gateway s'.gateway)
    (hruns : s.runs ⊆ s'.runs)
    (hrefused : ∀ task, d.phase = .rejectingTask task → ¬holds s.runs task.createCommandId →
      ¬holds s'.runs task.createCommandId)
    (hended : ∀ task message, d.phase = .rejectingFollowup task message →
      ¬holds s.instructions message.runtimeCommandId →
      ¬holds s'.instructions message.runtimeCommandId) : s'.Known d := by
  obtain ⟨r, phase⟩ := d
  cases phase with
  | creating task => exact h.proceeds hdb
  | rejectingTask task => exact ⟨h.1.proceeds hdb, hrefused task rfl h.2⟩
  | rejectingMessage task => exact ⟨h.1.proceeds hdb, h.2.proceeds (by simp) hdb⟩
  | settlingTask task runId => exact ⟨h.1.proceeds hdb, hruns h.2⟩
  | settlingMessage task => exact ⟨h.1.proceeds hdb, h.2.proceeds (by simp) hdb⟩
  | reading task message => exact h.proceeds hdb
  | injecting task message => exact h.proceeds hdb
  | rejectingFollowup task message => exact ⟨h.1.proceeds hdb, hended task message rfl h.2⟩
  | settlingFollowup task message instructionId => exact h.proceeds hdb
  | returned outcome =>
      intro houtcome
      obtain ⟨m, hm, hkey, t, ht, hid, hsettled⟩ := h houtcome
      obtain ⟨t', ht', hmoves⟩ := hdb.tasks t ht
      obtain ⟨m', hm', hmoved⟩ := hdb.messages m hm
      exact ⟨m', hm', hmoved.key.trans hkey, t', ht',
        hmoves.id.trans (hid.trans hmoved.task.symm), hsettled.proceeds ht hmoves hdb⟩

/-! ## The invariant -/

/-- A request stands between the two settlements of a task. -/
def Amid (s : DeliveryState) (t : A2ATask) (m : A2AMessage) : Prop :=
  ∃ d ∈ s.deliveries, d.key = m.key ∧ ∃ task, d.phase.between = some task ∧ task.id = t.id

structure Orderly (s : DeliveryState) : Prop where
  task : ∀ m ∈ s.gateway.messages.rows, ∃ t ∈ s.gateway.tasks.rows, t.id = m.taskId
  commands : ∀ m ∈ s.gateway.messages.rows, ∀ m' ∈ s.gateway.messages.rows,
    m.runtimeCommandId = m'.runtimeCommandId → m = m'
  opened : ∀ t ∈ s.gateway.tasks.rows, ∃ m ∈ s.gateway.messages.rows, m.taskId = t.id ∧
    m.opens t = true
  admitted : ∀ t ∈ s.gateway.tasks.rows, t.admissionStatus = .accepted →
    ∃ runId, t.runtimeRunId = some runId ∧ (t.createCommandId, runId) ∈ s.runs
  refused : ∀ t ∈ s.gateway.tasks.rows, t.admissionStatus = .rejected →
    ¬holds s.runs t.createCommandId
  opener : ∀ t ∈ s.gateway.tasks.rows, ∀ m ∈ s.gateway.messages.rows, m.taskId = t.id →
    m.opens t = true → m.runtimeInstructionId = none ∧
      (m.deliveryStatus = t.admissionStatus ∨ m.deliveryStatus = .pending ∧ s.Amid t m)
  followup : ∀ t ∈ s.gateway.tasks.rows, ∀ m ∈ s.gateway.messages.rows, m.taskId = t.id →
    m.opens t = false → (m.deliveryStatus ≠ .pending → t.admissionStatus = .accepted) ∧
      (m.deliveryStatus = .rejected → ¬holds s.instructions m.runtimeCommandId)
  known : ∀ d ∈ s.deliveries, s.Known d

/-- Where nobody stands between the settlements, a settled task is settled
alike on its message. -/
theorem Orderly.settled (h : s.Orderly) {t : A2ATask} (ht : t ∈ s.gateway.tasks.rows)
    (hfinal : t.admissionStatus ≠ .pending)
    (hamid : ∀ d ∈ s.deliveries, ∀ task, d.phase.between = some task → task.id ≠ t.id) :
    s.Settled t := by
  refine ⟨hfinal, fun m hm htask hopens ↦ ?_⟩
  rcases (h.opener t ht m hm htask hopens).2 with heq | ⟨_, d, hd, _, task, hbetween, hid⟩
  · exact heq
  · exact absurd hid (hamid d hd task hbetween)

theorem Orderly.converged (h : s.Orderly) {t : A2ATask} (ht : t ∈ s.gateway.tasks.rows)
    (hsettled : s.Settled t) : Converged s t := by
  obtain ⟨hfinal, hopener⟩ := hsettled
  have hheld : holds s.runs t.createCommandId → t.admissionStatus = .accepted := by
    intro hholds
    cases hstatus : t.admissionStatus with
    | pending => exact absurd hstatus hfinal
    | accepted => rfl
    | rejected => exact absurd hholds (h.refused t ht hstatus)
  refine ⟨⟨h.admitted t ht, fun ⟨runId, _, hmem⟩ ↦ hheld ⟨runId, hmem⟩⟩,
    ⟨fun haccepted ↦ ?_, hheld⟩, fun m hm htask hopens ↦ ?_, fun m hm htask hopens ↦ ?_⟩
  · obtain ⟨runId, _, hmem⟩ := h.admitted t ht haccepted
    exact ⟨runId, hmem⟩
  · rw [hopener m hm htask hopens]
    exact ⟨Iff.rfl, Iff.rfl⟩
  · exact (h.followup t ht m hm htask hopens).2

/-! ## Steps that leave the tables alone -/

/-- Requests move on while the tables stand still. -/
theorem Orderly.redeliver (h : s.Orderly) (hgateway : s'.gateway = s.gateway)
    (hruns : s.runs ⊆ s'.runs)
    (hrefused : ∀ t ∈ s.gateway.tasks.rows, t.admissionStatus = .rejected →
      ¬holds s'.runs t.createCommandId)
    (hended : ∀ m ∈ s.gateway.messages.rows, m.deliveryStatus = .rejected →
      ¬holds s.instructions m.runtimeCommandId → ¬holds s'.instructions m.runtimeCommandId)
    (hamid : ∀ d ∈ s.deliveries, ∀ task, d.phase.between = some task →
      ∃ d' ∈ s'.deliveries, d'.key = d.key ∧ d'.phase.between = some task)
    (hknown : ∀ d ∈ s'.deliveries, s'.Known d) : s'.Orderly := by
  refine ⟨?_, ?_, ?_, ?_, ?_, ?_, ?_, hknown⟩
  · rw [hgateway]
    exact h.task
  · rw [hgateway]
    exact h.commands
  · rw [hgateway]
    exact h.opened
  · rw [hgateway]
    intro t ht haccepted
    obtain ⟨runId, hrun, hmem⟩ := h.admitted t ht haccepted
    exact ⟨runId, hrun, hruns hmem⟩
  · rw [hgateway]
    exact hrefused
  · rw [hgateway]
    intro t ht m hm htask hopens
    obtain ⟨hnone, hstatus⟩ := h.opener t ht m hm htask hopens
    refine ⟨hnone, hstatus.imp_right fun ⟨hpending, d, hd, hkey, task, hbetween, hid⟩ ↦ ?_⟩
    obtain ⟨d', hd', hkey', hbetween'⟩ := hamid d hd task hbetween
    exact ⟨hpending, d', hd', hkey'.trans hkey, task, hbetween', hid⟩
  · rw [hgateway]
    intro t ht m hm htask hopens
    obtain ⟨haccepted, hnone⟩ := h.followup t ht m hm htask hopens
    exact ⟨haccepted, fun hrejected ↦ hended m hm hrejected (hnone hrejected)⟩

theorem holds_append {accepted : List (String × String)} {commandId id commandId' : String}
    (h : ¬holds accepted commandId) (hne : commandId ≠ commandId') :
    ¬holds (accepted ++ [(commandId', id)]) commandId := by
  rintro ⟨id', hmem⟩
  rcases List.mem_append.mp hmem with hold | hnew
  · exact h ⟨id', hold⟩
  · exact hne (Prod.mk.inj (List.mem_singleton.mp hnew)).1

theorem Orderly.acceptRun (h : s.Orderly) {commandId runId : String}
    (hok : Undisturbed (.acceptRun commandId runId) s) :
    DeliveryState.Orderly { s with runs := s.runs ++ [(commandId, runId)] } := by
  obtain ⟨htasks, hdeliveries⟩ := hok
  refine h.redeliver rfl (List.subset_append_left _ _) (fun t ht hrejected ↦ ?_)
    (fun _ _ _ hnone ↦ hnone) (fun d hd task hbetween ↦ ⟨d, hd, rfl, hbetween⟩) fun d hd ↦ ?_
  · exact holds_append (h.refused t ht hrejected) fun heq ↦ htasks t ht heq hrejected
  · exact (h.known d hd).proceeds (.refl _) (List.subset_append_left _ _)
      (fun task hphase hnone ↦ holds_append hnone (hdeliveries d hd task hphase))
      fun _ _ _ hnone ↦ hnone

theorem Orderly.acceptInstruction (h : s.Orderly) {commandId instructionId : String}
    (hok : Undisturbed (.acceptInstruction commandId instructionId) s) :
    DeliveryState.Orderly { s with
      instructions := s.instructions ++ [(commandId, instructionId)] } := by
  obtain ⟨hmessages, hdeliveries⟩ := hok
  refine h.redeliver rfl (List.Subset.refl _) h.refused (fun m hm hrejected hnone ↦ ?_)
    (fun d hd task hbetween ↦ ⟨d, hd, rfl, hbetween⟩) fun d hd ↦ ?_
  · exact holds_append hnone fun heq ↦ hmessages m hm heq hrejected
  · exact (h.known d hd).proceeds (.refl _) (List.Subset.refl _) (fun _ _ hnone ↦ hnone)
      fun task message hphase hnone ↦ holds_append hnone (hdeliveries d hd task message hphase)

/-- Requests that are not between two settlements may end. -/
theorem Orderly.drop (h : s.Orderly) {deliveries : List Delivering}
    (hsub : deliveries ⊆ s.deliveries)
    (hamid : ∀ d ∈ s.deliveries, d.phase.between ≠ none → d ∈ deliveries) :
    DeliveryState.Orderly { s with deliveries := deliveries } := by
  refine h.redeliver rfl (List.Subset.refl _) h.refused (fun _ _ _ hnone ↦ hnone)
    (fun d hd task hbetween ↦ ⟨d, hamid d hd (by simp [hbetween]), rfl, hbetween⟩) fun d hd ↦ ?_
  exact (h.known d (hsub hd)).proceeds (.refl _) (List.Subset.refl _) (fun _ _ hnone ↦ hnone)
    fun _ _ _ hnone ↦ hnone

/-! ## Answers -/

theorem of_nonEmpty {body : Option String} {text : String} (h : nonEmpty body = some text) :
    body = some text ∧ text ≠ "" := by
  unfold nonEmpty at h
  split at h
  · split at h
    · cases h
    · rename_i hne
      cases h
      exact ⟨rfl, hne⟩
  · cases h

theorem known_internalError (r : MessageRequest) : s.Known ⟨r, .returned .internalError⟩ :=
  fun hne ↦ absurd rfl hne

/-- An answer of a Runtime that replays keeps what is known of the request. -/
theorem Known.answered {n : ℕ} {answer : Answer} (h : s.Known d)
    (hreplays : s.Replays (.call n answer)) (hok : Undisturbed (.call n answer) s)
    (hget : s.deliveries[n]? = some d) : s.Known { d with phase := d.phase.answered answer } := by
  have hread := hok d hget
  obtain ⟨hcreate, hinject⟩ := hreplays d hget
  obtain ⟨r, phase⟩ := d
  cases phase with
  | creating task =>
      obtain ⟨hrun, hrefused⟩ := hcreate task rfl
      cases answer with
      | ok body =>
          cases hbody : nonEmpty body with
          | none =>
              simp only [Phase.answered, hbody]
              exact known_internalError r
          | some runId =>
              obtain ⟨rfl, hne⟩ := of_nonEmpty hbody
              simp only [Phase.answered, hbody]
              exact ⟨h, hrun runId rfl hne⟩
      | httpError statusCode =>
          cases hretry : retryable statusCode with
          | true =>
              simp only [Phase.answered, hretry, if_true]
              exact known_internalError r
          | false =>
              simp only [Phase.answered, hretry, Bool.false_eq_true, if_false]
              exact ⟨h, hrefused statusCode rfl hretry⟩
      | transportError => exact known_internalError r
  | reading task message =>
      have hended := hread task message rfl
      cases answer with
      | ok status =>
          by_cases hstatus : statusEnded (status.getD "None") = true
          · simp only [Phase.answered, hstatus, if_true] at hended ⊢
            exact ⟨h, hended trivial⟩
          · simp only [Phase.answered, hstatus]
            exact h
      | httpError statusCode =>
          by_cases hconflict : statusCode = 409
          · simp only [Phase.answered, hconflict, if_true] at hended ⊢
            exact ⟨h, hended trivial⟩
          · simp only [Phase.answered, hconflict, if_false]
            exact known_internalError r
      | transportError => exact known_internalError r
  | injecting task message =>
      obtain ⟨_, hconflicts⟩ := hinject task message rfl
      cases answer with
      | ok body =>
          cases hbody : nonEmpty body with
          | none =>
              simp only [Phase.answered, hbody]
              exact known_internalError r
          | some instructionId =>
              simp only [Phase.answered, hbody]
              exact h
      | httpError statusCode =>
          by_cases hconflict : statusCode = 409
          · simp only [Phase.answered, hconflict, if_true]
            exact ⟨h, hconflicts (by rw [hconflict])⟩
          · simp only [Phase.answered, hconflict, if_false]
            exact known_internalError r
      | transportError => exact known_internalError r
  | _ => exact h

/-- A request that stands between two settlements makes no call. -/
theorem answered_of_between {phase : Phase} {task : A2ATask} (h : phase.between = some task)
    (answer : Answer) : phase.answered answer = phase := by
  cases phase with
  | settlingMessage t => rfl
  | rejectingMessage t => rfl
  | _ => cases h

theorem exists_mem_set {α : Type} {xs : List α} {n : ℕ} {x y : α} (hget : xs[n]? = some x)
    {z : α} (hz : z ∈ xs) : z ∈ xs.set n y ∨ z = x := by
  obtain ⟨i, hi, rfl⟩ := List.mem_iff_getElem.mp hz
  by_cases hin : i = n
  · subst hin
    rw [List.getElem?_eq_getElem hi] at hget
    exact .inr (Option.some.inj hget)
  · refine .inl (List.mem_iff_getElem.mpr ⟨i, by simpa using hi, ?_⟩)
    exact List.getElem_set_ne (fun h ↦ hin h.symm) _

theorem mem_set_self {α : Type} {xs : List α} {n : ℕ} {x y : α} (hget : xs[n]? = some x) :
    y ∈ xs.set n y := by
  have hlt : n < xs.length := by
    rw [List.getElem?_eq_some_iff] at hget
    exact hget.1
  exact List.mem_iff_getElem.mpr ⟨n, by simpa using hlt, by simp⟩

theorem Orderly.call (h : s.Orderly) {n : ℕ} {answer : Answer}
    (hreplays : s.Replays (.call n answer)) (hok : Undisturbed (.call n answer) s) :
    (s.call n answer).Orderly := by
  unfold DeliveryState.call
  cases hget : s.deliveries[n]? with
  | none => exact h
  | some d =>
      refine h.redeliver rfl (List.Subset.refl _) h.refused (fun _ _ _ hnone ↦ hnone)
        (fun d' hd' task hbetween ↦ ?_) fun d' hd' ↦ ?_
      · rcases exists_mem_set (y := { d with phase := d.phase.answered answer }) hget hd' with
          hkept | rfl
        · exact ⟨d', hkept, rfl, hbetween⟩
        · refine ⟨_, mem_set_self hget, rfl, ?_⟩
          rw [answered_of_between hbetween]
          exact hbetween
      · have hsame : ∀ d', s.Known d' → DeliveryState.Known { s with
            deliveries := s.deliveries.set n { d with phase := d.phase.answered answer } } d' :=
          fun d' hd' ↦ hd'.proceeds (.refl _) (List.Subset.refl _) (fun _ _ hnone ↦ hnone)
            fun _ _ _ hnone ↦ hnone
        rcases List.mem_or_eq_of_mem_set hd' with hold | rfl
        · exact hsame d' (h.known d' hold)
        · exact hsame _ ((h.known d (List.mem_of_getElem? hget)).answered hreplays hok hget)

/-! ## Settlements -/

@[simp] theorem post_updateTask {p : A2ATask → Bool} {f : A2ATask → A2ATask}
    {hf : ∀ t, (f t).id = t.id} {t : Session GatewayDatabase World}
    {Q : Bool → Session GatewayDatabase World → Prop} :
    Post (updateTask p f hf) t Q ↔ Q (t.db.tasks.rows.any p)
      { t with db := { t.db with tasks := t.db.tasks.update p f hf } } := by
  simp only [updateTask, post_bind, post_read, post_write, post_pure]

theorem proceeds_updateTasks {db : GatewayDatabase} {p : A2ATask → Bool} {f : A2ATask → A2ATask}
    (hf : ∀ t, (f t).id = t.id)
    (hmoves : ∀ t ∈ db.tasks.rows, p t = true → t.Moves (f t)) :
    Proceeds db { db with tasks := db.tasks.update p f hf } := by
  refine ⟨fun t ht ↦ ⟨_, List.mem_map_of_mem ht, ?_⟩, fun m hm ↦ ⟨m, hm, .refl m⟩,
    fun m hm ↦ .inl ⟨m, hm, .refl m⟩⟩
  split
  · rename_i hp
    exact hmoves t ht hp
  · exact .refl t

theorem proceeds_updateMessages {db : GatewayDatabase} {p : A2AMessage → Bool}
    {f : A2AMessage → A2AMessage} (hf : ∀ m, (f m).key = m.key)
    (hmoves : ∀ m ∈ db.messages.rows, p m = true → m.Moves (f m)) :
    Proceeds db { db with messages := db.messages.update p f hf } := by
  have hmoved : ∀ m ∈ db.messages.rows, m.Moves (if p m then f m else m) := by
    intro m hm
    split
    · rename_i hp
      exact hmoves m hm hp
    · exact .refl m
  refine ⟨fun t ht ↦ ⟨t, ht, .refl t⟩, fun m hm ↦ ⟨_, List.mem_map_of_mem hm, hmoved m hm⟩,
    fun m' hm' ↦ ?_⟩
  obtain ⟨m, hm, rfl⟩ := List.mem_map.mp hm'
  exact .inl ⟨m, hm, hmoved m hm⟩

/-- The message that opened the task is the one of the request. -/
theorem Orderly.key_of_opening (h : s.Orderly) {task t : A2ATask} {m : A2AMessage}
    (hopening : s.Opening d task) (ht : t ∈ s.gateway.tasks.rows) (hid : t.id = task.id)
    (hm : m ∈ s.gateway.messages.rows) (hopens : m.opens t = true) : d.key = m.key := by
  obtain ⟨t₀, ht₀, hid₀, _, m₀, hm₀, hkey, _, hopens₀⟩ := hopening
  obtain rfl := eq_of_key ht₀ ht (hid₀.trans hid.symm)
  unfold A2AMessage.opens at hopens hopens₀
  rw [decide_eq_true_eq] at hopens hopens₀
  rw [← hkey, h.commands m₀ hm₀ m hm (hopens₀.trans hopens.symm)]

/-- The request settles its task; its message is next. -/
theorem Orderly.moveTask (h : s.Orderly) {n : ℕ} (task : A2ATask) (status : Admission)
    (phase : Phase) (hget : s.deliveries[n]? = some d) (hopening : s.Opening d task)
    (hnot : d.phase.between = none) {p : A2ATask → Bool} {f : A2ATask → A2ATask}
    {hf : ∀ t, (f t).id = t.id}
    (hid : ∀ t, p t = true → t.id = task.id)
    (hcommand : ∀ t, (f t).createCommandId = t.createCommandId)
    (hstatus : ∀ t, (f t).admissionStatus = status)
    (hfinal : ∀ t, p t = true → t.admissionStatus ≠ .pending → t.admissionStatus = status)
    (hadmitted : status = .accepted → ∀ t ∈ s.gateway.tasks.rows, p t = true →
      ∃ runId, (f t).runtimeRunId = some runId ∧ (t.createCommandId, runId) ∈ s.runs)
    (hrefused : status = .rejected → ∀ t ∈ s.gateway.tasks.rows, p t = true →
      ¬holds s.runs t.createCommandId)
    (hbetween : phase.between = some task)
    (hstands : ∀ s' : DeliveryState, s'.Opening { d with phase := phase } task →
      (∀ t ∈ s.gateway.tasks.rows, t.id = task.id →
        (if p t then f t else t) ∈ s'.gateway.tasks.rows) →
      s'.Known { d with phase := phase }) :
    DeliveryState.Orderly { s with
      gateway := { s.gateway with tasks := s.gateway.tasks.update p f hf }
      deliveries := s.deliveries.set n { d with phase := phase } } := by
  have hmoves : ∀ t ∈ s.gateway.tasks.rows, p t = true → t.Moves (f t) := fun t _ hp ↦
    ⟨hf t, hcommand t, fun hne ↦ (hstatus t).trans (hfinal t hp hne).symm⟩
  have hdb := proceeds_updateTasks hf hmoves
  have hamid : ∀ t m, s.Amid t m → DeliveryState.Amid { s with
      gateway := { s.gateway with tasks := s.gateway.tasks.update p f hf }
      deliveries := s.deliveries.set n { d with phase := phase } } t m := by
    rintro t m ⟨d', hd', hkey, hrest⟩
    rcases exists_mem_set (y := { d with phase := phase }) hget hd' with hkept | rfl
    · exact ⟨d', hkept, hkey, hrest⟩
    · obtain ⟨task', hsome, _⟩ := hrest
      rw [hnot] at hsome
      cases hsome
  refine ⟨fun m hm ↦ ?_, h.commands, fun t' ht' ↦ ?_, fun t' ht' haccepted ↦ ?_,
    fun t' ht' hrejected ↦ ?_, fun t' ht' m hm htask hopens ↦ ?_,
    fun t' ht' m hm htask hopens ↦ ?_, fun d' hd' ↦ ?_⟩
  · obtain ⟨t, ht, heq⟩ := h.task m hm
    obtain ⟨t', ht', hmoved⟩ := hdb.tasks t ht
    exact ⟨t', ht', hmoved.id.trans heq⟩
  · obtain ⟨t, ht, rfl⟩ := List.mem_map.mp ht'
    obtain ⟨m, hm, htask, hopens⟩ := h.opened t ht
    refine ⟨m, hm, ?_⟩
    split
    · rw [hf]
      unfold A2AMessage.opens at hopens ⊢
      rw [hcommand]
      exact ⟨htask, hopens⟩
    · exact ⟨htask, hopens⟩
  · obtain ⟨t, ht, rfl⟩ := List.mem_map.mp ht'
    split at haccepted
    · rename_i hp
      rw [if_pos hp, hcommand]
      exact hadmitted ((hstatus t).symm.trans haccepted) t ht hp
    · rename_i hp
      rw [if_neg hp]
      exact h.admitted t ht haccepted
  · obtain ⟨t, ht, rfl⟩ := List.mem_map.mp ht'
    split at hrejected
    · rename_i hp
      rw [if_pos hp, hcommand]
      exact hrefused ((hstatus t).symm.trans hrejected) t ht hp
    · rename_i hp
      rw [if_neg hp]
      exact h.refused t ht hrejected
  · obtain ⟨t, ht, rfl⟩ := List.mem_map.mp ht'
    by_cases hp : p t = true
    · rw [if_pos hp] at htask hopens ⊢
      rw [hf] at htask
      have hopens' : m.opens t = true := by
        unfold A2AMessage.opens at hopens ⊢
        rw [hcommand] at hopens
        exact hopens
      obtain ⟨hnone, hold⟩ := h.opener t ht m hm htask hopens'
      refine ⟨hnone, ?_⟩
      rw [hstatus]
      by_cases hpending : m.deliveryStatus = .pending
      · exact .inr ⟨hpending, { d with phase := phase }, mem_set_self hget,
          h.key_of_opening hopening ht (hid t hp) hm hopens', task, hbetween,
          (hid t hp).symm.trans (hf t).symm⟩
      · rcases hold with heq | ⟨hpending', _⟩
        · exact .inl (heq.trans (hfinal t hp (heq ▸ hpending)))
        · exact absurd hpending' hpending
    · rw [if_neg hp] at htask hopens ⊢
      obtain ⟨hnone, hold⟩ := h.opener t ht m hm htask hopens
      exact ⟨hnone, hold.imp_right fun ⟨hpending, hin⟩ ↦ ⟨hpending, hamid t m hin⟩⟩
  · obtain ⟨t, ht, rfl⟩ := List.mem_map.mp ht'
    by_cases hp : p t = true
    · rw [if_pos hp] at htask hopens ⊢
      rw [hf] at htask
      have hopens' : m.opens t = false := by
        unfold A2AMessage.opens at hopens ⊢
        rw [hcommand] at hopens
        exact hopens
      obtain ⟨haccepted, hnone⟩ := h.followup t ht m hm htask hopens'
      refine ⟨fun hne ↦ ?_, hnone⟩
      have hold := haccepted hne
      rw [hstatus, ← hfinal t hp (by simp [hold])]
      exact hold
    · rw [if_neg hp] at htask hopens ⊢
      exact h.followup t ht m hm htask hopens
  · rcases List.mem_or_eq_of_mem_set hd' with hold | rfl
    · exact (h.known d' hold).proceeds hdb (List.Subset.refl _) (fun _ _ hnone ↦ hnone)
        fun _ _ _ hnone ↦ hnone
    · exact hstands _ (hopening.proceeds hdb) fun t ht _ ↦ List.mem_map_of_mem ht

/-- The request settles its message and comes back. -/
theorem Orderly.moveMessage (h : s.Orderly) {n : ℕ} (status : Admission) (phase : Phase)
    (hget : s.deliveries[n]? = some d) {p : A2AMessage → Bool} {f : A2AMessage → A2AMessage}
    {hf : ∀ m, (f m).key = m.key} (hkey : ∀ m, p m = true → m.key = d.key)
    (htask : ∀ m, (f m).taskId = m.taskId)
    (hcommand : ∀ m, (f m).runtimeCommandId = m.runtimeCommandId)
    (hstatus : ∀ m, (f m).deliveryStatus = status)
    (hfinal : ∀ m, p m = true → m.deliveryStatus ≠ .pending → m.deliveryStatus = status)
    (hopener : ∀ t ∈ s.gateway.tasks.rows, ∀ m ∈ s.gateway.messages.rows, m.key = d.key →
      m.taskId = t.id → m.opens t = true → (p m = true →
        (f m).runtimeInstructionId = none ∧ status = t.admissionStatus) ∧
      (p m = false → m.deliveryStatus = t.admissionStatus ∨ d.phase.between = none))
    (hfollowup : ∀ t ∈ s.gateway.tasks.rows, ∀ m ∈ s.gateway.messages.rows, p m = true →
      m.taskId = t.id → m.opens t = false → t.admissionStatus = .accepted ∧
        (status = .rejected → ¬holds s.instructions m.runtimeCommandId))
    (hknown : ∀ s' : DeliveryState, Proceeds s.gateway s'.gateway →
      s'.gateway.tasks = s.gateway.tasks →
      (∀ m' ∈ s'.gateway.messages.rows, ∃ m ∈ s.gateway.messages.rows,
        m' = if p m then f m else m) → s'.Known { d with phase := phase }) :
    DeliveryState.Orderly { s with
      gateway := { s.gateway with messages := s.gateway.messages.update p f hf }
      deliveries := s.deliveries.set n { d with phase := phase } } := by
  have hmoves : ∀ m ∈ s.gateway.messages.rows, p m = true → m.Moves (f m) := fun m _ hp ↦
    ⟨hf m, htask m, hcommand m, fun hne ↦ (hstatus m).trans (hfinal m hp hne).symm⟩
  have hdb := proceeds_updateMessages hf hmoves
  have hopens : ∀ (m : A2AMessage) (t : A2ATask), (f m).opens t = m.opens t := by
    intro m t
    unfold A2AMessage.opens
    rw [hcommand]
  refine ⟨fun m' hm' ↦ ?_, fun m₁ hm₁ m₂ hm₂ heq ↦ ?_, fun t ht ↦ ?_, h.admitted, h.refused,
    fun t ht m' hm' hid hopen ↦ ?_, fun t ht m' hm' hid hopen ↦ ?_, fun d' hd' ↦ ?_⟩
  · obtain ⟨m, hm, rfl⟩ := List.mem_map.mp hm'
    obtain ⟨t, ht, heq⟩ := h.task m hm
    refine ⟨t, ht, ?_⟩
    split
    · rw [htask]
      exact heq
    · exact heq
  · obtain ⟨m, hm, rfl⟩ := List.mem_map.mp hm₁
    obtain ⟨m', hm', rfl⟩ := List.mem_map.mp hm₂
    have hsame : ∀ m : A2AMessage, (if p m then f m else m).runtimeCommandId =
        m.runtimeCommandId := by
      intro m
      split
      · exact hcommand m
      · rfl
    rw [hsame, hsame] at heq
    rw [h.commands m hm m' hm' heq]
  · obtain ⟨m, hm, hid, hopen⟩ := h.opened t ht
    refine ⟨_, List.mem_map_of_mem hm, ?_⟩
    split
    · rw [htask, hopens]
      exact ⟨hid, hopen⟩
    · exact ⟨hid, hopen⟩
  · obtain ⟨m, hm, rfl⟩ := List.mem_map.mp hm'
    by_cases hp : p m = true
    · rw [if_pos hp] at hid hopen ⊢
      rw [htask] at hid
      rw [hopens] at hopen
      obtain ⟨hnone, hequal⟩ := (hopener t ht m hm (hkey m hp) hid hopen).1 hp
      exact ⟨hnone, .inl ((hstatus m).trans hequal)⟩
    · rw [if_neg hp] at hid hopen ⊢
      obtain ⟨hnone, hold⟩ := h.opener t ht m hm hid hopen
      refine ⟨hnone, ?_⟩
      rcases hold with hequal | ⟨hpending, d', hd', hkey', task, hbetween, htask'⟩
      · exact .inl hequal
      · rcases exists_mem_set (y := { d with phase := phase }) hget hd' with hkept | rfl
        · exact .inr ⟨hpending, d', hkept, hkey', task, hbetween, htask'⟩
        · rcases (hopener t ht m hm hkey'.symm hid hopen).2 (by simpa using hp) with hequal | hnot
          · exact .inl hequal
          · rw [hnot] at hbetween
            cases hbetween
  · obtain ⟨m, hm, rfl⟩ := List.mem_map.mp hm'
    by_cases hp : p m = true
    · rw [if_pos hp] at hid hopen ⊢
      rw [htask] at hid
      rw [hopens] at hopen
      obtain ⟨haccepted, hnone⟩ := hfollowup t ht m hm hp hid hopen
      refine ⟨fun _ ↦ haccepted, fun hrejected ↦ ?_⟩
      rw [hcommand]
      exact hnone ((hstatus m).symm.trans hrejected)
    · rw [if_neg hp] at hid hopen ⊢
      exact h.followup t ht m hm hid hopen
  · rcases List.mem_or_eq_of_mem_set hd' with hold | rfl
    · exact (h.known d' hold).proceeds hdb (List.Subset.refl _) (fun _ _ hnone ↦ hnone)
        fun _ _ _ hnone ↦ hnone
    · refine hknown _ hdb rfl fun m' hm' ↦ ?_
      obtain ⟨m, hm, rfl⟩ := List.mem_map.mp hm'
      exact ⟨m, hm, rfl⟩

/-- A request whose settlement fails comes back with an error. -/
theorem Orderly.fail (h : s.Orderly) {n : ℕ} (hget : s.deliveries[n]? = some d)
    (hnot : d.phase.between = none) : DeliveryState.Orderly { s with
      deliveries := s.deliveries.set n { d with phase := .returned .internalError } } := by
  refine h.redeliver rfl (List.Subset.refl _) h.refused (fun _ _ _ hnone ↦ hnone)
    (fun d' hd' task hbetween ↦ ?_) fun d' hd' ↦ ?_
  · rcases exists_mem_set (y := { d with phase := .returned .internalError }) hget hd' with
      hkept | rfl
    · exact ⟨d', hkept, rfl, hbetween⟩
    · rw [hnot] at hbetween
      cases hbetween
  · rcases List.mem_or_eq_of_mem_set hd' with hold | rfl
    · exact (h.known d' hold).proceeds (.refl _) (List.Subset.refl _) (fun _ _ hnone ↦ hnone)
        fun _ _ _ hnone ↦ hnone
    · exact known_internalError d.request

/-- A settlement fails and leaves the tables alone, or does what it does. -/
theorem settle_cases {n : ℕ} {w : World} (hget : s.deliveries[n]? = some d)
    {txn : GatewayTxn Unit} {next : Phase} (hsettlement : d.settlement = some (txn, next)) :
    ((∃ e, (commit txn s.gateway w).1 = .error e) ∧ s.settle n w = { s with
      deliveries := s.deliveries.set n { d with phase := .returned .internalError } }) ∨
    ∃ t, txn ⟨s.gateway, w⟩ = .ok ((), t) ∧ s.settle n w = { s with
      gateway := t.db
      deliveries := s.deliveries.set n { d with phase := next } } := by
  have hbind : (s.deliveries[n]?.bind fun d ↦ d.settlement.map fun p ↦ (d, p)) =
      some (d, txn, next) := by
    rw [hget, Option.bind_some, hsettlement, Option.map_some]
  unfold DeliveryState.settle
  rw [hbind]
  dsimp only
  cases hres : (commit txn s.gateway w).1 with
  | error e => exact .inl ⟨⟨e, rfl⟩, by rw [commit_error hres]⟩
  | ok u =>
      obtain ⟨t, ht, hdb⟩ := commit_ok hres
      exact .inr ⟨t, ht, by rw [hdb]⟩

theorem rejectTaskAdmission_post (peerId taskId reason : String)
    (t : Session GatewayDatabase World) :
    Post (rejectTaskAdmission peerId taskId reason) t fun _ t' ↦ ∃ now,
      let p : A2ATask → Bool := fun r ↦
        r.id = taskId && r.peerId = peerId && r.admissionStatus = .pending
      let f : A2ATask → A2ATask := fun r ↦
        { r with
          admissionStatus := .rejected
          rejectionReason := some (clipped 2048 reason)
          updatedAt := now }
      t'.db = { t.db with tasks := t.db.tasks.update p f (fun _ ↦ rfl) } ∧
        ∃ r ∈ t.db.tasks.rows, r.id = taskId ∧
          (if p r then f r else r).admissionStatus = .rejected := by
  simp only [rejectTaskAdmission, gatewayNow, post_bind, post_draw, post_updateTask, post_read,
    post_require]
  intro hdone
  refine ⟨_, rfl, ?_⟩
  rcases hdone with hchanged | hrejected
  · obtain ⟨r, hr, hp⟩ := List.any_eq_true.mp hchanged
    refine ⟨r, hr, ?_, by rw [if_pos hp]⟩
    simp only [Bool.and_eq_true, decide_eq_true_eq] at hp
    exact hp.1.1
  · obtain ⟨r', hr', hp⟩ := List.any_eq_true.mp hrejected
    obtain ⟨r, hr, rfl⟩ := List.mem_map.mp hr'
    simp only [Bool.and_eq_true, decide_eq_true_eq] at hp
    refine ⟨r, hr, ?_, by simpa using hp.2⟩
    have hid := hp.1.1
    split at hid
    · exact hid
    · exact hid

theorem settleTaskAdmission_post (peerId taskId runId : String)
    (t : Session GatewayDatabase World) :
    Post (settleTaskAdmission peerId taskId runId) t fun _ t' ↦ ∃ now,
      let p : A2ATask → Bool := fun r ↦
        r.id = taskId && r.peerId = peerId && r.admissionStatus ≠ .rejected &&
          r.runtimeRunId.all (· = runId)
      t'.db = { t.db with tasks := t.db.tasks.update p (fun r ↦
        { r with
          runtimeRunId := some runId
          admissionStatus := .accepted
          rejectionReason := none
          updatedAt := now }) (fun _ ↦ rfl) } ∧ ∃ r ∈ t.db.tasks.rows, p r = true := by
  simp only [settleTaskAdmission, gatewayNow, post_bind, post_draw, post_read, post_updateTask,
    post_require]
  intro hchanged _
  obtain ⟨r, hr, hp⟩ := List.any_eq_true.mp hchanged
  exact ⟨_, rfl, r, hr, hp⟩

theorem settleMessageDelivery_post (peerId messageId : String) (instructionId : Option String)
    (t : Session GatewayDatabase World) :
    Post (settleMessageDelivery peerId messageId instructionId) t fun _ t' ↦ ∃ now,
      let p : A2AMessage → Bool := fun m ↦
        m.key = (peerId, messageId) && m.deliveryStatus ≠ .rejected &&
          m.runtimeInstructionId.all (some · = instructionId)
      t'.db = { t.db with messages := t.db.messages.update p (fun m ↦
        { m with
          deliveryStatus := .accepted
          runtimeInstructionId := m.runtimeInstructionId.or instructionId
          rejectionReason := none
          updatedAt := now }) (fun _ ↦ rfl) } ∧ ∃ m ∈ t.db.messages.rows, p m = true := by
  simp only [settleMessageDelivery, updateMessage, gatewayNow, post_bind, post_draw, post_read,
    post_write, post_pure, post_require]
  intro hchanged
  obtain ⟨m, hm, hp⟩ := List.any_eq_true.mp hchanged
  exact ⟨_, rfl, m, hm, hp⟩

theorem rejectMessageDelivery_post (peerId messageId reason : String)
    (t : Session GatewayDatabase World) :
    Post (rejectMessageDelivery peerId messageId reason) t fun _ t' ↦ ∃ now,
      let p : A2AMessage → Bool := fun m ↦
        m.key = (peerId, messageId) && m.deliveryStatus = .pending
      let f : A2AMessage → A2AMessage := fun m ↦
        { m with
          deliveryStatus := .rejected
          rejectionReason := some (clipped 2048 reason)
          updatedAt := now }
      t'.db = { t.db with messages := t.db.messages.update p f (fun _ ↦ rfl) } ∧
        ∃ m ∈ t.db.messages.rows, m.key = (peerId, messageId) ∧
          (if p m then f m else m).deliveryStatus = .rejected := by
  simp only [rejectMessageDelivery, updateMessage, gatewayNow, post_bind, post_draw, post_read,
    post_write, post_pure, post_require]
  intro hdone
  refine ⟨_, rfl, ?_⟩
  rcases hdone with hchanged | hrejected
  · obtain ⟨m, hm, hp⟩ := List.any_eq_true.mp hchanged
    refine ⟨m, hm, ?_, by rw [if_pos hp]⟩
    simp only [Bool.and_eq_true, decide_eq_true_eq] at hp
    exact hp.1
  · obtain ⟨m', hm', hp⟩ := List.any_eq_true.mp hrejected
    obtain ⟨m, hm, rfl⟩ := List.mem_map.mp hm'
    simp only [Bool.and_eq_true, decide_eq_true_eq] at hp
    refine ⟨m, hm, ?_, by simpa using hp.2⟩
    have hkey := hp.1
    split at hkey
    · exact hkey
    · exact hkey

/-! ## Steps of settlement -/

theorem command_of_opening {task t : A2ATask} (hopening : s.Opening d task)
    (ht : t ∈ s.gateway.tasks.rows) (hid : t.id = task.id) :
    t.createCommandId = task.createCommandId := by
  obtain ⟨t₀, ht₀, hid₀, hcommand, _⟩ := hopening
  rw [← hcommand, eq_of_key ht ht₀ (hid.trans hid₀.symm)]

theorem Orderly.rejectTask (h : s.Orderly) {n : ℕ} {w : World} {r : MessageRequest}
    {task : A2ATask} (hget : s.deliveries[n]? = some ⟨r, .rejectingTask task⟩) :
    (s.settle n w).Orderly := by
  obtain ⟨hopening, hnone⟩ := h.known _ (List.mem_of_getElem? hget)
  rcases settle_cases (w := w) hget rfl with ⟨_, heq⟩ | ⟨t, ht, heq⟩
  · rw [heq]
    exact h.fail hget rfl
  · obtain ⟨now, hdb, r', hr', hid', hrejected⟩ := rejectTaskAdmission_post _ _ _ _ _ _ ht
    rw [heq, hdb]
    refine h.moveTask task .rejected (.rejectingMessage task) hget hopening rfl (fun t' hp ↦ ?_)
      (fun _ ↦ rfl) (fun _ ↦ rfl) (fun t' hp hne ↦ ?_) (fun hfalse ↦ by cases hfalse)
      (fun _ t' ht' hp ↦ ?_) rfl fun s' hopening' hrows ↦ ⟨hopening', ?_⟩
    · simp only [Bool.and_eq_true, decide_eq_true_eq] at hp
      exact hp.1.1
    · simp only [Bool.and_eq_true, decide_eq_true_eq] at hp
      exact absurd hp.2 hne
    · simp only [Bool.and_eq_true, decide_eq_true_eq] at hp
      rw [command_of_opening hopening ht' hp.1.1]
      exact hnone
    · refine ⟨_, hrows r' hr' hid', ?_, hrejected⟩
      split
      · exact hid'
      · exact hid'

theorem Orderly.settleTask (h : s.Orderly) {n : ℕ} {w : World} {r : MessageRequest}
    {task : A2ATask} {runId : String}
    (hget : s.deliveries[n]? = some ⟨r, .settlingTask task runId⟩) : (s.settle n w).Orderly := by
  obtain ⟨hopening, hheld⟩ := h.known _ (List.mem_of_getElem? hget)
  rcases settle_cases (w := w) hget rfl with ⟨_, heq⟩ | ⟨t, ht, heq⟩
  · rw [heq]
    exact h.fail hget rfl
  · obtain ⟨now, hdb, r', hr', hp'⟩ := settleTaskAdmission_post _ _ _ _ _ _ ht
    rw [heq, hdb]
    refine h.moveTask task .accepted (.settlingMessage task) hget hopening rfl (fun t' hp ↦ ?_)
      (fun _ ↦ rfl) (fun _ ↦ rfl) (fun t' hp hne ↦ ?_) (fun _ t' ht' hp ↦ ⟨runId, rfl, ?_⟩)
      (fun hfalse ↦ by cases hfalse) rfl fun s' hopening' hrows ↦ ⟨hopening', ?_⟩
    · simp only [Bool.and_eq_true, decide_eq_true_eq] at hp
      exact hp.1.1.1
    · simp only [Bool.and_eq_true, decide_eq_true_eq] at hp
      cases hstatus : t'.admissionStatus with
      | pending => exact absurd hstatus hne
      | accepted => rfl
      | rejected => exact absurd hstatus hp.1.2
    · simp only [Bool.and_eq_true, decide_eq_true_eq] at hp
      rw [command_of_opening hopening ht' hp.1.1.1]
      exact hheld
    · have hid : r'.id = task.id := by
        simp only [Bool.and_eq_true, decide_eq_true_eq] at hp'
        exact hp'.1.1.1
      have hmem := hrows r' hr' hid
      rw [if_pos hp'] at hmem
      exact ⟨_, hmem, hid, rfl⟩

/-- The message and the task of a request between its settlements. -/
theorem Orderly.amid (h : s.Orderly) {task : A2ATask} {status : Admission}
    (hopening : s.Opening d task) (hstands : s.Stands task status) :
    ∃ t₀ ∈ s.gateway.tasks.rows, ∃ m₀ ∈ s.gateway.messages.rows, t₀.admissionStatus = status ∧
      m₀.key = d.key ∧ m₀.taskId = t₀.id ∧ m₀.opens t₀ = true ∧
      m₀.runtimeInstructionId = none ∧ (m₀.deliveryStatus = status ∨ m₀.deliveryStatus = .pending) ∧
      ∀ t ∈ s.gateway.tasks.rows, ∀ m ∈ s.gateway.messages.rows, m.taskId = t.id →
        (m.key = d.key ∨ m.opens t₀ = true ∧ t = t₀) → m = m₀ ∧ t = t₀ := by
  obtain ⟨t₀, ht₀, hid₀, _, m₀, hm₀, hkey₀, htask₀, hopens₀⟩ := hopening
  obtain ⟨t₁, ht₁, hid₁, hstatus⟩ := hstands
  obtain rfl := eq_of_key ht₁ ht₀ (hid₁.trans hid₀.symm)
  obtain ⟨hnone, hold⟩ := h.opener t₁ ht₁ m₀ hm₀ htask₀ hopens₀
  refine ⟨t₁, ht₁, m₀, hm₀, hstatus, hkey₀, htask₀, hopens₀, hnone, ?_,
    fun t ht m hm htask hsame ↦ ?_⟩
  · rcases hold with hequal | ⟨hpending, _⟩
    · exact .inl (hequal.trans hstatus)
    · exact .inr hpending
  · have heq : m = m₀ := by
      rcases hsame with hkey | ⟨hopens, _⟩
      · exact eq_of_key hm hm₀ (hkey.trans hkey₀.symm)
      · unfold A2AMessage.opens at hopens hopens₀
        rw [decide_eq_true_eq] at hopens hopens₀
        exact h.commands m hm m₀ hm₀ (hopens.trans hopens₀.symm)
    subst heq
    exact ⟨rfl, eq_of_key ht ht₁ (htask.symm.trans htask₀)⟩

theorem not_error {db : GatewayDatabase} {w : World} {txn : GatewayTxn Unit}
    (h : Raises txn ⟨db, w⟩ fun _ ↦ False) : ¬∃ e, (commit txn db w).1 = .error e := by
  rintro ⟨e, he⟩
  exact h.commit (Prod.ext he rfl : commit txn db w = (.error e, (commit txn db w).2))

/-- A settled task and its message, after the message followed. -/
theorem known_answered {s' : DeliveryState} {t₀ : A2ATask} {m₀ : A2AMessage}
    {status : Admission} {phase : Phase} {outcome : Outcome} {p : A2AMessage → Bool}
    {f : A2AMessage → A2AMessage} (hphase : phase = .returned outcome)
    (ht₀ : t₀ ∈ s.gateway.tasks.rows) (hm₀ : m₀ ∈ s.gateway.messages.rows)
    (hstatus : t₀.admissionStatus = status) (hfinal : status ≠ .pending) (hkey : m₀.key = d.key)
    (htask : m₀.taskId = t₀.id)
    (honly : ∀ m ∈ s.gateway.messages.rows, m.taskId = t₀.id → m.opens t₀ = true → m = m₀)
    (hftask : ∀ m, (f m).taskId = m.taskId)
    (hfcommand : ∀ m, (f m).runtimeCommandId = m.runtimeCommandId)
    (hsettled : (if p m₀ then f m₀ else m₀).deliveryStatus = status)
    (hdb : Proceeds s.gateway s'.gateway) (htasks : s'.gateway.tasks = s.gateway.tasks)
    (hrows : ∀ m' ∈ s'.gateway.messages.rows, ∃ m ∈ s.gateway.messages.rows,
      m' = if p m then f m else m) : s'.Known { d with phase := phase } := by
  subst hphase
  intro _
  obtain ⟨m', hm', hmoved⟩ := hdb.messages m₀ hm₀
  refine ⟨m', hm', hmoved.key.trans hkey, t₀, htasks ▸ ht₀, htask.symm.trans hmoved.task.symm,
    hstatus ▸ hfinal, fun m₁ hm₁ htask₁ hopens₁ ↦ ?_⟩
  obtain ⟨m, hm, rfl⟩ := hrows m₁ hm₁
  have heq : m = m₀ := by
    by_cases hp : p m = true
    · rw [if_pos hp] at htask₁ hopens₁
      unfold A2AMessage.opens at hopens₁
      rw [hfcommand] at hopens₁
      exact honly m hm ((hftask m).symm.trans htask₁) hopens₁
    · rw [if_neg hp] at htask₁ hopens₁
      exact honly m hm htask₁ hopens₁
  rw [heq, hsettled, hstatus]

theorem Orderly.settleMessage (h : s.Orderly) {n : ℕ} {w : World} {r : MessageRequest}
    {task : A2ATask} (hget : s.deliveries[n]? = some ⟨r, .settlingMessage task⟩) :
    (s.settle n w).Orderly := by
  obtain ⟨hopening, hstands⟩ := h.known _ (List.mem_of_getElem? hget)
  obtain ⟨t₀, ht₀, m₀, hm₀, hstatus, hkey₀, htask₀, hopens₀, hnone, hm₀status, hunique⟩ :=
    h.amid hopening hstands
  have hmatches : m₀.key = (r.peerId, r.messageId) ∧ m₀.deliveryStatus ≠ .rejected ∧
      m₀.runtimeInstructionId = none := by
    refine ⟨hkey₀, ?_, hnone⟩
    rcases hm₀status with heq | heq
    · rw [heq]
      simp
    · rw [heq]
      simp
  rcases settle_cases (w := w) hget rfl with ⟨herror, _⟩ | ⟨t, ht, heq⟩
  · refine absurd herror (not_error ?_)
    simp only [settleMessageDelivery, updateMessage, gatewayNow, raises_bind, raises_draw,
      raises_read, raises_write, raises_pure, raises_require, post_draw, post_bind, post_read,
      post_write, post_pure, and_true, true_and]
    refine fun hnot ↦ hnot (List.any_eq_true.mpr ⟨m₀, hm₀, ?_⟩)
    simp [hmatches.1, hmatches.2.1, hmatches.2.2]
  · obtain ⟨now, hdb, _⟩ := settleMessageDelivery_post _ _ _ _ _ _ ht
    rw [heq, hdb]
    refine h.moveMessage .accepted (.returned .answered) hget (fun m hp ↦ ?_) (fun _ ↦ rfl)
      (fun _ ↦ rfl) (fun _ ↦ rfl) (fun m hp hne ↦ ?_) (fun t ht m hm hkey htask hopens ↦ ?_)
      (fun t ht m hm hp htask hopens ↦ ?_) fun s' hdb' htasks hrows ↦ ?_
    · simp only [Bool.and_eq_true, decide_eq_true_eq] at hp
      exact hp.1.1
    · simp only [Bool.and_eq_true, decide_eq_true_eq] at hp
      cases hm : m.deliveryStatus with
      | pending => exact absurd hm hne
      | accepted => rfl
      | rejected => exact absurd hm hp.1.2
    · obtain ⟨rfl, rfl⟩ := hunique t ht m hm htask (.inl hkey)
      refine ⟨fun _ ↦ ⟨by simp [hnone], hstatus.symm⟩, fun hp ↦ ?_⟩
      simp [hmatches.1, hmatches.2.1, hmatches.2.2] at hp
    · simp only [Bool.and_eq_true, decide_eq_true_eq] at hp
      obtain ⟨rfl, rfl⟩ := hunique t ht m hm htask (.inl hp.1.1)
      rw [hopens₀] at hopens
      cases hopens
    · refine known_answered rfl ht₀ hm₀ hstatus (by simp) hkey₀ htask₀
        (fun m hm htask hopens ↦ (hunique t₀ ht₀ m hm htask (.inr ⟨hopens, rfl⟩)).1)
        (fun _ ↦ ?_) (fun _ ↦ ?_) ?_ hdb' htasks hrows
      · rfl
      · rfl
      · simp [hmatches.1, hmatches.2.1, hmatches.2.2]

theorem Orderly.rejectMessage (h : s.Orderly) {n : ℕ} {w : World} {r : MessageRequest}
    {task : A2ATask} (hget : s.deliveries[n]? = some ⟨r, .rejectingMessage task⟩) :
    (s.settle n w).Orderly := by
  obtain ⟨hopening, hstands⟩ := h.known _ (List.mem_of_getElem? hget)
  obtain ⟨t₀, ht₀, m₀, hm₀, hstatus, hkey₀, htask₀, hopens₀, hnone, hm₀status, hunique⟩ :=
    h.amid hopening hstands
  have hkey₁ : m₀.key = (r.peerId, r.messageId) := hkey₀
  rcases settle_cases (w := w) hget rfl with ⟨herror, _⟩ | ⟨t, ht, heq⟩
  · refine absurd herror (not_error ?_)
    simp only [rejectMessageDelivery, updateMessage, gatewayNow, raises_bind, raises_draw,
      raises_read, raises_write, raises_pure, raises_require, post_draw, post_bind, post_read,
      post_write, post_pure, and_true, true_and]
    refine fun hnot ↦ hnot ?_
    rcases hm₀status with hrejected | hpending
    · refine .inr (List.any_eq_true.mpr ⟨_, List.mem_map_of_mem hm₀, ?_⟩)
      simp [hrejected, hkey₁]
    · exact .inl (List.any_eq_true.mpr ⟨m₀, hm₀, by simp [hkey₁, hpending]⟩)
  · obtain ⟨now, hdb, _⟩ := rejectMessageDelivery_post _ _ _ _ _ _ ht
    rw [heq, hdb]
    refine h.moveMessage .rejected (.returned .answered) hget (fun m hp ↦ ?_) (fun _ ↦ rfl)
      (fun _ ↦ rfl) (fun _ ↦ rfl) (fun m hp hne ↦ ?_) (fun t ht m hm hkey htask hopens ↦ ?_)
      (fun t ht m hm hp htask hopens ↦ ?_) fun s' hdb' htasks hrows ↦ ?_
    · simp only [Bool.and_eq_true, decide_eq_true_eq] at hp
      exact hp.1
    · simp only [Bool.and_eq_true, decide_eq_true_eq] at hp
      exact absurd hp.2 hne
    · obtain ⟨rfl, rfl⟩ := hunique t ht m hm htask (.inl hkey)
      refine ⟨fun _ ↦ ⟨hnone, hstatus.symm⟩, fun hp ↦ .inl ?_⟩
      rcases hm₀status with hrejected | hpending
      · exact hrejected.trans hstatus.symm
      · simp [hkey₁, hpending] at hp
    · simp only [Bool.and_eq_true, decide_eq_true_eq] at hp
      obtain ⟨rfl, rfl⟩ := hunique t ht m hm htask (.inl hp.1)
      rw [hopens₀] at hopens
      cases hopens
    · refine known_answered rfl ht₀ hm₀ hstatus (by simp) hkey₀ htask₀
        (fun m hm htask hopens ↦ (hunique t₀ ht₀ m hm htask (.inr ⟨hopens, rfl⟩)).1)
        (fun _ ↦ ?_) (fun _ ↦ ?_) ?_ hdb' htasks hrows
      · rfl
      · rfl
      · rcases hm₀status with hrejected | hpending
        · simp [hrejected]
        · simp [hkey₁, hpending]

/-- A message that follows up an accepted task is settled and comes back. -/
theorem Orderly.moveFollowup (h : s.Orderly) {n : ℕ} (status : Admission) (outcome : Outcome)
    {message : A2AMessage} (hget : s.deliveries[n]? = some d)
    (hfollowing : s.Following d message) {p : A2AMessage → Bool} {f : A2AMessage → A2AMessage}
    {hf : ∀ m, (f m).key = m.key} (hkey : ∀ m, p m = true → m.key = d.key)
    (htask : ∀ m, (f m).taskId = m.taskId)
    (hcommand : ∀ m, (f m).runtimeCommandId = m.runtimeCommandId)
    (hstatus : ∀ m, (f m).deliveryStatus = status)
    (hfinal : ∀ m, p m = true → m.deliveryStatus ≠ .pending → m.deliveryStatus = status)
    (hnone : status = .rejected → ¬holds s.instructions message.runtimeCommandId) :
    DeliveryState.Orderly { s with
      gateway := { s.gateway with messages := s.gateway.messages.update p f hf }
      deliveries := s.deliveries.set n { d with phase := .returned outcome } } := by
  obtain ⟨m₀, hm₀, hkey₀, hcommand₀, t₀, ht₀, hid₀, hopens₀, haccepted, hsettled⟩ := hfollowing
  have hunique : ∀ t ∈ s.gateway.tasks.rows, ∀ m ∈ s.gateway.messages.rows, m.key = d.key →
      m.taskId = t.id → m = m₀ ∧ t = t₀ := by
    intro t ht m hm hkey htask
    obtain rfl := eq_of_key hm hm₀ (hkey.trans hkey₀.symm)
    exact ⟨rfl, eq_of_key ht ht₀ (htask.symm.trans hid₀.symm)⟩
  refine h.moveMessage status (.returned outcome) hget hkey htask hcommand hstatus hfinal
    (fun t ht m hm hkey' htask' hopens ↦ ?_) (fun t ht m hm hp htask' _ ↦ ?_)
    fun s' hdb htasks _ _ ↦ ?_
  · obtain ⟨rfl, rfl⟩ := hunique t ht m hm hkey' htask'
    rw [hopens₀] at hopens
    cases hopens
  · obtain ⟨rfl, rfl⟩ := hunique t ht m hm (hkey m hp) htask'
    exact ⟨haccepted, fun hrejected ↦ hcommand₀ ▸ hnone hrejected⟩
  · obtain ⟨m', hm', hmoved⟩ := hdb.messages m₀ hm₀
    exact ⟨m', hm', hmoved.key.trans hkey₀, t₀, htasks ▸ ht₀, hid₀.trans hmoved.task.symm,
      hsettled.proceeds ht₀ (.refl t₀) hdb⟩

theorem Orderly.rejectFollowup (h : s.Orderly) {n : ℕ} {w : World} {r : MessageRequest}
    {task : A2ATask} {message : A2AMessage}
    (hget : s.deliveries[n]? = some ⟨r, .rejectingFollowup task message⟩) :
    (s.settle n w).Orderly := by
  obtain ⟨hfollowing, hnone⟩ := h.known _ (List.mem_of_getElem? hget)
  rcases settle_cases (w := w) hget rfl with ⟨_, heq⟩ | ⟨t, ht, heq⟩
  · rw [heq]
    exact h.fail hget rfl
  · obtain ⟨now, hdb, _⟩ := rejectMessageDelivery_post _ _ _ _ _ _ ht
    rw [heq, hdb]
    refine h.moveFollowup .rejected .unsupported hget hfollowing (fun m hp ↦ ?_)
      (fun _ ↦ rfl) (fun _ ↦ rfl) (fun _ ↦ rfl) (fun m hp hne ↦ ?_) fun _ ↦ hnone
    · simp only [Bool.and_eq_true, decide_eq_true_eq] at hp
      exact hp.1
    · simp only [Bool.and_eq_true, decide_eq_true_eq] at hp
      exact absurd hp.2 hne

theorem Orderly.settleFollowup (h : s.Orderly) {n : ℕ} {w : World} {r : MessageRequest}
    {task : A2ATask} {message : A2AMessage} {instructionId : String}
    (hget : s.deliveries[n]? = some ⟨r, .settlingFollowup task message instructionId⟩) :
    (s.settle n w).Orderly := by
  have hfollowing : s.Following _ message := h.known _ (List.mem_of_getElem? hget)
  rcases settle_cases (w := w) hget rfl with ⟨_, heq⟩ | ⟨t, ht, heq⟩
  · rw [heq]
    exact h.fail hget rfl
  · obtain ⟨now, hdb, _⟩ := settleMessageDelivery_post _ _ _ _ _ _ ht
    rw [heq, hdb]
    refine h.moveFollowup .accepted .answered hget hfollowing (fun m hp ↦ ?_)
      (fun _ ↦ rfl) (fun _ ↦ rfl) (fun _ ↦ rfl) (fun m hp hne ↦ ?_) fun hfalse ↦ by cases hfalse
    · simp only [Bool.and_eq_true, decide_eq_true_eq] at hp
      exact hp.1.1
    · simp only [Bool.and_eq_true, decide_eq_true_eq] at hp
      cases hm : m.deliveryStatus with
      | pending => exact absurd hm hne
      | accepted => rfl
      | rejected => exact absurd hm hp.1.2

theorem Orderly.settle (h : s.Orderly) (n : ℕ) (w : World) : (s.settle n w).Orderly := by
  cases hget : s.deliveries[n]? with
  | none =>
      unfold DeliveryState.settle
      rw [hget]
      exact h
  | some d =>
      obtain ⟨r, phase⟩ := d
      cases phase with
      | rejectingTask task => exact h.rejectTask hget
      | rejectingMessage task => exact h.rejectMessage hget
      | settlingTask task runId => exact h.settleTask hget
      | settlingMessage task => exact h.settleMessage hget
      | rejectingFollowup task message => exact h.rejectFollowup hget
      | settlingFollowup task message instructionId => exact h.settleFollowup hget
      | _ =>
          unfold DeliveryState.settle
          rw [hget]
          exact h

/-! ## Reservation -/

/-- What a reservation leaves: the message and its task, which were there
before or are new. -/
inductive Reserved (r : MessageRequest) (db : GatewayDatabase) :
    A2ATask → A2AMessage → GatewayDatabase → Prop
  | repeated {t : A2ATask} {m : A2AMessage} (ht : t ∈ db.tasks.rows) (hm : m ∈ db.messages.rows)
      (hkey : m.key = (r.peerId, r.messageId)) (hid : t.id = m.taskId) : Reserved r db t m db
  | followup {t : A2ATask} {m : A2AMessage} {messages : Table A2AMessage.key}
      (ht : t ∈ db.tasks.rows) (hm : db.messages.insert? m = some messages)
      (hfresh : ∀ m' ∈ db.messages.rows, m'.runtimeCommandId ≠ m.runtimeCommandId)
      (hkey : m.key = (r.peerId, r.messageId)) (hid : t.id = m.taskId)
      (hnamed : nonEmpty r.taskId = some t.id) (hpending : m.deliveryStatus = .pending) :
      Reserved r db t m { db with messages := messages }
  | opened {t : A2ATask} {m : A2AMessage} {tasks : Table A2ATask.id}
      {messages : Table A2AMessage.key} (ht : db.tasks.insert? t = some tasks)
      (hm : db.messages.insert? m = some messages)
      (hfresh : ∀ m' ∈ db.messages.rows, m'.runtimeCommandId ≠ m.runtimeCommandId)
      (hkey : m.key = (r.peerId, r.messageId)) (hid : t.id = m.taskId)
      (hopens : m.opens t = true) (htask : t.admissionStatus = .pending)
      (hnone : m.runtimeInstructionId = none) (hpending : m.deliveryStatus = .pending) :
      Reserved r db t m { db with tasks := tasks, messages := messages }

theorem selectContext_post (r : MessageRequest) (t : Session GatewayDatabase World) :
    Post (selectContext r) t fun result t' ↦ t'.db = t.db ∧
      ∀ task, result.1 = some task → task ∈ t.db.tasks.rows ∧ nonEmpty r.taskId = some task.id := by
  unfold selectContext
  cases htask : nonEmpty r.taskId with
  | some taskId =>
      simp only [findTask, post_bind, post_read, post_getOr, post_require, post_pure]
      intro task hfound _
      refine ⟨trivial, fun task' heq ↦ ?_⟩
      cases heq
      have hfind := (Option.filter_eq_some_iff.mp hfound).1
      exact ⟨Table.mem_of_find? hfind, by rw [Table.key_of_find? hfind]⟩
  | none =>
      cases nonEmpty r.contextId with
      | some contextId =>
          simp only [post_bind, post_read, post_require, post_pure]
          exact fun _ ↦ ⟨trivial, fun _ heq ↦ by cases heq⟩
      | none =>
          simp only [post_pure]
          exact ⟨trivial, fun _ heq ↦ by cases heq⟩

theorem insertMessage_post (m : A2AMessage) (t : Session GatewayDatabase World) :
    Post (insertMessage m) t fun _ t' ↦
      (∀ m' ∈ t.db.messages.rows, m'.runtimeCommandId ≠ m.runtimeCommandId) ∧
        ∃ messages, t.db.messages.insert? m = some messages ∧
          t'.db = { t.db with messages := messages } := by
  simp only [insertMessage, post_bind, post_read, post_require, post_attempt]
  intro hfresh db hdb
  obtain ⟨messages, hinsert, rfl⟩ := Option.map_eq_some_iff.mp hdb
  refine ⟨fun m' hm' heq ↦ ?_, messages, hinsert, rfl⟩
  have hclash : (t.db.messages.rows.any fun r ↦ r.runtimeCommandId = m.runtimeCommandId) = true :=
    List.any_eq_true.mpr ⟨m', hm', by simpa using heq⟩
  rw [hclash] at hfresh
  cases hfresh

theorem prepareMessage_post (r : MessageRequest) (t : Session GatewayDatabase World) :
    Post (prepareMessage r) t fun result t' ↦ Reserved r t.db result.1 result.2.1 t'.db := by
  unfold prepareMessage
  simp only [findMessage, post_bind, post_read]
  cases hfind : t.db.messages.find? (r.peerId, r.messageId) with
  | some m =>
      simp only [findTask, post_bind, post_require, post_read, post_getOr, post_pure]
      intro _ task hfound
      have htask := (Option.filter_eq_some_iff.mp hfound).1
      exact .repeated (Table.mem_of_find? htask) (Table.mem_of_find? hfind)
        (Table.key_of_find? hfind) (Table.key_of_find? htask)
  | none =>
      unfold reserveMessage
      rw [post_bind]
      refine (selectContext_post r t).mono ?_
      rintro ⟨selected, contextId⟩ t₁ ⟨hdb₁, hselected⟩
      simp only [post_bind, post_read, post_require, gatewayNow, post_draw, post_when, post_pure]
      intro _
      constructor
      · rintro rfl
        simp only [insertTask, post_bind, post_read, post_require, post_attempt]
        intro _ db hdb
        obtain ⟨tasks, hinsert, rfl⟩ := Option.map_eq_some_iff.mp hdb
        refine (insertMessage_post _ _).mono ?_
        rintro _ t₂ ⟨hfresh, messages, hmessages, hdb₂⟩
        rw [hdb₂]
        dsimp only at *
        rw [hdb₁] at *
        exact .opened hinsert hmessages hfresh rfl rfl (by simp [A2AMessage.opens,
          MessageRequest.newMessage, MessageRequest.newTask]) rfl rfl rfl
      · intro hsome
        obtain ⟨task, rfl⟩ := Option.ne_none_iff_exists'.mp hsome
        obtain ⟨hmem, hnamed⟩ := hselected task rfl
        refine (insertMessage_post _ _).mono ?_
        rintro _ t₂ ⟨hfresh, messages, hmessages, hdb₂⟩
        rw [hdb₂]
        dsimp only at *
        rw [hdb₁] at *
        exact .followup hmem hmessages hfresh rfl rfl hnamed rfl

theorem opens_iff {m : A2AMessage} {t : A2ATask} :
    m.opens t = true ↔ m.runtimeCommandId = t.createCommandId := by
  unfold A2AMessage.opens
  rw [decide_eq_true_eq]

/-- A message with a new command opens no task there is. -/
theorem Orderly.opens_none (h : s.Orderly) {m : A2AMessage}
    (hfresh : ∀ m' ∈ s.gateway.messages.rows, m'.runtimeCommandId ≠ m.runtimeCommandId) :
    ∀ t ∈ s.gateway.tasks.rows, m.opens t = false := by
  intro t ht
  obtain ⟨m', hm', _, hopens⟩ := h.opened t ht
  rw [← Bool.not_eq_true, opens_iff]
  rw [opens_iff] at hopens
  exact fun heq ↦ hfresh m' hm' (hopens.trans heq.symm)

/-- The tables after a reservation. -/
structure Extends (s : DeliveryState) (t : A2ATask) (m : A2AMessage) (db : GatewayDatabase) :
    Prop where
  proceeds : Proceeds s.gateway db
  task : t ∈ db.tasks.rows
  message : m ∈ db.messages.rows
  orderly : ∀ s' : DeliveryState, s'.gateway = db → s'.runs = s.runs →
    s'.instructions = s.instructions → s.deliveries ⊆ s'.deliveries →
    (∀ d ∈ s'.deliveries, s'.Known d) → s'.Orderly

theorem Amid.mono {t : A2ATask} {m : A2AMessage} (h : s.Amid t m)
    (hsub : s.deliveries ⊆ s'.deliveries) : s'.Amid t m := by
  obtain ⟨d, hd, hrest⟩ := h
  exact ⟨d, hsub hd, hrest⟩

theorem Orderly.extends (h : s.Orderly) {r : MessageRequest} {t : A2ATask} {m : A2AMessage}
    {db : GatewayDatabase} (hreserved : Reserved r s.gateway t m db) : s.Extends t m db := by
  cases hreserved with
  | repeated ht hm hkey hid =>
      refine ⟨.refl _, ht, hm, fun s' hgateway hruns hinstructions hsub hknown ↦ ?_⟩
      refine h.redeliver hgateway (by rw [hruns]; exact List.Subset.refl _)
        (by rw [hruns]; exact h.refused) (by rw [hinstructions]; exact fun _ _ _ hnone ↦ hnone)
        (fun d hd task hbetween ↦ ⟨d, hsub hd, rfl, hbetween⟩) hknown
  | @followup messages ht hm hfresh hkey hid hnamed hpending =>
      have hmem : ∀ m', m' ∈ messages.rows ↔ m' ∈ s.gateway.messages.rows ∨ m' = m :=
        fun m' ↦ Table.mem_insert? hm
      have hopens := h.opens_none hfresh
      have hdb : Proceeds s.gateway { s.gateway with messages := messages } := by
        refine ⟨fun t ht ↦ ⟨t, ht, .refl t⟩, fun m' hm' ↦ ⟨m', (hmem m').mpr (.inl hm'), .refl m'⟩,
          fun m' hm' ↦ ?_⟩
        rcases (hmem m').mp hm' with hold | rfl
        · exact .inl ⟨m', hold, .refl m'⟩
        · exact .inr hopens
      refine ⟨hdb, ht, (hmem m).mpr (.inr rfl),
        fun s' hgateway hruns hinstructions hsub hknown ↦ ⟨?_, ?_, ?_, ?_, ?_, ?_, ?_, hknown⟩⟩
      · rw [hgateway]
        intro m' hm'
        rcases (hmem m').mp hm' with hold | rfl
        · exact h.task m' hold
        · exact ⟨t, ht, hid⟩
      · rw [hgateway]
        intro m₁ hm₁ m₂ hm₂ heq
        rcases (hmem m₁).mp hm₁ with hold₁ | rfl
        · rcases (hmem m₂).mp hm₂ with hold₂ | rfl
          · exact h.commands m₁ hold₁ m₂ hold₂ heq
          · exact absurd heq (hfresh m₁ hold₁)
        · rcases (hmem m₂).mp hm₂ with hold₂ | rfl
          · exact absurd heq.symm (hfresh m₂ hold₂)
          · rfl
      · rw [hgateway]
        intro t' ht'
        obtain ⟨m', hm', hrest⟩ := h.opened t' ht'
        exact ⟨m', (hmem m').mpr (.inl hm'), hrest⟩
      · rw [hgateway, hruns]
        exact h.admitted
      · rw [hgateway, hruns]
        exact h.refused
      · rw [hgateway]
        intro t' ht' m' hm' htask hopen
        rcases (hmem m').mp hm' with hold | rfl
        · obtain ⟨hnone, hstatus⟩ := h.opener t' ht' m' hold htask hopen
          exact ⟨hnone, hstatus.imp_right fun ⟨hpend, hamid⟩ ↦ ⟨hpend, hamid.mono hsub⟩⟩
        · rw [hopens t' ht'] at hopen
          cases hopen
      · rw [hgateway, hinstructions]
        intro t' ht' m' hm' htask hopen
        rcases (hmem m').mp hm' with hold | rfl
        · exact h.followup t' ht' m' hold htask hopen
        · exact ⟨fun hne ↦ absurd hpending hne, fun hrejected ↦ by simp [hpending] at hrejected⟩
  | @opened tasks messages ht hm hfresh hkey hid hopens htask hnone hpending =>
      have hmem : ∀ m', m' ∈ messages.rows ↔ m' ∈ s.gateway.messages.rows ∨ m' = m :=
        fun m' ↦ Table.mem_insert? hm
      have htasks : ∀ t', t' ∈ tasks.rows ↔ t' ∈ s.gateway.tasks.rows ∨ t' = t :=
        fun t' ↦ Table.mem_insert? ht
      have hnew : ∀ t' ∈ s.gateway.tasks.rows, t'.id ≠ t.id :=
        Table.find?_eq_none_iff.mp (Table.find?_key_of_insert? ht)
      have hnoneOpen := h.opens_none hfresh
      have hdb : Proceeds s.gateway { s.gateway with tasks := tasks, messages := messages } := by
        refine ⟨fun t' ht' ↦ ⟨t', (htasks t').mpr (.inl ht'), .refl t'⟩,
          fun m' hm' ↦ ⟨m', (hmem m').mpr (.inl hm'), .refl m'⟩, fun m' hm' ↦ ?_⟩
        rcases (hmem m').mp hm' with hold | rfl
        · exact .inl ⟨m', hold, .refl m'⟩
        · exact .inr hnoneOpen
      refine ⟨hdb, (htasks t).mpr (.inr rfl), (hmem m).mpr (.inr rfl),
        fun s' hgateway hruns hinstructions hsub hknown ↦ ⟨?_, ?_, ?_, ?_, ?_, ?_, ?_, hknown⟩⟩
      · rw [hgateway]
        intro m' hm'
        rcases (hmem m').mp hm' with hold | rfl
        · obtain ⟨t', ht', heq⟩ := h.task m' hold
          exact ⟨t', (htasks t').mpr (.inl ht'), heq⟩
        · exact ⟨t, (htasks t).mpr (.inr rfl), hid⟩
      · rw [hgateway]
        intro m₁ hm₁ m₂ hm₂ heq
        rcases (hmem m₁).mp hm₁ with hold₁ | rfl
        · rcases (hmem m₂).mp hm₂ with hold₂ | rfl
          · exact h.commands m₁ hold₁ m₂ hold₂ heq
          · exact absurd heq (hfresh m₁ hold₁)
        · rcases (hmem m₂).mp hm₂ with hold₂ | rfl
          · exact absurd heq.symm (hfresh m₂ hold₂)
          · rfl
      · rw [hgateway]
        intro t' ht'
        rcases (htasks t').mp ht' with hold | rfl
        · obtain ⟨m', hm', hrest⟩ := h.opened t' hold
          exact ⟨m', (hmem m').mpr (.inl hm'), hrest⟩
        · exact ⟨m, (hmem m).mpr (.inr rfl), hid.symm, hopens⟩
      · rw [hgateway, hruns]
        intro t' ht' haccepted
        rcases (htasks t').mp ht' with hold | rfl
        · exact h.admitted t' hold haccepted
        · rw [htask] at haccepted
          cases haccepted
      · rw [hgateway, hruns]
        intro t' ht' hrejected
        rcases (htasks t').mp ht' with hold | rfl
        · exact h.refused t' hold hrejected
        · rw [htask] at hrejected
          cases hrejected
      · rw [hgateway]
        intro t' ht' m' hm' heq hopen
        rcases (htasks t').mp ht' with hold | rfl
        · rcases (hmem m').mp hm' with hold' | rfl
          · obtain ⟨hnone', hstatus⟩ := h.opener t' hold m' hold' heq hopen
            exact ⟨hnone', hstatus.imp_right fun ⟨hpend, hamid⟩ ↦ ⟨hpend, hamid.mono hsub⟩⟩
          · exact absurd (heq.symm.trans hid.symm) (hnew t' hold)
        · rcases (hmem m').mp hm' with hold' | rfl
          · rw [opens_iff] at hopen hopens
            exact absurd (hopen.trans hopens.symm) (hfresh m' hold')
          · exact ⟨hnone, .inl (hpending.trans htask.symm)⟩
      · rw [hgateway, hinstructions]
        intro t' ht' m' hm' heq hopen
        rcases (htasks t').mp ht' with hold | rfl
        · rcases (hmem m').mp hm' with hold' | rfl
          · exact h.followup t' hold m' hold' heq hopen
          · exact absurd (heq.symm.trans hid.symm) (hnew t' hold)
        · rcases (hmem m').mp hm' with hold' | rfl
          · obtain ⟨t₀, ht₀, hid₀⟩ := h.task m' hold'
            exact absurd (hid₀.trans heq) (hnew t₀ ht₀)
          · rw [hopens] at hopen
            cases hopen

/-- A task that is settled when its message is prepared is settled on both
sides. -/
theorem Orderly.settled_named (h : s.Orderly) {r : MessageRequest} {w : World} {t : A2ATask}
    (hok : Undisturbed (.prepare r w) s) (ht : t ∈ s.gateway.tasks.rows)
    (hnames : r.names s.gateway = some t.id) (hfinal : t.admissionStatus ≠ .pending) :
    s.Settled t := by
  refine h.settled ht hfinal fun d hd task hbetween hid ↦ ?_
  exact hok d hd task hbetween (hid ▸ hnames)

theorem known_beginFollowup {r : MessageRequest} {t : A2ATask} {m : A2AMessage}
    (hm : m ∈ s.gateway.messages.rows) (ht : t ∈ s.gateway.tasks.rows)
    (hkey : m.key = (r.peerId, r.messageId)) (hid : t.id = m.taskId) (hopens : m.opens t = false)
    (haccepted : m.deliveryStatus ≠ .pending → t.admissionStatus = .accepted)
    (hsettled : t.admissionStatus ≠ .pending → s.Settled t) :
    s.Known ⟨r, beginFollowup t m⟩ := by
  have hreturned : ∀ outcome, t.admissionStatus ≠ .pending →
      s.Known ⟨r, .returned outcome⟩ := fun outcome hfinal _ ↦
    ⟨m, hm, hkey, t, ht, hid, hsettled hfinal⟩
  unfold beginFollowup
  split
  · rename_i hstatus
    refine hreturned _ ?_
    rw [haccepted (by simp [hstatus])]
    simp
  · split
    · rename_i hrejected
      refine hreturned _ ?_
      rcases hrejected with hstatus | hstatus
      · rw [haccepted (by simp [hstatus])]
        simp
      · simp [hstatus]
    · split
      · exact known_internalError r
      · rename_i hready
        have hstatus : t.admissionStatus = .accepted := by
          by_contra hne
          exact hready (.inl hne)
        exact ⟨m, hm, hkey, rfl, t, ht, hid, hopens, hstatus, hsettled (by simp [hstatus])⟩

theorem Orderly.known_begun (h : s.Orderly) {r : MessageRequest} {w : World} {t : A2ATask}
    {m : A2AMessage} {db : GatewayDatabase} (hok : Undisturbed (.prepare r w) s)
    (hreserved : Reserved r s.gateway t m db) : DeliveryState.Known { s with
      gateway := db
      deliveries := s.deliveries ++ [⟨r, beginDelivery t m⟩] } ⟨r, beginDelivery t m⟩ := by
  have hextends := h.extends hreserved
  have hsettledNow : ∀ t' ∈ s.gateway.tasks.rows, s.Settled t' → DeliveryState.Settled { s with
      gateway := db
      deliveries := s.deliveries ++ [⟨r, beginDelivery t m⟩] } t' := fun t' ht' hsettled ↦
    hsettled.proceeds ht' (.refl t') hextends.proceeds
  cases hreserved with
  | repeated ht hm hkey hid =>
      have hnames : r.names s.gateway = some t.id := by
        unfold MessageRequest.names
        rw [← hkey, Table.find?_of_mem hm, hid]
      have hsettled : t.admissionStatus ≠ .pending → s.Settled t :=
        h.settled_named hok ht hnames
      unfold beginDelivery
      split
      · rename_i hopens
        unfold beginAdmission
        split
        · rename_i hfinal
          intro _
          have hne : t.admissionStatus ≠ .pending := by
            rcases hfinal with hstatus | hstatus
            · simp [hstatus]
            · simp [hstatus]
          exact ⟨m, hm, hkey, t, ht, hid, hsettledNow t ht (hsettled hne)⟩
        · exact ⟨t, ht, rfl, rfl, m, hm, hkey, hid.symm, hopens⟩
      · rename_i hopens
        rw [Bool.not_eq_true] at hopens
        exact known_beginFollowup hm ht hkey hid hopens
          (h.followup t ht m hm hid.symm hopens).1 fun hne ↦ hsettledNow t ht (hsettled hne)
  | followup ht hinsert hfresh hkey hid hnamed hpending =>
      have hnames : r.names s.gateway = some t.id := by
        unfold MessageRequest.names
        rw [← hkey, Table.find?_key_of_insert? hinsert]
        exact hnamed
      have hopens := h.opens_none hfresh t ht
      unfold beginDelivery
      rw [if_neg (by simp [hopens])]
      exact known_beginFollowup hextends.message ht hkey hid hopens
        (fun hne ↦ absurd hpending hne) fun hne ↦
          hsettledNow t ht (h.settled_named hok ht hnames hne)
  | opened ht hinsert hfresh hkey hid hopens htask hnone hpending =>
      unfold beginDelivery
      rw [if_pos hopens]
      unfold beginAdmission
      rw [if_neg (by simp [htask])]
      exact ⟨t, hextends.task, rfl, rfl, m, hextends.message, hkey, hid.symm, hopens⟩

theorem Orderly.prepare (h : s.Orderly) {r : MessageRequest} {w : World}
    (hok : Undisturbed (.prepare r w) s) : (s.prepare r w).Orderly := by
  unfold DeliveryState.prepare
  dsimp only
  cases hres : (commit (prepareMessage r) s.gateway w).1 with
  | error e =>
      dsimp only
      rw [commit_error hres]
      exact h
  | ok result =>
      obtain ⟨t, m, created⟩ := result
      obtain ⟨t', ht', hdb⟩ := commit_ok hres
      dsimp only
      rw [hdb]
      have hreserved : Reserved r s.gateway t m t'.db := prepareMessage_post r _ _ _ ht'
      have hextends := h.extends hreserved
      refine hextends.orderly _ rfl rfl rfl (List.subset_append_left _ _) fun d hd ↦ ?_
      rcases List.mem_append.mp hd with hold | hnew
      · exact (h.known d hold).proceeds hextends.proceeds (List.Subset.refl _)
          (fun _ _ hnone ↦ hnone) fun _ _ _ hnone ↦ hnone
      · rw [List.mem_singleton.mp hnew]
        exact h.known_begun hok hreserved

/-! ## Whole runs -/

/-- The step lemma: an undisturbed step keeps the invariant. -/
theorem Orderly.step (h : s.Orderly) {i : DeliveryStep} (hok : Undisturbed i s)
    (hreplays : s.Replays i) : (s.after i).Orderly := by
  cases i with
  | prepare r w => exact h.prepare hok
  | call n answer => exact h.call hreplays hok
  | settle n w => exact h.settle n w
  | acceptRun commandId runId => exact h.acceptRun hok
  | acceptInstruction commandId instructionId => exact h.acceptInstruction hok
  | cutOff n =>
      refine h.drop (List.eraseIdx_subset) fun d hd hbetween ↦ ?_
      obtain ⟨k, hk⟩ := List.mem_iff_getElem?.mp hd
      have hne : k ≠ n := by
        rintro rfl
        exact hbetween (hok d hk)
      exact List.mem_eraseIdx_iff_getElem?.mpr ⟨k, hne, hk⟩
  | restart =>
      exact h.drop (List.nil_subset _) fun d hd hbetween ↦ absurd (hok d hd) hbetween

theorem orderly_initial : DeliveryState.initial.Orderly where
  task _ hm := by cases hm
  commands _ hm := by cases hm
  opened _ ht := by cases ht
  admitted _ ht := by cases ht
  refused _ ht := by cases ht
  opener _ ht := by cases ht
  followup _ ht := by cases ht
  known _ hd := by cases hd

/-- The run lemma. -/
theorem orderly_of_undisturbed (h : deliverySystem.ReachableBy Undisturbed s) : s.Orderly := by
  refine h.invariant ?_ ?_
  · rintro _ rfl
    exact orderly_initial
  · rintro i s t hs hok ⟨hreplays, rfl⟩
    exact hs.step hok hreplays

theorem Orderly.deliveriesConverge (h : s.Orderly) : DeliveriesConverge s := by
  intro d hd outcome hphase houtcome
  have hknown := h.known d hd
  unfold Known at hknown
  rw [hphase] at hknown
  obtain ⟨m, hm, hkey, t, ht, hid, hsettled⟩ := hknown houtcome
  refine ⟨m, ?_, t, ?_, h.converged ht hsettled⟩
  · rw [← hkey]
    exact Table.find?_of_mem hm
  · rw [← hid]
    exact Table.find?_of_mem ht

end DeliveryState

/-- In every run that no step disturbs, a request that comes back without a
transient error finds the gateway and the Runtime agreed. -/
theorem deliveries_converge_while_undisturbed {s : DeliveryState}
    (h : deliverySystem.ReachableBy Undisturbed s) : DeliveriesConverge s :=
  (DeliveryState.orderly_of_undisturbed h).deliveriesConverge

namespace Interrupted

/-! ## A request cut off between its settlements -/

def message : MessageRequest where
  peerId := "peer"
  tenant := "tenant"
  messageId := "message"
  taskId := none
  contextId := none
  referenceTaskIds := []
  requestFingerprint := "print"
  message := .obj []
  newTaskId := "task"
  newContextId := "context"
  runtimeThreadId := "thread"
  runtimeCommandId := "command"
  runtimeClientMessageId := "client"
  outputMode := "text/plain"

/-- The message has opened its task, and the Runtime has accepted the run. -/
@[irreducible] def accepted : DeliveryState :=
  (DeliveryState.initial.after (.prepare message (.counting 0))).after (.acceptRun "command" "run")

@[irreducible] def called : DeliveryState := accepted.after (.call 0 (.ok (some "run")))

@[irreducible] def settled : DeliveryState := called.after (.settle 0 (.counting 1))

@[irreducible] def delivered : DeliveryState := settled.after (.settle 0 (.counting 2))

/-- The same, but the request is cut off and the peer sends its message again. -/
@[irreducible] def repeated : DeliveryState :=
  (settled.after .restart).after (.prepare message (.counting 2))

/-- The request creates a run that the Runtime holds. -/
def creates (s : DeliveryState) (runId : String) (phase : Phase) : Bool :=
  match phase with
  | .creating task => (task.createCommandId, runId) ∈ s.runs
  | _ => false

theorem creating_of_creates {s : DeliveryState} {runId : String} {phase : Phase}
    (h : creates s runId phase = true) :
    ∃ task, phase = .creating task ∧ (task.createCommandId, runId) ∈ s.runs := by
  cases phase with
  | creating task => exact ⟨task, rfl, of_decide_eq_true h⟩
  | _ => cases h

theorem answered_of_creates {s : DeliveryState} {n : ℕ} {runId : String}
    (h : (s.deliveries[n]?.all fun d ↦ creates s runId d.phase) = true) :
    Undisturbed (.call n (.ok (some runId))) s ∧ s.Replays (.call n (.ok (some runId))) := by
  have hcreating : ∀ d, s.deliveries[n]? = some d →
      ∃ task, d.phase = .creating task ∧ (task.createCommandId, runId) ∈ s.runs := by
    intro d hd
    rw [hd] at h
    exact creating_of_creates h
  constructor
  · intro d hd task message hphase
    obtain ⟨_, hcreates, _⟩ := hcreating d hd
    rw [hcreates] at hphase
    cases hphase
  · intro d hd
    obtain ⟨task, hcreates, hheld⟩ := hcreating d hd
    rw [hcreates]
    refine ⟨fun task' heq ↦ ⟨fun id hid _ ↦ ?_, fun _ hfalse ↦ by cases hfalse⟩,
      fun _ _ hfalse ↦ by cases hfalse⟩
    cases heq
    cases hid
    exact hheld

theorem reachable_settled : deliverySystem.ReachableBy Undisturbed settled := by
  have hinitial : deliverySystem.ReachableBy Undisturbed DeliveryState.initial := ⟨_, rfl, .refl _⟩
  have hprepared : deliverySystem.ReachableBy Undisturbed
      (DeliveryState.initial.after (.prepare message (.counting 0))) :=
    hinitial.step (i := .prepare message (.counting 0)) (fun _ hd ↦ by cases hd) ⟨trivial, rfl⟩
  have haccepted : deliverySystem.ReachableBy Undisturbed accepted := by
    rw [accepted]
    refine hprepared.step (i := .acceptRun "command" "run") ⟨?_, ?_⟩ ⟨?_, rfl⟩
    · have hall : ((DeliveryState.initial.after
          (.prepare message (.counting 0))).gateway.tasks.rows.all fun t ↦
            t.admissionStatus ≠ .rejected) = true := by decide +kernel
      intro t ht _
      simpa using List.all_eq_true.mp hall t ht
    · have hall : ((DeliveryState.initial.after
          (.prepare message (.counting 0))).deliveries.all fun d ↦
            match d.phase with
            | .rejectingTask _ => false
            | _ => true) = true := by decide +kernel
      intro d hd task hphase
      have hfalse := List.all_eq_true.mp hall d hd
      rw [hphase] at hfalse
      cases hfalse
    · rintro ⟨id, hmem⟩
      cases hmem
  have hcalled : deliverySystem.ReachableBy Undisturbed called := by
    rw [called]
    obtain ⟨hok, hreplays⟩ : Undisturbed (.call 0 (.ok (some "run"))) accepted ∧
        accepted.Replays (.call 0 (.ok (some "run"))) := answered_of_creates (by decide +kernel)
    exact haccepted.step hok ⟨hreplays, rfl⟩
  rw [settled]
  exact hcalled.step (i := .settle 0 (.counting 1)) trivial ⟨trivial, rfl⟩

/-- A request has come back with its task. -/
def answers (d : Delivering) : Bool :=
  match d.phase with
  | .returned .answered => true
  | _ => false

theorem phase_of_answers {d : Delivering} (h : answers d = true) :
    d.phase = .returned .answered := by
  unfold answers at h
  split at h
  · assumption
  · cases h

theorem reachable_delivered : deliverySystem.ReachableBy Undisturbed delivered := by
  rw [delivered]
  exact reachable_settled.step (i := .settle 0 (.counting 2)) trivial ⟨trivial, rfl⟩

theorem deliveries_converge_while_undisturbed_delivered :
    delivered.deliveries.any answers = true ∧
      (delivered.gateway.messages.rows.any fun m ↦ m.deliveryStatus = .accepted) = true ∧
      DeliveriesConverge delivered :=
  ⟨by decide +kernel, by decide +kernel, deliveries_converge_while_undisturbed reachable_delivered⟩

theorem reachable_repeated : deliverySystem.ReachableBy (fun _ _ ↦ True) repeated := by
  have hsettled : deliverySystem.ReachableBy (fun _ _ ↦ True) settled :=
    reachable_settled.weaken fun _ _ _ ↦ trivial
  have hrestarted : deliverySystem.ReachableBy (fun _ _ ↦ True) (settled.after .restart) :=
    hsettled.step (i := .restart) trivial ⟨trivial, rfl⟩
  rw [repeated]
  exact hrestarted.step (i := .prepare message (.counting 2)) trivial ⟨trivial, rfl⟩

/-- The task was accepted before the request was cut off, so the second
request comes back with it at once and leaves its message pending. -/
theorem deliveries_diverge :
    ¬∀ s, deliverySystem.ReachableBy (fun _ _ ↦ True) s → DeliveriesConverge s := by
  intro h
  have hconverge := h _ reachable_repeated
  have hreturned : (repeated.deliveries.any fun d ↦
      answers d && d.key = ("peer", "message")) = true := by decide +kernel
  obtain ⟨d, hd, hanswers⟩ := List.any_eq_true.mp hreturned
  simp only [Bool.and_eq_true, decide_eq_true_eq] at hanswers
  obtain ⟨m, hm, t, ht, hconverged⟩ :=
    hconverge d hd .answered (phase_of_answers hanswers.1) (by simp)
  have hmessages : (repeated.gateway.messages.rows.all fun m ↦ m.deliveryStatus = .pending &&
      m.runtimeCommandId = "command") = true := by decide +kernel
  have htasks : (repeated.gateway.tasks.rows.all fun t ↦ t.admissionStatus = .accepted &&
      t.createCommandId = "command") = true := by decide +kernel
  have hmessage := List.all_eq_true.mp hmessages m (Table.mem_of_find? hm)
  have htask := List.all_eq_true.mp htasks t (Table.mem_of_find? ht)
  simp only [Bool.and_eq_true, decide_eq_true_eq] at hmessage htask
  have hopens : m.opens t = true := DeliveryState.opens_iff.mpr (hmessage.2.trans htask.2.symm)
  have hagree := (hconverged.opener m (Table.mem_of_find? hm) (Table.key_of_find? ht).symm hopens).1
  have haccepted := hagree.mpr htask.1
  rw [hmessage.1] at haccepted
  cases haccepted

end Interrupted

end ShejaneRuntime.Gateway
