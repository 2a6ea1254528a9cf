import ShejaneRuntime.Completion.Acceptance
import ShejaneRuntime.Completion.Plans

/-!
# Whose run a decision is about

The to-do list is state of the thread and outlives the run that wrote it. A
decision is a matter of the current run alone exactly when the router does not
hold the model output against a list of another run.
-/

namespace ShejaneRuntime.Completion

open Lib Store

/-- The to-do list, when the current run has written it. -/
def ThreadState.ownTodos (s : ThreadState) (context : RuntimeContext) : Option Json :=
  if s.todosRun = some (s.run context) then some s.todos else none

/-- Two states agree from the task input of the current run on, and on what of
the private state is of this run. -/
structure SameRun (context : RuntimeContext) (s s' : ThreadState) : Prop where
  sameRun : s.run context = s'.run context
  turn : ∃ input after, input.type = .human ∧
    fromLast (Message.isTaskInputOf (s.run context)) s.messages = some (input :: after) ∧
    fromLast (Message.isTaskInputOf (s.run context)) s'.messages = some (input :: after)
  budget : budgetConvergenceActive s (s.run context) = budgetConvergenceActive s' (s.run context)
  route : routeAttemptsForRun s (s.run context) = routeAttemptsForRun s' (s.run context)
  repairs : repairAttemptsForRun s (s.run context) = repairAttemptsForRun s' (s.run context)
  incremental : incrementalConfig s (s.run context) = incrementalConfig s' (s.run context)
  todos : s.ownTodos context = s'.ownTodos context

/-- Final decisions rest on evidence of the run, and the decision is the same in
every state that agrees on the run. -/
structure PerRun (texts : Texts) (maxVerificationRepairs : ℕ) (context : RuntimeContext)
    (s : ThreadState) : Prop where
  sound : ∀ update, afterModel texts maxVerificationRepairs context s = some update →
    update.completionRoute.decision = .final → Accepted texts context s
  same : ∀ s', SameRun context s s' → afterModel texts maxVerificationRepairs context s =
    afterModel texts maxVerificationRepairs context s'

/-! ## Where the plan is looked at -/

/-- Tool calls that are held against the to-do list. -/
structure IsPlannedWork (texts : Texts) (config : IncrementalExecution) (m : Message) : Prop where
  ai : m.type = .ai
  valid : m.invalidToolCalls = []
  calls : m.toolCalls ≠ []
  unrefused : ¬IsRefusedPlan texts config m.toolCalls

/-- The model output of a run that has to have a plan is held against the to-do
list: as an answer, or as tool calls outside budget convergence. -/
def ReadsPlan (texts : Texts) (context : RuntimeContext) (s : ThreadState) : Prop :=
  ∃ config last, incrementalConfig s (s.run context) = some config ∧
    s.messages.getLast? = some last ∧
    (IsAnswer texts last ∨
      budgetConvergenceActive s (s.run context) = false ∧ IsPlannedWork texts config last)

/-- The task input of the current run is in the history. -/
def HasInput (context : RuntimeContext) (s : ThreadState) : Prop :=
  ∃ input after, input.type = .human ∧
    fromLast (Message.isTaskInputOf (s.run context)) s.messages = some (input :: after)

/-- What the router reads is of the current run: the part of the history that it
looks for required tools in, and the to-do list that it holds the model output
against. -/
structure Owned (texts : Texts) (context : RuntimeContext) (s : ThreadState) : Prop where
  input : Complete texts context s → context.requiredTools ≠ [] →
    ∃ m ∈ s.messages, m.isTaskInputOf (s.run context) = true
  plan : ReadsPlan texts context s → HasInput context s ∨ Complete texts context s →
    s.todosRun = some (s.run context)

variable {texts : Texts} {maxVerificationRepairs : ℕ} {context : RuntimeContext}
  {s s' : ThreadState} {run : String}

/-! ## States that agree on the run -/

theorem SameRun.latest (h : SameRun context s s') :
    latestTaskVerification texts s.messages = latestTaskVerification texts s'.messages := by
  obtain ⟨input, after, hhuman, hturn, hturn'⟩ := h.turn
  have hbegins : ∀ {messages : List Message},
      fromLast (Message.isTaskInputOf (s.run context)) messages = some (input :: after) →
      currentTurn messages = currentTurn (input :: after) := by
    intro messages hmessages
    obtain ⟨before, a, rest, rfl, hcons, hinput, _⟩ := fromLast_eq_some.mp hmessages
    cases hcons
    have hmarked : beginsTurn input = true := by
      rw [Message.isTaskInputOf, Bool.and_eq_true] at hinput
      simp [beginsTurn, hhuman, hinput.1]
    have hsame : fromLast beginsTurn (before ++ input :: after) =
        fromLast beginsTurn (input :: after) :=
      fromLast_append ⟨input, List.mem_cons_self, hmarked⟩
    cases hbegin : fromLast beginsTurn (input :: after) with
    | none =>
        rw [fromLast_eq_none.mp hbegin input List.mem_cons_self] at hmarked
        cases hmarked
    | some turn => simp only [currentTurn, hsame, hbegin]
  unfold latestTaskVerification
  rw [hbegins hturn, hbegins hturn']

theorem SameRun.getLast (h : SameRun context s s') :
    s.messages.getLast? = s'.messages.getLast? := by
  obtain ⟨input, after, _, hturn, hturn'⟩ := h.turn
  have hlast : ∀ {messages : List Message},
      fromLast (Message.isTaskInputOf (s.run context)) messages = some (input :: after) →
      messages.getLast? = (input :: after).getLast? := by
    intro messages hmessages
    obtain ⟨before, a, rest, rfl, hcons, _⟩ := fromLast_eq_some.mp hmessages
    exact List.getLast?_append_of_ne_nil _ (by simp)
  rw [hlast hturn, hlast hturn']

theorem SameRun.missing (h : SameRun context s s') {requiredTools : List String} :
    missingRequiredTools s.messages requiredTools (s.run context) =
      missingRequiredTools s'.messages requiredTools (s.run context) := by
  obtain ⟨input, after, _, hturn, hturn'⟩ := h.turn
  simp only [missingRequiredTools, hturn, hturn', Option.map_some, Option.getD_some]

/-- A run that has written its plan has written it in both states. -/
theorem SameRun.todos_eq (h : SameRun context s s')
    (hown : s.todosRun = some (s.run context)) : s.todos = s'.todos := by
  have htodos := h.todos
  rw [ThreadState.ownTodos, if_pos hown, ThreadState.ownTodos] at htodos
  split at htodos
  · exact Option.some.inj htodos
  · cases htodos

/-- Another to-do list that is not of the run either. -/
theorem SameRun.of_todos (hinput : HasInput context s) (hown : s.todosRun ≠ some (s.run context))
    (todos : Json) : SameRun context s { s with todos := todos } := by
  obtain ⟨input, after, hhuman, hturn⟩ := hinput
  refine ⟨rfl, ⟨input, after, hhuman, hturn, hturn⟩, rfl, rfl, rfl, rfl, ?_⟩
  have hother : ThreadState.ownTodos { s with todos := todos } context = none := if_neg hown
  rw [hother]
  exact if_neg hown

/-! ## A decision that is a matter of the run -/

theorem SameRun.incrementalToolRoute_eq (h : SameRun context s s') {last : Message}
    (hplan : ∀ config, incrementalConfig s (s.run context) = some config →
      IsRefusedPlan texts config last.toolCalls ∨ s.todos = s'.todos) :
    incrementalToolRoute texts s last (s.run context) =
      incrementalToolRoute texts s' last (s.run context) := by
  cases hconfig : incrementalConfig s (s.run context) with
  | none =>
      have hconfig' := hconfig
      rw [h.incremental] at hconfig'
      unfold incrementalToolRoute
      rw [hconfig, hconfig']
  | some config =>
      have hconfig' := hconfig
      rw [h.incremental] at hconfig'
      rcases hplan config hconfig with hrefused | htodos
      · obtain ⟨hattempts, call, error, hcalls, hname, hinitial, herror⟩ := hrefused
        rw [incrementalToolRoute_of_refused hconfig hattempts hcalls hname hinitial herror,
          incrementalToolRoute_of_refused hconfig' hattempts hcalls hname hinitial herror]
      · unfold incrementalToolRoute
        rw [hconfig, hconfig', htodos]

theorem SameRun.planRoute_eq (h : SameRun context s s')
    (hplan : (incrementalConfig s (s.run context)).isSome = true → s.todos = s'.todos) :
    planRoute texts s (s.run context) = planRoute texts s' (s.run context) := by
  have hfinal : incrementalFinalRoute texts s (s.run context) =
      incrementalFinalRoute texts s' (s.run context) := by
    unfold incrementalFinalRoute
    rw [← h.incremental]
    cases hconfig : incrementalConfig s (s.run context) with
    | none => rfl
    | some config => rw [hplan (by rw [hconfig]; rfl)]
  unfold planRoute
  rw [hfinal, h.budget]

theorem SameRun.acceptanceRoute_eq (h : SameRun context s s') {last : Message}
    (hplan : outputRoute texts last (s.run context) = none →
      clarificationRoute texts s last (s.run context) = none →
      planRoute texts s (s.run context) = planRoute texts s' (s.run context)) :
    acceptanceRoute texts maxVerificationRepairs context s last (s.run context) =
      acceptanceRoute texts maxVerificationRepairs context s' last (s.run context) := by
  have hquestion : clarificationRoute texts s last (s.run context) =
      clarificationRoute texts s' last (s.run context) := by
    simp only [clarificationRoute, h.budget, h.route]
  unfold acceptanceRoute
  cases houtput : outputRoute texts last (s.run context) with
  | some route => rfl
  | none =>
      rw [← hquestion]
      cases hclarification : clarificationRoute texts s last (s.run context) with
      | some route => rfl
      | none =>
          simp only [hplan houtput hclarification, h.latest, requiredToolRoute, verificationRoute,
            finalRoute, h.budget, h.route, h.repairs, h.missing]

/-- States that agree on the run, whose plan is the run's if it is looked at. -/
theorem SameRun.afterModel_eq (h : SameRun context s s')
    (hown : ReadsPlan texts context s → s.todosRun = some (s.run context)) :
    afterModel texts maxVerificationRepairs context s =
      afterModel texts maxVerificationRepairs context s' := by
  have hlast' := h.getLast
  cases hlast : s.messages.getLast? with
  | none =>
      unfold afterModel
      rw [← hlast', hlast]
  | some last =>
      rw [hlast] at hlast'
      have hlast' := hlast'.symm
      by_cases hai : last.type = .ai
      · by_cases hvalid : last.invalidToolCalls = []
        · by_cases hcalls : last.toolCalls = []
          · rw [afterModel_of_output hlast hai hvalid hcalls,
              afterModel_of_output hlast' hai hvalid hcalls, ← h.sameRun]
            refine congrArg some (h.acceptanceRoute_eq fun houtput hquestion ↦ ?_)
            refine h.planRoute_eq fun hsome ↦ ?_
            obtain ⟨config, hconfig⟩ := Option.isSome_iff_exists.mp hsome
            obtain ⟨hreason, hvisible⟩ := outputRoute_eq_none_iff.mp houtput
            exact h.todos_eq (hown ⟨config, last, hconfig, hlast, .inl ⟨hai, hvalid, hcalls,
              hreason, hvisible, clarificationRoute_eq_none_iff.mp hquestion⟩⟩)
          · rw [afterModel_of_calls hlast hai hvalid hcalls,
              afterModel_of_calls hlast' hai hvalid hcalls, ← h.sameRun, ← h.budget]
            cases hbudget : budgetConvergenceActive s (s.run context) with
            | true => simp only [if_true, budgetToolCallRoute, h.route]
            | false =>
                refine h.incrementalToolRoute_eq fun config hconfig ↦ ?_
                by_cases hrefused : IsRefusedPlan texts config last.toolCalls
                · exact .inl hrefused
                · exact .inr (h.todos_eq (hown ⟨config, last, hconfig, hlast,
                    .inr ⟨hbudget, hai, hvalid, hcalls, hrefused⟩⟩))
        · rw [afterModel_of_invalid hlast hai hvalid, afterModel_of_invalid hlast' hai hvalid,
            h.sameRun]
      · rw [afterModel_of_other hlast hai, afterModel_of_other hlast' hai]

/-- Where the plan is looked at the decision depends on it. -/
theorem ReadsPlan.exists_items (h : ReadsPlan texts context s) : ∃ items items',
    afterModel texts maxVerificationRepairs context (s.withTodos items) ≠
      afterModel texts maxVerificationRepairs context (s.withTodos items') := by
  obtain ⟨config, last, hconfig, hlast, hreads⟩ := h
  have hlast' : ∀ items, (s.withTodos items).messages.getLast? = some last := fun _ ↦ hlast
  rcases hreads with hanswer | ⟨hbudget, hwork⟩
  · obtain ⟨update, update', hupdate, hupdate', hne⟩ := planRoute_ne texts hconfig
    have hroute : ∀ items update,
        planRoute texts (s.withTodos items) (s.run context) = some update →
        acceptanceRoute texts maxVerificationRepairs context (s.withTodos items) last
          (s.run context) = update := by
      intro items update hplan
      have houtput : outputRoute texts last (s.run context) = none :=
        outputRoute_eq_none_iff.mpr ⟨hanswer.reason, hanswer.visible⟩
      have hquestion : clarificationRoute texts (s.withTodos items) last (s.run context) = none :=
        clarificationRoute_eq_none_iff.mpr hanswer.answers
      simp only [acceptanceRoute, houtput, hquestion, hplan]
    refine ⟨[], [⟨"a", .pending⟩], ?_⟩
    rw [afterModel_of_output (hlast' _) hanswer.ai hanswer.valid hanswer.calls,
      afterModel_of_output (hlast' _) hanswer.ai hanswer.valid hanswer.calls]
    intro heq
    refine hne ?_
    rw [← hroute _ _ hupdate, ← hroute _ _ hupdate']
    exact Option.some.inj heq
  · obtain ⟨items, items', hne⟩ := exists_items_toolRoute hconfig hwork.calls hwork.unrefused
    have hbudget' : ∀ items, budgetConvergenceActive (s.withTodos items)
        ((s.withTodos items).run context) = false := fun _ ↦ hbudget
    refine ⟨items, items', ?_⟩
    rw [afterModel_of_calls (hlast' _) hwork.ai hwork.valid hwork.calls,
      afterModel_of_calls (hlast' _) hwork.ai hwork.valid hwork.calls, hbudget', hbudget']
    exact hne

/-- Final decisions rest on evidence of the run, and decisions are a matter of
the run, exactly where what the router reads is of the run. -/
theorem completion_per_run (texts : Texts) (maxVerificationRepairs : ℕ) (context : RuntimeContext)
    (s : ThreadState) :
    PerRun texts maxVerificationRepairs context s ↔ Owned texts context s := by
  have hanswered : Complete texts context s →
      (incrementalConfig s (s.run context)).isSome = true → ReadsPlan texts context s := by
    intro hcomplete hsome
    obtain ⟨config, hconfig⟩ := Option.isSome_iff_exists.mp hsome
    obtain ⟨last, hlast, hanswer⟩ := hcomplete.answer
    exact ⟨config, last, hconfig, hlast, .inl hanswer⟩
  constructor
  · intro h
    have haccepted : Complete texts context s → Accepted texts context s := by
      intro hcomplete
      obtain ⟨update, hupdate, hfinal⟩ := final_iff_complete.mpr hcomplete
      exact h.sound update hupdate hfinal
    refine ⟨fun hcomplete ↦ (hcomplete.accepted_iff.mp (haccepted hcomplete)).1, ?_⟩
    rintro hreads (hinput | hcomplete)
    · by_contra hown
      obtain ⟨items, items', hne⟩ := hreads.exists_items
      exact hne ((h.same _ (SameRun.of_todos hinput hown (todosOf items))).symm.trans
        (h.same _ (SameRun.of_todos hinput hown (todosOf items'))))
    · obtain ⟨config, last, hconfig, _⟩ := hreads
      exact (haccepted hcomplete).planned (by rw [hconfig]; rfl) |>.1
  · intro h
    constructor
    · intro update hupdate hfinal
      have hcomplete : Complete texts context s := final_iff_complete.mp ⟨update, hupdate, hfinal⟩
      exact hcomplete.accepted_iff.mpr ⟨h.input hcomplete,
        fun hsome ↦ h.plan (hanswered hcomplete hsome) (.inr hcomplete)⟩
    · intro s' hsame
      obtain ⟨input, after, hhuman, hturn, _⟩ := hsame.turn
      exact hsame.afterModel_eq fun hreads ↦ h.plan hreads (.inl ⟨input, after, hhuman, hturn⟩)

/-! ## A plan of an earlier run -/

/-- A message with a marker of the runtime. -/
def markedMessage (type : MessageType) (text : String) (kwargs : List (String × Json)) : Message :=
  ⟨type, .str text, "", "", "", .obj kwargs, .obj [], [], []⟩

def taskInput (run goal : String) : Message :=
  markedMessage .human goal
    [("runtime_kind", .str "task_input"), ("runtime_run_id", .str run)]

/-- No text is JSON or asks for anything. -/
def plainTexts : Texts := ⟨fun _ ↦ none, fun _ ↦ "", fun _ ↦ false⟩

/-- The state of a thread whose first run has completed its to-do list, with a
second run that answers at once. -/
def secondRun : ThreadState where
  messages := [taskInput "run_1" "refactor", markedMessage .ai "Refactored." [],
    taskInput "run_2" "migrate", markedMessage .ai "Migrated." []]
  budgetControl := none
  completionRoute := none
  verificationRepairState := none
  incrementalExecution := none
  todos := .arr [.obj [("content", .str "refactor"), ("status", .str "completed")],
    .obj [("content", .str "test"), ("status", .str "completed")]]
  todosRun := some "run_1"

def secondContext : RuntimeContext := ⟨some "run_2", []⟩

/-- A text is JSON if it is the report of a verification. -/
def reportTexts : Texts :=
  ⟨fun text ↦ if text = "\x7b\"ok\": true\x7d" then some (.obj [("ok", .bool true)]) else none,
    fun _ ↦ "", fun _ ↦ false⟩

def toolMessage (name content : String) : Message :=
  ⟨.tool, .str content, name, "success", "call_1", .obj [], .obj [], [], []⟩

/-- The second run keeps a plan of its own, calls a required tool and verifies
its work. -/
def plannedTurn : List Message :=
  [markedMessage .ai "" [], toolMessage "write_todos" "Updated.",
    toolMessage "web.search" "Found.", toolMessage "task.verify" "\x7b\"ok\": true\x7d",
    markedMessage .ai "Migrated." []]

/-- The second run, after what the thread holds of the first. -/
def plannedRun (earlier : List Message) : ThreadState where
  messages := earlier ++ taskInput "run_2" "migrate" :: plannedTurn
  budgetControl := none
  completionRoute := none
  verificationRepairState := none
  incrementalExecution := some ⟨true, "always", "run_2", []⟩
  todos := .arr [.obj [("content", .str "migrate"), ("status", .str "completed")],
    .obj [("content", .str "check"), ("status", .str "completed")]]
  todosRun := some "run_2"

def searchContext : RuntimeContext := ⟨some "run_2", ["web.search"]⟩

/-- A first run that answered, and one whose verification failed. -/
def answeredRun : List Message := [taskInput "run_1" "refactor", markedMessage .ai "Refactored." []]

def brokenRun : List Message :=
  [taskInput "run_1" "search", toolMessage "web.search" "Nothing.",
    toolMessage "task.verify" "broken", markedMessage .ai "Nothing found." []]

theorem plannedRun_same (earlier other : List Message) :
    SameRun searchContext (plannedRun earlier) (plannedRun other) := by
  have hturn : ∀ before, fromLast (Message.isTaskInputOf "run_2") (plannedRun before).messages =
      some (taskInput "run_2" "migrate" :: plannedTurn) := by
    intro before
    refine fromLast_eq_some.mpr ⟨before, _, _, rfl, rfl, by decide +kernel, ?_⟩
    decide +kernel
  exact ⟨rfl, ⟨_, _, rfl, hturn earlier, hturn other⟩, rfl, rfl, rfl, rfl, rfl⟩

/-- The second run is accepted on its own evidence, whatever the first did. -/
theorem completion_per_run_planned :
    Accepted reportTexts searchContext (plannedRun answeredRun) ∧
      (∃ update, afterModel reportTexts 1 searchContext (plannedRun answeredRun) = some update ∧
        update.completionRoute.decision = .final) ∧
      afterModel reportTexts 1 searchContext (plannedRun answeredRun) =
        afterModel reportTexts 1 searchContext (plannedRun brokenRun) := by
  have hfinal : (afterModel reportTexts 1 searchContext (plannedRun answeredRun)).any
      (fun update ↦ update.completionRoute.decision = .final) = true := by decide +kernel
  obtain ⟨update, hupdate, hdecision⟩ := (Option.any_eq_true _ _).mp hfinal
  have howned : Owned reportTexts searchContext (plannedRun answeredRun) :=
    ⟨fun _ _ ↦ ⟨taskInput "run_2" "migrate", by simp [plannedRun], by decide +kernel⟩,
      fun _ _ ↦ rfl⟩
  have hrun := (completion_per_run reportTexts 1 searchContext (plannedRun answeredRun)).mpr howned
  exact ⟨hrun.sound update hupdate (of_decide_eq_true hdecision),
    ⟨update, hupdate, of_decide_eq_true hdecision⟩, hrun.same _ (plannedRun_same _ _)⟩

/-- The plan of the first run has the second accepted without one. -/
theorem not_completion_accepted : ¬∀ texts maxVerificationRepairs context s update,
    afterModel texts maxVerificationRepairs context s = some update →
    update.completionRoute.decision = .final → Accepted texts context s := by
  intro h
  have hfinal : (afterModel plainTexts 1 secondContext
      (beforeAgent "always" true secondContext secondRun)).any
      (fun update ↦ update.completionRoute.decision = .final) = true := by decide +kernel
  obtain ⟨update, hupdate, hdecision⟩ := (Option.any_eq_true _ _).mp hfinal
  have hplanned := (h plainTexts 1 secondContext _ update hupdate
    (of_decide_eq_true hdecision)).planned (by decide +kernel)
  exact absurd hplanned.1 (by decide +kernel)

end ShejaneRuntime.Completion
