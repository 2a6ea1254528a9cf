import ShejaneRuntime.Completion.Router

/-!
# What the router accepts

The router decides final exactly when the model output is an answer and nothing
is missing in what it reads, whosever that is. A final decision rests on
evidence of the current run when the run's task input is in the history and its
to-do list is its own.
-/

namespace ShejaneRuntime.Completion

open Lib Store

/-- The current run of a state. -/
def ThreadState.run (s : ThreadState) (context : RuntimeContext) : String :=
  currentRunId context.runId s.messages

/-- The evidence that a final decision should rest on. -/
structure Accepted (texts : Texts) (context : RuntimeContext) (s : ThreadState) : Prop where
  required : ∀ name ∈ context.requiredTools, ∃ before input after,
    s.messages = before ++ input :: after ∧ input.isTaskInputOf (s.run context) = true ∧
      (∀ m ∈ after, m.isTaskInputOf (s.run context) = false) ∧
      ∃ m ∈ after, m.type = .tool ∧ m.name = name
  verified : ∀ before v after, currentTurn s.messages = before ++ v :: after →
    isVerification v = true → (∀ m ∈ after, isVerification m = false) →
      reportsOk texts v = true ∧ ∀ m ∈ after, invalidates m = false
  planned : (incrementalConfig s (s.run context)).isSome = true →
    s.todosRun = some (s.run context) ∧ todoItems texts s.todos ≠ [] ∧
      ∀ item ∈ todoItems texts s.todos, item.status = .completed

/-- Reasons of the model service to end an output that is no answer. -/
def refusedReasons : List String :=
  ["length", "max_tokens", "content_filter", "content_filtered", "malformed_function_call",
    "unexpected_tool_call", "too_many_tool_calls", "missing_thought_signature",
    "malformed_response"]

/-- A model output that is an answer: visible text without tool calls, which
does not ask the user. -/
structure IsAnswer (texts : Texts) (m : Message) : Prop where
  ai : m.type = .ai
  valid : m.invalidToolCalls = []
  calls : m.toolCalls = []
  reason : finishReason texts m ∉ refusedReasons
  visible : pyStrip (assistantText m.content) ≠ ""
  answers : texts.isProseClarification (assistantText m.content) = false

/-- Nothing is missing in what the router reads. -/
structure Complete (texts : Texts) (context : RuntimeContext) (s : ThreadState) : Prop where
  answer : ∃ last, s.messages.getLast? = some last ∧ IsAnswer texts last
  plan : (incrementalConfig s (s.run context)).isSome = true →
    todoItems texts s.todos ≠ [] ∧ ∀ item ∈ todoItems texts s.todos, item.status = .completed
  tools : missingRequiredTools s.messages context.requiredTools (s.run context) = []
  verification : ∀ verification, latestTaskVerification texts s.messages = some verification →
    verification.ok = true

variable {texts : Texts} {maxVerificationRepairs : ℕ} {context : RuntimeContext} {s : ThreadState}
  {run : String} {update : Update}

/-! ## Routes that accept nothing -/

theorem incrementalRepairRoute_ne_final {config : IncrementalExecution}
    {reason message instruction : String} {calls : List ToolCall} :
    (incrementalRepairRoute config run reason message instruction calls).completionRoute.decision ≠
      .final := by
  unfold incrementalRepairRoute
  dsimp only
  split
  · simp [terminalRoute, Update.ofRoute]
  · simp

theorem incrementalToolRoute_ne_final {last : Message}
    (h : incrementalToolRoute texts s last run = some update) :
    update.completionRoute.decision ≠ .final := by
  unfold incrementalToolRoute at h
  split at h
  · cases h
  · dsimp only at h
    split at h
    · cases h
    · repeat' split at h
      all_goals cases h
      all_goals exact incrementalRepairRoute_ne_final

theorem budgetToolCallRoute_ne_final {last : Message} :
    (budgetToolCallRoute s last run).completionRoute.decision ≠ .final := by
  unfold budgetToolCallRoute
  dsimp only
  split
  all_goals simp [terminalRoute, repairRoute, Update.ofRoute]

theorem outputRoute_ne_final {last : Message} (h : outputRoute texts last run = some update) :
    update.completionRoute.decision ≠ .final := by
  unfold outputRoute at h
  dsimp only at h
  repeat' split at h
  all_goals cases h
  all_goals simp [terminalRoute, Update.ofRoute]

theorem clarificationRoute_ne_final {last : Message}
    (h : clarificationRoute texts s last run = some update) :
    update.completionRoute.decision ≠ .final := by
  unfold clarificationRoute at h
  repeat' split at h
  all_goals cases h
  all_goals simp [terminalRoute, repairRoute, Update.ofRoute]

theorem planRoute_ne_final (h : planRoute texts s run = some update) :
    update.completionRoute.decision ≠ .final := by
  obtain ⟨incremental, hroute, rfl⟩ := Option.map_eq_some_iff.mp h
  split
  · simp [convergenceBlockedRoute, terminalRoute, Update.ofRoute]
  · unfold incrementalFinalRoute at hroute
    dsimp only at hroute
    repeat' split at hroute
    all_goals cases hroute
    all_goals exact incrementalRepairRoute_ne_final

theorem requiredToolRoute_ne_final {requiredTools : List String}
    (h : requiredToolRoute s requiredTools run = some update) :
    update.completionRoute.decision ≠ .final := by
  unfold requiredToolRoute at h
  dsimp only at h
  repeat' split at h
  all_goals cases h
  all_goals simp [terminalRoute, repairRoute, Update.ofRoute]

theorem verificationRoute_ne_final {verification : Verification} :
    (verificationRoute maxVerificationRepairs s run verification).completionRoute.decision ≠
      .final := by
  unfold verificationRoute
  dsimp only
  repeat' split
  all_goals simp [terminalRoute, Update.ofRoute]

/-! ## Checks that are passed -/

theorem outputRoute_eq_none_iff {last : Message} : outputRoute texts last run = none ↔
    finishReason texts last ∉ refusedReasons ∧ pyStrip (assistantText last.content) ≠ "" := by
  have hreasons : ∀ reason : String, reason ∉ refusedReasons ↔
      ["length", "max_tokens"].contains reason = false ∧
        ["content_filter", "content_filtered"].contains reason = false ∧
        ["malformed_function_call", "unexpected_tool_call", "too_many_tool_calls",
          "missing_thought_signature", "malformed_response"].contains reason = false := by
    intro reason
    simp [refusedReasons, and_assoc]
  rw [hreasons]
  unfold outputRoute
  dsimp only
  constructor
  · intro h
    split at h
    · cases h
    · rename_i hlength
      split at h
      · cases h
      · rename_i hfilter
        split at h
        · cases h
        · rename_i hprotocol
          split at h
          · cases h
          · rename_i hvisible
            exact ⟨⟨Bool.eq_false_of_not_eq_true hlength, Bool.eq_false_of_not_eq_true hfilter,
              Bool.eq_false_of_not_eq_true hprotocol⟩, hvisible⟩
  · rintro ⟨⟨hlength, hfilter, hprotocol⟩, hvisible⟩
    rw [hlength, hfilter, hprotocol]
    simp [hvisible]

theorem clarificationRoute_eq_none_iff {last : Message} :
    clarificationRoute texts s last run = none ↔
      texts.isProseClarification (assistantText last.content) = false := by
  unfold clarificationRoute
  constructor
  · intro h
    split at h
    · rename_i hanswers
      simpa using hanswers
    · repeat' split at h
      all_goals cases h
  · intro h
    rw [h]
    rfl

/-- No plan is asked for when none is required or all of one is completed. -/
theorem planRoute_eq_none_iff : planRoute texts s run = none ↔
    ((incrementalConfig s run).isSome = true →
      todoItems texts s.todos ≠ [] ∧
        ∀ item ∈ todoItems texts s.todos, item.status = .completed) := by
  rw [planRoute, Option.map_eq_none_iff, incrementalFinalRoute]
  cases hconfig : incrementalConfig s run with
  | none => simp
  | some config =>
      constructor
      · intro hroute _
        dsimp only at hroute
        split at hroute
        · cases hroute
        · rename_i hitems
          split at hroute
          · cases hroute
          · rename_i hall
            refine ⟨fun hnil ↦ hitems (by rw [hnil]; rfl), ?_⟩
            simpa using hall
      · intro h
        obtain ⟨hitems, hall⟩ := h rfl
        have hall' : (todoItems texts s.todos).all
            (fun item ↦ decide (item.status = .completed)) = true := by simpa using hall
        have hitems' : (todoItems texts s.todos).isEmpty = false := by simpa using hitems
        simp [hall', hitems']

theorem requiredToolRoute_eq_none_iff {requiredTools : List String} :
    requiredToolRoute s requiredTools run = none ↔
      missingRequiredTools s.messages requiredTools run = [] := by
  unfold requiredToolRoute
  constructor
  · intro h
    split at h
    · rename_i hmissing
      exact hmissing
    · dsimp only at h
      repeat' split at h
      all_goals cases h
  · intro h
    rw [h]

theorem finalRoute_decision {verification : Option Verification} :
    (finalRoute s run verification).completionRoute.decision = .final := rfl

/-- The checks accept an output exactly when all of them are passed. -/
theorem acceptanceRoute_final_iff {last : Message} :
    (acceptanceRoute texts maxVerificationRepairs context s last run).completionRoute.decision =
        .final ↔
      outputRoute texts last run = none ∧ clarificationRoute texts s last run = none ∧
        planRoute texts s run = none ∧
        requiredToolRoute s context.requiredTools run = none ∧
        ∀ verification, latestTaskVerification texts s.messages = some verification →
          verification.ok = true := by
  unfold acceptanceRoute
  cases houtput : outputRoute texts last run with
  | some route => simp [outputRoute_ne_final houtput]
  | none =>
      cases hclarification : clarificationRoute texts s last run with
      | some route => simp [clarificationRoute_ne_final hclarification]
      | none =>
          cases hplan : planRoute texts s run with
          | some route => simp [planRoute_ne_final hplan]
          | none =>
              cases htools : requiredToolRoute s context.requiredTools run with
              | some route => simp [requiredToolRoute_ne_final htools]
              | none =>
                  cases hlatest : latestTaskVerification texts s.messages with
                  | none => simp [finalRoute_decision]
                  | some verification =>
                      dsimp only
                      by_cases hok : verification.ok = true
                      · simp [hok, finalRoute_decision]
                      · simp [hok, verificationRoute_ne_final]

theorem afterModel_of_other {last : Message} (hlast : s.messages.getLast? = some last)
    (hother : last.type ≠ .ai) :
    afterModel texts maxVerificationRepairs context s = none := by
  unfold afterModel
  rw [hlast]
  exact if_pos hother

theorem afterModel_of_invalid {last : Message} (hlast : s.messages.getLast? = some last)
    (hai : last.type = .ai) (hinvalid : last.invalidToolCalls ≠ []) :
    afterModel texts maxVerificationRepairs context s = some (terminalRoute .failed
      "invalid_tool_calls" "The model returned an incomplete or invalid tool call." true
      (s.run context)) := by
  unfold afterModel
  rw [hlast]
  simp [hai, hinvalid, ThreadState.run]

/-- Tool calls are refused in budget convergence and held against the plan
otherwise. -/
theorem afterModel_of_calls {last : Message} (hlast : s.messages.getLast? = some last)
    (hai : last.type = .ai) (hvalid : last.invalidToolCalls = []) (hcalls : last.toolCalls ≠ []) :
    afterModel texts maxVerificationRepairs context s =
      if budgetConvergenceActive s (s.run context) then
        some (budgetToolCallRoute s last (s.run context))
      else incrementalToolRoute texts s last (s.run context) := by
  unfold afterModel
  rw [hlast]
  dsimp only
  rw [if_neg (not_not.mpr hai), if_neg (not_not.mpr hvalid), if_pos hcalls]
  rfl

/-- An output without tool calls is left to the checks. -/
theorem afterModel_of_output {last : Message} (hlast : s.messages.getLast? = some last)
    (hai : last.type = .ai) (hvalid : last.invalidToolCalls = []) (hcalls : last.toolCalls = []) :
    afterModel texts maxVerificationRepairs context s =
      some (acceptanceRoute texts maxVerificationRepairs context s last (s.run context)) := by
  unfold afterModel
  rw [hlast]
  simp [hai, hvalid, hcalls, ThreadState.run]

/-- The router decides final exactly when nothing is missing in what it reads. -/
theorem final_iff_complete : (∃ update,
    afterModel texts maxVerificationRepairs context s = some update ∧
      update.completionRoute.decision = .final) ↔ Complete texts context s := by
  constructor
  · rintro ⟨update, h, hfinal⟩
    cases hlast : s.messages.getLast? with
    | none =>
        unfold afterModel at h
        rw [hlast] at h
        cases h
    | some last =>
        by_cases hai : last.type = .ai
        · by_cases hvalid : last.invalidToolCalls = []
          · by_cases hcalls : last.toolCalls = []
            · rw [afterModel_of_output hlast hai hvalid hcalls] at h
              cases h
              obtain ⟨houtput, hquestion, hplan, htools, hverified⟩ :=
                acceptanceRoute_final_iff.mp hfinal
              obtain ⟨hreason, hvisible⟩ := outputRoute_eq_none_iff.mp houtput
              exact {
                answer := ⟨last, hlast, hai, hvalid, hcalls, hreason, hvisible,
                  clarificationRoute_eq_none_iff.mp hquestion⟩
                plan := planRoute_eq_none_iff.mp hplan
                tools := requiredToolRoute_eq_none_iff.mp htools
                verification := hverified }
            · rw [afterModel_of_calls hlast hai hvalid hcalls] at h
              split at h
              · cases h
                exact absurd hfinal budgetToolCallRoute_ne_final
              · exact absurd hfinal (incrementalToolRoute_ne_final h)
          · rw [afterModel_of_invalid hlast hai hvalid] at h
            cases h
            simp [terminalRoute, Update.ofRoute] at hfinal
        · rw [afterModel_of_other hlast hai] at h
          cases h
  · rintro ⟨⟨last, hlast, hanswer⟩, hplan, htools, hverified⟩
    refine ⟨_, afterModel_of_output hlast hanswer.ai hanswer.valid hanswer.calls, ?_⟩
    exact acceptanceRoute_final_iff.mpr ⟨outputRoute_eq_none_iff.mpr ⟨hanswer.reason,
      hanswer.visible⟩, clarificationRoute_eq_none_iff.mpr hanswer.answers,
      planRoute_eq_none_iff.mpr hplan, requiredToolRoute_eq_none_iff.mpr htools, hverified⟩

/-! ## The evidence of a final decision -/

/-- The tools that are not missing, when the task input is in the history. -/
theorem called_of_not_missing {messages : List Message} {requiredTools : List String}
    (h : missingRequiredTools messages requiredTools run = [])
    (hinput : ∃ m ∈ messages, m.isTaskInputOf run = true) :
    ∀ name ∈ requiredTools, ∃ before input after, messages = before ++ input :: after ∧
      input.isTaskInputOf run = true ∧ (∀ m ∈ after, m.isTaskInputOf run = false) ∧
      ∃ m ∈ after, m.type = .tool ∧ m.name = name := by
  intro name hname
  cases hturn : fromLast (Message.isTaskInputOf run) messages with
  | none =>
      obtain ⟨m, hm, hinput⟩ := hinput
      rw [fromLast_eq_none.mp hturn m hm] at hinput
      cases hinput
  | some tail =>
      obtain ⟨before, input, after, hmessages, rfl, hinput, hlater⟩ := fromLast_eq_some.mp hturn
      refine ⟨before, input, after, hmessages, hinput, hlater, ?_⟩
      have hcalled := List.filter_eq_nil_iff.mp h name hname
      simpa [hturn] using hcalled

/-- The latest verification of a turn is the one with none after it. -/
theorem latest_eq {messages before after : List Message} {v : Message}
    (hturn : currentTurn messages = before ++ v :: after) (hv : isVerification v = true)
    (hlast : ∀ m ∈ after, isVerification m = false) :
    fromLast isVerification (currentTurn messages) = some (v :: after) :=
  fromLast_eq_some.mpr ⟨before, v, after, hturn, rfl, hv, hlast⟩

theorem verified_of_latest {messages before after : List Message} {v : Message}
    (h : ∀ verification, latestTaskVerification texts messages = some verification →
      verification.ok = true)
    (hturn : currentTurn messages = before ++ v :: after) (hv : isVerification v = true)
    (hlast : ∀ m ∈ after, isVerification m = false) :
    reportsOk texts v = true ∧ ∀ m ∈ after, invalidates m = false := by
  have hlatest := latest_eq hturn hv hlast
  unfold latestTaskVerification at h
  rw [hlatest] at h
  dsimp only at h
  split at h
  · have hok := h _ rfl
    cases hok
  · split at h
    · rename_i hok
      split at h
      · have hok' := h _ rfl
        cases hok'
      · rename_i hvalid
        refine ⟨hok, ?_⟩
        have hnone := Option.map_eq_none_iff.mp hvalid
        simpa using List.find?_eq_none.mp hnone
    · have hok := h _ rfl
      cases hok

/-- What is complete in what the router reads is evidence of the run exactly
when the task input of the run is in the history and the run has written the
plan it needs. -/
theorem Complete.accepted_iff (h : Complete texts context s) : Accepted texts context s ↔
    (context.requiredTools ≠ [] → ∃ m ∈ s.messages, m.isTaskInputOf (s.run context) = true) ∧
      ((incrementalConfig s (s.run context)).isSome = true →
        s.todosRun = some (s.run context)) := by
  constructor
  · rintro ⟨hcalled, _, hplanned⟩
    refine ⟨?_, fun hincremental ↦ (hplanned hincremental).1⟩
    intro hsome
    obtain ⟨name, hname⟩ := List.exists_mem_of_ne_nil _ hsome
    obtain ⟨before, input, after, hmessages, hinput, _⟩ := hcalled name hname
    exact ⟨input, by simp [hmessages], hinput⟩
  · rintro ⟨hinput, howned⟩
    refine ⟨?_, fun before v after ↦ verified_of_latest h.verification, ?_⟩
    · intro name hname
      exact called_of_not_missing h.tools (hinput (List.ne_nil_of_mem hname)) name hname
    · intro hincremental
      exact ⟨howned hincremental, h.plan hincremental⟩

end ShejaneRuntime.Completion
