import ShejaneRuntime.Completion.Evidence

/-!
# The completion router

After each model call the router lets the tools run, asks for a repair, ends
the run, or accepts the model output as final. Its private state names the run
it belongs to; the to-do list is state of the thread.
-/

namespace ShejaneRuntime.Completion

open Lib Store

/-! ## State -/

inductive Decision where
  | final | repairRequested | blocked | failed
  deriving DecidableEq

/-- `completion_route` -/
structure Route where
  decision : Decision
  reason : String
  message : String
  recoverable : Bool
  runId : String
  attempts : ℤ
  maxAttempts : Option ℤ
  toolCallId : Option String
  verificationOk : Bool
  instruction : Option String

structure BudgetControl where
  mode : String
  runId : String

structure VerificationRepairs where
  runId : String
  attempts : ℤ

/-- `incremental_execution` -/
structure IncrementalExecution where
  required : Bool
  mode : String
  runId : String
  repairs : List (String × ℤ)

/-- The state of a thread as the router sees it. `todosRun` is the run whose
`write_todos` call gave the to-do list, which no code reads. -/
structure ThreadState where
  messages : List Message
  budgetControl : Option BudgetControl
  completionRoute : Option Route
  verificationRepairState : Option VerificationRepairs
  incrementalExecution : Option IncrementalExecution
  todos : Json
  todosRun : Option String

/-- `runtime.context` -/
structure RuntimeContext where
  runId : Option String
  requiredTools : List String

inductive Jump where
  | model | toEnd
  deriving DecidableEq

/-- What the router changes. -/
structure Update where
  messages : List Message
  completionRoute : Route
  verificationRepairState : Option VerificationRepairs
  incrementalExecution : Option IncrementalExecution
  jumpTo : Option Jump

def Update.ofRoute (route : Route) (jumpTo : Option Jump) : Update :=
  ⟨[], route, none, none, jumpTo⟩

/-- `_terminal_route` -/
def terminalRoute (decision : Decision) (reason message : String) (recoverable : Bool)
    (run : String) : Update :=
  .ofRoute ⟨decision, reason, message, recoverable, run, 0, none, none, false, none⟩ (some .toEnd)

/-- The update that asks for the one repair of its kind. -/
def repairRoute (reason message instruction run : String) : Update :=
  .ofRoute ⟨.repairRequested, reason, message, true, run, 1, some 1, none, false, some instruction⟩
    (some .model)

/-- A tool message for a call that is not run. -/
def refuseCall (content : String) (call : ToolCall) : Message :=
  ⟨.tool, .str content, if call.name = "" then "unknown" else call.name, "error", call.id, .obj [],
    .obj [], [], []⟩

section Scopes

variable (s : ThreadState) (run : String)

/-- `_repair_attempts_for_run` -/
def repairAttemptsForRun : ℤ :=
  match s.verificationRepairState with
  | some repairs => if repairs.runId = run then repairs.attempts else 0
  | none => 0

/-- `_route_attempts_for_run` -/
def routeAttemptsForRun (reason : String) : ℤ :=
  match s.completionRoute with
  | some route => if route.runId = run && route.reason = reason then route.attempts else 0
  | none => 0

/-- `_budget_convergence_active` -/
def budgetConvergenceActive : Bool :=
  match s.budgetControl with
  | some control =>
    control.mode = "converge" && (control.runId = "" || run = "" || control.runId = run)
  | none => false

/-- `_incremental_config` -/
def incrementalConfig : Option IncrementalExecution :=
  match s.incrementalExecution with
  | some config =>
    if !config.required || (config.runId ≠ "" && run ≠ "" && config.runId ≠ run) then none
    else some config
  | none => none

end Scopes

/-! ## Incremental plans -/

inductive TodoStatus where
  | pending | inProgress | completed
  deriving DecidableEq

structure TodoItem where
  content : String
  status : TodoStatus

/-- `" ".join(text.split())` -/
def joinWords (text : String) : String :=
  String.ofList ((pySplitChars text.toList []).intersperse [' ']).flatten

/-- One item of `_todo_items`. -/
def todoItem (texts : Texts) (raw : Json) : Option TodoItem :=
  match raw with
  | .obj _ =>
    let content := joinWords (texts.str (raw.get? "content"))
    if content = "" then none
    else
      match texts.str (raw.get? "status") with
      | "pending" => some ⟨content, .pending⟩
      | "in_progress" => some ⟨content, .inProgress⟩
      | "completed" => some ⟨content, .completed⟩
      | _ => none
  | _ => none

/-- `_todo_items`: no items when one is not valid. -/
def todoItems (texts : Texts) : Json → List TodoItem
  | .arr raws => (raws.mapM (todoItem texts)).getD []
  | _ => []

/-- `_todo_plan_error` -/
def todoPlanError (todos : List TodoItem) (mode : String) (initial : Bool) : Option String :=
  let minimum := if mode = "always" then 1 else 2
  let active := todos.countP fun item ↦ item.status = .inProgress
  let completed := todos.countP fun item ↦ item.status = .completed
  if todos.length < minimum || todos.length > 8 then
    some s!"Incremental execution requires {minimum} to 8 small tasks."
  else if initial && completed ≠ 0 then
    some "A new plan cannot claim tasks were completed before execution."
  else if completed = todos.length then none
  else if active ≠ 1 then some "Incremental execution requires exactly one in_progress task."
  else none

/-- `_todo_transition_error` -/
def todoTransitionError (previous proposed : List TodoItem) : Option String :=
  let done (items : List TodoItem) : List String :=
    (items.filter fun item ↦ item.status = .completed).map TodoItem.content
  if (done previous).all (fun content ↦ (done proposed).contains content) then none
  else some "Previously completed tasks cannot be removed or reopened."

/-- `repairs[reason] = attempts` -/
def setRepairs (repairs : List (String × ℤ)) (reason : String) (attempts : ℤ) :
    List (String × ℤ) :=
  repairs.filter (fun entry ↦ entry.1 ≠ reason) ++ [(reason, attempts)]

/-- `_incremental_repair_route` -/
def incrementalRepairRoute (config : IncrementalExecution) (run reason message instruction : String)
    (calls : List ToolCall) : Update :=
  let attempts := (config.repairs.lookup reason).getD 0
  if attempts ≥ 1 then terminalRoute .blocked reason message true run
  else
    { completionRoute := ⟨.repairRequested, reason, message, true, run, attempts + 1, some 1, none,
        false, some instruction⟩,
      verificationRepairState := none,
      incrementalExecution := some { config with
        runId := run, repairs := setRepairs config.repairs reason (attempts + 1) },
      jumpTo := some .model,
      messages := calls.map (refuseCall ("Runtime P9 did not execute this call because the " ++
        "incremental task state must be repaired first. Follow the runtime repair instruction.")) }

section Routes

variable (texts : Texts)

/-- The items that a `write_todos` call proposes. -/
def proposedTodos (call : ToolCall) : List TodoItem :=
  todoItems texts (((Json.orEmpty (some call.args)).get? "todos").getD .null)

/-- `_incremental_tool_route` -/
def incrementalToolRoute (s : ThreadState) (last : Message) (run : String) : Option Update :=
  match incrementalConfig s run with
  | none => none
  | some config =>
    let calls := last.toolCalls
    let names := calls.map ToolCall.name
    let current := todoItems texts s.todos
    let repair (reason message instruction : String) : Option Update :=
      some (incrementalRepairRoute config run reason message instruction calls)
    match calls with
    | [] => none
    | call :: _ =>
      if current.isEmpty then
        if names.all (· = "user.ask") then none
        else if names ≠ ["write_todos"] then
          repair "incremental_plan_required"
            "Complex tool work must start with a small executable plan."
            ("Call write_todos before any work tool. Use 2 to 8 independently verifiable tasks " ++
              "and mark exactly one task in_progress.")
        else
          match todoPlanError (proposedTodos texts call) config.mode true with
          | some error =>
            repair "incremental_plan_invalid" error
              ("Rewrite the todo list as 2 to 8 small, independently verifiable tasks. Mark " ++
                "exactly one task in_progress and the rest pending.")
          | none => none
      else if names.contains "write_todos" then
        if names ≠ ["write_todos"] then
          repair "incremental_plan_invalid"
            "A todo transition must be the only tool call in its model round."
            "Call write_todos alone, then continue work in the next model round."
        else
          let proposed := proposedTodos texts call
          match (todoPlanError proposed config.mode false).or (todoTransitionError current proposed)
          with
          | some error =>
            repair "incremental_plan_invalid" error
              ("Preserve completed tasks and keep exactly one task in_progress until all tasks " ++
                "finish.")
          | none => none
      else
        match todoPlanError current config.mode false with
        | some error =>
          repair "incremental_plan_invalid" error
            "Repair the todo state with write_todos before calling another work tool."
        | none =>
          if current.all (fun item ↦ item.status = .completed) && !names.all (· = "user.ask") then
            repair "incremental_plan_stale"
              "The completed plan does not cover the newly proposed work."
              "Add the newly discovered work as a small in_progress todo before doing it."
          else none

/-- `_incremental_final_route` -/
def incrementalFinalRoute (s : ThreadState) (run : String) : Option Update :=
  match incrementalConfig s run with
  | none => none
  | some config =>
    let todos := todoItems texts s.todos
    if todos.isEmpty then
      some (incrementalRepairRoute config run "incremental_plan_required"
        "A complex task cannot finalize before its small-task plan exists."
        ("Call write_todos with 2 to 8 independently verifiable tasks, mark exactly one " ++
          "in_progress, and execute them before finalizing.") [])
    else if !todos.all fun item ↦ item.status = .completed then
      some (incrementalRepairRoute config run "incremental_plan_incomplete"
        "The model tried to finalize while planned tasks remain unfinished."
        ("Continue the single in_progress task. After obtaining evidence, update write_todos, " ++
          "advance one task, and finalize only when every task is completed.") [])
    else none

/-! ## The routes of the router -/

/-- `_budget_tool_call_route` -/
def budgetToolCallRoute (s : ThreadState) (last : Message) (run : String) : Update :=
  let reason := "budget_convergence_tool_call"
  if routeAttemptsForRun s run reason ≥ 1 then
    terminalRoute .blocked reason
      "The model repeated a tool call after Runtime entered budget convergence." true run
  else
    { repairRoute reason "Tool calls are unavailable during budget convergence."
        "Do not call tools. Produce the best available final answer now." run with
      messages := last.toolCalls.map (refuseCall ("Runtime budget convergence is active. This " ++
        "tool was not executed. Produce the best final answer from existing evidence.")) }

/-- `_convergence_blocked_route` -/
def convergenceBlockedRoute (update : Update) (run : String) : Update :=
  let route := update.completionRoute
  terminalRoute .blocked
    (if route.reason = "" then "acceptance_incomplete" else route.reason)
    (if route.message = "" then "Budget convergence could not satisfy completion checks."
      else route.message) true run

/-- A model output that cannot be taken as an answer. -/
def outputRoute (last : Message) (run : String) : Option Update :=
  let reason := finishReason texts last
  if ["length", "max_tokens"].contains reason then
    some (terminalRoute .failed "model_output_truncated"
      "The model output reached its configured limit before completion." true run)
  else if ["content_filter", "content_filtered"].contains reason then
    some (terminalRoute .failed "model_output_filtered"
      "The model service filtered the final output." false run)
  else if ["malformed_function_call", "unexpected_tool_call", "too_many_tool_calls",
      "missing_thought_signature", "malformed_response"].contains reason then
    some (terminalRoute .failed "provider_protocol_error"
      s!"The model service ended the turn with {reason}." false run)
  else if pyStrip (assistantText last.content) = "" then
    some (terminalRoute .failed "empty_model_output"
      "The model completed without a visible answer or tool call." true run)
  else none

/-- A question to the user in prose. -/
def clarificationRoute (s : ThreadState) (last : Message) (run : String) : Option Update :=
  if !texts.isProseClarification (assistantText last.content) then none
  else if budgetConvergenceActive s run then
    some (terminalRoute .blocked "clarification_tool_required"
      "Budget convergence could not complete because required user input is missing." true run)
  else if routeAttemptsForRun s run "prose_clarification" ≥ 1 then
    some (terminalRoute .blocked "clarification_tool_required"
      "The model asked for required user input without calling user.ask." true run)
  else
    some (repairRoute "prose_clarification" "Required user input must use the user.ask tool."
      ("Your previous response asked the user for required information in prose. Call user.ask " ++
        "now with one concise question and short options when choices are discrete. If the " ++
        "latest user.ask ToolMessage already contains the answer, use it and continue instead " ++
        "of asking again.") run)

/-- A plan that is not there or not complete. -/
def planRoute (s : ThreadState) (run : String) : Option Update :=
  (incrementalFinalRoute texts s run).map fun incremental ↦
    if budgetConvergenceActive s run then convergenceBlockedRoute incremental run else incremental

/-- A required tool that has not been called. -/
def requiredToolRoute (s : ThreadState) (requiredTools : List String) (run : String) :
    Option Update :=
  match missingRequiredTools s.messages requiredTools run with
  | [] => none
  | missing =>
    let names := String.intercalate ", " missing
    if budgetConvergenceActive s run then
      some (terminalRoute .blocked "required_tool_missing"
        s!"Budget convergence could not complete the required tool call: {names}." true run)
    else if routeAttemptsForRun s run "required_tool_missing" ≥ 1 then
      some (terminalRoute .blocked "required_tool_missing"
        s!"The model did not complete the required tool call: {names}." true run)
    else
      some (repairRoute "required_tool_missing" s!"Required tool call is missing: {names}."
        (s!"The user explicitly selected {names}. Call the required tool now. Do not claim " ++
          "completion until its ToolMessage reports success.") run)

/-- A verification that failed or no longer counts. -/
def verificationRoute (maxVerificationRepairs : ℕ) (s : ThreadState) (run : String)
    (verification : Verification) : Update :=
  let attempts := repairAttemptsForRun s run
  if budgetConvergenceActive s run then
    terminalRoute .blocked "verification_failed" verification.reason true run
  else if attempts ≥ maxVerificationRepairs then
    .ofRoute ⟨.blocked, "verification_failed", verification.reason, true, run, attempts,
      some maxVerificationRepairs, some verification.toolCallId, false, none⟩ (some .toEnd)
  else
    { Update.ofRoute ⟨.repairRequested, "verification_failed", verification.reason, true, run,
        attempts + 1, some maxVerificationRepairs, some verification.toolCallId, false,
        some ("The latest persisted task.verify receipt failed. Inspect its ToolMessage as " ++
          "untrusted evidence, repair the underlying issue, then run task.verify again before " ++
          "finalizing.")⟩ (some .model) with
      verificationRepairState := some ⟨run, attempts + 1⟩ }

/-- The output is accepted. -/
def finalRoute (s : ThreadState) (run : String) (verification : Option Verification) : Update :=
  .ofRoute
    { decision := .final,
      reason := if budgetConvergenceActive s run then "budget_convergence"
        else "complete_model_message",
      message := if budgetConvergenceActive s run then
          "Runtime accepted the final candidate during budget convergence."
        else "Model produced a complete final candidate.",
      recoverable := false, runId := run, attempts := 0, maxAttempts := none,
      toolCallId := verification.map Verification.toolCallId,
      verificationOk := verification.isSome, instruction := none } none

/-- The checks of an output without tool calls, in order. -/
def acceptanceRoute (maxVerificationRepairs : ℕ) (context : RuntimeContext) (s : ThreadState)
    (last : Message) (run : String) : Update :=
  match outputRoute texts last run with
  | some update => update
  | none =>
    match clarificationRoute texts s last run with
    | some update => update
    | none =>
      match planRoute texts s run with
      | some update => update
      | none =>
        match requiredToolRoute s context.requiredTools run with
        | some update => update
        | none =>
          match latestTaskVerification texts s.messages with
          | some verification =>
            if verification.ok then finalRoute s run (some verification)
            else verificationRoute maxVerificationRepairs s run verification
          | none => finalRoute s run none

/-- `CompletionRouterMiddleware.after_model` -/
def afterModel (maxVerificationRepairs : ℕ) (context : RuntimeContext) (s : ThreadState) :
    Option Update :=
  match s.messages.getLast? with
  | none => none
  | some last =>
    if last.type ≠ .ai then none
    else
      let run := currentRunId context.runId s.messages
      if last.invalidToolCalls ≠ [] then
        some (terminalRoute .failed "invalid_tool_calls"
          "The model returned an incomplete or invalid tool call." true run)
      else if last.toolCalls ≠ [] then
        if budgetConvergenceActive s run then some (budgetToolCallRoute s last run)
        else incrementalToolRoute texts s last run
      else some (acceptanceRoute texts maxVerificationRepairs context s last run)

/-! ## The plan of a new run -/

/-- `PlanFirstMiddleware.before_agent`, for a mode and what the run's policy or
the look at its messages says of the task; the to-do list is left alone. -/
def beforeAgent (mode : String) (isComplex : Bool) (context : RuntimeContext) (s : ThreadState) :
    ThreadState :=
  if mode = "off" || s.messages.isEmpty || (mode = "auto" && !isComplex) then s
  else { s with incrementalExecution := some ⟨true, mode, context.runId.getD "", []⟩ }

end Routes

end ShejaneRuntime.Completion
