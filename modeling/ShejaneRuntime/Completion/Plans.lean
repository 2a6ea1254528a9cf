import ShejaneRuntime.Completion.Router

/-!
# What a decision takes from the plan

Which to-do list the thread has decides what becomes of the tool calls and of
an answer, except that a second plan which is invalid whatever the list says
ends the run.
-/

namespace ShejaneRuntime.Completion

open Store

/-- A second plan that is invalid whatever the to-do list says. -/
def IsRefusedPlan (texts : Texts) (config : IncrementalExecution) (calls : List ToolCall) : Prop :=
  1 ≤ (config.repairs.lookup "incremental_plan_invalid").getD 0 ∧
    ∃ call error, calls = [call] ∧ call.name = "write_todos" ∧
      todoPlanError (proposedTodos texts call) config.mode true = some error ∧
      todoPlanError (proposedTodos texts call) config.mode false = some error

def TodoStatus.label : TodoStatus → String
  | .pending => "pending"
  | .inProgress => "in_progress"
  | .completed => "completed"

/-- The to-do list that `write_todos` leaves for the items. -/
def todosOf (items : List TodoItem) : Json :=
  .arr (items.map fun item ↦
    .obj [("content", .str item.content), ("status", .str item.status.label)])

/-- The state with another to-do list. -/
def ThreadState.withTodos (s : ThreadState) (items : List TodoItem) : ThreadState :=
  { s with todos := todosOf items }

/-- What the model is told of an invalid first plan, and of an invalid later one. -/
def rewritePlan : String :=
  "Rewrite the todo list as 2 to 8 small, independently verifiable tasks. Mark " ++
    "exactly one task in_progress and the rest pending."

def preservePlan : String :=
  "Preserve completed tasks and keep exactly one task in_progress until all tasks " ++
    "finish."

variable {texts : Texts} {s : ThreadState} {config : IncrementalExecution} {last : Message}
  {call : ToolCall} {calls : List ToolCall} {run : String} {items : List TodoItem}

/-! ## To-do lists -/

theorem Texts.str_str (text : String) : texts.str (some (.str text)) = text := by
  simp only [Texts.str, Json.textOrEmpty, Json.truthy]
  by_cases h : text = ""
  · simp [h]
  · simp [h]

theorem todoItem_of_item {item : TodoItem} (hword : joinWords item.content = item.content)
    (hne : item.content ≠ "") : todoItem texts
      (.obj [("content", .str item.content), ("status", .str item.status.label)]) = some item := by
  obtain ⟨content, status⟩ := item
  have hcontent : texts.str (Json.get? (.obj [("content", .str content),
      ("status", .str status.label)]) "content") = content := Texts.str_str content
  have hstatus : texts.str (Json.get? (.obj [("content", .str content),
      ("status", .str status.label)]) "status") = status.label := Texts.str_str status.label
  unfold todoItem
  simp only [hcontent, hstatus, hword, if_neg hne]
  cases status
  all_goals rfl

theorem todoItems_todosOf {items : List TodoItem}
    (h : ∀ item ∈ items, joinWords item.content = item.content ∧ item.content ≠ "") :
    todoItems texts (todosOf items) = items := by
  have hall : ∀ {rest : List TodoItem},
      (∀ item ∈ rest, joinWords item.content = item.content ∧ item.content ≠ "") →
      (rest.map fun item ↦ Json.obj [("content", .str item.content),
        ("status", .str item.status.label)]).mapM (todoItem texts) = some rest := by
    intro rest hrest
    induction rest with
    | nil => rfl
    | cons item rest ih =>
        obtain ⟨hword, hne⟩ := hrest item List.mem_cons_self
        rw [List.map_cons, List.mapM_cons, todoItem_of_item hword hne,
          ih fun other hother ↦ hrest other (List.mem_cons_of_mem _ hother)]
        rfl
  unfold todosOf todoItems
  simp only
  rw [hall h]
  rfl

theorem joinWords_a : joinWords "a" = "a" := by decide +kernel

theorem todoItems_none : todoItems texts (s.withTodos []).todos = [] :=
  todoItems_todosOf (by simp)

theorem todoItems_pending :
    todoItems texts (s.withTodos [⟨"a", .pending⟩]).todos = [⟨"a", .pending⟩] :=
  todoItems_todosOf (by simp [joinWords_a])

theorem todoItems_completed :
    todoItems texts (s.withTodos [⟨"a", .completed⟩]).todos = [⟨"a", .completed⟩] :=
  todoItems_todosOf (by simp [joinWords_a])

theorem todoItems_underway :
    todoItems texts (s.withTodos [⟨"a", .inProgress⟩, ⟨"a", .pending⟩]).todos =
      [⟨"a", .inProgress⟩, ⟨"a", .pending⟩] :=
  todoItems_todosOf (by simp [joinWords_a])

theorem todoPlanError_pending (mode : String) :
    ∃ error, todoPlanError [⟨"a", .pending⟩] mode false = some error := by
  unfold todoPlanError
  by_cases hmode : mode = "always"
  · simp [hmode]
  · simp [hmode]

theorem todoPlanError_underway (mode : String) :
    todoPlanError [⟨"a", .inProgress⟩, ⟨"a", .pending⟩] mode false = none := by
  unfold todoPlanError
  by_cases hmode : mode = "always"
  · simp [hmode]
  · simp [hmode]

/-- A new plan that is accepted claims no task as completed. -/
theorem completed_of_initial {items : List TodoItem} {mode : String}
    (h : todoPlanError items mode true = none) :
    items.filter (fun item ↦ item.status = .completed) = [] := by
  cases hcompleted : items.filter (fun item ↦ item.status = .completed) with
  | nil => rfl
  | cons item rest =>
      have hcount : items.countP (fun item ↦ decide (item.status = .completed)) ≠ 0 := by
        rw [List.countP_eq_length_filter, hcompleted]
        exact Nat.succ_ne_zero _
      unfold todoPlanError at h
      simp only [hcount, Bool.true_and, ne_eq, not_false_eq_true, decide_true, if_true] at h
      generalize (if mode = "always" then 1 else 2) = minimum at h
      split at h
      all_goals cases h

theorem incrementalRepairRoute_reason {config : IncrementalExecution}
    {run reason message instruction : String} {calls : List ToolCall} :
    (incrementalRepairRoute config run reason message instruction calls).completionRoute.reason =
      reason := by
  unfold incrementalRepairRoute
  dsimp only
  split
  all_goals rfl

theorem incrementalRepairRoute_message {config : IncrementalExecution}
    {run reason message instruction : String} {calls : List ToolCall} :
    (incrementalRepairRoute config run reason message instruction calls).completionRoute.message =
      message := by
  unfold incrementalRepairRoute
  dsimp only
  split
  all_goals rfl

/-! ## Tool calls -/

/-- Without a plan only questions are let through. -/
theorem toolRoute_of_ask (hconfig : incrementalConfig s run = some config)
    (hcalls : last.toolCalls = call :: calls) (hitems : todoItems texts s.todos = [])
    (hask : ∀ c ∈ last.toolCalls, c.name = "user.ask") :
    incrementalToolRoute texts s last run = none := by
  have hnames : (last.toolCalls.map ToolCall.name).all (· = "user.ask") = true := by
    simpa using hask
  unfold incrementalToolRoute
  rw [hconfig]
  rw [hcalls] at hnames ⊢
  dsimp only
  rw [hitems, if_pos List.isEmpty_nil, if_pos hnames]

theorem toolRoute_required (hconfig : incrementalConfig s run = some config)
    (hcalls : last.toolCalls = call :: calls) (hitems : todoItems texts s.todos = [])
    (hask : ¬∀ c ∈ last.toolCalls, c.name = "user.ask")
    (hplan : last.toolCalls.map ToolCall.name ≠ ["write_todos"]) : ∃ update,
      incrementalToolRoute texts s last run = some update ∧
        update.completionRoute.reason = "incremental_plan_required" := by
  have hnames : ¬(last.toolCalls.map ToolCall.name).all (· = "user.ask") = true := by
    simpa using hask
  unfold incrementalToolRoute
  rw [hconfig]
  rw [hcalls] at hnames hplan ⊢
  dsimp only
  rw [hitems, if_pos List.isEmpty_nil, if_neg hnames, if_pos hplan]
  exact ⟨_, rfl, incrementalRepairRoute_reason⟩

/-- A first plan is checked as it stands. -/
theorem toolRoute_initial (hconfig : incrementalConfig s run = some config)
    (hcalls : last.toolCalls = [call]) (hitems : todoItems texts s.todos = [])
    (hname : call.name = "write_todos") : incrementalToolRoute texts s last run =
      (todoPlanError (proposedTodos texts call) config.mode true).map fun error ↦
        incrementalRepairRoute config run "incremental_plan_invalid" error rewritePlan [call] := by
  unfold incrementalToolRoute
  rw [hconfig, hcalls]
  dsimp only
  rw [hitems, if_pos List.isEmpty_nil, List.map_singleton, hname, if_neg (by decide),
    if_neg (by simp)]
  cases todoPlanError (proposedTodos texts call) config.mode true
  all_goals rfl

/-- A later plan also keeps what was completed. -/
theorem toolRoute_transition (hconfig : incrementalConfig s run = some config)
    (hcalls : last.toolCalls = [call]) (hitems : todoItems texts s.todos = items)
    (hsome : items ≠ []) (hname : call.name = "write_todos") :
    incrementalToolRoute texts s last run =
      ((todoPlanError (proposedTodos texts call) config.mode false).or
        (todoTransitionError items (proposedTodos texts call))).map fun error ↦
          incrementalRepairRoute config run "incremental_plan_invalid" error preservePlan [call] := by
  have hempty : ¬items.isEmpty = true := by simpa using hsome
  unfold incrementalToolRoute
  rw [hconfig, hcalls]
  dsimp only
  rw [hitems, if_neg hempty, List.map_singleton, hname, if_pos (by decide), if_neg (by simp)]
  cases (todoPlanError (proposedTodos texts call) config.mode false).or
    (todoTransitionError items (proposedTodos texts call))
  all_goals rfl

theorem toolRoute_mixed (hconfig : incrementalConfig s run = some config)
    (hcalls : last.toolCalls = call :: calls) (hitems : todoItems texts s.todos = items)
    (hsome : items ≠ [])
    (hplan : "write_todos" ∈ last.toolCalls.map ToolCall.name)
    (hmixed : last.toolCalls.map ToolCall.name ≠ ["write_todos"]) : ∃ update,
      incrementalToolRoute texts s last run = some update ∧
        update.completionRoute.reason = "incremental_plan_invalid" := by
  have hempty : ¬items.isEmpty = true := by simpa using hsome
  have hcontains : (last.toolCalls.map ToolCall.name).contains "write_todos" = true := by
    simpa using hplan
  unfold incrementalToolRoute
  rw [hconfig]
  rw [hcalls] at hcontains hmixed ⊢
  dsimp only
  rw [hitems, if_neg hempty, if_pos hcontains, if_pos hmixed]
  exact ⟨_, rfl, incrementalRepairRoute_reason⟩

/-- Work is held against the plan as it stands. -/
theorem toolRoute_work (hconfig : incrementalConfig s run = some config)
    (hcalls : last.toolCalls = call :: calls) (hitems : todoItems texts s.todos = items)
    (hsome : items ≠ []) (hplan : "write_todos" ∉ last.toolCalls.map ToolCall.name)
    (hopen : ¬∀ item ∈ items, item.status = .completed) :
    (incrementalToolRoute texts s last run).isSome =
      (todoPlanError items config.mode false).isSome := by
  have hempty : ¬items.isEmpty = true := by simpa using hsome
  have hcontains : ¬(last.toolCalls.map ToolCall.name).contains "write_todos" = true := by
    simpa using hplan
  have hall : items.all (fun item ↦ decide (item.status = .completed)) = false := by
    simpa using hopen
  unfold incrementalToolRoute
  rw [hconfig]
  rw [hcalls] at hcontains ⊢
  dsimp only
  rw [hitems, if_neg hempty, if_neg hcontains]
  cases todoPlanError items config.mode false with
  | some error => rfl
  | none =>
      dsimp only
      rw [hall]
      rfl

/-- A second plan that is invalid whatever the list says ends the run. -/
theorem incrementalToolRoute_of_refused {error : String}
    (hconfig : incrementalConfig s run = some config)
    (hattempts : 1 ≤ (config.repairs.lookup "incremental_plan_invalid").getD 0)
    (hcalls : last.toolCalls = [call]) (hname : call.name = "write_todos")
    (hinitial : todoPlanError (proposedTodos texts call) config.mode true = some error)
    (herror : todoPlanError (proposedTodos texts call) config.mode false = some error) :
    incrementalToolRoute texts s last run =
      some (terminalRoute .blocked "incremental_plan_invalid" error true run) := by
  have hroute : ∀ instruction, incrementalRepairRoute config run "incremental_plan_invalid" error
      instruction [call] = terminalRoute .blocked "incremental_plan_invalid" error true run :=
    fun _ ↦ if_pos hattempts
  by_cases hitems : todoItems texts s.todos = []
  · rw [toolRoute_initial hconfig hcalls hitems hname, hinitial, Option.map_some, hroute]
  · rw [toolRoute_transition hconfig hcalls rfl hitems hname, herror, Option.some_or,
      Option.map_some, hroute]

/-! ## A plan that is looked at matters -/

/-- A question is let through before there is a plan, but not with an invalid one. -/
theorem exists_items_of_ask (hconfig : incrementalConfig s run = some config)
    (hcalls : last.toolCalls = call :: calls) (hask : ∀ c ∈ last.toolCalls, c.name = "user.ask") :
    ∃ items items', incrementalToolRoute texts (s.withTodos items) last run ≠
      incrementalToolRoute texts (s.withTodos items') last run := by
  have hplan : "write_todos" ∉ last.toolCalls.map ToolCall.name := by
    intro hmem
    obtain ⟨c, hc, hname⟩ := List.mem_map.mp hmem
    rw [hask c hc] at hname
    exact absurd hname (by decide)
  refine ⟨[], [⟨"a", .pending⟩], ?_⟩
  intro heq
  have hsome : (incrementalToolRoute texts (s.withTodos [⟨"a", .pending⟩]) last run).isSome = _ :=
    toolRoute_work hconfig hcalls todoItems_pending (by simp) hplan (by simp)
  obtain ⟨error, herror⟩ := todoPlanError_pending config.mode
  rw [← heq, toolRoute_of_ask (s := s.withTodos []) hconfig hcalls todoItems_none hask,
    herror] at hsome
  cases hsome

/-- A plan that is not refused whatever the to-do list says depends on it. -/
theorem exists_items_of_plan (hconfig : incrementalConfig s run = some config)
    (hcalls : last.toolCalls = [call]) (hname : call.name = "write_todos")
    (hopen : ¬IsRefusedPlan texts config last.toolCalls) :
    ∃ items items', incrementalToolRoute texts (s.withTodos items) last run ≠
      incrementalToolRoute texts (s.withTodos items') last run := by
  have hinitial : incrementalToolRoute texts (s.withTodos []) last run = _ :=
    toolRoute_initial hconfig hcalls todoItems_none hname
  cases herror : todoPlanError (proposedTodos texts call) config.mode true with
  | none =>
      -- A plan with nothing completed may come first, but not after a completed task.
      refine ⟨[], [⟨"a", .completed⟩], ?_⟩
      rw [hinitial, herror, toolRoute_transition (s := s.withTodos [⟨"a", .completed⟩]) hconfig
        hcalls todoItems_completed (by simp) hname]
      intro heq
      have hor := Option.map_eq_none_iff.mp heq.symm
      have htransition := (Option.or_eq_none_iff.mp hor).2
      simp only [todoTransitionError, completed_of_initial herror] at htransition
      simp at htransition
  | some error =>
      refine ⟨[], [⟨"a", .pending⟩], ?_⟩
      rw [hinitial, herror, toolRoute_transition (s := s.withTodos [⟨"a", .pending⟩]) hconfig
        hcalls todoItems_pending (by simp) hname]
      have htransition : todoTransitionError [⟨"a", .pending⟩] (proposedTodos texts call) =
          none := by simp [todoTransitionError]
      rw [htransition, Option.or_none]
      cases herror' : todoPlanError (proposedTodos texts call) config.mode false with
      | none => simp
      | some error' =>
          intro heq
          have hroutes := Option.some.inj heq
          have hmessage := congrArg (fun update ↦ update.completionRoute.message) hroutes
          simp only [incrementalRepairRoute_message] at hmessage
          subst hmessage
          -- The model is told of the same error in other words, unless the run ends with it.
          by_cases hattempts : 1 ≤ (config.repairs.lookup "incremental_plan_invalid").getD 0
          · exact hopen ⟨hattempts, call, error, hcalls, hname, herror, herror'⟩
          · have hinstruction :=
              congrArg (fun update ↦ update.completionRoute.instruction) hroutes
            simp only [incrementalRepairRoute, if_neg hattempts] at hinstruction
            exact absurd (Option.some.inj hinstruction) (by decide +kernel)

/-- Other calls are run under a plan, but not before there is one. -/
theorem exists_items_of_work (hconfig : incrementalConfig s run = some config)
    (hcalls : last.toolCalls = call :: calls)
    (hask : ¬∀ c ∈ last.toolCalls, c.name = "user.ask")
    (hplan : last.toolCalls.map ToolCall.name ≠ ["write_todos"]) :
    ∃ items items', incrementalToolRoute texts (s.withTodos items) last run ≠
      incrementalToolRoute texts (s.withTodos items') last run := by
  obtain ⟨update, hupdate, hreason⟩ :=
    toolRoute_required (s := s.withTodos []) hconfig hcalls todoItems_none hask hplan
  by_cases hmem : "write_todos" ∈ last.toolCalls.map ToolCall.name
  · refine ⟨[], [⟨"a", .pending⟩], ?_⟩
    obtain ⟨update', hupdate', hreason'⟩ := toolRoute_mixed (s := s.withTodos [⟨"a", .pending⟩])
      hconfig hcalls todoItems_pending (by simp) hmem hplan
    rw [hupdate, hupdate']
    rintro ⟨rfl⟩
    rw [hreason] at hreason'
    exact absurd hreason' (by decide)
  · refine ⟨[], [⟨"a", .inProgress⟩, ⟨"a", .pending⟩], ?_⟩
    intro heq
    have hsome : (incrementalToolRoute texts (s.withTodos [⟨"a", .inProgress⟩, ⟨"a", .pending⟩])
        last run).isSome = _ :=
      toolRoute_work hconfig hcalls todoItems_underway (by simp) hmem (by simp)
    rw [← heq, hupdate, todoPlanError_underway] at hsome
    cases hsome

/-- Tool calls that are held against the plan are answered according to it. -/
theorem exists_items_toolRoute (hconfig : incrementalConfig s run = some config)
    (hcalls : last.toolCalls ≠ []) (hopen : ¬IsRefusedPlan texts config last.toolCalls) :
    ∃ items items', incrementalToolRoute texts (s.withTodos items) last run ≠
      incrementalToolRoute texts (s.withTodos items') last run := by
  obtain ⟨call, calls, hcons⟩ := List.exists_cons_of_ne_nil hcalls
  by_cases hask : ∀ c ∈ last.toolCalls, c.name = "user.ask"
  · exact exists_items_of_ask hconfig hcons hask
  · by_cases hplan : last.toolCalls.map ToolCall.name = ["write_todos"]
    · rw [hcons, List.map_cons, List.cons.injEq, List.map_eq_nil_iff] at hplan
      obtain ⟨hname, rfl⟩ := hplan
      exact exists_items_of_plan hconfig hcons hname hopen
    · exact exists_items_of_work hconfig hcons hask hplan

/-- An answer is held against the plan: none is there, or one is not complete. -/
theorem planRoute_ne (texts : Texts) (hconfig : incrementalConfig s run = some config) :
    ∃ update update', planRoute texts (s.withTodos []) run = some update ∧
      planRoute texts (s.withTodos [⟨"a", .pending⟩]) run = some update' ∧ update ≠ update' := by
  have hconfig' : ∀ items, incrementalConfig (s.withTodos items) run = some config :=
    fun _ ↦ hconfig
  refine ⟨_, _, by rw [planRoute, incrementalFinalRoute, hconfig', todoItems_none]; rfl,
    by rw [planRoute, incrementalFinalRoute, hconfig', todoItems_pending]; rfl, ?_⟩
  intro heq
  have hreason := congrArg (fun update ↦ update.completionRoute.reason) heq
  cases hactive : budgetConvergenceActive s run with
  | true =>
      have hactive' : ∀ items, budgetConvergenceActive (s.withTodos items) run = true :=
        fun _ ↦ hactive
      simp only [hactive', if_true, convergenceBlockedRoute, incrementalRepairRoute_reason,
        terminalRoute, Update.ofRoute] at hreason
      exact absurd hreason (by decide)
  | false =>
      have hactive' : ∀ items, budgetConvergenceActive (s.withTodos items) run = false :=
        fun _ ↦ hactive
      simp only [hactive', Bool.false_eq_true, if_false, incrementalRepairRoute_reason] at hreason
      exact absurd hreason (by decide)

end ShejaneRuntime.Completion
