import ShejaneRuntime.Coordinator.Resumption
import ShejaneRuntime.Scheduling.Schedules

/-!
# The dispatcher of scheduled runs

A task of the dispatcher claims nothing by itself: it starts the run of a
claimed schedule under a command identifier made from that of the schedule,
binds it, follows its stream and records how it ended. Between two of its
transactions the process may stop; a restart reads the schedules left
running and starts again from their rows.
-/

namespace ShejaneRuntime.Scheduling

open Lib Store Lockstep

/-! ## The system -/

/-- Where a task of the dispatcher is. -/
inductive Point where
  | admitting
  | start
  | bind (runId : String)
  | follow (runId : String)
  | closing (runId : String)
  | ended (runId : String)
  | finalize (run : Run)
  | refuse

/-- `_run_schedule` of a row as it was read. -/
structure Dispatch where
  schedule : ScheduledRun
  point : Point

/-- What `start_run` adds to a schedule: the settings and the model of the
moment, and why they are refused. -/
structure Admission where
  publicSettings : Json
  publicMetadata : Json
  reasoningMode : String
  permissionMode : Json
  settings : Option Json
  metadata : Option Json
  admissionError : Option (String × String)

def scheduleCommandId (scheduleId : String) : String := "cmd_schedule:" ++ scheduleId

def scheduleMode (s : ScheduledRun) : String := if s.model = "" then "auto" else s.model

/-- `_json_list` -/
def historyMessages : Json → List HistoryMessage
  | .arr items => items.filterMap fun item ↦
    match item.get? "content" with
    | some (.str content) =>
      let role := Json.textOrEmpty (item.get? "role")
      some ⟨if role = "" then "user" else role, content⟩
    | _ => none
  | _ => []

def scheduleCommandPayload (a : Admission) (s : ScheduledRun) : Json :=
  .obj [("type", .str "run.start"), ("thread_id", .null), ("user_input", .null),
    ("assistant_message_id", .null), ("thread_title", .null), ("thread_metadata", .null),
    ("user_item_metadata", .null), ("replace_from_client_id", .null),
    ("protocol_version", .num 1),
    ("required_capabilities", .arr [.str "agent.run", .str "agent.stream"]),
    ("required_tools", .arr []), ("goal", .str s.goal), ("workspace_path", optText s.workspacePath),
    ("attachment_paths", .arr []), ("model", .str (scheduleMode s)),
    ("reasoning_mode", .str a.reasoningMode), ("permission_mode", a.permissionMode),
    ("history", historyJson (historyMessages s.historyJson)), ("parent_run_id", .null),
    ("plugin_refs", .arr []), ("plugin_command", .null), ("settings", a.publicSettings),
    ("metadata", a.publicMetadata)]

def scheduleCommand (a : Admission) (s : ScheduledRun) : RunCommand where
  principalId := s.principalId
  commandId := scheduleCommandId s.id
  clientMessageId := "msg_schedule:" ++ s.id
  commandPayload := scheduleCommandPayload a s
  goal := s.goal
  workspacePath := s.workspacePath
  mode := scheduleMode s
  history := historyMessages s.historyJson
  settings := a.settings
  metadata := a.metadata
  admissionError := a.admissionError

/-- The database, the schedules, the rows a restart has still to look at, and
the task of each schedule. `started` lists the runs made for schedules; no
code sees it. -/
structure State where
  db : Database
  schedules : Schedules
  recovering : List ScheduledRun
  tasks : String → Option Dispatch
  started : List (String × String)

inductive Act where
  | transact (op : StoreOp)
  | create (s : ScheduledRun)
  | cancel (principalId scheduleId : String)
  | notify (principalId scheduleId : String)
  | tick (now : Time)
  | restart
  | recover
  | advance (scheduleId : String) (a : Admission)
  | startFails (scheduleId : String)

namespace State

/-- The task of a schedule goes on, or is done. -/
def goOn (c : State) (s : ScheduledRun) (next : Option Point) : State :=
  { c with tasks := Function.update c.tasks s.id (next.map fun point ↦ ⟨s, point⟩) }

def complete (c : State) (s : ScheduledRun) (status : ScheduleStatus) (now : Time) : State :=
  { c with schedules := completeScheduledRun c.schedules s.id status now }

/-- No task is under way. -/
def Quiet (c : State) : Prop := ∀ scheduleId, c.tasks scheduleId = none

end State

/-- How `_finalize_schedule_from_run` records a run. A run that has not ended
is taken to wait for its user. -/
def verdict : RunStatus → ScheduleStatus
  | .completed => .completed
  | .canceled => .canceled
  | _ => .failed

/-- `workspace_admission_error` -/
def workspaceRefuses (db : Database) (w : World) (s : ScheduledRun) : Bool :=
  (workspaceUnauthorized db s.principalId s.workspacePath).isSome ||
    (s.workspacePath.bind w.workspacePathErrorSync).isSome

/-- `start_run`, and what the dispatcher notes of its outcome. -/
def startRun (c : State) (s : ScheduledRun) (a : Admission) (w : World) : State :=
  match Txn.commit (acceptRunCommand (scheduleCommand a s)) c.db w with
  | (.ok (accepted, created), db) =>
    { c with db := db
             started := if created then (s.id, accepted.run.id) :: c.started else c.started }.goOn s
      (some (.bind accepted.run.id))
  | (.error _, db) => { c with db := db }.goOn s (some .refuse)

/-- What the task does with the row that `mark_scheduled_run_started` returns. -/
def afterBinding (runId : String) : Option ScheduledRun → Option Point
  | none => some .refuse
  | some bound =>
    if bound.runId = some runId ∧ bound.status = .running then some (.follow runId) else none

/-- One step of a task, up to its next await. -/
def step (c : State) (d : Dispatch) (a : Admission) (w : World) : State :=
  let s := d.schedule
  match d.point with
  | .admitting => c.goOn s (some (if workspaceRefuses c.db w s then .refuse else .start))
  | .start => startRun c s a w
  | .bind runId =>
    let schedules := markScheduledRunStarted c.schedules s.id runId (w.clock 0)
    { c with schedules := schedules }.goOn s (afterBinding runId (schedules.find? s.id))
  | .follow runId =>
    match c.db.runs.find? runId with
    | none => c.goOn s (some (.ended runId))
    | some run =>
      c.goOn s (some (if run.status = .queued ∨ run.status = .running then .follow runId
        else .closing runId))
  | .closing runId =>
    c.goOn s (some (if c.db.jobs.rows.any (fun j ↦ j.runId = runId && j.active) then .follow runId
      else .ended runId))
  | .ended runId =>
    match c.db.runs.find? runId with
    | none => c.goOn s (some .refuse)
    | some run => c.goOn s (some (.finalize run))
  | .finalize run => (c.complete s (verdict run.status) (w.clock 0)).goOn s none
  | .refuse => (c.complete s .failed (w.clock 0)).goOn s none

/-- Where `recover_running` takes up a row. -/
def recoveryPoint (s : ScheduledRun) : Point :=
  match nonEmpty s.runId with
  | none => .admitting
  | some runId => .ended runId

/-- The Runtime with its dispatcher. -/
def system : System State (Act × World) where
  initial c := c = ⟨Database.empty, .empty, [], fun _ ↦ none, []⟩
  step i c c' :=
    match i.1 with
    | .transact op => c' = { c with db := op.after c.db i.2 }
    | .create s => s.status = .scheduled ∧ s.runId = none ∧
        (∃ t, c.schedules.insert? s = some t ∧ c' = { c with schedules := t })
    | .cancel principalId scheduleId =>
        c' = { c with
          schedules := cancelScheduledRun c.schedules principalId scheduleId (i.2.clock 0) }
    | .notify principalId scheduleId =>
        c' = { c with
          schedules := markScheduledRunNotified c.schedules principalId scheduleId (i.2.clock 0) }
    | .tick now => c.Quiet ∧ c.recovering = [] ∧
        c' = { c with
          schedules := (claimDueScheduledRuns c.schedules now 10 (i.2.clock 0)).2
          tasks := fun scheduleId ↦
            ((claimDueScheduledRuns c.schedules now 10 (i.2.clock 0)).1.find? fun s ↦
              s.id = scheduleId).map fun s ↦ ⟨s, .admitting⟩ }
    | .restart => c' = { c with
        recovering := listScheduledRuns c.schedules 100 .running, tasks := fun _ ↦ none }
    | .recover => c.Quiet ∧ ∃ s rest, c.recovering = s :: rest ∧
        c' = { c with recovering := rest }.goOn s (some (recoveryPoint s))
    | .advance scheduleId a => ∃ d, c.tasks scheduleId = some d ∧ c' = Scheduling.step c d a i.2
    | .startFails scheduleId => ∃ d, c.tasks scheduleId = some d ∧ d.point = .start ∧
        c' = c.goOn d.schedule (some .refuse)

end ShejaneRuntime.Scheduling
