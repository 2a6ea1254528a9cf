import ShejaneRuntime.Lib.Suffix
import ShejaneRuntime.Store.Codec

/-!
# Evidence for accepting a completion

The messages of a thread, and what the completion router reads off them: the
tools the current run has called and the latest verification of the current
turn.
-/

namespace ShejaneRuntime.Completion

open Lib Store

/-! ## Text -/

/-- What the router takes from the standard library: `json.loads`, `str` of a
list or dict, and the search of the clarification patterns in a text. -/
structure Texts where
  loads : String → Option Json
  repr : Json → String
  isProseClarification : String → Bool

/-- `text.lower()` as far as ASCII words are compared with it: outside ASCII
only the Kelvin sign lowers to an ASCII letter. -/
def pyLower (text : String) : String :=
  text.map fun c ↦ if c = Char.ofNat 0x212A then 'k' else c.toLower

section Texts

variable (texts : Texts)

/-- `str(value or "")` -/
def Texts.str (value : Option Json) : String :=
  match value with
  | some (.arr items) => if items.isEmpty then "" else texts.repr (.arr items)
  | some (.obj fields) => if fields.isEmpty then "" else texts.repr (.obj fields)
  | value => Json.textOrEmpty value

/-- `_truthy` -/
def truthyFlag : Json → Bool
  | .str s => ["true", "1", "yes", "ok", "passed"].contains (pyLower (pyStrip s))
  | value => value.truthy

/-! ## Messages -/

inductive MessageType where
  | human | ai | tool | other
  deriving DecidableEq

structure ToolCall where
  name : String
  id : String
  args : Json

structure Message where
  type : MessageType
  content : Json
  name : String
  status : String
  toolCallId : String
  additionalKwargs : Json
  responseMetadata : Json
  toolCalls : List ToolCall
  invalidToolCalls : List ToolCall

def Message.runtimeKind (m : Message) : Option Json := m.additionalKwargs.get? "runtime_kind"

def Message.runtimeRunId (m : Message) : Option Json := m.additionalKwargs.get? "runtime_run_id"

/-- `status.lower() == "error"` -/
def Message.failed (m : Message) : Bool := pyLower m.status = "error"

/-- `_assistant_text` -/
def assistantText : Json → String
  | .str s => s
  | .arr blocks =>
    String.join (blocks.filterMap fun block ↦
      match block with
      | .str s => some s
      | block =>
        match block.get? "text" with
        | some (.str s) => some s
        | _ => none)
  | _ => ""

/-- `_finish_reason` -/
def finishReason (m : Message) : String :=
  let value := match m.responseMetadata.get? "finish_reason" with
    | some j => if j.truthy then some j else m.responseMetadata.get? "stop_reason"
    | none => m.responseMetadata.get? "stop_reason"
  pyLower (pyStrip (texts.str value))

/-! ## The current run -/

/-- A task input of any run. -/
def Message.isTaskInput (m : Message) : Bool := m.runtimeKind = some (.str "task_input")

/-- A task input of the run, or of any when the run has no id. -/
def Message.isTaskInputOf (run : String) (m : Message) : Bool :=
  m.isTaskInput && (run = "" || m.runtimeRunId = some (.str run))

/-- `_current_run_id` -/
def currentRunId (contextRunId : Option String) (messages : List Message) : String :=
  match contextRunId with
  | some run => if run ≠ "" then run else scan messages
  | none => scan messages
where
  scan (messages : List Message) : String :=
    (messages.reverse.findSome? fun m ↦
      if m.isTaskInput then
        match m.runtimeRunId with
        | some (.str run) => some run
        | _ => none
      else none).getD ""

/-! ## Required tools -/

/-- `_missing_required_tools` -/
def missingRequiredTools (messages : List Message) (requiredTools : List String) (run : String) :
    List String :=
  let turnMessages := ((fromLast (Message.isTaskInputOf run) messages).map List.tail).getD messages
  requiredTools.filter fun name ↦
    !turnMessages.any fun m ↦ m.type = .tool && m.name = name

/-! ## Verification -/

/-- The task input that begins the current turn. -/
def beginsTurn (m : Message) : Bool := m.type = .human && m.isTaskInput

/-- What begins the current turn when no task input is marked. -/
def mayBeginTurn (m : Message) : Bool :=
  m.type = .human && m.runtimeKind ≠ some (.str "steering")

/-- The messages of the current turn. -/
def currentTurn (messages : List Message) : List Message :=
  match fromLast beginsTurn messages with
  | some turn => turn
  | none => (fromLast mayBeginTurn messages).getD messages

def isVerification (m : Message) : Bool := m.type = .tool && m.name = "task.verify"

/-- `_parse_tool_content` of text or a dict. -/
def parseToolContent : Json → Option Json
  | .obj fields => some (.obj fields)
  | .str s => texts.loads s
  | _ => none

/-- The dict that a tool message holds. -/
def payloadOf (m : Message) : Option Json :=
  match parseToolContent texts m.content with
  | some (.obj fields) => some (.obj fields)
  | _ => none

/-- The verification reports that it is ok. -/
def reportsOk (m : Message) : Bool :=
  match payloadOf texts m with
  | some payload => ((payload.get? "ok").map truthyFlag).getD false
  | none => false

/-- `_VERIFICATION_PRESERVING_TOOLS` -/
def verificationPreservingTools : List String :=
  ["clipboard.read", "environment.observe", "glob", "grep", "ls", "memory.search",
    "office.outline", "office.read", "office.read_range", "office.read_slides", "open.file",
    "open.url", "pdf.inspect", "read_file", "task.progress", "time.now", "web.fetch", "web.search"]

/-- A tool message after which a verification no longer counts. -/
def invalidates (m : Message) : Bool :=
  m.type = .tool &&
    (m.failed || !verificationPreservingTools.contains (if m.name = "" then "unknown" else m.name))

/-- `_verification_invalidating_tool` -/
def verificationInvalidatingTool (messages : List Message) : Option String :=
  (messages.find? invalidates).map fun m ↦ if m.name = "" then "unknown" else m.name

/-- `_verification_reason` -/
def verificationReason (payload : Json) : String :=
  let details := match payload.get? "results" with
    | some (.arr items) => items.findSome? fun item ↦
      match item with
      | .obj fields =>
        if ((Json.get? (.obj fields) "ok").map truthyFlag).getD false then none
        else
          match Json.get? (.obj fields) "detail" with
          | some (.str detail) => if pyStrip detail ≠ "" then some (pyStrip detail) else none
          | _ => none
      | _ => none
    | _ => none
  match details with
  | some detail => detail
  | none =>
    match payload.get? "error" with
    | some (.str error) =>
        if pyStrip error ≠ "" then pyStrip error else "task.verify returned ok=false"
    | _ => "task.verify returned ok=false"

structure Verification where
  ok : Bool
  reason : String
  toolCallId : String

/-- `_latest_task_verification` -/
def latestTaskVerification (messages : List Message) : Option Verification :=
  match fromLast isVerification (currentTurn messages) with
  | none => none
  | some [] => none
  | some (m :: after) =>
    match payloadOf texts m with
    | none => some ⟨false, "task.verify returned an unreadable result", m.toolCallId⟩
    | some payload =>
      if reportsOk texts m then
        match verificationInvalidatingTool after with
        | some tool => some ⟨false, s!"verification became stale after tool {tool}", m.toolCallId⟩
        | none => some ⟨true, "verification passed", m.toolCallId⟩
      else some ⟨false, verificationReason payload, m.toolCallId⟩

end Texts

end ShejaneRuntime.Completion
