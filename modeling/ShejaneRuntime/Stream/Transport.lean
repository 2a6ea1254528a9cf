import ShejaneRuntime.Lib.Lines
import ShejaneRuntime.Lib.Utf8
import ShejaneRuntime.Stream.JsonText

/-!
# The event stream on the wire

The stream route writes each envelope as a frame of lines and ends with a
marker. The frames reach two decoders as bytes: the one of the Runtime SDK,
which cuts the text at blank lines as it arrives, and the one of the gateway,
which reads it line by line.
-/

namespace ShejaneRuntime.Stream

open Lib Store

/-! ## The stream route -/

/-- `str(event.get("seq") or event["id"])` -/
def frameId (event : Json) : String :=
  let seq := event.get? "seq"
  if seq.any Json.truthy then Json.textOrEmpty seq else Json.textOrEmpty (event.get? "id")

def eventType (event : Json) : String := Json.textOrEmpty (event.get? "event_type")

/-- A run event on its way. Ids and event types are the Runtime's own and hold
no line end; every other string is arbitrary. -/
structure Envelope where
  event : Json
  isDict : ∃ fields, event = .obj fields
  readable : readable event = true
  id_plain : ∀ c ∈ (frameId event).toList, isLineBreak c = false
  eventType_plain : ∀ c ∈ (eventType event).toList, isLineBreak c = false

/-- A comment that keeps the connection open; its text is a time. -/
structure KeepAlive where
  text : List Char
  plain : ∀ c ∈ text, isLineBreak c = false

inductive Frame where
  | event (envelope : Envelope)
  | done
  | keepAlive (comment : KeepAlive)

def doneMark : List Char := "[DONE]".toList

/-- The lines of a frame before its blank line. -/
def Frame.lines : Frame → List (List Char)
  | .event e =>
    ["id: ".toList ++ (frameId e.event).toList, "event: ".toList ++ (eventType e.event).toList,
      "data: ".toList ++ dumps e.event]
  | .done => ["data: ".toList ++ doneMark]
  | .keepAlive comment => [": ".toList ++ comment.text]

/-- Every line and the frame itself end with the separator. -/
def Frame.text (f : Frame) : List Char := f.lines.flatMap (fun line ↦ line ++ ['\n']) ++ ['\n']

def wireText (frames : List Frame) : List Char := frames.flatMap Frame.text

/-- How the event source ended: by itself, or with an error. -/
inductive Source where
  | ended
  | raised
  deriving DecidableEq

/-- What the connection does after the last byte. An error of the source may
break it; the marker is sent in either case. -/
inductive Ending where
  | closed
  | broken
  deriving DecidableEq

def Source.allows : Source → Ending → Prop
  | .ended, ending => ending = .closed
  | .raised, _ => True

def Frame.isKeepAlive : Frame → Bool
  | .keepAlive _ => true
  | _ => false

/-- The frames of a stream: every envelope, then the marker, and comments
anywhere in between. -/
def Carries (envelopes : List Envelope) (frames : List Frame) : Prop :=
  frames.filter (fun f ↦ !f.isKeepAlive) = envelopes.map Frame.event ++ [.done]

/-! ## The envelopes the SDK accepts -/

/-- `String(value)`, as far as it can be a name. -/
def jsString : Json → String
  | .str s => s
  | .arr [item] => jsString item
  | _ => ""

def nonEmptyString (value : Option Json) : Bool :=
  match value with
  | some (.str s) => s ≠ ""
  | _ => false

def isString (value : Option Json) : Bool :=
  match value with
  | some (.str _) => true
  | _ => false

/-- Whether the text of a float names an integer; that of an infinity has no digit. -/
def isIntegral (repr : List Char) : Bool :=
  repr.any Char.isDigit &&
    if 'e' ∈ repr then '-' ∉ repr.dropWhile (· ≠ 'e')
    else (repr.dropWhile (· ≠ '.')).all fun c ↦ c = '.' || c = '0'

def nonNegativeInteger (value : Option Json) : Bool :=
  match value with
  | some (.num n) => 0 ≤ n
  | some (.real repr) =>
    isIntegral repr.toList &&
      (repr.toList.head? ≠ some '-' || repr.toList.all fun c ↦ c = '-' || c = '.' || c = '0')
  | _ => false

def positiveInteger (value : Option Json) : Bool :=
  match value with
  | some (.num n) => 0 < n
  | some (.real repr) =>
    nonNegativeInteger value && repr.toList.any fun c ↦ c.isDigit && c ≠ '0'
  | _ => false

def oneOf (names : List String) (value : Option Json) : Bool :=
  value.any fun v ↦ jsString v ∈ names

def hasName (value : Option Json) (name : String) : Bool := value == some (.str name)

def presentationActivityStatus (value : Option Json) : Bool :=
  oneOf ["pending", "in_progress", "waiting", "completed", "failed", "canceled", "unknown"] value

/-- The checks of a presentation item that depend on its kind. -/
def isPresentationItem (item : Json) : Bool :=
  let completedAt := item.get? "completed_at"
  let terminalTime := completedAt.isNone || completedAt == some .null || isString completedAt
  let updatedTime := isString (item.get? "updated_at") && terminalTime
  let status := item.get? "status"
  match item.get? "kind" with
  | some (.str "progress") => hasName status "completed" && isString (item.get? "text")
  | some (.str "reasoning_summary") => hasName status "completed" && isString (item.get? "summary")
  | some (.str "tool") =>
    presentationActivityStatus status && nonEmptyString (item.get? "tool_call_id") &&
      nonEmptyString (item.get? "tool_name") && isString (item.get? "risk") && updatedTime
  | some (.str "subagent") =>
    presentationActivityStatus status && nonEmptyString (item.get? "operation_id") &&
      isString (item.get? "subagent_type") && isString (item.get? "description") && updatedTime
  | some (.str "verification") =>
    presentationActivityStatus status && nonEmptyString (item.get? "operation_id") &&
      nonEmptyString (item.get? "tool_name") && updatedTime
  | some (.str "artifact") =>
    hasName status "completed" && nonEmptyString (item.get? "artifact_id") &&
      isString (item.get? "title") && nonEmptyString (item.get? "content_type")
  | some (.str "approval") | some (.str "question") | some (.str "plan")
  | some (.str "reconciliation") =>
    oneOf ["waiting", "completed", "failed", "canceled"] status &&
      nonEmptyString (item.get? "request_id") && isString (item.get? "summary") && updatedTime
  | some (.str "notice") =>
    oneOf ["failed", "canceled", "unknown"] status &&
      oneOf ["warning", "error"] (item.get? "severity") && isString (item.get? "message")
  | some (.str "final_answer") =>
    hasName status "completed" && isString (item.get? "content") && isString completedAt
  | _ => false

def isRunPresentationChange (change : Json) : Bool :=
  match change.get? "kind" with
  | some (.str "draft.delta") =>
    nonEmptyString (change.get? "round_id") && isString (change.get? "content")
  | some (.str "draft.closed") =>
    nonEmptyString (change.get? "round_id") &&
      match change.get? "committed_item_ids" with
      | some (.arr ids) => ids.all fun id ↦ nonEmptyString (some id)
      | _ => false
  | some (.str "item.upsert") =>
    match change.get? "item" with
    | some (.obj fields) =>
      let item := Json.obj fields
      nonEmptyString (item.get? "id") && positiveInteger (item.get? "revision") &&
        positiveInteger ((item.get? "order").bind fun order ↦ order.get? "event_seq") &&
        nonNegativeInteger ((item.get? "order").bind fun order ↦ order.get? "slot") &&
        oneOf ["run_event", "tool_receipt", "wait_candidate", "artifact", "thread_item"]
          ((item.get? "source").bind fun source ↦ source.get? "kind") &&
        nonEmptyString ((item.get? "source").bind fun source ↦ source.get? "id") &&
        isString (item.get? "created_at") && isPresentationItem item
    | _ => false
  | _ => false

/-- The envelopes for which `parseAgentSSEChunk` does not throw. -/
def acceptsEnvelope (event : Json) : Bool :=
  nonEmptyString (event.get? "event_type") &&
    (event.get? "presentation_change").all isRunPresentationChange &&
    match event.get? "presentation_changes" with
    | none => true
    | some (.arr changes) => !changes.isEmpty && changes.all isRunPresentationChange
    | some _ => false

/-! ## The decoder of the SDK -/

/-- The characters that `String.prototype.trim` removes. -/
def isJsSpace (c : Char) : Bool :=
  let n := c.toNat
  (9 ≤ n && n ≤ 13) || n == 32 || n == 0xA0 || n == 0x1680 || (0x2000 ≤ n && n ≤ 0x200A) ||
    n == 0x2028 || n == 0x2029 || n == 0x202F || n == 0x205F || n == 0x3000 || n == 0xFEFF

def jsTrim (text : List Char) : List Char :=
  ((text.dropWhile isJsSpace).reverse.dropWhile isJsSpace).reverse

def dataField : List Char := "data:".toList

inductive AgentSSEEvent where
  | agent (event : Json)
  | done
  | ignore

/-- `parseAgentSSEChunk`; `none` where it throws. -/
def parseAgentSSEChunk (chunk : List Char) : Option AgentSSEEvent :=
  let dataLines := (((chunk.splitOn '\n').map jsTrim).filter dataField.isPrefixOf).map
    fun line ↦ jsTrim (line.drop 5)
  if dataLines = [] then some .ignore
  else
    let data := ['\n'].intercalate dataLines
    if data = doneMark then some .done
    else
      match jsonParse data with
      | none => none
      | some event => if acceptsEnvelope event then some (.agent event) else none

/-- `parseAgentSSEBuffer`; `none` where one of the chunks throws. -/
def parseAgentSSEBuffer (buffer : List Char) : Option (List AgentSSEEvent × List Char) :=
  ((splitPairs '\n' buffer).1.mapM parseAgentSSEChunk).map fun events ↦
    (events, (splitPairs '\n' buffer).2)

structure Sdk where
  decoder : Utf8.Decoder
  buffer : List Char
  delivered : List Json
  completed : Bool

def Sdk.start : Sdk := ⟨.idle true, [], [], false⟩

def AgentSSEEvent.agent? : AgentSSEEvent → Option Json
  | .agent event => some event
  | _ => none

def AgentSSEEvent.isDone : AgentSSEEvent → Bool
  | .done => true
  | _ => false

/-- One turn of the reading loop, with the text that was decoded. -/
def Sdk.receive (s : Sdk) (decoded : Utf8.Decoder × List Char) : Option Sdk :=
  (parseAgentSSEBuffer (s.buffer ++ decoded.2)).map fun parsed ↦
    { decoder := decoded.1
      buffer := parsed.2
      delivered := s.delivered ++ parsed.1.filterMap AgentSSEEvent.agent?
      completed := s.completed || parsed.1.any AgentSSEEvent.isDone }

/-- What a reader has delivered, and whether it reports the stream as finished:
it returns with `completed`, or, for the gateway, it returns. -/
structure Reading where
  delivered : List Json
  finished : Bool

/-- `streamAgentSSE` -/
def streamAgentSSE (s : Sdk) (ending : Ending) : List (List ℕ) → Reading
  | [] =>
    match ending with
    | .broken => ⟨s.delivered, false⟩
    | .closed =>
      match s.receive (s.decoder, s.decoder.flush) with
      | none => ⟨s.delivered, false⟩
      | some s => ⟨s.delivered, s.completed⟩
  | chunk :: chunks =>
    match s.receive (s.decoder.run chunk) with
    | none => ⟨s.delivered, false⟩
    | some s => streamAgentSSE s ending chunks

/-! ## The decoder of the gateway -/

def pyLstrip (text : List Char) : List Char := text.dropWhile isPySpace

def isDict : Json → Bool
  | .obj _ => true
  | _ => false

/-- What `stream_events` yields and whether it returns, reading these lines with
these data lines collected. -/
def streamEventsLoop (ending : Ending) : List (List Char) → List (List Char) → Reading
  | dataLines, [] =>
    match ending with
    | .broken => ⟨[], false⟩
    | .closed =>
      if dataLines = [] ∨ ['\n'].intercalate dataLines = doneMark then ⟨[], true⟩
      else
        match loads (['\n'].intercalate dataLines) with
        | none => ⟨[], false⟩
        | some decoded => ⟨if isDict decoded then [decoded] else [], true⟩
  | dataLines, line :: lines =>
    if line = [] then
      if dataLines = [] then streamEventsLoop ending [] lines
      else if ['\n'].intercalate dataLines = doneMark then ⟨[], true⟩
      else
        match loads (['\n'].intercalate dataLines) with
        | none => ⟨[], false⟩
        | some decoded =>
          let rest := streamEventsLoop ending [] lines
          ⟨if isDict decoded then decoded :: rest.delivered else rest.delivered, rest.finished⟩
    else if dataField.isPrefixOf line then
      streamEventsLoop ending (dataLines ++ [pyLstrip (line.drop 5)]) lines
    else streamEventsLoop ending dataLines lines

/-- `stream_events`: `aiter_lines` decodes the bytes and splits the text as
`str.splitlines` does, however the bytes are cut. -/
def streamEvents (ending : Ending) (chunks : List (List ℕ)) : Reading :=
  let decoded := (Utf8.Decoder.idle false).run chunks.flatten
  streamEventsLoop ending [] (splitlines (decoded.2 ++ decoded.1.flush))

end ShejaneRuntime.Stream
