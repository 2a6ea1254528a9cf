import ShejaneRuntime.ToolResults.Messages
import ShejaneRuntime.Lib.TextCuts

/-!
# Bounding a tool result

A result that is too large is kept as an artifact, and the model is given the
beginning and the end of its text. The size of what is given to the model is
checked once more before it is recorded.
-/

namespace ShejaneRuntime.ToolResults

open Lib

def maxModelToolResultBytes : ℕ := 64 * 1024

def maxToolArtifactBytes : ℕ := 16 * 1024 * 1024

def previewBytes : ℕ := 32 * 1024

/-- The library with its tool messages: the fields that are read of one, and its constructor. -/
structure ToolMessages (M : Type) extends Langchain M where
  content : M → Content
  status : M → Status
  toolMessage : ToolMessage → M

/-- The name and the identifier of a tool call, empty where they are missing. -/
structure ToolCall where
  name : Text
  id : Text

/-- What `create_artifact` is given. -/
structure ToolArtifact where
  id : Text
  title : Text
  content : Text
  contentType : String
  toolCallId : Text
  toolName : Text
  operationId : Text
  originalBytes : ℕ
  truncated : Bool

/-! ## Texts -/

def encodeUtf8 (t : Text) : Except ToolResultError (List ℕ) :=
  match t.encode with
  | some bytes => .ok bytes
  | none => .error .unicodeEncode

/-- `_message_content_text` -/
def messageContentText : Content → Except ToolResultError Text
  | .text s => .ok s
  | .blocks items =>
    match toJson false (withDefaultStr (.list items)) with
    | some json => .ok (dumps spaced json)
    | none => .error .typeError

def omittedMarker (omitted : ℕ) : Text := Text.ofString s!"\n…[{omitted} bytes omitted]…\n"

/-- `value[-count:]` -/
def lastBytes (value : List ℕ) (count : ℕ) : List ℕ :=
  if count = 0 then value else value.drop (value.length - count)

/-- `_head_tail_bytes` -/
def headTailBytes (value : List ℕ) (limit : ℕ) : Text :=
  if value.length ≤ limit then Text.decodeReplacing value
  else
    let marker := (omittedMarker (value.length - limit)).bytes
    let available := limit - marker.length
    let head := available * 3 / 4
    let tail := available - head
    Text.decodeReplacing (value.take head ++ marker ++ lastBytes value tail)

/-- `operation_id.removeprefix("toolop_")` -/
def withoutToolop (operationId : Text) : Text :=
  let start := Text.ofString "toolop_"
  if operationId.take start.length = start then operationId.drop start.length else operationId

def artifactId (operationId : Text) : Text := Text.ofString "art_" ++ withoutToolop operationId

/-- What follows the preview in the content of a summary. -/
def artifactNote (complete : Bool) (artifact : Text) (originalBytes : ℕ) : Text :=
  let kind := if complete then "Full" else "Truncated"
  Text.ofString s!"\n\n[{kind} tool output stored as artifact " ++ artifact ++
    Text.ofString s!"; original size {originalBytes} bytes.]"

/-! ## The bounded result -/

variable {M : Type} (L : ToolMessages M)

/-- The message that stands for a result of `originalBytes` bytes. -/
def summaryOf (content : Text) (operationId : Text) (call : ToolCall) (originalBytes : ℕ)
    (status : Status) : ToolMessage where
  content := .text content
  additionalKwargs := [(key "artifact_id", .str (artifactId operationId)),
    (key "original_bytes", .int originalBytes)]
  name := some call.name
  toolCallId := call.id
  status := status

/-- Keep the text as an artifact and put a summary in its place. -/
def summarize (store : ToolArtifact → Bool) (operationId : Text) (call : ToolCall) (raw : Text)
    (contentType : String) (status : Status) : Except ToolResultError ToolMessage := do
  let rawBytes ← encodeUtf8 raw
  let complete := rawBytes.length ≤ maxToolArtifactBytes
  let title := if call.name = [] then Text.ofString "tool" else call.name
  let artifact : ToolArtifact :=
    { id := artifactId operationId
      title := title ++ Text.ofString " full output"
      content := headTailBytes rawBytes maxToolArtifactBytes
      contentType := contentType
      toolCallId := call.id
      toolName := call.name
      operationId := operationId
      originalBytes := rawBytes.length
      truncated := !complete }
  if store artifact then
    let preview := headTailBytes rawBytes previewBytes
    return summaryOf (preview ++ artifactNote complete (artifactId operationId) rawBytes.length)
      operationId call rawBytes.length status
  else .error .artifactRefused

/-- The bytes of `serialize_tool_result(result).encode("utf-8")` -/
def serializedBytes (result : ToolResult M) : Except ToolResultError (List ℕ) := do
  let json ← serializeToolResult L.toLangchain result
  encodeUtf8 (resultText json)

def oversizedCommand : ToolResultError :=
  receiptState "oversized Command contains non-message state that cannot be safely compacted"

/-- A message with this text can be given to the model as it is. -/
def givenWhole (m : M) (rawBytes : List ℕ) : Except ToolResultError Bool :=
  if rawBytes.length ≤ maxModelToolResultBytes then
    (serializedBytes L (.toolMessage m)).map fun bytes ↦ bytes.length ≤ maxModelToolResultBytes
  else .ok false

def boundMessage (store : ToolArtifact → Bool) (operationId : Text) (call : ToolCall) (m : M) :
    Except ToolResultError (ToolResult M) := do
  let raw ← messageContentText (L.content m)
  let rawBytes ← encodeUtf8 raw
  let whole ← givenWhole L m rawBytes
  if whole then return .toolMessage m
  else
    let summary ← summarize store operationId call raw "text/plain" (L.status m)
    return .toolMessage (L.toolMessage summary)

def boundCommand (store : ToolArtifact → Bool) (operationId : Text) (call : ToolCall)
    (c : Command M) : Except ToolResultError (ToolResult M) := do
  let json ← serializeToolResult L.toLangchain (.command c)
  let rawBytes ← encodeUtf8 (resultText json)
  if rawBytes.length ≤ maxModelToolResultBytes then return .command c
  else
    let summary ← summarize store operationId call (resultText json) "application/json" .success
    match c.update with
    | .dict items =>
      let messages := PyValue.list [.message (L.toolMessage summary)]
      let candidate := { c with update := .dict (setItem items (key "messages") messages) }
      let bytes ← serializedBytes L (.command candidate)
      if bytes.length ≤ maxModelToolResultBytes then return .command candidate
      else .error oversizedCommand
    | _ => .error oversizedCommand

/-- `_bound_tool_result` -/
def boundToolResult (store : ToolArtifact → Bool) (operationId : Text) (call : ToolCall) :
    ToolResult M → Except ToolResultError (ToolResult M)
  | .toolMessage m => boundMessage L store operationId call m
  | .command c => boundCommand L store operationId call c

/-- What `_execute_once` records after the handler has run: the bounded result and its text. -/
def recordedResult (store : ToolArtifact → Bool) (operationId : Text) (call : ToolCall)
    (result : ToolResult M) : Except ToolResultError (ToolResult M × Text) := do
  let bounded ← boundToolResult L store operationId call result
  let json ← serializeToolResult L.toLangchain bounded
  let bytes ← encodeUtf8 (resultText json)
  if bytes.length ≤ maxModelToolResultBytes then return (bounded, resultText json)
  else .error (receiptState "bounded tool result still exceeds model limit")

end ShejaneRuntime.ToolResults
