import ShejaneRuntime.ToolResults.Values

/-!
# The codec of tool results

A tool result is stored as JSON and read back when it is replayed. A message in
the update of a command stands as a tagged object. The conversion between
messages and dicts is the message library's own.
-/

namespace ShejaneRuntime.ToolResults

open Lib

inductive ToolResultError where
  | toolReceiptState (message : Text)
  | typeError
  | unicodeEncode
  | artifactRefused
  | invalidMessage
  deriving DecidableEq

def receiptState (message : String) : ToolResultError := .toolReceiptState (Text.ofString message)

/-- The messages of the library: `message_to_dict`, and `messages_from_dict` of one dict. -/
structure Langchain (M : Type) where
  isToolMessage : M → Bool
  messageToDict : M → List (Key × PyData)
  messagesFromDict : List (Text × JsonValue) → Option M

structure Command (M : Type) where
  graph : PyData
  update : PyValue M
  resume : PyValue M
  goto : PyValue M

inductive ToolResult (M : Type) where
  | toolMessage (m : M)
  | command (c : Command M)

def str {M : Type} (s : String) : PyValue M := .str (Text.ofString s)

def key (s : String) : Key := .str (Text.ofString s)

/-- `value.get(name)` -/
def get {M : Type} (items : List (Key × PyValue M)) (name : String) : Option (PyValue M) :=
  (items.find? fun item ↦ item.1 = key name).map Prod.snd

/-- `{**items, k: value}` -/
def setItem {M : Type} (items : List (Key × PyValue M)) (k : Key) (value : PyValue M) :
    List (Key × PyValue M) :=
  if k ∈ items.map Prod.fst then
    items.map fun item ↦ if item.1 = k then (k, value) else item
  else items ++ [(k, value)]

/-- `payload.get(name)` of a JSON object. -/
def field (fields : List (Text × JsonValue)) (name : String) : Option JsonValue :=
  (fields.find? fun f ↦ f.1 = Text.ofString name).map Prod.snd

variable {M : Type} (L : Langchain M)

mutual

/-- `_encode_json_value` -/
def encodeJsonValue : PyValue M → Except ToolResultError PyData
  | .message m =>
    .ok (.dict [(key "__runtime_type__", str "message"), (key "value", .dict (L.messageToDict m))])
  | .none => .ok .none
  | .bool b => .ok (.bool b)
  | .int n => .ok (.int n)
  | .float shown => .ok (.float shown)
  | .str s => .ok (.str s)
  | .dict items =>
    if (items.map Prod.fst).all Key.isStr then (encodeFields items).map .dict
    else .error (receiptState "tool result contains a non-string mapping key")
  | .list items => (encodeItems items).map .list
  | .tuple items => (encodeItems items).map .list
  | .object kind _ =>
    .error (.toolReceiptState (Text.ofString "tool result contains unsupported value " ++ kind))

def encodeItems : List (PyValue M) → Except ToolResultError (List PyData)
  | [] => .ok []
  | v :: items => do
    let d ← encodeJsonValue v
    let rest ← encodeItems items
    return d :: rest

def encodeFields : List (Key × PyValue M) → Except ToolResultError (List (Key × PyData))
  | [] => .ok []
  | (k, v) :: items => do
    let d ← encodeJsonValue v
    let rest ← encodeFields items
    return (k, d) :: rest

end

/-- The value is `{"__runtime_type__": "message", ...}`. -/
def isTagged (fields : List (Text × JsonValue)) : Bool :=
  match field fields "__runtime_type__" with
  | some (.str s) => s = Text.ofString "message"
  | _ => false

mutual

/-- `_decode_json_value` -/
def decodeJsonValue : JsonValue → Except ToolResultError (PyValue M)
  | .arr items => (decodeItems items).map .list
  | .obj fields =>
    if isTagged fields then
      match field fields "value" with
      | some (.obj raw) =>
        match L.messagesFromDict raw with
        | some m => .ok (.message m)
        | none => .error .invalidMessage
      | _ => .error (receiptState "stored message value is invalid")
    else (decodeFields fields).map .dict
  | .null => .ok .none
  | .bool b => .ok (.bool b)
  | .int n => .ok (.int n)
  | .float shown => .ok (.float shown)
  | .str s => .ok (.str s)

def decodeItems : List JsonValue → Except ToolResultError (List (PyValue M))
  | [] => .ok []
  | j :: items => do
    let v ← decodeJsonValue j
    let rest ← decodeItems items
    return v :: rest

def decodeFields : List (Text × JsonValue) → Except ToolResultError (List (Key × PyValue M))
  | [] => .ok []
  | (name, j) :: fields => do
    let v ← decodeJsonValue j
    let rest ← decodeFields fields
    return (.str name, v) :: rest

end

/-- The payload that `serialize_tool_result` writes. -/
def payload : ToolResult M → Except ToolResultError PyData
  | .toolMessage m =>
    .ok (.dict [(key "kind", str "tool_message"), (key "value", .dict (L.messageToDict m))])
  | .command c => do
    let update ← encodeJsonValue L c.update
    let resume ← encodeJsonValue L c.resume
    let goto ← encodeJsonValue L c.goto
    return .dict [(key "kind", str "command"), (key "graph", c.graph), (key "update", update),
      (key "resume", resume), (key "goto", goto)]

/-- `json.dumps(value, sort_keys=True)`, which raises for what is no JSON. -/
def writeJson (value : PyData) : Except ToolResultError JsonValue :=
  match toJson true value with
  | some json => .ok json
  | none => .error .typeError

/-- `serialize_tool_result`, as the value that its text is read as. -/
def serializeToolResult (result : ToolResult M) : Except ToolResultError JsonValue := do
  let value ← payload L result
  writeJson value

/-- The text of a serialized result. -/
def resultText (json : JsonValue) : Text := dumps compact (sortFields json)

/-- `payload.get(name)`, `None` where it is missing. -/
def fieldOrNull (fields : List (Text × JsonValue)) (name : String) : JsonValue :=
  (field fields name).getD .null

/-- The `kind` of a stored result. -/
def hasKind (fields : List (Text × JsonValue)) (kind : String) : Bool :=
  match field fields "kind" with
  | some (.str s) => s = Text.ofString kind
  | _ => false

/-- `_deserialize_tool_result` -/
def deserializeToolResult : JsonValue → Except ToolResultError (ToolResult M)
  | .obj fields =>
    if hasKind fields "tool_message" then
      match field fields "value" with
      | some (.obj raw) =>
        match L.messagesFromDict raw with
        | some m =>
          if L.isToolMessage m then .ok (.toolMessage m)
          else .error (receiptState "stored result is not a ToolMessage")
        | none => .error .invalidMessage
      | _ => .error (receiptState "stored ToolMessage is invalid")
    else if hasKind fields "command" then do
      let update ← decodeJsonValue L (fieldOrNull fields "update")
      let resume ← decodeJsonValue L (fieldOrNull fields "resume")
      let goto ← decodeJsonValue L (fieldOrNull fields "goto")
      return .command ⟨ofJson (fieldOrNull fields "graph"), update, resume, goto⟩
    else .error (receiptState "stored tool result kind is unsupported")
  | _ => .error (receiptState "stored tool result is not an object")

end ShejaneRuntime.ToolResults
