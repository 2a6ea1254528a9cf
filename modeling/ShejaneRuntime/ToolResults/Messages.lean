import ShejaneRuntime.ToolResults.RoundTrip

/-!
# Tool messages

A tool message with the fields it is dumped with. A dict that has just these
fields is read as the message, so dumping and reading undo each other.
-/

namespace ShejaneRuntime.ToolResults

open Lib

inductive Content where
  | text (s : Text)
  | blocks (items : List PyData)

inductive Status where
  | success
  | error
  deriving DecidableEq

structure ToolMessage where
  content : Content
  additionalKwargs : List (Key × PyData) := []
  responseMetadata : List (Key × PyData) := []
  name : Option Text := none
  id : Option Text := none
  toolCallId : Text
  artifact : PyData := .none
  status : Status := .success

def Content.value : Content → PyData
  | text s => .str s
  | blocks items => .list items

def Status.value : Status → PyData
  | success => str "success"
  | error => str "error"

def optValue : Option Text → PyData
  | some s => .str s
  | none => .none

namespace ToolMessage

/-- The fields of the message as they are dumped. -/
def data (m : ToolMessage) : List (Key × PyData) :=
  [(key "content", m.content.value), (key "additional_kwargs", .dict m.additionalKwargs),
    (key "response_metadata", .dict m.responseMetadata), (key "type", str "tool"),
    (key "name", optValue m.name), (key "id", optValue m.id),
    (key "tool_call_id", .str m.toolCallId), (key "artifact", m.artifact),
    (key "status", m.status.value)]

/-- `message_to_dict` -/
def toDict (m : ToolMessage) : List (Key × PyData) :=
  [(key "type", str "tool"), (key "data", .dict m.data)]

end ToolMessage

/-! ## Reading a dict -/

def readContent : PyData → Option Content
  | .str s => some (.text s)
  | .list items => some (.blocks items)
  | _ => none

def readOpt : PyData → Option (Option Text)
  | .str s => some (some s)
  | .none => some none
  | _ => none

def readStatus : PyData → Option Status
  | .str s =>
    if s = Text.ofString "success" then some .success
    else if s = Text.ofString "error" then some .error
    else none
  | _ => none

def isStr (s : String) : PyData → Bool
  | .str t => t = Text.ofString s
  | _ => false

def dataKeys : List Key :=
  ["content", "additional_kwargs", "response_metadata", "type", "name", "id", "tool_call_id",
    "artifact", "status"].map key

/-- The message of a dict with the fields of a dumped message. -/
def readData (items : List (Key × PyData)) : Option ToolMessage :=
  if items.map Prod.fst = dataKeys then
    match items.map Prod.snd with
    | [content, .dict kwargs, .dict metadata, kind, name, id, .str callId, artifact, status] => do
      let content ← readContent content
      let name ← readOpt name
      let id ← readOpt id
      let status ← readStatus status
      if isStr "tool" kind then
        return ⟨content, kwargs, metadata, name, id, callId, artifact, status⟩
      else none
    | _ => none
  else none

def readMessage : List (Key × PyData) → Option ToolMessage
  | [(k, kind), (k', .dict items)] =>
    if k = key "type" ∧ k' = key "data" ∧ isStr "tool" kind = true then readData items else none
  | _ => none

/-- The library, as far as tool messages go. -/
def toolMessages : Langchain ToolMessage where
  isToolMessage _ := true
  messageToDict := ToolMessage.toDict
  messagesFromDict fs := readMessage (ofJsonFields fs)

theorem readContent_eq_some {v : PyData} {c : Content} : readContent v = some c ↔ v = c.value := by
  cases c with
  | text s => cases v <;> simp [readContent, Content.value]
  | blocks items => cases v <;> simp [readContent, Content.value]

theorem readOpt_eq_some {v : PyData} {o : Option Text} : readOpt v = some o ↔ v = optValue o := by
  cases o with
  | none => cases v <;> simp [readOpt, optValue]
  | some s => cases v <;> simp [readOpt, optValue]

theorem readStatus_eq_some {v : PyData} {s : Status} : readStatus v = some s ↔ v = s.value := by
  have hne : Text.ofString "error" ≠ Text.ofString "success" := by decide +kernel
  cases v with
  | str t =>
      by_cases hsuccess : t = Text.ofString "success"
      · subst hsuccess
        cases s <;> simp [readStatus, Status.value, str, hne.symm]
      · by_cases herror : t = Text.ofString "error"
        · subst herror
          cases s <;> simp [readStatus, Status.value, str, hne]
        · cases s <;> simp [readStatus, Status.value, str, hsuccess, herror]
  | _ => cases s <;> simp [readStatus, Status.value, str]

theorem isStr_eq_true {s : String} {v : PyData} : isStr s v = true ↔ v = str s := by
  cases v <;> simp [isStr, str]

theorem readData_data (m : ToolMessage) : readData m.data = some m := by
  have hkeys : m.data.map Prod.fst = dataKeys := rfl
  have hcontent : readContent m.content.value = some m.content := readContent_eq_some.mpr rfl
  have hname : readOpt (optValue m.name) = some m.name := readOpt_eq_some.mpr rfl
  have hid : readOpt (optValue m.id) = some m.id := readOpt_eq_some.mpr rfl
  have hstatus : readStatus m.status.value = some m.status := readStatus_eq_some.mpr rfl
  have hkind : isStr "tool" (str "tool") = true := isStr_eq_true.mpr rfl
  rw [readData, if_pos hkeys]
  simp only [ToolMessage.data, List.map_cons, List.map_nil, hcontent, hname, hid, hstatus, hkind,
    if_true, Option.bind_eq_bind, Option.bind_some]
  rfl

theorem data_of_readData {items : List (Key × PyData)} {m : ToolMessage}
    (h : readData items = some m) : m.data = items := by
  unfold readData at h
  split at h
  · rename_i hkeys
    split at h
    · rename_i content kwargs metadata kind name id callId artifact status hvalues
      simp only [Option.bind_eq_bind, Option.bind_eq_some_iff] at h
      obtain ⟨c, hc, n, hn, i, hi, s, hs, h⟩ := h
      split at h
      · rename_i hkind
        cases h
        rw [readContent_eq_some] at hc
        rw [readOpt_eq_some] at hn hi
        rw [readStatus_eq_some] at hs
        rw [isStr_eq_true] at hkind
        subst hc hn hi hs hkind
        have hzip := List.zip_unzip items
        rw [List.unzip_eq_map, hkeys, hvalues] at hzip
        exact hzip
      · cases h
    · cases h
  · cases h

theorem readMessage_toDict (m : ToolMessage) : readMessage m.toDict = some m := by
  have hkind : isStr "tool" (str "tool") = true := isStr_eq_true.mpr rfl
  unfold ToolMessage.toDict readMessage
  dsimp only
  rw [if_pos ⟨rfl, rfl, hkind⟩, readData_data]

theorem toDict_of_readMessage {items : List (Key × PyData)} {m : ToolMessage}
    (h : readMessage items = some m) : m.toDict = items := by
  unfold readMessage at h
  split at h
  · split at h
    · rename_i hkeys
      obtain ⟨rfl, rfl, hkind⟩ := hkeys
      rw [isStr_eq_true] at hkind
      subst hkind
      unfold ToolMessage.toDict
      rw [data_of_readData h]
    · cases h
  · cases h

theorem toolMessages_roundTrips : toolMessages.RoundTrips where
  rebuilt m fs _ hback := by
    have hread : readMessage (ofJsonFields fs) = some m := by
      rw [show ofJsonFields fs = m.toDict from hback]
      exact readMessage_toDict m
    exact hread
  dumped _ _ _ _ hread := toDict_of_readMessage hread

end ShejaneRuntime.ToolResults
