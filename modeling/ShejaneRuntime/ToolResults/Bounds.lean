import ShejaneRuntime.ToolResults.Bounding
import ShejaneRuntime.ToolResults.Replay
import ShejaneRuntime.ToolResults.Sizes

/-!
# When a bounded result is small

The preview is bounded in bytes of text, and the limit is on the bytes of JSON.
The bounded result of a message stays within the limit exactly when the message
itself does, or what is kept of its text does after it is escaped.
-/

namespace ShejaneRuntime.ToolResults

open Lib

variable {M : Type} {L : ToolMessages M}

/-! ## The text that is kept -/

/-- The preview of a text, character by character. -/
def keptText (raw : Text) : Text :=
  let size := raw.bytes.length
  if size ≤ previewBytes then raw
  else
    let marker := omittedMarker (size - previewBytes)
    let available := previewBytes - marker.bytes.length
    let head := available * 3 / 4
    let tail := available - head
    raw.headText head ++ marker ++ raw.tailText (if tail = 0 then 0 else size - tail)

theorem ofString_append (s t : String) :
    Text.ofString (s ++ t) = Text.ofString s ++ Text.ofString t := by
  unfold Text.ofString
  rw [String.toList_append, List.map_append]

theorem head_omittedMarker (omitted : ℕ) : (omittedMarker omitted).bytes.head? = some 0x0A := by
  have hstart : (Text.ofString "\n…[").bytes.head? = some 0x0A := by decide +kernel
  have hmarker : omittedMarker omitted = Text.ofString "\n…[" ++
      (Text.ofString (toString omitted) ++ Text.ofString " bytes omitted]…\n") := by
    unfold omittedMarker
    rw [← ofString_append, ← ofString_append, ← String.append_assoc]
    rfl
  rw [hmarker, Text.bytes_append, List.head?_append, hstart]
  rfl

theorem encodable_omittedMarker (omitted : ℕ) : (omittedMarker omitted).Encodable :=
  Text.encodable_ofString _

theorem lastBytes_eq (value : List ℕ) (count : ℕ) :
    lastBytes value count = value.drop (if count = 0 then 0 else value.length - count) := by
  unfold lastBytes
  by_cases hcount : count = 0
  · rw [if_pos hcount, if_pos hcount, List.drop_zero]
  · rw [if_neg hcount, if_neg hcount]

theorem headTailBytes_eq {raw : Text} (h : raw.Encodable) :
    headTailBytes raw.bytes previewBytes = keptText raw := by
  unfold headTailBytes keptText
  dsimp only
  by_cases hsize : raw.bytes.length ≤ previewBytes
  · rw [if_pos hsize, if_pos hsize]
    exact Text.decodeReplacing_bytes h
  · rw [if_neg hsize, if_neg hsize, lastBytes_eq]
    exact Text.decodeReplacing_cut h (show 0x0A < 0x80 by decide) (head_omittedMarker _)
      (encodable_omittedMarker _) _ _

theorem encodable_keptText {raw : Text} (h : raw.Encodable) : (keptText raw).Encodable := by
  rw [← headTailBytes_eq h]
  unfold headTailBytes
  split
  · exact Text.encodable_map_ofChar _
  · exact Text.encodable_map_ofChar _

/-! ## The size of a summary -/

/-- The fields of a dumped message with text content. -/
def messageFields (content : Text) (kwargs : List (Text × JsonValue)) (name : JsonValue)
    (callId : Text) (status : JsonValue) : List (Text × JsonValue) :=
  [(Text.ofString "type", .str (Text.ofString "tool")), (Text.ofString "data", .obj
    [(Text.ofString "content", .str content), (Text.ofString "additional_kwargs", .obj kwargs),
      (Text.ofString "response_metadata", .obj []),
      (Text.ofString "type", .str (Text.ofString "tool")), (Text.ofString "name", name),
      (Text.ofString "id", .null), (Text.ofString "tool_call_id", .str callId),
      (Text.ofString "artifact", .null), (Text.ofString "status", status)])]

def statusJson : Status → JsonValue
  | .success => .str (Text.ofString "success")
  | .error => .str (Text.ofString "error")

/-- The JSON of a summary with this content. -/
def summaryJson (content operationId : Text) (call : ToolCall) (originalBytes : ℕ)
    (status : Status) : JsonValue :=
  messageObject (.obj (messageFields content
    [(Text.ofString "artifact_id", .str (artifactId operationId)),
      (Text.ofString "original_bytes", .int originalBytes)] (.str call.name) call.id
    (statusJson status)))

/-- The bytes of a summary that keeps nothing of the text. -/
def envelopeSize (operationId : Text) (call : ToolCall) (originalBytes : ℕ) (status : Status) : ℕ :=
  let complete : Bool := originalBytes ≤ maxToolArtifactBytes
  jsonSize (summaryJson (artifactNote complete (artifactId operationId) originalBytes) operationId
    call originalBytes status)

theorem jsonSize_summaryJson_append (kept note operationId : Text) (call : ToolCall)
    (originalBytes : ℕ) (status : Status) :
    jsonSize (summaryJson (kept ++ note) operationId call originalBytes status) =
      textCost kept + jsonSize (summaryJson note operationId call originalBytes status) := by
  unfold summaryJson messageObject messageFields
  simp only [jsonSize, fieldSizes, textCost_append, List.length_cons, List.length_nil]
  omega

theorem toJson_summaryOf (content operationId : Text) (call : ToolCall) (originalBytes : ℕ)
    (status : Status) :
    toJson true (.dict (summaryOf content operationId call originalBytes status).toDict) =
      if Writable originalBytes then some (.obj (messageFields content
        [(Text.ofString "artifact_id", .str (artifactId operationId)),
          (Text.ofString "original_bytes", .int originalBytes)] (.str call.name) call.id
        (statusJson status))) else none := by
  unfold summaryOf ToolMessage.toDict ToolMessage.data messageFields
  by_cases hwritable : Writable originalBytes
  · rw [if_pos hwritable]
    cases status <;>
      simp [toJson, toJsonFields, sortable, key, str, Key.isStr, Key.text, Content.value, optValue,
        Status.value, statusJson, hwritable]
  · rw [if_neg hwritable]
    cases status <;>
      simp [toJson, toJsonFields, sortable, key, str, Key.isStr, Key.text, Content.value, optValue,
        Status.value, hwritable]

/-- The constructor of the library makes the message it is given the fields of. -/
def ToolMessages.DumpsFields (L : ToolMessages M) : Prop :=
  ∀ m : ToolMessage, L.messageToDict (L.toolMessage m) = m.toDict

theorem encodeUtf8_eq_ok {t : Text} {bytes : List ℕ} :
    encodeUtf8 t = .ok bytes ↔ t.Encodable ∧ bytes = t.bytes := by
  unfold encodeUtf8 Text.encode
  by_cases h : t.Encodable
  · rw [if_pos h]
    constructor
    · intro hok
      cases hok
      exact ⟨h, rfl⟩
    · rintro ⟨_, rfl⟩
      rfl
  · rw [if_neg h]
    constructor
    · intro hok
      cases hok
    · rintro ⟨ht, _⟩
      exact absurd ht h

theorem measure_resultText (json : JsonValue) :
    Measure (resultText json) (jsonSize json) (JsonEncodable json) := by
  obtain ⟨hsize, hencodable⟩ := sortFields_spec json
  have hdumps := measure_dumps (sortFields json)
  exact ⟨by rw [resultText, hdumps.size_eq, hsize], by
    rw [resultText, hdumps.encodable_iff, hencodable]⟩

theorem serializedBytes_eq_ok {r : ToolResult M} {bytes : List ℕ} :
    serializedBytes L r = .ok bytes ↔ ∃ json, serializeToolResult L.toLangchain r = .ok json ∧
      JsonEncodable json ∧ bytes = (resultText json).bytes := by
  unfold serializedBytes
  rw [bind_eq_ok]
  simp only [encodeUtf8_eq_ok, (measure_resultText _).encodable_iff]

/-- The text of a result can be encoded, within the limit. -/
def Fits (L : ToolMessages M) (r : ToolResult M) : Prop :=
  ∃ bytes, serializedBytes L r = .ok bytes ∧ bytes.length ≤ maxModelToolResultBytes

theorem fits_iff {r : ToolResult M} : Fits L r ↔ ∃ json,
    serializeToolResult L.toLangchain r = .ok json ∧ JsonEncodable json ∧
      jsonSize json ≤ maxModelToolResultBytes := by
  unfold Fits
  simp only [serializedBytes_eq_ok]
  constructor
  · rintro ⟨bytes, ⟨json, hjson, hencodable, rfl⟩, hle⟩
    rw [(measure_resultText json).size_eq] at hle
    exact ⟨json, hjson, hencodable, hle⟩
  · rintro ⟨json, hjson, hencodable, hle⟩
    refine ⟨_, ⟨json, hjson, hencodable, rfl⟩, ?_⟩
    rw [(measure_resultText json).size_eq]
    exact hle

variable {operationId : Text} {call : ToolCall} {content : Text} {originalBytes : ℕ}
  {status : Status}

theorem serialize_summary (hL : L.DumpsFields) {json : JsonValue} :
    serializeToolResult L.toLangchain (.toolMessage (L.toolMessage
      (summaryOf content operationId call originalBytes status))) = .ok json ↔
        Writable originalBytes ∧ json = summaryJson content operationId call originalBytes status := by
  rw [serialize_toolMessage, hL, toJson_summaryOf]
  by_cases hwritable : Writable originalBytes
  · rw [if_pos hwritable]
    constructor
    · rintro ⟨fs, hfs, rfl⟩
      cases hfs
      exact ⟨hwritable, rfl⟩
    · rintro ⟨_, rfl⟩
      exact ⟨_, rfl, rfl⟩
  · rw [if_neg hwritable]
    constructor
    · rintro ⟨fs, hfs, _⟩
      cases hfs
    · rintro ⟨h, _⟩
      exact absurd h hwritable

theorem jsonEncodable_summaryJson : JsonEncodable
    (summaryJson content operationId call originalBytes status) ↔
      content.Encodable ∧ (artifactId operationId).Encodable ∧ call.name.Encodable ∧
        call.id.Encodable := by
  have hstatus : JsonEncodable (statusJson status) := by
    cases status
    · exact Text.encodable_ofString _
    · exact Text.encodable_ofString _
  unfold summaryJson messageObject messageFields
  simp only [JsonEncodable, FieldsEncodable, Text.encodable_ofString, hstatus, true_and, and_true]

theorem encodable_artifactNote {complete : Bool} :
    (artifactNote complete (artifactId operationId) originalBytes).Encodable ↔
      (artifactId operationId).Encodable := by
  unfold artifactNote
  dsimp only
  rw [Text.encodable_append, Text.encodable_append]
  simp only [Text.encodable_ofString, true_and, and_true]

/-! ## The bounded message -/

/-- A summary of this text stays within the limit: the escaped text that is kept and the
rest of the message. -/
structure SummaryFits (raw operationId : Text) (call : ToolCall) (status : Status) : Prop where
  writable : Writable raw.bytes.length
  encodable : (artifactId operationId).Encodable ∧ call.name.Encodable ∧ call.id.Encodable
  size : textCost (keptText raw) + envelopeSize operationId call raw.bytes.length status ≤
    maxModelToolResultBytes

/-- The summary that stands for a text. -/
def textSummary (raw operationId : Text) (call : ToolCall) (status : Status) : ToolMessage :=
  summaryOf (keptText raw ++ artifactNote (raw.bytes.length ≤ maxToolArtifactBytes)
    (artifactId operationId) raw.bytes.length) operationId call raw.bytes.length status

theorem fits_textSummary (hL : L.DumpsFields) {raw : Text} (hraw : raw.Encodable) :
    Fits L (.toolMessage (L.toolMessage (textSummary raw operationId call status))) ↔
      SummaryFits raw operationId call status := by
  have hkept := encodable_keptText hraw
  rw [fits_iff]
  unfold textSummary
  simp only [serialize_summary hL]
  constructor
  · rintro ⟨json, ⟨hwritable, rfl⟩, hencodable, hle⟩
    rw [jsonEncodable_summaryJson] at hencodable
    rw [jsonSize_summaryJson_append] at hle
    exact ⟨hwritable, hencodable.2, hle⟩
  · rintro ⟨hwritable, hencodable, hle⟩
    refine ⟨_, ⟨hwritable, rfl⟩, ?_, ?_⟩
    · rw [jsonEncodable_summaryJson, Text.encodable_append, encodable_artifactNote]
      exact ⟨⟨hkept, hencodable.1⟩, hencodable⟩
    · rw [jsonSize_summaryJson_append]
      exact hle

theorem exists_summarize_eq (store : ToolArtifact → Bool) {raw : Text} (hraw : raw.Encodable)
    (contentType : String) : ∃ artifact,
      summarize store operationId call raw contentType status =
        if store artifact then .ok (textSummary raw operationId call status)
        else .error .artifactRefused := by
  unfold summarize textSummary
  rw [encodeUtf8_eq_ok.mpr ⟨hraw, rfl⟩, ← headTailBytes_eq hraw]
  exact ⟨_, rfl⟩

theorem summarize_eq {store : ToolArtifact → Bool} {raw : Text} (hraw : raw.Encodable)
    (contentType : String) :
    summarize store operationId call raw contentType status =
        .ok (textSummary raw operationId call status) ∨
      summarize store operationId call raw contentType status = .error .artifactRefused := by
  obtain ⟨artifact, hstored⟩ := @exists_summarize_eq operationId call status store raw hraw contentType
  rw [hstored]
  by_cases hstore : store artifact = true
  · rw [if_pos hstore]
    exact .inl rfl
  · rw [if_neg hstore]
    exact .inr rfl

theorem summarize_stored {raw : Text} (hraw : raw.Encodable) {contentType : String} :
    summarize (fun _ ↦ true) operationId call raw contentType status =
      .ok (textSummary raw operationId call status) := by
  obtain ⟨artifact, hstored⟩ :=
    @exists_summarize_eq operationId call status (fun _ ↦ true) raw hraw contentType
  rw [hstored, if_pos rfl]

/-- Whatever the artifact store does, a message is bounded to one within the limit, which
is then recorded; only the store may refuse it. -/
def Bounded (L : ToolMessages M) (operationId : Text) (call : ToolCall) (m : M) : Prop :=
  ∀ store, boundToolResult L store operationId call (.toolMessage m) = .error .artifactRefused ∨
    ∃ r text, boundToolResult L store operationId call (.toolMessage m) = .ok r ∧ Fits L r ∧
      recordedResult L store operationId call (.toolMessage m) = .ok (r, text)

/-- The message is small itself, or the summary of its text is. -/
def WithinLimit (L : ToolMessages M) (operationId : Text) (call : ToolCall) (m : M) : Prop :=
  ∃ raw, messageContentText (L.content m) = .ok raw ∧ raw.Encodable ∧
    (raw.bytes.length ≤ maxModelToolResultBytes ∧ Fits L (.toolMessage m) ∨
      (raw.bytes.length ≤ maxModelToolResultBytes →
        ∃ bytes, serializedBytes L (.toolMessage m) = .ok bytes) ∧
          SummaryFits raw operationId call (L.status m))

section Recorded

variable {store : ToolArtifact → Bool} {m : M} {r : ToolResult M}

theorem recorded_of_fits
    (hbound : boundToolResult L store operationId call (.toolMessage m) = .ok r) (h : Fits L r) :
    ∃ text, recordedResult L store operationId call (.toolMessage m) = .ok (r, text) := by
  obtain ⟨bytes, hbytes, hle⟩ := h
  obtain ⟨json, hjson, hencodable, rfl⟩ := serializedBytes_eq_ok.mp hbytes
  rw [← (measure_resultText json).encodable_iff] at hencodable
  refine ⟨resultText json, ?_⟩
  unfold recordedResult
  rw [hbound]
  dsimp only [Bind.bind, Except.bind]
  rw [hjson]
  dsimp only
  rw [encodeUtf8_eq_ok.mpr ⟨hencodable, rfl⟩]
  dsimp only
  rw [if_pos hle]
  rfl

variable {raw : Text} (hcontent : messageContentText (L.content m) = .ok raw)
  (hraw : raw.Encodable)

include hcontent hraw

theorem bound_of_text : boundToolResult L store operationId call (.toolMessage m) = (do
    let whole ← givenWhole L m raw.bytes
    if whole then return .toolMessage m
    else
      let summary ← summarize store operationId call raw "text/plain" (L.status m)
      return .toolMessage (L.toolMessage summary)) := by
  rw [boundToolResult, boundMessage, hcontent]
  dsimp only [Bind.bind, Except.bind]
  rw [encodeUtf8_eq_ok.mpr ⟨hraw, rfl⟩]

/-- A message that is small is given as it is. -/
theorem bound_small (hsize : raw.bytes.length ≤ maxModelToolResultBytes)
    (hfits : Fits L (.toolMessage m)) :
    boundToolResult L store operationId call (.toolMessage m) = .ok (.toolMessage m) := by
  obtain ⟨bytes, hbytes, hle⟩ := hfits
  have hwhole : givenWhole L m raw.bytes = .ok true := by
    unfold givenWhole
    rw [if_pos hsize, hbytes, Except.map, decide_eq_true hle]
  rw [bound_of_text hcontent hraw, hwhole]
  rfl

/-- A message whose text is small but that cannot be written is no result. -/
theorem bound_unwritable (hsize : raw.bytes.length ≤ maxModelToolResultBytes) {e : ToolResultError}
    (herror : serializedBytes L (.toolMessage m) = .error e) :
    boundToolResult L store operationId call (.toolMessage m) = .error e := by
  have hwhole : givenWhole L m raw.bytes = .error e := by
    unfold givenWhole
    rw [if_pos hsize, herror, Except.map]
  rw [bound_of_text hcontent hraw, hwhole]
  rfl

/-- Any other message is given as its summary. -/
theorem bound_large (hlarge : ¬(raw.bytes.length ≤ maxModelToolResultBytes ∧
      Fits L (.toolMessage m)))
    (hwritable : raw.bytes.length ≤ maxModelToolResultBytes →
      ∃ bytes, serializedBytes L (.toolMessage m) = .ok bytes) :
    boundToolResult L store operationId call (.toolMessage m) =
      (summarize store operationId call raw "text/plain" (L.status m)).map
        fun summary ↦ .toolMessage (L.toolMessage summary) := by
  have hwhole : givenWhole L m raw.bytes = .ok false := by
    unfold givenWhole
    by_cases hsize : raw.bytes.length ≤ maxModelToolResultBytes
    · obtain ⟨bytes, hbytes⟩ := hwritable hsize
      have hover : ¬bytes.length ≤ maxModelToolResultBytes := fun hle ↦
        hlarge ⟨hsize, bytes, hbytes, hle⟩
      rw [if_pos hsize, hbytes, Except.map, decide_eq_false hover]
    · rw [if_neg hsize]
  rw [bound_of_text hcontent hraw, hwhole]
  cases summarize store operationId call raw "text/plain" (L.status m) <;> rfl

end Recorded

theorem serializedBytes_error {m : M} {e : ToolResultError}
    (h : serializedBytes L (.toolMessage m) = .error e) : e ≠ .artifactRefused := by
  rintro rfl
  unfold serializedBytes serializeToolResult payload writeJson encodeUtf8 at h
  dsimp only [Bind.bind, Except.bind] at h
  split at h
  · rename_i e' he
    split at he
    · cases he
    · cases he
      cases h
  · split at h
    · cases h
    · cases h

theorem messageContentText_error {content : Content} {e : ToolResultError}
    (h : messageContentText content = .error e) : e ≠ .artifactRefused := by
  rintro rfl
  unfold messageContentText at h
  split at h
  · cases h
  · split at h
    · cases h
    · cases h

theorem withinLimit_of_bounded (hL : L.DumpsFields) {m : M}
    (h : Bounded L operationId call m) : WithinLimit L operationId call m := by
  have hno : ∀ e, e ≠ .artifactRefused →
      boundToolResult L (fun _ ↦ true) operationId call (.toolMessage m) ≠ .error e := by
    rintro e hne herror
    rcases h fun _ ↦ true with hrefused | ⟨r, text, hbound, _⟩
    · rw [herror] at hrefused
      cases hrefused
      exact hne rfl
    · rw [herror] at hbound
      cases hbound
  cases hcontent : messageContentText (L.content m) with
  | error e =>
      have hbound : boundToolResult L (fun _ ↦ true) operationId call (.toolMessage m) =
          .error e := by
        rw [boundToolResult, boundMessage, hcontent]
        rfl
      exact absurd hbound (hno e (messageContentText_error hcontent))
  | ok raw =>
      have hraw : raw.Encodable := by
        by_contra hraw
        have hencode : encodeUtf8 raw = .error .unicodeEncode := by
          unfold encodeUtf8 Text.encode
          rw [if_neg hraw]
        have hbound : boundToolResult L (fun _ ↦ true) operationId call (.toolMessage m) =
            .error .unicodeEncode := by
          rw [boundToolResult, boundMessage, hcontent]
          dsimp only [Bind.bind, Except.bind]
          rw [hencode]
        exact hno _ (by rintro ⟨⟩) hbound
      refine ⟨raw, hcontent, hraw, ?_⟩
      by_cases hsmall : raw.bytes.length ≤ maxModelToolResultBytes ∧ Fits L (.toolMessage m)
      · exact .inl hsmall
      · have hwritable : raw.bytes.length ≤ maxModelToolResultBytes →
            ∃ bytes, serializedBytes L (.toolMessage m) = .ok bytes := by
          intro hsize
          cases hbytes : serializedBytes L (.toolMessage m) with
          | error e =>
              exact absurd (bound_unwritable hcontent hraw hsize hbytes)
                (hno e (serializedBytes_error hbytes))
          | ok bytes => exact ⟨bytes, rfl⟩
        refine .inr ⟨hwritable, ?_⟩
        have hlarge := @bound_large M L operationId call (fun _ ↦ true) m raw hcontent hraw hsmall
          hwritable
        rw [summarize_stored hraw] at hlarge
        rcases h fun _ ↦ true with hrefused | ⟨r, text, hbound, hfits, _⟩
        · rw [hlarge] at hrefused
          cases hrefused
        · rw [hlarge] at hbound
          cases hbound
          exact (fits_textSummary hL hraw).mp hfits

theorem bounded_of_withinLimit (hL : L.DumpsFields) {m : M}
    (h : WithinLimit L operationId call m) : Bounded L operationId call m := by
  intro store
  obtain ⟨raw, hcontent, hraw, hsmall | ⟨hwritable, hsummary⟩⟩ := h
  · have hbound : boundToolResult L store operationId call (.toolMessage m) =
        .ok (.toolMessage m) := bound_small hcontent hraw hsmall.1 hsmall.2
    obtain ⟨text, htext⟩ := recorded_of_fits hbound hsmall.2
    exact .inr ⟨_, text, hbound, hsmall.2, htext⟩
  · by_cases hsmall : raw.bytes.length ≤ maxModelToolResultBytes ∧ Fits L (.toolMessage m)
    · have hbound : boundToolResult L store operationId call (.toolMessage m) =
          .ok (.toolMessage m) := bound_small hcontent hraw hsmall.1 hsmall.2
      obtain ⟨text, htext⟩ := recorded_of_fits hbound hsmall.2
      exact .inr ⟨_, text, hbound, hsmall.2, htext⟩
    · have hbound := @bound_large M L operationId call store m raw hcontent hraw hsmall hwritable
      rcases summarize_eq hraw "text/plain" with hsummarize | hsummarize
      · rw [hsummarize] at hbound
        have hfits := (fits_textSummary hL hraw).mpr hsummary
        obtain ⟨text, htext⟩ := recorded_of_fits hbound hfits
        exact .inr ⟨_, text, hbound, hfits, htext⟩
      · rw [hsummarize] at hbound
        exact .inl hbound

/-- A message is bounded to one within the limit exactly when it is small itself or the
summary of its text is. -/
theorem bounded_iff (hL : L.DumpsFields) (operationId : Text) (call : ToolCall) (m : M) :
    Bounded L operationId call m ↔ WithinLimit L operationId call m :=
  ⟨withinLimit_of_bounded hL, bounded_of_withinLimit hL⟩

/-! ## Messages that are escaped -/

/-- The library with its tool messages, as far as they go. -/
def plainMessages : ToolMessages ToolMessage where
  toLangchain := toolMessages
  content := ToolMessage.content
  status := ToolMessage.status
  toolMessage m := m

theorem plainMessages_dumpsFields : plainMessages.DumpsFields := fun _ ↦ rfl

/-- A message that has nothing but a text. -/
def textMessage (content : Text) : ToolMessage where
  content := .text content
  toolCallId := Text.ofString "call"

def textMessageJson (content : Text) : JsonValue :=
  messageObject (.obj (messageFields content [] .null (Text.ofString "call")
    (statusJson .success)))

theorem serialize_textMessage {content : Text} {json : JsonValue} :
    serializeToolResult plainMessages.toLangchain (.toolMessage (textMessage content)) = .ok json ↔
      json = textMessageJson content := by
  have hfields : toJson true (.dict (toolMessages.messageToDict (textMessage content))) =
      some (.obj (messageFields content [] .null (Text.ofString "call") (statusJson .success))) := by
    change toJson true (.dict (textMessage content).toDict) = _
    unfold textMessage ToolMessage.toDict ToolMessage.data messageFields
    simp [toJson, toJsonFields, sortable, key, str, Key.isStr, Key.text, Content.value, optValue,
      Status.value, statusJson]
  change serializeToolResult toolMessages _ = _ ↔ _
  rw [serialize_toolMessage, hfields]
  constructor
  · rintro ⟨fs, hfs, rfl⟩
    cases hfs
    rfl
  · rintro rfl
    exact ⟨_, rfl, rfl⟩

theorem length_bytes_replicate (c : CodePoint) (n : ℕ) :
    (Text.bytes (List.replicate n c)).length = n * Utf8.width c.val := by
  induction n with
  | zero => rw [Nat.zero_mul]; rfl
  | succ n ih =>
      rw [List.replicate_succ, Text.bytes_cons, List.length_append, Utf8.length_encodePoint, ih]
      ring

theorem textCost_replicate (c : CodePoint) (n : ℕ) :
    textCost (List.replicate n c) = n * escapeCost c := by
  induction n with
  | zero => rw [Nat.zero_mul]; rfl
  | succ n ih =>
      rw [List.replicate_succ, textCost_cons, ih]
      ring

theorem headText_replicate {c : CodePoint} (hwidth : Utf8.width c.val = 1) (n k : ℕ) :
    Text.headText (List.replicate n c) k = List.replicate (min k n) c := by
  induction n generalizing k with
  | zero => rw [Nat.min_zero]; rfl
  | succ n ih =>
      rw [List.replicate_succ, Text.headText, hwidth]
      by_cases hk : k = 0
      · rw [if_pos hk, hk, Nat.zero_min]
        rfl
      · rw [if_neg hk, if_neg (by omega), ih, ← List.replicate_succ]
        congr 1
        omega

theorem tailText_replicate {c : CodePoint} (hwidth : Utf8.width c.val = 1) (n k : ℕ) :
    Text.tailText (List.replicate n c) k = List.replicate (n - k) c := by
  induction n generalizing k with
  | zero => rw [Nat.zero_sub]; rfl
  | succ n ih =>
      rw [List.replicate_succ, Text.tailText, hwidth]
      by_cases hk : k = 0
      · rw [if_pos hk, hk, Nat.sub_zero, List.replicate_succ]
      · rw [if_neg hk, if_neg (by omega), ih]
        congr 1
        omega

/-- A text above the limit, whose summary is within it. -/
def longText : Text := List.replicate 70000 (CodePoint.ofChar 'a')

theorem length_bytes_longText : longText.bytes.length = 70000 := by
  rw [longText, length_bytes_replicate]
  rfl

theorem textCost_keptText_longText : textCost (keptText longText) ≤ 40000 := by
  have hmarker : (omittedMarker (70000 - previewBytes)).bytes.length ≤ 100 := by decide +kernel
  have hcost : textCost (omittedMarker (70000 - previewBytes)) ≤ 100 := by decide +kernel
  have hescape : escapeCost (CodePoint.ofChar 'a') = 1 := by decide
  unfold keptText
  rw [length_bytes_longText]
  dsimp only
  rw [if_neg (by decide), textCost_append, textCost_append, longText,
    headText_replicate (by decide), tailText_replicate (by decide), textCost_replicate,
    textCost_replicate, hescape]
  have hpreview : previewBytes = 32768 := rfl
  generalize (omittedMarker (70000 - previewBytes)).bytes.length = marker at hmarker ⊢
  split
  · omega
  · omega

theorem bounded_iff_long : plainMessages.DumpsFields ∧
    maxModelToolResultBytes < longText.bytes.length ∧
    Bounded plainMessages (Text.ofString "toolop_1")
      ⟨Text.ofString "read_file", Text.ofString "call"⟩ (textMessage longText) := by
  have hlarge : maxModelToolResultBytes < longText.bytes.length := by
    rw [length_bytes_longText]
    decide
  refine ⟨plainMessages_dumpsFields, hlarge, ?_⟩
  apply (bounded_iff plainMessages_dumpsFields _ _ _).mpr
  refine ⟨longText, rfl, ?_, .inr ⟨fun hsmall ↦ absurd hsmall (by omega), ?_, ?_, ?_⟩⟩
  · intro c hc
    rw [List.eq_of_mem_replicate hc]
    decide
  · rw [length_bytes_longText]
    decide +kernel
  · exact ⟨by decide +kernel, Text.encodable_ofString _, Text.encodable_ofString _⟩
  · rw [length_bytes_longText]
    have henvelope : envelopeSize (Text.ofString "toolop_1")
        ⟨Text.ofString "read_file", Text.ofString "call"⟩ 70000 .success ≤ 1000 := by
      decide +kernel
    have hkept := textCost_keptText_longText
    unfold maxModelToolResultBytes
    exact le_trans (Nat.add_le_add hkept henvelope) (by decide)

/-- A text of control characters, which take six bytes each in JSON. -/
def controlText : Text := List.replicate 32768 ⟨1, by decide⟩

/-- A text that is short but takes more than the limit in JSON, and whose summary keeps all
of it. -/
theorem not_withinLimit_of_cost {content : Text} (hbytes : content.bytes.length = 32768)
    (hcost : textCost content = 196608) (operationId : Text) (call : ToolCall) :
    ¬ WithinLimit plainMessages operationId call (textMessage content) := by
  rintro ⟨raw, hcontent, _, hcase⟩
  have hraw : raw = content := (Except.ok.inj hcontent).symm
  subst hraw
  rcases hcase with ⟨_, hfits⟩ | ⟨_, hsummary⟩
  · obtain ⟨json, hjson, _, hle⟩ := fits_iff.mp hfits
    rw [serialize_textMessage.mp hjson] at hle
    unfold textMessageJson messageObject messageFields maxModelToolResultBytes at hle
    simp only [jsonSize, fieldSizes, hcost] at hle
    omega
  · have hsize := hsummary.size
    have hkept : keptText raw = raw := by
      unfold keptText
      rw [hbytes]
      rfl
    rw [hkept, hcost] at hsize
    unfold maxModelToolResultBytes at hsize
    omega

/-- Control characters take six times their size. -/
theorem not_bounded : ¬ ∀ (M : Type) (L : ToolMessages M), L.DumpsFields →
    ∀ (operationId : Text) (call : ToolCall) (m : M), Bounded L operationId call m := by
  intro h
  have hbounded := h ToolMessage plainMessages plainMessages_dumpsFields (Text.ofString "toolop_1")
    ⟨Text.ofString "execute", Text.ofString "call"⟩ (textMessage controlText)
  exact not_withinLimit_of_cost (length_bytes_replicate _ _) (textCost_replicate _ _) _ _
    (withinLimit_of_bounded plainMessages_dumpsFields hbounded)

end ShejaneRuntime.ToolResults
