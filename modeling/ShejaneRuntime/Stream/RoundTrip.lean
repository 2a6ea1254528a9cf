import ShejaneRuntime.Stream.JsonReading
import ShejaneRuntime.Stream.Transport

/-!
# Both ends of the event stream

The SDK finds the frames that were written, however the bytes are cut. The
gateway finds their lines as long as no string of an envelope holds a character
at which `str.splitlines` ends a line, and takes the marker for the end of the
stream even when the source raised.
-/

namespace ShejaneRuntime.Stream

open Lib Store

/-! ## The characters of a written value -/

def isPrintable (c : Char) : Bool := 0x20 ≤ c.toNat

theorem printable_of_atomChar {c : Char} (h : isAtomChar c = true) : isPrintable c = true := by
  have hval : c.val.toNat = c.toNat := rfl
  simp only [isAtomChar, Bool.or_eq_true, decide_eq_true_eq, Char.isAlphanum, Char.isAlpha,
    Char.isUpper, Char.isLower, Char.isDigit, Bool.and_eq_true] at h
  rw [isPrintable, decide_eq_true_eq]
  rcases h with ((h | rfl) | rfl) | rfl
  · simp only [UInt32.le_iff_toNat_le, hval] at h
    simp at h
    omega
  all_goals decide

theorem printable_token {token : List Char} (h : token.all isAtomChar = true) :
    token.all isPrintable = true := by
  rw [List.all_eq_true] at h ⊢
  intro c hc
  exact printable_of_atomChar (h c hc)

theorem printable_escapeChar (c : Char) : (escapeChar c).all isPrintable = true := by
  have hdigit : ∀ d < 16, isPrintable (Nat.digitChar d) = true := by decide
  unfold escapeChar
  split
  · rfl
  split
  · rfl
  split
  · rfl
  split
  · rfl
  split
  · rfl
  split
  · rfl
  split
  · rfl
  split
  · have hhigh := hdigit (c.toNat / 16) (by omega)
    have hlow := hdigit (c.toNat % 16) (by omega)
    simp only [List.all_cons, hhigh, hlow]
    rfl
  · rename_i hcontrol
    rw [List.all_cons, isPrintable, decide_eq_true (by omega)]
    rfl

theorem printable_quote (s : String) : (quote s).all isPrintable = true := by
  have hchars : (s.toList.flatMap escapeChar).all isPrintable = true := by
    rw [List.all_eq_true]
    intro c hc
    obtain ⟨c', _, hc'⟩ := List.mem_flatMap.mp hc
    exact List.all_eq_true.mp (printable_escapeChar c') c hc'
  rw [quote, List.all_cons, List.all_append, hchars]
  rfl

mutual

theorem printable_dumps : ∀ j : Json, readable j = true → (dumps j).all isPrintable = true
  | .null, _ => rfl
  | .bool true, _ => rfl
  | .bool false, _ => rfl
  | .num n, _ => printable_token (decimal_chars n)
  | .real repr, hreadable => printable_token (readable_real hreadable).2
  | .str s, _ => printable_quote s
  | .arr [], _ => rfl
  | .arr (j :: items), hreadable => by
      rw [readable, readableItems, Bool.and_eq_true] at hreadable
      rw [dumps, List.all_cons, List.all_append, printable_dumps j hreadable.1,
        printable_dumpsItems items hreadable.2]
      rfl
  | .obj [], _ => rfl
  | .obj ((key, j) :: fields), hreadable => by
      rw [readable, readableFields, Bool.and_eq_true] at hreadable
      rw [dumps, List.all_cons, List.all_append, List.all_cons, List.all_cons, List.all_append,
        printable_quote, printable_dumps j hreadable.1,
        printable_dumpsFields fields hreadable.2]
      rfl

theorem printable_dumpsItems : ∀ items : List Json, readableItems items = true →
    (dumpsItems items).all isPrintable = true
  | [], _ => rfl
  | j :: items, hreadable => by
      rw [readableItems, Bool.and_eq_true] at hreadable
      rw [dumpsItems, List.all_cons, List.all_cons, List.all_append,
        printable_dumps j hreadable.1, printable_dumpsItems items hreadable.2]
      rfl

theorem printable_dumpsFields : ∀ fields : List (String × Json), readableFields fields = true →
    (dumpsFields fields).all isPrintable = true
  | [], _ => rfl
  | (key, j) :: fields, hreadable => by
      rw [readableFields, Bool.and_eq_true] at hreadable
      rw [dumpsFields, List.all_cons, List.all_cons, List.all_append, List.all_cons,
        List.all_cons, List.all_append, printable_quote, printable_dumps j hreadable.1,
        printable_dumpsFields fields hreadable.2]
      rfl

end

/-- A dict is written between braces. -/
theorem exists_dumps_obj (fields : List (String × Json)) :
    ∃ inner, dumps (.obj fields) = '\x7b' :: (inner ++ ['\x7d']) := by
  have hfields : ∀ fields : List (String × Json), ∃ inner, dumpsFields fields =
      inner ++ ['\x7d'] := by
    intro fields
    induction fields with
    | nil => exact ⟨[], rfl⟩
    | cons field fields ih =>
        obtain ⟨key, j⟩ := field
        obtain ⟨inner, hinner⟩ := ih
        refine ⟨',' :: ' ' :: (quote key ++ ':' :: ' ' :: (dumps j ++ inner)), ?_⟩
        rw [dumpsFields, hinner]
        simp
  cases fields with
  | nil => exact ⟨[], rfl⟩
  | cons field fields =>
      obtain ⟨key, j⟩ := field
      obtain ⟨inner, hinner⟩ := hfields fields
      refine ⟨quote key ++ ':' :: ' ' :: (dumps j ++ inner), ?_⟩
      rw [dumps, hinner]
      simp

/-! ## The frames of a text -/

/-- A line end that a written value can hold: a next line, a line separator or
a paragraph separator. -/
def isUnicodeBreak (c : Char) : Bool := c.toNat ∈ [0x85, 0x2028, 0x2029]

theorem isLineBreak_eq {c : Char} (h : isPrintable c = true) :
    isLineBreak c = isUnicodeBreak c := by
  rw [isPrintable, decide_eq_true_eq] at h
  rw [isLineBreak, isUnicodeBreak]
  apply decide_eq_decide.mpr
  simp only [List.mem_cons, List.not_mem_nil, or_false]
  omega

theorem newline_of_not_lineBreak {c : Char} (h : isLineBreak c = false) : c ≠ '\n' := by
  rintro rfl
  cases h

theorem lines_ne_nil (f : Frame) : f.lines ≠ [] := by
  cases f <;> exact List.cons_ne_nil _ _

/-- A line of a frame is not empty and holds no line feed. -/
theorem lines_plain (f : Frame) : ∀ line ∈ f.lines, '\n' ∉ line ∧ line ≠ [] := by
  have happend : ∀ (label text : List Char), label ≠ [] → '\n' ∉ label →
      (∀ c ∈ text, c ≠ '\n') → '\n' ∉ label ++ text ∧ label ++ text ≠ [] := by
    intro label text hne hlabel htext
    constructor
    · intro hmem
      rcases List.mem_append.mp hmem with hmem | hmem
      · exact hlabel hmem
      · exact htext _ hmem rfl
    · intro hnil
      exact hne (List.append_eq_nil_iff.mp hnil).1
  intro line hline
  cases f with
  | event e =>
      simp only [Frame.lines, List.mem_cons, List.not_mem_nil, or_false] at hline
      rcases hline with rfl | rfl | rfl
      · exact happend _ _ (by decide) (by decide)
          fun c hc ↦ newline_of_not_lineBreak (e.id_plain c hc)
      · exact happend _ _ (by decide) (by decide)
          fun c hc ↦ newline_of_not_lineBreak (e.eventType_plain c hc)
      · apply happend _ _ (by decide) (by decide)
        rintro c hc rfl
        have hprintable := List.all_eq_true.mp (printable_dumps e.event e.readable) _ hc
        cases hprintable
  | done =>
      rw [Frame.lines, List.mem_singleton] at hline
      rw [hline]
      decide
  | keepAlive comment =>
      rw [Frame.lines, List.mem_singleton] at hline
      rw [hline]
      exact happend _ _ (by decide) (by decide)
        fun c hc ↦ newline_of_not_lineBreak (comment.plain c hc)

/-- The text of a frame without the separators that end it. -/
def Frame.chunk (f : Frame) : List Char := ['\n'].intercalate f.lines

theorem wireText_cons (f : Frame) (frames : List Frame) :
    wireText (f :: frames) =
      f.lines.flatMap (fun line ↦ line ++ ['\n']) ++ '\n' :: wireText frames := by
  rw [wireText, List.flatMap_cons, Frame.text, List.append_assoc]
  rfl

/-- Cut at blank lines, the text gives its frames. -/
theorem splitPairs_wireText (frames : List Frame) :
    splitPairs '\n' (wireText frames) = (frames.map Frame.chunk, []) := by
  induction frames with
  | nil => rfl
  | cons f frames ih =>
      rw [wireText_cons, splitPairs_lines (lines_ne_nil f) (lines_plain f), ih]
      rfl

theorem head?_wireText (frames : List Frame) :
    (wireText frames).head? ≠ some (Char.ofNat 0xFEFF) := by
  have hmark : ∀ c : Char, c.toNat < 0x80 → some c ≠ some (Char.ofNat 0xFEFF) := by
    intro c hc heq
    rw [Option.some_inj.mp heq] at hc
    exact absurd hc (by decide)
  cases frames with
  | nil => nofun
  | cons f frames => cases f <;> exact hmark _ (by decide)

/-! ## The SDK -/

theorem dropWhile_append_singleton {p : Char → Bool} {c : Char} (h : p c = false)
    (text : List Char) : (text ++ [c]).dropWhile p = text.dropWhile p ++ [c] := by
  induction text with
  | nil =>
      rw [List.nil_append, List.dropWhile_cons, h]
      rfl
  | cons d text ih =>
      rw [List.cons_append, List.dropWhile_cons, List.dropWhile_cons, ih]
      split <;> rfl

/-- Trimming keeps the first character that is no white space. -/
theorem jsTrim_cons {c : Char} (h : isJsSpace c = false) (text : List Char) :
    ∃ rest, jsTrim (c :: text) = c :: rest := by
  have hstart : (c :: text).dropWhile isJsSpace = c :: text := by
    rw [List.dropWhile_cons, h]
    rfl
  rw [jsTrim, hstart, List.reverse_cons, dropWhile_append_singleton h, List.reverse_append]
  exact ⟨_, rfl⟩

/-- A text between characters that are no white space is not trimmed. -/
theorem jsTrim_eq_self {c d : Char} (hc : isJsSpace c = false) (hd : isJsSpace d = false)
    (text : List Char) : jsTrim (c :: (text ++ [d])) = c :: (text ++ [d]) := by
  have hstart : (c :: (text ++ [d])).dropWhile isJsSpace = c :: (text ++ [d]) := by
    rw [List.dropWhile_cons, hc]
    rfl
  have hend : (c :: (text ++ [d])).reverse.dropWhile isJsSpace = (c :: (text ++ [d])).reverse := by
    have hreverse : (c :: (text ++ [d])).reverse = d :: (text.reverse ++ [c]) := by simp
    rw [hreverse, List.dropWhile_cons, hd]
    rfl
  rw [jsTrim, hstart, hend, List.reverse_reverse]

theorem not_dataField_of_head {c : Char} (h : c ≠ 'd') (text : List Char) :
    dataField.isPrefixOf (c :: text) = false := by
  have hfalse : ('d' == c) = false := by simpa using h.symm
  have hfield : dataField = 'd' :: "ata:".toList := rfl
  rw [hfield, List.isPrefixOf_cons_cons, hfalse, Bool.false_and]

theorem not_dataField_jsTrim {c : Char} (hspace : isJsSpace c = false) (h : c ≠ 'd')
    (text : List Char) : dataField.isPrefixOf (jsTrim (c :: text)) = false := by
  obtain ⟨rest, hrest⟩ := jsTrim_cons hspace text
  rw [hrest, not_dataField_of_head h]

theorem splitOn_chunk (f : Frame) : f.chunk.splitOn '\n' = f.lines :=
  List.splitOn_intercalate _ (fun line hline ↦ (lines_plain f line hline).1) (lines_ne_nil f)

theorem parse_event (e : Envelope) :
    parseAgentSSEChunk (Frame.event e).chunk =
      if acceptsEnvelope (asDoubles e.event) then some (.agent (asDoubles e.event)) else none := by
  obtain ⟨fields, hfields⟩ := e.isDict
  obtain ⟨inner, hinner⟩ := exists_dumps_obj fields
  rw [← hfields] at hinner
  have hid := @not_dataField_jsTrim 'i' (by decide) (by decide)
    ("d: ".toList ++ (frameId e.event).toList)
  have htype := @not_dataField_jsTrim 'e' (by decide) (by decide)
    ("vent: ".toList ++ (eventType e.event).toList)
  have hline : "data: ".toList ++ dumps e.event =
      'd' :: ("ata: ".toList ++ '\x7b' :: inner ++ ['\x7d']) := by
    rw [hinner, ← List.cons_append, ← List.append_assoc]
    rfl
  have hdata : jsTrim ("data: ".toList ++ dumps e.event) = "data: ".toList ++ dumps e.event := by
    rw [hline]
    exact jsTrim_eq_self (by decide) (by decide) _
  have hfield : dataField.isPrefixOf ("data: ".toList ++ dumps e.event) = true := by
    rfl
  have hvalue : jsTrim (("data: ".toList ++ dumps e.event).drop 5) = dumps e.event := by
    have hdrop : ("data: ".toList ++ dumps e.event).drop 5 = ' ' :: dumps e.event := rfl
    have hspace : jsTrim (' ' :: dumps e.event) = jsTrim (dumps e.event) := rfl
    rw [hdrop, hspace, hinner]
    exact jsTrim_eq_self (by decide) (by decide) _
  have hlines : (((Frame.event e).chunk.splitOn '\n').map jsTrim).filter dataField.isPrefixOf =
      ["data: ".toList ++ dumps e.event] := by
    rw [splitOn_chunk]
    simp only [Frame.lines, List.map_cons, List.map_nil, hdata]
    rw [List.filter_cons_of_neg (by rw [Bool.not_eq_true]; exact hid),
      List.filter_cons_of_neg (by rw [Bool.not_eq_true]; exact htype),
      List.filter_cons_of_pos hfield, List.filter_nil]
  have hne : dumps e.event ≠ doneMark := by
    rw [hinner]
    intro h
    cases (List.cons.inj h).1
  unfold parseAgentSSEChunk
  simp only [hlines, List.map_cons, List.map_nil, hvalue, List.cons_ne_nil, if_false,
    List.intercalate_singleton, if_neg hne, jsonParse_dumps e.readable]

theorem parse_done : parseAgentSSEChunk Frame.done.chunk = some .done := by
  unfold parseAgentSSEChunk
  rw [splitOn_chunk]
  rfl

theorem parse_keepAlive (comment : KeepAlive) :
    parseAgentSSEChunk (Frame.keepAlive comment).chunk = some .ignore := by
  have hnot := @not_dataField_jsTrim ':' (by decide) (by decide) (' ' :: comment.text)
  have hlines : (((Frame.keepAlive comment).chunk.splitOn '\n').map jsTrim).filter
      dataField.isPrefixOf = [] := by
    rw [splitOn_chunk]
    simp only [Frame.lines, List.map_cons, List.map_nil]
    rw [List.filter_cons_of_neg (by rw [Bool.not_eq_true]; exact hnot), List.filter_nil]
  unfold parseAgentSSEChunk
  simp only [hlines, List.map_nil, if_true]

/-- What the client reads off a frame. -/
def Frame.read : Frame → AgentSSEEvent
  | .event e => .agent (asDoubles e.event)
  | .done => .done
  | .keepAlive _ => .ignore

def Frame.event? : Frame → Option Json
  | .event e => some (asDoubles e.event)
  | _ => none

/-- The events of the frames that carry accepted envelopes. -/
theorem parse_frames {frames : List Frame} {envelopes : List Envelope}
    (hcarries : Carries envelopes frames)
    (haccepts : ∀ e ∈ envelopes, acceptsEnvelope (asDoubles e.event) = true) :
    ∃ events, (frames.map Frame.chunk).mapM parseAgentSSEChunk = some events ∧
      events.filterMap AgentSSEEvent.agent? = envelopes.map (fun e ↦ asDoubles e.event) ∧
      events.any AgentSSEEvent.isDone = true := by
  have hevents : ∀ frames : List Frame, (∀ e, Frame.event e ∈ frames →
      acceptsEnvelope (asDoubles e.event) = true) →
        (frames.map Frame.chunk).mapM parseAgentSSEChunk =
        some (frames.map Frame.read) := by
    intro frames haccepts
    induction frames with
    | nil => rfl
    | cons f frames ih =>
        have hrest := ih fun e he ↦ haccepts e (List.mem_cons_of_mem _ he)
        cases f with
        | event e =>
            rw [List.map_cons, List.mapM_cons, parse_event,
              if_pos (haccepts e List.mem_cons_self), hrest]
            rfl
        | done =>
            rw [List.map_cons, List.mapM_cons, parse_done, hrest]
            rfl
        | keepAlive comment =>
            rw [List.map_cons, List.mapM_cons, parse_keepAlive, hrest]
            rfl
  refine ⟨_, hevents frames ?_, ?_, ?_⟩
  · intro e he
    have hmem : Frame.event e ∈ frames.filter fun f ↦ !f.isKeepAlive :=
      List.mem_filter.mpr ⟨he, rfl⟩
    rw [hcarries, List.mem_append, List.mem_singleton] at hmem
    rcases hmem with hmem | hmem
    · obtain ⟨e', he', heq⟩ := List.mem_map.mp hmem
      cases heq
      exact haccepts e he'
    · cases hmem
  · rw [List.filterMap_map]
    have hfilter : ∀ frames : List Frame, frames.filterMap (AgentSSEEvent.agent? ∘ Frame.read) =
        (frames.filter fun f ↦ !f.isKeepAlive).filterMap Frame.event? := by
      intro frames
      induction frames with
      | nil => rfl
      | cons f frames ih =>
          cases f with
          | event e =>
              rw [List.filter_cons_of_pos rfl, List.filterMap_cons, List.filterMap_cons, ih]
              rfl
          | done =>
              rw [List.filter_cons_of_pos rfl, List.filterMap_cons, List.filterMap_cons, ih]
              rfl
          | keepAlive comment =>
              rw [List.filter_cons_of_neg (by simp [Frame.isKeepAlive]), List.filterMap_cons, ih]
              rfl
    rw [hfilter, hcarries, List.filterMap_append, List.filterMap_map]
    have hsame : envelopes.filterMap (Frame.event? ∘ Frame.event) =
        envelopes.map (fun e ↦ asDoubles e.event) :=
      List.filterMap_eq_map_iff_forall_eq_some.mpr fun e _ ↦ rfl
    rw [hsame]
    exact List.append_nil _
  · have hdone : Frame.done ∈ frames.filter fun f ↦ !f.isKeepAlive := by
      rw [hcarries]
      exact List.mem_append_right _ List.mem_cons_self
    rw [List.any_eq_true]
    exact ⟨.done, List.mem_map.mpr ⟨.done, (List.mem_filter.mp hdone).1, rfl⟩, rfl⟩

theorem splitPairs_left (text : List Char) :
    (splitPairs '\n' (splitPairs '\n' text).2).1 = [] := by
  have happend := @splitPairs_append Char _ '\n' text []
  rw [List.append_nil, List.append_nil] at happend
  have hlength := congrArg (fun pieces ↦ pieces.1.length) happend
  simp only [List.length_append] at hlength
  exact List.eq_nil_of_length_eq_zero (by omega)

/-- Wherever the bytes are cut, the SDK delivers the events of the whole text. -/
theorem streamAgentSSE_run (ending : Ending) (chunks : List (List ℕ)) :
    ∀ (s : Sdk) (decoder : Utf8.Decoder) (text : List Char) (events : List AgentSSEEvent),
      s.decoder.run chunks.flatten = (decoder, text) → decoder.flush = [] →
      (splitPairs '\n' s.buffer).1 = [] →
      (splitPairs '\n' (s.buffer ++ text)).1.mapM parseAgentSSEChunk = some events →
      streamAgentSSE s ending chunks =
        ⟨s.delivered ++ events.filterMap AgentSSEEvent.agent?,
          decide (ending = .closed) && (s.completed || events.any AgentSSEEvent.isDone)⟩ := by
  induction chunks with
  | nil =>
      intro s decoder text events hrun hflush hbuffer hevents
      obtain ⟨rfl, rfl⟩ := Prod.mk.inj hrun
      rw [List.append_nil, hbuffer] at hevents
      cases hevents
      cases ending with
      | broken =>
          rw [streamAgentSSE]
          simp
      | closed =>
          have hreceive : s.receive (s.decoder, s.decoder.flush) =
              some { s with buffer := (splitPairs '\n' s.buffer).2 } := by
            rw [Sdk.receive, parseAgentSSEBuffer, hflush, List.append_nil, hbuffer]
            simp
          rw [streamAgentSSE, hreceive]
          simp
  | cons chunk chunks ih =>
      intro s decoder text events hrun hflush hbuffer hevents
      rw [List.flatten_cons, Utf8.Decoder.run_append] at hrun
      obtain ⟨hdecoder, rfl⟩ := Prod.mk.inj hrun
      rw [← List.append_assoc, splitPairs_append, List.mapM_append] at hevents
      simp only [Option.bind_eq_bind, Option.bind_eq_some_iff, Option.pure_def,
        Option.some_inj] at hevents
      obtain ⟨first, hfirst, rest, hrest, rfl⟩ := hevents
      have hreceive : s.receive (s.decoder.run chunk) = some
          { decoder := (s.decoder.run chunk).1
            buffer := (splitPairs '\n' (s.buffer ++ (s.decoder.run chunk).2)).2
            delivered := s.delivered ++ first.filterMap AgentSSEEvent.agent?
            completed := s.completed || first.any AgentSSEEvent.isDone } := by
        rw [Sdk.receive, parseAgentSSEBuffer, hfirst]
        rfl
      have hnext := ih
        { decoder := (s.decoder.run chunk).1
          buffer := (splitPairs '\n' (s.buffer ++ (s.decoder.run chunk).2)).2
          delivered := s.delivered ++ first.filterMap AgentSSEEvent.agent?
          completed := s.completed || first.any AgentSSEEvent.isDone }
        decoder _ rest (Prod.ext hdecoder rfl) hflush (splitPairs_left _) hrest
      rw [streamAgentSSE, hreceive]
      simp only
      rw [hnext, List.filterMap_append, List.append_assoc, List.any_append, Bool.or_assoc]

/-! ## The gateway -/

/-- No string of the envelope holds a line end. -/
def Envelope.onOneLine (e : Envelope) : Prop := ∀ c ∈ dumps e.event, isUnicodeBreak c = false

theorem plain_of_all {text : List Char} (h : text.all (fun c ↦ !isLineBreak c) = true) :
    ∀ c ∈ text, isLineBreak c = false := by
  intro c hc
  simpa using List.all_eq_true.mp h c hc

theorem label_plain {label text : List Char}
    (hlabel : label.all (fun c ↦ !isLineBreak c) = true)
    (htext : ∀ c ∈ text, isLineBreak c = false) : ∀ c ∈ label ++ text, isLineBreak c = false := by
  intro c hc
  rcases List.mem_append.mp hc with hc | hc
  · exact plain_of_all hlabel c hc
  · exact htext c hc

theorem printable_of_mem_dumps (e : Envelope) {c : Char} (h : c ∈ dumps e.event) :
    isPrintable c = true :=
  List.all_eq_true.mp (printable_dumps e.event e.readable) c h

/-- Which frames `str.splitlines` cuts only at their line feeds. -/
theorem lines_not_lineBreak {f : Frame} (h : ∀ e, f = .event e → e.onOneLine) :
    ∀ line ∈ f.lines, ∀ c ∈ line, isLineBreak c = false := by
  intro line hline
  cases f with
  | event e =>
      simp only [Frame.lines, List.mem_cons, List.not_mem_nil, or_false] at hline
      rcases hline with rfl | rfl | rfl
      · exact label_plain (by decide) e.id_plain
      · exact label_plain (by decide) e.eventType_plain
      · apply label_plain (by decide)
        intro c hc
        rw [isLineBreak_eq (printable_of_mem_dumps e hc)]
        exact h e rfl c hc
  | done =>
      rw [Frame.lines, List.mem_singleton] at hline
      rw [hline]
      exact plain_of_all (by decide)
  | keepAlive comment =>
      rw [Frame.lines, List.mem_singleton] at hline
      rw [hline]
      exact label_plain (by decide) comment.plain

theorem splitlines_wireText_cons {f : Frame} (h : ∀ e, f = .event e → e.onOneLine)
    (frames : List Frame) :
    splitlines (wireText (f :: frames)) = f.lines ++ [] :: splitlines (wireText frames) := by
  rw [wireText_cons, splitlines_lines (lines_not_lineBreak h),
    splitlines_break rfl (by decide)]

theorem loop_skip {ending : Ending} {dataLines lines : List (List Char)} {line : List Char}
    (hne : line ≠ []) (hfield : dataField.isPrefixOf line = false) :
    streamEventsLoop ending dataLines (line :: lines) =
      streamEventsLoop ending dataLines lines := by
  rw [streamEventsLoop, if_neg hne, hfield]
  rfl

theorem loop_data {ending : Ending} {dataLines lines : List (List Char)} {text : List Char} :
    streamEventsLoop ending dataLines (("data: ".toList ++ text) :: lines) =
      streamEventsLoop ending (dataLines ++ [pyLstrip text]) lines := by
  have hne : "data: ".toList ++ text ≠ [] := List.cons_ne_nil _ _
  have hfield : dataField.isPrefixOf ("data: ".toList ++ text) = true := rfl
  have hstrip : pyLstrip (("data: ".toList ++ text).drop 5) = pyLstrip text := rfl
  rw [streamEventsLoop, if_neg hne, if_pos hfield, hstrip]

theorem loop_header (ending : Ending) (e : Envelope) (lines : List (List Char)) :
    streamEventsLoop ending []
        (("id: ".toList ++ (frameId e.event).toList) ::
          ("event: ".toList ++ (eventType e.event).toList) :: lines) =
      streamEventsLoop ending [] lines := by
  have hid : dataField.isPrefixOf ("id: ".toList ++ (frameId e.event).toList) = false :=
    not_dataField_of_head (by decide) _
  have htype : dataField.isPrefixOf ("event: ".toList ++ (eventType e.event).toList) = false :=
    not_dataField_of_head (by decide) _
  have hid' : "id: ".toList ++ (frameId e.event).toList ≠ [] := List.cons_ne_nil _ _
  have htype' : "event: ".toList ++ (eventType e.event).toList ≠ [] := List.cons_ne_nil _ _
  rw [loop_skip hid' hid, loop_skip htype' htype]

theorem pyLstrip_brace (text : List Char) : pyLstrip ('\x7b' :: text) = '\x7b' :: text := rfl

theorem pyLstrip_dumps (e : Envelope) : pyLstrip (dumps e.event) = dumps e.event := by
  obtain ⟨fields, hfields⟩ := e.isDict
  obtain ⟨inner, hinner⟩ := exists_dumps_obj fields
  rw [hfields, hinner, pyLstrip_brace]

theorem dumps_ne_doneMark (e : Envelope) : dumps e.event ≠ doneMark := by
  obtain ⟨fields, hfields⟩ := e.isDict
  obtain ⟨inner, hinner⟩ := exists_dumps_obj fields
  rw [hfields, hinner]
  intro h
  cases (List.cons.inj h).1

theorem isDict_event (e : Envelope) : isDict e.event = true := by
  obtain ⟨fields, hfields⟩ := e.isDict
  rw [hfields]
  rfl

theorem loop_event (ending : Ending) {e : Envelope} (h : e.onOneLine) (frames : List Frame) :
    streamEventsLoop ending [] (splitlines (wireText (.event e :: frames))) =
      ⟨e.event :: (streamEventsLoop ending [] (splitlines (wireText frames))).delivered,
        (streamEventsLoop ending [] (splitlines (wireText frames))).finished⟩ := by
  have hplain : ∀ e', Frame.event e = .event e' → e'.onOneLine := by
    rintro e' ⟨⟩
    exact h
  have hlines : (Frame.event e).lines ++ [] :: splitlines (wireText frames) =
      ("id: ".toList ++ (frameId e.event).toList) ::
        ("event: ".toList ++ (eventType e.event).toList) ::
          ("data: ".toList ++ dumps e.event) :: [] :: splitlines (wireText frames) := rfl
  rw [splitlines_wireText_cons hplain, hlines, loop_header, loop_data, pyLstrip_dumps,
    List.nil_append, streamEventsLoop, if_pos rfl, if_neg (List.cons_ne_nil _ _),
    List.intercalate_singleton, if_neg (dumps_ne_doneMark e), loads_dumps e.readable]
  simp only [isDict_event, if_true]

theorem loop_keepAlive (ending : Ending) (comment : KeepAlive) (frames : List Frame) :
    streamEventsLoop ending [] (splitlines (wireText (.keepAlive comment :: frames))) =
      streamEventsLoop ending [] (splitlines (wireText frames)) := by
  have hfield : dataField.isPrefixOf (": ".toList ++ comment.text) = false :=
    not_dataField_of_head (by decide) _
  have hlines : (Frame.keepAlive comment).lines ++ [] :: splitlines (wireText frames) =
      (": ".toList ++ comment.text) :: [] :: splitlines (wireText frames) := rfl
  have hne : ": ".toList ++ comment.text ≠ [] := List.cons_ne_nil _ _
  have hplain : ∀ e, Frame.keepAlive comment = .event e → e.onOneLine := by
    rintro e ⟨⟩
  rw [splitlines_wireText_cons hplain, hlines, loop_skip hne hfield, streamEventsLoop, if_pos rfl,
    if_pos rfl]

theorem loop_done (ending : Ending) (frames : List Frame) :
    streamEventsLoop ending [] (splitlines (wireText (.done :: frames))) = ⟨[], true⟩ := by
  have hlines : Frame.done.lines ++ [] :: splitlines (wireText frames) =
      ("data: ".toList ++ doneMark) :: [] :: splitlines (wireText frames) := rfl
  have hstrip : pyLstrip doneMark = doneMark := rfl
  have hplain : ∀ e, Frame.done = .event e → e.onOneLine := by
    rintro e ⟨⟩
  rw [splitlines_wireText_cons hplain, hlines, loop_data, hstrip, List.nil_append,
    streamEventsLoop, if_pos rfl, if_neg (List.cons_ne_nil _ _), List.intercalate_singleton,
    if_pos rfl]

/-- Where every envelope stays on one line the gateway yields them all and
returns at the marker. -/
theorem loop_carries (ending : Ending) {frames : List Frame} :
    ∀ {envelopes : List Envelope}, Carries envelopes frames → (∀ e ∈ envelopes, e.onOneLine) →
      streamEventsLoop ending [] (splitlines (wireText frames)) =
        ⟨envelopes.map Envelope.event, true⟩ := by
  induction frames with
  | nil =>
      intro envelopes hcarries _
      have hlength := congrArg List.length hcarries
      simp at hlength
  | cons f frames ih =>
      intro envelopes hcarries honeLine
      cases f with
      | keepAlive comment =>
          have hrest : Carries envelopes frames := by
            rw [Carries, List.filter_cons_of_neg (by simp [Frame.isKeepAlive])] at hcarries
            exact hcarries
          rw [loop_keepAlive, ih hrest honeLine]
      | done =>
          cases envelopes with
          | nil => exact loop_done ending frames
          | cons e envelopes =>
              rw [Carries, List.filter_cons_of_pos rfl] at hcarries
              cases (List.cons.inj hcarries).1
      | event e =>
          rw [Carries, List.filter_cons_of_pos rfl] at hcarries
          cases envelopes with
          | nil => cases (List.cons.inj hcarries).1
          | cons e' envelopes =>
              obtain ⟨heq, hrest⟩ := List.cons.inj hcarries
              cases heq
              have hloop := ih hrest fun e he ↦ honeLine e (List.mem_cons_of_mem _ he)
              rw [loop_event ending (honeLine e List.mem_cons_self), hloop]
              rfl

/-- Data that is cut off inside a string is refused at the next blank line. -/
theorem loop_cut {ending : Ending} {first : List Char} (hfirst : first.head? = some '\x7b')
    (hcut : ∀ more, more = [] ∨ more.head? = some '\n' → loads (first ++ more) = none)
    {lines : List (List Char)} (hlines : [] ∈ lines) (others : List (List Char)) :
    streamEventsLoop ending (first :: others) lines = ⟨[], false⟩ := by
  induction lines generalizing others with
  | nil => cases hlines
  | cons line lines ih =>
      by_cases hline : line = []
      · have hpayload : ∃ more, ['\n'].intercalate (first :: others) = first ++ more ∧
            (more = [] ∨ more.head? = some '\n') := by
          cases others with
          | nil => exact ⟨[], by rw [List.intercalate_singleton, List.append_nil], .inl rfl⟩
          | cons second others =>
              refine ⟨'\n' :: ['\n'].intercalate (second :: others), ?_, .inr rfl⟩
              rw [List.intercalate_cons_cons]
              simp
        obtain ⟨more, hmore, hhead⟩ := hpayload
        have hne : first ++ more ≠ doneMark := by
          intro heq
          cases first with
          | nil => cases hfirst
          | cons c first =>
              rw [List.head?_cons, Option.some_inj] at hfirst
              rw [hfirst, List.cons_append] at heq
              cases (List.cons.inj heq).1
        rw [streamEventsLoop, if_pos hline, if_neg (List.cons_ne_nil _ _), hmore, if_neg hne,
          hcut more hhead]
      · have hrest : [] ∈ lines := by
          rcases List.mem_cons.mp hlines with h | h
          · exact absurd h.symm hline
          · exact h
        rw [streamEventsLoop, if_neg hline]
        split
        · exact ih hrest (others ++ [pyLstrip (line.drop 5)])
        · exact ih hrest others

/-- An envelope that is not on one line ends the gateway's reading. -/
theorem loop_broken (ending : Ending) {e : Envelope} (h : ¬ e.onOneLine) (frames : List Frame) :
    streamEventsLoop ending [] (splitlines (wireText (.event e :: frames))) = ⟨[], false⟩ := by
  obtain ⟨text, c, after, hdumps, hbefore, hbreak⟩ : ∃ text c after,
      dumps e.event = text ++ c :: after ∧ (∀ c ∈ text, isUnicodeBreak c = false) ∧
        isUnicodeBreak c = true := by
    have hfound : ((dumps e.event).find? isUnicodeBreak).isSome = true := by
      rw [List.find?_isSome]
      by_contra hnone
      apply h
      intro c hc
      rw [Bool.eq_false_iff]
      exact fun hbreak ↦ hnone ⟨c, hc, hbreak⟩
    obtain ⟨c, hc⟩ := Option.isSome_iff_exists.mp hfound
    obtain ⟨hbreak, before, after, hsplit, hbefore⟩ := List.find?_eq_some_iff_append.mp hc
    exact ⟨before, c, after, hsplit, fun d hd ↦ by simpa using hbefore d hd, hbreak⟩
  have hmem : ∀ d ∈ text ++ c :: after, d ∈ dumps e.event := by
    intro d hd
    rw [hdumps]
    exact hd
  have htext : ∀ d ∈ text, isLineBreak d = false := by
    intro d hd
    rw [isLineBreak_eq (printable_of_mem_dumps e (hmem d (List.mem_append_left _ hd)))]
    exact hbefore d hd
  have hcbreak : isLineBreak c = true := by
    rw [isLineBreak_eq (printable_of_mem_dumps e (hmem c (by simp)))]
    exact hbreak
  have hlarge : 0x80 ≤ c.toNat := by
    simp only [isUnicodeBreak, List.mem_cons, List.not_mem_nil, or_false,
      decide_eq_true_eq] at hbreak
    omega
  have hne : c ≠ '\r' := by
    rintro rfl
    exact absurd hlarge (by decide)
  have hfirst : text.head? = some '\x7b' := by
    obtain ⟨fields, hfields⟩ := e.isDict
    obtain ⟨inner, hinner⟩ := exists_dumps_obj fields
    rw [hfields, hinner] at hdumps
    cases text with
    | nil =>
        rw [List.nil_append] at hdumps
        rw [← (List.cons.inj hdumps).1] at hlarge
        exact absurd hlarge (by decide)
    | cons d text =>
        rw [List.cons_append] at hdumps
        rw [List.head?_cons, ← (List.cons.inj hdumps).1]
  have hstrip : pyLstrip text = text := by
    cases text with
    | nil => rfl
    | cons d text =>
        rw [List.head?_cons, Option.some_inj] at hfirst
        rw [hfirst, pyLstrip_brace]
  have hwire : wireText (.event e :: frames) =
      ["id: ".toList ++ (frameId e.event).toList,
          "event: ".toList ++ (eventType e.event).toList].flatMap (fun line ↦ line ++ ['\n']) ++
        (("data: ".toList ++ text) ++ c :: (after ++ '\n' :: '\n' :: wireText frames)) := by
    rw [wireText_cons]
    simp only [Frame.lines, hdumps, List.flatMap_cons, List.flatMap_nil, List.append_assoc,
      List.cons_append, List.nil_append]
  have hheader : ∀ line ∈ ["id: ".toList ++ (frameId e.event).toList,
      "event: ".toList ++ (eventType e.event).toList], ∀ c ∈ line, isLineBreak c = false := by
    intro line hline
    simp only [List.mem_cons, List.not_mem_nil, or_false] at hline
    rcases hline with rfl | rfl
    · exact label_plain (by decide) e.id_plain
    · exact label_plain (by decide) e.eventType_plain
  have hblank := List.mem_of_mem_tail (nil_mem_splitlines after (wireText frames))
  rw [hwire, splitlines_lines hheader, splitlines_line (label_plain (by decide) htext) hcbreak hne,
    List.cons_append, List.singleton_append, loop_header, loop_data, hstrip, List.nil_append]
  apply loop_cut hfirst _ hblank
  intro more hmore
  exact loads_cut e.readable hdumps hlarge hmore

/-- With an envelope that is not on one line the gateway yields too few. -/
theorem loop_fewer (ending : Ending) {envelopes : List Envelope}
    (h : ∃ e ∈ envelopes, ¬ e.onOneLine) :
    (streamEventsLoop ending []
      (splitlines (wireText (envelopes.map Frame.event ++ [Frame.done])))).delivered.length <
        envelopes.length := by
  induction envelopes with
  | nil =>
      obtain ⟨e, he, _⟩ := h
      cases he
  | cons e envelopes ih =>
      rw [List.map_cons, List.cons_append]
      by_cases hone : e.onOneLine
      · have hrest : ∃ e ∈ envelopes, ¬ e.onOneLine := by
          obtain ⟨e', he', hbreak⟩ := h
          rcases List.mem_cons.mp he' with rfl | he'
          · exact absurd hone hbreak
          · exact ⟨e', he', hbreak⟩
        have hlt := ih hrest
        rw [loop_event ending hone]
        simp only [List.length_cons]
        omega
      · rw [loop_broken ending hone]
        exact Nat.succ_pos _

/-! ## The round trip -/

/-- What both decoders owe a stream: whatever comments come in between, however
the bytes are cut and whatever the connection does at the end. -/
def RoundTrip (envelopes : List Envelope) (source : Source) : Prop :=
  ∀ frames, Carries envelopes frames →
    ∀ chunks : List (List ℕ), chunks.flatten = Utf8.encode (wireText frames) →
      ∀ ending, source.allows ending →
        (streamAgentSSE .start ending chunks).delivered = envelopes.map Envelope.event ∧
          (streamEvents ending chunks).delivered = envelopes.map Envelope.event ∧
          ((streamAgentSSE .start ending chunks).finished = true ↔ source = .ended) ∧
          ((streamEvents ending chunks).finished = true ↔ source = .ended)

theorem carries_self (envelopes : List Envelope) :
    Carries envelopes (envelopes.map Frame.event ++ [Frame.done]) := by
  rw [Carries, List.filter_eq_self]
  intro f hf
  rcases List.mem_append.mp hf with hf | hf
  · obtain ⟨e, _, rfl⟩ := List.mem_map.mp hf
    rfl
  · rw [List.mem_singleton.mp hf]
    rfl

theorem streamEvents_eq {ending : Ending} {chunks : List (List ℕ)} {text : List Char}
    (h : chunks.flatten = Utf8.encode text) :
    streamEvents ending chunks = streamEventsLoop ending [] (splitlines text) := by
  have hflush : (Utf8.Decoder.idle (if text = [] then false else false)).flush = [] := by
    split <;> rfl
  rw [streamEvents, h, Utf8.run_encode (.inl rfl)]
  simp only
  rw [hflush, List.append_nil]

theorem streamAgentSSE_accepts {envelopes : List Envelope} {frames : List Frame}
    (hcarries : Carries envelopes frames)
    (haccepts : ∀ e ∈ envelopes, acceptsEnvelope (asDoubles e.event) = true)
    {chunks : List (List ℕ)} (hchunks : chunks.flatten = Utf8.encode (wireText frames))
    (ending : Ending) :
    streamAgentSSE .start ending chunks =
      ⟨envelopes.map fun e ↦ asDoubles e.event, decide (ending = .closed)⟩ := by
  obtain ⟨events, hevents, hdelivered, hdone⟩ := parse_frames hcarries haccepts
  have hrun := @Utf8.run_encode true _ (.inr (head?_wireText frames))
  rw [← hchunks] at hrun
  have hflush : (Utf8.Decoder.idle (if wireText frames = [] then true else false)).flush = [] := by
    split <;> rfl
  have hsplit : (splitPairs '\n' (Sdk.start.buffer ++ wireText frames)).1 =
      frames.map Frame.chunk := by
    have hbuffer : Sdk.start.buffer ++ wireText frames = wireText frames := rfl
    rw [hbuffer, splitPairs_wireText]
  rw [← hsplit] at hevents
  rw [streamAgentSSE_run ending chunks .start _ _ events hrun hflush rfl hevents, hdelivered, hdone,
    Bool.or_true, Bool.and_true]
  rfl

theorem streamAgentSSE_refuses {envelopes : List Envelope} {e : Envelope} (he : e ∈ envelopes)
    (hrefuses : acceptsEnvelope (asDoubles e.event) = false) (ending : Ending) :
    (streamAgentSSE .start ending
      [Utf8.encode (wireText (envelopes.map Frame.event ++ [Frame.done]))]).finished = false := by
  have hrun := @Utf8.run_encode true _
    (.inr (head?_wireText (envelopes.map Frame.event ++ [Frame.done])))
  have hnone : ∀ envelopes : List Envelope, e ∈ envelopes →
      ((envelopes.map Frame.event ++ [Frame.done]).map Frame.chunk).mapM parseAgentSSEChunk =
        none := by
    intro envelopes he
    induction envelopes with
    | nil => cases he
    | cons e' envelopes ih =>
        rw [List.map_cons, List.cons_append, List.map_cons, List.mapM_cons, parse_event]
        rcases List.mem_cons.mp he with rfl | he
        · rw [hrefuses]
          rfl
        · rw [ih he]
          split <;> rfl
  have hreceive : Sdk.start.receive (Sdk.start.decoder.run
      (Utf8.encode (wireText (envelopes.map Frame.event ++ [Frame.done])))) = none := by
    have hdecoder : Sdk.start.decoder = .idle true := rfl
    have hbuffer : ∀ text, Sdk.start.buffer ++ text = text := fun _ ↦ rfl
    rw [hdecoder, hrun, Sdk.receive, parseAgentSSEBuffer, hbuffer, splitPairs_wireText,
      hnone envelopes he]
    rfl
  rw [streamAgentSSE, hreceive]

/-- Every whole number of the envelope is a double. -/
def Envelope.InDoubles (e : Envelope) : Prop :=
  ∀ n ∈ wholeNumbers e.event, Binary64.IsDouble n.natAbs

/-- Both decoders deliver what was encoded, and know the end, exactly when the
source ended without an error, the SDK accepts every envelope, all whole numbers
are doubles, and no string holds a next line, a line separator or a paragraph
separator. -/
theorem roundTrip_iff (envelopes : List Envelope) (source : Source) :
    RoundTrip envelopes source ↔
      source = .ended ∧ (∀ e ∈ envelopes, acceptsEnvelope e.event = true) ∧
        (∀ e ∈ envelopes, e.InDoubles) ∧ ∀ e ∈ envelopes, e.onOneLine := by
  constructor
  · intro h
    have hallows : source.allows .closed := by cases source <;> trivial
    have hbytes : [Utf8.encode (wireText (envelopes.map Frame.event ++ [Frame.done]))].flatten =
        Utf8.encode (wireText (envelopes.map Frame.event ++ [Frame.done])) := List.append_nil _
    obtain ⟨hdelivered, hgateway, hsdk, hfinished⟩ :=
      h _ (carries_self envelopes) _ hbytes .closed hallows
    have honeLine : ∀ e ∈ envelopes, e.onOneLine := by
      by_contra hnot
      push Not at hnot
      have hfewer := loop_fewer .closed hnot
      rw [← streamEvents_eq hbytes, hgateway, List.length_map] at hfewer
      omega
    have hended : source = .ended := by
      rw [← hfinished, streamEvents_eq hbytes,
        loop_carries .closed (carries_self envelopes) honeLine]
    have haccepts : ∀ e ∈ envelopes, acceptsEnvelope (asDoubles e.event) = true := by
      intro e he
      by_contra hrefuses
      rw [Bool.not_eq_true] at hrefuses
      have hcompleted := hsdk.mpr hended
      rw [streamAgentSSE_refuses he hrefuses .closed] at hcompleted
      cases hcompleted
    -- what the SDK delivers has doubles for numbers, so the envelopes had them
    have hsame : ∀ e ∈ envelopes, asDoubles e.event = e.event := by
      rw [streamAgentSSE_accepts (carries_self envelopes) haccepts hbytes .closed] at hdelivered
      exact List.map_inj_left.mp hdelivered
    refine ⟨hended, ?_, fun e he ↦ (asDoubles_eq_self_iff e.event).mp (hsame e he), honeLine⟩
    intro e he
    have haccepted := haccepts e he
    rwa [hsame e he] at haccepted
  · rintro ⟨rfl, haccepts, hdoubles, honeLine⟩ frames hcarries chunks hchunks ending hending
    have hclosed : ending = .closed := hending
    have hsame : ∀ e ∈ envelopes, asDoubles e.event = e.event := fun e he ↦
      (asDoubles_eq_self_iff e.event).mpr (hdoubles e he)
    have haccepted : ∀ e ∈ envelopes, acceptsEnvelope (asDoubles e.event) = true := by
      intro e he
      rw [hsame e he]
      exact haccepts e he
    have hsdk := streamAgentSSE_accepts hcarries haccepted hchunks ending
    rw [List.map_congr_left hsame] at hsdk
    have hgateway : streamEvents ending chunks = ⟨envelopes.map Envelope.event, true⟩ := by
      rw [streamEvents_eq hchunks, loop_carries ending hcarries honeLine]
    rw [hsdk, hgateway, hclosed]
    exact ⟨rfl, rfl, iff_of_true rfl rfl, iff_of_true rfl rfl⟩

/-- A message whose text holds a line separator. -/
def lineSeparator : Envelope where
  event := .obj [("seq", .num 1), ("event_type", .str "message.completed"),
    ("payload", .obj [("content", .str "one\u2028two")])]
  isDict := ⟨_, rfl⟩
  readable := by decide
  id_plain := plain_of_all (by decide +kernel)
  eventType_plain := plain_of_all (by decide +kernel)

/-- The gateway does not deliver it. -/
theorem not_roundTrip :
    ¬ ∀ (envelopes : List Envelope) (source : Source), RoundTrip envelopes source := by
  intro h
  have hbreak : ¬ lineSeparator.onOneLine := by
    intro hone
    have hmem : Char.ofNat 0x2028 ∈ dumps lineSeparator.event := by decide +kernel
    cases hone _ hmem
  have hbytes : [Utf8.encode (wireText ([lineSeparator].map Frame.event ++ [Frame.done]))].flatten =
      Utf8.encode (wireText ([lineSeparator].map Frame.event ++ [Frame.done])) := List.append_nil _
  obtain ⟨_, hgateway, _⟩ :=
    h [lineSeparator] .ended _ (carries_self [lineSeparator]) _ hbytes .closed rfl
  have hfewer := loop_fewer .closed ⟨lineSeparator, List.mem_singleton_self _, hbreak⟩
  rw [← streamEvents_eq hbytes, hgateway] at hfewer
  exact absurd hfewer (lt_irrefl 1)

end ShejaneRuntime.Stream
