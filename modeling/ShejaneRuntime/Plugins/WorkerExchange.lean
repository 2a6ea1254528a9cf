import ShejaneRuntime.Plugins.WorkerBreaks

/-!
# The exchange with a managed worker

While an action runs the host reads one frame after the other: notifications of
progress, a call of the vision model that it answers, and at last the result.
The exchange ends with the result or a protocol error, except where a check of
the first frame that is not accepted breaks.
-/

namespace ShejaneRuntime.Plugins

open Lib Check

/-- `json.loads` refuses a text, or raises something else: nesting or integers may be too much
for it. -/
inductive LoadFailure where
  | invalid
  | raises (e : PyException)

/-- What becomes of a vision call: the handler may fail by itself. -/
inductive HostAnswer where
  | failed
  | notDict
  | tooLarge
  | written
  deriving DecidableEq

abbrev Line := List UInt8

structure Host where
  maxFrameBytes : ℕ
  maxProgressFrames : ℕ
  loads : Line → Except LoadFailure Value
  str : Value → Option Text
  files : OutputFiles
  visionHandler : Option (Fields → HostAnswer)

inductive Outcome where
  | returned (result : Fields)
  | refused (message : String)
  | raised (e : PyException)
  | hostFailed

inductive Effect where
  | progress (params : Fields)
  | visionCall (params : Fields)
  | answer (id : Value)

structure WorkerSession where
  progressSequence : ℕ := 0
  progressCount : ℕ := 0
  visionCallCount : ℕ := 0

/-- What a frame comes to: the exchange goes on, or it is over. -/
inductive Turn where
  | goOn (s : WorkerSession) (effects : List Effect)
  | stop (outcome : Outcome) (effects : List Effect)

def Turn.ofFailure : Failure PyException → Turn
  | .refused message => .stop (.refused message) []
  | .broken e => .stop (.raised e) []

section Model

variable (host : Host) (invocation : Invocation)

def loadLine (line : Line) : WorkerCheck Value :=
  match host.loads line with
  | .ok value => .ok value
  | .error .invalid => refuse "managed worker emitted invalid JSON"
  | .error (.raises e) => raise e

/-- `_read_frame` -/
def readFrame (line : Line) : WorkerCheck Fields := do
  require (line.length ≤ host.maxFrameBytes ∧ line.getLast? = some 10)
    "managed worker inbound frame limit exceeded"
  let value ← loadLine host line
  getOr value.dict? "managed worker frame must be an object"

/-- The response to the invocation. The text of a rejection is written into the error. -/
def respond (frame : Fields) : WorkerCheck Fields := do
  require ((frame.get "jsonrpc").isText "2.0" = true ∧ (frame.get "id").equalsInt 2 = true)
    "invalid invoke response identity"
  match frame.get? "error" with
  | some error =>
      if error.str? = none ∧ host.str error = none then raise .recursionError
      else refuse "worker rejected invoke"
  | none => do
      let value ← getOr (frame.get? "result") "worker omitted invoke result"
      let result ← validateResultIdentity invocation value
      validateStagedArtifacts host.str host.files result invocation.outputMb
      pure result

/-- A call of the vision model is handed on once, and answered. -/
def visionTurn (s : WorkerSession) (frame : Fields) : Turn :=
  match host.visionHandler with
  | none => .stop (.refused "worker emitted a host request during invoke") []
  | some handler =>
      match visionRequest invocation frame with
      | .error failure => .ofFailure failure
      | .ok params =>
          if 1 < s.visionCallCount + 1 then
            .stop (.refused "managed worker vision host-call limit exceeded") []
          else
            match handler params with
            | .failed => .stop .hostFailed [.visionCall params]
            | .notDict =>
                .stop (.refused "vision host call returned an invalid result") [.visionCall params]
            | .tooLarge =>
                .stop (.refused "managed worker outbound frame limit exceeded") [.visionCall params]
            | .written => .goOn { s with visionCallCount := s.visionCallCount + 1 }
                [.visionCall params, .answer (frame.get "id")]

def progressTurn (s : WorkerSession) (frame : Fields) : Turn :=
  match progressNotification invocation s.progressSequence frame with
  | .error failure => .ofFailure failure
  | .ok params =>
      if host.maxProgressFrames < s.progressCount + 1 then
        .stop (.refused "managed worker progress limit exceeded") []
      else .goOn { s with
        progressSequence := s.progressSequence + 1
        progressCount := s.progressCount + 1 } [.progress params]

/-- One turn of the loop of `exchange`, once the frame is read. -/
def frameTurn (s : WorkerSession) (frame : Fields) : Turn :=
  if (frame.get? "method").isSome then
    if (frame.get? "id").isSome then visionTurn host invocation s frame
    else progressTurn host invocation s frame
  else
    match respond host invocation frame with
    | .error failure => .ofFailure failure
    | .ok result => .stop (.returned result) []

def lineTurn (s : WorkerSession) (line : Line) : Turn :=
  match readFrame host line with
  | .error failure => .ofFailure failure
  | .ok frame => frameTurn host invocation s frame

/-- `exchange` during `invoke`, and the checks of its result. -/
def exchange (s : WorkerSession) : List Line → Outcome × List Effect
  | [] => (.refused "managed worker closed stdout before responding", [])
  | line :: lines =>
      match lineTurn host invocation s line with
      | .stop outcome effects => (outcome, effects)
      | .goOn s' effects =>
          ((exchange s' lines).1, effects ++ (exchange s' lines).2)

/-! ## Frames that are accepted, and frames that break a check -/

/-- A line is the JSON text of a dict. -/
def Reads (line : Line) (frame : Fields) : Prop :=
  (line.length ≤ host.maxFrameBytes ∧ line.getLast? = some 10) ∧ host.loads line = .ok (.dict frame)

/-- The next notification of progress, or the first call of the vision model. -/
inductive FrameAccepted (s : WorkerSession) (frame : Fields) :
    WorkerSession → List Effect → Prop where
  | progress {params : Fields} (hmethod : (frame.get? "method").isSome)
      (hid : (frame.get? "id").isSome = false)
      (hvalid : ProgressValid invocation s.progressSequence frame params)
      (hcount : s.progressCount + 1 ≤ host.maxProgressFrames) :
      FrameAccepted s frame { s with
        progressSequence := s.progressSequence + 1
        progressCount := s.progressCount + 1 } [.progress params]
  | vision {params : Fields} {handler : Fields → HostAnswer}
      (hmethod : (frame.get? "method").isSome) (hid : (frame.get? "id").isSome)
      (hhandler : host.visionHandler = some handler)
      (hvalid : VisionValid invocation frame params) (hfirst : s.visionCallCount = 0)
      (hwritten : handler params = .written) :
      FrameAccepted s frame { s with visionCallCount := s.visionCallCount + 1 }
        [.visionCall params, .answer (frame.get "id")]

inductive Accepted : WorkerSession → List Line → WorkerSession → List Effect → Prop where
  | nil (s : WorkerSession) : Accepted s [] s []
  | cons {s s₁ s' : WorkerSession} {line : Line} {lines : List Line} {frame : Fields}
      {effects effects' : List Effect} (hreads : Reads host line frame)
      (hframe : FrameAccepted host invocation s frame s₁ effects)
      (hrest : Accepted s₁ lines s' effects') :
      Accepted s (line :: lines) s' (effects ++ effects')

/-- A response is no text for its rejection, or its result breaks a check. -/
def ResponseBreaks (frame : Fields) : Prop :=
  ((frame.get "jsonrpc").isText "2.0" = true ∧ (frame.get "id").equalsInt 2 = true) ∧
    ((∃ error, frame.get? "error" = some error ∧ error.str? = none ∧ host.str error = none) ∨
      frame.get? "error" = none ∧ ∃ value result, frame.get? "result" = some value ∧
        ResultHead invocation value result ∧
          (Unhashable (result.get "status") ∨ StatusFits result ∧
            (Uncountable result ∨ ∃ before artifact after,
              iterArtifacts result = .ok (before ++ artifact :: after) ∧
                (∀ a ∈ before, ∃ parts size, Staged host.str host.files a parts size) ∧
                StagedBreaks host.str host.files artifact)))

def FrameBreaks (s : WorkerSession) (frame : Fields) : Prop :=
  ((frame.get? "method").isSome ∧ (frame.get? "id").isSome ∧ host.visionHandler.isSome ∧
      VisionBreaks invocation frame) ∨
    ((frame.get? "method").isSome ∧ (frame.get? "id").isSome = false ∧
      ProgressBreaks invocation s.progressSequence frame) ∨
    ((frame.get? "method").isSome = false ∧ ResponseBreaks host invocation frame)

/-- A line that cannot be loaded at all, or whose frame breaks a check. -/
def LineBreaks (s : WorkerSession) (line : Line) : Prop :=
  (line.length ≤ host.maxFrameBytes ∧ line.getLast? = some 10) ∧
    ((∃ e, host.loads line = .error (.raises e)) ∨
      ∃ frame, host.loads line = .ok (.dict frame) ∧ FrameBreaks host invocation s frame)

/-- The first line that is not accepted is one that breaks. -/
def Escapes (lines : List Line) : Prop :=
  ∃ accepted line rest s effects, lines = accepted ++ line :: rest ∧
    Accepted host invocation {} accepted s effects ∧ LineBreaks host invocation s line

end Model

variable {host : Host} {invocation : Invocation} {s s' : WorkerSession} {line : Line}
  {lines accepted : List Line} {frame params result : Fields} {effects : List Effect}

/-! ## One line -/

theorem ofFailure_ne_goOn {failure : Failure PyException} :
    Turn.ofFailure failure ≠ .goOn s effects := by
  cases failure <;> simp [Turn.ofFailure]

theorem ofFailure_raises {failure : Failure PyException} :
    (∃ e effects, Turn.ofFailure failure = .stop (.raised e) effects) ↔
      ∃ e, failure = .broken e := by
  cases failure <;> simp [Turn.ofFailure]

theorem loadLine_eq_ok {value : Value} : loadLine host line = .ok value ↔ host.loads line = .ok value := by
  unfold loadLine
  cases host.loads line with
  | ok v => simp
  | error e => cases e <;> simp [refuse, raise]

theorem breaks_loadLine : Breaks (loadLine host line) ↔ ∃ e, host.loads line = .error (.raises e) := by
  unfold loadLine
  cases host.loads line with
  | ok v => simp
  | error e => cases e <;> simp

theorem readFrame_eq_ok : readFrame host line = .ok frame ↔ Reads host line frame := by
  unfold readFrame Reads
  simp only [bind_eq_ok, exists_unit_ok, passes_require, getOr_eq_ok, loadLine_eq_ok]
  constructor
  · rintro ⟨hfits, value, hvalue, hframe⟩
    refine ⟨hfits, ?_⟩
    cases value with
    | dict fields =>
        obtain rfl := Option.some.inj hframe
        exact hvalue
    | _ => cases hframe
  · rintro ⟨hfits, hloads⟩
    exact ⟨hfits, .dict frame, hloads, rfl⟩

theorem breaks_readFrame : Breaks (readFrame host line) ↔
    (line.length ≤ host.maxFrameBytes ∧ line.getLast? = some 10) ∧
      ∃ e, host.loads line = .error (.raises e) := by
  unfold readFrame
  simp only [breaks_bind, exists_unit_ok, passes_require, breaks_require, breaks_getOr, false_or,
    and_false, exists_false, or_false, breaks_loadLine]

theorem breaks_validateStagedArtifacts {str : Value → Option Text} {files : OutputFiles}
    {outputMb : ℕ} : Breaks (validateStagedArtifacts str files result outputMb) ↔
      Uncountable result ∨ ∃ before artifact after,
        iterArtifacts result = .ok (before ++ artifact :: after) ∧
          (∀ a ∈ before, ∃ parts size, Staged str files a parts size) ∧
          StagedBreaks str files artifact := by
  unfold validateStagedArtifacts
  simp only [breaks_bind, breaks_require, and_false, exists_false, or_false, breaks_iterArtifacts,
    breaks_stagedSizes]
  apply or_congr_right
  constructor
  · rintro ⟨_, hiter, before, artifact, after, rfl, h⟩
    exact ⟨before, artifact, after, hiter, h⟩
  · rintro ⟨before, artifact, after, hiter, h⟩
    exact ⟨_, hiter, before, artifact, after, rfl, h⟩

theorem breaks_respond :
    Breaks (respond host invocation frame) ↔ ResponseBreaks host invocation frame := by
  unfold respond ResponseBreaks
  simp only [breaks_bind, exists_unit_ok, passes_require, breaks_require, false_or]
  apply and_congr_right
  intro _
  cases herror : frame.get? "error" with
  | some error =>
      dsimp only
      by_cases htext : error.str? = none ∧ host.str error = none
      · simp [htext]
      · rw [if_neg htext]
        simp only [breaks_refuse, Option.some.injEq, exists_eq_left', htext, reduceCtorEq, false_and,
          or_false]
  | none =>
      simp only [breaks_bind, breaks_getOr, false_or, getOr_eq_ok, breaks_validateResultIdentity,
        validateResultIdentity_eq_ok, breaks_validateStagedArtifacts, breaks_pure, and_false,
        exists_false, or_false, reduceCtorEq, false_and, true_and]
      constructor
      · rintro ⟨value, hvalue, ⟨result, hhead, hstatus⟩ | ⟨result, ⟨hhead, hstatus⟩, hbreaks⟩⟩
        · exact ⟨value, result, hvalue, hhead, .inl hstatus⟩
        · exact ⟨value, result, hvalue, hhead, .inr ⟨hstatus, hbreaks⟩⟩
      · rintro ⟨value, result, hvalue, hhead, hstatus | ⟨hstatus, hbreaks⟩⟩
        · exact ⟨value, hvalue, .inl ⟨result, hhead, hstatus⟩⟩
        · exact ⟨value, hvalue, .inr ⟨result, ⟨hhead, hstatus⟩, hbreaks⟩⟩

theorem visionTurn_eq_goOn : visionTurn host invocation s frame = .goOn s' effects ↔
    ∃ params handler, host.visionHandler = some handler ∧ VisionValid invocation frame params ∧
      s.visionCallCount = 0 ∧ handler params = .written ∧
      s' = { s with visionCallCount := s.visionCallCount + 1 } ∧
      effects = [.visionCall params, .answer (frame.get "id")] := by
  unfold visionTurn
  cases hhandler : host.visionHandler with
  | none => simp
  | some handler =>
      dsimp only
      cases hrequest : visionRequest invocation frame with
      | error failure =>
          constructor
          · exact fun h ↦ absurd h ofFailure_ne_goOn
          · rintro ⟨params, _, _, hvalid, _⟩
            rw [visionRequest_eq_ok.mpr hvalid] at hrequest
            cases hrequest
      | ok params =>
          dsimp only
          constructor
          · intro h
            split at h
            · cases h
            · rename_i hfirst
              cases hanswer : handler params with
              | written =>
                  rw [hanswer] at h
                  cases h
                  exact ⟨params, handler, rfl, visionRequest_eq_ok.mp hrequest, by omega, hanswer,
                    rfl, rfl⟩
              | _ =>
                  rw [hanswer] at h
                  cases h
          · rintro ⟨params', handler', hsame, hvalid, hfirst, hwritten, rfl, rfl⟩
            obtain rfl := Option.some.inj hsame
            rw [visionRequest_eq_ok.mpr hvalid] at hrequest
            obtain rfl := Except.ok.inj hrequest
            rw [if_neg (by omega), hwritten]

theorem progressTurn_eq_goOn : progressTurn host invocation s frame = .goOn s' effects ↔
    ∃ params, ProgressValid invocation s.progressSequence frame params ∧
      s.progressCount + 1 ≤ host.maxProgressFrames ∧
      s' = { s with
        progressSequence := s.progressSequence + 1
        progressCount := s.progressCount + 1 } ∧ effects = [.progress params] := by
  unfold progressTurn
  cases hnotification : progressNotification invocation s.progressSequence frame with
  | error failure =>
      constructor
      · exact fun h ↦ absurd h ofFailure_ne_goOn
      · rintro ⟨params, hvalid, _⟩
        rw [progressNotification_eq_ok.mpr hvalid] at hnotification
        cases hnotification
  | ok params =>
      dsimp only
      constructor
      · intro h
        split at h
        · cases h
        · cases h
          exact ⟨params, progressNotification_eq_ok.mp hnotification, by omega, rfl, rfl⟩
      · rintro ⟨params', hvalid, hcount, rfl, rfl⟩
        rw [progressNotification_eq_ok.mpr hvalid] at hnotification
        obtain rfl := Except.ok.inj hnotification
        rw [if_neg (by omega)]

theorem frameTurn_eq_goOn : frameTurn host invocation s frame = .goOn s' effects ↔
    FrameAccepted host invocation s frame s' effects := by
  unfold frameTurn
  constructor
  · intro h
    split at h
    · rename_i hmethod
      split at h
      · rename_i hid
        obtain ⟨params, handler, hhandler, hvalid, hfirst, hwritten, rfl, rfl⟩ :=
          visionTurn_eq_goOn.mp h
        exact .vision hmethod hid hhandler hvalid hfirst hwritten
      · rename_i hid
        obtain ⟨params, hvalid, hcount, rfl, rfl⟩ := progressTurn_eq_goOn.mp h
        exact .progress hmethod (Bool.eq_false_iff.mpr hid) hvalid hcount
    · split at h
      · exact absurd h ofFailure_ne_goOn
      · cases h
  · rintro (⟨hmethod, hid, hvalid, hcount⟩ | ⟨hmethod, hid, hhandler, hvalid, hfirst, hwritten⟩)
    · rw [if_pos hmethod, if_neg (by rw [hid]; exact Bool.false_ne_true)]
      exact progressTurn_eq_goOn.mpr ⟨_, hvalid, hcount, rfl, rfl⟩
    · rw [if_pos hmethod, if_pos hid]
      exact visionTurn_eq_goOn.mpr ⟨_, _, hhandler, hvalid, hfirst, hwritten, rfl, rfl⟩

theorem lineTurn_eq_goOn : lineTurn host invocation s line = .goOn s' effects ↔
    ∃ frame, Reads host line frame ∧ FrameAccepted host invocation s frame s' effects := by
  unfold lineTurn
  cases hread : readFrame host line with
  | error failure =>
      constructor
      · exact fun h ↦ absurd h ofFailure_ne_goOn
      · rintro ⟨frame, hreads, _⟩
        rw [readFrame_eq_ok.mpr hreads] at hread
        cases hread
  | ok frame =>
      dsimp only
      rw [frameTurn_eq_goOn]
      constructor
      · exact fun h ↦ ⟨frame, readFrame_eq_ok.mp hread, h⟩
      · rintro ⟨frame', hreads, h⟩
        rw [readFrame_eq_ok.mpr hreads] at hread
        obtain rfl := Except.ok.inj hread
        exact h

/-- The turn ends with another exception. -/
def Turn.Raises (turn : Turn) : Prop := ∃ e effects, turn = .stop (.raised e) effects

theorem raises_ofFailure_of {α : Type} {x : WorkerCheck α} {failure : Failure PyException}
    (h : x = .error failure) : (Turn.ofFailure failure).Raises ↔ Breaks x := by
  subst h
  unfold Turn.Raises Breaks
  rw [ofFailure_raises]
  simp

theorem raises_visionTurn : (visionTurn host invocation s frame).Raises ↔
    host.visionHandler.isSome ∧ VisionBreaks invocation frame := by
  unfold visionTurn
  rw [← breaks_visionRequest]
  cases host.visionHandler with
  | none => simp [Turn.Raises]
  | some handler =>
      dsimp only
      cases hrequest : visionRequest invocation frame with
      | error failure =>
          rw [raises_ofFailure_of hrequest, hrequest]
          simp
      | ok params =>
          simp only [breaks_ok, and_false, iff_false]
          rintro ⟨e, effects, h⟩
          split at h
          · cases h
          · split at h <;> cases h

theorem raises_progressTurn : (progressTurn host invocation s frame).Raises ↔
    ProgressBreaks invocation s.progressSequence frame := by
  unfold progressTurn
  rw [← breaks_progressNotification]
  cases hnotification : progressNotification invocation s.progressSequence frame with
  | error failure => rw [raises_ofFailure_of hnotification, hnotification]
  | ok params =>
      simp only [breaks_ok, iff_false]
      rintro ⟨e, effects, h⟩
      split at h <;> cases h

theorem raises_frameTurn : (frameTurn host invocation s frame).Raises ↔
    FrameBreaks host invocation s frame := by
  unfold frameTurn FrameBreaks
  by_cases hmethod : (frame.get? "method").isSome
  · rw [if_pos hmethod]
    by_cases hid : (frame.get? "id").isSome
    · rw [if_pos hid, raises_visionTurn]
      simp [hmethod, hid]
    · rw [if_neg hid, raises_progressTurn]
      simp [hmethod, hid]
  · rw [if_neg hmethod, ← breaks_respond]
    cases hrespond : respond host invocation frame with
    | error failure =>
        rw [raises_ofFailure_of hrespond, hrespond]
        simp [hmethod]
    | ok result => simp [Turn.Raises, hmethod]

theorem raises_lineTurn : (lineTurn host invocation s line).Raises ↔
    LineBreaks host invocation s line := by
  unfold lineTurn LineBreaks
  cases hread : readFrame host line with
  | error failure =>
      rw [raises_ofFailure_of hread, breaks_readFrame]
      apply and_congr_right
      intro hfits
      constructor
      · exact .inl
      · rintro (h | ⟨frame, hloads, _⟩)
        · exact h
        · rw [readFrame_eq_ok.mpr ⟨hfits, hloads⟩] at hread
          cases hread
  | ok frame =>
      dsimp only
      obtain ⟨hfits, hloads⟩ := readFrame_eq_ok.mp hread
      rw [raises_frameTurn, hloads]
      constructor
      · exact fun h ↦ ⟨hfits, .inr ⟨frame, rfl, h⟩⟩
      · rintro ⟨_, ⟨e, h⟩ | ⟨frame', h, hbreaks⟩⟩
        · cases h
        · cases h
          exact hbreaks

/-! ## Runs -/

/-- The exchange ends with another exception exactly where the first line that is not accepted
breaks a check. -/
theorem exchange_raises_iff : (∃ e, (exchange host invocation s lines).1 = .raised e) ↔
    ∃ accepted line rest s' effects, lines = accepted ++ line :: rest ∧
      Accepted host invocation s accepted s' effects ∧ LineBreaks host invocation s' line := by
  induction lines generalizing s with
  | nil =>
      constructor
      · rintro ⟨e, h⟩
        cases h
      · rintro ⟨accepted, line, rest, _, _, h, _⟩
        simp at h
  | cons line lines ih =>
      unfold exchange
      cases hturn : lineTurn host invocation s line with
      | stop outcome effects =>
          have hstop : ∀ frame s₁ effects', Reads host line frame →
              ¬ FrameAccepted host invocation s frame s₁ effects' := by
            intro frame s₁ effects' hreads hframe
            rw [lineTurn_eq_goOn.mpr ⟨frame, hreads, hframe⟩] at hturn
            cases hturn
          constructor
          · rintro ⟨e, rfl⟩
            have hraises : (lineTurn host invocation s line).Raises := ⟨e, effects, hturn⟩
            exact ⟨[], line, lines, s, [], rfl, .nil s, raises_lineTurn.mp hraises⟩
          · rintro ⟨accepted, line', rest, s', effects', heq, haccepted, hbreaks⟩
            cases haccepted with
            | nil =>
                obtain ⟨rfl, rfl⟩ := List.cons.inj heq
                obtain ⟨e, _, h⟩ := raises_lineTurn.mpr hbreaks
                rw [hturn] at h
                cases h
                exact ⟨e, rfl⟩
            | cons hreads hframe _ =>
                obtain ⟨rfl, _⟩ := List.cons.inj heq
                exact absurd hframe (hstop _ _ _ hreads)
      | goOn s₁ effects =>
          obtain ⟨frame, hreads, hframe⟩ := lineTurn_eq_goOn.mp hturn
          dsimp only
          rw [ih]
          constructor
          · rintro ⟨accepted, line', rest, s', effects', rfl, haccepted, hbreaks⟩
            exact ⟨line :: accepted, line', rest, s', _, rfl, .cons hreads hframe haccepted, hbreaks⟩
          · rintro ⟨accepted, line', rest, s', effects', heq, haccepted, hbreaks⟩
            cases haccepted with
            | nil =>
                obtain ⟨rfl, rfl⟩ := List.cons.inj heq
                obtain ⟨e, _, h⟩ := raises_lineTurn.mpr hbreaks
                rw [hturn] at h
                cases h
            | cons hreads' hframe' hrest =>
                obtain ⟨rfl, rfl⟩ := List.cons.inj heq
                have hgo := lineTurn_eq_goOn.mpr ⟨_, hreads', hframe'⟩
                rw [hturn] at hgo
                cases hgo
                exact ⟨_, line', rest, s', _, rfl, hrest, hbreaks⟩

end ShejaneRuntime.Plugins
