import ShejaneRuntime.Plugins.WorkerExchange

/-!
# The exchange is strict

What the host does in an exchange comes from the frames it accepts: progress
counted from one, one call of the vision model over authorized inputs, and a
result of the invocation whose artifacts are files of the outputs. Nothing is
read after the first frame that is not accepted.
-/

namespace ShejaneRuntime.Plugins

open Lib Check

variable {host : Host} {invocation : Invocation} {s s' : WorkerSession} {line : Line}
  {lines accepted rest : List Line} {frame params result : Fields} {effects effects' : List Effect}
  {outcome : Outcome}

/-! ## What the effects say -/

def Effect.progress? : Effect → Option Fields
  | .progress params => some params
  | _ => none

def Effect.visionCall? : Effect → Option Fields
  | .visionCall params => some params
  | _ => none

/-- The numbers of the progress made known. -/
def progressNumbers (effects : List Effect) : List (Option ℤ) :=
  (effects.filterMap Effect.progress?).map fun params ↦ (params.get "sequence").int?

/-- A call of the vision model over authorized inputs, by the binding that was granted. -/
def Granted (invocation : Invocation) (params : Fields) : Prop :=
  InputsFit invocation (params.get "input_ids") ∧
    (params.get "model_binding_id").str? = invocation.modelBindingId

theorem VisionValid.granted (h : VisionValid invocation frame params) : Granted invocation params :=
  ⟨h.inputs, h.head.same_binding⟩

/-- The effects of accepted frames, counted on from a session. -/
structure Counted (invocation : Invocation) (s s' : WorkerSession) (effects : List Effect) :
    Prop where
  sequence : s'.progressSequence = s.progressSequence + (progressNumbers effects).length
  numbers : progressNumbers effects =
    (List.range' (s.progressSequence + 1) (progressNumbers effects).length).map fun n : ℕ ↦ some (n : ℤ)
  calls : s'.visionCallCount =
    s.visionCallCount + (effects.filterMap Effect.visionCall?).length
  at_most_one : s.visionCallCount ≤ 1 → s'.visionCallCount ≤ 1
  granted : ∀ params ∈ effects.filterMap Effect.visionCall?, Granted invocation params

theorem FrameAccepted.counted (h : FrameAccepted host invocation s frame s' effects) :
    Counted invocation s s' effects := by
  cases h with
  | @progress params hmethod hid hvalid hcount =>
      have hnumber : (params.get "sequence").int? = some ((s.progressSequence : ℤ) + 1) :=
        hvalid.1.sequence
      exact ⟨rfl, by simp [progressNumbers, Effect.progress?, hnumber], rfl, fun h ↦ h,
        by simp [Effect.visionCall?]⟩
  | @vision params handler hmethod hid hhandler hvalid hfirst hwritten =>
      refine ⟨rfl, rfl, rfl, ?_, ?_⟩
      · intro _
        show s.visionCallCount + 1 ≤ 1
        omega
      · intro params' hparams'
        have heq : params' = params := by simpa [Effect.visionCall?] using hparams'
        rw [heq]
        exact hvalid.granted

theorem progressNumbers_append (effects effects' : List Effect) :
    progressNumbers (effects ++ effects') = progressNumbers effects ++ progressNumbers effects' := by
  simp [progressNumbers, List.filterMap_append]

theorem Counted.append {s₁ : WorkerSession} (h : Counted invocation s s₁ effects)
    (h' : Counted invocation s₁ s' effects') : Counted invocation s s' (effects ++ effects') where
  sequence := by
    rw [progressNumbers_append, List.length_append, h'.sequence, h.sequence]
    omega
  numbers := by
    rw [progressNumbers_append, List.length_append, ← List.range'_append_1, List.map_append,
      ← h.numbers]
    congr 1
    conv => lhs; rw [h'.numbers, h.sequence]
    congr 2
    omega
  calls := by
    rw [List.filterMap_append, List.length_append, h'.calls, h.calls]
    omega
  at_most_one := fun hle ↦ h'.at_most_one (h.at_most_one hle)
  granted := by
    intro params hparams
    rw [List.filterMap_append, List.mem_append] at hparams
    exact hparams.elim (h.granted params) (h'.granted params)

theorem Accepted.counted (h : Accepted host invocation s accepted s' effects) :
    Counted invocation s s' effects := by
  induction h with
  | nil s => exact ⟨rfl, rfl, rfl, fun h ↦ h, by simp⟩
  | cons _ hframe _ ih => exact hframe.counted.append ih

/-! ## Where an exchange ends -/

theorem Accepted.exchange_append (h : Accepted host invocation s accepted s' effects)
    (rest : List Line) : exchange host invocation s (accepted ++ rest) =
      ((exchange host invocation s' rest).1, effects ++ (exchange host invocation s' rest).2) := by
  induction h with
  | nil s => rfl
  | cons hreads hframe _ ih =>
      rw [List.cons_append, exchange, lineTurn_eq_goOn.mpr ⟨_, hreads, hframe⟩]
      dsimp only
      rw [ih, List.append_assoc]

/-- An exchange reads accepted lines until they end, or until one that stops it. -/
theorem exchange_cases (host : Host) (invocation : Invocation) (s : WorkerSession)
    (lines : List Line) :
    ∃ accepted rest s' effects, lines = accepted ++ rest ∧
      Accepted host invocation s accepted s' effects ∧
      (rest = [] ∨ ∃ line rest' outcome effects', rest = line :: rest' ∧
        lineTurn host invocation s' line = .stop outcome effects') := by
  induction lines generalizing s with
  | nil => exact ⟨[], [], s, [], rfl, .nil s, .inl rfl⟩
  | cons line lines ih =>
      cases hturn : lineTurn host invocation s line with
      | stop outcome effects' =>
          exact ⟨[], line :: lines, s, [], rfl, .nil s,
            .inr ⟨line, lines, outcome, effects', rfl, hturn⟩⟩
      | goOn s₁ effects =>
          obtain ⟨frame, hreads, hframe⟩ := lineTurn_eq_goOn.mp hturn
          obtain ⟨accepted, rest, s', effects', rfl, haccepted, hend⟩ := ih s₁
          exact ⟨line :: accepted, rest, s', _, rfl, .cons hreads hframe haccepted, hend⟩

theorem exchange_stop {rest' : List Line}
    (h : lineTurn host invocation s line = .stop outcome effects) :
    exchange host invocation s (line :: rest') = (outcome, effects) := by
  rw [exchange, h]

/-- The artifacts of a result are files of the outputs and stay within the limit together. -/
def ArtifactsFit (host : Host) (invocation : Invocation) (result : Fields) : Prop :=
  ∃ artifacts sizes, iterArtifacts result = .ok artifacts ∧
    List.Forall₂ (fun artifact size ↦ ∃ parts, Staged host.str host.files artifact parts size)
      artifacts sizes ∧ sizes.sum ≤ invocation.outputMb * 1024 * 1024

/-- The line that stops an exchange has no effect, except for a valid call of the vision model that
is not answered; and what it returns is a result of the invocation. -/
structure Stops (host : Host) (invocation : Invocation) (s : WorkerSession) (line : Line)
    (outcome : Outcome) (effects : List Effect) : Prop where
  effects : effects = [] ∨ s.visionCallCount = 0 ∧ ∃ frame params, Reads host line frame ∧
    VisionValid invocation frame params ∧ effects = [.visionCall params]
  returned : ∀ result, outcome = .returned result →
    ResultHead invocation (.dict result) result ∧ ArtifactsFit host invocation result

theorem respond_eq_ok (h : respond host invocation frame = .ok result) :
    ResultHead invocation (.dict result) result ∧ ArtifactsFit host invocation result := by
  unfold respond at h
  obtain ⟨_, _, h⟩ := bind_eq_ok.mp h
  split at h
  · split at h <;> cases h
  · simp only [bind_eq_ok, getOr_eq_ok, validateResultIdentity_eq_ok, exists_unit_ok] at h
    obtain ⟨value, _, result', ⟨hhead, _⟩, hartifacts, hok⟩ := h
    obtain rfl := Except.ok.inj hok
    refine ⟨⟨rfl, hhead.2⟩, ?_⟩
    unfold validateStagedArtifacts at hartifacts
    simp only [passes_bind, passes_require, stagedSizes_eq_ok] at hartifacts
    obtain ⟨artifacts, hiter, sizes, hstaged, hsum⟩ := hartifacts
    exact ⟨artifacts, sizes, hiter, hstaged, hsum⟩

theorem stops_ofFailure {failure : Failure PyException}
    (h : Turn.ofFailure failure = .stop outcome effects) :
    Stops host invocation s line outcome effects := by
  cases failure with
  | refused message =>
      cases h
      exact ⟨.inl rfl, fun result hresult ↦ by cases hresult⟩
  | broken e =>
      cases h
      exact ⟨.inl rfl, fun result hresult ↦ by cases hresult⟩

theorem stops_visionTurn (hreads : Reads host line frame)
    (h : visionTurn host invocation s frame = .stop outcome effects) :
    Stops host invocation s line outcome effects := by
  unfold visionTurn at h
  split at h
  · cases h
    exact ⟨.inl rfl, fun result hresult ↦ by cases hresult⟩
  · rename_i handler hhandler
    split at h
    · exact stops_ofFailure h
    · rename_i params hparams
      have hvalid := visionRequest_eq_ok.mp hparams
      split at h
      · cases h
        exact ⟨.inl rfl, fun result hresult ↦ by cases hresult⟩
      · rename_i hfirst
        have hzero : s.visionCallCount = 0 := by omega
        split at h
        all_goals cases h
        all_goals exact ⟨.inr ⟨hzero, frame, params, hreads, hvalid, rfl⟩,
          fun result hresult ↦ by cases hresult⟩

theorem stops_lineTurn (h : lineTurn host invocation s line = .stop outcome effects) :
    Stops host invocation s line outcome effects := by
  unfold lineTurn at h
  split at h
  · exact stops_ofFailure h
  · rename_i frame hread
    have hreads := readFrame_eq_ok.mp hread
    unfold frameTurn at h
    split at h
    · split at h
      · exact stops_visionTurn hreads h
      · unfold progressTurn at h
        split at h
        · exact stops_ofFailure h
        · split at h
          · cases h
            exact ⟨.inl rfl, fun result hresult ↦ by cases hresult⟩
          · cases h
    · split at h
      · exact stops_ofFailure h
      · rename_i result hrespond
        cases h
        refine ⟨.inl rfl, ?_⟩
        rintro result' hresult
        cases hresult
        exact respond_eq_ok hrespond

/-! ## The exchange as a whole -/

/-- What the exchange comes to, whatever lines the worker writes: the result or a protocol error,
unless the handler of the host fails by itself; and all the host does comes from the lines before
the first one that is not accepted. -/
structure Strict (host : Host) (invocation : Invocation) (lines : List Line) : Prop where
  total : ∀ e, (exchange host invocation {} lines).1 ≠ .raised e
  returned : ∀ result, (exchange host invocation {} lines).1 = .returned result →
    ResultHead invocation (.dict result) result ∧ ArtifactsFit host invocation result
  progress : progressNumbers (exchange host invocation {} lines).2 =
    (List.range' 1 (progressNumbers (exchange host invocation {} lines).2).length).map
      fun n : ℕ ↦ some (n : ℤ)
  vision : ((exchange host invocation {} lines).2.filterMap Effect.visionCall?).length ≤ 1 ∧
    ∀ params ∈ (exchange host invocation {} lines).2.filterMap Effect.visionCall?,
      Granted invocation params
  nothing_after : ∃ accepted rest s effects, lines = accepted ++ rest ∧
    Accepted host invocation {} accepted s effects ∧
    ((exchange host invocation {} lines).2 = effects ∨ ∃ line rest' frame params,
      rest = line :: rest' ∧ Reads host line frame ∧ VisionValid invocation frame params ∧
        (exchange host invocation {} lines).2 = effects ++ [.visionCall params]) ∧
    ∀ line rest', rest = line :: rest' → ∀ other,
      exchange host invocation {} (accepted ++ line :: other) = exchange host invocation {} lines

/-- An exchange of accepted lines and no other. -/
theorem strict_of_accepted (h : Accepted host invocation {} accepted s effects) :
    Strict host invocation accepted := by
  have hexchange : exchange host invocation {} accepted =
      (.refused "managed worker closed stdout before responding", effects) := by
    have happend := h.exchange_append []
    rw [List.append_nil] at happend
    rw [happend, exchange, List.append_nil]
  have hcounted := h.counted
  have hone := hcounted.at_most_one (Nat.zero_le 1)
  rw [hcounted.calls] at hone
  refine ⟨?_, ?_, ?_, ?_, accepted, [], s, effects, (List.append_nil _).symm, h, .inl ?_, ?_⟩
  · intro e he
    rw [hexchange] at he
    cases he
  · intro result hresult
    rw [hexchange] at hresult
    cases hresult
  · rw [hexchange]
    exact hcounted.numbers
  · rw [hexchange]
    exact ⟨by simpa using hone, hcounted.granted⟩
  · rw [hexchange]
  · intro line rest' hrest
    cases hrest

/-- An exchange that a line stops is strict unless the line breaks a check. -/
theorem strict_of_stop (h : Accepted host invocation {} accepted s effects)
    (hstop : lineTurn host invocation s line = .stop outcome effects')
    (htotal : ∀ e, outcome ≠ .raised e) (rest : List Line) :
    Strict host invocation (accepted ++ line :: rest) := by
  have hexchange : ∀ other, exchange host invocation {} (accepted ++ line :: other) =
      (outcome, effects ++ effects') := by
    intro other
    rw [h.exchange_append, exchange_stop hstop]
  have hcounted := h.counted
  have hone := hcounted.at_most_one (Nat.zero_le 1)
  rw [hcounted.calls] at hone
  have hstops := stops_lineTurn hstop
  have hnumbers : progressNumbers effects' = [] := by
    rcases hstops.effects with rfl | ⟨_, _, _, _, _, rfl⟩ <;> rfl
  refine ⟨?_, ?_, ?_, ?_, accepted, line :: rest, s, effects, rfl, h, ?_, ?_⟩
  · rw [hexchange]
    exact htotal
  · rw [hexchange]
    exact hstops.returned
  · rw [hexchange]
    dsimp only
    rw [progressNumbers_append, hnumbers, List.append_nil]
    exact hcounted.numbers
  · rw [hexchange]
    dsimp only
    rw [List.filterMap_append, List.length_append]
    rcases hstops.effects with rfl | ⟨hfirst, frame, params, _, hvalid, rfl⟩
    · refine ⟨by simpa using hone, ?_⟩
      intro params hparams
      rw [List.filterMap_nil, List.append_nil] at hparams
      exact hcounted.granted params hparams
    · have hnone : (effects.filterMap Effect.visionCall?).length = 0 := by
        have hcalls := hcounted.calls
        rw [hfirst] at hcalls
        omega
      refine ⟨by simp [hnone, Effect.visionCall?], ?_⟩
      intro params' hparams'
      rcases List.mem_append.mp hparams' with hmem | hmem
      · exact hcounted.granted params' hmem
      · have heq : params' = params := by simpa [Effect.visionCall?] using hmem
        rw [heq]
        exact hvalid.granted
  · rw [hexchange]
    rcases hstops.effects with rfl | ⟨_, frame, params, hreads, hvalid, rfl⟩
    · exact .inl (List.append_nil _)
    · exact .inr ⟨line, rest, frame, params, rfl, hreads, hvalid, rfl⟩
  · intro line' rest' hrest other
    obtain ⟨rfl, rfl⟩ := List.cons.inj hrest
    rw [hexchange, hexchange]

/-- The exchange is strict exactly where the first line that is not accepted breaks no check. -/
theorem strict_iff (host : Host) (invocation : Invocation) (lines : List Line) :
    Strict host invocation lines ↔ ¬ Escapes host invocation lines := by
  constructor
  · intro hstrict hescapes
    obtain ⟨e, he⟩ := exchange_raises_iff.mpr hescapes
    exact hstrict.total e he
  · intro hnot
    have htotal : ∀ e, (exchange host invocation {} lines).1 ≠ .raised e :=
      fun e he ↦ hnot (exchange_raises_iff.mp ⟨e, he⟩)
    obtain ⟨accepted, rest, s, effects, rfl, haccepted, rfl | ⟨line, rest', outcome, effects', rfl,
      hstop⟩⟩ := exchange_cases host invocation {} lines
    · rw [List.append_nil]
      exact strict_of_accepted haccepted
    · apply strict_of_stop haccepted hstop
      intro e he
      apply htotal e
      rw [haccepted.exchange_append, exchange_stop hstop, he]

/-! ## A result without artifacts -/

namespace NullArtifacts

/-- The line of a result whose artifacts are `null`. -/
def resultLine : Line :=
  ("\x7b\"jsonrpc\":\"2.0\",\"id\":2,\"result\":\x7b\"invocation_id\":\"i\"," ++
    "\"operation_id\":\"o\",\"status\":\"succeeded\",\"artifacts\":null\x7d\x7d\n").toUTF8.toList

def text (s : String) : Value := .str (Text.ofString s)

def field (key : String) (value : Value) : Text × Value := (Text.ofString key, value)

def response : Value :=
  .dict [field "jsonrpc" (text "2.0"), field "id" (.int 2), field "result" (.dict
    [field "invocation_id" (text "i"), field "operation_id" (text "o"),
      field "status" (text "succeeded"), field "artifacts" .null])]

def sampleHost : Host where
  maxFrameBytes := 1000
  maxProgressFrames := 100
  loads l := if l = resultLine then .ok response else .error .invalid
  str _ := none
  files := ⟨fun _ ↦ none, fun _ ↦ .failed, fun _ ↦ none, fun _ ↦ none⟩
  visionHandler := none

def sampleInvocation : Invocation where
  invocationId := Text.ofString "i"
  operationId := Text.ofString "o"
  capabilities := []
  modelBindingId := none
  inputIds := []
  outputMb := 1

/-- Going through `null` is a `TypeError`. -/
theorem not_strict : ¬ Strict sampleHost sampleInvocation [resultLine] := by
  intro hstrict
  have hfits : resultLine.length ≤ 1000 ∧ resultLine.getLast? = some 10 := by decide +kernel
  have hread : readFrame sampleHost resultLine = .ok [field "jsonrpc" (text "2.0"), field "id" (.int 2),
      field "result" (.dict [field "invocation_id" (text "i"), field "operation_id" (text "o"),
        field "status" (text "succeeded"), field "artifacts" .null])] :=
    readFrame_eq_ok.mpr ⟨hfits, if_pos rfl⟩
  apply hstrict.total .typeError
  unfold exchange lineTurn
  rw [hread]
  rfl

end NullArtifacts

end ShejaneRuntime.Plugins
