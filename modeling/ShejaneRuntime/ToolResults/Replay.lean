import ShejaneRuntime.ToolResults.Messages

/-!
# Replaying a tool result

A stored result is replayed as the result that was stored exactly when all its
parts come back. A command means the same whether its targets are given as a
tuple or as a list.
-/

namespace ShejaneRuntime.ToolResults

open Lib

variable {M : Type} {L : Langchain M}

/-! ## Stored commands and messages -/

/-- The object a command is stored as. -/
def commandObject (graph update resume goto : JsonValue) : JsonValue :=
  .obj [(Text.ofString "kind", .str (Text.ofString "command")), (Text.ofString "graph", graph),
    (Text.ofString "update", update), (Text.ofString "resume", resume),
    (Text.ofString "goto", goto)]

/-- The object a message is stored as. -/
def messageObject (value : JsonValue) : JsonValue :=
  .obj [(Text.ofString "kind", .str (Text.ofString "tool_message")), (Text.ofString "value", value)]

theorem toJson_payload {graph update resume goto : PyData} :
    toJson true (.dict [(key "kind", str "command"), (key "graph", graph), (key "update", update),
      (key "resume", resume), (key "goto", goto)]) = (do
        let g ← toJson true graph
        let u ← toJson true update
        let r ← toJson true resume
        let t ← toJson true goto
        return commandObject g u r t) := by
  rw [toJson, if_neg (by simp [sortable, key, Key.isStr])]
  cases hg : toJson true graph with
  | none => simp [toJsonFields, hg]
  | some g =>
      cases hu : toJson true update with
      | none => simp [toJsonFields, hu]
      | some u =>
          cases hr : toJson true resume with
          | none => simp [toJsonFields, hr]
          | some r =>
              cases ht : toJson true goto with
              | none => simp [toJsonFields, ht]
              | some t =>
                  simp [toJsonFields, hg, hu, hr, ht, toJson, key, str, Key.text, commandObject]

theorem writeJson_eq_ok {d : PyData} {j : JsonValue} :
    writeJson d = .ok j ↔ toJson true d = some j := by
  unfold writeJson
  cases toJson true d with
  | none => simp
  | some j => simp

theorem serialize_command {c : Command M} {stored : JsonValue} :
    serializeToolResult L (.command c) = .ok stored ↔ ∃ g u r t, toJson true c.graph = some g ∧
      Through L c.update u ∧ Through L c.resume r ∧ Through L c.goto t ∧
        stored = commandObject g u r t := by
  unfold serializeToolResult
  simp only [payload, bind_eq_ok, Through]
  constructor
  · rintro ⟨d, ⟨update, hu, resume, hr, goto, ht, hd⟩, hstored⟩
    cases hd
    rw [writeJson_eq_ok, toJson_payload] at hstored
    simp only [Option.bind_eq_bind, Option.bind_eq_some_iff] at hstored
    obtain ⟨g, hg, u, hu', r, hr', t, ht', hstored⟩ := hstored
    cases hstored
    exact ⟨g, u, r, t, hg, ⟨update, hu, hu'⟩, ⟨resume, hr, hr'⟩, ⟨goto, ht, ht'⟩, rfl⟩
  · rintro ⟨g, u, r, t, hg, ⟨update, hu, hu'⟩, ⟨resume, hr, hr'⟩, ⟨goto, ht, ht'⟩, rfl⟩
    refine ⟨_, ⟨update, hu, resume, hr, goto, ht, rfl⟩, ?_⟩
    rw [writeJson_eq_ok, toJson_payload, hg, hu', hr', ht']
    rfl

theorem serialize_toolMessage {m : M} {stored : JsonValue} :
    serializeToolResult L (.toolMessage m) = .ok stored ↔
      ∃ fs, toJson true (.dict (L.messageToDict m)) = some (.obj fs) ∧
        stored = messageObject (.obj fs) := by
  have hwritten : ∀ d, toJson true (.dict [(key "kind", str "tool_message"), (key "value", d)]) =
      (toJson true d).map messageObject := by
    intro d
    rw [toJson, if_neg (by simp [sortable, key, Key.isStr])]
    cases hd : toJson true d with
    | none => simp [toJsonFields, hd]
    | some j => simp [toJsonFields, hd, toJson, key, str, Key.text, messageObject]
  unfold serializeToolResult
  simp only [payload, bind_eq_ok]
  constructor
  · rintro ⟨d, hd, hstored⟩
    cases hd
    rw [writeJson_eq_ok, hwritten] at hstored
    obtain ⟨value, hvalue, rfl⟩ := Option.map_eq_some_iff.mp hstored
    obtain ⟨fs, rfl⟩ := exists_obj_of_dict hvalue
    exact ⟨fs, hvalue, rfl⟩
  · rintro ⟨fs, hfs, rfl⟩
    refine ⟨_, rfl, ?_⟩
    rw [writeJson_eq_ok, hwritten, hfs, Option.map_some]

theorem ofString_ne : (Text.ofString "kind" ≠ Text.ofString "graph" ∧
    Text.ofString "kind" ≠ Text.ofString "update" ∧ Text.ofString "kind" ≠ Text.ofString "resume" ∧
    Text.ofString "kind" ≠ Text.ofString "goto" ∧ Text.ofString "kind" ≠ Text.ofString "value") ∧
    (Text.ofString "graph" ≠ Text.ofString "update" ∧
      Text.ofString "graph" ≠ Text.ofString "resume" ∧
      Text.ofString "graph" ≠ Text.ofString "goto") ∧
    (Text.ofString "update" ≠ Text.ofString "resume" ∧
      Text.ofString "update" ≠ Text.ofString "goto") ∧
    Text.ofString "resume" ≠ Text.ofString "goto" ∧
    Text.ofString "command" ≠ Text.ofString "tool_message" := by
  decide +kernel

theorem deserialize_commandObject {g u r t : JsonValue} {result : ToolResult M} :
    deserializeToolResult L (commandObject g u r t) = .ok result ↔ ∃ update resume goto,
      decodeJsonValue L u = .ok update ∧ decodeJsonValue L r = .ok resume ∧
        decodeJsonValue L t = .ok goto ∧ result = .command ⟨ofJson g, update, resume, goto⟩ := by
  obtain ⟨⟨h₁, h₂, h₃, h₄, h₅⟩, ⟨h₆, h₇, h₈⟩, ⟨h₉, h₁₀⟩, h₁₁, h₁₂⟩ := ofString_ne
  unfold commandObject deserializeToolResult
  simp only [hasKind, field, fieldOrNull, List.find?, h₁, h₂, h₃, h₄, h₆, h₇, h₈, h₉, h₁₀, h₁₁,
    h₁₂, decide_true, decide_false, Option.map_some, Option.getD_some, if_true,
    Bool.false_eq_true, if_false, bind_eq_ok]
  constructor
  · rintro ⟨update, hu, resume, hr, goto, ht, hresult⟩
    cases hresult
    exact ⟨update, resume, goto, hu, hr, ht, rfl⟩
  · rintro ⟨update, resume, goto, hu, hr, ht, rfl⟩
    exact ⟨update, hu, resume, hr, goto, ht, rfl⟩

theorem deserialize_messageObject {fs : List (Text × JsonValue)} {result : ToolResult M} :
    deserializeToolResult L (messageObject (.obj fs)) = .ok result ↔
      ∃ m, L.messagesFromDict fs = some m ∧ L.isToolMessage m = true ∧
        result = .toolMessage m := by
  obtain ⟨⟨_, _, _, _, hvalue⟩, _⟩ := ofString_ne
  unfold messageObject deserializeToolResult
  simp only [hasKind, field, List.find?, hvalue, decide_true, decide_false, Option.map_some, if_true]
  cases hm : L.messagesFromDict fs with
  | none => simp
  | some m =>
      dsimp only
      by_cases htool : L.isToolMessage m = true
      · rw [if_pos htool]
        constructor
        · rintro ⟨⟩
          exact ⟨m, rfl, htool, rfl⟩
        · rintro ⟨m', hm', _, rfl⟩
          cases hm'
          rfl
      · rw [if_neg htool]
        constructor
        · rintro ⟨⟩
        · rintro ⟨m', hm', htool', _⟩
          cases hm'
          exact absurd htool' htool

/-! ## The whole result -/

/-- The result comes back as it was: every part of it does. -/
def CleanResult (L : Langchain M) : ToolResult M → Prop
  | .toolMessage m => L.isToolMessage m = true ∧ PlainFields (L.messageToDict m)
  | .command c => Plain c.graph ∧ Clean L c.update ∧ Clean L c.resume ∧ Clean L c.goto

/-- Where a command goes to: a tuple and a list name the same targets. -/
def targets : PyValue M → List (PyValue M)
  | .list items => items
  | .tuple items => items
  | v => [v]

/-- Two results change the state of the graph in the same way. -/
inductive SameEffect : ToolResult M → ToolResult M → Prop
  | toolMessage (m : M) : SameEffect (.toolMessage m) (.toolMessage m)
  | command {c c' : Command M} (graph : c.graph = c'.graph) (update : c.update = c'.update)
      (resume : c.resume = c'.resume) (goto : targets c.goto = targets c'.goto) :
      SameEffect (.command c) (.command c')

def CleanEffect (L : Langchain M) : ToolResult M → Prop
  | .toolMessage m => L.isToolMessage m = true ∧ PlainFields (L.messageToDict m)
  | .command c =>
    Plain c.graph ∧ Clean L c.update ∧ Clean L c.resume ∧ CleanItems L (targets c.goto)

theorem message_comes_back_iff (hL : L.RoundTrips) {m : M} :
    (∃ fs, toJson true (.dict (L.messageToDict m)) = some (.obj fs) ∧
      L.messagesFromDict fs = some m) ↔ PlainFields (L.messageToDict m) := by
  constructor
  · rintro ⟨fs, hfs, hm⟩
    have hplain : Plain (.dict (L.messageToDict m)) := by
      apply plain_of_reads_back hfs
      rw [ofJson, hL.dumped m m fs hfs hm]
    exact hplain
  · intro h
    have hplain : Plain (.dict (L.messageToDict m)) := h
    obtain ⟨j, hj, hback⟩ := hplain.reads_back
    obtain ⟨fs, rfl⟩ := exists_obj_of_dict hj
    rw [ofJson] at hback
    exact ⟨fs, hj, hL.rebuilt m fs hj (PyValue.dict.inj hback)⟩

theorem replayed_toolMessage (hL : L.RoundTrips) {m : M} :
    (∃ stored, serializeToolResult L (.toolMessage m) = .ok stored ∧
      deserializeToolResult L stored = .ok (.toolMessage m)) ↔
        L.isToolMessage m = true ∧ PlainFields (L.messageToDict m) := by
  rw [← message_comes_back_iff hL]
  constructor
  · rintro ⟨stored, hstored, hback⟩
    obtain ⟨fs, hfs, rfl⟩ := serialize_toolMessage.mp hstored
    obtain ⟨m', hm, htool, heq⟩ := deserialize_messageObject.mp hback
    cases heq
    exact ⟨htool, fs, hfs, hm⟩
  · rintro ⟨htool, fs, hfs, hm⟩
    exact ⟨messageObject (.obj fs), serialize_toolMessage.mpr ⟨fs, hfs, rfl⟩,
      deserialize_messageObject.mpr ⟨m, hm, htool, rfl⟩⟩

/-- The value is no sequence of targets. -/
def Single : PyValue M → Prop
  | .list _ => False
  | .tuple _ => False
  | _ => True

theorem Single.targets {v : PyValue M} (h : Single v) : targets v = [v] := by
  cases v with
  | list items => exact absurd h id
  | tuple items => exact absurd h id
  | _ => rfl

theorem single_of_obj {fs : List (Text × JsonValue)} {v : PyValue M}
    (h : decodeJsonValue L (.obj fs) = .ok v) : Single v := by
  rw [decodeJsonValue] at h
  split at h
  · split at h
    · split at h
      · cases h
        exact trivial
      · cases h
    · cases h
  · obtain ⟨vs, _, rfl⟩ := map_eq_ok.mp h
    exact trivial

/-- What is no sequence is read back as none. -/
theorem Single.of_back {v v' : PyValue M} {j : JsonValue} (hv : Single v) (h : Through L v j)
    (hback : decodeJsonValue L j = .ok v') : Single v' := by
  obtain ⟨d, hd, hj⟩ := h
  cases v with
  | list items => exact absurd hv id
  | tuple items => exact absurd hv id
  | dict items =>
      obtain ⟨_, fs, _, rfl⟩ := through_dict.mp ⟨d, hd, hj⟩
      exact single_of_obj hback
  | message m =>
      obtain ⟨fs, _, rfl⟩ := through_message.mp ⟨d, hd, hj⟩
      exact single_of_obj hback
  | object kind shown => cases hd
  | int n =>
      cases hd
      rw [toJson] at hj
      split at hj
      · cases hj
        cases hback
        exact trivial
      · cases hj
  | _ =>
      cases hd
      cases hj
      cases hback
      exact trivial

theorem targets_iff_of_single (hL : L.RoundTrips) {goto : PyValue M} (hsingle : Single goto) :
    (∃ j goto', Through L goto j ∧ decodeJsonValue L j = .ok goto' ∧
      targets goto = targets goto') ↔ CleanItems L (targets goto) := by
  rw [hsingle.targets]
  constructor
  · rintro ⟨j, goto', hj, hback, hsame⟩
    rw [(hsingle.of_back hj hback).targets] at hsame
    rw [← (List.cons.inj hsame).1] at hback
    exact ⟨clean_of_back hL hj hback, trivial⟩
  · rintro ⟨hclean, _⟩
    obtain ⟨j, hj, hback⟩ := hclean.comes_back hL
    exact ⟨j, goto, hj, hback, hsingle.targets.symm⟩

theorem targets_iff_of_items (hL : L.RoundTrips) {items : List (PyValue M)} {goto : PyValue M}
    (htargets : targets goto = items)
    (hgoto : ∀ j, Through L goto j ↔ ∃ js, ThroughItems L items js ∧ j = .arr js) :
    (∃ j goto', Through L goto j ∧ decodeJsonValue L j = .ok goto' ∧
      targets goto = targets goto') ↔ CleanItems L (targets goto) := by
  rw [htargets]
  constructor
  · rintro ⟨j, goto', hj, hback, hsame⟩
    obtain ⟨js, hjs, rfl⟩ := (hgoto j).mp hj
    rw [decodeJsonValue] at hback
    obtain ⟨vs, hvs, rfl⟩ := map_eq_ok.mp hback
    rw [← (show items = vs from hsame)] at hvs
    exact cleanItems_of_back hL hjs hvs
  · intro h
    obtain ⟨js, hjs, hback⟩ := h.come_back hL
    refine ⟨.arr js, .list items, (hgoto _).mpr ⟨js, hjs, rfl⟩, ?_, rfl⟩
    rw [decodeJsonValue, hback]
    rfl

/-- The targets of a command come back, as a list. -/
theorem targets_iff (hL : L.RoundTrips) {goto : PyValue M} :
    (∃ j goto', Through L goto j ∧ decodeJsonValue L j = .ok goto' ∧
      targets goto = targets goto') ↔ CleanItems L (targets goto) := by
  cases goto with
  | list items => exact targets_iff_of_items hL rfl fun j ↦ through_list
  | tuple items => exact targets_iff_of_items hL rfl fun j ↦ through_tuple
  | _ => exact targets_iff_of_single hL trivial

/-- What of a command has to come back. -/
theorem replayed_command {c : Command M} {P : Command M → Prop} :
    (∃ stored c', serializeToolResult L (.command c) = .ok stored ∧
      deserializeToolResult L stored = .ok (.command c') ∧ P c') ↔
        ∃ g u r t update resume goto, toJson true c.graph = some g ∧ Through L c.update u ∧
          Through L c.resume r ∧ Through L c.goto t ∧ decodeJsonValue L u = .ok update ∧
            decodeJsonValue L r = .ok resume ∧ decodeJsonValue L t = .ok goto ∧
              P ⟨ofJson g, update, resume, goto⟩ := by
  constructor
  · rintro ⟨stored, c', hstored, hback, hP⟩
    obtain ⟨g, u, r, t, hg, hu, hr, ht, rfl⟩ := serialize_command.mp hstored
    obtain ⟨update, resume, goto, hupdate, hresume, hgoto, heq⟩ :=
      deserialize_commandObject.mp hback
    cases heq
    exact ⟨g, u, r, t, update, resume, goto, hg, hu, hr, ht, hupdate, hresume, hgoto, hP⟩
  · rintro ⟨g, u, r, t, update, resume, goto, hg, hu, hr, ht, hupdate, hresume, hgoto, hP⟩
    exact ⟨commandObject g u r t, _, serialize_command.mpr ⟨g, u, r, t, hg, hu, hr, ht, rfl⟩,
      deserialize_commandObject.mpr ⟨update, resume, goto, hupdate, hresume, hgoto, rfl⟩, hP⟩

theorem replayed_same_command (hL : L.RoundTrips) {c : Command M} :
    (∃ stored, serializeToolResult L (.command c) = .ok stored ∧
      deserializeToolResult L stored = .ok (.command c)) ↔ CleanResult L (.command c) := by
  have hsame : (∃ stored, serializeToolResult L (.command c) = .ok stored ∧
      deserializeToolResult L stored = .ok (.command c)) ↔
        ∃ stored c', serializeToolResult L (.command c) = .ok stored ∧
          deserializeToolResult L stored = .ok (.command c') ∧ c' = c := by
    constructor
    · rintro ⟨stored, hstored, hback⟩
      exact ⟨stored, c, hstored, hback, rfl⟩
    · rintro ⟨stored, c', hstored, hback, rfl⟩
      exact ⟨stored, hstored, hback⟩
  rw [hsame, replayed_command]
  constructor
  · rintro ⟨g, u, r, t, update, resume, goto, hg, hu, hr, ht, hupdate, hresume, hgoto, rfl⟩
    exact ⟨plain_of_reads_back hg rfl, clean_of_back hL hu hupdate, clean_of_back hL hr hresume,
      clean_of_back hL ht hgoto⟩
  · rintro ⟨hgraph, hupdate, hresume, hgoto⟩
    obtain ⟨g, hg, hgback⟩ := hgraph.reads_back
    obtain ⟨u, hu, huback⟩ := hupdate.comes_back hL
    obtain ⟨r, hr, hrback⟩ := hresume.comes_back hL
    obtain ⟨t, ht, htback⟩ := hgoto.comes_back hL
    refine ⟨g, u, r, t, _, _, _, hg, hu, hr, ht, huback, hrback, htback, ?_⟩
    rw [hgback]

theorem replayed_effect_command (hL : L.RoundTrips) {c : Command M} :
    (∃ stored r, serializeToolResult L (.command c) = .ok stored ∧
      deserializeToolResult L stored = .ok r ∧ SameEffect (.command c) r) ↔
        CleanEffect L (.command c) := by
  have hcommand : (∃ stored r, serializeToolResult L (.command c) = .ok stored ∧
      deserializeToolResult L stored = .ok r ∧ SameEffect (.command c) r) ↔
        ∃ stored c', serializeToolResult L (.command c) = .ok stored ∧
          deserializeToolResult L stored = .ok (.command c') ∧
            SameEffect (.command c) (.command c') := by
    constructor
    · rintro ⟨stored, r, hstored, hback, hsame⟩
      cases hsame with
      | @command _ c' hgraph hupdate hresume hgoto =>
          exact ⟨stored, c', hstored, hback, .command hgraph hupdate hresume hgoto⟩
    · rintro ⟨stored, c', hstored, hback, hsame⟩
      exact ⟨stored, _, hstored, hback, hsame⟩
  rw [hcommand, replayed_command]
  constructor
  · rintro ⟨g, u, r, t, update, resume, goto, hg, hu, hr, ht, hupdate, hresume, hgoto, hsame⟩
    cases hsame with
    | command hgraph hu' hr' htargets =>
        dsimp only at hgraph hu' hr' htargets
        subst hu' hr'
        exact ⟨plain_of_reads_back hg hgraph.symm, clean_of_back hL hu hupdate,
          clean_of_back hL hr hresume, (targets_iff hL).mp ⟨t, goto, ht, hgoto, htargets⟩⟩
  · rintro ⟨hgraph, hupdate, hresume, hgoto⟩
    obtain ⟨g, hg, hgback⟩ := hgraph.reads_back
    obtain ⟨u, hu, huback⟩ := hupdate.comes_back hL
    obtain ⟨r, hr, hrback⟩ := hresume.comes_back hL
    obtain ⟨t, goto, ht, htback, htargets⟩ := (targets_iff hL).mpr hgoto
    exact ⟨g, u, r, t, _, _, goto, hg, hu, hr, ht, huback, hrback, htback,
      .command hgback.symm rfl rfl htargets⟩

/-- A stored result is replayed as it was exactly when all its parts come back, and it
does the same to the graph exactly when they do but for how the targets are given. -/
theorem replayed_iff (hL : L.RoundTrips) (r : ToolResult M) :
    ((∃ stored, serializeToolResult L r = .ok stored ∧ deserializeToolResult L stored = .ok r) ↔
      CleanResult L r) ∧
    ((∃ stored r', serializeToolResult L r = .ok stored ∧
      deserializeToolResult L stored = .ok r' ∧ SameEffect r r') ↔ CleanEffect L r) := by
  cases r with
  | toolMessage m =>
      refine ⟨replayed_toolMessage hL, ?_⟩
      have hsame : (∃ stored r', serializeToolResult L (.toolMessage m) = .ok stored ∧
          deserializeToolResult L stored = .ok r' ∧ SameEffect (.toolMessage m) r') ↔
            ∃ stored, serializeToolResult L (.toolMessage m) = .ok stored ∧
              deserializeToolResult L stored = .ok (.toolMessage m) := by
        constructor
        · rintro ⟨stored, r', hstored, hback, hsame⟩
          cases hsame
          exact ⟨stored, hstored, hback⟩
        · rintro ⟨stored, hstored, hback⟩
          exact ⟨stored, _, hstored, hback, .toolMessage m⟩
      rw [hsame]
      exact replayed_toolMessage hL
  | command c => exact ⟨replayed_same_command hL, replayed_effect_command hL⟩

/-- A command that notes a dict beside its message, with no targets. -/
def noteCommand (note : List (Key × PyValue ToolMessage)) : Command ToolMessage where
  graph := .none
  update := .dict [(key "note", .dict note), (key "messages",
    .list [.message ⟨.text (Text.ofString "done"), [], [], none, none, Text.ofString "call", .none,
      .success⟩])]
  resume := .none
  goto := .tuple []

theorem replayed_iff_note :
    toolMessages.RoundTrips ∧ ∃ stored r', serializeToolResult toolMessages
        (.command (noteCommand [(key "kind", str "plain")])) = .ok stored ∧
      deserializeToolResult toolMessages stored = .ok r' ∧
        SameEffect (.command (noteCommand [(key "kind", str "plain")])) r' := by
  refine ⟨toolMessages_roundTrips, ?_⟩
  apply (replayed_iff toolMessages_roundTrips _).2.mpr
  refine ⟨trivial, ⟨by decide +kernel, rfl, ⟨by decide +kernel, rfl, trivial, trivial⟩, rfl, ⟨?_, trivial⟩,
    trivial⟩, trivial, trivial⟩
  exact ⟨rfl, trivial, rfl, ⟨rfl, trivial, rfl, trivial, rfl, trivial, rfl, trivial, rfl, trivial,
    rfl, trivial, rfl, trivial, rfl, trivial, rfl, trivial, trivial⟩, trivial⟩

/-- A dict of the update that looks like a tagged message is not read back. -/
theorem not_replayed : ¬ ∀ (M : Type) (L : Langchain M), L.RoundTrips → ∀ r : ToolResult M,
    ∃ stored r', serializeToolResult L r = .ok stored ∧ deserializeToolResult L stored = .ok r' ∧
      SameEffect r r' := by
  intro h
  obtain ⟨stored, r', hstored, hback, hsame⟩ := h ToolMessage toolMessages toolMessages_roundTrips
    (.command (noteCommand [(key "__runtime_type__", str "message")]))
  have hclean := (replayed_effect_command toolMessages_roundTrips).mp
    ⟨stored, r', hstored, hback, hsame⟩
  obtain ⟨_, ⟨_, _, ⟨htagged, _⟩, _⟩, _⟩ := hclean
  have htag : looksTagged [(key "__runtime_type__", (str "message" : PyValue ToolMessage))] =
      true := by
    decide +kernel
  rw [htag] at htagged
  cases htagged

end ShejaneRuntime.ToolResults
