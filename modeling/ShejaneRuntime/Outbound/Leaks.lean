import ShejaneRuntime.Outbound.Policy

/-!
# What leaves in a request

A request is free of secrets when none stands where the policy does not look,
and none keeps company with a marker: a text that has no secret is left alone,
and secrets that cannot overlap a marker are gone from any text.
-/

namespace ShejaneRuntime.Outbound

open Lib ToolResults

variable {t : Text} {f : Text → Text}

/-! ## Texts that are looked at and texts that are not -/

def visibleOfItem : PyData → List Text
  | .str s => [s]
  | .dict items =>
    match get items "text" with
    | some (.str s) => [s]
    | _ => []
  | _ => []

/-- The texts of an item that are handed on as they are. -/
def hiddenOfItem : PyData → List Text
  | .str _ => []
  | .dict items =>
    match get items "text" with
    | some (.str _) =>
      Text.ofString "text" :: fieldTexts (items.filter fun item ↦ item.1 ≠ key "text")
    | _ => fieldTexts items
  | item => texts item

def visibleTexts (message : Message) : List Text :=
  match message.content with
  | .text s => [s]
  | .blocks items => items.flatMap visibleOfItem

def hiddenTexts (message : Message) : List Text :=
  (match message.content with
    | .text _ => []
    | .blocks items => items.flatMap hiddenOfItem) ++
  message.toolCalls.flatMap fun call ↦ texts call.args

theorem mem_itemTexts {items : List PyData} : t ∈ itemTexts items ↔ ∃ v ∈ items, t ∈ texts v := by
  induction items with
  | nil => simp [itemTexts]
  | cons v items ih => simp [itemTexts, ih]

theorem mem_fieldTexts {items : List (Key × PyData)} :
    t ∈ fieldTexts items ↔ ∃ item ∈ items, t ∈ keyTexts item.1 ++ texts item.2 := by
  induction items with
  | nil => simp [fieldTexts]
  | cons item items ih => simp [fieldTexts, ih, or_assoc]

theorem exists_mem_of_get {items : List (Key × PyData)} {name : String} {v : PyData}
    (h : get items name = some v) : ∃ item ∈ items, item.1 = key name := by
  obtain ⟨item, hitem, _⟩ := Option.map_eq_some_iff.mp h
  exact ⟨item, List.mem_of_find?_eq_some hitem, by simpa using List.find?_some hitem⟩

theorem mem_texts_setText {items : List (Key × PyData)} {s : Text}
    (hkey : ∃ item ∈ items, item.1 = key "text") :
    t ∈ fieldTexts (setItem items (key "text") (.str s)) ↔
      t ∈ Text.ofString "text" :: fieldTexts (items.filter fun item ↦ item.1 ≠ key "text") ∨
        t = s := by
  obtain ⟨found, hfound, hname⟩ := hkey
  have hmem : key "text" ∈ items.map Prod.fst := by
    rw [← hname]
    exact List.mem_map_of_mem hfound
  have htext : ∀ u, t ∈ keyTexts (key "text") ++ texts (.str u) ↔
      t = Text.ofString "text" ∨ t = u := by
    intro u
    simp [keyTexts, key, texts]
  rw [setItem, if_pos hmem, mem_fieldTexts, List.mem_cons, mem_fieldTexts]
  constructor
  · rintro ⟨item, hitem, ht⟩
    obtain ⟨old, hold, rfl⟩ := List.mem_map.mp hitem
    by_cases hold' : old.1 = key "text"
    · rw [if_pos hold'] at ht
      rcases (htext s).mp ht with heq | heq
      · exact .inl (.inl heq)
      · exact .inr heq
    · rw [if_neg hold'] at ht
      exact .inl (.inr ⟨old, List.mem_filter.mpr ⟨hold, by simpa using hold'⟩, ht⟩)
  · have hset : (key "text", PyValue.str s) ∈
        items.map fun item ↦ if item.1 = key "text" then (key "text", .str s) else item :=
      List.mem_map.mpr ⟨found, hfound, if_pos hname⟩
    rintro ((heq | ⟨item, hitem, ht⟩) | heq)
    · exact ⟨_, hset, (htext s).mpr (.inl heq)⟩
    · obtain ⟨hold, hne⟩ := List.mem_filter.mp hitem
      refine ⟨item, List.mem_map.mpr ⟨item, hold, if_neg (by simpa using hne)⟩, ht⟩
    · exact ⟨_, hset, (htext s).mpr (.inr heq)⟩

theorem mem_texts_sanitizeItem {v : PyData} : t ∈ texts (sanitizeItem f v) ↔
    t ∈ hiddenOfItem v ∨ ∃ s ∈ visibleOfItem v, t = f s := by
  cases v with
  | str s => simp [sanitizeItem, hiddenOfItem, visibleOfItem, texts]
  | dict items =>
      rw [sanitizeItem, hiddenOfItem, visibleOfItem]
      cases hget : get items "text" with
      | none => simp [texts]
      | some value =>
          cases value with
          | str s =>
              dsimp only
              rw [texts, mem_texts_setText (exists_mem_of_get hget)]
              simp
          | _ => simp [texts]
  | _ => simp [sanitizeItem, hiddenOfItem, visibleOfItem]

theorem mem_texts_sanitizeMessage {secrets : List Text} {rules : List Rule} {message : Message} :
    t ∈ messageTexts (sanitizeMessage secrets rules message) ↔
      t ∈ hiddenTexts message ∨
        ∃ s ∈ visibleTexts message, t = sanitizeText secrets rules s := by
  unfold messageTexts sanitizeMessage hiddenTexts visibleTexts
  cases message.content with
  | text s =>
      simp only [contentTexts, List.mem_append, List.mem_singleton, List.nil_append,
        exists_eq_left]
      exact Or.comm
  | blocks items =>
      simp only [contentTexts, List.mem_append, mem_itemTexts, List.mem_map, List.mem_flatMap]
      constructor
      · rintro (⟨_, ⟨v, hv, rfl⟩, ht⟩ | hcall)
        · rcases mem_texts_sanitizeItem.mp ht with hhidden | ⟨s, hs, hts⟩
          · exact .inl (.inl ⟨v, hv, hhidden⟩)
          · exact .inr ⟨s, ⟨v, hv, hs⟩, hts⟩
        · exact .inl (.inr hcall)
      · rintro ((⟨v, hv, hhidden⟩ | hcall) | ⟨s, ⟨v, hv, hs⟩, hts⟩)
        · exact .inl ⟨_, ⟨v, hv, rfl⟩, mem_texts_sanitizeItem.mpr (.inl hhidden)⟩
        · exact .inr hcall
        · exact .inl ⟨_, ⟨v, hv, rfl⟩, mem_texts_sanitizeItem.mpr (.inr ⟨s, hs, hts⟩)⟩

/-! ## One text -/

/-- The strategy of the rule puts its marker between parts of the text. -/
def Rule.Redacts (rule : Rule) : Prop :=
  ∀ text, rule.detector text ≠ [] → ∃ pieces : List Text,
    rule.applyStrategy text (rule.detector text) = rule.marker.intercalate pieces ∧
      ∀ piece ∈ pieces, piece <:+: text

variable {secrets : List Text} {rules : List Rule} {secret : Text}

theorem Rule.infix_of_infix_run {rule : Rule} (hrule : rule.Redacts) (hsecret : secret ≠ [])
    (hclear : ¬Meets secret rule.marker) (h : secret <:+: rule.run t) : secret <:+: t := by
  unfold Rule.run at h
  dsimp only at h
  by_cases hmatched : rule.detector t = []
  · rwa [if_pos hmatched] at h
  · rw [if_neg hmatched] at h
    obtain ⟨pieces, heq, hpieces⟩ := hrule t hmatched
    rw [heq] at h
    obtain ⟨piece, hpiece, hin⟩ := infix_of_infix_intercalate hsecret hclear h
    exact hin.trans (hpieces piece hpiece)

/-- The rules put no marker near a secret that could overlap it: each finds nothing in the text
it comes to, or its marker can overlap no secret. -/
def RulesApart (secrets : List Text) : List Rule → Text → Prop
  | [], _ => True
  | rule :: rules, sanitized =>
    (rule.detector sanitized = [] ∨ ∀ secret ∈ secrets, ¬Meets secret rule.marker) ∧
      RulesApart secrets rules (rule.run sanitized)

theorem infix_of_infix_rules (hrules : ∀ rule ∈ rules, rule.Redacts) (hsecret : secret ∈ secrets)
    (hne : secret ≠ []) (hapart : RulesApart secrets rules t)
    (h : secret <:+: rules.foldl (fun sanitized rule ↦ rule.run sanitized) t) : secret <:+: t := by
  induction rules generalizing t with
  | nil => exact h
  | cons rule rules ih =>
      obtain ⟨hrule, hrest⟩ := hapart
      have hrun : secret <:+: rule.run t :=
        ih (fun r hr ↦ hrules r (List.mem_cons_of_mem rule hr)) hrest h
      rcases hrule with hnone | hclear
      · unfold Rule.run at hrun
        dsimp only at hrun
        rwa [if_pos hnone] at hrun
      · exact Rule.infix_of_infix_run (hrules rule List.mem_cons_self) hne
          (hclear secret hsecret) hrun

/-- No marker is put near a secret that could overlap it: the text has no secret, or none can
overlap the marker of credentials; and the rules keep apart in what is left of the text. -/
def Apart (secrets : List Text) (rules : List Rule) (text : Text) : Prop :=
  ((∀ secret ∈ secrets, ¬ secret <:+: text) ∨ ∀ secret ∈ secrets, ¬Meets secret credentialMarker) ∧
    RulesApart secrets rules (strike secrets credentialMarker text)

theorem Apart.clean (hsecrets : ∀ s ∈ secrets, s ≠ []) (hrules : ∀ rule ∈ rules, rule.Redacts)
    (h : Apart secrets rules t) (hsecret : secret ∈ secrets) :
    ¬ secret <:+: sanitizeText secrets rules t := by
  intro hin
  have hstruck : secret <:+: strike secrets credentialMarker t :=
    infix_of_infix_rules hrules hsecret (hsecrets secret hsecret) h.2 hin
  rcases h.1 with hnone | hclear
  · rw [strike_of_absent hsecrets hnone] at hstruck
    exact hnone secret hsecret hstruck
  · exact not_infix_strike hsecrets hclear hsecret hstruck

/-- The rules find nothing in a text. -/
def Quiet (rules : List Rule) (sanitized : Text) : Prop :=
  ∀ rule ∈ rules, rule.detector sanitized = []

theorem Quiet.foldl (h : Quiet rules t) :
    rules.foldl (fun sanitized rule ↦ rule.run sanitized) t = t := by
  induction rules with
  | nil => rfl
  | cons rule rules ih =>
      have hrun : rule.run t = t := if_pos (h rule List.mem_cons_self)
      rw [List.foldl_cons, hrun]
      exact ih fun r hr ↦ h r (List.mem_cons_of_mem rule hr)

theorem Quiet.rulesApart (h : Quiet rules t) : RulesApart secrets rules t := by
  induction rules with
  | nil => trivial
  | cons rule rules ih =>
      have hnone := h rule List.mem_cons_self
      have hrun : rule.run t = t := if_pos hnone
      refine ⟨.inl hnone, ?_⟩
      rw [hrun]
      exact ih fun r hr ↦ h r (List.mem_cons_of_mem rule hr)

/-- Where a secret is part of the marker and the rules find nothing, a text is clean only if it
had no secret. -/
theorem apart_of_clean (hsecrets : ∀ s ∈ secrets, s ≠ [])
    (hinside : ∀ s ∈ secrets, Meets s credentialMarker → s <:+: credentialMarker)
    (hquiet : Quiet rules (strike secrets credentialMarker t))
    (h : ∀ s ∈ secrets, ¬ s <:+: sanitizeText secrets rules t) : Apart secrets rules t := by
  refine ⟨?_, hquiet.rulesApart⟩
  by_cases hclear : ∀ s ∈ secrets, ¬Meets s credentialMarker
  · exact .inr hclear
  · left
    intro s hs hin
    apply hclear
    intro s' hs' hmeets
    apply h s' hs'
    unfold sanitizeText
    rw [hquiet.foldl]
    exact (hinside s' hs' hmeets).trans (marker_infix_strike hsecrets ⟨s, hs, hin⟩)

/-! ## The whole request -/

/-- No text of the request has a secret in it. -/
def Clean (secrets : List Text) (request : Request) : Prop :=
  ∀ t ∈ request.texts, ∀ secret ∈ secrets, ¬ secret <:+: t

/-- The system message is looked at when it is one. -/
def hiddenOfSystem (message : Message) : List Text :=
  if message.kind = .system then hiddenTexts message else messageTexts message

def visibleOfSystem (message : Message) : List Text :=
  if message.kind = .system then visibleTexts message else []

/-- The texts of a request that are handed on as they are. -/
def Request.hidden (request : Request) : List Text :=
  request.messages.flatMap hiddenTexts ++ request.systemMessage.toList.flatMap hiddenOfSystem

/-- The request has no secret where the policy does not look, and no secret in it can
overlap a marker where it does. -/
structure Safe (resolve : String → Rule) (request : Request) : Prop where
  hidden : ∀ t ∈ request.hidden, ∀ secret ∈ request.secrets, ¬ secret <:+: t
  messages : ∀ message ∈ request.messages, ∀ t ∈ visibleTexts message,
    Apart request.secrets (rulesFor (request.rules resolve) message) t
  system : ∀ message ∈ request.systemMessage.toList, ∀ t ∈ visibleOfSystem message,
    Apart request.secrets (request.rules resolve) t

theorem secrets_ne_nil {request : Request} : ∀ secret ∈ request.secrets, secret ≠ [] := by
  intro secret hsecret
  unfold Request.secrets at hsecret
  cases hcontext : request.context with
  | none =>
      rw [hcontext] at hsecret
      cases hsecret
  | some context =>
      rw [hcontext] at hsecret
      have hmem : secret ∈ context.outboundSecrets.filter fun s ↦ s ≠ [] := hsecret
      simpa using (List.mem_filter.mp hmem).2

theorem mem_texts_apply {resolve : String → Rule} {request : Request}
    (hsecrets : request.secrets ≠ []) : t ∈ (request.apply resolve).texts ↔ t ∈ request.hidden ∨
      (∃ message ∈ request.messages, ∃ s ∈ visibleTexts message,
        t = sanitizeText request.secrets (rulesFor (request.rules resolve) message) s) ∨
      ∃ message ∈ request.systemMessage.toList, ∃ s ∈ visibleOfSystem message,
        t = sanitizeText request.secrets (request.rules resolve) s := by
  obtain ⟨context, messages, systemMessage, state⟩ := request
  cases context with
  | none => exact absurd rfl hsecrets
  | some context =>
      have hsystem : ∀ message : Message, t ∈ messageTexts (if message.kind = .system then
          sanitizeMessage context.secrets (context.rules resolve) message else message) ↔
            t ∈ hiddenOfSystem message ∨ ∃ s ∈ visibleOfSystem message,
              t = sanitizeText context.secrets (context.rules resolve) s := by
        intro message
        unfold hiddenOfSystem visibleOfSystem
        by_cases hkind : message.kind = .system
        · simp only [if_pos hkind, mem_texts_sanitizeMessage]
        · simp [if_neg hkind]
      have happly : (Request.apply resolve ⟨some context, messages, systemMessage, state⟩) =
          { context := some context
            messages := messages.map fun message ↦ sanitizeMessage context.secrets
              (rulesFor (context.rules resolve) message) message
            systemMessage := systemMessage.map fun message ↦ if message.kind = .system then
              sanitizeMessage context.secrets (context.rules resolve) message else message
            state := state } := by
        unfold Request.apply
        exact if_neg fun h ↦ hsecrets h.1
      rw [happly]
      unfold Request.texts Request.hidden Request.secrets Request.rules
      simp only [List.flatMap_append, List.mem_append, List.mem_flatMap, List.mem_map,
        Option.map_some, Option.getD_some, Option.toList_map]
      constructor
      · rintro (⟨_, ⟨message, hmessage, rfl⟩, ht⟩ | ⟨_, ⟨message, hmessage, rfl⟩, ht⟩)
        · rcases mem_texts_sanitizeMessage.mp ht with hhidden | hvisible
          · exact .inl (.inl ⟨message, hmessage, hhidden⟩)
          · exact .inr (.inl ⟨message, hmessage, hvisible⟩)
        · rcases (hsystem message).mp ht with hhidden | hvisible
          · exact .inl (.inr ⟨message, hmessage, hhidden⟩)
          · exact .inr (.inr ⟨message, hmessage, hvisible⟩)
      · rintro ((⟨message, hmessage, hhidden⟩ | ⟨message, hmessage, hhidden⟩) |
          ⟨message, hmessage, hvisible⟩ | ⟨message, hmessage, hvisible⟩)
        · exact .inl ⟨_, ⟨message, hmessage, rfl⟩, mem_texts_sanitizeMessage.mpr (.inl hhidden)⟩
        · exact .inr ⟨_, ⟨message, hmessage, rfl⟩, (hsystem message).mpr (.inl hhidden)⟩
        · exact .inl ⟨_, ⟨message, hmessage, rfl⟩, mem_texts_sanitizeMessage.mpr (.inr hvisible)⟩
        · exact .inr ⟨_, ⟨message, hmessage, rfl⟩, (hsystem message).mpr (.inr hvisible)⟩

theorem hidden_of_clean {resolve : String → Rule} {request : Request}
    (h : Clean request.secrets (request.apply resolve)) :
    ∀ t ∈ request.hidden, ∀ secret ∈ request.secrets, ¬ secret <:+: t := by
  intro t ht secret hsecret
  exact h t ((mem_texts_apply (List.ne_nil_of_mem hsecret)).mpr (.inl ht)) secret hsecret

theorem redacts_of_mem_rules {resolve : String → Rule} (hresolve : ∀ name, (resolve name).Redacts)
    {request : Request} : ∀ rule ∈ request.rules resolve, rule.Redacts := by
  intro rule hrule
  unfold Request.rules at hrule
  cases hcontext : request.context with
  | none =>
      rw [hcontext] at hrule
      cases hrule
  | some context =>
      rw [hcontext] at hrule
      have hmem : rule ∈ context.rules resolve := hrule
      unfold Context.rules resolvedRules at hmem
      split at hmem
      · obtain ⟨name, _, rfl⟩ := List.mem_map.mp hmem
        exact hresolve name
      · cases hmem

theorem Safe.clean {resolve : String → Rule} (hresolve : ∀ name, (resolve name).Redacts)
    {request : Request} (h : Safe resolve request) :
    Clean request.secrets (request.apply resolve) := by
  intro t ht secret hsecret
  have hrules : ∀ rule ∈ request.rules resolve, rule.Redacts := redacts_of_mem_rules hresolve
  rcases (mem_texts_apply (List.ne_nil_of_mem hsecret)).mp ht with
    hhidden | ⟨message, hmessage, s, hs, rfl⟩ | ⟨message, hmessage, s, hs, rfl⟩
  · exact h.hidden t hhidden secret hsecret
  · have hrules' : ∀ rule ∈ rulesFor (request.rules resolve) message, rule.Redacts := by
      unfold rulesFor
      split
      · exact hrules
      · intro rule hrule
        cases hrule
    exact (h.messages message hmessage s hs).clean secrets_ne_nil hrules' hsecret
  · exact (h.system message hmessage s hs).clean secrets_ne_nil hrules hsecret

/-- No rule finds anything in what is left of a text. -/
structure Request.Quiet (resolve : String → Rule) (request : Request) : Prop where
  messages : ∀ message ∈ request.messages, ∀ t ∈ visibleTexts message,
    Outbound.Quiet (rulesFor (request.rules resolve) message)
      (strike request.secrets credentialMarker t)
  system : ∀ message ∈ request.systemMessage.toList, ∀ t ∈ visibleOfSystem message,
    Outbound.Quiet (request.rules resolve) (strike request.secrets credentialMarker t)

theorem safe_of_clean {resolve : String → Rule} {request : Request}
    (hinside : ∀ s ∈ request.secrets, Meets s credentialMarker → s <:+: credentialMarker)
    (hquiet : request.Quiet resolve) (h : Clean request.secrets (request.apply resolve)) :
    Safe resolve request := by
  refine ⟨hidden_of_clean h, ?_, ?_⟩
  · intro message hmessage s hs
    apply apart_of_clean secrets_ne_nil hinside (hquiet.messages message hmessage s hs)
    intro secret hsecret
    exact h _ ((mem_texts_apply (List.ne_nil_of_mem hsecret)).mpr
      (.inr (.inl ⟨message, hmessage, s, hs, rfl⟩))) secret hsecret
  · intro message hmessage s hs
    apply apart_of_clean secrets_ne_nil hinside (hquiet.system message hmessage s hs)
    intro secret hsecret
    exact h _ ((mem_texts_apply (List.ne_nil_of_mem hsecret)).mpr
      (.inr (.inr ⟨message, hmessage, s, hs, rfl⟩))) secret hsecret

theorem apply_state (resolve : String → Rule) (request : Request) :
    (request.apply resolve).state = request.state := by
  unfold Request.apply
  split
  · rfl
  · dsimp only
    split
    · rfl
    · rfl

/-- A safe request leaves without secrets, and the messages of the graph stay as they are.
Secrets where the policy does not look always leave; and unless a secret can overlap the marker
without being part of it, or a rule finds something, only safe requests leave without secrets. -/
theorem secrets_stay {resolve : String → Rule} (hresolve : ∀ name, (resolve name).Redacts)
    (request : Request) :
    (Safe resolve request → Clean request.secrets (request.apply resolve)) ∧
    (Clean request.secrets (request.apply resolve) →
      ∀ t ∈ request.hidden, ∀ secret ∈ request.secrets, ¬ secret <:+: t) ∧
    ((∀ s ∈ request.secrets, Meets s credentialMarker → s <:+: credentialMarker) →
      request.Quiet resolve →
        (Clean request.secrets (request.apply resolve) ↔ Safe resolve request)) ∧
    (request.apply resolve).state = request.state := by
  refine ⟨fun h ↦ h.clean hresolve, hidden_of_clean, ?_, apply_state resolve request⟩
  intro hinside hquiet
  exact ⟨safe_of_clean hinside hquiet, fun h ↦ h.clean hresolve⟩

/-- A rule for addresses: a text with an at sign is one as a whole. -/
def addressRule : Rule where
  marker := Text.ofString "[REDACTED_EMAIL]"
  detector text := if Text.ofString "@" <:+: text then [(0, text.length)] else []
  applyStrategy _ _ := Text.ofString "[REDACTED_EMAIL]"

/-- Somebody writes two texts, and the assistant's call of a tool has the given argument. -/
def keyRequest (secret command : String) (first second : String) : Request where
  context := some { outboundSecrets := [Text.ofString secret], outboundIsExternal := true,
                    outboundPiiTypes := [" Email "] }
  messages := [
    { kind := .human,
      content := .blocks [.str (Text.ofString first), .str (Text.ofString second)] },
    { kind := .ai, content := .text [],
      toolCalls := [⟨Text.ofString "execute", .str (Text.ofString command)⟩] }]
  systemMessage := none
  state := []

theorem redacts_addressRule : addressRule.Redacts := by
  intro text _
  refine ⟨[[], []], ?_, ?_⟩
  · exact (List.append_nil _).symm
  · intro piece hpiece
    rcases List.mem_cons.mp hpiece with rfl | hpiece
    · exact List.nil_infix
    · obtain rfl := List.mem_singleton.mp hpiece
      exact List.nil_infix

theorem rules_keyRequest (secret command first second : String) :
    (keyRequest secret command first second).rules (fun _ ↦ addressRule) = [addressRule] := by
  have hnames : ([" Email "].map fun piiType ↦ (Store.pyStrip piiType).toLower) = ["email"] := by
    decide +kernel
  unfold Request.rules Context.rules resolvedRules keyRequest
  simp only [Option.map_some, Option.getD_some, hnames]
  rfl

theorem mem_visible_keyRequest {secret command first second : String} {message : Message}
    (hmessage : message ∈ (keyRequest secret command first second).messages) {t : Text}
    (ht : t ∈ visibleTexts message) :
    t = Text.ofString first ∨ t = Text.ofString second ∨ t = [] := by
  simp only [keyRequest, List.mem_cons, List.not_mem_nil, or_false] at hmessage
  rcases hmessage with rfl | rfl
  · simp only [visibleTexts, visibleOfItem, List.flatMap_cons, List.flatMap_nil, List.mem_append,
      List.mem_singleton, List.not_mem_nil, or_false] at ht
    rcases ht with rfl | rfl
    · exact .inl rfl
    · exact .inr (.inl rfl)
  · exact .inr (.inr (List.mem_singleton.mp ht))

/-- A key that can overlap no marker may be replaced, and so may an address beside it. -/
theorem safe_keyRequest : Safe (fun _ ↦ addressRule)
    (keyRequest "sk-42" "ls" "the key is sk-42" "write to a@b") := by
  have hclear : ∀ marker, marker = credentialMarker ∨ marker = addressRule.marker →
      ∀ secret ∈ [Text.ofString "sk-42"], ¬Meets secret marker := by
    rintro marker (rfl | rfl) secret hsecret
    · rw [List.mem_singleton.mp hsecret]
      exact not_meets_of_disjoint (by decide) (by decide +kernel) (by decide +kernel)
    · rw [List.mem_singleton.mp hsecret]
      exact not_meets_of_disjoint (by decide) (by decide +kernel) (by decide +kernel)
  refine ⟨?_, ?_, ?_⟩
  · intro t ht secret hsecret
    rw [List.mem_singleton.mp ht, List.mem_singleton.mp hsecret]
    decide +kernel
  · intro message _ t _
    refine ⟨.inr (hclear _ (.inl rfl)), ?_⟩
    unfold rulesFor
    split
    · rw [rules_keyRequest]
      exact ⟨.inr (hclear _ (.inr rfl)), trivial⟩
    · trivial
  · intro message hmessage
    cases hmessage

/-- A secret that could overlap a marker is no harm where no marker is put in. -/
theorem safe_keyRequest_of_absent :
    Safe (fun _ ↦ addressRule) (keyRequest "]abc" "ls" "hello" "") := by
  refine ⟨?_, ?_, ?_⟩
  · intro t ht secret hsecret
    rw [List.mem_singleton.mp ht, List.mem_singleton.mp hsecret]
    decide +kernel
  · intro message hmessage t ht
    obtain ⟨hnone, hfinds⟩ : (∀ secret ∈ [Text.ofString "]abc"], ¬ secret <:+: t) ∧
        addressRule.detector t = [] := by
      rcases mem_visible_keyRequest hmessage ht with rfl | rfl | rfl
      · decide +kernel
      · decide +kernel
      · decide +kernel
    refine ⟨.inl hnone, ?_⟩
    unfold rulesFor
    split
    · rw [rules_keyRequest]
      refine ⟨.inl ?_, trivial⟩
      have hsame : strike [Text.ofString "]abc"] credentialMarker t = t :=
        strike_of_absent (by decide) hnone
      change addressRule.detector (strike [Text.ofString "]abc"] credentialMarker t) = []
      rw [hsame, hfinds]
    · trivial
  · intro message hmessage
    cases hmessage

/-- A key and an address are replaced; and where no secret stands nothing is put in. -/
theorem secrets_stay_login :
    Clean [Text.ofString "sk-42"] ((keyRequest "sk-42" "ls" "the key is sk-42"
      "write to a@b").apply fun _ ↦ addressRule) ∧
    Clean [Text.ofString "]abc"] ((keyRequest "]abc" "ls" "hello" "").apply
      fun _ ↦ addressRule) :=
  ⟨(secrets_stay (fun _ ↦ redacts_addressRule)
      (keyRequest "sk-42" "ls" "the key is sk-42" "write to a@b")).1 safe_keyRequest,
    (secrets_stay (fun _ ↦ redacts_addressRule)
      (keyRequest "]abc" "ls" "hello" "")).1 safe_keyRequest_of_absent⟩

/-- The arguments of a tool call leave as they are, with the key in them. -/
theorem not_clean : ¬ ∀ (resolve : String → Rule) (request : Request),
    (∀ name, (resolve name).Redacts) → Clean request.secrets (request.apply resolve) := by
  intro h
  have hclean := h (fun _ ↦ addressRule) (keyRequest "sk-42" "login sk-42" "" "")
    fun _ ↦ redacts_addressRule
  have hhidden : Text.ofString "login sk-42" ∈ (keyRequest "sk-42" "login sk-42" "" "").hidden :=
    List.mem_singleton_self _
  exact hidden_of_clean hclean _ hhidden (Text.ofString "sk-42") (List.mem_singleton_self _)
    (by decide +kernel)

end ShejaneRuntime.Outbound
