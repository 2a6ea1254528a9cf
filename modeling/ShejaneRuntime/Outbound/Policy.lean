import ShejaneRuntime.Lib.Redaction
import ShejaneRuntime.Store.Codec
import ShejaneRuntime.ToolResults.Messages

/-!
# The outbound policy

The copy of a model request that is handed to the provider. Secrets are
replaced in the texts of its messages, and then the rules for personal data are
applied where the provider is external.
-/

namespace ShejaneRuntime.Outbound

open Lib ToolResults

inductive MessageKind where
  | human | ai | tool | system | other
  deriving DecidableEq

structure ToolCall where
  name : Text
  args : PyData

structure Message where
  kind : MessageKind
  content : Content
  toolCalls : List ToolCall := []

/-- A resolved rule for a kind of personal data: its detector, and the strategy that puts
the marker in the place of what was detected. -/
structure Rule where
  marker : Text
  detector : Text → List (ℕ × ℕ)
  applyStrategy : Text → List (ℕ × ℕ) → Text

/-- The part of the runtime context that the policy reads. -/
structure Context where
  outboundSecrets : List Text
  outboundIsExternal : Bool
  outboundPiiTypes : List String

/-- A model request. Its `state` holds the messages of the graph. -/
structure Request where
  context : Option Context
  messages : List Message
  systemMessage : Option Message
  state : List Message

def validPiiTypes : List String := ["email", "credit_card", "ip", "mac_address", "url"]

/-- `_resolved_rules` -/
def resolvedRules (resolve : String → Rule) (piiTypes : List String) : List Rule :=
  ((piiTypes.map fun piiType ↦ (Store.pyStrip piiType).toLower).filter
    fun normalized ↦ normalized ∈ validPiiTypes).map resolve

def credentialMarker : Text := Text.ofString "[REDACTED_CREDENTIAL]"

def Rule.run (rule : Rule) (sanitized : Text) : Text :=
  let matched := rule.detector sanitized
  if matched = [] then sanitized else rule.applyStrategy sanitized matched

/-- `_sanitize_text` -/
def sanitizeText (secrets : List Text) (rules : List Rule) (text : Text) : Text :=
  rules.foldl (fun sanitized rule ↦ rule.run sanitized) (strike secrets credentialMarker text)

/-- An item of a content that is a list. -/
def sanitizeItem (sanitize : Text → Text) : PyData → PyData
  | .str s => .str (sanitize s)
  | .dict items =>
    match get items "text" with
    | some (.str s) => .dict (setItem items (key "text") (.str (sanitize s)))
    | _ => .dict items
  | item => item

/-- `_sanitize_message` -/
def sanitizeMessage (secrets : List Text) (rules : List Rule) (message : Message) : Message :=
  let sanitize := sanitizeText secrets rules
  match message.content with
  | .text s => { message with content := .text (sanitize s) }
  | .blocks items => { message with content := .blocks (items.map (sanitizeItem sanitize)) }

def Context.secrets (context : Context) : List Text :=
  context.outboundSecrets.filter fun secret ↦ secret ≠ []

def Context.rules (resolve : String → Rule) (context : Context) : List Rule :=
  if context.outboundIsExternal then resolvedRules resolve context.outboundPiiTypes else []

/-- The rules are applied to what people and tools have written. -/
def rulesFor (rules : List Rule) (message : Message) : List Rule :=
  if message.kind = .human ∨ message.kind = .tool then rules else []

def Request.secrets (request : Request) : List Text :=
  (request.context.map Context.secrets).getD []

def Request.rules (resolve : String → Rule) (request : Request) : List Rule :=
  (request.context.map (Context.rules resolve)).getD []

/-- `OutboundPolicyMiddleware._apply` -/
def Request.apply (resolve : String → Rule) (request : Request) : Request :=
  match request.context with
  | none => request
  | some context =>
    let secrets := context.secrets
    let rules := context.rules resolve
    if secrets = [] ∧ rules.isEmpty then request
    else
      { request with
        messages := request.messages.map fun message ↦
          sanitizeMessage secrets (rulesFor rules message) message
        systemMessage := request.systemMessage.map fun message ↦
          if message.kind = .system then sanitizeMessage secrets rules message else message }

/-! ## The texts of a request -/

def keyTexts : Key → List Text
  | .str s => [s]
  | .number shown => [shown]
  | _ => []

mutual

/-- All texts in a value, at any depth. -/
def texts : PyData → List Text
  | .str s => [s]
  | .list items => itemTexts items
  | .tuple items => itemTexts items
  | .dict items => fieldTexts items
  | .object _ shown => [shown]
  | _ => []

def itemTexts : List PyData → List Text
  | [] => []
  | v :: items => texts v ++ itemTexts items

def fieldTexts : List (Key × PyData) → List Text
  | [] => []
  | (k, v) :: items => (keyTexts k ++ texts v) ++ fieldTexts items

end

def contentTexts : Content → List Text
  | .text s => [s]
  | .blocks items => itemTexts items

/-- The texts a message carries: its content, and the arguments of its tool calls. -/
def messageTexts (message : Message) : List Text :=
  contentTexts message.content ++ message.toolCalls.flatMap fun call ↦ texts call.args

def Request.texts (request : Request) : List Text :=
  (request.messages ++ request.systemMessage.toList).flatMap messageTexts

end ShejaneRuntime.Outbound
