import Mathlib
import ShejaneRuntime.Lib.Search

/-!
# The context envelope

What a model is sent is cut until it fits the window of the model: first the
large messages, then all but the leading system messages and the latest turn,
and as a last resort all but the latest human message.
-/

namespace ShejaneRuntime.Context

open Lib

inductive Role where
  | system
  | human
  | ai
  | tool
  deriving DecidableEq, Repr

/-- A part of a content: a bare text, a text with further fields, or something else. -/
inductive Block (β : Type) where
  | str (text : String)
  | text (text : String) (rest : β)
  | other (block : β)
  deriving DecidableEq, Repr

inductive Content (β : Type) where
  | text (text : String)
  | blocks (blocks : List (Block β))
  deriving DecidableEq, Repr

/-- A message; `toolCalls` are the ids of the calls of an AI message, `toolCallId` is that of
the call which a tool message answers. -/
structure Message (β : Type) where
  role : Role
  name : Option String
  content : Content β
  toolCalls : List String
  toolCallId : Option String
  artifactId : Option String
  deriving DecidableEq, Repr

variable {β : Type}

/-! ## Cutting texts -/

def truncateText (content : String) (maxChars : ℕ) : String :=
  let marker := "\n\n[Runtime truncated " ++ toString (content.length - maxChars) ++
    " characters from this message.]\n\n"
  if maxChars ≤ marker.length then String.ofList (marker.toList.take maxChars)
  else
    let available := maxChars - marker.length
    let head := available / 2
    let tail := available - head
    String.ofList (content.toList.take head) ++ marker ++
      String.ofList (content.toList.drop (content.length - tail))

def Block.part : Block β → Option String
  | .str part => if part = "" then none else some part
  | .text part _ => if part = "" then none else some part
  | .other _ => none

def Block.withPart (block : Block β) (part : String) : Block β :=
  match block with
  | .str _ => .str part
  | .text _ rest => .text part rest
  | .other block => .other block

/-- What stands in the place of a result that holds no text. -/
def omission (message : Message β) : String :=
  let suffix := ((message.artifactId.filter (· ≠ "")).map fun artifactId ↦
    " Artifact: " ++ artifactId ++ ".").getD ""
  "[Runtime omitted oversized binary tool content; call the tool again if it is still needed.]" ++
    suffix

section

variable (serializedSize : List (Block β) → ℕ)

def perPartLimit (parts : List String) (maxChars : ℕ) : ℕ :=
  let high := (parts.map String.length).foldl max 0
  (searchGreatest (fun limit ↦ (parts.map fun text ↦ min text.length limit).sum ≤ maxChars)
    (high + 1) 0 (high + 1) none).getD 0

def truncateLargeMessage (message : Message β) (maxChars : ℕ) : Message β :=
  match message.content with
  | .text content =>
      if content.length ≤ maxChars then message
      else { message with content := .text (truncateText content maxChars) }
  | .blocks content =>
      let textParts := content.filterMap Block.part
      if textParts = [] ∧ message.role = .tool ∧ maxChars < serializedSize content then
        { message with content := .text (omission message) }
      else if (textParts.map String.length).sum ≤ maxChars then message
      else
        let limit := perPartLimit textParts maxChars
        { message with
          content := .blocks (content.map fun block ↦
            match block.part with
            | none => block
            | some text =>
                block.withPart (if text.length ≤ limit then text else truncateText text limit)) }

/-! ## The envelope -/

def maxSingleChars (maxTokens : ℕ) : ℕ := max 1000 (maxTokens * 65 / 100)

variable (cost : Message β → ℕ)

/-- The approximate count of tokens, message by message. -/
def conservativeTokenCount (messages : List (Message β)) : ℕ := (messages.map cost).sum

def Content.stringLength : Content β → Option ℕ
  | .text content => some content.length
  | .blocks _ => none

/-- The longest content that is one text, 128 if there is none. -/
def longestText (messages : List (Message β)) : ℕ :=
  match messages.filterMap fun message ↦ message.content.stringLength with
  | [] => 128
  | length :: lengths => lengths.foldl max length

def fitMessageContents (messages : List (Message β)) (maxTokens : ℕ) : List (Message β) :=
  if conservativeTokenCount cost messages ≤ maxTokens then messages
  else
    let candidate := fun limit ↦ messages.map (truncateLargeMessage serializedSize · limit)
    let past := longestText messages + 1
    ((searchGreatest (fun limit ↦ conservativeTokenCount cost (candidate limit) ≤ maxTokens)
      (past - 128) 128 past none).map candidate).getD []

def marker : Message β where
  role := .system
  name := none
  content := .text ("[Runtime context envelope: older model input was omitted to fit the " ++
    "selected model's declared context window. Do not assume omitted details.]")
  toolCalls := []
  toolCallId := none
  artifactId := none

def systemPrefix (messages : List (Message β)) : List (Message β) :=
  messages.takeWhile fun message ↦ message.role = .system

/-- The position of the latest human message. -/
def latestHuman : List (Message β) → Option ℕ
  | [] => none
  | message :: messages =>
      match latestHuman messages with
      | some index => some (index + 1)
      | none => if message.role = .human then some 0 else none

def latestTurn (messages : List (Message β)) : List (Message β) :=
  messages.drop ((latestHuman messages).getD (systemPrefix messages).length)

end

end ShejaneRuntime.Context
