import Mathlib.Data.Int.Notation
import Mathlib.Data.List.Sort
import ShejaneRuntime.Lib.OrderedMap

/-!
# The presentation of a run

The Client keeps the items of a run and the drafts of its rounds, and takes
in the changes that the events of the Runtime carry.
-/

namespace ShejaneRuntime.Client

open Lib

structure ItemOrder where
  eventSeq : ℤ
  slot : ℤ
  deriving DecidableEq, Repr

/-- What an item says; the kinds besides the final answer are alike here. -/
inductive ItemBody (β : Type) where
  | finalAnswer (content : String)
  | other (body : β)
  deriving DecidableEq, Repr

structure RunPresentationItem (β : Type) where
  id : String
  revision : ℕ
  order : ItemOrder
  body : ItemBody β
  deriving DecidableEq, Repr

structure RunPresentationSnapshot (β : Type) where
  runId : String
  items : Option (List (RunPresentationItem β))
  eventHighWatermark : ℕ
  deriving DecidableEq, Repr

/-- The drafts are the texts of the open rounds. -/
structure RunPresentationState (β : Type) where
  snapshot : RunPresentationSnapshot β
  drafts : List (String × String)
  deriving DecidableEq, Repr

inductive RunPresentationChange (β : Type) where
  | itemUpsert (item : RunPresentationItem β)
  | draftDelta (roundId content : String)
  | draftClosed (roundId : String)
  deriving DecidableEq, Repr

variable {β : Type}

def createRunPresentationState (snapshot : RunPresentationSnapshot β) :
    RunPresentationState β where
  snapshot := { snapshot with items := some (snapshot.items.getD []) }
  drafts := []

section

variable (localeCompare : String → String → ℤ)

def comparePresentationItems (left right : RunPresentationItem β) : ℤ :=
  if left.order.eventSeq - right.order.eventSeq ≠ 0 then
    left.order.eventSeq - right.order.eventSeq
  else if left.order.slot - right.order.slot ≠ 0 then
    left.order.slot - right.order.slot
  else localeCompare left.id right.id

def applyRunPresentationChange (state : RunPresentationState β) :
    RunPresentationChange β → RunPresentationState β
  | .draftDelta roundId content =>
      let draft := (OrderedMap.get? Prod.fst state.drafts roundId).elim "" Prod.snd
      { state with drafts := OrderedMap.set Prod.fst state.drafts (roundId, draft ++ content) }
  | .draftClosed roundId =>
      { state with drafts := state.drafts.filter fun draft ↦ draft.1 ≠ roundId }
  | .itemUpsert item =>
      let items := OrderedMap.ofEntries RunPresentationItem.id (state.snapshot.items.getD [])
      let items := match OrderedMap.get? RunPresentationItem.id items item.id with
        | none => OrderedMap.set RunPresentationItem.id items item
        | some current =>
            if current.revision ≤ item.revision then
              OrderedMap.set RunPresentationItem.id items item
            else items
      { drafts := match item.body with
          | .finalAnswer _ => []
          | .other _ => state.drafts
        snapshot :=
          { state.snapshot with
            items := some (items.insertionSort fun left right ↦
              comparePresentationItems localeCompare left right ≤ 0)
            eventHighWatermark := max state.snapshot.eventHighWatermark item.revision } }

end

/-! ## The events of a stream -/

/-- An event as far as the presentation reads it; `text` is the content of its payload. -/
structure AgentRunEvent (β : Type) where
  eventType : String
  id : Option String
  text : String
  presentationChange : Option (RunPresentationChange β)
  presentationChanges : Option (List (RunPresentationChange β))

def AgentRunEvent.changes (event : AgentRunEvent β) : List (RunPresentationChange β) :=
  event.presentationChanges.getD event.presentationChange.toList

/-- An empty text counts as none. -/
def given (text : Option String) : Option String := text.filter (· ≠ "")

/-- What the projection of a message keeps of a run. -/
structure ChatMessage (β : Type) where
  runId : Option String
  content : String
  presentation : Option (RunPresentationState β)

section

variable (localeCompare : String → String → ℤ)

def emptyPresentation (runId : String) : RunPresentationState β :=
  createRunPresentationState { runId, items := some [], eventHighWatermark := 0 }

/-- One change of an event; the text of a final answer becomes that of the message. -/
def applyChange (message : ChatMessage β × RunPresentationState β)
    (change : RunPresentationChange β) : ChatMessage β × RunPresentationState β :=
  (match change with
    | .itemUpsert { body := .finalAnswer content, .. } => { message.1 with content }
    | _ => message.1,
   applyRunPresentationChange localeCompare message.2 change)

def applyRunPresentationEvent (message : ChatMessage β) (event : AgentRunEvent β) :
    ChatMessage β :=
  match given message.runId with
  | none => message
  | some runId =>
      if event.changes = [] then message
      else
        let (message, current) := event.changes.foldl (applyChange localeCompare)
          (message, message.presentation.getD (emptyPresentation runId))
        { message with presentation := some current }

def projectTransientAssistantText (current : String) (event : AgentRunEvent β) : String :=
  if event.eventType = "llm.delta" then current ++ event.text
  else if event.eventType = "llm.round.started" ∨ event.eventType = "tool.requested" ∨
      event.eventType = "question.asked" then ""
  else current

/-- Taking in an event: the message, and the ids of the events seen. A delta comes
through once; the changes of any other event are applied whenever it comes. -/
def processStreamEvent (message : ChatMessage β × List String) (event : AgentRunEvent β) :
    ChatMessage β × List String :=
  let seen := (given event.id).any (message.2.contains ·)
  if event.eventType = "llm.delta" then
    if (given message.1.runId).isSome ∧ event.changes ≠ [] then
      if seen then message
      else (applyRunPresentationEvent localeCompare message.1 event,
        (given event.id).toList ++ message.2)
    else message
  else
    let next := applyRunPresentationEvent localeCompare message.1 event
    let content :=
      if next.presentation.isSome then next.content
      else projectTransientAssistantText next.content event
    ({ next with content }, (given event.id).toList ++ message.2)

end

end ShejaneRuntime.Client
