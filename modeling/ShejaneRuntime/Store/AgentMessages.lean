import Mathlib.Data.List.ReduceOption
import ShejaneRuntime.Store.RunControl

/-!
# The mailbox of collaborating agents

Messages between the runs of one root. A message is sent and acknowledged
under a running receipt of its mailbox tool, so a replayed operation finds
the message it stored. Delivery hands out every message that is neither
acknowledged nor expired, again and again.
-/

namespace ShejaneRuntime.Store

open Lib

def maxAgentMailboxPending : ℕ := 32

def maxAgentMailboxMessagesPerRoot : ℕ := 512

def maxAgentMailboxHops : ℕ := 8

def maxAgentMailboxArtifactRefs : ℕ := 16

def maxAgentMailboxTextBytes : ℕ := 32 * 1024

def maxAgentMailboxDataBytes : ℕ := 16 * 1024

/-! ## Content -/

/-- What a tool call says in a message. -/
structure MessageContent where
  kind : String
  text : String
  data : Json
  artifactRefs : List String
  ttlSeconds : ℤ

structure NormalizedContent where
  kind : MessageKind
  text : String
  dataJson : Json
  artifactRefs : List String
  ttlSeconds : ℕ

/-- No letter outside ASCII lowers to a letter of these words. -/
def messageKindOf (text : String) : Option MessageKind :=
  [MessageKind.request, .question, .update, .result, .cancel].find? fun kind ↦
    kind.text = (pyStrip text).toLower

/-- `list(dict.fromkeys(items))`: the first of each, in order. -/
def fromKeys (items : List String) : List String := items.reverse.dedup.reverse

def Json.isObject : Json → Bool
  | .obj _ => true
  | _ => false

/-- `_normalize_agent_message_content` -/
def normalizeAgentMessageContent (content : MessageContent) : StoreTxn NormalizedContent := do
  let kind ← Txn.getOr (messageKindOf content.kind) (.valueError "Agent message kind is invalid")
  let text := pyStrip content.text
  Txn.require (text.utf8ByteSize ≤ maxAgentMailboxTextBytes)
    (.valueError "Agent message text is too large")
  Txn.require (content.data.isObject = true)
    (.valueError "Agent message data must be an object")
  Txn.require (content.data.byteSize ≤ maxAgentMailboxDataBytes)
    (.valueError "Agent message data is too large")
  let refs := fromKeys (content.artifactRefs.map pyStrip)
  Txn.require (refs.length ≤ maxAgentMailboxArtifactRefs ∧
      refs.all (fun ref ↦ ref ≠ "" && ref.length ≤ 512) = true)
    (.valueError "Agent message artifact_refs are invalid")
  Txn.require (text ≠ "" ∨ content.data.truthy = true ∨ refs ≠ [])
    (.valueError "Agent message content is empty")
  Txn.require (60 ≤ content.ttlSeconds ∧ content.ttlSeconds ≤ 24 * 60 * 60)
    (.valueError "Agent message ttl_seconds must be between 60 and 86400")
  pure ⟨kind, text, content.data.sorted, refs, content.ttlSeconds.toNat⟩

/-- `_agent_message_projection` -/
def agentMessageProjection (m : AgentMessage) : Json :=
  .obj [("id", .str m.id), ("root_run_id", .str m.rootRunId),
        ("sender_run_id", .str m.senderRunId), ("recipient_run_id", .str m.recipientRunId),
        ("sender_operation_id", .str m.senderOperationId), ("kind", .str m.kind.text),
        ("text", .str m.text), ("data", jsonPayload (some m.dataJson)),
        ("artifact_refs", .arr (m.artifactRefs.map Json.str)),
        ("correlation_id", .str m.correlationId), ("in_reply_to", optText m.inReplyTo),
        ("sequence", .num m.sequence), ("hop_count", .num m.hopCount),
        ("status", .str m.status.text), ("ttl_seconds", .num m.ttlSeconds),
        ("deadline_at", timeJson m.deadlineAt), ("created_at", timeJson m.createdAt),
        ("delivered_at", optTime m.deliveredAt), ("acknowledged_at", optTime m.acknowledgedAt)]

/-! ## Rows and events -/

def insertAgentMessage (message : AgentMessage) : StoreTxn Unit := do
  requireRunRow message.rootRunId
  requireRunRow message.senderRunId
  requireRunRow message.recipientRunId
  let operation ← Txn.read fun db ↦ db.ledger.toolReceipts.find? message.senderOperationId
  Txn.require (operation.isSome = true) (.integrityError "FOREIGN KEY constraint failed")
  let clash ← Txn.read fun db ↦ db.mailbox.rows.any fun m ↦
    m.senderOperationId = message.senderOperationId
  Txn.require (clash = false) (uniqueFailed "local_agent_messages.sender_operation_id")
  Txn.attempt (fun db ↦ (db.mailbox.insert? message).map fun mailbox ↦
      { db with mailbox := mailbox })
    (uniqueFailed "local_agent_messages.id")

def updateAgentMessages (p : AgentMessage → Bool) (f : AgentMessage → AgentMessage)
    (hf : ∀ m, (f m).id = m.id := by intro; rfl) : StoreTxn Unit :=
  Txn.write fun db ↦ { db with mailbox := db.mailbox.update p f hf }

/-- `_append_agent_message_event_uncommitted` -/
def appendAgentMessageEventUncommitted (runId eventType : String) (message : AgentMessage)
    (createdAt : Time) : StoreTxn Unit := do
  let (event, _) ← appendEventUncommitted runId eventType
    (encodePayload (agentMessageProjection message)) createdAt
  touchThreadForRunEventUncommitted runId eventType event.seq createdAt

/-- `_require_mailbox_receipt_uncommitted` -/
def requireMailboxReceiptUncommitted (lease : Option ExecutionLease) (runId toolName : String)
    (operationId : Option String) : StoreTxn Unit := do
  let held ← Txn.getOr (lease.filter fun held ↦ held.runId = runId)
    (.leaseFence "Agent mailbox mutation requires the sender execution lease")
  match operationId with
  | none => do
    let count ← Txn.read fun db ↦ db.ledger.toolReceipts.rowcount fun r ↦
      r.runId = runId && r.toolName = toolName && r.status = .running &&
        r.executionAttemptId = held.executionAttemptId
    Txn.require (count = 1) (.toolReceiptState
      s!"Agent mailbox mutation requires one running {toolName} receipt")
  | some operationId => do
    let receipt? ← Txn.read fun db ↦ (db.ledger.toolReceipts.find? operationId).filter fun r ↦
      r.runId = runId && r.toolName = toolName && r.status = .running
    let receipt ← Txn.getOr receipt? (.toolReceiptState
      s!"Agent mailbox mutation requires its running {toolName} receipt")
    Txn.require (receipt.executionAttemptId = held.executionAttemptId)
      (.leaseFence s!"{toolName} receipt belongs to a stale execution attempt")

/-- The messages of a recipient that are past their deadline. -/
def AgentMessage.overdue (recipientRunId : String) (now : Time) (m : AgentMessage) : Bool :=
  m.recipientRunId = recipientRunId && m.unacknowledged && m.deadlineAt ≤ now

/-- `_expire_agent_messages_uncommitted` -/
def expireAgentMessagesUncommitted (recipientRunId : String) (now : Time) : StoreTxn Unit := do
  let expired ← Txn.read fun db ↦ orderByTimeId AgentMessage.createdAt AgentMessage.id
    (db.mailbox.select (AgentMessage.overdue recipientRunId now))
  updateAgentMessages (AgentMessage.overdue recipientRunId now) fun m ↦
    { m with status := .expired }
  forM expired fun m ↦ appendAgentMessageEventUncommitted recipientRunId "agent.message.expired"
    { m with status := .expired } now

/-! ## Sending and replying -/

/-- A message as its operation asks for it. -/
structure OutgoingMessage where
  senderRunId : String
  senderOperationId : String
  recipientRunId : String
  content : NormalizedContent
  correlationId : Option String
  inReplyTo : Option String
  sequence : ℕ
  hopCount : ℕ
  toolName : String

/-- The stored message is the one that is asked for again. -/
def AgentMessage.repeats (m : AgentMessage) (out : OutgoingMessage) : Bool :=
  m.senderRunId = out.senderRunId && m.recipientRunId = out.recipientRunId &&
    m.kind = out.content.kind && m.text = out.content.text &&
    m.dataJson = out.content.dataJson && m.artifactRefs = out.content.artifactRefs &&
    m.ttlSeconds = out.content.ttlSeconds &&
    m.correlationId = textOr out.correlationId m.id && m.inReplyTo = out.inReplyTo &&
    m.sequence = out.sequence && m.hopCount = out.hopCount

/-- `run.root_run_id or run.id` -/
def mailboxRoot (run : Run) : String := textOr run.rootRunId run.id

/-- A child takes part below the root only. -/
def Run.inTopology (run : Run) (root : String) : Bool :=
  run.runKind ≠ .child || (run.parentRunId = some root && run.collaborationDepth = 1)

/-- The artifact belongs to a run of the root. -/
def artifactAuthorized (db : Database) (root ref : String) : Bool :=
  db.content.artifacts.any fun a ↦ a.id = ref &&
    (db.runs.find? a.runId).any fun r ↦ r.rootRunId.getD r.id = root

/-- Who may write to whom. -/
def requireMailboxParticipants (out : OutgoingMessage) : StoreTxn (Run × Run) := do
  Txn.require (out.senderRunId ≠ out.recipientRunId) (.runAdmission "agent_message_self_send"
    "an Agent cannot send a mailbox message to itself")
  let missing : StoreError := .runAdmission "agent_message_run_not_found"
    "Agent mailbox sender or recipient does not exist"
  let sender? ← findRun out.senderRunId
  let recipient? ← findRun out.recipientRunId
  let sender ← Txn.getOr sender? missing
  let recipient ← Txn.getOr recipient? missing
  Txn.require (mailboxRoot sender = mailboxRoot recipient)
    (.runAdmission "agent_message_foreign_root"
      "Agent mailbox participants must share one collaboration root")
  Txn.require (sender.principalId = recipient.principalId)
    (.runAdmission "agent_message_foreign_principal"
      "Agent mailbox participants must share one principal")
  Txn.require (sender.runKind = .child ∨ recipient.runKind = .child)
    (.runAdmission "agent_message_requires_child"
      "Agent mailbox messages require a durable child participant")
  Txn.require (sender.inTopology (mailboxRoot sender) = true ∧
      recipient.inTopology (mailboxRoot sender) = true)
    (.runAdmission "agent_message_invalid_topology"
      "Agent mailbox participants must belong to the direct-child topology")
  pure (sender, recipient)

/-- The limits of the mailbox. -/
def requireMailboxCapacity (recipientRunId root : String) : StoreTxn Unit := do
  let pending ← Txn.read fun db ↦ db.mailbox.rowcount fun m ↦
    m.recipientRunId = recipientRunId && m.unacknowledged
  Txn.require (pending < maxAgentMailboxPending) (.runAdmission "agent_message_backpressure"
    "Agent mailbox backpressure limit is reached")
  let total ← Txn.read fun db ↦ db.mailbox.rowcount fun m ↦ m.rootRunId = root
  Txn.require (total < maxAgentMailboxMessagesPerRoot)
    (.runAdmission "agent_message_root_budget_exhausted"
      "Agent mailbox message budget is exhausted for this collaboration root")

def OutgoingMessage.row (out : OutgoingMessage) (id root : String) (now deadlineBase : Time) :
    AgentMessage where
  id := id
  rootRunId := root
  senderRunId := out.senderRunId
  recipientRunId := out.recipientRunId
  senderOperationId := out.senderOperationId
  kind := out.content.kind
  text := out.content.text
  dataJson := out.content.dataJson
  artifactRefs := out.content.artifactRefs
  correlationId := textOr out.correlationId id
  inReplyTo := out.inReplyTo
  sequence := out.sequence
  hopCount := out.hopCount
  status := .queued
  ttlSeconds := out.content.ttlSeconds
  deadlineAt := deadlineBase + out.content.ttlSeconds
  createdAt := now
  deliveredAt := none
  acknowledgedAt := none

/-- Admit and store a new message. -/
def storeAgentMessage (out : OutgoingMessage) : StoreTxn AgentMessage := do
  let (sender, recipient) ← requireMailboxParticipants out
  let root := mailboxRoot sender
  let authorized ← Txn.read fun db ↦ out.content.artifactRefs.all (artifactAuthorized db root)
  Txn.require (authorized = true) (.runAdmission "agent_message_artifact_forbidden"
    "Agent mailbox artifact references must belong to the collaboration root")
  Txn.require (recipient.status.terminal = false)
    (.runAdmission "agent_message_recipient_terminal"
      "Agent mailbox recipient is already terminal")
  let now ← utcNow
  expireAgentMessagesUncommitted out.recipientRunId now
  requireMailboxCapacity out.recipientRunId root
  let id ← newId "agent_message"
  let deadlineBase ← utcNow
  let message := out.row id root now deadlineBase
  insertAgentMessage message
  appendAgentMessageEventUncommitted out.senderRunId "agent.message.sent" message now
  pure message

def findMessageOfOperation (operationId : String) : StoreTxn (Option AgentMessage) :=
  Txn.read fun db ↦ db.mailbox.rows.find? fun m ↦ m.senderOperationId = operationId

/-- `_insert_agent_message_uncommitted`: the flag tells whether the message is new. -/
def insertAgentMessageUncommitted (lease : Option ExecutionLease) (out : OutgoingMessage) :
    StoreTxn (AgentMessage × Bool) := do
  let existing ← findMessageOfOperation out.senderOperationId
  match existing with
  | some message => do
    Txn.require (message.repeats out = true) (.commandConflict
      s!"mailbox operation {out.senderOperationId} was reused with a different message")
    pure (message, false)
  | none => do
    requireMailboxReceiptUncommitted lease out.senderRunId out.toolName
      (some out.senderOperationId)
    let message ← storeAgentMessage out
    pure (message, true)

/-- `send_agent_message` -/
def sendAgentMessage (lease : Option ExecutionLease)
    (senderRunId senderOperationId recipientRunId : String) (content : MessageContent) :
    StoreTxn (AgentMessage × Bool) := do
  let normalized ← normalizeAgentMessageContent content
  runWriteTransaction senderRunId lease <|
    insertAgentMessageUncommitted lease
      ⟨senderRunId, senderOperationId, recipientRunId, normalized, none, none, 1, 0,
        "mailbox.send"⟩

/-- The last position of a conversation. -/
def threadHead (db : Database) (correlationId : String) (f : AgentMessage → ℕ) : ℕ :=
  ((db.mailbox.select fun m ↦ m.correlationId = correlationId).map f).foldr max 0

/-- `reply_agent_message` -/
def replyAgentMessage (lease : Option ExecutionLease)
    (senderRunId senderOperationId inReplyTo : String) (content : MessageContent) :
    StoreTxn (AgentMessage × Bool) := do
  let normalized ← normalizeAgentMessageContent content
  runWriteTransaction senderRunId lease do
    let replay ← findMessageOfOperation senderOperationId
    let original? ← Txn.read fun db ↦ db.mailbox.find? inReplyTo
    let original ← Txn.getOr original? (.runAdmission "agent_message_not_found"
      "Agent mailbox reply target does not exist")
    Txn.require (original.recipientRunId = senderRunId)
      (.runAdmission "agent_message_reply_forbidden"
        "an Agent can only reply to a message addressed to it")
    Txn.require (original.kind ∈ [MessageKind.request, .question, .update])
      (.runAdmission "agent_message_reply_terminal"
        "result and cancel messages cannot be replied to")
    let head ← Txn.read fun db ↦ (threadHead db original.correlationId AgentMessage.sequence,
      threadHead db original.correlationId AgentMessage.hopCount)
    let sequence := (replay.map AgentMessage.sequence).getD (head.1 + 1)
    let hopCount := (replay.map AgentMessage.hopCount).getD (head.2 + 1)
    Txn.require (hopCount ≤ maxAgentMailboxHops) (.runAdmission "agent_message_hop_limit"
      "Agent mailbox conversation hop limit is exhausted")
    insertAgentMessageUncommitted lease
      ⟨senderRunId, senderOperationId, original.senderRunId, normalized,
        some original.correlationId, some inReplyTo, sequence, hopCount, "mailbox.reply"⟩

/-! ## Delivering and acknowledging -/

/-- The messages of a recipient in one status, oldest first. -/
def inbox (db : Database) (recipientRunId : String) (status : MessageStatus) : List AgentMessage :=
  orderByTimeId AgentMessage.createdAt AgentMessage.id
    (db.mailbox.select fun m ↦ m.recipientRunId = recipientRunId && m.status = status)

def deliverAgentMessage (recipientRunId : String) (now : Time) (m : AgentMessage) :
    StoreTxn Unit := do
  updateAgentMessages (fun r ↦ r.id = m.id && r.status = .queued) fun r ↦
    { r with status := .delivered, deliveredAt := some now }
  appendAgentMessageEventUncommitted recipientRunId "agent.message.received"
    { m with status := .delivered, deliveredAt := some now } now

/-- `deliver_agent_messages` -/
def deliverAgentMessages (lease : Option ExecutionLease) (recipientRunId : String) :
    StoreTxn (List AgentMessage) := do
  Txn.require (lease.any (fun held ↦ held.runId = recipientRunId) = true)
    (.leaseFence "Agent mailbox delivery requires the recipient execution lease")
  runWriteTransaction recipientRunId lease do
    let now ← utcNow
    expireAgentMessagesUncommitted recipientRunId now
    let queued ← Txn.read fun db ↦ inbox db recipientRunId .queued
    forM queued (deliverAgentMessage recipientRunId now)
    Txn.read fun db ↦ inbox db recipientRunId .delivered

/-- Acknowledge one message; a repetition changes nothing. -/
def ackAgentMessage (recipientRunId : String) (now : Time) (m : AgentMessage) :
    StoreTxn AgentMessage := do
  Txn.require (m.recipientRunId = recipientRunId) (.runAdmission "agent_message_ack_forbidden"
    "an Agent can only acknowledge a message addressed to it")
  if m.status = .acknowledged then pure m
  else do
    Txn.require (m.status = .delivered) (.runAdmission "agent_message_not_delivered"
      "Agent mailbox message must be delivered before acknowledgement")
    updateAgentMessages (fun r ↦ r.id = m.id && r.status = .delivered) fun r ↦
      { r with status := .acknowledged, acknowledgedAt := some now }
    let acknowledged := { m with status := .acknowledged, acknowledgedAt := some now }
    appendAgentMessageEventUncommitted recipientRunId "agent.message.acknowledged" acknowledged now
    pure acknowledged

/-- `ack_agent_messages` -/
def ackAgentMessages (lease : Option ExecutionLease) (recipientRunId : String)
    (messageIds : List String) (operationId : Option String) : StoreTxn (List AgentMessage) := do
  let ids := fromKeys messageIds
  Txn.require (ids ≠ [] ∧ ids.length ≤ maxAgentMailboxPending)
    (.valueError "Agent mailbox acknowledgement message_ids are invalid")
  runWriteTransaction recipientRunId lease do
    requireMailboxReceiptUncommitted lease recipientRunId "mailbox.ack" operationId
    let found ← Txn.read fun db ↦ ids.map db.mailbox.find?
    Txn.require (found.all Option.isSome = true) (.runAdmission "agent_message_not_found"
      "Agent mailbox acknowledgement target does not exist")
    let now ← utcNow
    found.reduceOption.mapM (ackAgentMessage recipientRunId now)

end ShejaneRuntime.Store
