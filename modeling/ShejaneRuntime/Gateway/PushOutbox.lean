import ShejaneRuntime.Gateway.Projection
import ShejaneRuntime.Gateway.PushStore
import ShejaneRuntime.Store.Operations

/-!
# The push outbox at work

Requests create configurations, the coordinator records the events of the
runs, and the Runtime and the rest of the gateway go on meanwhile. Each step
is the work between two suspensions, and the process may stop between any
two steps.
-/

namespace ShejaneRuntime.Gateway

open Lib Store

/-! ## Other transactions of the gateway -/

inductive GatewayOp where
  | prepareMessage (request : MessageRequest)
  | settleTaskAdmission (peerId taskId runtimeRunId : String)
  | settleMessageDelivery (peerId messageId : String) (runtimeInstructionId : Option String)
  | rejectTaskAdmission (peerId taskId reason : String)
  | rejectMessageDelivery (peerId messageId reason : String)
  | registerArtifact (artifact : A2AArtifact)
  | deletePushConfig (peerId tenant taskId configId : String)
  | claimPushDelivery (leaseSeconds : Time)
  | settlePushDelivery (key : (String × String × String) × EventKey)
  | retryPushDelivery (key : (String × String × String) × EventKey) (availableAt : Time)
      (error : String) (dead : Bool)

def GatewayOp.exec : GatewayOp → GatewayTxn Unit
  | prepareMessage request => (fun _ ↦ ()) <$> Gateway.prepareMessage request
  | settleTaskAdmission peerId taskId runtimeRunId =>
    Gateway.settleTaskAdmission peerId taskId runtimeRunId
  | settleMessageDelivery peerId messageId runtimeInstructionId =>
    Gateway.settleMessageDelivery peerId messageId runtimeInstructionId
  | rejectTaskAdmission peerId taskId reason => Gateway.rejectTaskAdmission peerId taskId reason
  | rejectMessageDelivery peerId messageId reason =>
    Gateway.rejectMessageDelivery peerId messageId reason
  | registerArtifact artifact => (fun _ ↦ ()) <$> Gateway.registerArtifact artifact
  | deletePushConfig peerId tenant taskId configId =>
    (fun _ ↦ ()) <$> Gateway.deletePushConfig peerId tenant taskId configId
  | claimPushDelivery leaseSeconds => (fun _ ↦ ()) <$> Gateway.claimPushDelivery leaseSeconds
  | settlePushDelivery key => Gateway.settlePushDelivery key
  | retryPushDelivery key availableAt error dead =>
    Gateway.retryPushDelivery key availableAt error dead

def GatewayOp.after (op : GatewayOp) (db : GatewayDatabase) (w : World) : GatewayDatabase :=
  (Txn.commit op.exec db w).2

/-! ## The state -/

/-- A request for a configuration: the task it has read, and the snapshot
once it is taken. -/
structure Creating where
  request : CreatePushConfig
  task : A2ATask
  snapshot : Option (Task × ℕ)

/-- `produce_once`: the tasks still to be polled, the one polled with its
cursor and the events to record, and the updates of the first of these. -/
structure Producing where
  watched : List (A2ATask × ℕ)
  polled : Option (A2ATask × ℕ × List Event)
  projected : Option (List Update)

structure PushState where
  runtime : Database
  gateway : GatewayDatabase
  creating : List Creating
  producing : Option Producing
  /-- The configurations created so far, and the event each snapshot stands behind. -/
  snapshots : List ((String × String × String) × ℕ)
  /-- The projections the coordinator has made. -/
  projections : List (String × Event × List Update)

/-- What the Runtime answers to `GET /v1/threads/{thread_id}`. -/
def readThread (datetime : Time → Time) (db : Database) (principalId threadId : String) :
    Option ThreadSnapshot :=
  (getThreadSnapshot datetime db principalId threadId none 200 5000 none).toOption.join

/-! ## Steps -/

inductive PushStep where
  | runtime (op : StoreOp) (w : World)
  | gateway (op : GatewayOp) (w : World)
  | readTask (request : CreatePushConfig)
  | takeSnapshot (n : ℕ) (env : Surroundings) (datetime : Time → Time) (principalId : String)
      (w : World)
  | storeConfig (n : ℕ) (w : World)
  | dropRequest (n : ℕ)
  | listWatchTasks
  | listEvents
  | skipTask
  | projectEvent (env : Surroundings) (w : World)
  | recordEvent (w : World)
  | giveUp
  | restart

namespace PushState

/-- The beginning of `PushConfigMixin.create_push_config`. -/
def readTask (s : PushState) (r : CreatePushConfig) : PushState :=
  match (s.gateway.tasks.find? r.taskId).filter fun t ↦
      t.peerId = r.peerId && t.tenant = r.tenant with
  | none => s
  | some task =>
    match getPushConfig s.gateway r.peerId r.tenant r.taskId r.configId with
    | some _ => s
    | none => { s with creating := s.creating ++ [⟨r, task, none⟩] }

def takeSnapshot (s : PushState) (n : ℕ) (env : Surroundings) (thread : A2ATask → Option ThreadSnapshot)
    (w : World) : PushState :=
  match s.creating[n]? with
  | none => s
  | some c =>
    let result := Txn.commit (snapshot env c.task (thread c.task)) s.gateway w
    match result.1 with
    | .error _ => { s with gateway := result.2, creating := s.creating.eraseIdx n }
    | .ok taken => { s with
        gateway := result.2
        creating := s.creating.set n { c with snapshot := some taken } }

/-- The end of `PushConfigMixin.create_push_config`. -/
def storeConfig (s : PushState) (n : ℕ) (w : World) : PushState :=
  match s.creating[n]?.bind fun c ↦ c.snapshot.map fun taken ↦ (c.request, taken) with
  | none => s
  | some (r, projected, startAfter) =>
    let result := Txn.commit (createPushConfig r startAfter (.task projected)) s.gateway w
    let created := match result.1 with
      | .ok (_, true) => [(r.key, startAfter)]
      | _ => []
    { s with
      gateway := result.2
      creating := s.creating.eraseIdx n
      snapshots := s.snapshots ++ created }

def listWatchTasks (s : PushState) : PushState :=
  match s.producing with
  | none => { s with producing := some ⟨listPushWatchTasks s.gateway, none, none⟩ }
  | some _ => s

/-- The events of the next task are requested after those of the last one. -/
def listEvents (s : PushState) : PushState :=
  match s.producing with
  | some ⟨(task, after) :: watched, none, none⟩ =>
    match nonEmpty task.runtimeRunId with
    | none => { s with producing := some ⟨watched, none, none⟩ }
    | some runId => { s with
        producing := some ⟨watched, some (task, after, eventsSince s.runtime runId after none),
          none⟩ }
  | some ⟨watched, some (_, _, []), none⟩ => { s with producing := some ⟨watched, none, none⟩ }
  | _ => s

/-- The Runtime does not answer, or the peer is gone. -/
def skipTask (s : PushState) : PushState :=
  match s.producing with
  | some ⟨_ :: watched, none, none⟩ => { s with producing := some ⟨watched, none, none⟩ }
  | _ => s

/-- A projection that fails ends the iteration. -/
def projectEvent (s : PushState) (env : Surroundings) (w : World) : PushState :=
  match s.producing with
  | some ⟨watched, some (task, after, event :: events), none⟩ =>
    if event.seq ≤ after then
      { s with producing := some ⟨watched, some (task, after, events), none⟩ }
    else
      let result := Txn.commit (projectStreamEvent env task event) s.gateway w
      match result.1 with
      | .error _ => { s with gateway := result.2, producing := none }
      | .ok updates => { s with
          gateway := result.2
          producing := some ⟨watched, some (task, after, event :: events), some updates⟩
          projections := s.projections ++ [(task.id, event, updates)] }
  | _ => s

def recordEvent (s : PushState) (w : World) : PushState :=
  match s.producing with
  | some ⟨watched, some (task, _, event :: events), some updates⟩ =>
    let result := Txn.commit (recordPushEvent task.peerId task.id event.seq
      (updates.map StreamResponse.update)) s.gateway w
    match result.1 with
    | .error _ => { s with gateway := result.2, producing := none }
    | .ok _ => { s with
        gateway := result.2
        producing := some ⟨watched, some (task, event.seq, events), none⟩ }
  | _ => s

def after (s : PushState) : PushStep → PushState
  | .runtime op w => { s with runtime := op.after s.runtime w }
  | .gateway op w => { s with gateway := op.after s.gateway w }
  | .readTask r => s.readTask r
  | .takeSnapshot n env datetime principalId w =>
    s.takeSnapshot n env (fun t ↦ readThread datetime s.runtime principalId t.runtimeThreadId) w
  | .storeConfig n w => s.storeConfig n w
  | .dropRequest n => { s with creating := s.creating.eraseIdx n }
  | .listWatchTasks => s.listWatchTasks
  | .listEvents => s.listEvents
  | .skipTask => s.skipTask
  | .projectEvent env w => s.projectEvent env w
  | .recordEvent w => s.recordEvent w
  | .giveUp => { s with producing := none }
  | .restart => { s with creating := [], producing := none }

def initial : PushState := ⟨.empty, .empty, [], none, [], []⟩

end PushState

def pushSystem : System PushState PushStep where
  initial s := s = .initial
  step i s t := t = s.after i

/-! ## Completeness -/

/-- What a configuration has a row for under a key. -/
def GatewayDatabase.sent (db : GatewayDatabase) (config : String × String × String)
    (eventKey : EventKey) : Option StreamResponse :=
  (db.pushOutbox.find? (config, eventKey)).map OutboxRow.payload

def GatewayDatabase.cursorOf (db : GatewayDatabase) (taskId : String) : Option ℕ :=
  (db.pushCursors.find? taskId).map PushCursor.runtimeAfter

def GatewayDatabase.runOf (db : GatewayDatabase) (taskId : String) : Option String :=
  (db.tasks.find? taskId).bind fun t ↦ nonEmpty t.runtimeRunId

/-- The projection of the event shows a peer something. -/
def telling (e : Event) : Prop := e.eventType = "artifact.created" ∨ (eventState e).isSome = true

instance (e : Event) : Decidable (telling e) := inferInstanceAs (Decidable (_ ∨ _))

namespace PushState

/-- The events of the run of a task. -/
def eventsOf (s : PushState) (taskId : String) : List Event :=
  match s.gateway.runOf taskId with
  | none => []
  | some runId => s.runtime.journal.events.ofRun runId

/-- The coordinator has projected the event to these updates, or it needs
no projection. -/
def Projected (s : PushState) (taskId : String) (e : Event) (updates : List Update) : Prop :=
  (taskId, e, updates) ∈ s.projections ∨ ¬telling e ∧ updates = []

/-- The cursor has passed every event of the run. -/
def Produced (s : PushState) (taskId : String) : Prop :=
  ∃ cursor, s.gateway.cursorOf taskId = some cursor ∧ ∀ e ∈ s.eventsOf taskId, e.seq ≤ cursor

/-- The rows of a configuration whose snapshot stands behind an event: one
for the snapshot and one for each update of each later event. -/
structure Told (s : PushState) (config : String × String × String) (start : ℕ) : Prop where
  snapshot : (s.gateway.sent config .snapshot).isSome = true
  updates : ∀ e ∈ s.eventsOf config.2.1, start < e.seq →
    ∃ updates, s.Projected config.2.1 e updates ∧
      ∀ index, s.gateway.sent config (.event e.seq index) =
        updates[index]?.map StreamResponse.update
  only : ∀ seq index, (s.gateway.sent config (.event seq index)).isSome = true →
    start < seq ∧ ∃ e ∈ s.eventsOf config.2.1, e.seq = seq

/-- Every configuration that is not deleted has been told everything, once
everything is produced. -/
def OutboxComplete (s : PushState) : Prop :=
  ∀ c ∈ s.gateway.pushConfigs.rows, c.deletedAt = none →
    ∃ start, (c.key, start) ∈ s.snapshots ∧
      (∀ start', (c.key, start') ∈ s.snapshots → start' = start) ∧
      (s.Produced c.taskId → s.Told c.key start)

/-- No event of the task after the first number and up to the second tells
anything. -/
def Quiet (s : PushState) (taskId : String) (first last : ℕ) : Prop :=
  ∀ e ∈ s.eventsOf taskId, first < e.seq → e.seq ≤ last → ¬telling e

end PushState

/-- What the Runtime's own callers see to. -/
def runtimeCalls : PushStep → PushState → Prop
  | .runtime op _, _ => op.called
  | _, _ => True

/-- The condition on a step: a configuration is stored when nothing is told
between its snapshot and the cursor of the task, unless the cursor is behind
and no other configuration needs it. -/
def Aligned : PushStep → PushState → Prop
  | .runtime op _, _ => op.called
  | .storeConfig n _, s => ∀ r projected startAfter,
    (s.creating[n]?.bind fun c ↦ c.snapshot.map fun taken ↦ (c.request, taken)) =
        some (r, projected, startAfter) →
      s.gateway.pushConfigs.find? r.key = none →
      (s.gateway.pushConfigs.select (PushConfig.activeOf r.peerId r.taskId)).length < 8 →
      ∀ cursor, s.gateway.cursorOf r.taskId = some cursor →
        s.Quiet r.taskId startAfter cursor ∧
        (s.gateway.pushConfigs.rows.any (PushConfig.activeOf r.peerId r.taskId) = true →
          s.Quiet r.taskId cursor startAfter)
  | _, _ => True

end ShejaneRuntime.Gateway
