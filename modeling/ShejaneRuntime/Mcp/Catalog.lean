import Mathlib.Data.Int.Notation
import Mathlib.Data.List.Basic
import ShejaneRuntime.Lib.Transition

/-!
# The catalog of MCP tools

The catalog keeps an entry for every configured server, with its tools and the
supervisor of its session. Runs lease entries without waiting; refreshes,
invalidations, releases and the close of the catalog take turns at its lock. A
step is what a task does between two await points, and a task may be canceled
at any of them.
-/

namespace ShejaneRuntime.Mcp

open Lib

/-! ## Entries -/

/-- `_CatalogEntry`; supervisors are numbered as their sessions open. -/
structure Entry where
  configFingerprint : String
  tools : List String
  supervisor : Option ℕ
  leases : ℤ
  retired : Bool
  errorType : Option String
  retryAt : ℕ
  refreshRequired : Bool

/-- What `_load_mcp_config` gives: the servers in order, each with the
fingerprint of its configuration, `none` where computing it raises (a lone
surrogate has no UTF-8 encoding). -/
abbrev Config := List (String × Option String)

/-- `MAX_MCP_SERVERS` -/
def maxMcpServers : ℕ := 32

/-- `MCP_RETRY_BACKOFF_SECONDS` -/
def mcpRetryBackoffSeconds : ℕ := 30

/-- The configured servers that are not disabled, up to the limit. -/
def Config.enabled (config : Config) (disabled : List String) : Config :=
  (config.filter fun server ↦ !disabled.contains server.1).take maxMcpServers

/-- A server to be opened, and what `_open_mcp_server` gave: a supervisor and
its tools, or the type of the error. -/
structure Load where
  name : String
  fingerprint : String
  result : Option (Except String (ℕ × List String))

/-- The supervisor of a server that has been opened. -/
def Load.opened (load : Load) : Option ℕ :=
  match load.result with
  | some (.ok (supervisor, _)) => some supervisor
  | _ => none

/-- The entry of a server that has been opened, or has failed to. -/
def Load.entry (load : Load) (now : ℕ) : Entry :=
  match load.result with
  | some (.ok (supervisor, tools)) =>
    ⟨load.fingerprint, tools, some supervisor, 0, false, none, 0, false⟩
  | some (.error errorType) =>
    ⟨load.fingerprint, [], none, 0, false, some errorType, now + mcpRetryBackoffSeconds, false⟩
  | none => ⟨load.fingerprint, [], none, 0, false, none, now + mcpRetryBackoffSeconds, false⟩

/-- The catalog. Entries are numbered as they are made; `table` is `_entries`.
`stopped` lists the supervisors whose `stop` has begun, and whether the close
of the catalog began it. -/
structure Catalog where
  table : List (String × ℕ)
  entries : List Entry
  retired : List ℕ
  closed : Bool
  supervisors : ℕ
  stopped : List (ℕ × Bool)

namespace Catalog

def refs (c : Catalog) : List ℕ := c.table.map Prod.snd

def modify (c : Catalog) (ref : ℕ) (f : Entry → Entry) : Catalog :=
  { c with entries := c.entries.modify ref f }

/-- `self._entries.get(name)` -/
def get (c : Catalog) (name : String) : Option (ℕ × Entry) :=
  (c.table.lookup name).bind fun ref ↦ (c.entries[ref]?).map fun entry ↦ (ref, entry)

/-! ## Leases -/

/-- The entry a lease is taken of: one of the same configuration, without an
error. -/
def leasable (c : Catalog) (name fingerprint : String) : Option ℕ :=
  match c.get name with
  | some (ref, entry) =>
    if entry.configFingerprint = fingerprint && entry.errorType.isNone then some ref else none
  | none => none

/-- The loop of `_cached_snapshot`: the leases it takes, and whether it comes
to its end. -/
def leaseAll (c : Catalog) : Config → Catalog × List ℕ × Bool
  | [] => (c, [], true)
  | (_, none) :: _ => (c, [], false)
  | (name, some fingerprint) :: rest =>
    match c.leasable name fingerprint with
    | none => c.leaseAll rest
    | some ref =>
      let c' := c.modify ref fun entry ↦ { entry with leases := entry.leases + 1 }
      let (c'', refs, ok) := c'.leaseAll rest
      (c'', ref :: refs, ok)

/-- The loop of `_release`; it ends at a count below zero. -/
def releaseAll (c : Catalog) (toClose : List ℕ) : List ℕ → Catalog × List ℕ × Bool
  | [] => (c, toClose, true)
  | ref :: rest =>
    let c' := c.modify ref fun entry ↦ { entry with leases := entry.leases - 1 }
    match c'.entries[ref]? with
    | none => (c', toClose, false)
    | some entry =>
      if entry.leases < 0 then (c', toClose, false)
      else if entry.retired && entry.leases = 0 then
        { c' with retired := c'.retired.erase ref }.releaseAll
          (toClose ++ entry.supervisor.toList) rest
      else c'.releaseAll toClose rest

/-! ## Retirement -/

/-- `_retire` -/
def retire (c : Catalog) (ref : ℕ) (toClose : List ℕ) : Catalog × List ℕ :=
  match c.entries[ref]? with
  | none => (c, toClose)
  | some entry =>
    let c' := c.modify ref fun entry ↦ { entry with retired := true }
    if entry.leases ≠ 0 then ({ c' with retired := c'.retired ++ [ref] }, toClose)
    else (c', toClose ++ entry.supervisor.toList)

/-- `_retire` of what a name stands for, which the table loses. -/
def pop (c : Catalog) (name : String) (toClose : List ℕ) : Catalog × List ℕ :=
  match c.table.lookup name with
  | none => (c, toClose)
  | some ref => { c with table := c.table.erase (name, ref) }.retire ref toClose

def popAll (c : Catalog) (toClose : List ℕ) : List String → Catalog × List ℕ
  | [] => (c, toClose)
  | name :: rest =>
    let (c', toClose') := c.pop name toClose
    c'.popAll toClose' rest

/-! ## Refreshes -/

/-- The names of the table that a refresh does not find enabled. -/
def inactive (c : Catalog) (enabled : Config) : List String :=
  (c.table.map Prod.fst).filter fun name ↦ !(enabled.map Prod.fst).contains name

/-- The servers whose sessions a refresh opens. -/
def stale (c : Catalog) (now : ℕ) (config : Config) : List Load :=
  config.filterMap fun (name, fingerprint) ↦
    let load : Load := ⟨name, fingerprint.getD "", none⟩
    match c.get name with
    | none => some load
    | some (_, entry) =>
      if entry.configFingerprint ≠ load.fingerprint || entry.refreshRequired ||
          (entry.supervisor.isNone && entry.retryAt ≤ now) then some load
      else none

/-- One turn of the loop of `_snapshot` over what has been loaded. -/
def install (c : Catalog) (now : ℕ) (load : Load) (toClose : List ℕ) : Catalog × List ℕ :=
  let (c', toClose') := c.pop load.name toClose
  ({ c' with
      table := c'.table ++ [(load.name, c'.entries.length)],
      entries := c'.entries ++ [load.entry now] }, toClose')

end Catalog

/-! ## Tasks -/

/-- Where a task waits. -/
inductive Task where
  /-- inside `acquire_tools` -/
  | holding (entries : List ℕ)
  /-- for the lock in `_release` -/
  | releasing (entries : List ℕ)
  /-- for the lock in `_snapshot` -/
  | refreshing (disabled : List String)
  /-- for the servers of a refresh to open -/
  | opening (toClose : List ℕ) (loads : List Load)
  /-- for an entry to be stored, with what is loaded after it -/
  | persisting (toClose : List ℕ) (loads : List Load)
  /-- for the lock in `invalidate` -/
  | invalidating (name : Option String)
  /-- for the lock in `close` -/
  | closing
  /-- for supervisors to stop, before or after the calls of `stop` begin -/
  | stopping (supervisors : List ℕ) (byClose begun : Bool)
  | ended

/-- The task waits inside the block of the lock. -/
def Task.locks : Task → Bool
  | .opening _ _ | .persisting _ _ => true
  | _ => false

structure State where
  catalog : Catalog
  tasks : List Task

def State.initial : State := ⟨⟨[], [], [], false, 0, []⟩, []⟩

/-- The lock is free. -/
def State.unlocked (s : State) : Bool := s.tasks.all fun task ↦ !task.locks

def State.put (s : State) (j : ℕ) (c : Catalog) (task : Task) : State :=
  ⟨c, s.tasks.set j task⟩

/-- One step of a task, or of the environment. `now` is the monotonic clock. -/
inductive Action where
  | acquire (config : Config) (disabled : List String) (validates : Bool)
  | exit (j : ℕ)
  | release (j : ℕ)
  | refresh (disabled : List String)
  | load (j : ℕ) (config : Config) (now : ℕ)
  | opened (j : ℕ) (name : String) (result : Except String (List String))
  | install (j : ℕ) (now : ℕ)
  | invalidate (name : Option String)
  | retire (j : ℕ)
  | close
  | shut (j : ℕ)
  | beginStop (j : ℕ)
  | finishStop (j : ℕ)
  | cancel (j : ℕ)
  | toolsChanged (supervisor : ℕ)
  | toolCallFails (supervisor : ℕ)

namespace State

variable (s : State)

/-- `acquire_tools` up to its `yield`. A call that raises leaves no context. -/
def acquire (config : Config) (disabled : List String) (validates : Bool) : State :=
  if s.catalog.closed then { s with tasks := s.tasks ++ [.ended] }
  else
    let (c, refs, ok) := s.catalog.leaseAll (config.enabled disabled)
    ⟨c, s.tasks ++ [if ok && validates then .holding refs else .ended]⟩

/-- `_release` with the lock. -/
def release (j : ℕ) (refs : List ℕ) : State :=
  match s.catalog.releaseAll [] refs with
  | (c, toClose, true) => s.put j c (.stopping toClose false false)
  | (c, _, false) => s.put j c .ended

/-- `_snapshot` from the lock to the opening of servers. -/
def load (j : ℕ) (disabled : List String) (config : Config) (now : ℕ) : State :=
  if s.catalog.closed then s.put j s.catalog .ended
  else
    let enabled := config.enabled disabled
    let (c, toClose) := s.catalog.popAll [] (s.catalog.inactive enabled)
    if !enabled.all fun server ↦ server.2.isSome then s.put j c .ended
    else
      match c.stale now enabled with
      | [] => s.put j c (.stopping toClose false false)
      | loads => s.put j c (.opening toClose loads)

/-- A server of a refresh is open, or has failed. -/
def opened (j : ℕ) (toClose : List ℕ) (loads : List Load) (name : String)
    (result : Except String (List String)) : Option State :=
  match loads.findIdx? fun load ↦ load.name = name && load.result.isNone with
  | none => none
  | some k =>
    match result with
    | .ok tools =>
      some (s.put j { s.catalog with supervisors := s.catalog.supervisors + 1 }
        (.opening toClose (loads.modify k fun load ↦
          { load with result := some (.ok (s.catalog.supervisors, tools)) })))
    | .error errorType =>
      some (s.put j s.catalog (.opening toClose (loads.modify k fun load ↦
        { load with result := some (.error errorType) })))

/-- The next turn of the loop of `_snapshot`, or its end. -/
def install (j : ℕ) (now : ℕ) (toClose : List ℕ) : List Load → State
  | [] => s.put j s.catalog (.stopping toClose false false)
  | load :: rest =>
    let (c, toClose') := s.catalog.install now load toClose
    s.put j c (.persisting toClose' rest)

/-- `invalidate` with the lock. -/
def retire (j : ℕ) (name : Option String) : State :=
  let names := match name with
    | none => s.catalog.table.map Prod.fst
    | some name => [name]
  let (c, toClose) := s.catalog.popAll [] names
  s.put j c (.stopping toClose false false)

/-- `close` with the lock. -/
def shut (j : ℕ) : State :=
  if s.catalog.closed then s.put j s.catalog .ended
  else
    let supervisors := (s.catalog.refs ++ s.catalog.retired).filterMap fun ref ↦
      (s.catalog.entries[ref]?).bind Entry.supervisor
    s.put j { s.catalog with closed := true, table := [], retired := [] }
      (.stopping supervisors true false)

/-- A cancellation, at the await point where the task is. A context that is
left this way releases its entries. -/
def cancel (j : ℕ) : Task → Option State
  | .ended => none
  | .holding refs => some (s.put j s.catalog (.releasing refs))
  | _ => some (s.put j s.catalog .ended)

/-- `_server_tools_changed` -/
def toolsChanged (supervisor : ℕ) : Catalog :=
  { s.catalog with
    entries := s.catalog.entries.mapIdx fun ref entry ↦
      if entry.supervisor = some supervisor && s.catalog.refs.contains ref then
        { entry with refreshRequired := true }
      else entry }

/-- One step. A refresh may begin at any moment, so that requesting one is no
step of its own. -/
def after : Action → Option State
  | .acquire config disabled validates =>
    if (config.map Prod.fst).Nodup then some (s.acquire config disabled validates) else none
  | .exit j =>
    match s.tasks[j]? with
    | some (.holding refs) => some (s.put j s.catalog (.releasing refs))
    | _ => none
  | .release j =>
    match s.tasks[j]? with
    | some (.releasing refs) => if s.unlocked then some (s.release j refs) else none
    | _ => none
  | .refresh disabled => some { s with tasks := s.tasks ++ [.refreshing disabled] }
  | .load j config now =>
    match s.tasks[j]? with
    | some (.refreshing disabled) =>
      if s.unlocked && (config.map Prod.fst).Nodup then some (s.load j disabled config now)
      else none
    | _ => none
  | .opened j name result =>
    match s.tasks[j]? with
    | some (.opening toClose loads) => s.opened j toClose loads name result
    | _ => none
  | .install j now =>
    match s.tasks[j]? with
    | some (.opening toClose loads) =>
      if loads.all fun load ↦ load.result.isSome then some (s.install j now toClose loads)
      else none
    | some (.persisting toClose loads) => some (s.install j now toClose loads)
    | _ => none
  | .invalidate name => some { s with tasks := s.tasks ++ [.invalidating name] }
  | .retire j =>
    match s.tasks[j]? with
    | some (.invalidating name) => if s.unlocked then some (s.retire j name) else none
    | _ => none
  | .close => some { s with tasks := s.tasks ++ [.closing] }
  | .shut j =>
    match s.tasks[j]? with
    | some .closing => if s.unlocked then some (s.shut j) else none
    | _ => none
  | .beginStop j =>
    match s.tasks[j]? with
    | some (.stopping supervisors byClose false) =>
      some (s.put j { s.catalog with
        stopped := s.catalog.stopped ++ supervisors.map fun supervisor ↦ (supervisor, byClose) }
        (.stopping supervisors byClose true))
    | _ => none
  | .finishStop j =>
    match s.tasks[j]? with
    | some (.stopping _ _ true) => some (s.put j s.catalog .ended)
    | _ => none
  | .cancel j => (s.tasks[j]?).bind (s.cancel j)
  | .toolsChanged supervisor => some { s with catalog := s.toolsChanged supervisor }
  | .toolCallFails supervisor =>
    -- the session sets its own stop event and reports a change
    let c := s.toolsChanged supervisor
    if supervisor < c.supervisors then
      some { s with catalog := { c with stopped := c.stopped ++ [(supervisor, false)] } }
    else none

end State

/-- The catalog on any configurations, answers of servers, times and
cancellations. -/
def catalog : System State Action where
  initial s := s = .initial
  step a s s' := s.after a = some s'

end ShejaneRuntime.Mcp
