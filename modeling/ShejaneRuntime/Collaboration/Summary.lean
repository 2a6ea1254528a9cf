import ShejaneRuntime.Store.Children
import ShejaneRuntime.Lib.Paging
import Mathlib.Data.Prod.Lex

/-!
# The completion of child work

What a parent reads of its children, the summary it draws from their
completion modes and statuses, and the loop that settles the parent: it
cancels what no longer matters and waits for what still does.
-/

namespace ShejaneRuntime.Collaboration

open Lib Store

/-- The part of a projected child that its parent coordinates by. -/
structure Child where
  id : String
  status : RunStatus
  completionMode : CompletionMode
  quorumGroup : Option String
  quorumRequired : Option ℤ
  deriving DecidableEq

/-- `_CHILD_TERMINAL_STATUSES` -/
def childTerminal : RunStatus → Bool
  | .completed | .failed | .canceled | .cleanupRequired => true
  | _ => false

namespace Child

def active (c : Child) : Bool := !childTerminal c.status

def completed (c : Child) : Bool := c.status = .completed

def failed (c : Child) : Bool := childTerminal c.status && !c.completed

def group (c : Child) : String := c.quorumGroup.getD ""

def requirement (c : Child) : ℤ := c.quorumRequired.getD 0

def inGroup (group : String) (c : Child) : Bool :=
  c.completionMode = .quorum && c.group = group

end Child

/-! ## The summary -/

structure QuorumGroup where
  group : String
  required : ℤ
  completed : ℕ
  active : ℕ
  failed : ℕ
  satisfied : Bool
  impossible : Bool
  deriving DecidableEq

structure RequiredChildren where
  total : ℕ
  completed : ℕ
  failed : List String
  active : ℕ
  deriving DecidableEq

structure Summary where
  satisfied : Bool
  impossible : Bool
  required : RequiredChildren
  quorumGroups : List QuorumGroup
  bestEffortActive : ℕ
  waitFor : List String
  cancel : List String
  deriving DecidableEq

/-- The members of a quorum group. -/
def members (children : List Child) (group : String) : List Child :=
  children.filter (Child.inGroup group)

/-- The names of the quorum groups, in the order in which they are summed up. -/
def groupNames (children : List Child) : List String :=
  (((children.filter fun c ↦ c.completionMode = .quorum).map Child.group).dedup).insertionSort
    (· ≤ ·)

/-- The number the members of a group agree on, else zero. -/
def agreedRequirement (members : List Child) : ℤ :=
  match (members.map Child.requirement).dedup with
  | [required] => required
  | _ => 0

def summarizeGroup (group : String) (members : List Child) : QuorumGroup :=
  let required := agreedRequirement members
  let completed := members.countP Child.completed
  let active := members.countP Child.active
  { group := group
    required := required
    completed := completed
    active := active
    failed := members.countP Child.failed
    satisfied := 0 < required && required ≤ completed
    impossible := required ≤ 0 || (members.length : ℤ) < required ||
      (completed + active : ℤ) < required }

def quorumGroups (children : List Child) : List QuorumGroup :=
  (groupNames children).map fun group ↦ summarizeGroup group (members children group)

/-- The active members of the groups that are as the test says. -/
def activeMembers (children : List Child) (test : QuorumGroup → Bool) : List String :=
  ((quorumGroups children).filter test).flatMap fun g ↦
    ((members children g.group).filter Child.active).map Child.id

/-- Python's `list(dict.fromkeys(ids))` -/
def fromKeys (ids : List String) : List String := ids.eraseDups

/-- `_collaboration_completion_summary` -/
def completionSummary (children : List Child) : Summary :=
  let active := (children.filter Child.active).map Child.id
  let required := children.filter fun c ↦ c.completionMode = .required
  let requiredFailed := (required.filter Child.failed).map Child.id
  let requiredWaiting := (required.filter Child.active).map Child.id
  let bestEffortActive := (children.filter fun c ↦
    c.completionMode = .bestEffort && c.active).map Child.id
  let groups := quorumGroups children
  let quorumWaiting := activeMembers children fun g ↦ !(g.satisfied || g.impossible)
  let quorumCancel := activeMembers children fun g ↦ g.satisfied || g.impossible
  let impossible := !requiredFailed.isEmpty || groups.any QuorumGroup.impossible
  let requiredSatisfied := requiredFailed.isEmpty && requiredWaiting.isEmpty
  { satisfied := requiredSatisfied && groups.all QuorumGroup.satisfied && !impossible
    impossible := impossible
    required := ⟨required.length, required.countP Child.completed, requiredFailed,
      requiredWaiting.length⟩
    quorumGroups := groups
    bestEffortActive := bestEffortActive.length
    waitFor := fromKeys (if impossible then [] else requiredWaiting ++ quorumWaiting)
    cancel := fromKeys (if impossible then active else bestEffortActive ++ quorumCancel) }

/-! ## Settling the parent -/

/-- What the parent ends with: its own outcome, or a coordination error. -/
inductive Ending where
  | own (status : RunStatus)
  | childWorkFailed
  | noContinuation
  deriving DecidableEq

/-- The text of the `ChildCoordinationError` a parent fails with. -/
def Ending.error : Ending → Option String
  | own _ => none
  | childWorkFailed => some "Required child work failed or could not satisfy its quorum."
  | noContinuation => some "Child completion policy has no satisfiable continuation."

/-- Where `_settle_child_coordination` stands: before the next read of the children, or done.
The identifiers are those it cancels or waits for. -/
inductive Point where
  | ending (active : List String)
  | canceling (toCancel : List String)
  | failing (active : List String)
  | waiting (waitFor : List String)
  | settled (ending : Ending) (summary : Summary)

def activeIds (children : List Child) : List String :=
  (children.filter Child.active).map Child.id

/-- The end of the loop's body, from a summary of the children as they are now. -/
def afterCancel (status : RunStatus) (children : List Child) : Point :=
  let summary := completionSummary children
  if summary.impossible then
    if activeIds children ≠ [] then .failing (activeIds children)
    else .settled .childWorkFailed summary
  else if summary.satisfied then .settled (.own status) summary
  else if summary.waitFor = [] then .settled .noContinuation summary
  else .waiting summary.waitFor

/-- The loop's body up to the cancellations. -/
def loopHead (status : RunStatus) (children : List Child) : Point :=
  let toCancel := (completionSummary children).cancel
  if toCancel ≠ [] then .canceling toCancel else afterCancel status children

/-- The start of `_settle_child_coordination` for a parent that ended with this status. -/
def settleChildCoordination (status : RunStatus) (children : List Child) : Point :=
  if children = [] ∨ status.terminal = false then
    .settled (.own status) (completionSummary children)
  else if status = .completed then loopHead status children
  else if activeIds children ≠ [] then .ending (activeIds children)
  else .settled (.own status) (completionSummary children)

/-- Go on with the children as the next read finds them. -/
def Point.next (status : RunStatus) : Point → List Child → Point
  | .ending _, children => .settled (.own status) (completionSummary children)
  | .canceling _, children => afterCancel status children
  | .failing _, children => .settled .childWorkFailed (completionSummary children)
  | .waiting _, children => loopHead status children
  | .settled e summary, _ => .settled e summary

end ShejaneRuntime.Collaboration
