import ShejaneRuntime.Store.RunCommands

/-!
# Thread metadata

Renaming, archiving and deleting a thread. Each advances the version of the
thread by one and records the change, as every other change of a thread does.
-/

namespace ShejaneRuntime.Store

open Lib

/-- The next version of a thread, with its change. -/
def Journal.advanceThread (thread : Thread) (f : Thread → Thread) (changeType : String)
    (now : Time) (hf : ∀ t, (f t).id = t.id := by intro; rfl) : JournalTxn Unit := do
  Journal.updateThreads (fun t ↦ t.id = thread.id)
    (fun t ↦ { f t with version := thread.version + 1, updatedAt := now }) hf
  Journal.insertThreadChange thread.principalId thread.id (thread.version + 1) changeType none now

/-- `WHERE principal_id = ? AND id = ?` -/
def findOwnedThread (principalId threadId : String) : StoreTxn (Option Thread) :=
  Txn.read fun db ↦ (db.journal.threads.find? threadId).filter fun t ↦ t.principalId = principalId

/-- What an archive request makes of the time a thread was archived. -/
def archivedAtAfter (archived : Option Bool) (archivedAt : Option Time) (now : Time) :
    Option Time :=
  match archived with
  | some true => some (archivedAt.getD now)
  | some false => none
  | none => archivedAt

/-- `update_thread` -/
def updateThread (principalId threadId : String) (title : Option String)
    (metadata : Option Json) (archived : Option Bool) : StoreTxn (Option Thread) := do
  let thread? ← findOwnedThread principalId threadId
  match thread?.filter fun t ↦ t.deletedAt.isNone with
  | none => pure none
  | some thread => do
    let now ← utcNow
    onJournal fun _ ↦ Journal.advanceThread thread (fun t ↦
      { t with title := squeeze (textOr title thread.title) 80,
               metadataJson := (metadata.map encodePayload).getD thread.metadataJson,
               archivedAt := archivedAtAfter archived thread.archivedAt now }) "thread.updated" now
    Txn.read fun db ↦ db.journal.threads.find? threadId

/-- `delete_thread`: a repetition returns the version the deletion left. -/
def deleteThread (principalId threadId : String) : StoreTxn (Option ℕ) := do
  let thread? ← findOwnedThread principalId threadId
  match thread? with
  | none => pure none
  | some thread =>
    if thread.deletedAt.isSome then pure (some thread.version)
    else do
      let busy ← Txn.read fun db ↦ threadBusy db principalId threadId
      Txn.require (busy = false) (.runResultConflict "thread has an unsettled run")
      let now ← utcNow
      onJournal fun _ ↦ Journal.advanceThread thread (fun t ↦
        { t with deletedAt := some now, archivedAt := some now }) "thread.deleted" now
      pure (some (thread.version + 1))

end ShejaneRuntime.Store
