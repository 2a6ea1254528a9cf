import ShejaneRuntime.Store.Session

/-!
# Authorized workspaces

A run may name a workspace folder only when its principal was granted that
path and the folder is still what it was.
-/

namespace ShejaneRuntime.Store

open Lib

def workspaceUnauthorized (db : Database) (principalId : String) (path : Option String) :
    Option String :=
  path.bind fun p ↦
    if db.workspaces.any fun w ↦ w.principalId = principalId && w.path = p then none
    else some "workspace is not authorized"

def workspaceOwnerError (principalId : String) (path : Option String) :
    StoreTxn (Option String) :=
  Txn.read fun db ↦ workspaceUnauthorized db principalId path

/-- Fail with the first of two admission errors. -/
def refuseWorkspace (first second : Option String) : StoreTxn Unit :=
  match first.or second with
  | some error => Txn.fail (.workspaceAdmission error)
  | none => pure ()

/-- The check of the wait commands: owner first, then the folder. -/
def requireWorkspace (principalId : String) (path : Option String) : StoreTxn Unit := do
  let ownerError ← workspaceOwnerError principalId path
  let pathError ← workspacePathError path
  refuseWorkspace ownerError pathError

end ShejaneRuntime.Store
