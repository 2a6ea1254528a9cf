import Mathlib.Data.Int.Notation
import Mathlib.Data.List.Basic
import Mathlib.Logic.Function.Basic
import ShejaneRuntime.Lib.Transition

/-!
# Leases of runtime assets

A snapshot of the plugin catalog counts a lease of every runtime asset it
resolved until it is left. The counts change under a thread lock, and the
snapshots and the clean-ups take turns at a maintenance lock, which a
canceled clean-up gives back while its thread still runs. A step is what
happens between two await points, or one removal of a thread.
-/

namespace ShejaneRuntime.Plugins.Assets

open Lib

/-- `_active_runtime_asset_leases` -/
abbrev Counts := String → Option ℤ

/-- The loop of `_load_leased_snapshot`. -/
def Counts.lease (counts : Counts) : List String → Counts
  | [] => counts
  | digest :: rest =>
    Counts.lease (Function.update counts digest (some ((counts digest).getD 0 + 1))) rest

/-- `_release_runtime_assets`: the counts, and whether no key was missing. -/
def Counts.release (counts : Counts) : List String → Counts × Bool
  | [] => (counts, true)
  | digest :: rest =>
    match counts digest with
    | none => (counts, false)
    | some n =>
      let remaining := n - 1
      Counts.release
        (Function.update counts digest (if remaining ≠ 0 then some remaining else none)) rest

/-- `self._active_runtime_asset_leases.get(digest, 0)` is not zero. -/
def Counts.inUse (counts : Counts) (digest : String) : Bool := (counts digest).getD 0 ≠ 0

/-! ## Snapshots -/

/-- How far an `acquire_snapshot` has come. From `loading` to `loaded` it holds
the maintenance lock. -/
inductive Snapshot.Phase where
  | waiting
  | loading (attempted : List String) (canceled : Bool)
  | ensuring (attempted : List String) (missing : String)
  | loaded (assets : List String) (canceled : Bool)
  | entered (assets : List String)
  | releasing (assets : List String)
  | over
  deriving DecidableEq

structure Snapshot where
  phase : Snapshot.Phase
  closed : Bool

/-- The digests of the lease that the snapshot has and has not given back. -/
def Snapshot.assets (p : Snapshot) : List String :=
  match p.phase with
  | .loaded assets _ | .entered assets | .releasing assets => assets
  | _ => []

/-- What loading a snapshot comes to. -/
inductive Loaded where
  | leased (assets : List String)
  | required (digest : String)
  | failed

/-! ## Clean-ups -/

inductive Scope where
  | history | all
  deriving DecidableEq

/-- How far `cleanup_runtime_asset_storage` has come. `targets` is what it asks
the catalog to remove, `none` for everything. -/
inductive Cleanup.Phase where
  | begun
  | referencesRead (protected_ : List String)
  | storageRead (protected_ : List String) (targets : Option (List String))
  | locked (protected_ : List String) (targets : Option (List String))
  | removing (protected_ : List String) (targets : List String)
  | over
  deriving DecidableEq

structure Cleanup where
  scope : Scope
  phase : Cleanup.Phase

/-! ## The catalog -/

/-- An installation and the runtime assets in the manifest of its version. -/
structure InstalledAssets where
  retired : Bool
  digests : List String

inductive Holder where
  | snapshot (i : ℕ)
  | cleanup (j : ℕ)
  deriving DecidableEq

structure State where
  counts : Counts
  packages : List String
  installations : List InstalledAssets
  bindings : List (List String)
  snapshots : List Snapshot
  cleanups : List Cleanup
  maintenanceLock : Option Holder
  leaseLock : Option ℕ

def State.initial : State := ⟨fun _ ↦ none, [], [], [], [], [], none, none⟩

/-- A non-retired installation refers to the asset. -/
def State.Installed (s : State) (digest : String) : Prop :=
  ∃ i ∈ s.installations, i.retired = false ∧ digest ∈ i.digests

/-- `referenced_runtime_asset_digests` -/
def State.referencedRuntimeAssetDigests (s : State) : List String :=
  (s.installations.filter fun i ↦ !i.retired).flatMap InstalledAssets.digests ++ s.bindings.flatten

def State.setSnapshot (s : State) (i : ℕ) (p : Snapshot) : State :=
  { s with snapshots := s.snapshots.set i p }

def State.setCleanup (s : State) (j : ℕ) (c : Cleanup) : State :=
  { s with cleanups := s.cleanups.set j c }

def State.unlock (s : State) (holder : Holder) : State :=
  { s with maintenanceLock := if s.maintenanceLock = some holder then none else s.maintenanceLock }

inductive Action where
  -- the installations
  | installAsset (digest : String)
  | install (digests : List String)
  | retire (k : ℕ)
  | bindRun (digests : List String)
  -- a snapshot
  | acquire
  | lockSnapshot (i : ℕ)
  | load (i : ℕ) (loaded : Loaded)
  | take (i : ℕ)
  | quarantine (i : ℕ)
  | ensured (i : ℕ) (installed : Bool)
  | cancelSnapshot (i : ℕ)
  | exit (i : ℕ)
  | release (i : ℕ)
  -- a clean-up
  | cleanUp (scope : Scope)
  | readReferences (j : ℕ)
  | readStorage (j : ℕ)
  | lockCleanup (j : ℕ)
  | check (j : ℕ)
  | removeNext (j : ℕ) (removed : Bool)
  | finish (j : ℕ)
  | cancelCleanup (j : ℕ) (started : Bool)
  -- one asset of an installed plugin
  | removeAsset (digest : String)

/-- The step of a snapshot. -/
def Snapshot.step (p : Snapshot) (s : State) (i : ℕ) : Action → Option State
  | .lockSnapshot _ =>
    if p.phase = .waiting ∧ s.maintenanceLock = none then
      some { s.setSnapshot i { p with phase := .loading [] false } with
        maintenanceLock := some (.snapshot i) }
    else none
  | .load _ result =>
    match p.phase, s.leaseLock with
    | .loading attempted canceled, none =>
      match result with
      | .leased assets =>
        -- the handles of a lease are keyed by their digests
        if assets.Nodup ∧ ∀ digest ∈ assets, digest ∈ s.packages then
          some { s.setSnapshot i { p with phase := .loaded assets canceled } with
            counts := s.counts.lease assets }
        else none
      | .required digest =>
        if canceled = true ∨ digest ∈ attempted then
          some ((s.setSnapshot i { p with phase := .over }).unlock (.snapshot i))
        else
          some (s.setSnapshot i { p with phase := .ensuring (attempted ++ [digest]) digest })
      | .failed => some ((s.setSnapshot i { p with phase := .over }).unlock (.snapshot i))
    | _, _ => none
  | .take _ =>
    match p.phase, s.leaseLock with
    | .loaded assets true, none =>
      some ({ s.setSnapshot i { p with phase := .over } with
        counts := (s.counts.release assets).1 }.unlock (.snapshot i))
    | .loaded assets false, _ =>
      some ((s.setSnapshot i { p with phase := .entered assets }).unlock (.snapshot i))
    | _, _ => none
  | .quarantine _ =>
    match p.phase with
    | .ensuring _ missing => some { s with packages := s.packages.filter fun d ↦ d ≠ missing }
    | _ => none
  | .ensured _ installed =>
    match p.phase with
    | .ensuring attempted missing =>
      if installed then
        some { s.setSnapshot i { p with phase := .loading attempted false } with
          packages := missing :: s.packages }
      else some ((s.setSnapshot i { p with phase := .over }).unlock (.snapshot i))
    | _ => none
  | .cancelSnapshot _ =>
    match p.phase with
    | .waiting => some (s.setSnapshot i { p with phase := .over })
    -- the load is shielded: it ends before the cancellation is raised
    | .loading attempted _ => some (s.setSnapshot i { p with phase := .loading attempted true })
    | .loaded assets _ => some (s.setSnapshot i { p with phase := .loaded assets true })
    | .ensuring _ _ => some ((s.setSnapshot i { p with phase := .over }).unlock (.snapshot i))
    | .entered assets => some (s.setSnapshot i { phase := .releasing assets, closed := true })
    | .releasing _ | .over => some s
  | .exit _ =>
    match p.phase with
    | .entered assets => some (s.setSnapshot i { phase := .releasing assets, closed := true })
    -- the context manager is exhausted
    | .releasing _ | .over => some s
    | _ => none
  | .release _ =>
    match p.phase, s.leaseLock with
    | .releasing assets, none =>
      some { s.setSnapshot i { p with phase := .over } with
        counts := (s.counts.release assets).1 }
    | _, _ => none
  | _ => none

/-- The step of a clean-up. -/
def Cleanup.step (c : Cleanup) (s : State) (j : ℕ) : Action → Option State
  | .readReferences _ =>
    if c.phase = .begun then
      some (s.setCleanup j { c with phase := .referencesRead s.referencedRuntimeAssetDigests })
    else none
  | .readStorage _ =>
    match c.phase, s.maintenanceLock with
    | .referencesRead protected_, none =>
      let targets := match c.scope with
        | .all => none
        | .history => some (s.packages.filter fun d ↦ !protected_.contains d)
      some (s.setCleanup j { c with phase := .storageRead protected_ targets })
    | _, _ => none
  | .lockCleanup _ =>
    match c.phase, s.maintenanceLock with
    | .storageRead protected_ targets, none =>
      some { s.setCleanup j { c with phase := .locked protected_ targets } with
        maintenanceLock := some (.cleanup j) }
    | _, _ => none
  | .check _ =>
    match c.phase, s.leaseLock with
    | .locked protected_ targets, none =>
      let digests := targets.getD s.packages
      if digests.any s.counts.inUse then
        some ((s.setCleanup j { c with phase := .over }).unlock (.cleanup j))
      else
        some { s.setCleanup j { c with phase := .removing protected_ digests } with
          leaseLock := some j }
    | _, _ => none
  | .removeNext _ removed =>
    match c.phase with
    | .removing protected_ (digest :: rest) =>
      if removed then
        some { s.setCleanup j { c with phase := .removing protected_ rest } with
          packages := s.packages.filter fun d ↦ d ≠ digest }
      else
        some { (s.setCleanup j { c with phase := .over }).unlock (.cleanup j) with
          leaseLock := none }
    | _ => none
  | .finish _ =>
    match c.phase with
    | .removing _ [] =>
      some { (s.setCleanup j { c with phase := .over }).unlock (.cleanup j) with
        leaseLock := none }
    | _ => none
  | .cancelCleanup _ started =>
    match c.phase with
    | .removing _ _ => some (s.unlock (.cleanup j))
    | .locked _ _ =>
      -- a thread that has started runs on without the maintenance lock
      some ((if started then s else s.setCleanup j { c with phase := .over }).unlock (.cleanup j))
    | _ => some (s.setCleanup j { c with phase := .over })
  | _ => none

/-- One step, or `none` where it is not the turn of the one it names. -/
def State.after (s : State) (a : Action) : Option State :=
  match a with
  | .installAsset digest => some { s with packages := digest :: s.packages }
  | .install digests => some { s with installations := s.installations ++ [⟨false, digests⟩] }
  | .retire k => some { s with
      installations := s.installations.modify k fun i ↦ { i with retired := true } }
  | .bindRun digests => some { s with bindings := s.bindings ++ [digests] }
  | .acquire => some { s with snapshots := s.snapshots ++ [⟨.waiting, false⟩] }
  | .cleanUp scope => some { s with cleanups := s.cleanups ++ [⟨scope, .begun⟩] }
  | .removeAsset digest =>
    if s.leaseLock = none then
      if s.counts.inUse digest then some s
      else some { s with packages := s.packages.filter fun d ↦ d ≠ digest }
    else none
  | .lockSnapshot i | .load i _ | .take i | .quarantine i | .ensured i _ | .cancelSnapshot i
  | .exit i | .release i => (s.snapshots[i]?).bind fun p ↦ p.step s i a
  | .readReferences j | .readStorage j | .lockCleanup j | .check j | .removeNext j _ | .finish j
  | .cancelCleanup j _ => (s.cleanups[j]?).bind fun c ↦ c.step s j a

/-- Snapshots, clean-ups and installations in any interleaving. -/
def catalog : System State Action where
  initial s := s = State.initial
  step a s s' := s.after a = some s'

end ShejaneRuntime.Plugins.Assets
