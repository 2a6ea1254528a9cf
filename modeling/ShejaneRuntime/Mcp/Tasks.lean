import ShejaneRuntime.Mcp.Leases

/-!
# Tasks of the catalog

What each step of a task does to the leases, the opened supervisors and the
supervisors to stop, when nothing is canceled that only the task knows of.
-/

namespace ShejaneRuntime.Mcp

open Lib

/-! ## One step -/

/-- The leases, supervisors and stops of the tasks are those of the catalog. -/
def State.Safe (s : State) : Prop :=
  Kept s.catalog (s.tasks.flatMap Task.leased) (s.tasks.flatMap Task.pending)
    (s.tasks.flatMap Task.toStop)

variable {s s' : State}

/-- A task turns into another when, whatever the others hold, the catalog
changes along with what it holds. -/
theorem State.Safe.put (h : s.Safe) {j : ℕ} {task task' : Task} {c : Catalog}
    (hj : s.tasks[j]? = some task)
    (hkept : ∀ leased pending toStop, Kept s.catalog (task.leased ++ leased)
        (task.pending ++ pending) (task.toStop ++ toStop) →
      Kept c (task'.leased ++ leased) (task'.pending ++ pending) (task'.toStop ++ toStop)) :
    (s.put j c task').Safe := by
  -- the task is first taken out
  have hout : ∀ {α : Type} (held : Task → List α), held .ended = [] →
      (s.tasks.flatMap held).Perm (held task ++ (s.tasks.set j .ended).flatMap held) := by
    intro α held hnil
    have hperm := perm_flatMap_set .ended held hj
    rwa [hnil, List.nil_append] at hperm
  have hin : ∀ {α : Type} (held : Task → List α), held .ended = [] →
      (held task' ++ (s.tasks.set j .ended).flatMap held).Perm
        ((s.tasks.set j task').flatMap held) := by
    intro α held hnil
    have hlt := (List.getElem?_eq_some_iff.mp hj).1
    have hset : (s.tasks.set j task')[j]? = some task' := by
      rw [List.getElem?_set_self hlt]
    have hperm := perm_flatMap_set .ended held hset
    rw [hnil, List.nil_append, List.set_set] at hperm
    exact hperm.symm
  have hkept' := hkept _ _ _ (Kept.perm h (hout _ rfl) (hout _ rfl) (hout _ rfl))
  exact hkept'.perm (hin _ rfl) (hin _ rfl) (hin _ rfl)

/-- A new task. -/
theorem State.Safe.push {c : Catalog} {task : Task}
    (hkept : Kept c (task.leased ++ s.tasks.flatMap Task.leased)
      (task.pending ++ s.tasks.flatMap Task.pending)
      (task.toStop ++ s.tasks.flatMap Task.toStop)) : State.Safe ⟨c, s.tasks ++ [task]⟩ := by
  have hback : ∀ {α : Type} (held : Task → List α),
      (held task ++ s.tasks.flatMap held).Perm ((s.tasks ++ [task]).flatMap held) := by
    intro α held
    rw [List.flatMap_append, List.flatMap_singleton]
    exact List.perm_append_comm
  exact hkept.perm (hback _) (hback _) (hback _)

/-- Canceling the task loses nothing: it has no leases to give back and knows
of no supervisor alone. A context that is left this way gives its leases back. -/
def Task.cancelable : Task → Bool
  | .holding _ => true
  | task => task.leased.isEmpty && task.pending.isEmpty && task.toStop.isEmpty

/-- A step in which nothing is lost and no run's disabled servers count for
others: a call of `acquire_tools` that raises has taken no lease, a refresh
disables no configured server and raises with nothing to close, a canceled
task has nothing to give back or to stop, and no session ends itself. -/
def Action.careful (a : Action) (s : State) : Bool :=
  match a with
  | .acquire config disabled validates =>
    let (_, refs, ok) := s.catalog.leaseAll (config.enabled disabled)
    s.catalog.closed || (ok && validates) || refs.isEmpty
  | .load j config _ =>
    match s.tasks[j]? with
    | some (.refreshing disabled) =>
      let enabled := config.enabled disabled
      disabled.all (fun name ↦ !(config.map Prod.fst).contains name) &&
        (enabled.all (fun server ↦ server.2.isSome) ||
          (s.catalog.popAll [] (s.catalog.inactive enabled)).2.isEmpty)
    | _ => true
  | .cancel j => (s.tasks[j]?).all Task.cancelable
  | .toolCallFails _ => false
  | _ => true

def Careful (a : Action) (s : State) : Prop := a.careful s = true

theorem Careful.load {j : ℕ} {config : Config} {disabled : List String} {now : ℕ}
    (h : Careful (.load j config now) s) (hj : s.tasks[j]? = some (.refreshing disabled)) :
    (∀ name ∈ disabled, name ∉ config.map Prod.fst) ∧
      ((config.enabled disabled).all (fun server ↦ server.2.isSome) = true ∨
        (s.catalog.popAll [] (s.catalog.inactive (config.enabled disabled))).2 = []) := by
  simp only [Careful, Action.careful, hj, Bool.and_eq_true, Bool.or_eq_true,
    List.isEmpty_iff] at h
  refine ⟨?_, h.2⟩
  intro name hname
  have hnot := List.all_eq_true.mp h.1 name hname
  simpa using hnot

theorem Careful.cancel {j : ℕ} {task : Task} (h : Careful (.cancel j) s)
    (hj : s.tasks[j]? = some task) : task.cancelable = true := by
  simpa [Careful, Action.careful, hj] using h

theorem State.Safe.acquire {config : Config} {disabled : List String} {validates : Bool}
    (h : s.Safe) (hok : Careful (.acquire config disabled validates) s) :
    (s.acquire config disabled validates).Safe := by
  have hleased : Kept (s.catalog.leaseAll (config.enabled disabled)).1
      ((s.catalog.leaseAll (config.enabled disabled)).2.1 ++ s.tasks.flatMap Task.leased)
      (s.tasks.flatMap Task.pending) (s.tasks.flatMap Task.toStop) := Kept.leaseAll h
  unfold State.acquire
  split
  · exact .push h
  · rename_i hopen
    dsimp only
    split
    · exact .push hleased
    · rename_i hraises
      simp only [Careful, Action.careful, Bool.or_eq_true, List.isEmpty_iff] at hok
      rcases hok with (hclosed | hreturns) | hnone
      · exact absurd hclosed hopen
      · exact absurd hreturns hraises
      · rw [hnone] at hleased
        exact .push hleased

theorem State.Safe.load {j : ℕ} {config : Config} {disabled : List String} {now : ℕ}
    (h : s.Safe) (hj : s.tasks[j]? = some (.refreshing disabled))
    (hok : Careful (.load j config now) s) : (s.load j disabled config now).Safe := by
  unfold State.load
  split
  · exact h.put hj fun _ _ _ hkept ↦ hkept
  · have hpopped : ∀ leased pending toStop, Kept s.catalog leased pending toStop →
        Kept (s.catalog.popAll [] (s.catalog.inactive (config.enabled disabled))).1 leased pending
          (((s.catalog.popAll [] (s.catalog.inactive (config.enabled disabled))).2.map
            fun supervisor ↦ (supervisor, false)) ++ toStop) :=
      fun _ _ _ hkept ↦ hkept.popAllNone
    dsimp only
    split
    · rename_i hraises
      apply h.put hj
      intro leased pending toStop hkept
      have hclosed := hpopped _ _ _ hkept
      rcases (hok.load hj).2 with hall | hnone
      · rw [hall] at hraises
        cases hraises
      · rw [hnone] at hclosed
        exact hclosed
    · split
      · exact h.put hj fun _ _ _ hkept ↦ hpopped _ _ _ hkept
      · rename_i hstale
        apply h.put hj
        intro leased pending toStop hkept
        -- nothing that is to be loaded has been
        have hpending : ((s.catalog.popAll [] (s.catalog.inactive (config.enabled disabled))).1.stale
            now (config.enabled disabled)).flatMap (fun load ↦ load.opened.toList) = [] := by
          rw [List.flatMap_eq_nil_iff]
          intro load hload
          obtain ⟨server, _, hserver⟩ := List.mem_filterMap.mp hload
          dsimp only at hserver
          split at hserver
          · cases hserver
            rfl
          · split at hserver
            · cases hserver
              rfl
            · cases hserver
        have hkept' := hpopped _ _ _ hkept
        simp only [Task.pending, hpending]
        exact hkept'

theorem State.Safe.opened {j : ℕ} {toClose : List ℕ} {loads : List Load} {name : String}
    {result : Except String (List String)} (h : s.Safe)
    (hj : s.tasks[j]? = some (.opening toClose loads))
    (hstep : s.opened j toClose loads name result = some s') : s'.Safe := by
  unfold State.opened at hstep
  split at hstep
  · cases hstep
  · rename_i k hk
    obtain ⟨hlt, hfound, _⟩ := List.findIdx?_eq_some_iff_getElem.mp hk
    have hnone : loads[k].opened = none := by
      rw [Bool.and_eq_true] at hfound
      have hresult := Option.isNone_iff_eq_none.mp hfound.2
      simp [Load.opened, hresult]
    -- what the loads hold together changes by what this one holds
    have hperm : ∀ f : Load → Load,
        (loads.flatMap fun load ↦ load.opened.toList).Perm
            ((loads.set k ⟨"", "", none⟩).flatMap fun load ↦ load.opened.toList) ∧
          ((loads.modify k f).flatMap fun load ↦ load.opened.toList).Perm
            ((f loads[k]).opened.toList ++
              (loads.set k ⟨"", "", none⟩).flatMap fun load ↦ load.opened.toList) := by
      intro f
      have hout := perm_flatMap_set ⟨"", "", none⟩ (fun load : Load ↦ load.opened.toList)
        (List.getElem?_eq_getElem hlt)
      rw [hnone] at hout
      refine ⟨hout, ?_⟩
      rw [List.modify_eq_set_getElem? f k loads, List.getElem?_eq_getElem hlt]
      have hin := perm_flatMap_set ⟨"", "", none⟩ (fun load : Load ↦ load.opened.toList)
        (List.getElem?_set_self (a := f loads[k]) hlt)
      rw [List.set_set] at hin
      exact hin
    split at hstep
    · cases hstep
      apply h.put hj
      intro leased pending toStop hkept
      obtain ⟨hout, hin⟩ := hperm fun load ↦
        { load with result := some (.ok (s.catalog.supervisors, _)) }
      refine hkept.opened.perm (.refl _) ?_ (.refl _)
      exact ((hout.append_right pending).cons _).trans (hin.append_right pending).symm
    · cases hstep
      apply h.put hj
      intro leased pending toStop hkept
      obtain ⟨hout, hin⟩ := hperm fun load ↦ { load with result := some (.error _) }
      exact hkept.perm (.refl _) ((hout.append_right pending).trans (hin.append_right pending).symm)
        (.refl _)

theorem State.Safe.install {j now : ℕ} {toClose : List ℕ} {loads : List Load} {task : Task}
    (h : s.Safe) (hj : s.tasks[j]? = some task)
    (htask : task = .opening toClose loads ∨ task = .persisting toClose loads) :
    (s.install j now toClose loads).Safe := by
  have hkept : ∀ leased pending toStop, Kept s.catalog (task.leased ++ leased)
      (task.pending ++ pending) (task.toStop ++ toStop) →
      Kept s.catalog leased ((loads.flatMap fun load ↦ load.opened.toList) ++ pending)
        ((toClose.map fun supervisor ↦ (supervisor, false)) ++ toStop) := by
    rcases htask with rfl | rfl
    · exact fun _ _ _ hkept ↦ hkept
    · exact fun _ _ _ hkept ↦ hkept
  cases loads with
  | nil => exact h.put hj hkept
  | cons load rest =>
      apply h.put hj
      intro leased pending toStop hthere
      have hthere' := hkept leased pending toStop hthere
      rw [List.flatMap_cons, List.append_assoc] at hthere'
      exact hthere'.install

theorem State.Safe.release {j : ℕ} {refs : List ℕ} (h : s.Safe)
    (hj : s.tasks[j]? = some (.releasing refs)) : (s.release j refs).Safe := by
  -- the loop comes to its end, whatever the others hold
  have hends : ∀ {leased pending : List ℕ} {toStop : List (ℕ × Bool)},
      Kept s.catalog (refs ++ leased) pending toStop → ∃ c toClose,
        s.catalog.releaseAll [] refs = (c, toClose, true) ∧ Kept c leased pending
          ((toClose.map fun supervisor ↦ (supervisor, false)) ++ toStop) :=
    fun hkept ↦ Kept.releaseAll (show Kept s.catalog (refs ++ _) _
      ((([] : List ℕ).map fun supervisor ↦ (supervisor, false)) ++ _) from hkept)
  have hperm : (s.tasks.flatMap Task.leased).Perm
      (refs ++ (s.tasks.set j .ended).flatMap Task.leased) := by
    have hout := perm_flatMap_set .ended Task.leased hj
    exact hout
  obtain ⟨c, toClose, hreleased, _⟩ := hends (Kept.perm h hperm (.refl _) (.refl _))
  unfold State.release
  rw [hreleased]
  apply h.put hj
  intro leased pending toStop hkept
  obtain ⟨c', toClose', hreleased', hkept'⟩ := hends hkept
  rw [hreleased] at hreleased'
  cases hreleased'
  exact hkept'

theorem State.Safe.toolsChanged (h : s.Safe) (supervisor : ℕ) :
    State.Safe { s with catalog := s.toolsChanged supervisor } := by
  have hentry : ∀ {ref : ℕ} {entry : Entry}, (s.toolsChanged supervisor).entries[ref]? =
      some entry → ∃ old, s.catalog.entries[ref]? = some old ∧ entry.leases = old.leases ∧
        entry.retired = old.retired := by
    intro ref entry hentry
    simp only [State.toolsChanged, List.getElem?_mapIdx] at hentry
    obtain ⟨old, hold, rfl⟩ := Option.map_eq_some_iff.mp hentry
    refine ⟨old, hold, ?_⟩
    split
    · exact ⟨rfl, rfl⟩
    · exact ⟨rfl, rfl⟩
  refine Kept.relabel h (List.length_mapIdx ..) ?_ ?_ ?_ (fun _ href ↦ .inl href)
  · intro ref
    simp only [List.getElem?_mapIdx, Catalog.supervisorOf]
    cases s.catalog.entries[ref]? with
    | none => rfl
    | some old =>
        simp only [Option.map_some, Option.bind_some]
        split
        · rfl
        · rfl
  · intro ref entry hthere
    obtain ⟨old, hold, hleases, _⟩ := hentry hthere
    rw [hleases]
    exact h.counted ref old hold
  · intro ref href entry hthere
    obtain ⟨old, hold, _, hretired⟩ := hentry hthere
    rw [hretired]
    exact h.current ref href old hold

/-- A careful step keeps what the tasks and the catalog say of each other. -/
theorem State.Safe.after {a : Action} (h : s.Safe) (hok : Careful a s)
    (hstep : s.after a = some s') : s'.Safe := by
  cases a with
  | acquire config disabled validates =>
      simp only [State.after] at hstep
      split at hstep
      · cases hstep
        exact h.acquire hok
      · cases hstep
  | exit j =>
      simp only [State.after] at hstep
      split at hstep
      · rename_i refs hj
        cases hstep
        exact h.put hj fun _ _ _ hkept ↦ hkept
      · cases hstep
  | release j =>
      simp only [State.after] at hstep
      split at hstep
      · rename_i refs hj
        split at hstep
        · cases hstep
          exact h.release hj
        · cases hstep
      · cases hstep
  | refresh disabled =>
      cases hstep
      exact .push h
  | load j config now =>
      simp only [State.after] at hstep
      split at hstep
      · rename_i disabled hj
        split at hstep
        · cases hstep
          exact h.load hj hok
        · cases hstep
      · cases hstep
  | opened j name result =>
      simp only [State.after] at hstep
      split at hstep
      · rename_i toClose loads hj
        exact h.opened hj hstep
      · cases hstep
  | install j now =>
      simp only [State.after] at hstep
      split at hstep
      · rename_i toClose loads hj
        split at hstep
        · cases hstep
          exact h.install hj (.inl rfl)
        · cases hstep
      · rename_i toClose loads hj
        cases hstep
        exact h.install hj (.inr rfl)
      · cases hstep
  | invalidate name =>
      cases hstep
      exact .push h
  | retire j =>
      simp only [State.after] at hstep
      split at hstep
      · rename_i name hj
        split at hstep
        · cases hstep
          exact h.put hj fun _ _ _ hkept ↦ hkept.popAllNone
        · cases hstep
      · cases hstep
  | close =>
      cases hstep
      exact .push h
  | shut j =>
      simp only [State.after] at hstep
      split at hstep
      · rename_i hj
        split at hstep
        · cases hstep
          unfold State.shut
          split
          · exact h.put hj fun _ _ _ hkept ↦ hkept
          · exact h.put hj fun _ _ _ hkept ↦ hkept.shut
        · cases hstep
      · cases hstep
  | beginStop j =>
      simp only [State.after] at hstep
      split at hstep
      · rename_i supervisors byClose hj
        cases hstep
        exact h.put hj fun _ _ _ hkept ↦ hkept.begin
      · cases hstep
  | finishStop j =>
      simp only [State.after] at hstep
      split at hstep
      · rename_i supervisors byClose hj
        cases hstep
        exact h.put hj fun _ _ _ hkept ↦ hkept
      · cases hstep
  | cancel j =>
      obtain ⟨task, hj, hstep⟩ := Option.bind_eq_some_iff.mp hstep
      have hcancelable := hok.cancel hj
      cases task with
      | ended => cases hstep
      | holding refs =>
          cases hstep
          exact h.put hj fun _ _ _ hkept ↦ hkept
      | _ =>
          simp only [Task.cancelable, Bool.and_eq_true, List.isEmpty_iff] at hcancelable
          obtain ⟨⟨hleased, hpending⟩, htoStop⟩ := hcancelable
          cases hstep
          apply h.put hj
          intro leased pending toStop hkept
          rw [hleased, hpending, htoStop] at hkept
          exact hkept
  | toolsChanged supervisor =>
      cases hstep
      exact h.toolsChanged supervisor
  | toolCallFails supervisor => cases hok

end ShejaneRuntime.Mcp
