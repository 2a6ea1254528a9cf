import Mathlib.Data.List.Perm.Lattice
import ShejaneRuntime.Lib.Holdings
import ShejaneRuntime.Mcp.Catalog

/-!
# Leases of the catalog

The lease counts are those of the contexts, a supervisor is stopped before
the close only when nothing leases its entry, and no supervisor is lost, while
no task is canceled with something only it knows of.
-/

namespace ShejaneRuntime.Mcp

open Lib

/-- The supervisor of an entry. -/
def Catalog.supervisorOf (c : Catalog) (ref : ℕ) : Option ℕ :=
  (c.entries[ref]?).bind Entry.supervisor

/-- The leases that a task has taken and will give back. -/
def Task.leased : Task → List ℕ
  | .holding refs | .releasing refs => refs
  | _ => []

/-- The supervisors that a refresh has opened and not yet put into an entry. -/
def Task.pending : Task → List ℕ
  | .opening _ loads | .persisting _ loads => loads.flatMap fun load ↦ load.opened.toList
  | _ => []

/-- The supervisors that a task will stop, and whether for the close. -/
def Task.toStop : Task → List (ℕ × Bool)
  | .opening toClose _ | .persisting toClose _ => toClose.map fun supervisor ↦ (supervisor, false)
  | .stopping supervisors byClose false => supervisors.map fun supervisor ↦ (supervisor, byClose)
  | _ => []

/-- The supervisor of an entry that nothing leases nor will. -/
def Catalog.Spare (c : Catalog) (leased : List ℕ) (supervisor : ℕ) : Prop :=
  ∃ ref, c.supervisorOf ref = some supervisor ∧ ref ∉ c.refs ∧ ref ∉ leased

/-- An entry of the table or a retired one has the supervisor. -/
def Catalog.Held (c : Catalog) (supervisor : ℕ) : Prop :=
  ∃ ref, c.supervisorOf ref = some supervisor ∧ (ref ∈ c.refs ∨ ref ∈ c.retired)

/-- A catalog as to the leases, opened supervisors and supervisors to stop
that its tasks hold. -/
structure Kept (c : Catalog) (leased pending : List ℕ) (toStop : List (ℕ × Bool)) : Prop where
  counted : ∀ ref entry, c.entries[ref]? = some entry → entry.leases = (leased.count ref : ℤ)
  leasedMade : ∀ ref ∈ leased, ref < c.entries.length
  tableMade : ∀ ref ∈ c.refs, ref < c.entries.length
  tableNodup : c.refs.Nodup
  current : ∀ ref ∈ c.refs, ∀ entry, c.entries[ref]? = some entry → entry.retired = false
  owned : ∀ ref ref' supervisor, c.supervisorOf ref = some supervisor →
    c.supervisorOf ref' = some supervisor → ref = ref'
  made : ∀ ref supervisor, c.supervisorOf ref = some supervisor →
    supervisor < c.supervisors ∧ supervisor ∉ pending
  pendingMade : ∀ supervisor ∈ pending, supervisor < c.supervisors
  pendingNodup : pending.Nodup
  spare : ∀ supervisor, (supervisor, false) ∈ toStop ++ c.stopped → c.Spare leased supervisor
  accounted : ∀ supervisor < c.supervisors, supervisor ∈ pending ∨
    supervisor ∈ (toStop ++ c.stopped).map Prod.fst ∨ c.Held supervisor

section Kept

variable {c : Catalog} {leased leased' pending pending' : List ℕ}
  {toStop toStop' : List (ℕ × Bool)}

theorem Kept.perm (h : Kept c leased pending toStop) (hleased : leased.Perm leased')
    (hpending : pending.Perm pending') (htoStop : toStop.Perm toStop') :
    Kept c leased' pending' toStop' where
  counted ref entry hentry := by
    rw [← hleased.count_eq]
    exact h.counted ref entry hentry
  leasedMade ref href := h.leasedMade ref (hleased.mem_iff.mpr href)
  tableMade := h.tableMade
  tableNodup := h.tableNodup
  current := h.current
  owned := h.owned
  made ref supervisor href := by
    rw [← hpending.mem_iff]
    exact h.made ref supervisor href
  pendingMade supervisor hmem := h.pendingMade supervisor (hpending.mem_iff.mpr hmem)
  pendingNodup := hpending.nodup h.pendingNodup
  spare supervisor hmem := by
    have hmem' := (htoStop.append_right c.stopped).mem_iff.mpr hmem
    obtain ⟨ref, href, htable, hnot⟩ := h.spare supervisor hmem'
    exact ⟨ref, href, htable, fun hin ↦ hnot (hleased.mem_iff.mpr hin)⟩
  accounted supervisor hlt := by
    rw [← hpending.mem_iff, ← ((htoStop.append_right c.stopped).map Prod.fst).mem_iff]
    exact h.accounted supervisor hlt

/-- Entries may change beside their supervisors, when the counts are those of
the new leases, which are old ones or of the table. -/
theorem Kept.relabel (h : Kept c leased pending toStop) {entries : List Entry}
    (hlength : entries.length = c.entries.length)
    (hsupervisor : ∀ ref, (entries[ref]?).bind Entry.supervisor = c.supervisorOf ref)
    (hcounted : ∀ ref entry, entries[ref]? = some entry →
      entry.leases = (leased'.count ref : ℤ))
    (hcurrent : ∀ ref ∈ c.refs, ∀ entry, entries[ref]? = some entry → entry.retired = false)
    (hleased : ∀ ref ∈ leased', ref ∈ leased ∨ ref ∈ c.refs) :
    Kept { c with entries := entries } leased' pending toStop where
  counted := hcounted
  leasedMade ref href := by
    rw [hlength]
    exact (hleased ref href).elim (h.leasedMade ref) (h.tableMade ref)
  tableMade ref href := by
    rw [hlength]
    exact h.tableMade ref href
  tableNodup := h.tableNodup
  current := hcurrent
  owned ref ref' supervisor href href' :=
    h.owned ref ref' supervisor ((hsupervisor ref).symm.trans href)
      ((hsupervisor ref').symm.trans href')
  made ref supervisor href := h.made ref supervisor ((hsupervisor ref).symm.trans href)
  pendingMade := h.pendingMade
  pendingNodup := h.pendingNodup
  spare supervisor hmem := by
    obtain ⟨ref, href, htable, hnot⟩ := h.spare supervisor hmem
    refine ⟨ref, (hsupervisor ref).trans href, htable, ?_⟩
    intro hin
    rcases hleased ref hin with hold | hold
    · exact hnot hold
    · exact htable hold
  accounted supervisor hlt := by
    rcases h.accounted supervisor hlt with hmem | hmem | ⟨ref, href, hheld⟩
    · exact .inl hmem
    · exact .inr (.inl hmem)
    · exact .inr (.inr ⟨ref, (hsupervisor ref).trans href, hheld⟩)

/-! ## Leases -/

theorem getElem?_modify_entry (entries : List Entry) (ref ref' : ℕ) (f : Entry → Entry) :
    (entries.modify ref f)[ref']? = if ref = ref' then (entries[ref']?).map f else entries[ref']? := by
  rw [List.getElem?_modify]
  split
  · simp_all
  · simp

theorem supervisor_modify (entries : List Entry) (ref ref' : ℕ) {f : Entry → Entry}
    (hf : ∀ entry, (f entry).supervisor = entry.supervisor) :
    ((entries.modify ref f)[ref']?).bind Entry.supervisor =
      (entries[ref']?).bind Entry.supervisor := by
  rw [getElem?_modify_entry]
  split
  · cases entries[ref']? with
    | none => rfl
    | some entry => exact hf entry
  · rfl

/-- An entry of modified ones is what was there, or that modified. -/
theorem of_modify {entries : List Entry} {ref ref' : ℕ} {f : Entry → Entry} {entry : Entry}
    (h : (entries.modify ref f)[ref']? = some entry) : ∃ old, entries[ref']? = some old ∧
      ((ref = ref' ∧ entry = f old) ∨ (ref ≠ ref' ∧ entry = old)) := by
  rw [getElem?_modify_entry] at h
  split at h
  · rename_i hsame
    obtain ⟨old, hold, rfl⟩ := Option.map_eq_some_iff.mp h
    exact ⟨old, hold, .inl ⟨hsame, rfl⟩⟩
  · rename_i hne
    exact ⟨entry, h, .inr ⟨hne, rfl⟩⟩

theorem Kept.lease (h : Kept c leased pending toStop) {ref : ℕ} (href : ref ∈ c.refs) :
    Kept (c.modify ref fun entry ↦ { entry with leases := entry.leases + 1 }) (ref :: leased)
      pending toStop := by
  refine h.relabel (List.length_modify _ _ _) (fun ref' ↦ supervisor_modify _ _ _ fun _ ↦ rfl)
    ?_ ?_ ?_
  · intro ref' entry hentry
    obtain ⟨old, hold, ⟨rfl, rfl⟩ | ⟨hne, rfl⟩⟩ := of_modify hentry
    · rw [List.count_cons_self, h.counted ref old hold]
      rfl
    · rw [List.count_cons_of_ne hne]
      exact h.counted ref' entry hold
  · intro ref' href' entry hentry
    obtain ⟨old, hold, ⟨rfl, rfl⟩ | ⟨hne, rfl⟩⟩ := of_modify hentry
    · exact h.current ref href' old hold
    · exact h.current ref' href' entry hold
  · intro ref' href'
    rcases List.mem_cons.mp href' with rfl | href'
    · exact .inr href
    · exact .inl href'

theorem mem_refs_of_lookup {name : String} {ref : ℕ} (h : c.table.lookup name = some ref) :
    (name, ref) ∈ c.table := by
  obtain ⟨l₁, l₂, hsplit, _⟩ := List.lookup_eq_some_iff.mp h
  rw [hsplit]
  simp

theorem get_eq_some {name : String} {ref : ℕ} {entry : Entry} (h : c.get name = some (ref, entry)) :
    (name, ref) ∈ c.table ∧ c.entries[ref]? = some entry := by
  obtain ⟨ref', hlookup, hentry⟩ := Option.bind_eq_some_iff.mp h
  obtain ⟨entry', hentry', hpair⟩ := Option.map_eq_some_iff.mp hentry
  cases hpair
  exact ⟨mem_refs_of_lookup hlookup, hentry'⟩

theorem mem_refs_of_leasable {name fingerprint : String} {ref : ℕ}
    (h : c.leasable name fingerprint = some ref) : (name, ref) ∈ c.table := by
  unfold Catalog.leasable at h
  split at h
  · rename_i ref' entry hget
    split at h
    · cases h
      exact (get_eq_some hget).1
    · cases h
  · cases h

theorem mem_refs_of_mem {name : String} {ref : ℕ} (h : (name, ref) ∈ c.table) : ref ∈ c.refs :=
  List.mem_map_of_mem h

/-- The loop that takes leases; it leaves the table alone. -/
theorem Kept.leaseAll {config : Config} (h : Kept c leased pending toStop) :
    Kept (c.leaseAll config).1 ((c.leaseAll config).2.1 ++ leased) pending toStop := by
  induction config generalizing c leased with
  | nil => exact h
  | cons server rest ih =>
      obtain ⟨name, fingerprint⟩ := server
      cases fingerprint with
      | none => exact h
      | some fingerprint =>
          simp only [Catalog.leaseAll]
          split
          · exact ih h
          · rename_i ref hleasable
            have hlease := h.lease (mem_refs_of_mem (mem_refs_of_leasable hleasable))
            exact (ih hlease).perm List.perm_middle (.refl _) (.refl _)

/-- Giving one lease back. -/
theorem Kept.unlease {ref : ℕ} (h : Kept c (ref :: leased) pending toStop) :
    Kept (c.modify ref fun entry ↦ { entry with leases := entry.leases - 1 }) leased
      pending toStop := by
  refine h.relabel (List.length_modify _ _ _) (fun ref' ↦ supervisor_modify _ _ _ fun _ ↦ rfl)
    ?_ ?_ (fun ref' href' ↦ .inl (List.mem_cons_of_mem ref href'))
  · intro ref' entry hentry
    obtain ⟨old, hold, ⟨rfl, rfl⟩ | ⟨hne, rfl⟩⟩ := of_modify hentry
    · have hcount := h.counted ref old hold
      rw [List.count_cons_self] at hcount
      dsimp only
      omega
    · have hcount := h.counted ref' entry hold
      rwa [List.count_cons_of_ne hne] at hcount
  · intro ref' href' entry hentry
    obtain ⟨old, hold, ⟨rfl, rfl⟩ | ⟨hne, rfl⟩⟩ := of_modify hentry
    · exact h.current ref href' old hold
    · exact h.current ref' href' entry hold

/-- Supervisors to stop may be added, spare ones unless it is for the close. -/
theorem Kept.stop (h : Kept c leased pending toStop) {more : List (ℕ × Bool)}
    (hspare : ∀ supervisor, (supervisor, false) ∈ more → c.Spare leased supervisor) :
    Kept c leased pending (more ++ toStop) :=
  { h with
    spare := by
      intro supervisor hmem
      rw [List.append_assoc] at hmem
      rcases List.mem_append.mp hmem with hmem | hmem
      · exact hspare supervisor hmem
      · exact h.spare supervisor hmem
    accounted := by
      intro supervisor hlt
      rcases h.accounted supervisor hlt with hmem | hmem | hheld
      · exact .inl hmem
      · right
        left
        rw [List.append_assoc, List.map_append]
        exact List.mem_append_right _ hmem
      · exact .inr (.inr hheld) }

theorem Kept.stopSpare (h : Kept c leased pending toStop) {supervisors : List ℕ}
    (hspare : ∀ supervisor ∈ supervisors, c.Spare leased supervisor) :
    Kept c leased pending
      ((supervisors.map fun supervisor ↦ (supervisor, false)) ++ toStop) := by
  apply h.stop
  intro supervisor hmem
  obtain ⟨supervisor', hmem', hpair⟩ := List.mem_map.mp hmem
  cases hpair
  exact hspare supervisor hmem'

/-- The table may shrink, and entries may be retired or no longer listed so,
when the supervisor of each is still held or to be stopped. -/
theorem Kept.retable (h : Kept c leased pending toStop) {table : List (String × ℕ)}
    {retired : List ℕ} {closed : Bool} (hsub : (table.map Prod.snd).Sublist c.refs)
    (hheld : ∀ ref supervisor, c.supervisorOf ref = some supervisor →
      ref ∈ c.refs ∨ ref ∈ c.retired → supervisor ∈ toStop.map Prod.fst ∨
        ref ∈ table.map Prod.snd ∨ ref ∈ retired) :
    Kept { c with table := table, retired := retired, closed := closed } leased pending toStop where
  counted := h.counted
  leasedMade := h.leasedMade
  tableMade ref href := h.tableMade ref (hsub.subset href)
  tableNodup := hsub.nodup h.tableNodup
  current ref href := h.current ref (hsub.subset href)
  owned := h.owned
  made := h.made
  pendingMade := h.pendingMade
  pendingNodup := h.pendingNodup
  spare supervisor hmem := by
    obtain ⟨ref, href, htable, hnot⟩ := h.spare supervisor hmem
    exact ⟨ref, href, fun hin ↦ htable (hsub.subset hin), hnot⟩
  accounted supervisor hlt := by
    rcases h.accounted supervisor hlt with hmem | hmem | ⟨ref, href, hin⟩
    · exact .inl hmem
    · exact .inr (.inl hmem)
    · rcases hheld ref supervisor href hin with hstop | hstill
      · right
        left
        rw [List.map_append]
        exact List.mem_append_left _ hstop
      · exact .inr (.inr ⟨ref, href, hstill⟩)

/-- The loop that gives leases back comes to its end. -/
theorem Kept.releaseAll {refs toClose : List ℕ} {toStop : List (ℕ × Bool)}
    (h : Kept c (refs ++ leased) pending
      ((toClose.map fun supervisor ↦ (supervisor, false)) ++ toStop)) :
    ∃ c' toClose', c.releaseAll toClose refs = (c', toClose', true) ∧
      Kept c' leased pending ((toClose'.map fun supervisor ↦ (supervisor, false)) ++ toStop) := by
  induction refs generalizing c toClose with
  | nil => exact ⟨c, toClose, rfl, h⟩
  | cons ref rest ih =>
      rw [List.cons_append] at h
      have hunlease := h.unlease
      have hmade := h.leasedMade ref (by simp)
      rw [← List.length_modify (fun entry : Entry ↦ { entry with leases := entry.leases - 1 })
        c.entries ref] at hmade
      obtain ⟨entry, hentry⟩ : ∃ entry, (c.modify ref fun entry ↦
          { entry with leases := entry.leases - 1 }).entries[ref]? = some entry :=
        ⟨_, List.getElem?_eq_getElem hmade⟩
      have hcount := hunlease.counted ref entry hentry
      have hnonneg : ¬entry.leases < 0 := by omega
      simp only [Catalog.releaseAll, hentry, if_neg hnonneg]
      split
      · rename_i hlast
        rw [Bool.and_eq_true] at hlast
        -- nothing leases the entry any more, and the table has lost it
        have hspare : ∀ supervisor ∈ entry.supervisor.toList, (c.modify ref fun entry ↦
            { entry with leases := entry.leases - 1 }).Spare (rest ++ leased) supervisor := by
          intro supervisor hmem
          refine ⟨ref, ?_, ?_, ?_⟩
          · simp only [Catalog.supervisorOf, hentry, Option.bind_some]
            exact Option.mem_toList.mp hmem
          · intro hin
            have hcurrent := hunlease.current ref hin entry hentry
            rw [hlast.1] at hcurrent
            cases hcurrent
          · have hzero : entry.leases = 0 := of_decide_eq_true hlast.2
            rw [← List.count_eq_zero]
            omega
        have hstop := (hunlease.stopSpare hspare).perm (.refl _) (.refl _)
          (List.perm_append_comm_assoc _ _ _)
        rw [← List.append_assoc, ← List.map_append] at hstop
        refine ih (hstop.retable (List.Sublist.refl _) ?_)
        intro ref' supervisor href' hin
        by_cases hsame : ref' = ref
        · subst hsame
          left
          simp only [Catalog.supervisorOf, hentry, Option.bind_some] at href'
          simp [href']
        · right
          exact hin.imp id fun hin ↦ (List.mem_erase_of_ne hsame).mpr hin
      · exact ih hunlease

/-! ## Retirement -/

/-- What a name stands for is retired. -/
theorem Kept.pop {name : String} {toClose : List ℕ} {toStop : List (ℕ × Bool)}
    (h : Kept c leased pending
      ((toClose.map fun supervisor ↦ (supervisor, false)) ++ toStop)) :
    Kept (c.pop name toClose).1 leased pending
      (((c.pop name toClose).2.map fun supervisor ↦ (supervisor, false)) ++ toStop) := by
  unfold Catalog.pop
  split
  · exact h
  · rename_i ref hlookup
    have hmem := mem_refs_of_lookup hlookup
    obtain ⟨entry, hentry⟩ : ∃ entry, c.entries[ref]? = some entry :=
      ⟨_, List.getElem?_eq_getElem (h.tableMade ref (mem_refs_of_mem hmem))⟩
    have hsub : ((c.table.erase (name, ref)).map Prod.snd).Sublist c.refs :=
      List.Sublist.map Prod.snd List.erase_sublist
    have hgone : ref ∉ (c.table.erase (name, ref)).map Prod.snd := by
      have hnodup : ((name, ref) :: c.table.erase (name, ref)).map Prod.snd |>.Nodup :=
        ((List.perm_cons_erase hmem).map Prod.snd).nodup_iff.mp h.tableNodup
      exact (List.nodup_cons.mp hnodup).1
    have hstays : ∀ ref' ∈ c.refs, ref' ≠ ref → ref' ∈ (c.table.erase (name, ref)).map Prod.snd := by
      intro ref' href' hne
      obtain ⟨pair, hpair, rfl⟩ := List.mem_map.mp href'
      exact List.mem_map_of_mem ((List.mem_erase_of_ne (fun heq ↦ hne (by rw [heq]))).mpr hpair)
    -- first the entry moves to the retired ones
    have hmoved : Kept { c with
        table := c.table.erase (name, ref), retired := c.retired ++ [ref], closed := c.closed }
        leased pending ((toClose.map fun supervisor ↦ (supervisor, false)) ++ toStop) := by
      refine h.retable hsub ?_
      intro ref' supervisor _ hin
      right
      by_cases hsame : ref' = ref
      · right
        simp [hsame]
      · exact hin.imp (fun hin ↦ hstays ref' hin hsame) fun hin ↦ List.mem_append_left _ hin
    have hflagged : Kept { c with
        table := c.table.erase (name, ref), retired := c.retired ++ [ref],
        entries := c.entries.modify ref fun entry ↦ { entry with retired := true } }
        leased pending ((toClose.map fun supervisor ↦ (supervisor, false)) ++ toStop) := by
      refine hmoved.relabel (List.length_modify _ _ _)
        (fun ref' ↦ supervisor_modify _ _ _ fun _ ↦ rfl) ?_ ?_ (fun _ href' ↦ .inl href')
      · intro ref' entry' hentry'
        obtain ⟨old, hold, ⟨rfl, rfl⟩ | ⟨_, rfl⟩⟩ := of_modify hentry'
        · exact h.counted ref old hold
        · exact h.counted ref' entry' hold
      · intro ref' href' entry' hentry'
        obtain ⟨old, hold, ⟨rfl, rfl⟩ | ⟨_, rfl⟩⟩ := of_modify hentry'
        · exact absurd href' hgone
        · exact hmoved.current ref' href' entry' hold
    simp only [Catalog.retire, hentry]
    split
    · exact hflagged
    · rename_i hzero
      -- nothing leases the entry, so that its supervisor is to be stopped
      have hnone : ref ∉ leased := by
        have hcount := h.counted ref entry hentry
        rw [← List.count_eq_zero]
        omega
      have hsupervisor : ((c.entries.modify ref fun entry ↦
          { entry with retired := true })[ref]?).bind Entry.supervisor = entry.supervisor := by
        have hkept := supervisor_modify c.entries ref ref
          (f := fun entry ↦ { entry with retired := true }) fun _ ↦ rfl
        rw [hkept, hentry]
        rfl
      have hspare : ∀ supervisor ∈ entry.supervisor.toList, Catalog.Spare { c with
          table := c.table.erase (name, ref), retired := c.retired ++ [ref],
          entries := c.entries.modify ref fun entry ↦ { entry with retired := true } }
          leased supervisor := by
        intro supervisor hmem'
        exact ⟨ref, hsupervisor.trans (Option.mem_toList.mp hmem'), hgone, hnone⟩
      have hstop := (hflagged.stopSpare hspare).perm (.refl _) (.refl _)
        (List.perm_append_comm_assoc _ _ _)
      rw [← List.append_assoc, ← List.map_append] at hstop
      refine hstop.retable (List.Sublist.refl _) ?_
      intro ref' supervisor href' hin
      by_cases hsame : ref' = ref
      · subst hsame
        left
        rw [Catalog.supervisorOf, hsupervisor] at href'
        simp [href']
      · right
        refine hin.imp id fun hin ↦ ?_
        rcases List.mem_append.mp hin with hin | hin
        · exact hin
        · exact absurd (List.mem_singleton.mp hin) hsame

theorem Kept.popAll {names : List String} {toClose : List ℕ} {toStop : List (ℕ × Bool)}
    (h : Kept c leased pending
      ((toClose.map fun supervisor ↦ (supervisor, false)) ++ toStop)) :
    Kept (c.popAll toClose names).1 leased pending
      (((c.popAll toClose names).2.map fun supervisor ↦ (supervisor, false)) ++ toStop) := by
  induction names generalizing c toClose with
  | nil => exact h
  | cons name rest ih => exact ih h.pop

theorem Kept.popAllNone {names : List String} (h : Kept c leased pending toStop) :
    Kept (c.popAll [] names).1 leased pending
      (((c.popAll [] names).2.map fun supervisor ↦ (supervisor, false)) ++ toStop) :=
  Kept.popAll h

/-! ## Refreshes -/

theorem Load.leases_entry (load : Load) (now : ℕ) : (load.entry now).leases = 0 := by
  unfold Load.entry
  split
  all_goals rfl

theorem Load.retired_entry (load : Load) (now : ℕ) : (load.entry now).retired = false := by
  unfold Load.entry
  split
  all_goals rfl

theorem Load.supervisor_entry (load : Load) (now : ℕ) :
    (load.entry now).supervisor = load.opened := by
  unfold Load.entry Load.opened
  split
  all_goals simp_all

/-- What has been loaded for a server becomes its entry. -/
theorem Kept.append {load : Load} {now : ℕ}
    (h : Kept c leased (load.opened.toList ++ pending) toStop) :
    Kept { c with
      table := c.table ++ [(load.name, c.entries.length)],
      entries := c.entries ++ [load.entry now] } leased pending toStop := by
  have hold : ∀ ref < c.entries.length, (c.entries ++ [load.entry now])[ref]? =
      c.entries[ref]? := fun ref hlt ↦ List.getElem?_append_left hlt
  have hnew : (c.entries ++ [load.entry now])[c.entries.length]? =
      some (load.entry now) := by simp
  have hcases : ∀ {ref : ℕ} {entry : Entry},
      (c.entries ++ [load.entry now])[ref]? = some entry →
      (ref < c.entries.length ∧ c.entries[ref]? = some entry) ∨
        (ref = c.entries.length ∧ entry = load.entry now) := by
    intro ref entry hentry
    have hlt := (List.getElem?_eq_some_iff.mp hentry).1
    rw [List.length_append, List.length_singleton] at hlt
    by_cases hsame : ref = c.entries.length
    · subst hsame
      rw [hnew] at hentry
      cases hentry
      exact .inr ⟨rfl, rfl⟩
    · rw [hold ref (by omega)] at hentry
      exact .inl ⟨by omega, hentry⟩
  have hsupervisor : ∀ ref supervisor,
      ((c.entries ++ [load.entry now])[ref]?).bind Entry.supervisor = some supervisor →
      (ref < c.entries.length ∧ c.supervisorOf ref = some supervisor) ∨
        (ref = c.entries.length ∧ load.opened = some supervisor) := by
    intro ref supervisor href
    obtain ⟨entry, hentry, hentry'⟩ := Option.bind_eq_some_iff.mp href
    rcases hcases hentry with ⟨hlt, hthere⟩ | ⟨hlast, rfl⟩
    · refine .inl ⟨hlt, ?_⟩
      rw [Catalog.supervisorOf, hthere]
      exact hentry'
    · exact .inr ⟨hlast, load.supervisor_entry now ▸ hentry'⟩
  have hstays : ∀ ref supervisor, c.supervisorOf ref = some supervisor →
      ref < c.entries.length ∧
        ((c.entries ++ [load.entry now])[ref]?).bind Entry.supervisor = some supervisor := by
    intro ref supervisor href
    obtain ⟨entry, hentry, hentry'⟩ := Option.bind_eq_some_iff.mp href
    have hlt := (List.getElem?_eq_some_iff.mp hentry).1
    rw [hold ref hlt]
    exact ⟨hlt, href⟩
  have hrefs : (c.table ++ [(load.name, c.entries.length)]).map Prod.snd =
      c.refs ++ [c.entries.length] := by simp [Catalog.refs]
  obtain ⟨_, hnodup, hdisjoint⟩ := List.nodup_append.mp h.pendingNodup
  refine ⟨?_, ?_, ?_, ?_, ?_, ?_, ?_, ?_, hnodup, ?_, ?_⟩
  · intro ref entry hentry
    rcases hcases hentry with ⟨_, hthere⟩ | ⟨rfl, rfl⟩
    · exact h.counted ref entry hthere
    · have hnone : c.entries.length ∉ leased := fun hin ↦
        Nat.lt_irrefl _ (h.leasedMade _ hin)
      rw [List.count_eq_zero_of_not_mem hnone, load.leases_entry]
      rfl
  · intro ref href
    rw [List.length_append]
    exact Nat.lt_add_right 1 (h.leasedMade ref href)
  · intro ref href
    rw [Catalog.refs, hrefs] at href
    rw [List.length_append, List.length_singleton]
    rcases List.mem_append.mp href with href | href
    · exact Nat.lt_add_right 1 (h.tableMade ref href)
    · rw [List.mem_singleton.mp href]
      exact Nat.lt_succ_self _
  · rw [Catalog.refs, hrefs, List.nodup_append]
    refine ⟨h.tableNodup, by simp, ?_⟩
    intro ref href ref' href'
    have hlt := h.tableMade ref href
    rw [List.mem_singleton.mp href']
    omega
  · intro ref href entry hentry
    rw [Catalog.refs, hrefs] at href
    rcases hcases hentry with ⟨hlt, hthere⟩ | ⟨_, rfl⟩
    · rcases List.mem_append.mp href with href | href
      · exact h.current ref href entry hthere
      · rw [List.mem_singleton.mp href] at hlt
        exact absurd hlt (Nat.lt_irrefl _)
    · exact load.retired_entry now
  · intro ref ref' supervisor href href'
    have hpending : ∀ ref, c.supervisorOf ref = some supervisor →
        load.opened ≠ some supervisor := by
      intro ref hthere hopened
      apply (h.made ref supervisor hthere).2
      rw [hopened]
      simp
    rcases hsupervisor ref supervisor href with ⟨_, hthere⟩ | ⟨hlast, hopened⟩
    · rcases hsupervisor ref' supervisor href' with ⟨_, hthere'⟩ | ⟨_, hopened'⟩
      · exact h.owned ref ref' supervisor hthere hthere'
      · exact absurd hopened' (hpending ref hthere)
    · rcases hsupervisor ref' supervisor href' with ⟨_, hthere'⟩ | ⟨hlast', _⟩
      · exact absurd hopened (hpending ref' hthere')
      · rw [hlast, hlast']
  · intro ref supervisor href
    rcases hsupervisor ref supervisor href with ⟨_, hthere⟩ | ⟨_, hopened⟩
    · obtain ⟨hlt, hnot⟩ := h.made ref supervisor hthere
      exact ⟨hlt, fun hin ↦ hnot (List.mem_append_right _ hin)⟩
    · have hmem : supervisor ∈ load.opened.toList := by simp [hopened]
      exact ⟨h.pendingMade supervisor (List.mem_append_left _ hmem),
        fun hin ↦ hdisjoint supervisor hmem supervisor hin rfl⟩
  · intro supervisor hmem
    exact h.pendingMade supervisor (List.mem_append_right _ hmem)
  · intro supervisor hmem
    obtain ⟨ref, href, htable, hnot⟩ := h.spare supervisor hmem
    obtain ⟨hlt, hthere⟩ := hstays ref supervisor href
    refine ⟨ref, hthere, ?_, hnot⟩
    rw [Catalog.refs, hrefs]
    intro hin
    rcases List.mem_append.mp hin with hin | hin
    · exact htable hin
    · rw [List.mem_singleton.mp hin] at hlt
      exact Nat.lt_irrefl _ hlt
  · intro supervisor hlt
    have hheld : ∀ ref, ((c.entries ++ [load.entry now])[ref]?).bind Entry.supervisor =
        some supervisor → ref ∈ c.refs ++ [c.entries.length] ∨ ref ∈ c.retired →
        Catalog.Held { c with
          table := c.table ++ [(load.name, c.entries.length)],
          entries := c.entries ++ [load.entry now] } supervisor := by
      intro ref href hin
      refine ⟨ref, href, ?_⟩
      rw [Catalog.refs, hrefs]
      exact hin
    rcases h.accounted supervisor hlt with hmem | hmem | ⟨ref, href, hin⟩
    · rcases List.mem_append.mp hmem with hmem | hmem
      · refine .inr (.inr (hheld c.entries.length ?_ (by simp)))
        rw [hnew, Option.bind_some, load.supervisor_entry]
        exact Option.mem_toList.mp hmem
      · exact .inl hmem
    · exact .inr (.inl hmem)
    · exact .inr (.inr (hheld ref (hstays ref supervisor href).2
        (hin.imp (fun hin ↦ List.mem_append_left _ hin) id)))

theorem Kept.install {load : Load} {now : ℕ} {toClose : List ℕ} {toStop : List (ℕ × Bool)}
    (h : Kept c leased (load.opened.toList ++ pending)
      ((toClose.map fun supervisor ↦ (supervisor, false)) ++ toStop)) :
    Kept (c.install now load toClose).1 leased pending
      (((c.install now load toClose).2.map fun supervisor ↦ (supervisor, false)) ++ toStop) :=
  h.pop.append

/-- A session has been opened for a refresh. -/
theorem Kept.opened (h : Kept c leased pending toStop) :
    Kept { c with supervisors := c.supervisors + 1 } leased (c.supervisors :: pending) toStop := by
  have hnew : c.supervisors ∉ pending := fun hin ↦
    Nat.lt_irrefl _ (h.pendingMade c.supervisors hin)
  refine ⟨h.counted, h.leasedMade, h.tableMade, h.tableNodup, h.current, h.owned, ?_, ?_,
    List.nodup_cons.mpr ⟨hnew, h.pendingNodup⟩, h.spare, ?_⟩
  · intro ref supervisor href
    obtain ⟨hlt, hnot⟩ := h.made ref supervisor href
    refine ⟨Nat.lt_succ_of_lt hlt, ?_⟩
    intro hin
    rcases List.mem_cons.mp hin with rfl | hin
    · exact Nat.lt_irrefl _ hlt
    · exact hnot hin
  · intro supervisor hmem
    rcases List.mem_cons.mp hmem with rfl | hmem
    · exact Nat.lt_succ_self _
    · exact Nat.lt_succ_of_lt (h.pendingMade supervisor hmem)
  · intro supervisor hlt
    by_cases hsame : supervisor = c.supervisors
    · exact .inl (by simp [hsame])
    · have hlt' : supervisor < c.supervisors := by
        dsimp only at hlt
        omega
      exact (h.accounted supervisor hlt').imp (fun hmem ↦ List.mem_cons_of_mem _ hmem) id

/-- The calls of `stop` begin. -/
theorem Kept.begin {more : List (ℕ × Bool)} (h : Kept c leased pending (more ++ toStop)) :
    Kept { c with stopped := c.stopped ++ more } leased pending toStop := by
  have hperm : (more ++ toStop ++ c.stopped).Perm (toStop ++ (c.stopped ++ more)) := by
    rw [List.append_assoc, ← List.append_assoc toStop]
    exact List.perm_append_comm
  exact { h with
    spare := fun supervisor hmem ↦ h.spare supervisor (hperm.mem_iff.mpr hmem)
    accounted := by
      intro supervisor hlt
      rcases h.accounted supervisor hlt with hmem | hmem | hheld
      · exact .inl hmem
      · exact .inr (.inl ((hperm.map Prod.fst).mem_iff.mp hmem))
      · exact .inr (.inr hheld) }

/-- The close stops every supervisor that is held. -/
theorem Kept.shut (h : Kept c leased pending toStop) :
    Kept { c with closed := true, table := [], retired := [] } leased pending
      ((((c.refs ++ c.retired).filterMap c.supervisorOf).map fun supervisor ↦
        (supervisor, true)) ++ toStop) := by
  refine (h.stop ?_).retable (List.nil_sublist _) ?_
  · intro supervisor hmem
    obtain ⟨_, _, hpair⟩ := List.mem_map.mp hmem
    cases hpair
  · intro ref supervisor href hin
    left
    rw [List.map_append]
    refine List.mem_append_left _ ?_
    simp only [List.map_map, List.mem_map, List.mem_filterMap, Function.comp_apply]
    exact ⟨supervisor, ⟨ref, List.mem_append.mpr hin, href⟩, rfl⟩

end Kept

end ShejaneRuntime.Mcp
