import Mathlib.Data.List.Nodup
import ShejaneRuntime.Plugins.AssetLeases

/-!
# What clean-ups leave alone

The count of an asset is the number of snapshots that hold it, so that a
clean-up, which looks at the counts under the lock they change under,
removes nothing a snapshot holds. A clean-up of the history also spares what
the installations referred to when it read them.
-/

namespace ShejaneRuntime.Plugins.Assets

open Lib

/-- The number of snapshots that hold an asset. -/
def State.holders (s : State) (digest : String) : ℕ :=
  s.snapshots.countP fun p ↦ digest ∈ p.assets

/-- What a clean-up read as referred to. -/
def Cleanup.protectedDigests (c : Cleanup) : List String :=
  match c.phase with
  | .referencesRead protected_ | .storageRead protected_ _ | .locked protected_ _
  | .removing protected_ _ => protected_
  | _ => []

/-- Each count is the number of snapshots that hold the asset, and a count of
zero is no entry. -/
def State.Counted (s : State) : Prop := ∀ digest,
  s.counts digest = if s.holders digest = 0 then none else some (s.holders digest : ℤ)

/-- Leaving a snapshot again changes nothing. -/
def State.LeftOnce (s : State) : Prop := ∀ i s', s.after (.exit i) = some s' →
  s'.after (.exit i) = some s'

/-- No removal takes an asset that a snapshot holds or that a non-retired
installation refers to. -/
structure AssetsPinned (s : State) : Prop where
  counted : s.Counted
  once : s.LeftOnce
  removals : ∀ (j : ℕ) (c : Cleanup) protected_ digest rest, s.cleanups[j]? = some c →
    c.phase = .removing protected_ (digest :: rest) → s.holders digest = 0 ∧ ¬s.Installed digest

/-- No removal takes an asset that a snapshot holds, and one for the history
none that a non-retired installation referred to when the clean-up read them. -/
structure AssetsLeased (s : State) : Prop where
  counted : s.Counted
  once : s.LeftOnce
  references : ∀ j s', s.after (.readReferences j) = some s' → ∃ c, s'.cleanups[j]? = some c ∧
    ∀ digest, s.Installed digest → digest ∈ c.protectedDigests
  removals : ∀ (j : ℕ) (c : Cleanup) protected_ digest rest, s.cleanups[j]? = some c →
    c.phase = .removing protected_ (digest :: rest) →
      s.holders digest = 0 ∧ (c.scope = .history → digest ∉ c.protectedDigests)

/-! ## The counts -/

theorem Counts.lease_apply {assets : List String} (hnodup : assets.Nodup) (counts : Counts)
    (digest : String) : counts.lease assets digest =
      if digest ∈ assets then some ((counts digest).getD 0 + 1) else counts digest := by
  induction assets generalizing counts with
  | nil => simp [Counts.lease]
  | cons first rest ih =>
      rw [List.nodup_cons] at hnodup
      rw [Counts.lease, ih hnodup.2]
      by_cases hfirst : digest = first
      · subst hfirst
        simp [hnodup.1]
      · simp [hfirst, Function.update_of_ne]

theorem Counts.release_apply {assets : List String} (hnodup : assets.Nodup) {counts : Counts}
    (hall : ∀ digest ∈ assets, (counts digest).isSome = true) :
    (counts.release assets).2 = true ∧ ∀ digest, (counts.release assets).1 digest =
      if digest ∈ assets then
        if (counts digest).getD 0 - 1 ≠ 0 then some ((counts digest).getD 0 - 1) else none
      else counts digest := by
  induction assets generalizing counts with
  | nil => simp [Counts.release]
  | cons first rest ih =>
      rw [List.nodup_cons] at hnodup
      obtain ⟨n, hn⟩ := Option.isSome_iff_exists.mp (hall first List.mem_cons_self)
      have hrest : ∀ digest ∈ rest, digest ≠ first := by
        rintro digest hdigest rfl
        exact hnodup.1 hdigest
      have hall' : ∀ digest ∈ rest, (Function.update counts first
          (if n - 1 ≠ 0 then some (n - 1) else none) digest).isSome = true := by
        intro digest hdigest
        rw [Function.update_of_ne (hrest digest hdigest)]
        exact hall digest (List.mem_cons_of_mem _ hdigest)
      obtain ⟨hdone, happly⟩ := ih hnodup.2 hall'
      rw [Counts.release, hn]
      refine ⟨hdone, ?_⟩
      intro digest
      rw [happly digest]
      by_cases hfirst : digest = first
      · subst hfirst
        simp [hnodup.1, hn]
      · simp [hfirst, Function.update_of_ne]

variable {s : State}

theorem holders_setSnapshot {i : ℕ} {p : Snapshot} (hp : s.snapshots[i]? = some p) (p' : Snapshot)
    (digest : String) : (s.setSnapshot i p').holders digest =
      s.holders digest - (if digest ∈ p.assets then 1 else 0) +
        if digest ∈ p'.assets then 1 else 0 := by
  obtain ⟨hlt, hget⟩ := List.getElem?_eq_some_iff.mp hp
  simp only [State.holders, State.setSnapshot]
  rw [List.countP_set hlt, hget]
  simp

theorem holders_pos {i : ℕ} {p : Snapshot} (hp : s.snapshots[i]? = some p) {digest : String}
    (hdigest : digest ∈ p.assets) : 0 < s.holders digest :=
  List.countP_pos_iff.mpr ⟨p, List.mem_of_getElem? hp, by simpa using hdigest⟩

theorem holders_setSnapshot_same {i : ℕ} {p p' : Snapshot} (hp : s.snapshots[i]? = some p)
    (hsame : p'.assets = p.assets) (digest : String) :
    (s.setSnapshot i p').holders digest = s.holders digest := by
  rw [holders_setSnapshot hp, hsame]
  by_cases hdigest : digest ∈ p.assets
  · have hpos := holders_pos hp hdigest
    simp only [hdigest, if_true]
    omega
  · simp [hdigest]

/-! ## The invariant -/

/-- The targets of a clean-up are what it did not read as referred to. -/
def Cleanup.Spares (c : Cleanup) : Prop :=
  match c.phase with
  | .storageRead protected_ targets | .locked protected_ targets =>
    ∃ digests, targets = some digests ∧ ∀ digest ∈ digests, digest ∉ protected_
  | .removing protected_ digests => ∀ digest ∈ digests, digest ∉ protected_
  | _ => True

structure Leased (s : State) : Prop where
  counted : s.Counted
  nodup : ∀ p ∈ s.snapshots, p.assets.Nodup
  removing : ∀ (j : ℕ) (c : Cleanup) protected_ digests, s.cleanups[j]? = some c →
    c.phase = .removing protected_ digests →
      s.leaseLock = some j ∧ ∀ digest ∈ digests, s.holders digest = 0
  spares : ∀ c ∈ s.cleanups, c.scope = .history → c.Spares

theorem leased_initial : Leased State.initial := by
  refine ⟨fun digest ↦ rfl, ?_, ?_, ?_⟩
  · intro p hp
    cases hp
  · intro j c protected_ digests hc
    cases hc
  · intro c hc
    cases hc

/-- A step that leaves the counts, the leases and the clean-ups alone. -/
theorem Leased.same (h : Leased s) {s' : State} (hcounts : s'.counts = s.counts)
    (hholders : ∀ digest, s'.holders digest = s.holders digest)
    (hnodup : ∀ p ∈ s'.snapshots, p.assets.Nodup) (hcleanups : s'.cleanups = s.cleanups)
    (hlock : s'.leaseLock = s.leaseLock) : Leased s' := by
  refine ⟨?_, hnodup, ?_, ?_⟩
  · intro digest
    rw [hcounts, hholders]
    exact h.counted digest
  · intro j c protected_ digests hc hphase
    rw [hcleanups] at hc
    rw [hlock]
    simp only [hholders]
    exact h.removing j c protected_ digests hc hphase
  · rw [hcleanups]
    exact h.spares

theorem Leased.setSnapshot_same (h : Leased s) {i : ℕ} {p u : Snapshot}
    (hp : s.snapshots[i]? = some p) (hsame : u.assets = p.assets) :
    Leased (s.setSnapshot i u) := by
  refine h.same rfl (holders_setSnapshot_same hp hsame) ?_ rfl rfl
  intro q hq
  rcases List.mem_or_eq_of_mem_set hq with hold | rfl
  · exact h.nodup q hold
  · rw [hsame]
    exact h.nodup p (List.mem_of_getElem? hp)

theorem Leased.unlock (h : Leased s) (holder : Holder) : Leased (s.unlock holder) :=
  h.same rfl (fun _ ↦ rfl) h.nodup rfl rfl

/-- Without the lease lock no clean-up removes anything. -/
theorem Leased.not_removing (h : Leased s) (hlock : s.leaseLock = none) {j : ℕ} {c : Cleanup}
    {protected_ digests : List String} (hc : s.cleanups[j]? = some c) :
    c.phase ≠ .removing protected_ digests := by
  intro hphase
  have hheld := (h.removing j c protected_ digests hc hphase).1
  rw [hlock] at hheld
  cases hheld

/-- A snapshot takes its leases. -/
theorem Leased.lease (h : Leased s) {i : ℕ} {p u : Snapshot} (hp : s.snapshots[i]? = some p)
    (hnone : p.assets = []) (hnodup : u.assets.Nodup) (hlock : s.leaseLock = none) :
    Leased { s.setSnapshot i u with counts := s.counts.lease u.assets } := by
  have hholders : ∀ digest, (s.setSnapshot i u).holders digest =
      s.holders digest + if digest ∈ u.assets then 1 else 0 := by
    intro digest
    rw [holders_setSnapshot hp, hnone]
    simp
  refine ⟨?_, ?_, ?_, h.spares⟩
  · intro digest
    have hcounted := h.counted digest
    change s.counts.lease u.assets digest = if (s.setSnapshot i u).holders digest = 0 then none
      else some ((s.setSnapshot i u).holders digest : ℤ)
    rw [Counts.lease_apply hnodup, hholders]
    by_cases hdigest : digest ∈ u.assets
    · rw [if_pos hdigest, if_pos hdigest, hcounted]
      by_cases hzero : s.holders digest = 0
      · simp [hzero]
      · simp [hzero]
    · rw [if_neg hdigest, if_neg hdigest, hcounted]
      simp
  · intro q hq
    rcases List.mem_or_eq_of_mem_set hq with hold | rfl
    · exact h.nodup q hold
    · exact hnodup
  · intro j c protected_ digests hc hphase
    exact absurd hphase (h.not_removing hlock hc)

/-- A snapshot gives its leases back. -/
theorem Leased.release (h : Leased s) {i : ℕ} {p u : Snapshot} (hp : s.snapshots[i]? = some p)
    (hnone : u.assets = []) (hlock : s.leaseLock = none) :
    Leased { s.setSnapshot i u with counts := (s.counts.release p.assets).1 } := by
  have hnodup := h.nodup p (List.mem_of_getElem? hp)
  have hsome : ∀ digest ∈ p.assets, s.counts digest = some (s.holders digest : ℤ) := by
    intro digest hdigest
    have hpos := holders_pos hp hdigest
    rw [h.counted digest, if_neg (by omega)]
  have hall : ∀ digest ∈ p.assets, (s.counts digest).isSome = true := by
    intro digest hdigest
    rw [hsome digest hdigest]
    rfl
  have happly := (Counts.release_apply hnodup hall).2
  have hholders : ∀ digest, (s.setSnapshot i u).holders digest =
      s.holders digest - if digest ∈ p.assets then 1 else 0 := by
    intro digest
    rw [holders_setSnapshot hp, hnone]
    simp
  refine ⟨?_, ?_, ?_, h.spares⟩
  · intro digest
    change (s.counts.release p.assets).1 digest =
      if (s.setSnapshot i u).holders digest = 0 then none
      else some ((s.setSnapshot i u).holders digest : ℤ)
    rw [happly, hholders]
    by_cases hdigest : digest ∈ p.assets
    · have hpos := holders_pos hp hdigest
      rw [if_pos hdigest, if_pos hdigest, hsome digest hdigest]
      by_cases hone : s.holders digest = 1
      · simp [hone]
      · have hleft : s.holders digest - 1 ≠ 0 := by omega
        have hcast : ((s.holders digest - 1 : ℕ) : ℤ) = (s.holders digest : ℤ) - 1 := by omega
        have hne : (s.holders digest : ℤ) - 1 ≠ 0 := by omega
        simp only [Option.getD_some, ne_eq, hne, not_false_eq_true, if_true, hleft, if_false, hcast]
    · rw [if_neg hdigest, if_neg hdigest]
      simpa using h.counted digest
  · intro q hq
    rcases List.mem_or_eq_of_mem_set hq with hold | rfl
    · exact h.nodup q hold
    · rw [hnone]
      exact List.nodup_nil
  · intro j c protected_ digests hc hphase
    exact absurd hphase (h.not_removing hlock hc)

/-- A clean-up moves on. -/
theorem Leased.setCleanup (h : Leased s) {j : ℕ} {c : Cleanup} {l : Option ℕ}
    (hremoving : ∀ protected_ digests, c.phase = .removing protected_ digests →
      l = some j ∧ ∀ digest ∈ digests, s.holders digest = 0)
    (hothers : ∀ j' c' protected_ digests, j' ≠ j → s.cleanups[j']? = some c' →
      c'.phase = .removing protected_ digests → l = s.leaseLock)
    (hspares : c.scope = .history → c.Spares) :
    Leased { s.setCleanup j c with leaseLock := l } := by
  refine ⟨h.counted, h.nodup, ?_, ?_⟩
  · intro j' c' protected_ digests hc' hphase
    change (s.cleanups.set j c)[j']? = some c' at hc'
    rw [List.getElem?_set] at hc'
    split at hc'
    · rename_i hsame
      subst hsame
      split at hc'
      · cases hc'
        exact hremoving protected_ digests hphase
      · cases hc'
    · rename_i hother
      change l = some j' ∧ _
      rw [hothers j' c' protected_ digests (Ne.symm hother) hc' hphase]
      exact h.removing j' c' protected_ digests hc' hphase
  · intro c' hc'
    rcases List.mem_or_eq_of_mem_set hc' with hold | rfl
    · exact h.spares c' hold
    · exact hspares

/-- A clean-up moves between phases in which it removes nothing. -/
theorem Leased.setCleanup_idle (h : Leased s) {j : ℕ} {c : Cleanup}
    (hidle : ∀ protected_ digests, c.phase ≠ .removing protected_ digests)
    (hspares : c.scope = .history → c.Spares) : Leased (s.setCleanup j c) :=
  h.setCleanup (l := s.leaseLock) (fun _ _ hphase ↦ absurd hphase (hidle _ _))
    (fun _ _ _ _ _ _ _ ↦ rfl) hspares

/-! ## Every step -/

theorem Leased.snapshotStep (h : Leased s) {a : Action} {i : ℕ} {p : Snapshot} {s' : State}
    (hp : s.snapshots[i]? = some p) (hstep : p.step s i a = some s') : Leased s' := by
  have hover : p.assets = [] →
      Leased ((s.setSnapshot i { p with phase := .over }).unlock (.snapshot i)) :=
    fun hnone ↦ (h.setSnapshot_same hp (by rw [hnone]; rfl)).unlock _
  have hexit : ∀ assets, p.phase = .entered assets →
      Leased (s.setSnapshot i { phase := .releasing assets, closed := true }) :=
    fun assets hphase ↦ h.setSnapshot_same hp (by simp [Snapshot.assets, hphase])
  cases a with
  | lockSnapshot _ =>
      simp only [Snapshot.step] at hstep
      split at hstep
      · rename_i hguard
        cases hstep
        have hset := h.setSnapshot_same (u := { p with phase := .loading [] false }) hp
          (by simp [Snapshot.assets, hguard.1])
        exact hset.same rfl (fun _ ↦ rfl) hset.nodup rfl rfl
      · cases hstep
  | load _ result =>
      simp only [Snapshot.step] at hstep
      split at hstep
      · rename_i attempted canceled hphase hlock
        have hnone : p.assets = [] := by simp [Snapshot.assets, hphase]
        cases result with
        | leased assets =>
            dsimp only at hstep
            split at hstep
            · rename_i hguard
              cases hstep
              exact h.lease (u := { p with phase := .loaded assets canceled }) hp hnone
                hguard.1 hlock
            · cases hstep
        | required digest =>
            dsimp only at hstep
            split at hstep
            · cases hstep
              exact hover hnone
            · cases hstep
              exact h.setSnapshot_same hp (by rw [hnone]; rfl)
        | failed =>
            cases hstep
            exact hover hnone
      · cases hstep
  | take _ =>
      simp only [Snapshot.step] at hstep
      split at hstep
      · rename_i assets hphase hlock
        cases hstep
        have hassets : p.assets = assets := by simp [Snapshot.assets, hphase]
        have hreleased := h.release (u := { p with phase := .over }) hp rfl hlock
        rw [hassets] at hreleased
        exact hreleased.unlock _
      · rename_i assets hphase
        cases hstep
        exact (h.setSnapshot_same hp (by simp [Snapshot.assets, hphase])).unlock _
      · cases hstep
  | quarantine _ =>
      simp only [Snapshot.step] at hstep
      split at hstep
      · cases hstep
        exact h.same rfl (fun _ ↦ rfl) h.nodup rfl rfl
      · cases hstep
  | ensured _ installed =>
      simp only [Snapshot.step] at hstep
      split at hstep
      · rename_i attempted missing hphase
        have hnone : p.assets = [] := by simp [Snapshot.assets, hphase]
        split at hstep
        · cases hstep
          have hset := h.setSnapshot_same (u := { p with phase := .loading attempted false }) hp
            (by rw [hnone]; rfl)
          exact hset.same rfl (fun _ ↦ rfl) hset.nodup rfl rfl
        · cases hstep
          exact hover hnone
      · cases hstep
  | cancelSnapshot _ =>
      simp only [Snapshot.step] at hstep
      split at hstep
      all_goals
        rename_i hphase
        cases hstep
      · exact h.setSnapshot_same hp (by simp [Snapshot.assets, hphase])
      · exact h.setSnapshot_same hp (by simp [Snapshot.assets, hphase])
      · exact h.setSnapshot_same hp (by simp [Snapshot.assets, hphase])
      · exact hover (by simp [Snapshot.assets, hphase])
      · exact hexit _ hphase
      · exact h
      · exact h
  | exit _ =>
      simp only [Snapshot.step] at hstep
      split at hstep
      · rename_i assets hphase
        cases hstep
        exact hexit assets hphase
      · cases hstep
        exact h
      · cases hstep
        exact h
      · cases hstep
  | release _ =>
      simp only [Snapshot.step] at hstep
      split at hstep
      · rename_i assets hphase hlock
        cases hstep
        have hassets : p.assets = assets := by simp [Snapshot.assets, hphase]
        have hreleased := h.release (u := { p with phase := .over }) hp rfl hlock
        rwa [hassets] at hreleased
      · cases hstep
  | _ => cases hstep

theorem Leased.cleanupStep (h : Leased s) {a : Action} {j : ℕ} {c : Cleanup} {s' : State}
    (hc : s.cleanups[j]? = some c) (hstep : c.step s j a = some s') : Leased s' := by
  have hspares := h.spares c (List.mem_of_getElem? hc)
  have hover : Leased (s.setCleanup j { c with phase := .over }) :=
    h.setCleanup_idle (by simp) fun _ ↦ trivial
  have hothers : ∀ protected_ digests, c.phase = .removing protected_ digests →
      ∀ j' c' protected' digests', j' ≠ j → s.cleanups[j']? = some c' →
        c'.phase ≠ .removing protected' digests' := by
    intro protected_ digests hphase j' c' protected' digests' hne hc' hphase'
    have hmine := (h.removing j c protected_ digests hc hphase).1
    have hother := (h.removing j' c' protected' digests' hc' hphase').1
    rw [hmine] at hother
    exact hne (Option.some.inj hother).symm
  cases a with
  | readReferences _ =>
      simp only [Cleanup.step] at hstep
      split at hstep
      · cases hstep
        exact h.setCleanup_idle (by simp) fun _ ↦ trivial
      · cases hstep
  | readStorage _ =>
      simp only [Cleanup.step] at hstep
      split at hstep
      · rename_i protected_ hphase hlock
        cases hstep
        refine h.setCleanup_idle (by simp) fun hhistory ↦ ?_
        change c.scope = .history at hhistory
        simp only [hhistory, Cleanup.Spares]
        refine ⟨_, rfl, fun digest hdigest ↦ ?_⟩
        simpa using (List.mem_filter.mp hdigest).2
      · cases hstep
  | lockCleanup _ =>
      simp only [Cleanup.step] at hstep
      split at hstep
      · rename_i protected_ targets hphase hlock
        cases hstep
        have hset : Leased (s.setCleanup j { c with phase := .locked protected_ targets }) := by
          refine h.setCleanup_idle (by simp) fun hhistory ↦ ?_
          have hold := hspares hhistory
          simpa only [Cleanup.Spares, hphase] using hold
        exact hset.same rfl (fun _ ↦ rfl) hset.nodup rfl rfl
      · cases hstep
  | check _ =>
      simp only [Cleanup.step] at hstep
      split at hstep
      · rename_i protected_ targets hphase hlock
        split at hstep
        · cases hstep
          exact hover.unlock _
        · rename_i hunused
          cases hstep
          refine h.setCleanup ?_ ?_ ?_
          · intro protected' digests hphase'
            cases hphase'
            refine ⟨rfl, fun digest hdigest ↦ ?_⟩
            -- a count other than zero would have been in use
            have hcounted := h.counted digest
            by_contra hheld
            refine hunused (List.any_eq_true.mpr ⟨digest, hdigest, ?_⟩)
            rw [if_neg hheld] at hcounted
            simp [Counts.inUse, hcounted, hheld]
          · intro j' c' protected' digests' _ hc' hphase'
            exact absurd hphase' (h.not_removing hlock hc')
          · intro hhistory
            have hold := hspares hhistory
            simp only [Cleanup.Spares, hphase] at hold
            obtain ⟨digests, rfl, hdisjoint⟩ := hold
            exact hdisjoint
      · cases hstep
  | removeNext _ removed =>
      simp only [Cleanup.step] at hstep
      split at hstep
      · rename_i protected_ digest rest hphase
        obtain ⟨hlock, hunheld⟩ := h.removing j c _ _ hc hphase
        split at hstep
        · cases hstep
          have hset := h.setCleanup (j := j) (c := { c with phase := .removing protected_ rest })
            (l := s.leaseLock) (by
              intro protected' digests hphase'
              cases hphase'
              exact ⟨hlock, fun d hd ↦ hunheld d (List.mem_cons_of_mem _ hd)⟩)
            (fun _ _ _ _ _ _ _ ↦ rfl) (by
              intro hhistory
              have hold := hspares hhistory
              simp only [Cleanup.Spares, hphase] at hold
              exact fun d hd ↦ hold d (List.mem_cons_of_mem _ hd))
          exact hset.same rfl (fun _ ↦ rfl) hset.nodup rfl rfl
        · cases hstep
          have hset := h.setCleanup (j := j) (c := { c with phase := .over }) (l := none)
            (by simp) (fun j' c' protected' digests' hne hc' hphase' ↦
              absurd hphase' (hothers _ _ hphase j' c' protected' digests' hne hc'))
            fun _ ↦ trivial
          exact (hset.unlock (.cleanup j)).same rfl (fun _ ↦ rfl) hset.nodup rfl rfl
      · cases hstep
  | finish _ =>
      simp only [Cleanup.step] at hstep
      split at hstep
      · rename_i protected_ hphase
        cases hstep
        have hset := h.setCleanup (j := j) (c := { c with phase := .over }) (l := none)
          (by simp) (fun j' c' protected' digests' hne hc' hphase' ↦
            absurd hphase' (hothers _ _ hphase j' c' protected' digests' hne hc'))
          fun _ ↦ trivial
        exact (hset.unlock (.cleanup j)).same rfl (fun _ ↦ rfl) hset.nodup rfl rfl
      · cases hstep
  | cancelCleanup _ started =>
      simp only [Cleanup.step] at hstep
      split at hstep
      · cases hstep
        exact h.unlock _
      · cases hstep
        cases started with
        | true => exact h.unlock _
        | false => exact hover.unlock _
      · cases hstep
        exact hover
  | _ => cases hstep

theorem Leased.after (h : Leased s) {a : Action} {s' : State} (hstep : s.after a = some s') :
    Leased s' := by
  cases a with
  | installAsset digest =>
      cases hstep
      exact h.same rfl (fun _ ↦ rfl) h.nodup rfl rfl
  | install digests =>
      cases hstep
      exact h.same rfl (fun _ ↦ rfl) h.nodup rfl rfl
  | retire k =>
      cases hstep
      exact h.same rfl (fun _ ↦ rfl) h.nodup rfl rfl
  | bindRun digests =>
      cases hstep
      exact h.same rfl (fun _ ↦ rfl) h.nodup rfl rfl
  | acquire =>
      cases hstep
      refine h.same rfl (fun digest ↦ ?_) ?_ rfl rfl
      · simp [State.holders, List.countP_append, Snapshot.assets]
      · intro p hp
        rcases List.mem_append.mp hp with hold | hnew
        · exact h.nodup p hold
        · rw [List.mem_singleton] at hnew
          subst hnew
          exact List.nodup_nil
  | cleanUp scope =>
      cases hstep
      refine ⟨h.counted, h.nodup, ?_, ?_⟩
      · intro j c protected_ digests hc hphase
        dsimp only at hc
        rw [List.getElem?_append] at hc
        split at hc
        · exact h.removing j c protected_ digests hc hphase
        · have hnew := List.mem_of_getElem? hc
          rw [List.mem_singleton] at hnew
          subst hnew
          cases hphase
      · intro c hc hhistory
        rcases List.mem_append.mp hc with hold | hnew
        · exact h.spares c hold hhistory
        · rw [List.mem_singleton] at hnew
          subst hnew
          trivial
  | removeAsset digest =>
      simp only [State.after] at hstep
      split at hstep
      · split at hstep
        · cases hstep
          exact h
        · cases hstep
          exact h.same rfl (fun _ ↦ rfl) h.nodup rfl rfl
      · cases hstep
  | lockSnapshot i | load i _ | take i | quarantine i | ensured i _ | cancelSnapshot i | exit i
  | release i =>
      obtain ⟨p, hp, hp'⟩ := Option.bind_eq_some_iff.mp hstep
      exact h.snapshotStep hp hp'
  | readReferences j | readStorage j | lockCleanup j | check j | removeNext j _ | finish j
  | cancelCleanup j _ =>
      obtain ⟨c, hc, hc'⟩ := Option.bind_eq_some_iff.mp hstep
      exact h.cleanupStep hc hc'

/-! ## What the invariant says -/

theorem exit_twice {i : ℕ} {s' : State} (hstep : s.after (.exit i) = some s') :
    s'.after (.exit i) = some s' := by
  obtain ⟨p, hp, hp'⟩ := Option.bind_eq_some_iff.mp hstep
  obtain ⟨hlt, _⟩ := List.getElem?_eq_some_iff.mp hp
  have hagain : ∀ {t : State} {q : Snapshot}, t.snapshots[i]? = some q →
      q.phase = .over ∨ (∃ assets, q.phase = .releasing assets) → t.after (.exit i) = some t := by
    rintro t q hq (hphase | ⟨assets, hphase⟩)
    · simp [State.after, hq, Snapshot.step, hphase]
    · simp [State.after, hq, Snapshot.step, hphase]
  simp only [Snapshot.step] at hp'
  split at hp'
  · rename_i assets hphase
    cases hp'
    refine hagain (q := { phase := .releasing assets, closed := true }) ?_ (.inr ⟨assets, rfl⟩)
    simp [State.setSnapshot, hlt]
  · rename_i assets hphase
    cases hp'
    exact hagain hp (.inr ⟨assets, hphase⟩)
  · rename_i hphase
    cases hp'
    exact hagain hp (.inl hphase)
  · cases hp'

/-- A clean-up reads what every non-retired installation refers to. -/
theorem reads_installed {j : ℕ} {s' : State} (hstep : s.after (.readReferences j) = some s') :
    ∃ c, s'.cleanups[j]? = some c ∧ ∀ digest, s.Installed digest → digest ∈ c.protectedDigests := by
  obtain ⟨c, hc, hc'⟩ := Option.bind_eq_some_iff.mp hstep
  obtain ⟨hlt, _⟩ := List.getElem?_eq_some_iff.mp hc
  simp only [Cleanup.step] at hc'
  split at hc'
  · cases hc'
    refine ⟨{ c with phase := .referencesRead s.referencedRuntimeAssetDigests }, ?_, ?_⟩
    · simp [State.setCleanup, hlt]
    · rintro digest ⟨i, hi, hretired, hdigest⟩
      refine List.mem_append_left _ (List.mem_flatMap.mpr ⟨i, ?_, hdigest⟩)
      exact List.mem_filter.mpr ⟨hi, by simp [hretired]⟩
  · cases hc'

/-- The counts are right, a snapshot is left once, and no clean-up removes an
asset that a snapshot holds. -/
theorem leased_assets_stay (h : catalog.Reachable s) : AssetsLeased s := by
  have hleased : Leased s := by
    refine System.ReachableBy.invariant ?_ ?_ h
    · rintro s₀ rfl
      exact leased_initial
    · intro a s₀ s₁ hs₀ _ hstep
      exact hs₀.after hstep
  refine ⟨hleased.counted, fun i s' hstep ↦ exit_twice hstep,
    fun j s' hstep ↦ reads_installed hstep, ?_⟩
  intro j c protected_ digest rest hc hphase
  refine ⟨(hleased.removing j c _ _ hc hphase).2 digest List.mem_cons_self, fun hhistory ↦ ?_⟩
  have hspares := hleased.spares c (List.mem_of_getElem? hc) hhistory
  simp only [Cleanup.Spares, hphase] at hspares
  simpa only [Cleanup.protectedDigests, hphase] using hspares digest List.mem_cons_self

/-! ## Clean-ups of everything -/

/-- A clean-up of everything while a plugin with an asset is installed. -/
def cleaning : List Action := [.install ["sha256:aa"], .installAsset "sha256:aa", .cleanUp .all,
  .readReferences 0, .readStorage 0, .lockCleanup 0, .check 0]

theorem leased_assets_stay_cleaning : ∃ s, cleaning.foldlM State.after .initial = some s ∧
    AssetsLeased s := by
  have hsome : (cleaning.foldlM State.after .initial).isSome = true := by decide +kernel
  obtain ⟨s, hrun⟩ := Option.isSome_iff_exists.mp hsome
  exact ⟨s, hrun, leased_assets_stay (System.ReachableBy.foldlM
    (fun _ _ _ hstep ↦ ⟨trivial, hstep⟩) ⟨_, rfl, .refl _⟩ hrun)⟩

/-- A clean-up of everything removes the asset of an installed plugin. -/
theorem not_assets_pinned : ¬∀ s, catalog.Reachable s → AssetsPinned s := by
  intro h
  have hremoves : (cleaning.foldlM State.after .initial).any (fun s ↦
      s.installations.any (fun i ↦ !i.retired && i.digests.contains "sha256:aa") &&
        (s.cleanups[0]?).any fun c ↦ c.phase = .removing ["sha256:aa"] ["sha256:aa"]) = true := by
    decide +kernel
  obtain ⟨s, hrun, hstate⟩ := (Option.any_eq_true _ _).mp hremoves
  rw [Bool.and_eq_true] at hstate
  obtain ⟨i, hi, hinstalled⟩ := List.any_eq_true.mp hstate.1
  obtain ⟨c, hc, hphase⟩ := (Option.any_eq_true _ _).mp hstate.2
  have hreach : catalog.Reachable s :=
    System.ReachableBy.foldlM (fun _ _ _ hstep ↦ ⟨trivial, hstep⟩) ⟨_, rfl, .refl _⟩ hrun
  refine ((h s hreach).removals 0 c _ _ _ hc (of_decide_eq_true hphase)).2 ⟨i, hi, ?_⟩
  simpa using hinstalled

end ShejaneRuntime.Plugins.Assets
