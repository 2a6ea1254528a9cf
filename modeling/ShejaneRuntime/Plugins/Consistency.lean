import ShejaneRuntime.Plugins.Installations
import ShejaneRuntime.Store.Frames

/-!
# The consistency of plugin installations

What each command does to the two tables, and the condition under which it
leaves every installation usable.
-/

namespace ShejaneRuntime.Plugins

open Lib Lib.Txn Store

/-! ## Good installations -/

/-- The installation points to a version it can use, and is enabled only
where it can run. -/
structure Good (versions : List PackageVersion) (i : Installation) : Prop where
  usable : i.retiredAt = none → ∃ v ∈ versions, v.digest = i.activeDigest ∧
    v.pluginId = i.pluginId ∧ v.state = .installed
  enabled : i.enabled = true → i.retiredAt = none ∧ ∀ v ∈ versions, v.digest = i.activeDigest →
    v.compatibility = .compatible ∧
      (v.manifest.needsModelBinding = true → i.modelBinding.isSome = true)

def Consistent (db : PluginDatabase) : Prop :=
  ∀ i ∈ db.installations.rows, Good db.versions.rows i

/-- The condition on a command. A first installation is of a version that is
not retired; an update or a rollback of an enabled installation is to a
version it can run. -/
def Fits : PluginOp → PluginDatabase → Prop
  | .install principalId _ _ p _, db =>
    db.installations.find? (principalId, p.manifest.id) = none →
      ∀ v, db.versions.find? p.digest = some v → v.state = .installed
  | .update principalId _ _ pluginId p _, db =>
    ∀ i, db.installations.find? (principalId, pluginId) = some i → i.enabled = true →
      (∀ v, db.versions.find? p.digest = some v → v.compatibility = .compatible ∧
        (v.manifest.needsModelBinding = true → i.modelBinding.isSome = true)) ∧
      (db.versions.find? p.digest = none → p.manifest.needsModelBinding = true →
        i.modelBinding.isSome = true)
  | .rollback principalId _ pluginId targetDigest _, db =>
    ∀ i, db.installations.find? (principalId, pluginId) = some i → i.enabled = true →
      ∀ v, db.versions.find? targetDigest = some v → v.manifest.needsModelBinding = true →
        i.modelBinding.isSome = true
  | _, _ => True

variable {vs : List PackageVersion} {i : Installation}

/-- A version that changes at most its state. -/
structure SameVersion (v v' : PackageVersion) : Prop where
  digest : v'.digest = v.digest
  pluginId : v'.pluginId = v.pluginId
  compatibility : v'.compatibility = v.compatibility
  manifest : v'.manifest = v.manifest

theorem Good.mapVersions (h : Good vs i) {g : PackageVersion → PackageVersion}
    (hg : ∀ v ∈ vs, SameVersion v (g v))
    (hstate : i.retiredAt = none → ∀ v ∈ vs, v.digest = i.activeDigest → v.state = .installed →
      (g v).state = .installed) : Good (vs.map g) i := by
  refine ⟨fun hactive ↦ ?_, fun henabled ↦ ?_⟩
  · obtain ⟨v, hv, hdigest, hplugin, hinstalled⟩ := h.usable hactive
    exact ⟨g v, List.mem_map_of_mem hv, (hg v hv).digest.trans hdigest,
      (hg v hv).pluginId.trans hplugin, hstate hactive v hv hdigest hinstalled⟩
  · obtain ⟨hactive, hruns⟩ := h.enabled henabled
    refine ⟨hactive, fun v' hv' hdigest ↦ ?_⟩
    obtain ⟨v, hv, rfl⟩ := List.mem_map.mp hv'
    rw [(hg v hv).digest] at hdigest
    rw [(hg v hv).compatibility, (hg v hv).manifest]
    exact hruns v hv hdigest

theorem Good.insertVersion (h : Good vs i) {v : PackageVersion}
    (hfresh : ∀ v' ∈ vs, v'.digest ≠ v.digest) : Good (vs ++ [v]) i := by
  refine ⟨fun hactive ↦ ?_, fun henabled ↦ ?_⟩
  · obtain ⟨v', hv', hrest⟩ := h.usable hactive
    exact ⟨v', List.mem_append_left _ hv', hrest⟩
  · obtain ⟨hactive, hruns⟩ := h.enabled henabled
    refine ⟨hactive, fun v' hv' hdigest ↦ ?_⟩
    rcases List.mem_append.mp hv' with hold | hnew
    · exact hruns v' hold hdigest
    · -- the installation has a version already, so the new one is another
      obtain ⟨b, hb, hbdigest, _⟩ := h.usable hactive
      rw [List.mem_singleton.mp hnew] at hdigest
      exact absurd (hbdigest.trans hdigest.symm) (hfresh b hb)

/-! ## Statements -/

variable {db : PluginDatabase}

theorem Consistent.of_tables {db' : PluginDatabase} (h : Consistent db)
    (hversions : db'.versions = db.versions) (hinstallations : db'.installations = db.installations) :
    Consistent db' := by
  unfold Consistent at *
  rw [hversions, hinstallations]
  exact h

theorem Consistent.setVersionState (h : Consistent db) (digest : String) (state : VersionState)
    (retiredAt : Option Time) (now : Time)
    (hstate : state = .installed ∨ ∀ i ∈ db.installations.rows, i.retiredAt = none →
      i.activeDigest ≠ digest) :
    Consistent { db with
      versions := db.versions.update (fun v ↦ v.digest = digest) fun v ↦
        { v with state := state, retiredAt := retiredAt, updatedAt := now } } := by
  intro i hi
  refine (h i hi).mapVersions (fun v _ ↦ ?_) fun hactive v _ hdigest hinstalled ↦ ?_
  · split
    · exact ⟨rfl, rfl, rfl, rfl⟩
    · exact ⟨rfl, rfl, rfl, rfl⟩
  · split
    · rename_i heq
      rw [decide_eq_true_eq] at heq
      rcases hstate with rfl | hunused
      · rfl
      · exact absurd (hdigest.symm.trans heq) (hunused i hi hactive)
    · exact hinstalled

theorem Consistent.insertVersion (h : Consistent db) {v : PackageVersion}
    {versions : Table PackageVersion.digest} (hinsert : db.versions.insert? v = some versions) :
    Consistent { db with versions := versions } := by
  intro i hi
  have hrows : versions.rows = db.versions.rows ++ [v] := Table.rows_of_insert? hinsert
  change Good versions.rows i
  rw [hrows]
  refine (h i hi).insertVersion fun v' hv' heq ↦ ?_
  exact Table.find?_eq_none_iff.mp (Table.find?_key_of_insert? hinsert) v' hv' heq

/-- Only the installation of a principal changes. -/
theorem Consistent.updateInstallation (h : Consistent db) (principalId pluginId : String)
    (f : Installation → Installation) (hf : ∀ i, (f i).key = i.key)
    (hgood : ∀ i, db.installations.find? (principalId, pluginId) = some i →
      Good db.versions.rows i → Good db.versions.rows (f i)) :
    Consistent { db with
      installations := db.installations.update (fun i ↦ i.key = (principalId, pluginId)) f hf } := by
  intro i' hi'
  obtain ⟨i, hi, rfl⟩ := List.mem_map.mp hi'
  dsimp only
  split
  · rename_i hkey
    rw [decide_eq_true_eq] at hkey
    exact hgood i (hkey ▸ Table.find?_of_mem hi) (h i hi)
  · exact h i hi

theorem Consistent.insertInstallation (h : Consistent db) {i : Installation}
    {installations : Table Installation.key}
    (hinsert : db.installations.insert? i = some installations)
    (hgood : Good db.versions.rows i) :
    Consistent { db with installations := installations } := by
  intro i' hi'
  rcases (Table.mem_insert? hinsert).mp hi' with hold | rfl
  · exact h i' hold
  · exact hgood

/-! ## Commands -/

/-- A command is judged by what its handler does to the tables. -/
theorem post_acceptPluginCommand {Q : PluginDatabase → Prop} {s : Session PluginDatabase World}
    {principalId commandId commandType : String} {payload : Json}
    {handle : PluginTxn (Json × Time)} (hQ : ∀ db store, Q db → Q { db with store := store })
    (hsame : Q s.db) (hhandle : ∀ w, Post handle ⟨s.db, w⟩ fun _ s' ↦ Q s'.db) :
    Post (acceptPluginCommand principalId commandId commandType payload handle) s
      fun _ s' ↦ Q s'.db := by
  unfold acceptPluginCommand onStore
  rw [post_bind, post_zoom]
  intro existing s' hread
  have hstore : s'.db = s.db.store :=
    (keeps_acceptedCommandReceiptUncommitted (R := Eq) _ _ _ _ _ _ _ hread).symm
  cases existing with
  | some receipt =>
      rw [post_pure]
      exact hQ s.db _ hsame
  | none =>
      dsimp only
      rw [hstore, post_bind]
      refine (hhandle s'.world).mono fun result s'' hQ' ↦ ?_
      rw [post_bind, post_zoom]
      intro _ s₃ _
      rw [post_pure]
      exact hQ _ _ hQ'

theorem consistent_onStore (db : PluginDatabase) (store : Database) (h : Consistent db) :
    Consistent { db with store := store } := h.of_tables rfl rfl

theorem boundVersion_spec {pluginId version : String} {v : PackageVersion}
    (h : boundVersion db pluginId version = some v) :
    v ∈ db.versions.rows ∧ v.pluginId = pluginId ∧ v.version = version := by
  have hkey := List.find?_some h
  rw [Bool.and_eq_true, decide_eq_true_eq, decide_eq_true_eq] at hkey
  exact ⟨List.mem_of_find?_eq_some h, hkey⟩

/-- A first or repeated installation of a version that is in the table. -/
theorem consistent_installed (h : Consistent db) {principalId pluginId digest : String}
    {v : PackageVersion} (hv : v ∈ db.versions.rows) (hdigest : v.digest = digest)
    (hplugin : v.pluginId = pluginId)
    (hfirst : db.installations.find? (principalId, pluginId) = none → v.state = .installed)
    (hactive : ∀ i, db.installations.find? (principalId, pluginId) = some i →
      i.activeDigest = digest) {i : Installation} (hi : i.key = (principalId, pluginId))
    (hnew : i.activeDigest = digest) (hdisabled : i.enabled = false) (now : Time)
    (receipt : Json × Time) {s : Session PluginDatabase World} (hs : s.db = db) :
    Post (match db.installations.find? (principalId, pluginId) with
      | none => do
        Plugins.insertInstallation i
        pure receipt
      | some i => do
        Txn.when (i.retiredAt.isSome = true) do
          Plugins.updateInstallation principalId pluginId fun i ↦
            { i with retiredAt := none, revision := i.revision + 1, updatedAt := now }
          Plugins.setVersionState digest .installed none now
        pure receipt) s fun _ s' ↦ Consistent s'.db := by
  subst hs
  have hpluginKey : i.pluginId = pluginId := congrArg Prod.snd hi
  cases hfind : s.db.installations.find? (principalId, pluginId) with
  | none =>
      unfold Plugins.insertInstallation requireVersionRow
      simp only [post_bind, post_read, post_require, post_attempt, post_pure]
      intro _ db' hdb'
      obtain ⟨installations, hinsert, rfl⟩ := Option.map_eq_some_iff.mp hdb'
      refine h.insertInstallation hinsert ⟨fun _ ↦ ?_, fun henabled ↦ ?_⟩
      · exact ⟨v, hv, hdigest.trans hnew.symm, hplugin.trans hpluginKey.symm, hfirst hfind⟩
      · rw [hdisabled] at henabled
        cases henabled
  | some j =>
      unfold Plugins.updateInstallation Plugins.setVersionState
      simp only [post_when, post_bind, post_write, post_pure]
      refine ⟨fun hretired ↦ ?_, fun _ ↦ h⟩
      -- the two writes commute, and in this order every state between is consistent
      have hversions := h.setVersionState digest .installed none now (.inl rfl)
      refine hversions.updateInstallation _ _ _ _ fun b hb hgood ↦ ?_
      obtain rfl : j = b := Option.some.inj (hfind.symm.trans hb)
      refine ⟨fun _ ↦ ?_, fun henabled ↦ ?_⟩
      · refine ⟨_, List.mem_map.mpr ⟨v, hv, rfl⟩, ?_⟩
        rw [if_pos (decide_eq_true hdigest)]
        exact ⟨hdigest.trans (hactive j hfind).symm, hplugin.trans
          (congrArg Prod.snd (Table.key_of_find? hfind)).symm, rfl⟩
      · rw [(hgood.enabled henabled).1] at hretired
        cases hretired

theorem installPlugin_post (h : Consistent db) {principalId commandId : String} {payload : Json}
    {p : Package} {names : CommandNames}
    (hfits : Fits (.install principalId commandId payload p names) db) (w : World) :
    Post (installPlugin principalId commandId payload p names) ⟨db, w⟩
      fun _ s' ↦ Consistent s'.db := by
  unfold installPlugin utcNow
  rw [post_bind, post_draw]
  refine post_acceptPluginCommand consistent_onStore h fun w₁ ↦ ?_
  unfold installUncommitted
  simp only [post_bind, post_read, post_require, findInstallation]
  intro hbound hidentity
  rw [post_when]
  refine ⟨fun hnone ↦ ?_, fun hsome ↦ ?_⟩
  · -- the version is new
    unfold Plugins.insertVersion
    simp only [post_bind, post_read, post_require, post_attempt]
    intro _ db' hdb' hactive
    obtain ⟨versions, hinsert, rfl⟩ := Option.map_eq_some_iff.mp hdb'
    have hnew := Table.mem_of_insert? hinsert
    refine consistent_installed (h.insertVersion hinsert) hnew rfl rfl (fun _ ↦ rfl)
      (fun i hi ↦ ?_) rfl rfl rfl _ _ rfl
    have hfind : db.installations.find? (principalId, p.manifest.id) = some i := hi
    rw [hfind, Option.all_some, decide_eq_true_eq] at hactive
    exact hactive
  · intro hactive
    obtain ⟨v, hv⟩ : ∃ v, boundVersion db p.manifest.id p.manifest.version = some v :=
      Option.ne_none_iff_exists'.mp fun hnone ↦ hsome (by rw [hnone]; rfl)
    obtain ⟨hmem, hplugin, _⟩ := boundVersion_spec hv
    have hdigest : v.digest = p.digest := by
      rwa [hv, Option.all_some, decide_eq_true_eq] at hbound
    refine consistent_installed h hmem hdigest hplugin (fun hfirst ↦ ?_) (fun i hi ↦ ?_) rfl rfl
      rfl (w.clock 0) _ rfl
    · exact hfits hfirst v (hdigest ▸ Table.find?_of_mem hmem)
    · rwa [hi, Option.all_some, decide_eq_true_eq] at hactive

/-- An installation is pointed to a version that is in the table. -/
theorem setActiveDigest_post (h : Consistent db) {principalId pluginId digest : String} (now : Time)
    {v : PackageVersion} (hv : v ∈ db.versions.rows) (hdigest : v.digest = digest)
    (hplugin : v.pluginId = pluginId) (hinstalled : v.state = .installed)
    (hruns : ∀ i, db.installations.find? (principalId, pluginId) = some i → i.retiredAt = none ∧
      (i.enabled = true → v.compatibility = .compatible ∧
        (v.manifest.needsModelBinding = true → i.modelBinding.isSome = true))) (w : World) :
    Post (setActiveDigest principalId pluginId digest now) ⟨db, w⟩
      fun _ s' ↦ Consistent s'.db := by
  unfold setActiveDigest requireVersionRow Plugins.updateInstallation
  simp only [post_bind, post_read, post_require, post_write]
  intro _
  refine h.updateInstallation _ _ _ _ fun i hi _ ↦ ?_
  obtain ⟨hactive, hcan⟩ := hruns i hi
  have hkey : i.pluginId = pluginId := congrArg Prod.snd (Table.key_of_find? hi)
  refine ⟨fun _ ↦ ⟨v, hv, hdigest, hplugin.trans hkey.symm, hinstalled⟩, fun henabled ↦ ?_⟩
  refine ⟨hactive, fun v' hv' hdigest' ↦ ?_⟩
  have heq : v' = v :=
    List.inj_on_of_nodup_map db.versions.nodup hv' hv (hdigest'.trans hdigest.symm)
  rw [heq]
  exact hcan henabled

/-- A version of the table is put in use again and pointed to. -/
theorem switch_post (h : Consistent db) (principalId : String) {pluginId digest : String}
    (now : Time) {v : PackageVersion} (hv : v ∈ db.versions.rows) (hdigest : v.digest = digest)
    (hplugin : v.pluginId = pluginId)
    (hruns : ∀ i, db.installations.find? (principalId, pluginId) = some i → i.retiredAt = none ∧
      (i.enabled = true → v.compatibility = .compatible ∧
        (v.manifest.needsModelBinding = true → i.modelBinding.isSome = true))) (w : World) :
    Post (do
      setVersionState digest .installed none now
      setActiveDigest principalId pluginId digest now) ⟨db, w⟩ fun _ s' ↦ Consistent s'.db := by
  have hversions := h.setVersionState digest .installed none now (.inl rfl)
  unfold Plugins.setVersionState
  rw [post_bind, post_write]
  refine setActiveDigest_post hversions now
    (v := { v with state := .installed, retiredAt := none, updatedAt := now }) ?_ hdigest hplugin
    rfl hruns w
  refine List.mem_map.mpr ⟨v, hv, ?_⟩
  rw [if_pos (decide_eq_true hdigest)]

theorem updatePlugin_post (h : Consistent db) {principalId commandId pluginId : String}
    {payload : Json} {p : Package} {names : CommandNames}
    (hfits : Fits (.update principalId commandId payload pluginId p names) db) (w : World) :
    Post (updatePlugin principalId commandId payload pluginId p names) ⟨db, w⟩
      fun _ s' ↦ Consistent s'.db := by
  unfold updatePlugin utcNow
  rw [post_bind, post_draw]
  refine post_acceptPluginCommand consistent_onStore h fun w₁ ↦ ?_
  unfold updateUncommitted changeableInstallation findInstallation
  simp only [post_bind, post_read, post_require, post_getOr, post_pure]
  intro i hi hactive _ hid hcompatible hbound
  have hone : ∀ j, db.installations.find? (principalId, pluginId) = some j → j = i :=
    fun j hj ↦ Option.some.inj (hj.symm.trans hi)
  rw [Option.isNone_iff_eq_none] at hactive
  cases hfind : boundVersion db pluginId p.manifest.version with
  | none =>
      unfold Plugins.insertVersion
      simp only [post_bind, post_read, post_require, post_attempt]
      intro _ db' hdb'
      obtain ⟨versions, hinsert, rfl⟩ := Option.map_eq_some_iff.mp hdb'
      have hnew := Table.mem_of_insert? hinsert
      refine (setActiveDigest_post (h.insertVersion hinsert) _ hnew rfl rfl rfl ?_ _).mono
        fun _ _ hdone ↦ (post_pure _).mpr hdone
      intro j hj
      obtain rfl := hone j hj
      refine ⟨hactive, fun henabled ↦ ⟨hcompatible, ?_⟩⟩
      exact (hfits j hi henabled).2 (Table.find?_key_of_insert? hinsert)
  | some v =>
      obtain ⟨hmem, hplugin, _⟩ := boundVersion_spec hfind
      have hdigest : v.digest = p.digest := by
        rwa [hfind, Option.all_some, decide_eq_true_eq] at hbound
      have hswitch := switch_post h principalId (w.clock 0) hmem hdigest hplugin (fun j hj ↦ ?_) w₁
      · rw [post_bind] at hswitch ⊢
        exact hswitch.mono fun _ _ hpost ↦ by
          rw [post_bind]
          exact hpost.mono fun _ _ hdone ↦ (post_pure _).mpr hdone
      · obtain rfl := hone j hj
        refine ⟨hactive, fun henabled ↦ (hfits j hi henabled).1 v ?_⟩
        exact hdigest ▸ Table.find?_of_mem hmem

theorem rollbackPlugin_post (h : Consistent db)
    {principalId commandId pluginId targetDigest : String} {expected : Option String}
    (hfits : Fits (.rollback principalId commandId pluginId targetDigest expected) db) (w : World) :
    Post (rollbackPlugin principalId commandId pluginId targetDigest expected) ⟨db, w⟩
      fun _ s' ↦ Consistent s'.db := by
  unfold rollbackPlugin utcNow changeableInstallation findInstallation
  rw [post_bind, post_draw]
  refine post_acceptPluginCommand consistent_onStore h fun w₁ ↦ ?_
  simp only [post_bind, post_read, post_require, post_getOr, post_pure]
  intro i hi hactive _ target htarget hcompatible
  rw [Option.isNone_iff_eq_none] at hactive
  obtain ⟨hfind, hplugin⟩ := Option.filter_eq_some_iff.mp htarget
  have hswitch := switch_post h principalId (w.clock 0) (Table.mem_of_find? hfind)
    (Table.key_of_find? hfind) (of_decide_eq_true hplugin) (fun j hj ↦ ?_) w₁
  · rw [post_bind] at hswitch
    exact hswitch
  · obtain rfl : j = i := Option.some.inj (hj.symm.trans hi)
    exact ⟨hactive, fun henabled ↦ ⟨hcompatible, hfits j hi henabled target hfind⟩⟩

theorem removePlugin_post (h : Consistent db) {principalId commandId pluginId : String}
    {expected : Option String} (w : World) :
    Post (removePlugin principalId commandId pluginId expected) ⟨db, w⟩
      fun _ s' ↦ Consistent s'.db := by
  unfold removePlugin utcNow findInstallation
  rw [post_bind, post_draw]
  refine post_acceptPluginCommand consistent_onStore h fun w₁ ↦ ?_
  unfold Plugins.updateInstallation Plugins.setVersionState
  simp only [post_bind, post_read, post_require, post_getOr, post_write, post_when, post_pure]
  intro i hi _
  have hretired := h.updateInstallation principalId pluginId
    (fun i ↦ { i with
      enabled := false, retiredAt := some (w.clock 0), revision := i.revision + 1,
      updatedAt := w.clock 0 }) (fun _ ↦ rfl)
    fun j _ _ ↦ ⟨by rintro ⟨⟩, by rintro ⟨⟩⟩
  refine ⟨fun hcount ↦ ?_, fun _ ↦ hretired⟩
  refine hretired.setVersionState _ _ _ _ (.inr fun j hj hactive heq ↦ ?_)
  have hnone := Table.rowcount_eq_zero_iff.mp hcount j hj
  rw [heq, hactive] at hnone
  simp at hnone

theorem setPluginEnabled_post (h : Consistent db)
    {principalId commandId commandType pluginId : String} {expected : Option String}
    {enabled : Bool} (w : World) :
    Post (setPluginEnabled principalId commandId commandType pluginId expected enabled) ⟨db, w⟩
      fun _ s' ↦ Consistent s'.db := by
  unfold setPluginEnabled findActive utcNow
  refine post_acceptPluginCommand consistent_onStore h fun w₁ ↦ ?_
  unfold Plugins.updateInstallation
  simp only [post_bind, post_read, post_require, post_getOr, post_write, post_when, post_draw,
    post_pure]
  rintro ⟨i, v⟩ hiv _ hcompatible hretired hbound
  obtain ⟨i', hi, hjoin⟩ := Option.bind_eq_some_iff.mp hiv
  obtain ⟨v', hv, heq⟩ := Option.map_eq_some_iff.mp hjoin
  cases heq
  refine ⟨fun _ ↦ ?_, fun _ ↦ h⟩
  refine h.updateInstallation _ _ _ _ fun j hj hgood ↦ ⟨hgood.usable, fun henabled ↦ ?_⟩
  obtain rfl : j = i := Option.some.inj (hj.symm.trans hi)
  refine ⟨(hretired henabled).1, fun b hb hdigest ↦ ?_⟩
  obtain rfl : b = v := List.inj_on_of_nodup_map db.versions.nodup hb (Table.mem_of_find? hv)
    (hdigest.trans (Table.key_of_find? hv).symm)
  exact ⟨hcompatible henabled, hbound henabled⟩

theorem bindPluginModel_post (h : Consistent db)
    {principalId commandId pluginId bindingId requestedModel : String}
    {binding : List (String × Json)} {expected : Option String} (w : World) :
    Post (bindPluginModel principalId commandId pluginId bindingId requestedModel binding expected)
      ⟨db, w⟩ fun _ s' ↦ Consistent s'.db := by
  unfold bindPluginModel findActive utcNow bindingField
  rw [post_bind, post_draw]
  refine post_acceptPluginCommand consistent_onStore h fun w₁ ↦ ?_
  unfold Plugins.updateInstallation
  simp only [post_bind, post_read, post_require, post_getOr, post_write, post_when, post_pure]
  rintro ⟨i, v⟩ _ _ _ _
  refine ⟨fun _ _ _ _ _ _ _ ↦ ?_, fun _ _ _ _ _ _ _ ↦ h⟩
  refine h.updateInstallation _ _ _ _ fun j _ hgood ↦ ⟨hgood.usable, fun henabled ↦ ?_⟩
  obtain ⟨hactive, hruns⟩ := hgood.enabled henabled
  exact ⟨hactive, fun b hb hdigest ↦ ⟨(hruns b hb hdigest).1, fun _ ↦ rfl⟩⟩

theorem discardStaleFixedCapability_post (h : Consistent db) {principalId pluginId : String}
    (w : World) : Post (discardStaleFixedCapability principalId pluginId) ⟨db, w⟩
      fun _ s' ↦ Consistent s'.db := by
  unfold discardStaleFixedCapability findInstallation
  rw [post_bind, post_read]
  split
  · rw [post_pure]
    exact h
  · unfold utcNow Plugins.updateInstallation
    simp only [post_bind, post_draw, post_write, post_pure]
    exact h.updateInstallation _ _ _ _ fun j _ hgood ↦ ⟨hgood.usable, by rintro ⟨⟩⟩

theorem PluginOp.after_consistent {op : PluginOp} (hfits : Fits op db) (h : Consistent db)
    (w : World) : Consistent (op.after db w) := by
  have hpost : Post op.exec ⟨db, w⟩ fun _ s' ↦ Consistent s'.db := by
    cases op with
    | install => exact (post_map _ _).mpr (installPlugin_post h hfits w)
    | update => exact (post_map _ _).mpr (updatePlugin_post h hfits w)
    | rollback => exact (post_map _ _).mpr (rollbackPlugin_post h hfits w)
    | remove => exact (post_map _ _).mpr (removePlugin_post h w)
    | setEnabled => exact (post_map _ _).mpr (setPluginEnabled_post h w)
    | bindModel => exact (post_map _ _).mpr (bindPluginModel_post h w)
    | discardStale => exact (post_map _ _).mpr (discardStaleFixedCapability_post h w)
    | transact op =>
        unfold PluginOp.exec onStore
        rw [post_zoom]
        exact fun _ _ _ ↦ consistent_onStore db _ h
  exact hpost.commit h

/-! ## What a removal leaves alone -/

/-- Installations of other principals keep their rows, and those in use the
version they point to. Any version stays one that a rollback finds. -/
structure Spares (principalId : String) (db db' : PluginDatabase) : Prop where
  installations : ∀ j, j.principalId ≠ principalId →
    (j ∈ db'.installations.rows ↔ j ∈ db.installations.rows)
  active : ∀ j ∈ db.installations.rows, j.principalId ≠ principalId → j.retiredAt = none →
    ∀ v, v.digest = j.activeDigest → (v ∈ db'.versions.rows ↔ v ∈ db.versions.rows)
  versions : ∃ g, db'.versions.rows = db.versions.rows.map g ∧
    ∀ v ∈ db.versions.rows, SameVersion v (g v)

theorem Spares.refl (principalId : String) (db : PluginDatabase) : Spares principalId db db :=
  ⟨fun _ _ ↦ Iff.rfl, fun _ _ _ _ _ _ ↦ Iff.rfl, id, by rw [List.map_id],
    fun _ _ ↦ ⟨rfl, rfl, rfl, rfl⟩⟩

theorem mem_update_other {principalId pluginId : String} {t : Table Installation.key}
    {f : Installation → Installation} (hf : ∀ i, (f i).key = i.key) {j : Installation}
    (hj : j.principalId ≠ principalId) :
    j ∈ (t.update (fun i ↦ i.key = (principalId, pluginId)) f hf).rows ↔ j ∈ t.rows := by
  have hkey : ¬j.key = (principalId, pluginId) := fun h ↦ hj (congrArg Prod.fst h)
  rw [Table.mem_update]
  constructor
  · rintro ⟨b, hb, rfl⟩
    by_cases hbkey : b.key = (principalId, pluginId)
    · rw [if_pos (decide_eq_true hbkey)] at hkey
      exact absurd ((hf b).trans hbkey) hkey
    · rwa [if_neg (by simpa using hbkey)]
  · intro hmem
    exact ⟨j, hmem, if_neg (by simpa using hkey)⟩

theorem Spares.retire {principalId digest : String} {db' : PluginDatabase}
    (h : Spares principalId db db') (hversions : db'.versions = db.versions)
    (hunused : ∀ j ∈ db'.installations.rows, j.retiredAt = none → j.activeDigest ≠ digest)
    (retiredAt : Option Time) (now : Time) :
    Spares principalId db { db' with
      versions := db'.versions.update (fun v ↦ v.digest = digest) fun v ↦
        { v with state := .retired, retiredAt := retiredAt, updatedAt := now } } := by
  refine ⟨h.installations, fun j hj hother hactive v hv ↦ ?_, ?_⟩
  · have hne := hunused j ((h.installations j hother).mpr hj) hactive
    rw [hversions, Table.mem_update]
    constructor
    · rintro ⟨b, hb, rfl⟩
      by_cases hbdigest : b.digest = digest
      · rw [if_pos (decide_eq_true hbdigest)] at hv
        exact absurd (hv.symm.trans hbdigest) hne
      · rwa [if_neg (by simpa using hbdigest)]
    · intro hmem
      refine ⟨v, hmem, if_neg ?_⟩
      simpa using fun heq ↦ hne (hv.symm.trans heq)
  · refine ⟨_, by rw [hversions]; rfl, fun v _ ↦ ?_⟩
    split
    · exact ⟨rfl, rfl, rfl, rfl⟩
    · exact ⟨rfl, rfl, rfl, rfl⟩

theorem remove_spares (db : PluginDatabase) (principalId commandId pluginId : String)
    (expected : Option String) (w : World) :
    Spares principalId db
      ((PluginOp.remove principalId commandId pluginId expected).after db w) := by
  refine Post.commit (P := Spares principalId db) (.refl principalId db) ((post_map _ _).mpr ?_)
  unfold removePlugin utcNow findInstallation
  rw [post_bind, post_draw]
  refine post_acceptPluginCommand (fun _ _ hQ ↦ ⟨hQ.installations, hQ.active, hQ.versions⟩)
    (.refl principalId db) fun w₁ ↦ ?_
  unfold Plugins.updateInstallation Plugins.setVersionState
  simp only [post_bind, post_read, post_require, post_getOr, post_write, post_when, post_pure]
  intro i _ _
  have hspares : Spares principalId db { db with
      installations := db.installations.update (fun i ↦ i.key = (principalId, pluginId))
        (fun i ↦ { i with
          enabled := false, retiredAt := some (w.clock 0), revision := i.revision + 1,
          updatedAt := w.clock 0 }) fun _ ↦ rfl } := by
    refine ⟨fun j hj ↦ ?_, fun _ _ _ _ _ _ ↦ Iff.rfl, (Spares.refl principalId db).versions⟩
    refine mem_update_other ?_ hj
    exact fun _ ↦ rfl
  refine ⟨fun hcount ↦ ?_, fun _ ↦ hspares⟩
  refine hspares.retire rfl (fun j hj hactive heq ↦ ?_) _ _
  have hnone := Table.rowcount_eq_zero_iff.mp hcount j hj
  rw [heq, hactive] at hnone
  simp at hnone

/-! ## Whole runs -/

/-- Commands that fit keep all installations consistent; and whatever came
before, a removal spares the installations of other principals. -/
theorem installations_consistent_and_apart (db : PluginDatabase) :
    (pluginStore.ReachableBy (fun i db ↦ Fits i.1 db) db → Consistent db) ∧
      ∀ principalId commandId pluginId expected w, Spares principalId db
        ((PluginOp.remove principalId commandId pluginId expected).after db w) := by
  refine ⟨fun h ↦ ?_, remove_spares db⟩
  refine System.ReachableBy.invariant ?_ ?_ h
  · rintro _ rfl i hi
    cases hi
  · rintro i db db' hconsistent hfits rfl
    exact PluginOp.after_consistent hfits hconsistent i.2

/-! ## A version another principal removed -/

namespace Shared

def manifest : PackageManifest := ⟨"acme.tool", "1.0.0", .wasi, []⟩

def package : Package := ⟨manifest, "sha256:1", .unsigned, none, .compatible, "local_file"⟩

def installFor (principalId : String) (n : ℕ) : PluginOp × World :=
  (.install principalId "install" (.obj []) package ⟨"plugin.install", "plugin.install", []⟩,
    .counting n)

@[irreducible] def installed : PluginDatabase :=
  (installFor "first" 0).1.after .empty (installFor "first" 0).2

@[irreducible] def removed : PluginDatabase :=
  (PluginOp.remove "first" "remove" "acme.tool" none).after installed (.counting 10)

@[irreducible] def reinstalled : PluginDatabase :=
  (installFor "second" 20).1.after removed (installFor "second" 20).2

theorem reachable_installed : pluginStore.ReachableBy (fun i db ↦ Fits i.1 db) installed := by
  have hempty : pluginStore.ReachableBy (fun i db ↦ Fits i.1 db) .empty := ⟨_, rfl, .refl _⟩
  rw [installed]
  exact hempty.step (i := installFor "first" 0) (fun _ _ hv ↦ by cases hv) rfl

def successor : Package :=
  ⟨⟨"acme.tool", "2.0.0", .wasi, []⟩, "sha256:2", .unsigned, none, .compatible, "local_file"⟩

def enablement : PluginOp := .setEnabled "second" "enable" "plugin.enable" "acme.tool" none true

def replacement : PluginOp :=
  .update "second" "update" (.obj []) "acme.tool" successor ⟨"plugin.update", "plugin.update", []⟩

def reinstallation : PluginOp :=
  .install "first" "reinstall" (.obj []) package ⟨"plugin.install", "plugin.install", []⟩

/-- The second principal installs the same version, enables it and replaces it; the first
removes its own and installs the version again. -/
@[irreducible] def joined : PluginDatabase :=
  (installFor "second" 20).1.after installed (installFor "second" 20).2

@[irreducible] def enabled : PluginDatabase := enablement.after joined (.counting 30)

@[irreducible] def replaced : PluginDatabase := replacement.after enabled (.counting 40)

@[irreducible] def left : PluginDatabase :=
  (PluginOp.remove "first" "remove" "acme.tool" none).after replaced (.counting 50)

@[irreducible] def rejoined : PluginDatabase := reinstallation.after left (.counting 60)

theorem fits_joining : Fits (installFor "second" 20).1 installed := by
  have hstates : (installed.versions.find? "sha256:1").all (fun v ↦ v.state = .installed) = true :=
    by decide +kernel
  intro _ v hv
  have hfind : installed.versions.find? "sha256:1" = some v := hv
  rw [hfind, Option.all_some, decide_eq_true_eq] at hstates
  exact hstates

theorem fits_replacement : Fits replacement enabled := by
  have hnew : (enabled.versions.find? "sha256:2").isNone = true := by decide +kernel
  intro i _ _
  refine ⟨fun v hv ↦ ?_, fun _ hneeds ↦ absurd hneeds (by decide)⟩
  have hfind : enabled.versions.find? "sha256:2" = some v := hv
  rw [hfind] at hnew
  cases hnew

theorem fits_reinstallation : Fits reinstallation left := by
  have hold : (left.installations.find? ("first", "acme.tool")).isSome = true := by decide +kernel
  intro hnone
  have hfind : left.installations.find? ("first", "acme.tool") = none := hnone
  rw [hfind] at hold
  cases hold

theorem reachable_rejoined : pluginStore.ReachableBy (fun i db ↦ Fits i.1 db) rejoined := by
  have hjoined : pluginStore.ReachableBy (fun i db ↦ Fits i.1 db) joined := by
    rw [joined]
    exact reachable_installed.step (i := installFor "second" 20) fits_joining rfl
  have henabled : pluginStore.ReachableBy (fun i db ↦ Fits i.1 db) enabled := by
    rw [enabled]
    exact hjoined.step (i := (enablement, .counting 30)) trivial rfl
  have hreplaced : pluginStore.ReachableBy (fun i db ↦ Fits i.1 db) replaced := by
    rw [replaced]
    exact henabled.step (i := (replacement, .counting 40)) fits_replacement rfl
  have hleft : pluginStore.ReachableBy (fun i db ↦ Fits i.1 db) left := by
    rw [left]
    exact hreplaced.step (i := (.remove "first" "remove" "acme.tool" none, .counting 50)) trivial
      rfl
  rw [rejoined]
  exact hleft.step (i := (reinstallation, .counting 60)) fits_reinstallation rfl

/-- Two principals with versions of one plugin, one replaced and one installed again. -/
theorem installations_consistent_and_apart_rejoined :
    (rejoined.installations.rows.map fun i ↦ (i.principalId, i.activeDigest, i.enabled)) =
      [("first", "sha256:1", false), ("second", "sha256:2", true)] ∧
    Consistent rejoined ∧ Spares "first" replaced left := by
  refine ⟨by decide +kernel,
    (installations_consistent_and_apart rejoined).1 reachable_rejoined, ?_⟩
  rw [left]
  exact (installations_consistent_and_apart replaced).2 "first" "remove" "acme.tool" none
    (.counting 50)

/-- A principal can install a version that stays retired. -/
theorem installed_while_retired : ¬∀ db, pluginStore.Reachable db → Consistent db := by
  intro h
  have hreach : pluginStore.Reachable reinstalled := by
    have hinstalled : pluginStore.Reachable installed := reachable_installed.weaken fun _ _ _ ↦ trivial
    have hremoved : pluginStore.Reachable removed := by
      rw [removed]
      exact hinstalled.step (i := (.remove "first" "remove" "acme.tool" none, .counting 10))
        trivial rfl
    rw [reinstalled]
    exact hremoved.step (i := installFor "second" 20) trivial rfl
  have hbad : (reinstalled.installations.rows.any fun i ↦ i.retiredAt = none &&
      reinstalled.versions.rows.all fun v ↦ v.state ≠ .installed) = true := by
    decide +kernel
  obtain ⟨i, hi, hbad⟩ := List.any_eq_true.mp hbad
  rw [Bool.and_eq_true, decide_eq_true_eq] at hbad
  obtain ⟨v, hv, _, _, hstate⟩ := (h reinstalled hreach i hi).usable hbad.1
  have hne := List.all_eq_true.mp hbad.2 v hv
  rw [decide_eq_true_eq] at hne
  exact hne hstate

end Shared

end ShejaneRuntime.Plugins
