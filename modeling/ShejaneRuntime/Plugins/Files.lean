import ShejaneRuntime.Plugins.Registry
import ShejaneRuntime.Plugins.Consistency

/-!
# Package rows and package directories

Every version row has its directory, as long as no command removes the
directory of a version that is on record or about to be.
-/

namespace ShejaneRuntime.Plugins

open Lib Lib.Txn Store

/-! ## Versions a command may add -/

/-- A handler leaves the rest of the store alone, and adds versions under the
given digests only. -/
def Handles (digests : List String) (db db' : PluginDatabase) : Prop :=
  db'.store = db.store ∧ ∀ v' ∈ db'.versions.rows,
    v'.digest ∈ digests ∨ ∃ v ∈ db.versions.rows, v.digest = v'.digest

variable {digests : List String}

instance : Std.Refl (Handles digests) := ⟨fun _ ↦ ⟨rfl, fun v hv ↦ .inr ⟨v, hv, rfl⟩⟩⟩

instance : IsTrans PluginDatabase (Handles digests) := by
  refine ⟨fun db db' db'' h h' ↦ ⟨h'.1.trans h.1, fun v'' hv'' ↦ ?_⟩⟩
  rcases h'.2 v'' hv'' with hin | ⟨v', hv', heq'⟩
  · exact .inl hin
  · rcases h.2 v' hv' with hin | ⟨v, hv, heq⟩
    · exact .inl (heq' ▸ hin)
    · exact .inr ⟨v, hv, heq.trans heq'⟩

theorem handles_insertVersion {v : PackageVersion} (hv : v.digest ∈ digests) :
    Keeps (Handles digests) (insertVersion v) := by
  unfold insertVersion
  refine .bind (.read _) fun _ ↦ .bind (.require _ _) fun _ ↦ .attempt fun db db' hdb ↦ ?_
  obtain ⟨versions, hinsert, rfl⟩ := Option.map_eq_some_iff.mp hdb
  refine ⟨rfl, fun v' hv' ↦ ?_⟩
  rcases (Table.mem_insert? hinsert).mp hv' with hold | rfl
  · exact .inr ⟨v', hold, rfl⟩
  · exact .inl hv

theorem handles_setVersionState (digest : String) (state : VersionState) (retiredAt : Option Time)
    (now : Time) : Keeps (Handles digests) (setVersionState digest state retiredAt now) := by
  refine .write fun db ↦ ⟨rfl, fun v' hv' ↦ ?_⟩
  obtain ⟨v, hv, rfl⟩ := List.mem_map.mp hv'
  refine .inr ⟨v, hv, ?_⟩
  dsimp only
  split
  · rfl
  · rfl

theorem handles_insertInstallation (i : Installation) :
    Keeps (Handles digests) (insertInstallation i) := by
  unfold insertInstallation requireVersionRow
  refine .bind (.bind (.read _) fun _ ↦ .require _ _) fun _ ↦ .attempt fun db db' hdb ↦ ?_
  obtain ⟨installations, _, rfl⟩ := Option.map_eq_some_iff.mp hdb
  exact ⟨rfl, fun v hv ↦ .inr ⟨v, hv, rfl⟩⟩

theorem handles_updateInstallation (principalId pluginId : String)
    (f : Installation → Installation) (hf : ∀ i, (f i).key = i.key) :
    Keeps (Handles digests) (updateInstallation principalId pluginId f hf) :=
  .write fun _ ↦ ⟨rfl, fun v hv ↦ .inr ⟨v, hv, rfl⟩⟩

theorem handles_setActiveDigest (principalId pluginId digest : String) (now : Time) :
    Keeps (Handles digests) (setActiveDigest principalId pluginId digest now) := by
  unfold setActiveDigest requireVersionRow
  exact .bind (.bind (.read _) fun _ ↦ .require _ _) fun _ ↦ handles_updateInstallation _ _ _ _

theorem handles_changeableInstallation (principalId pluginId : String) :
    Keeps (Handles digests) (changeableInstallation principalId pluginId) :=
  .bind (.read _) fun _ ↦ .bind (.getOr _ _) fun _ ↦ .bind (.require _ _) fun _ ↦ .pure _

/-- Only versions under the given digests are new. -/
def GainsOnly (digests : List String) (db db' : PluginDatabase) : Prop :=
  ∀ v' ∈ db'.versions.rows, v'.digest ∈ digests ∨ ∃ v ∈ db.versions.rows, v.digest = v'.digest

theorem gainsOnly_refl (db : PluginDatabase) : GainsOnly digests db db :=
  fun v hv ↦ .inr ⟨v, hv, rfl⟩

theorem gainsOnly_acceptPluginCommand {principalId commandId commandType : String} {payload : Json}
    {handle : PluginTxn (Json × Time)} (h : Keeps (Handles digests) handle)
    (s : Session PluginDatabase World) :
    Post (acceptPluginCommand principalId commandId commandType payload handle) s
      fun _ s' ↦ GainsOnly digests s.db s'.db :=
  post_acceptPluginCommand (fun _ _ hQ ↦ hQ) (gainsOnly_refl s.db) fun w ↦
    (h ⟨s.db, w⟩).mono fun _ _ hdone ↦ hdone.2

/-! ## The handlers -/

theorem handles_installUncommitted (principalId commandId : String) (p : Package)
    (names : CommandNames) (now : Time) :
    Keeps (Handles [p.digest]) (installUncommitted principalId commandId p names now) := by
  refine .bind (.read _) fun _ ↦ .bind (.require _ _) fun _ ↦ .bind (.read _) fun _ ↦
    .bind (.require _ _) fun _ ↦ .bind (.when (handles_insertVersion (by simp [Package.newVersion])))
    fun _ ↦ .bind (.read _) fun installation ↦ .bind (.require _ _) fun _ ↦ ?_
  cases installation with
  | none => exact .bind (handles_insertInstallation _) fun _ ↦ .pure _
  | some i =>
      exact .bind (.when (.bind (handles_updateInstallation _ _ _ _) fun _ ↦
        handles_setVersionState _ _ _ _)) fun _ ↦ .pure _

theorem handles_updateUncommitted (principalId commandId : String) (payload : Json)
    (pluginId : String) (p : Package) (names : CommandNames) (now : Time) :
    Keeps (Handles [p.digest])
      (updateUncommitted principalId commandId payload pluginId p names now) := by
  refine .bind (handles_changeableInstallation _ _) fun _ ↦ .bind (.require _ _) fun _ ↦
    .bind (.require _ _) fun _ ↦ .bind (.require _ _) fun _ ↦ .bind (.read _) fun bound ↦
    .bind (.require _ _) fun _ ↦ ?_
  cases bound with
  | none =>
      exact .bind (handles_insertVersion (by simp [Package.newVersion])) fun _ ↦
        .bind (handles_setActiveDigest _ _ _ _) fun _ ↦ .pure _
  | some v =>
      exact .bind (handles_setVersionState _ _ _ _) fun _ ↦
        .bind (handles_setActiveDigest _ _ _ _) fun _ ↦ .pure _

/-- A request adds at most the version of its package. -/
theorem storeCommand_gainsOnly (r : PackageRequest) (p : Package)
    (s : Session PluginDatabase World) :
    Post (r.storeCommand p) s fun _ s' ↦ GainsOnly [p.digest] s.db s'.db := by
  unfold PackageRequest.storeCommand
  split
  · unfold installPlugin utcNow
    rw [post_bind, post_draw]
    exact gainsOnly_acceptPluginCommand (handles_installUncommitted _ _ _ _ _) _
  · unfold updatePlugin utcNow
    rw [post_bind, post_draw]
    exact gainsOnly_acceptPluginCommand (handles_updateUncommitted _ _ _ _ _ _ _) _

/-- The other commands add no version. -/
theorem fileFree_gainsOnly {op : PluginOp} (hop : op.fileFree = true) (db : PluginDatabase)
    (w : World) : GainsOnly [] db (op.after db w) := by
  refine Post.commit (P := GainsOnly [] db) (gainsOnly_refl db) ?_
  cases op with
  | install => cases hop
  | update => cases hop
  | rollback principalId commandId pluginId targetDigest expected =>
      refine (post_map _ _).mpr ?_
      unfold rollbackPlugin utcNow
      rw [post_bind, post_draw]
      refine gainsOnly_acceptPluginCommand ?_ _
      exact .bind (handles_changeableInstallation _ _) fun _ ↦ .bind (.require _ _) fun _ ↦
        .bind (.read _) fun _ ↦ .bind (.getOr _ _) fun _ ↦ .bind (.require _ _) fun _ ↦
        .bind (handles_setVersionState _ _ _ _) fun _ ↦
        .bind (handles_setActiveDigest _ _ _ _) fun _ ↦ .pure _
  | remove principalId commandId pluginId expected =>
      refine (post_map _ _).mpr ?_
      unfold removePlugin utcNow
      rw [post_bind, post_draw]
      refine gainsOnly_acceptPluginCommand ?_ _
      exact .bind (.read _) fun _ ↦ .bind (.getOr _ _) fun _ ↦ .bind (.require _ _) fun _ ↦
        .bind (handles_updateInstallation _ _ _ _) fun _ ↦ .bind (.read _) fun _ ↦
        .bind (.when (handles_setVersionState _ _ _ _)) fun _ ↦ .pure _
  | setEnabled principalId commandId commandType pluginId expected enabled =>
      refine (post_map _ _).mpr (gainsOnly_acceptPluginCommand ?_ _)
      exact .bind (.read _) fun _ ↦ .bind (.getOr _ _) fun _ ↦ .bind (.require _ _) fun _ ↦
        .bind (.require _ _) fun _ ↦ .bind (.require _ _) fun _ ↦ .bind (.require _ _) fun _ ↦
        .bind (.when (.bind (.draw _) fun _ ↦ handles_updateInstallation _ _ _ _)) fun _ ↦
        .bind (.draw _) fun _ ↦ .pure _
  | bindModel principalId commandId pluginId bindingId requestedModel binding expected =>
      refine (post_map _ _).mpr ?_
      unfold bindPluginModel utcNow
      rw [post_bind, post_draw]
      refine gainsOnly_acceptPluginCommand ?_ _
      exact .bind (.read _) fun _ ↦ .bind (.getOr _ _) fun _ ↦ .bind (.require _ _) fun _ ↦
        .bind (.require _ _) fun _ ↦ .bind (.require _ _) fun _ ↦
        .bind (.when (handles_updateInstallation _ _ _ _)) fun _ ↦ .bind (.getOr _ _) fun _ ↦
        .bind (.getOr _ _) fun _ ↦ .bind (.getOr _ _) fun _ ↦ .pure _
  | discardStale principalId pluginId =>
      refine (post_map _ _).mpr ?_
      unfold discardStaleFixedCapability findInstallation
      rw [post_bind, post_read]
      split
      · exact (post_pure _).mpr (gainsOnly_refl db)
      · unfold utcNow updateInstallation
        simp only [post_bind, post_draw, post_write, post_pure]
        exact gainsOnly_refl db
  | transact op =>
      unfold PluginOp.exec onStore
      rw [post_zoom]
      exact fun _ _ _ ↦ gainsOnly_refl db

/-! ## What the store raises -/

/-- No other command was accepted under the id. -/
def Unclaimed (db : Database) (principalId commandId commandType : String) (payload : Json) :
    Prop :=
  ∀ command, db.commands.find? (principalId, commandId) = some command →
    command.commandType = commandType ∧ command.payloadJson = encodePayload payload

theorem raises_acceptPluginCommand {E : StoreError → Prop} {s : Session PluginDatabase World}
    {principalId commandId commandType : String} {payload : Json}
    {handle : PluginTxn (Json × Time)}
    (hunclaimed : Unclaimed s.db.store principalId commandId commandType payload)
    (hkeeps : Keeps (Handles digests) handle) (hhandle : ∀ w, Raises handle ⟨s.db, w⟩ E) :
    Raises (acceptPluginCommand principalId commandId commandType payload handle) s E := by
  unfold acceptPluginCommand onStore
  rw [raises_bind, raises_zoom, post_zoom]
  unfold acceptedCommandReceiptUncommitted findCommand
  rw [raises_bind, post_bind, post_read, post_read]
  cases hfind : s.db.store.commands.find? (principalId, commandId) with
  | some command =>
      simp only [raises_bind, post_bind, raises_require, post_require, raises_pure, post_pure,
        raises_read]
      refine ⟨⟨trivial, fun hne ↦ absurd (hunclaimed command hfind) hne, fun _ ↦ trivial⟩,
        fun _ ↦ trivial⟩
  | none =>
      simp only [post_pure, raises_pure, raises_bind, raises_read, raises_zoom]
      refine ⟨⟨trivial, trivial⟩, hhandle _, ?_⟩
      refine (hkeeps _).mono fun result s' hdone ↦ ?_
      refine ⟨?_, fun _ _ _ ↦ trivial⟩
      unfold recordCommandReceiptUncommitted insertCommand
      rw [raises_attempt, Option.map_eq_none_iff]
      intro hnone
      have hsome := (Table.insert?_isSome_iff (t := s'.db.store.commands)
        (r := ⟨principalId, commandId, commandType, "", encodePayload payload,
          encodePayload result.1, none, result.2⟩)).mpr (by rw [hdone.1]; exact hfind)
      rw [hnone] at hsome
      cases hsome

variable {db : PluginDatabase}

theorem boundVersion_eq_none {pluginId version : String}
    (h : boundVersion db pluginId version = none) :
    (db.versions.rows.any fun r ↦ r.pluginId = pluginId && r.version = version) = false := by
  rw [List.any_eq_false]
  intro v hv
  have hnone := List.find?_eq_none.mp h v hv
  simpa using hnone

/-- A version under a fresh digest and number can be inserted. -/
theorem raises_insertVersion {E : StoreError → Prop} {v : PackageVersion} {w : World}
    (hclash : boundVersion db v.pluginId v.version = none)
    (hdigest : db.versions.find? v.digest = none ∨ E (uniqueFailed "plugin_versions.digest")) :
    Raises (insertVersion v) ⟨db, w⟩ E := by
  unfold insertVersion
  simp only [raises_bind, raises_read, post_read, raises_require, post_require, raises_attempt,
    Option.map_eq_none_iff]
  refine ⟨trivial, fun hne ↦ absurd (boundVersion_eq_none hclash) hne, fun _ hnone ↦ ?_⟩
  rcases hdigest with hfresh | hE
  · have hsome := Table.insert?_isSome_iff.mpr hfresh
    rw [hnone] at hsome
    cases hsome
  · exact hE

theorem raises_requireVersionRow {E : StoreError → Prop} {digest : String} {w : World}
    (h : ∃ v ∈ db.versions.rows, v.digest = digest) :
    Raises (requireVersionRow digest) ⟨db, w⟩ E := by
  unfold requireVersionRow
  simp only [raises_bind, raises_read, post_read, raises_require]
  refine ⟨trivial, fun hne ↦ absurd ?_ hne⟩
  obtain ⟨v, hv, rfl⟩ := h
  rw [Table.find?_of_mem hv]
  rfl

theorem raises_setActiveDigest {E : StoreError → Prop} {principalId pluginId digest : String}
    {now : Time} {w : World} (h : ∃ v ∈ db.versions.rows, v.digest = digest) :
    Raises (setActiveDigest principalId pluginId digest now) ⟨db, w⟩ E :=
  (raises_bind _ _).mpr ⟨raises_requireVersionRow h, fun _ _ _ ↦ raises_write _⟩

theorem raises_installed {E : StoreError → Prop} {principalId pluginId digest : String}
    {i : Installation} (hi : i.key = (principalId, pluginId))
    (hversion : ∃ v ∈ db.versions.rows, v.digest = i.activeDigest) (now : Time)
    (receipt : Json × Time) {s : Session PluginDatabase World} (hs : s.db = db) :
    Raises (match db.installations.find? (principalId, pluginId) with
      | none => do
        insertInstallation i
        pure receipt
      | some i => do
        Txn.when (i.retiredAt.isSome = true) do
          updateInstallation principalId pluginId fun i ↦
            { i with retiredAt := none, revision := i.revision + 1, updatedAt := now }
          setVersionState digest .installed none now
        pure receipt) s E := by
  subst hs
  cases hfind : s.db.installations.find? (principalId, pluginId) with
  | none =>
      unfold insertInstallation
      simp only [raises_bind, raises_attempt, raises_pure, Option.map_eq_none_iff]
      refine ⟨⟨raises_requireVersionRow hversion, ?_⟩, fun _ _ _ ↦ trivial⟩
      unfold requireVersionRow
      simp only [post_bind, post_read, post_require]
      intro _ hnone
      have hsome := (Table.insert?_isSome_iff (t := s.db.installations) (r := i)).mpr
        (by rw [hi]; exact hfind)
      rw [hnone] at hsome
      cases hsome
  | some j =>
      unfold updateInstallation setVersionState
      simp only [raises_bind, raises_when, raises_write, raises_pure, post_write]
      exact ⟨fun _ ↦ ⟨trivial, trivial⟩, fun _ _ _ ↦ trivial⟩

theorem installUncommitted_raises {principalId commandId : String} {p : Package}
    {names : CommandNames} {now : Time} {w : World} :
    Raises (installUncommitted principalId commandId p names now) ⟨db, w⟩ fun e ↦
      ∃ message, e = .pluginVersionConflict message := by
  unfold installUncommitted findInstallation
  simp only [raises_bind, raises_read, post_read, raises_require, post_require, raises_when,
    post_when, true_and]
  refine ⟨fun _ ↦ ⟨_, rfl⟩, fun hbound ↦ ⟨fun _ ↦ ⟨_, rfl⟩, fun hidentity ↦ ⟨fun hnone ↦ ?_, ?_⟩⟩⟩
  · -- a version with this digest would be bound
    rw [Option.isNone_iff_eq_none] at hnone
    refine raises_insertVersion hnone (.inl ?_)
    cases hfind : db.versions.find? p.digest with
    | none => exact hfind
    | some v =>
        rw [hfind, Option.all_some] at hidentity
        exact absurd hidentity (List.find?_eq_none.mp hnone v (Table.mem_of_find? hfind))
  · refine ⟨fun _ ↦ ?_, fun hsome ↦ ⟨fun _ ↦ ⟨_, rfl⟩, fun _ ↦ ?_⟩⟩
    · unfold insertVersion
      simp only [post_bind, post_read, post_require, post_attempt]
      intro _ db' hdb'
      obtain ⟨versions, hinsert, rfl⟩ := Option.map_eq_some_iff.mp hdb'
      have hnew := Table.mem_of_insert? hinsert
      exact ⟨fun _ ↦ ⟨_, rfl⟩, fun _ ↦ raises_installed (by rfl) ⟨_, hnew, by rfl⟩ _ _ (by rfl)⟩
    · obtain ⟨v, hv⟩ : ∃ v, boundVersion db p.manifest.id p.manifest.version = some v :=
        Option.ne_none_iff_exists'.mp fun hnone ↦ hsome (by rw [hnone]; rfl)
      rw [hv, Option.all_some, decide_eq_true_eq] at hbound
      exact raises_installed (by rfl) ⟨v, (boundVersion_spec hv).1, by exact hbound⟩ _ _ (by rfl)

/-- An update raises what its caller handles, or its version is on record. -/
theorem updateUncommitted_raises {principalId commandId pluginId : String} {payload : Json}
    {p : Package} {names : CommandNames} {now : Time} {w : World} :
    Raises (updateUncommitted principalId commandId payload pluginId p names now) ⟨db, w⟩ fun e ↦
      (∃ message, e = .pluginVersionConflict message) ∨ (∃ code message, e = .pluginState code message)
        ∨ ∃ v ∈ db.versions.rows, v.digest = p.digest := by
  unfold updateUncommitted changeableInstallation findInstallation
  simp only [raises_bind, raises_read, post_bind, post_read, raises_require, post_require,
    raises_getOr, post_getOr, raises_pure, post_pure, true_and]
  have hstate : ∀ code message, (∃ m, StoreError.pluginState code message = .pluginVersionConflict m) ∨
      (∃ c m, StoreError.pluginState code message = .pluginState c m) ∨
        ∃ v ∈ db.versions.rows, v.digest = p.digest :=
    fun code message ↦ .inr (.inl ⟨code, message, rfl⟩)
  refine ⟨⟨fun _ ↦ hstate _ _, fun _ _ ↦ ⟨fun _ ↦ hstate _ _, fun _ ↦ trivial⟩⟩, fun i _ _ ↦ ?_⟩
  refine ⟨fun _ ↦ hstate _ _, fun _ ↦ ⟨fun _ ↦ hstate _ _, fun _ ↦ ⟨fun _ ↦ hstate _ _, fun _ ↦ ?_⟩⟩⟩
  refine ⟨fun _ ↦ .inl ⟨_, rfl⟩, fun hbound ↦ ?_⟩
  cases hfind : boundVersion db pluginId p.manifest.version with
  | none =>
      refine (raises_bind _ _).mpr ⟨raises_insertVersion hfind ?_, ?_⟩
      · cases hdigest : db.versions.find? p.digest with
        | none => exact .inl hdigest
        | some v =>
            exact .inr (.inr (.inr ⟨v, Table.mem_of_find? hdigest, Table.key_of_find? hdigest⟩))
      · unfold insertVersion
        simp only [post_bind, post_read, post_require, post_attempt]
        intro _ db' hdb'
        obtain ⟨versions, hinsert, rfl⟩ := Option.map_eq_some_iff.mp hdb'
        have hnew := Table.mem_of_insert? hinsert
        exact (raises_bind _ _).mpr ⟨raises_setActiveDigest ⟨_, hnew, by rfl⟩, fun _ _ _ ↦
          raises_pure _⟩
  | some v =>
      rw [hfind, Option.all_some, decide_eq_true_eq] at hbound
      exact fun _ _ ↦ .inr (.inr ⟨v, (boundVersion_spec hfind).1, hbound⟩)

theorem storeCommand_raises {r : PackageRequest} {p : Package}
    (h : Unclaimed db.store r.principalId r.commandId r.commandType r.payload) (w : World) :
    Raises (r.storeCommand p) ⟨db, w⟩ fun e ↦
      r.catches e = true ∨ ∃ v ∈ db.versions.rows, v.digest = p.digest := by
  unfold PackageRequest.storeCommand
  cases hplugin : r.pluginId with
  | none =>
      have htype : r.commandType = "plugin.install" := by simp [PackageRequest.commandType, hplugin]
      rw [htype] at h
      unfold installPlugin utcNow
      rw [raises_bind, post_draw]
      refine ⟨raises_draw _, raises_acceptPluginCommand h (handles_installUncommitted _ _ _ _ _)
        fun w' e he ↦ .inl ?_⟩
      obtain ⟨message, rfl⟩ := installUncommitted_raises e he
      rfl
  | some pluginId =>
      have htype : r.commandType = "plugin.update" := by simp [PackageRequest.commandType, hplugin]
      rw [htype] at h
      unfold updatePlugin utcNow
      rw [raises_bind, post_draw]
      refine ⟨raises_draw _, raises_acceptPluginCommand h (handles_updateUncommitted _ _ _ _ _ _ _)
        fun w' e he ↦ ?_⟩
      rcases updateUncommitted_raises e he with ⟨message, rfl⟩ | ⟨code, message, rfl⟩ | hrow
      · exact .inl rfl
      · left
        simp [PackageRequest.catches, hplugin]
      · exact .inr hrow

/-! ## Directories -/

variable {γ ι : Type} {digestOf : γ → String}

def RegistryState.OnRecord (c : RegistryState γ ι) (digest : String) : Prop :=
  ∃ v ∈ c.db.versions.rows, v.digest = digest

/-- The condition on a step. A command that placed its directory commits under
an id that no other command took; it removes the directory only where the
digest is neither on record nor about to be committed by another command;
and it does not just stop before its version is on record. -/
def Orderly : RegistryAct γ ι → RegistryState γ ι → Prop
  | .commit t, c => ∀ r p, c.commands t = some (r, .commit p) → p.createdBlob = true →
      ¬c.OnRecord p.package.digest →
        Unclaimed c.db.store r.principalId r.commandId r.commandType r.payload
  | .discard t, c => ∀ r p, c.commands t = some (r, .discard p) → p.createdBlob = true →
      ¬c.OnRecord p.package.digest ∧ ∀ t' r' p', c.commands t' = some (r', .commit p') →
        p'.package.digest ≠ p.package.digest
  | .stop t, c => ∀ r point p, c.commands t = some (r, point) → point.prepared = some p →
      p.createdBlob = true → c.OnRecord p.package.digest
  | _, _ => True

/-- Every version on record, or about to be committed, has its directory with
the content of its digest. -/
structure Stored (digestOf : γ → String) (c : RegistryState γ ι) : Prop where
  contents : ∀ digest content, c.packages digest = some content → digestOf content = digest
  rows : ∀ v ∈ c.db.versions.rows, (c.packages v.digest).isSome = true
  coming : ∀ t r p, c.commands t = some (r, .commit p) →
    (c.packages p.package.digest).isSome = true

variable [DecidableEq ι] {c c' : RegistryState γ ι}

theorem commands_goOn {t t' : ι} {r r' : PackageRequest} {next point : CommandPoint}
    (h : (c.goOn t r next).commands t' = some (r', point)) :
    (t' = t ∧ r = r' ∧ next = point) ∨ (t' ≠ t ∧ c.commands t' = some (r', point)) := by
  by_cases ht : t' = t
  · subst ht
    simp only [RegistryState.goOn, Function.update_self] at h
    cases h
    exact .inl ⟨rfl, rfl, rfl⟩
  · simp only [RegistryState.goOn, Function.update_of_ne ht] at h
    exact .inr ⟨ht, h⟩

theorem Stored.goOn (h : Stored digestOf c) (t : ι) (r : PackageRequest) {next : CommandPoint}
    (hnext : ∀ p, next = .commit p → (c.packages p.package.digest).isSome = true) :
    Stored digestOf (c.goOn t r next) := by
  refine ⟨h.contents, h.rows, fun t' r' p hp ↦ ?_⟩
  rcases commands_goOn hp with ⟨_, _, hcommit⟩ | ⟨_, hcommit⟩
  · exact hnext p hcommit
  · exact h.coming t' r' p hcommit

omit [DecidableEq ι] in
theorem Stored.withDb (h : Stored digestOf c) {db : PluginDatabase} (digests : List String)
    (hgains : GainsOnly digests c.db db)
    (hstored : ∀ digest ∈ digests, (c.packages digest).isSome = true) :
    Stored digestOf { c with db := db } := by
  refine ⟨h.contents, fun v' hv' ↦ ?_, h.coming⟩
  rcases hgains v' hv' with hin | ⟨v, hv, heq⟩
  · exact hstored _ hin
  · exact heq ▸ h.rows v hv

theorem ingest_digest {r : PackageRequest} {a : Archive γ} {p : Package}
    (h : r.ingest digestOf a = some p) : p.digest = digestOf a.content := by
  simp only [PackageRequest.ingest, Option.ite_none_left_eq_some] at h
  obtain ⟨_, _, _, heq⟩ := h
  cases heq
  rfl

theorem Stored.place (h : Stored digestOf c) (t : ι) (r : PackageRequest) {content : γ}
    {p : Package} (hdigest : p.digest = digestOf content) :
    Stored digestOf (c.place t r (digestOf content) content p) := by
  unfold RegistryState.place
  cases hfound : c.packages (digestOf content) with
  | some _ =>
      refine h.goOn t r fun p' hp' ↦ ?_
      cases hp'
      rw [hdigest, hfound]
      rfl
  | none =>
      have hkeeps : ∀ d, (c.packages d).isSome = true →
          (Function.update c.packages (digestOf content) (some content) d).isSome = true := by
        intro d hd
        by_cases hdd : d = digestOf content
        · rw [hdd, Function.update_self]
          rfl
        · rwa [Function.update_of_ne hdd]
      have hplaced : Stored digestOf
          { c with packages := Function.update c.packages (digestOf content) (some content) } := by
        refine ⟨fun d content' hd ↦ ?_, fun v hv ↦ hkeeps _ (h.rows v hv),
          fun t' r' p' hp' ↦ hkeeps _ (h.coming t' r' p' hp')⟩
        by_cases hdd : d = digestOf content
        · subst hdd
          simp only [Function.update_self, Option.some.injEq] at hd
          rw [hd]
        · simp only [Function.update_of_ne hdd] at hd
          exact h.contents d content' hd
      refine hplaced.goOn t r fun p' hp' ↦ ?_
      cases hp'
      rw [hdigest]
      simp only [Function.update_self, Option.isSome_some]

omit [DecidableEq ι] in
theorem Stored.discard (h : Stored digestOf c) {p : PreparedPackage}
    (hfree : p.createdBlob = true → ¬c.OnRecord p.package.digest ∧
      ∀ t' r' p', c.commands t' = some (r', .commit p') →
        p'.package.digest ≠ p.package.digest) : Stored digestOf (c.discardNewBlob p) := by
  unfold RegistryState.discardNewBlob
  split
  · rename_i hcreated
    obtain ⟨hrecord, hcoming⟩ := hfree hcreated
    refine ⟨fun d content hd ↦ ?_, fun v hv ↦ ?_, fun t r p' hp' ↦ ?_⟩
    · by_cases hdd : d = p.package.digest
      · subst hdd
        simp only [Function.update_self] at hd
        cases hd
      · simp only [Function.update_of_ne hdd] at hd
        exact h.contents d content hd
    · have hne : v.digest ≠ p.package.digest := fun heq ↦ hrecord ⟨v, hv, heq⟩
      simp only [Function.update_of_ne hne]
      exact h.rows v hv
    · simp only [Function.update_of_ne (hcoming t r p' hp')]
      exact h.coming t r p' hp'
  · exact h

theorem Stored.step (h : Stored digestOf c) {act : RegistryAct γ ι} {w : World}
    (hok : Orderly act c) (hstep : act.apply digestOf w c = some c') : Stored digestOf c' := by
  unfold RegistryAct.apply at hstep
  cases act with
  | begin t r =>
      dsimp only at hstep
      split at hstep
      · cases hstep
        exact h.goOn t r (by rintro _ ⟨⟩)
      · cases hstep
  | check t =>
      dsimp only at hstep
      split at hstep
      · cases hstep
        refine h.goOn t _ fun p hp ↦ ?_
        unfold RegistryState.replays at hp
        split at hp
        · cases hp
        · split at hp <;> cases hp
      · cases hstep
  | ingest t archive =>
      dsimp only at hstep
      split at hstep
      · split at hstep
        · rename_i a p hprepared
          cases hstep
          obtain ⟨a', _, hmap⟩ := Option.bind_eq_some_iff.mp hprepared
          obtain ⟨p', hp', heq⟩ := Option.map_eq_some_iff.mp hmap
          cases heq
          exact h.place t _ (ingest_digest hp')
        · cases hstep
          exact h.goOn t _ (by rintro _ ⟨⟩)
      · cases hstep
  | commit t =>
      dsimp only at hstep
      split at hstep
      · rename_i r p hcommand
        have hdb : Stored digestOf { c with
            db := (Txn.commit (r.storeCommand p.package) c.db w).2 } := by
          refine h.withDb [p.package.digest] ?_ ?_
          · exact Post.commit (P := GainsOnly [p.package.digest] c.db) (gainsOnly_refl c.db)
              (storeCommand_gainsOnly r p.package ⟨c.db, w⟩)
          · intro digest hdigest
            rw [List.mem_singleton.mp hdigest]
            exact h.coming t r p hcommand
        split at hstep
        · rename_i hcommit
          rw [hcommit] at hdb
          cases hstep
          exact hdb.goOn t r (by rintro _ ⟨⟩)
        · rename_i hcommit
          rw [hcommit] at hdb
          cases hstep
          refine hdb.goOn t r fun p' hp' ↦ ?_
          split at hp' <;> cases hp'
      · cases hstep
  | discard t =>
      dsimp only at hstep
      split at hstep
      · rename_i r p hcommand
        cases hstep
        exact (h.discard (hok r p hcommand)).goOn t r (by rintro _ ⟨⟩)
      · cases hstep
  | stop t =>
      dsimp only at hstep
      split at hstep
      · split at hstep
        · cases hstep
        · cases hstep
          exact h.goOn t _ (by rintro _ ⟨⟩)
      · cases hstep
  | transact op =>
      dsimp only at hstep
      split at hstep
      · rename_i hop
        cases hstep
        exact h.withDb [] (fileFree_gainsOnly hop c.db w) (by rintro _ ⟨⟩)
      · cases hstep

/-! ## Commands that fail -/

/-- A failed command left no directory of its own that no row refers to. -/
def LeavesNoOrphan (c : RegistryState γ ι) (p : PreparedPackage) : Prop :=
  p.createdBlob = true → c.packages p.package.digest = none ∨ c.OnRecord p.package.digest

theorem failed_of_goOn {t t' : ι} {r r' : PackageRequest} {next : CommandPoint}
    {p : PreparedPackage} {d : RegistryState γ ι} (hd : d.commands = c.commands)
    (hfailed : (d.goOn t r next).commands t' = some (r', .failed (some p)))
    (hnew : c.commands t' ≠ (d.goOn t r next).commands t') :
    next = .failed (some p) := by
  rcases commands_goOn hfailed with ⟨_, _, hnext⟩ | ⟨_, hsame⟩
  · exact hnext
  · rw [hfailed, ← hd, hsame] at hnew
    exact absurd rfl hnew

/-- A step that fails a command leaves no orphan of it. -/
theorem leaves_no_orphan {act : RegistryAct γ ι} {w : World} (hok : Orderly act c)
    (hstep : act.apply digestOf w c = some c') {t : ι} {r : PackageRequest} {p : PreparedPackage}
    (hfailed : c'.commands t = some (r, .failed (some p))) (hnew : c.commands t ≠ c'.commands t) :
    LeavesNoOrphan c' p := by
  intro hcreated
  unfold RegistryAct.apply at hstep
  cases act with
  | begin t' r' =>
      dsimp only at hstep
      split at hstep
      · cases hstep
        cases failed_of_goOn rfl hfailed hnew
      · cases hstep
  | check t' =>
      dsimp only at hstep
      split at hstep
      · cases hstep
        have hnext := failed_of_goOn rfl hfailed hnew
        unfold RegistryState.replays at hnext
        split at hnext
        · cases hnext
        · split at hnext <;> cases hnext
      · cases hstep
  | ingest t' archive =>
      dsimp only at hstep
      split at hstep
      · split at hstep
        · cases hstep
          unfold RegistryState.place at hfailed hnew
          split at hfailed
          · rename_i hfound
            rw [hfound] at hnew
            cases failed_of_goOn rfl hfailed hnew
          · rename_i hfound
            rw [hfound] at hnew
            cases failed_of_goOn rfl hfailed hnew
        · cases hstep
          cases failed_of_goOn rfl hfailed hnew
      · cases hstep
  | commit t' =>
      dsimp only at hstep
      split at hstep
      · rename_i r' p' hcommand
        split at hstep
        · cases hstep
          cases failed_of_goOn rfl hfailed hnew
        · rename_i e db hcommit
          cases hstep
          have hnext := failed_of_goOn rfl hfailed hnew
          split at hnext
          · cases hnext
          · rename_i hcatches
            cases hnext
            have hdb := commit_error (show (commit (r'.storeCommand p.package) c.db w).1 = .error e by
              rw [hcommit])
            rw [hcommit] at hdb
            subst hdb
            right
            by_contra hrecord
            have hunclaimed := hok r' p hcommand hcreated hrecord
            rcases (storeCommand_raises hunclaimed w).commit hcommit with hcaught | hrow
            · exact hcatches hcaught
            · exact hrecord hrow
      · cases hstep
  | discard t' =>
      dsimp only at hstep
      split at hstep
      · rename_i r' p' hcommand
        cases hstep
        have hcommands : (c.discardNewBlob p').commands = c.commands := by
          unfold RegistryState.discardNewBlob
          split <;> rfl
        cases failed_of_goOn hcommands hfailed hnew
        left
        simp [RegistryState.goOn, RegistryState.discardNewBlob, hcreated]
      · cases hstep
  | stop t' =>
      dsimp only at hstep
      split at hstep
      · rename_i r' point hcommand
        split at hstep
        · cases hstep
        · cases hstep
          have hnext := failed_of_goOn rfl hfailed hnew
          exact .inr (hok r' point p hcommand (CommandPoint.failed.inj hnext) hcreated)
      · cases hstep
  | transact op =>
      dsimp only at hstep
      split at hstep
      · cases hstep
        exact absurd rfl hnew
      · cases hstep

/-- While the steps are orderly, every version on record and every version
about to be has its directory, and no command that fails leaves one behind. -/
theorem packages_and_rows_agree {c : RegistryState γ ι}
    (h : (registry digestOf).ReachableBy (fun i c ↦ Orderly i.1 c) c) :
    (∀ v ∈ c.db.versions.rows, ∃ content, c.packages v.digest = some content ∧
      digestOf content = v.digest) ∧
    (∀ t r p, c.commands t = some (r, .commit p) → ∃ content,
      c.packages p.package.digest = some content ∧ digestOf content = p.package.digest) ∧
    ∀ i c', Orderly i.1 c → (registry digestOf).step i c c' → ∀ t r p,
      c'.commands t = some (r, .failed (some p)) → c.commands t ≠ c'.commands t →
        LeavesNoOrphan c' p := by
  have hstored : Stored digestOf c := by
    refine System.ReachableBy.invariant ?_ ?_ h
    · rintro _ rfl
      exact ⟨by rintro _ _ ⟨⟩, by rintro _ ⟨⟩, by rintro _ _ _ ⟨⟩⟩
    · intro i c c' hstored hok hstep
      exact hstored.step hok hstep
  refine ⟨fun v hv ↦ ?_, fun t r p hp ↦ ?_, fun i c' hok hstep t r p ↦ ?_⟩
  · obtain ⟨content, hcontent⟩ := Option.isSome_iff_exists.mp (hstored.rows v hv)
    exact ⟨content, hcontent, hstored.contents _ _ hcontent⟩
  · obtain ⟨content, hcontent⟩ := Option.isSome_iff_exists.mp (hstored.coming t r p hp)
    exact ⟨content, hcontent, hstored.contents _ _ hcontent⟩
  · exact leaves_no_orphan hok hstep

/-! ## Two commands with one package -/

namespace Overlap

abbrev State := RegistryState String Bool

abbrev Act := RegistryAct String Bool × World

def canonical (content : String) : String := "sha256:" ++ content

def archive (version : String) : Archive String :=
  ⟨version, ⟨"acme.tool", version, .wasi, []⟩, none, .compatible⟩

def request (principalId commandId : String) : PackageRequest :=
  ⟨principalId, commandId, none, "tool.shejane-plugin", none, true⟩

def next (c : State) (i : Act) : State := (i.1.apply canonical i.2 c).getD c

/-- A task takes a package up to its commit. -/
def placing (t : Bool) (r : PackageRequest) (version : String) (n : ℕ) : List Act :=
  [(.begin t r, .counting n), (.check t, .counting n),
    (.ingest t (some (archive version)), .counting n)]

def initial : State := ⟨.empty, fun _ ↦ none, fun _ ↦ none⟩

@[irreducible] def placed : State := (placing false (request "first" "one") "1.0.0" 0).foldl next initial

/-- The first principal has version 1 and installs version 2, as does the
second principal, who finds the directory in place and commits first. -/
def overlapping : List Act :=
  [(.commit false, .counting 0)] ++ placing false (request "first" "two") "2.0.0" 10 ++
    placing true (request "second" "one") "2.0.0" 20 ++
    [(.commit true, .counting 20), (.commit false, .counting 30),
      (.discard false, .counting 30)]

@[irreducible] def cleaned : State := overlapping.foldl next placed

variable {ok : Act → State → Prop}

theorem reachable_next {i : Act} {c : State} (hok : ok i c)
    (h : (registry canonical).ReachableBy ok c) : (registry canonical).ReachableBy ok (next c i) := by
  unfold next
  cases happly : i.1.apply canonical i.2 c with
  | none => exact h
  | some c' => exact h.step hok happly

theorem reachable_foldl {acts : List Act} (hok : ∀ i ∈ acts, ∀ c, ok i c) {c : State}
    (h : (registry canonical).ReachableBy ok c) :
    (registry canonical).ReachableBy ok (acts.foldl next c) := by
  induction acts generalizing c with
  | nil => exact h
  | cons i acts ih =>
      exact ih (fun j hj ↦ hok j (List.mem_cons_of_mem i hj))
        (reachable_next (hok i List.mem_cons_self c) h)

theorem orderly_placing {r : PackageRequest} {version : String} {n : ℕ} {t : Bool} {i : Act}
    (hi : i ∈ placing t r version n) (c : State) : Orderly i.1 c := by
  simp only [placing, List.mem_cons, List.not_mem_nil, or_false] at hi
  rcases hi with rfl | rfl | rfl <;> trivial

/-- A command commits in order when no command was accepted under its id. -/
theorem orderly_commit {t : Bool} {c : State} (commandId : String)
    (hid : (c.commands t).all (fun x ↦ x.1.commandId = commandId) = true)
    (hnew : c.db.store.commands.rows.all (fun k ↦ k.id ≠ commandId) = true) :
    Orderly (.commit t) c := by
  intro r p hcommand _ _ k hk
  rw [hcommand, Option.all_some, decide_eq_true_eq] at hid
  have hne := List.all_eq_true.mp hnew k (Table.mem_of_find? hk)
  rw [decide_eq_true_eq, ← hid] at hne
  exact absurd (congrArg Prod.snd (Table.key_of_find? hk)) hne

/-- A lone command discards in order what is not on record. -/
theorem orderly_discard {c : State} (digest : String) (hother : (c.commands true).isNone = true)
    (hdigest : (c.commands false).all (fun x ↦ x.2.prepared.all fun p ↦
      p.package.digest = digest) = true)
    (hnew : c.db.versions.rows.all (fun v ↦ v.digest ≠ digest) = true) :
    Orderly (.discard false) c := by
  intro r p hcommand _
  rw [hcommand, Option.all_some] at hdigest
  have heq : p.package.digest = digest := by simpa [CommandPoint.prepared] using hdigest
  refine ⟨?_, ?_⟩
  · rintro ⟨v, hv, hv'⟩
    have hne := List.all_eq_true.mp hnew v hv
    rw [decide_eq_true_eq] at hne
    exact hne (hv'.trans heq)
  · intro t r' p' hcommand'
    cases t with
    | false =>
        rw [hcommand] at hcommand'
        cases hcommand'
    | true =>
        rw [hcommand'] at hother
        cases hother

theorem reachable_placed : (registry canonical).ReachableBy (fun i c ↦ Orderly i.1 c) placed := by
  rw [placed]
  exact reachable_foldl (fun _ ↦ orderly_placing) ⟨initial, rfl, .refl _⟩

/-- Version 1 is installed; installing version 2 over it is refused, and the directory that
was placed for it is discarded. -/
@[irreducible] def committed : State := next placed (.commit false, .counting 0)

@[irreducible] def placedAgain : State :=
  (placing false (request "first" "two") "2.0.0" 10).foldl next committed

@[irreducible] def refused : State := next placedAgain (.commit false, .counting 30)

@[irreducible] def discarded : State := next refused (.discard false, .counting 30)

theorem reachable_refused : (registry canonical).ReachableBy (fun i c ↦ Orderly i.1 c) refused := by
  have hcommitted : (registry canonical).ReachableBy (fun i c ↦ Orderly i.1 c) committed := by
    rw [committed]
    exact reachable_next (orderly_commit "one" (by decide +kernel) (by decide +kernel)) reachable_placed
  rw [refused]
  refine reachable_next (orderly_commit "two" (by decide +kernel) (by decide +kernel)) ?_
  rw [placedAgain]
  exact reachable_foldl (fun _ ↦ orderly_placing) hcommitted

theorem orderly_refused : Orderly (.discard false) refused :=
  orderly_discard (canonical "2.0.0") (by decide +kernel) (by decide +kernel)
    (by decide +kernel)

/-- A command placed version 2 and its clean-up took it away again; version 1 has its
directory. -/
theorem packages_and_rows_agree_discarded :
    (refused.packages (canonical "2.0.0")).isSome = true ∧
    (discarded.packages (canonical "2.0.0")).isNone = true ∧
    discarded.db.versions.rows.length = 1 ∧
    (∀ v ∈ discarded.db.versions.rows, ∃ content, discarded.packages v.digest = some content ∧
      canonical content = v.digest) := by
  have hreach : (registry canonical).ReachableBy (fun i c ↦ Orderly i.1 c) discarded := by
    rw [discarded]
    exact reachable_next orderly_refused reachable_refused
  exact ⟨by decide +kernel, by decide +kernel, by decide +kernel,
    (packages_and_rows_agree hreach).1⟩

/-- Cleaning up can remove the directory of a version that is installed. -/
theorem installed_without_directory : ¬∀ c : State, (registry canonical).Reachable c →
    ∀ i ∈ c.db.installations.rows, ∀ v ∈ c.db.versions.rows, v.digest = i.activeDigest →
      (c.packages v.digest).isSome = true := by
  intro h
  have hplaced : (registry canonical).Reachable placed := reachable_placed.weaken fun _ _ _ ↦ trivial
  have hcleaned : (registry canonical).Reachable cleaned := by
    rw [cleaned]
    exact reachable_foldl (fun _ _ _ ↦ trivial) hplaced
  have hbad : (cleaned.db.installations.rows.any fun i ↦ cleaned.db.versions.rows.any fun v ↦
      v.digest = i.activeDigest && (cleaned.packages v.digest).isNone) = true := by
    decide +kernel
  obtain ⟨i, hi, hbad⟩ := List.any_eq_true.mp hbad
  obtain ⟨v, hv, hbad⟩ := List.any_eq_true.mp hbad
  rw [Bool.and_eq_true, decide_eq_true_eq] at hbad
  have hsome := h cleaned hcleaned i hi v hv hbad.1
  rw [Option.isNone_iff_eq_none] at hbad
  rw [hbad.2] at hsome
  cases hsome

end Overlap

end ShejaneRuntime.Plugins
