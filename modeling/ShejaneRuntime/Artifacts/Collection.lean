import ShejaneRuntime.Artifacts.Bodies

/-!
# Collections beside creations

A collection reads the keys of the rows first and the clock later, and a
promotion that finds its body already there leaves the old modification
time. What is removed is unused, and rows keep their bodies, as long as no
body comes into use within the reach of a collection under way.
-/

namespace ShejaneRuntime.Artifacts

open Lib Store

section

variable (sha256Hex : List UInt8 → String) (grace : Time)

/-- The creation has promoted or reused its body and is not over. -/
def Creation.holdsBody (c : Creation) : Prop := ∃ promotedAt, c.phase = .promoted promotedAt

/-- A committed row names the body, or a creation under way holds it. -/
def State.InUse (s : State) (root : Root) (key : BlobKey) : Prop :=
  (∃ r ∈ s.rows, r.root = root ∧ r.blobKey = key) ∨
    ∃ c ∈ s.creations, c.holdsBody ∧ c.root = root ∧ c.key sha256Hex = key

/-- The disk holds the body with the recorded size and digest. -/
def State.HasBody (s : State) (root : Root) (key : BlobKey) (bytes : ℕ) (sha256 : String) : Prop :=
  ∃ f, s.files root key = some f ∧ f.content.length = bytes ∧ sha256Hex f.content = sha256

/-- Every row has its body, and what a collection is about to remove is
neither named by a row nor held by a creation. -/
structure BodiesAgree (s : State) : Prop where
  rows : ∀ r ∈ s.rows, s.HasBody sha256Hex r.root r.blobKey r.bytes r.sha256
  removals : ∀ g ∈ s.collections, ∀ root key, g.doomed = some (root, key) →
    ¬s.InUse sha256Hex root key

/-! ## The condition -/

/-- No collection under way would take the body: it read its key, or the body
is younger than the grace period at its clock reading, and it has not judged
the key already. -/
def State.OutOfReach (s : State) (root : Root) (key : BlobKey) (f : BodyFile) : Prop :=
  ∀ g ∈ s.collections, g.doomed ≠ some (root, key) ∧ ∀ takenAt, g.phase = .scanning takenAt →
    key ∈ g.referenced root ∨ youngAt grace f takenAt = true

/-- The steps of a run in which a body comes into use out of the reach of the
collections under way, and a collection reads the clock when it reaches no
body in use. A replaced file has the size of the new one. -/
def OutOfReachOfCollections (a : Action) (s : State) : Prop :=
  match a with
  | .verify i _ => ∀ c f, s.creations[i]? = some c →
      s.files c.root (c.key sha256Hex) = some f → s.OutOfReach grace c.root (c.key sha256Hex) f
  | .place i _ => ∀ c, s.creations[i]? = some c →
      s.OutOfReach grace c.root (c.key sha256Hex) ⟨c.content, c.writtenAt⟩ ∧
        ∀ f, s.files c.root (c.key sha256Hex) = some f → f.content.length = c.content.length
  | .takeTime j now => ∀ g, s.collections[j]? = some g → ∀ root key f,
      s.InUse sha256Hex root key → s.files root key = some f →
        key ∈ g.referenced root ∨ youngAt grace f now = true
  | _ => True

/-! ## The invariant -/

/-- Files lie under the key of their digest, bodies in use are on the disk, and
no collection reaches them. -/
structure Kept (s : State) : Prop where
  named : ∀ root key f, s.files root key = some f → key = blobKey (sha256Hex f.content)
  rows : ∀ r ∈ s.rows, s.HasBody sha256Hex r.root r.blobKey r.bytes r.sha256
  promoted : ∀ c ∈ s.creations, c.holdsBody →
    s.HasBody sha256Hex c.root (c.key sha256Hex) c.content.length (c.sha256 sha256Hex)
  spared : ∀ g ∈ s.collections, ∀ takenAt, g.phase = .scanning takenAt → ∀ root key f,
    s.InUse sha256Hex root key → s.files root key = some f →
      key ∈ g.referenced root ∨ youngAt grace f takenAt = true
  removals : ∀ g ∈ s.collections, ∀ root key, g.doomed = some (root, key) →
    ¬s.InUse sha256Hex root key

end

variable {sha256Hex : List UInt8 → String} {grace : Time} {s : State}

theorem Kept.agree (h : Kept sha256Hex grace s) : BodiesAgree sha256Hex s := ⟨h.rows, h.removals⟩

theorem kept_initial : Kept sha256Hex grace State.initial := by
  refine ⟨?_, ?_, ?_, ?_, ?_⟩
  · intro root key f hf
    cases hf
  all_goals
    intro x hx
    cases hx

theorem blobKey_inj {d d' : String} (h : blobKey d = blobKey d') : d = d' := by
  simp only [blobKey, List.cons.injEq] at h
  exact h.2.2.1

/-- Setting a creation brings at most its own body into use. -/
theorem inUse_of_setCreation {i : ℕ} {c : Creation} {root : Root} {key : BlobKey}
    (h : (s.setCreation i c).InUse sha256Hex root key) :
    s.InUse sha256Hex root key ∨ c.holdsBody ∧ c.root = root ∧ c.key sha256Hex = key := by
  rcases h with hrow | ⟨c', hc', hheld⟩
  · exact .inl (.inl hrow)
  · rcases List.mem_or_eq_of_mem_set hc' with hold | rfl
    · exact .inl (.inr ⟨c', hold, hheld⟩)
    · exact .inr hheld

/-! ## Creations -/

/-- A step that leaves the files alone and brings nothing new into use. -/
theorem Kept.of_uses (h : Kept sha256Hex grace s) {s' : State} (hfiles : s'.files = s.files)
    (hcollections : s'.collections = s.collections)
    (huses : ∀ root key, s'.InUse sha256Hex root key → s.InUse sha256Hex root key)
    (hrows : ∀ r ∈ s'.rows, s.HasBody sha256Hex r.root r.blobKey r.bytes r.sha256)
    (hpromoted : ∀ c ∈ s'.creations, c.holdsBody → c ∈ s.creations) :
    Kept sha256Hex grace s' := by
  have hbody : ∀ root key bytes sha256, s.HasBody sha256Hex root key bytes sha256 →
      s'.HasBody sha256Hex root key bytes sha256 := by
    intro root key bytes sha256 hhas
    unfold State.HasBody
    rwa [hfiles]
  refine ⟨?_, ?_, ?_, ?_, ?_⟩
  · intro root key f hf
    rw [hfiles] at hf
    exact h.named root key f hf
  · intro r hr
    exact hbody _ _ _ _ (hrows r hr)
  · intro c hc hheld
    exact hbody _ _ _ _ (h.promoted c (hpromoted c hc hheld) hheld)
  · intro g hg takenAt hphase root key f huse hf
    rw [hcollections] at hg
    rw [hfiles] at hf
    exact h.spared g hg takenAt hphase root key f (huses root key huse) hf
  · intro g hg root key hdoomed huse
    rw [hcollections] at hg
    exact h.removals g hg root key hdoomed (huses root key huse)

/-- A creation moves to a phase in which it holds no body. -/
theorem Kept.setIdle (h : Kept sha256Hex grace s) {i : ℕ} {c : Creation} (hc : ¬c.holdsBody) :
    Kept sha256Hex grace (s.setCreation i c) := by
  refine h.of_uses rfl rfl ?_ h.rows ?_
  · intro root key huse
    rcases inUse_of_setCreation huse with hold | ⟨hheld, _⟩
    · exact hold
    · exact absurd hheld hc
  · intro c' hc' hheld
    rcases List.mem_or_eq_of_mem_set hc' with hold | rfl
    · exact hold
    · exact absurd hheld hc

/-- A creation takes up a body that is on the disk and out of reach. -/
theorem Kept.setPromoted (h : Kept sha256Hex grace s) {i : ℕ} {c : Creation} {f : BodyFile}
    (hf : s.files c.root (c.key sha256Hex) = some f)
    (hsize : f.content.length = c.content.length)
    (hreach : s.OutOfReach grace c.root (c.key sha256Hex) f) :
    Kept sha256Hex grace (s.setCreation i c) := by
  have hdigest : sha256Hex f.content = c.sha256 sha256Hex :=
    (blobKey_inj (h.named _ _ _ hf)).symm
  refine ⟨h.named, h.rows, ?_, ?_, ?_⟩
  · intro c' hc' hheld
    rcases List.mem_or_eq_of_mem_set hc' with hold | rfl
    · exact h.promoted c' hold hheld
    · exact ⟨f, hf, hsize, hdigest⟩
  · intro g hg takenAt hphase root key f' huse hf'
    rcases inUse_of_setCreation huse with hold | ⟨_, rfl, rfl⟩
    · exact h.spared g hg takenAt hphase root key f' hold hf'
    · have hsame : f' = f := Option.some.inj (hf'.symm.trans hf)
      rw [hsame]
      exact (hreach g hg).2 takenAt hphase
  · intro g hg root key hdoomed huse
    rcases inUse_of_setCreation huse with hold | ⟨_, rfl, rfl⟩
    · exact h.removals g hg root key hdoomed hold
    · exact (hreach g hg).1 hdoomed

theorem files_setFile (root : Root) (key : BlobKey) (file : Option BodyFile) (root' : Root)
    (key' : BlobKey) : (s.setFile root key file).files root' key' =
      if root' = root ∧ key' = key then file else s.files root' key' := rfl

/-- The disk with a new file under its key, of the size of the one it replaces
and out of reach. -/
theorem Kept.setFile (h : Kept sha256Hex grace s) {root : Root} {f : BodyFile}
    (hsize : ∀ f', s.files root (blobKey (sha256Hex f.content)) = some f' →
      f'.content.length = f.content.length)
    (hreach : s.OutOfReach grace root (blobKey (sha256Hex f.content)) f) :
    Kept sha256Hex grace (s.setFile root (blobKey (sha256Hex f.content)) (some f)) := by
  have hbody : ∀ root' key' bytes sha256, s.HasBody sha256Hex root' key' bytes sha256 →
      (s.setFile root (blobKey (sha256Hex f.content)) (some f)).HasBody sha256Hex root' key'
        bytes sha256 := by
    rintro root' key' bytes sha256 ⟨f', hf', hbytes, hdigest⟩
    by_cases hsame : root' = root ∧ key' = blobKey (sha256Hex f.content)
    · refine ⟨f, by rw [files_setFile, if_pos hsame], ?_, ?_⟩
      · obtain ⟨rfl, rfl⟩ := hsame
        rw [← hsize f' hf', hbytes]
      · have hkey := h.named _ _ _ hf'
        rw [hsame.2] at hkey
        rw [blobKey_inj hkey, hdigest]
    · exact ⟨f', by rw [files_setFile, if_neg hsame, hf'], hbytes, hdigest⟩
  refine ⟨?_, fun r hr ↦ hbody _ _ _ _ (h.rows r hr),
    fun c hc hheld ↦ hbody _ _ _ _ (h.promoted c hc hheld), ?_, h.removals⟩
  · intro root' key' f' hf'
    rw [files_setFile] at hf'
    split at hf'
    · rename_i hsame
      cases hf'
      exact hsame.2
    · exact h.named root' key' f' hf'
  · intro g hg takenAt hphase root' key' f' huse hf'
    rw [files_setFile] at hf'
    split at hf'
    · rename_i hsame
      cases hf'
      obtain ⟨rfl, rfl⟩ := hsame
      exact (hreach g hg).2 takenAt hphase
    · exact h.spared g hg takenAt hphase root' key' f' huse hf'

/-- The row of a promoted body takes the place of its creation. -/
theorem Kept.insertRow (h : Kept sha256Hex grace s) {i : ℕ} {c : Creation}
    (hc : s.creations[i]? = some c) (hheld : c.holdsBody) :
    Kept sha256Hex grace { s.setCreation i { c with phase := .ended } with
      rows := s.rows ++ [c.row sha256Hex] } := by
  have hmem := List.mem_of_getElem? hc
  have hended : ¬({ c with phase := .ended } : Creation).holdsBody := by
    rintro ⟨promotedAt, hphase⟩
    cases hphase
  refine h.of_uses rfl rfl ?_ ?_ ?_
  · rintro root key (⟨r, hr, hroot, hkey⟩ | ⟨c', hc', hheld', hrest⟩)
    · rcases List.mem_append.mp hr with hold | hnew
      · exact .inl ⟨r, hold, hroot, hkey⟩
      · rw [List.mem_singleton] at hnew
        subst hnew
        exact .inr ⟨c, hmem, hheld, hroot, hkey⟩
    · rcases List.mem_or_eq_of_mem_set hc' with hold | rfl
      · exact .inr ⟨c', hold, hheld', hrest⟩
      · exact absurd hheld' hended
  · intro r hr
    rcases List.mem_append.mp hr with hold | hnew
    · exact h.rows r hold
    · rw [List.mem_singleton] at hnew
      subst hnew
      exact h.promoted c hmem hheld
  · intro c' hc' hheld'
    rcases List.mem_or_eq_of_mem_set hc' with hold | rfl
    · exact hold
    · exact absurd hheld' hended

/-! ## Collections -/

/-- A collection moves on: what it reaches and what it has judged is not in use. -/
theorem Kept.setCollection (h : Kept sha256Hex grace s) {j : ℕ} {g : Collection}
    (hspared : ∀ takenAt, g.phase = .scanning takenAt → ∀ root key f,
      s.InUse sha256Hex root key → s.files root key = some f →
        key ∈ g.referenced root ∨ youngAt grace f takenAt = true)
    (hdoomed : ∀ root key, g.doomed = some (root, key) → ¬s.InUse sha256Hex root key) :
    Kept sha256Hex grace (s.setCollection j g) := by
  refine ⟨h.named, h.rows, h.promoted, ?_, ?_⟩
  · intro g' hg'
    rcases List.mem_or_eq_of_mem_set hg' with hold | rfl
    · exact h.spared g' hold
    · exact hspared
  · intro g' hg'
    rcases List.mem_or_eq_of_mem_set hg' with hold | rfl
    · exact h.removals g' hold
    · exact hdoomed

/-- A file that is not in use may go. -/
theorem Kept.removeFile (h : Kept sha256Hex grace s) {root : Root} {key : BlobKey}
    (hunused : ¬s.InUse sha256Hex root key) : Kept sha256Hex grace (s.setFile root key none) := by
  have hbody : ∀ root' key' bytes sha256, s.InUse sha256Hex root' key' →
      s.HasBody sha256Hex root' key' bytes sha256 →
      (s.setFile root key none).HasBody sha256Hex root' key' bytes sha256 := by
    rintro root' key' bytes sha256 huse ⟨f, hf, hrest⟩
    have hother : ¬(root' = root ∧ key' = key) := by
      rintro ⟨rfl, rfl⟩
      exact hunused huse
    exact ⟨f, by rw [files_setFile, if_neg hother, hf], hrest⟩
  refine ⟨?_, ?_, ?_, ?_, h.removals⟩
  · intro root' key' f hf
    rw [files_setFile] at hf
    split at hf
    · cases hf
    · exact h.named root' key' f hf
  · intro r hr
    exact hbody _ _ _ _ (.inl ⟨r, hr, rfl, rfl⟩) (h.rows r hr)
  · intro c hc hheld
    exact hbody _ _ _ _ (.inr ⟨c, hc, hheld, rfl, rfl⟩) (h.promoted c hc hheld)
  · intro g hg takenAt hphase root' key' f huse hf
    rw [files_setFile] at hf
    split at hf
    · cases hf
    · exact h.spared g hg takenAt hphase root' key' f huse hf

/-! ## Every step -/

theorem Kept.creationStep (h : Kept sha256Hex grace s) {a : Action} {i : ℕ} {c : Creation}
    {s' : State} (hc : s.creations[i]? = some c) (ha : a = .look i ∨ (∃ now, a = .verify i now) ∨
      (∃ now, a = .place i now) ∨ (∃ now, a = .insert i now) ∨ a = .fail i)
    (hok : OutOfReachOfCollections sha256Hex grace a s)
    (hstep : c.step sha256Hex grace s i a = some s') : Kept sha256Hex grace s' := by
  have hidle : ∀ phase : Creation.Phase, (∀ t, phase ≠ .promoted t) →
      Kept sha256Hex grace (s.setCreation i { c with phase := phase }) := by
    intro phase hphase
    refine h.setIdle ?_
    rintro ⟨t, ht⟩
    exact hphase t ht
  rcases ha with rfl | ⟨now, rfl⟩ | ⟨now, rfl⟩ | ⟨now, rfl⟩ | rfl
  · simp only [Creation.step] at hstep
    split at hstep
    · cases hstep
      refine hidle _ ?_
      intro t
      split <;> simp
    · cases hstep
  · simp only [Creation.step] at hstep
    split at hstep
    · cases hf : s.files c.root (c.key sha256Hex) with
      | none =>
          rw [hf] at hstep
          cases hstep
          exact hidle _ (by simp)
      | some f =>
          rw [hf] at hstep
          cases hstep
          by_cases hsame : c.sameIdentity sha256Hex f = true
          · rw [if_pos hsame]
            simp only [Creation.sameIdentity, Bool.and_eq_true, decide_eq_true_eq] at hsame
            exact h.setPromoted (c := { c with phase := .promoted now }) hf hsame.1 (hok c f hc hf)
          · rw [if_neg hsame]
            exact hidle _ (by simp)
    · cases hstep
  · simp only [Creation.step] at hstep
    split at hstep
    · cases hstep
      obtain ⟨hreach, hsize⟩ := hok c hc
      have hplaced := h.setFile (f := ⟨c.content, c.writtenAt⟩) hsize hreach
      refine hplaced.setPromoted (c := { c with phase := .promoted now })
        (f := ⟨c.content, c.writtenAt⟩) ?_ rfl hreach
      exact if_pos ⟨rfl, rfl⟩
    · cases hstep
  · simp only [Creation.step] at hstep
    split at hstep
    · rename_i promotedAt hphase
      split at hstep
      · cases hstep
        exact h.insertRow hc ⟨promotedAt, hphase⟩
      · cases hstep
    · cases hstep
  · simp only [Creation.step, Option.some.injEq] at hstep
    subst hstep
    exact hidle _ (by simp)

theorem Kept.collectionStep (h : Kept sha256Hex grace s) {a : Action} {j : ℕ} {g : Collection}
    {s' : State} (hg : s.collections[j]? = some g) (ha : a = .readArtifacts j ∨ a = .readInputs j ∨
      (∃ now, a = .takeTime j now) ∨ (∃ root key, a = .judge j root key) ∨ a = .remove j)
    (hok : OutOfReachOfCollections sha256Hex grace a s)
    (hstep : g.step grace s j a = some s') : Kept sha256Hex grace s' := by
  have hmem := List.mem_of_getElem? hg
  have hdoomed := h.removals g hmem
  rcases ha with rfl | rfl | ⟨now, rfl⟩ | ⟨root, key, rfl⟩ | rfl
  · simp only [Collection.step] at hstep
    split at hstep
    · cases hstep
      exact h.setCollection (by simp) hdoomed
    · cases hstep
  · simp only [Collection.step] at hstep
    split at hstep
    · cases hstep
      exact h.setCollection (by simp) hdoomed
    · cases hstep
  · simp only [Collection.step] at hstep
    split at hstep
    · cases hstep
      refine h.setCollection ?_ hdoomed
      intro takenAt hphase
      cases hphase
      exact hok g hg
    · cases hstep
  · simp only [Collection.step] at hstep
    split at hstep
    · rename_i takenAt hphase
      split at hstep
      · cases hstep
        refine h.setCollection (h.spared g hmem) ?_
        intro root' key' hjudged huse
        -- a candidate is old and unreferenced, which no body in use is
        dsimp only at hjudged
        split at hjudged
        · rename_i hcandidate
          cases hjudged
          simp only [Bool.and_eq_true, Bool.not_eq_true', Option.any_eq_true] at hcandidate
          obtain ⟨⟨f, hf, hold⟩, hnew⟩ := hcandidate
          rcases h.spared g hmem takenAt hphase root key f huse hf with hread | hyoung
          · simp [hread] at hnew
          · rw [hyoung] at hold
            cases hold
        · cases hjudged
      · cases hstep
    · cases hstep
  · simp only [Collection.step] at hstep
    split at hstep
    · rename_i root key hjudged
      cases hstep
      have hgone := h.removeFile (hdoomed root key hjudged)
      refine hgone.setCollection ?_ (by simp)
      exact hgone.spared g hmem
    · cases hstep

theorem Kept.after (h : Kept sha256Hex grace s) {a : Action} {s' : State}
    (hok : OutOfReachOfCollections sha256Hex grace a s)
    (hstep : s.after sha256Hex grace a = some s') : Kept sha256Hex grace s' := by
  cases a with
  | copy root content expectedSha256 writtenAt =>
      simp only [State.after] at hstep
      split at hstep
      · cases hstep
        refine h.of_uses rfl rfl ?_ h.rows ?_
        · rintro root key (hrow | ⟨c, hc, ⟨t, ht⟩, hrest⟩)
          · exact .inl hrow
          · rcases List.mem_append.mp hc with hold | hnew
            · exact .inr ⟨c, hold, ⟨t, ht⟩, hrest⟩
            · rw [List.mem_singleton] at hnew
              subst hnew
              cases ht
        · rintro c hc ⟨t, ht⟩
          rcases List.mem_append.mp hc with hold | hnew
          · exact hold
          · rw [List.mem_singleton] at hnew
            subst hnew
            cases ht
      · cases hstep
  | collect =>
      cases hstep
      refine ⟨h.named, h.rows, h.promoted, ?_, ?_⟩
      · intro g hg
        rcases List.mem_append.mp hg with hold | hnew
        · exact h.spared g hold
        · rw [List.mem_singleton] at hnew
          subst hnew
          intro takenAt hphase
          cases hphase
      · intro g hg
        rcases List.mem_append.mp hg with hold | hnew
        · exact h.removals g hold
        · rw [List.mem_singleton] at hnew
          subst hnew
          intro root key hdoomed
          cases hdoomed
  | look i =>
      obtain ⟨c, hc, hc'⟩ := Option.bind_eq_some_iff.mp hstep
      exact h.creationStep hc (.inl rfl) hok hc'
  | verify i now =>
      obtain ⟨c, hc, hc'⟩ := Option.bind_eq_some_iff.mp hstep
      exact h.creationStep hc (.inr (.inl ⟨now, rfl⟩)) hok hc'
  | place i now =>
      obtain ⟨c, hc, hc'⟩ := Option.bind_eq_some_iff.mp hstep
      exact h.creationStep hc (.inr (.inr (.inl ⟨now, rfl⟩))) hok hc'
  | insert i now =>
      obtain ⟨c, hc, hc'⟩ := Option.bind_eq_some_iff.mp hstep
      exact h.creationStep hc (.inr (.inr (.inr (.inl ⟨now, rfl⟩)))) hok hc'
  | fail i =>
      obtain ⟨c, hc, hc'⟩ := Option.bind_eq_some_iff.mp hstep
      exact h.creationStep hc (.inr (.inr (.inr (.inr rfl)))) hok hc'
  | readArtifacts j =>
      obtain ⟨g, hg, hg'⟩ := Option.bind_eq_some_iff.mp hstep
      exact h.collectionStep hg (.inl rfl) hok hg'
  | readInputs j =>
      obtain ⟨g, hg, hg'⟩ := Option.bind_eq_some_iff.mp hstep
      exact h.collectionStep hg (.inr (.inl rfl)) hok hg'
  | takeTime j now =>
      obtain ⟨g, hg, hg'⟩ := Option.bind_eq_some_iff.mp hstep
      exact h.collectionStep hg (.inr (.inr (.inl ⟨now, rfl⟩))) hok hg'
  | judge j root key =>
      obtain ⟨g, hg, hg'⟩ := Option.bind_eq_some_iff.mp hstep
      exact h.collectionStep hg (.inr (.inr (.inr (.inl ⟨root, key, rfl⟩)))) hok hg'
  | remove j =>
      obtain ⟨g, hg, hg'⟩ := Option.bind_eq_some_iff.mp hstep
      exact h.collectionStep hg (.inr (.inr (.inr (.inr rfl)))) hok hg'

/-- Rows and bodies agree in every run whose bodies come into use out of the
reach of the collections under way. -/
theorem bodies_agree_out_of_reach
    (h : (store sha256Hex grace).ReachableBy (OutOfReachOfCollections sha256Hex grace) s) :
    BodiesAgree sha256Hex s := by
  have hkept : Kept sha256Hex grace s := by
    refine System.ReachableBy.invariant ?_ ?_ h
    · rintro s₀ rfl
      exact kept_initial
    · intro a s₀ s₁ hs₀ hok hstep
      exact hs₀.after hok hstep
  exact hkept.agree

/-! ## Runs -/

section Runs

/-- The digests of the two bodies below. -/
def digests (content : List UInt8) : String :=
  if content = [1] then "4bf5122f344554c53bde2ebb8cd2b7e3d1600ad631c385a5d7cce23c7785459a"
  else "dbc1b4c900ffe48d575b5da5c638040125f65db0fe3e24494b76ea986457d986"

/-- `grace_seconds` -/
def graceSeconds : Time := 3600

/-- A collection that reads the clock now leaves the body alone. -/
def spares (s : State) (g : Collection) (now : Time) (root : Root) (key : BlobKey) : Bool :=
  (s.files root key).all fun f ↦
    (g.referenced root).contains key || youngAt graceSeconds f now

/-- A body comes into use while no collection is under way, and for the first time; the
clock is read when all bodies in use are spared. -/
def permitted (s : State) : Action → Bool
  | .verify _ _ => s.collections.isEmpty
  | .place i _ => s.collections.isEmpty &&
      (s.creations[i]?).all fun c ↦ (s.files c.root (c.key digests)).isNone
  | .takeTime j now => (s.collections[j]?).all fun g ↦
      (s.rows.all fun r ↦ spares s g now r.root r.blobKey) &&
        s.creations.all fun c ↦
          match c.phase with
          | .promoted _ => spares s g now c.root (c.key digests)
          | _ => true
  | _ => true

theorem outOfReach_of_permitted {a : Action} (h : permitted s a = true) :
    OutOfReachOfCollections digests graceSeconds a s := by
  have hreach : s.collections.isEmpty = true → ∀ root key f,
      s.OutOfReach graceSeconds root key f := by
    intro hempty root key f g hg
    rw [List.isEmpty_iff.mp hempty] at hg
    cases hg
  cases a with
  | verify i now => exact fun c f _ _ ↦ hreach h _ _ f
  | place i now =>
      obtain ⟨hempty, hnew⟩ := Bool.and_eq_true_iff.mp h
      refine fun c hc ↦ ⟨hreach hempty _ _ _, fun f hf ↦ ?_⟩
      rw [hc, Option.all_some, hf] at hnew
      cases hnew
  | takeTime j now =>
      intro g hg root key f huse hf
      simp only [permitted, hg, Option.all_some, Bool.and_eq_true] at h
      have hspares : spares s g now root key = true := by
        rcases huse with ⟨r, hr, rfl, rfl⟩ | ⟨c, hc, ⟨promotedAt, hphase⟩, rfl, rfl⟩
        · exact List.all_eq_true.mp h.1 r hr
        · have hpromoted := List.all_eq_true.mp h.2 c hc
          rw [hphase] at hpromoted
          exact hpromoted
      unfold spares at hspares
      rw [hf, Option.all_some, Bool.or_eq_true, List.contains_iff_mem] at hspares
      exact hspares
  | _ => trivial

def afterPermitted (s : State) (a : Action) : Option State :=
  if permitted s a then s.after digests graceSeconds a else none

/-- A collection between the promotion of a body and its row takes an older body whose row
was never inserted, and leaves the new one. -/
def collecting : List Action := [
  .copy .artifacts [2] none 0, .look 0, .place 0 0, .fail 0,
  .copy .artifacts [1] none 5000, .look 1, .place 1 5000,
  .collect, .readArtifacts 0, .readInputs 0, .takeTime 0 5001,
  .judge 0 .artifacts (blobKey (digests [2])), .remove 0,
  .judge 0 .artifacts (blobKey (digests [1])), .insert 1 5002]

theorem bodies_agree_out_of_reach_collected : ∃ s,
    collecting.foldlM afterPermitted .initial = some s ∧ s.rows.length = 1 ∧
      (s.files .artifacts (blobKey (digests [2]))).isNone = true ∧ BodiesAgree digests s := by
  have hcollected : (collecting.foldlM afterPermitted .initial).any (fun s ↦
      s.rows.length = 1 && (s.files .artifacts (blobKey (digests [2]))).isNone) = true := by
    decide +kernel
  obtain ⟨s, hrun, hs⟩ := (Option.any_eq_true _ _).mp hcollected
  rw [Bool.and_eq_true, decide_eq_true_eq] at hs
  suffices hreachable : (store digests graceSeconds).ReachableBy
      (OutOfReachOfCollections digests graceSeconds) s from
    ⟨s, hrun, hs.1, hs.2, bodies_agree_out_of_reach hreachable⟩
  refine System.ReachableBy.foldlM (f := afterPermitted) (s := .initial) ?_ ⟨_, rfl, .refl _⟩ hrun
  intro s a t hstep
  unfold afterPermitted at hstep
  split at hstep
  · rename_i hpermitted
    exact ⟨outOfReach_of_permitted hpermitted, hstep⟩
  · cases hstep

/-- A promotion whose row is never inserted, a second one of the same content
much later, and a collection between its promotion and its row. -/
def reusing : List Action := [
  .copy .artifacts [1] none 0, .look 0, .place 0 0, .fail 0,
  .copy .artifacts [1] none 5000, .look 1, .verify 1 5000,
  .collect, .readArtifacts 0, .readInputs 0, .takeTime 0 5001,
  .judge 0 .artifacts (blobKey (digests [1])), .remove 0, .insert 1 5002]

/-- A collection may remove the body of a row that is inserted in time. -/
theorem not_bodies_agree : ¬∀ (sha256Hex : List UInt8 → String) (grace : Time) (s : State),
    (store sha256Hex grace).Reachable s → BodiesAgree sha256Hex s := by
  intro h
  have hlost : (reusing.foldlM (State.after digests graceSeconds) .initial).any (fun s ↦
      s.rows.any fun r ↦ (s.files r.root r.blobKey).isNone) = true := by decide +kernel
  obtain ⟨s, hrun, hany⟩ := (Option.any_eq_true _ _).mp hlost
  obtain ⟨r, hr, hgone⟩ := List.any_eq_true.mp hany
  have hreach : (store digests graceSeconds).Reachable s :=
    System.ReachableBy.foldlM (fun _ _ _ hstep ↦ ⟨trivial, hstep⟩) ⟨_, rfl, .refl _⟩ hrun
  obtain ⟨f, hf, _⟩ := (h _ _ s hreach).rows r hr
  rw [hf] at hgone
  cases hgone

end Runs

end ShejaneRuntime.Artifacts
