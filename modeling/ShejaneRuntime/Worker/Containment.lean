import ShejaneRuntime.Worker.Broker

/-!
# What the broker lets out

Whatever the worker writes and does to its private directory, the broker
creates new regular files below the host root and forwards a response after
its artifacts. The limits on their number and size start afresh with each
frame, so they hold over the run while one frame copies artifacts.
-/

namespace ShejaneRuntime.Worker

open Lib

/-- The file of an artifact that a frame names. -/
def Created.Copies (f : Created) (path : Bytes) : Prop :=
  ∃ relative, cutOutputPrefix path = some relative ∧ f.parts = splitPath relative

/-- New regular files of bounded number and size, below the root and reached
through directories, and nothing forwarded before the artifacts that its reader
finds named in it. -/
structure Contained (names : Bytes → List Bytes) (limits : Limits) (host : HostTree)
    (s : State) : Prop where
  count : s.created.length ≤ 256
  total : (s.created.map fun f ↦ f.bytes.length).sum ≤ limits.outputBytes
  distinct : (s.created.map Created.inode).Nodup
  regular : ∀ f ∈ s.created, host.nodes f.inode = none ∧
    s.host.nodes f.inode = some (.file f.bytes)
  below : ∀ f ∈ s.created, s.host.walk hostRoot f.parts.dropLast = some f.directory
  untouched : FileTree.Untouched host s.host
  copied : ∀ frame ∈ s.forwarded, ∀ path ∈ names frame,
    ∃ f ∈ s.created, f.Copies path ∧ f.complete = true ∧
      s.host.Holds f.directory (f.parts.getLastD []) f.inode f.bytes

/-- The frame that comes next names no artifact that the broker's own decoding
does not find, and has artifacts copied only when none have been before. -/
def CopiesOnce (unmarshal : Bytes → Option WorkerResponse) (names : Bytes → List Bytes)
    (limits : Limits) (_ : Answers) (s : State) : Prop :=
  ∀ frame rest, readFrame limits.maxFrameBytes s.input = .frame frame rest →
    (∀ path ∈ names frame, path ∈ declaredArtifacts unmarshal frame) ∧
    (declaredArtifacts unmarshal frame ≠ [] → s.created = [])

/-! ## Files -/

/-- The files created so far on a host tree grown from a first one. -/
structure Safe (host : HostTree) (t : HostTree) (created : List Created) : Prop where
  distinct : (created.map Created.inode).Nodup
  new : ∀ f ∈ created, host.next ≤ f.inode
  regular : ∀ f ∈ created, t.nodes f.inode = some (.file f.bytes)
  below : ∀ f ∈ created, t.walk hostRoot f.parts.dropLast = some f.directory
  complete : ∀ f ∈ created, f.complete = true →
    t.Holds f.directory (f.parts.getLastD []) f.inode f.bytes
  untouched : FileTree.Untouched host t
  root : (t.entries? hostRoot).isSome = true

variable {host t t' : HostTree} {created : List Created}

theorem Safe.make (h : Safe host t created) {d : ℕ} {name : Bytes} {node : Node Bytes}
    (hmake : t.make d name node = .ok t') : Safe host t' created := by
  have hdirs := FileTree.sameDirs_of_make hmake
  refine ⟨h.distinct, h.new, ?_, ?_, ?_, h.untouched.make hmake, hdirs.dirs _ h.root⟩
  · intro f hf
    exact FileTree.file_of_make hmake (h.regular f hf)
  · intro f hf
    exact hdirs.walk (h.below f hf)
  · intro f hf hcomplete
    exact (h.complete f hf hcomplete).make hmake

/-- Writing a new file that is not among the created ones. -/
theorem Safe.setBytes (h : Safe host t created) {i : ℕ} {bytes old : Bytes}
    (hfile : t.nodes i = some (.file old)) (hnew : host.next ≤ i)
    (hother : ∀ f ∈ created, f.inode ≠ i) : Safe host (t.setBytes i bytes) created := by
  have hdirs : FileTree.SameDirs t (t.setBytes i bytes) := FileTree.sameDirs_setBytes hfile
  refine ⟨h.distinct, h.new, ?_, ?_, ?_, h.untouched.setBytes hfile hnew, hdirs.dirs _ h.root⟩
  · intro f hf
    rw [FileTree.nodes_setBytes_of_ne (hother f hf)]
    exact h.regular f hf
  · intro f hf
    exact hdirs.walk (h.below f hf)
  · intro f hf hcomplete
    exact (h.complete f hf hcomplete).setBytes hfile (hother f hf)

/-- Removing the entry of a file that is not among the created ones. -/
theorem Safe.unlink (h : Safe host t created) {d i : ℕ} {name bytes : Bytes}
    (hholds : t.Holds d name i bytes) (hother : ∀ f ∈ created, f.inode ≠ i) :
    Safe host (t.unlink d name) created := by
  have hdirs := FileTree.sameDirs_unlink hholds
  refine ⟨h.distinct, h.new, ?_, ?_, ?_, h.untouched.unlink, hdirs.dirs _ h.root⟩
  · intro f hf
    exact FileTree.file_unlink (h.regular f hf)
  · intro f hf
    exact hdirs.walk (h.below f hf)
  · intro f hf hcomplete
    have hkept := h.complete f hf hcomplete
    apply hkept.unlink
    rintro ⟨hd, hname⟩
    have hentry := hkept.entry
    rw [hd, hname, hholds.entry] at hentry
    cases hentry
    exact hother f hf rfl

theorem Safe.append (h : Safe host t created) {f : Created} (hnew : host.next ≤ f.inode)
    (hother : ∀ g ∈ created, g.inode ≠ f.inode) (hfile : t.nodes f.inode = some (.file f.bytes))
    (hbelow : t.walk hostRoot f.parts.dropLast = some f.directory)
    (hcomplete : f.complete = true →
      t.Holds f.directory (f.parts.getLastD []) f.inode f.bytes) :
    Safe host t (created ++ [f]) := by
  have hmem : ∀ {p : Created → Prop}, (∀ g ∈ created, p g) → p f →
      ∀ g ∈ created ++ [f], p g := by
    intro p hall hlast g hg
    rcases List.mem_append.mp hg with hg | hg
    · exact hall g hg
    · rw [List.mem_singleton.mp hg]
      exact hlast
  refine ⟨?_, hmem h.new hnew, hmem h.regular hfile, hmem h.below hbelow,
    hmem h.complete hcomplete, h.untouched, h.root⟩
  rw [List.map_append, List.nodup_append]
  refine ⟨h.distinct, by simp, ?_⟩
  intro i hi j hj
  obtain ⟨g, hg, rfl⟩ := List.mem_map.mp hi
  rw [List.mem_singleton.mp hj]
  exact hother g hg

/-- The directories of an artifact are reached through directories. -/
theorem descend_spec {mkdirFails : Bytes → Bool} {names : List Bytes} {d : ℕ}
    {reached : Option ℕ} (h : Safe host t created) (hd : (t.entries? d).isSome = true)
    (hdescend : descend mkdirFails t d names = (t', reached)) :
    Safe host t' created ∧ FileTree.SameDirs t t' ∧
      ∀ i, reached = some i → t'.walk d names = some i := by
  induction names generalizing t d with
  | nil =>
      cases hdescend
      refine ⟨h, .refl _, ?_⟩
      intro i hi
      cases hi
      simp [FileTree.walk, hd]
  | cons part rest ih =>
      -- the first directory is open in `t₁`, which the rest of the walk grows
      have hfrom : ∀ {t₁ : HostTree} {next : ℕ}, Safe host t₁ created →
          FileTree.SameDirs t t₁ → t₁.openDir d part = .ok next →
          descend mkdirFails t₁ next rest = (t', reached) →
          Safe host t' created ∧ FileTree.SameDirs t t' ∧
            ∀ i, reached = some i → t'.walk d (part :: rest) = some i := by
        intro t₁ next hsafe hdirs hopen hrest
        obtain ⟨hsafe', hdirs', hwalk⟩ :=
          ih hsafe (FileTree.openDir_eq_ok.mp hopen).2 hrest
        refine ⟨hsafe', hdirs.trans hdirs', ?_⟩
        intro i hi
        rw [FileTree.walk, hdirs'.opened d part next hopen]
        exact hwalk i hi
      unfold descend at hdescend
      split at hdescend
      · rename_i next hopen
        exact hfrom h (.refl _) hopen hdescend
      · split at hdescend
        · cases hdescend
          exact ⟨h, .refl _, by simp⟩
        · split at hdescend
          · cases hdescend
            exact ⟨h, .refl _, by simp⟩
          · rename_i t₁ hmake
            have hsafe := h.make hmake
            have hdirs := FileTree.sameDirs_of_make hmake
            split at hdescend
            · rename_i next hopen
              exact hfrom hsafe hdirs hopen hdescend
            · cases hdescend
              exact ⟨hsafe, hdirs, by simp⟩
      · cases hdescend
        exact ⟨h, .refl _, by simp⟩

theorem length_copyN_le (source : Source) : (copyN source).length ≤ source.size.toNat := by
  unfold copyN
  dsimp only
  split
  · simp
  · simp only [List.length_take]
    omega

/-- What copying artifacts does to what has been created: new files come at the
end, and their sizes are within the growth of the total. -/
structure Grows (c c' : Copying) (count : ℕ) : Prop where
  files : ∃ new, c'.created = c.created ++ new ∧ new.length ≤ count ∧
    (new.map fun f ↦ f.bytes.length).sum + c.total ≤ c'.total

theorem Grows.of_created {c c' : Copying} {count : ℕ} (h : c'.created = c.created)
    (htotal : c.total ≤ c'.total) : Grows c c' count :=
  ⟨[], by simp [h], by simp, by simpa using htotal⟩

theorem Grows.trans {c c' c'' : Copying} {count count' : ℕ} (h : Grows c c' count)
    (h' : Grows c' c'' count') : Grows c c'' (count + count') := by
  obtain ⟨new, hnew, hcount, hsum⟩ := h
  obtain ⟨new', hnew', hcount', hsum'⟩ := h'
  refine ⟨new ++ new', by rw [hnew', hnew, List.append_assoc], ?_, ?_⟩
  · rw [List.length_append]
    omega
  · rw [List.map_append, List.sum_append]
    omega

theorem Grows.mem {c c' : Copying} {count : ℕ} (h : Grows c c' count) {f : Created}
    (hf : f ∈ c.created) : f ∈ c'.created := by
  obtain ⟨new, hnew, _⟩ := h
  rw [hnew]
  exact List.mem_append_left _ hf

/-! ## One artifact -/

theorem copyArtifact_spec {c c' : Copying} {parts : List Bytes} {answer : Answer}
    {source : Source} {ok : Bool} (h : Safe host c.host c.created)
    (hcopy : copyArtifact c parts answer source = (c', ok)) :
    Safe host c'.host c'.created ∧ c'.seen = c.seen ∧ c'.total = c.total ∧
      ((c'.created = c.created ∧ ok = false) ∨ ∃ f, c'.created = c.created ++ [f] ∧
        f.parts = parts ∧ f.complete = ok ∧ f.bytes.length ≤ source.size.toNat) := by
  unfold copyArtifact at hcopy
  generalize hdescend : descend answer.mkdirFails c.host hostRoot parts.dropLast = walked at hcopy
  obtain ⟨t₁, reached⟩ := walked
  obtain ⟨hsafe, _, hwalk⟩ := descend_spec h h.root hdescend
  cases reached with
  | none =>
      cases hcopy
      exact ⟨hsafe, rfl, rfl, .inl ⟨rfl, rfl⟩⟩
  | some directory =>
      dsimp only at hcopy
      split at hcopy
      · cases hcopy
        exact ⟨hsafe, rfl, rfl, .inl ⟨rfl, rfl⟩⟩
      · split at hcopy
        · cases hcopy
          exact ⟨hsafe, rfl, rfl, .inl ⟨rfl, rfl⟩⟩
        · rename_i t₂ hcreate
          simp only [Prod.mk.injEq] at hcopy
          obtain ⟨rfl, rfl⟩ := hcopy
          have hmade := hsafe.make hcreate
          have hfile : t₂.nodes t₁.next = some (.file []) := FileTree.nodes_next_of_make hcreate
          have hentry := FileTree.lookup_of_make hcreate
          have hlt : t₁.next < t₂.next := by
            rw [FileTree.next_of_make hcreate]
            exact Nat.lt_succ_self _
          have hother : ∀ f ∈ c.created, f.inode ≠ t₁.next := by
            intro f hf hsame
            have hregular := hsafe.regular f hf
            rw [hsame, t₁.fresh _ (Nat.le_refl _)] at hregular
            cases hregular
          have hdirs : FileTree.SameDirs t₁ (t₂.setBytes t₁.next (copyN source)) :=
            (FileTree.sameDirs_of_make hcreate).trans (FileTree.sameDirs_setBytes hfile)
          have hholds : (t₂.setBytes t₁.next (copyN source)).Holds directory (parts.getLastD [])
              t₁.next (copyN source) := by
            refine ⟨?_, FileTree.nodes_setBytes hlt⟩
            unfold FileTree.lookup at hentry ⊢
            rwa [FileTree.entries?_setBytes hfile]
          have hnext := hsafe.untouched.next
          have hwritten : Safe host (t₂.setBytes t₁.next (copyN source)) c.created :=
            hmade.setBytes hfile hnext hother
          refine ⟨?_, rfl, rfl, .inr ⟨_, rfl, rfl, rfl, length_copyN_le source⟩⟩
          by_cases hcomplete :
              (((copyN source).length = source.size.toNat : Bool) && !source.syncFails) = true
          · rw [if_pos hcomplete]
            exact hwritten.append hnext hother hholds.file (hdirs.walk (hwalk _ rfl))
              fun _ ↦ hholds
          · rw [if_neg hcomplete]
            have hdirs' := hdirs.trans (FileTree.sameDirs_unlink hholds)
            exact (hwritten.unlink hholds hother).append hnext hother
              (FileTree.file_unlink hholds.file) (hdirs'.walk (hwalk _ rfl))
              fun hok ↦ absurd hok hcomplete

/-- What copying declared artifacts leaves: the total within the limit, and on
success a complete copy of each. -/
structure Copied (host : HostTree) (outputBytes : ℕ) (c c' : Copying) (paths : List Bytes)
    (ok : Bool) : Prop where
  safe : Safe host c'.host c'.created
  grows : Grows c c' paths.length
  total : c.total ≤ outputBytes → c'.total ≤ outputBytes
  copies : ok = true → ∀ path ∈ paths, ∃ f ∈ c'.created, f.Copies path ∧ f.complete = true

theorem copyDeclared_spec {outputBytes : ℕ} {c c' : Copying} {path : Bytes} {answer : Answer}
    {ok : Bool} (h : Safe host c.host c.created)
    (hcopy : copyDeclared outputBytes c path answer = (c', ok)) :
    Copied host outputBytes c c' [path] ok := by
  -- a refusal leaves all but the seen paths
  have hrefused : ∀ seen, Copied host outputBytes c { c with seen := seen } [path] false := by
    intro seen
    refine ⟨h, .of_created rfl (Nat.le_refl _), id, ?_⟩
    intro hok
    cases hok
  unfold copyDeclared at hcopy
  split at hcopy
  · cases hcopy
    exact hrefused c.seen
  · rename_i relative hcut
    split at hcopy
    · cases hcopy
      exact hrefused c.seen
    · split at hcopy
      · cases hcopy
        exact hrefused _
      · rename_i source _
        split at hcopy
        · cases hcopy
          exact hrefused _
        · rename_i hwithin
          have hsize : source.size.toNat ≤ outputBytes - c.total := by
            simp only [Bool.or_eq_true, decide_eq_true_eq, not_or, Nat.not_lt] at hwithin
            exact hwithin.2
          obtain ⟨hsafe, _, htotal, hfiles⟩ := copyArtifact_spec (c := { c with
            seen := c.seen ++ [relative], total := c.total + source.size.toNat }) h hcopy
          have hle : c.total ≤ outputBytes → c'.total ≤ outputBytes := by
            intro hc
            rw [htotal]
            dsimp only
            omega
          rcases hfiles with ⟨hcreated, hok⟩ | ⟨f, hcreated, hparts, hcomplete, hbytes⟩
          · refine ⟨hsafe, .of_created hcreated ?_, hle, ?_⟩
            · rw [htotal]
              exact Nat.le_add_right _ _
            · intro htrue
              rw [hok] at htrue
              cases htrue
          · refine ⟨hsafe, ⟨[f], hcreated, by simp, ?_⟩, hle, ?_⟩
            · rw [htotal]
              simp only [List.map_cons, List.map_nil, List.sum_cons, List.sum_nil]
              omega
            · intro hok path' hpath
              rw [List.mem_singleton.mp hpath, hcreated]
              exact ⟨f, by simp, ⟨relative, hcut, hparts⟩, by rw [hcomplete, hok]⟩

/-- The artifacts of a frame, one after the other. -/
theorem copyAll_spec {outputBytes : ℕ} {answers : ℕ → Answer} {paths : List Bytes}
    {c c' : Copying} {k : ℕ} {ok : Bool} (h : Safe host c.host c.created)
    (hcopy : copyAll outputBytes answers c k paths = (c', ok)) :
    Copied host outputBytes c c' paths ok := by
  induction paths generalizing c k with
  | nil =>
      cases hcopy
      exact ⟨h, .of_created rfl (Nat.le_refl _), id, by simp⟩
  | cons path rest ih =>
      unfold copyAll at hcopy
      split at hcopy
      · rename_i c₁ hfirst
        have h₁ := copyDeclared_spec h hfirst
        have h₂ := ih h₁.safe hcopy
        refine ⟨h₂.safe, ?_, fun hc ↦ h₂.total (h₁.total hc), ?_⟩
        · have hgrows := h₁.grows.trans h₂.grows
          rwa [← List.length_append] at hgrows
        · intro hok path' hpath
          rcases List.mem_cons.mp hpath with rfl | hpath
          · obtain ⟨f, hf, hcopies⟩ := h₁.copies rfl path' (by simp)
            exact ⟨f, h₂.grows.mem hf, hcopies⟩
          · exact h₂.copies hok path' hpath
      · rename_i c₁ hfirst
        cases hcopy
        have h₁ := copyDeclared_spec h hfirst
        obtain ⟨new, hnew, hcount, hsum⟩ := h₁.grows
        refine ⟨h₁.safe, ⟨new, hnew, ?_, hsum⟩, h₁.total, by simp⟩
        rw [List.length_singleton] at hcount
        rw [List.length_cons]
        omega

/-! ## One frame -/

section Turn

variable {unmarshal : Bytes → Option WorkerResponse} {limits : Limits} {answers : Answers}

/-- The state of the broker as to a frame whose artifacts it copies. -/
theorem copyDeclaredArtifacts_spec {s s' : State} {frame : Bytes} {ok : Bool}
    (h : Safe host s.host s.created)
    (hcopy : copyDeclaredArtifacts unmarshal limits answers s frame = (s', ok)) :
    s'.forwarded = s.forwarded ∧ s'.input = s.input ∧ Safe host s'.host s'.created ∧
      (∃ new, s'.created = s.created ++ new ∧ new.length ≤ 256 ∧
        (new.map fun f ↦ f.bytes.length).sum ≤ limits.outputBytes ∧
        (new ≠ [] → declaredArtifacts unmarshal frame ≠ [])) ∧
      (ok = true → ∀ path ∈ declaredArtifacts unmarshal frame,
        ∃ f ∈ s'.created, f.Copies path ∧ f.complete = true) := by
  have hnone : ∃ new, s.created = s.created ++ new ∧ new.length ≤ 256 ∧
      (new.map fun f ↦ f.bytes.length).sum ≤ limits.outputBytes ∧
      (new ≠ [] → declaredArtifacts unmarshal frame ≠ []) := ⟨[], by simp⟩
  unfold copyDeclaredArtifacts at hcopy
  dsimp only at hcopy
  split at hcopy
  · rename_i hempty
    cases hcopy
    exact ⟨rfl, rfl, h, hnone, by simp [hempty]⟩
  · rename_i hdeclared
    split at hcopy
    · cases hcopy
      exact ⟨rfl, rfl, h, hnone, by simp⟩
    · rename_i hlength
      split at hcopy
      · cases hcopy
        exact ⟨rfl, rfl, h, hnone, by simp⟩
      · generalize hall : copyAll limits.outputBytes answers.artifact
          ⟨s.host, s.created, [], 0⟩ 0 (declaredArtifacts unmarshal frame) = copied at hcopy
        obtain ⟨c, ok'⟩ := copied
        cases hcopy
        have hcopied := copyAll_spec (c := ⟨s.host, s.created, [], 0⟩) h hall
        obtain ⟨new, hnew, hcount, hsum⟩ := hcopied.grows
        have htotal := hcopied.total (Nat.zero_le _)
        refine ⟨rfl, rfl, hcopied.safe, ⟨new, hnew, by omega, ?_, fun _ ↦ hdeclared⟩,
          hcopied.copies⟩
        dsimp only at hsum
        omega

/-! ## Whole runs -/

variable {names : Bytes → List Bytes}

/-- What a turn keeps. -/
structure Kept (names : Bytes → List Bytes) (limits : Limits) (host : HostTree)
    (s : State) : Prop where
  safe : Safe host s.host s.created
  count : s.created.length ≤ 256
  total : (s.created.map fun f ↦ f.bytes.length).sum ≤ limits.outputBytes
  copied : ∀ frame ∈ s.forwarded, ∀ path ∈ names frame,
    ∃ f ∈ s.created, f.Copies path ∧ f.complete = true

theorem kept_initial (h : (host.entries? hostRoot).isSome = true) (input : Bytes) :
    Kept names limits host ⟨input, host, [], [], false⟩ where
  safe := ⟨List.nodup_nil, by simp, by simp, by simp, by simp, .refl _, h⟩
  count := by simp
  total := by simp
  copied := by simp

theorem Kept.turn {s s' : State} (h : Kept names limits host s)
    (hok : CopiesOnce unmarshal names limits answers s)
    (hturn : s.turn unmarshal limits answers = some s') : Kept names limits host s' := by
  unfold State.turn at hturn
  split at hturn
  · cases hturn
  · split at hturn
    · cases hturn
      exact ⟨h.safe, h.count, h.total, h.copied⟩
    · cases hturn
      exact ⟨h.safe, h.count, h.total, h.copied⟩
    · rename_i frame rest hread
      obtain ⟨hnames, honce⟩ := hok frame rest hread
      generalize hcopy : copyDeclaredArtifacts unmarshal limits answers
        { s with input := rest } frame = copied at hturn
      obtain ⟨s₁, ok⟩ := copied
      obtain ⟨hforwarded, _, hsafe, ⟨new, hnew, hcount, hsum, hdeclares⟩, hcopies⟩ :=
        copyDeclaredArtifacts_spec (s := { s with input := rest }) h.safe hcopy
      -- either nothing is new or everything is
      have hcreated : s₁.created = s.created ∨ s₁.created = new := by
        by_cases hnil : new = []
        · left
          rw [hnew, hnil, List.append_nil]
        · right
          rw [hnew, honce (hdeclares hnil), List.nil_append]
      have hcopied : ∀ f ∈ s.created, f ∈ s₁.created := by
        intro f hf
        rw [hnew]
        exact List.mem_append_left _ hf
      have h₁ : Kept names limits host s₁ := by
        refine ⟨hsafe, ?_, ?_, ?_⟩
        · rcases hcreated with hsame | hsame
          · rw [hsame]
            exact h.count
          · rw [hsame]
            exact hcount
        · rcases hcreated with hsame | hsame
          · rw [hsame]
            exact h.total
          · rw [hsame]
            exact hsum
        · intro frame' hframe' path hpath
          rw [hforwarded] at hframe'
          obtain ⟨f, hf, hcopy'⟩ := h.copied frame' hframe' path hpath
          exact ⟨f, hcopied f hf, hcopy'⟩
      cases ok with
      | false =>
          cases hturn
          exact ⟨h₁.safe, h₁.count, h₁.total, h₁.copied⟩
      | true =>
          dsimp only at hturn
          split at hturn
          · cases hturn
            refine ⟨h₁.safe, h₁.count, h₁.total, ?_⟩
            intro frame' hframe' path hpath
            rcases List.mem_append.mp hframe' with hold | hlast
            · exact h₁.copied frame' hold path hpath
            · rw [List.mem_singleton.mp hlast] at hpath
              exact hcopies rfl path (hnames path hpath)
          · cases hturn
            exact ⟨h₁.safe, h₁.count, h₁.total, h₁.copied⟩

/-- Whatever the worker writes, the broker contains it while one frame copies. -/
theorem contained_while_copied_once {s : State}
    (h : (broker unmarshal limits host).ReachableBy (CopiesOnce unmarshal names limits) s) :
    Contained names limits host s := by
  have hkept : Kept names limits host s := by
    refine h.invariant ?_ ?_
    · rintro s₀ ⟨hroot, input, rfl⟩
      exact kept_initial hroot input
    · intro _ s₀ s₁ hs₀ hok hstep
      exact hs₀.turn hok hstep
  refine ⟨hkept.count, hkept.total, hkept.safe.distinct, ?_, hkept.safe.below,
    hkept.safe.untouched, ?_⟩
  · intro f hf
    exact ⟨host.fresh _ (hkept.safe.new f hf), hkept.safe.regular f hf⟩
  · intro frame hframe path hpath
    obtain ⟨f, hf, hcopies, hcomplete⟩ := hkept.copied frame hframe path hpath
    exact ⟨f, hf, hcopies, hcomplete, hkept.safe.complete f hf hcomplete⟩

end Turn

/-! ## Two responses -/

/-- A response with one artifact, of the given name. -/
def respond (name : String) : Bytes :=
  ("\x7b\"id\":2,\"result\":\x7b\"artifacts\":[\x7b\"path\":\"/output/" ++ name ++
    "\"\x7d]\x7d\x7d\n").toUTF8.toList

/-- The decoding of two such responses. -/
def decodes (frame : Bytes) : Option WorkerResponse :=
  if frame = respond "a" then some ⟨2, some [outputPrefix ++ [97]]⟩
  else if frame = respond "b" then some ⟨2, some [outputPrefix ++ [98]]⟩
  else none

/-- Every artifact is a file of three bytes. -/
def threeBytes : Answers where
  rootOpens := true
  artifact _ := ⟨some ⟨false, true, 3, [1, 2, 3], none, false⟩, fun _ ↦ false, false⟩
  forwards := true

def fourBytes : Limits := ⟨4, 4096⟩

def brokered (input : Bytes) : State := ⟨input, .root, [], [], false⟩

theorem contained_while_copied_once_response :
    ∃ s, (brokered (respond "a")).turn decodes fourBytes threeBytes = some s ∧
      s.forwarded = [respond "a"] ∧
      Contained (declaredArtifacts decodes) fourBytes .root s := by
  have hruns : ((brokered (respond "a")).turn decodes fourBytes threeBytes).any
      (fun s ↦ s.forwarded = [respond "a"]) = true := by decide +kernel
  obtain ⟨s, hturn, hforwarded⟩ := (Option.any_eq_true _ _).mp hruns
  have hinitial : (broker decodes fourBytes .root).ReachableBy
      (CopiesOnce decodes (declaredArtifacts decodes) fourBytes) (brokered (respond "a")) :=
    ⟨_, ⟨rfl, respond "a", rfl⟩, .refl _⟩
  refine ⟨s, hturn, of_decide_eq_true hforwarded,
    contained_while_copied_once (hinitial.step (i := threeBytes) ?_ hturn)⟩
  intro frame rest _
  exact ⟨fun _ h ↦ h, fun _ ↦ rfl⟩

/-- Two responses have six bytes copied where four are allowed. -/
theorem not_contained : ¬∀ unmarshal limits host s, (broker unmarshal limits host).Reachable s →
    Contained (declaredArtifacts unmarshal) limits host s := by
  intro h
  have hruns : ([threeBytes, threeBytes].foldlM (fun s answers ↦
      s.turn decodes fourBytes answers) (brokered (respond "a" ++ respond "b"))).any
      (fun s ↦ (s.created.map fun f ↦ f.bytes.length).sum = 6) = true := by decide +kernel
  obtain ⟨s, hrun, htotal⟩ := (Option.any_eq_true _ _).mp hruns
  have hinitial : (broker decodes fourBytes .root).Reachable
      (brokered (respond "a" ++ respond "b")) := ⟨_, ⟨rfl, _, rfl⟩, .refl _⟩
  have hreach : (broker decodes fourBytes .root).Reachable s :=
    hinitial.foldlM (fun _ _ _ hstep ↦ ⟨trivial, hstep⟩) hrun
  have hwithin := (h decodes fourBytes .root s hreach).total
  rw [of_decide_eq_true htotal] at hwithin
  exact absurd hwithin (by decide)

end ShejaneRuntime.Worker
