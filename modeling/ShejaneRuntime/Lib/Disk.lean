import ShejaneRuntime.Lib.Calls
import ShejaneRuntime.Lib.PathTree

/-!
# Calls on a disk

Making directories, files and links by path. A disk remembers the places where
something was made or opened for writing. Making a directory with its parents
makes everything from the first missing component on.
-/

namespace ShejaneRuntime.Lib

structure Disk (Name Data : Type) where
  tree : PathTree Name Data
  touched : List (Place Name) := []

abbrev DiskCall (Name Data α : Type) := Call PathErrno (Disk Name Data) α

namespace Disk

variable {Name Data : Type} [DecidableEq Name]

/-- Put an item at a path where nothing is: `mkdir`, `symlink`, or `open` with `O_EXCL`. -/
def create (depth : ℕ) (item : Item Name Data) (path : List (Step Name)) :
    DiskCall Name Data (Place Name) := fun s ↦
  match path.getLast? with
  | none => .error .exist s
  | some last =>
    match s.tree.walk depth [] path.dropLast with
    | .error e => .error e s
    | .ok p =>
      match last with
      | .up => .error (if s.tree.item p = some .dir then .exist else .notdir) s
      | .down name =>
        match s.tree.make p name item with
        | .ok tree => .ok (p ++ [name]) ⟨tree, s.touched ++ [p ++ [name]]⟩
        | .error e => .error e s

/-- `Path.is_dir` -/
def isDir (t : PathTree Name Data) (depth : ℕ) (path : List (Step Name)) : Bool :=
  match t.walk depth [] path with
  | .ok p => decide (t.item p = some .dir)
  | .error _ => false

/-- `Path.mkdir(exist_ok=...)` -/
def mkdir (depth : ℕ) (existOk : Bool) (path : List (Step Name)) : DiskCall Name Data Unit := fun s ↦
  match create depth .dir path s with
  | .ok _ s' => .ok () s'
  | .error .noent s' => .error .noent s'
  | .error e s' => if existOk && isDir s'.tree depth path then .ok () s' else .error e s'

/-- `Path.mkdir(parents=True, exist_ok=...)`; the path is given from its end. -/
def mkdirParents (depth : ℕ) : List (Step Name) → Bool → DiskCall Name Data Unit
  | [], existOk => mkdir depth existOk []
  | last :: parents, existOk => fun s ↦
    match mkdir depth existOk (last :: parents).reverse s with
    | .error .noent s' =>
      (mkdirParents depth parents true >>= fun _ ↦ mkdir depth existOk (last :: parents).reverse) s'
    | result => result

/-- `shutil.rmtree(path, ignore_errors=True)` -/
def rmtree (depth : ℕ) (path : List (Step Name)) : DiskCall Name Data Unit := fun s ↦
  match path.getLast?, s.tree.walk depth [] path.dropLast with
  | some (.down name), .ok p =>
    if s.tree.item (p ++ [name]) = some .dir then
      .ok () ⟨s.tree.removeAll p name, s.touched⟩
    else .ok () s
  | _, _ => .ok () s

variable {depth : ℕ} {s s' : Disk Name Data} {p q : Place Name} {name : Name}
  {item : Item Name Data} {path : List (Step Name)}

theorem create_eq_ok (h : create depth item path s = .ok q s') :
    ∃ parent p name tree, path = parent ++ [.down name] ∧ s.tree.walk depth [] parent = .ok p ∧
      s.tree.make p name item = .ok tree ∧ q = p ++ [name] ∧
      s' = ⟨tree, s.touched ++ [p ++ [name]]⟩ := by
  unfold create at h
  split at h
  · cases h
  · rename_i last hlast
    split at h
    · cases h
    · rename_i p hwalk
      split at h
      · cases h
      · rename_i name
        split at h
        · rename_i tree hmake
          cases h
          refine ⟨path.dropLast, p, name, tree, ?_, hwalk, hmake, rfl, rfl⟩
          exact (List.dropLast_append_getLast? _ hlast).symm
        · cases h

theorem create_eq_error {e : PathErrno} (h : create depth item path s = .error e s') : s' = s := by
  unfold create at h
  split at h
  · cases h
    rfl
  · split at h
    · cases h
      rfl
    · split at h
      · cases h
        rfl
      · split at h
        · cases h
        · cases h
          rfl

theorem create_down {parent : List (Step Name)} (hwalk : s.tree.walk depth [] parent = .ok p) :
    create depth item (parent ++ [.down name]) s =
      match s.tree.make p name item with
      | .ok tree => .ok (p ++ [name]) ⟨tree, s.touched ++ [p ++ [name]]⟩
      | .error e => .error e s := by
  unfold create
  rw [List.getLast?_concat, List.dropLast_concat]
  dsimp only
  rw [hwalk]

/-- The first component of a path that is not there is a name in a directory. -/
def Missing (t : PathTree Name Data) (depth : ℕ) (path : List (Step Name)) (p : Place Name)
    (name : Name) : Prop :=
  ∃ a b, path = a ++ .down name :: b ∧ t.walk depth [] a = .ok p ∧ t.item p = some .dir ∧
    t.item (p ++ [name]) = none

omit [DecidableEq Name] in
theorem Missing.walk {t : PathTree Name Data} (h : Missing t depth path p name) :
    t.walk depth [] path = .error .noent := by
  obtain ⟨a, b, rfl, hwalk, hdir, hfree⟩ := h
  rw [PathTree.walk_append, hwalk]
  dsimp only
  rw [PathTree.walk, PathTree.walkWith, hdir]
  dsimp only
  rw [hfree]

omit [DecidableEq Name] in
theorem Missing.append {t : PathTree Name Data} (h : Missing t depth path p name)
    (rest : List (Step Name)) : Missing t depth (path ++ rest) p name := by
  obtain ⟨a, b, rfl, hrest⟩ := h
  exact ⟨a, b ++ rest, by rw [List.append_assoc, List.cons_append], hrest⟩

omit [DecidableEq Name] in
/-- The first missing component is the last one, or one before it. -/
theorem missing_concat {t : PathTree Name Data} {parent : List (Step Name)} {last : Step Name}
    (h : Missing t depth (parent ++ [last]) p name) :
    (last = .down name ∧ t.walk depth [] parent = .ok p ∧ t.item p = some .dir ∧
      t.item (p ++ [name]) = none) ∨ Missing t depth parent p name := by
  obtain ⟨a, b, hpath, hwalk, hdir, hfree⟩ := h
  rcases List.eq_nil_or_concat b with rfl | ⟨b', last', rfl⟩
  · obtain ⟨rfl, hlast⟩ := List.append_inj' hpath rfl
    exact .inl ⟨List.singleton_inj.mp hlast, hwalk, hdir, hfree⟩
  · rw [List.concat_eq_append, ← List.cons_append, ← List.append_assoc] at hpath
    obtain ⟨rfl, _⟩ := List.append_inj' hpath rfl
    exact .inr ⟨a, b', rfl, hwalk, hdir, hfree⟩

/-! ## What is made -/

/-- Directories are made at free places, and nothing else changes. -/
structure MakesDirs (s s' : Disk Name Data) (made : List (Place Name)) : Prop where
  touched : s'.touched = s.touched ++ made
  free : ∀ x ∈ made, s.tree.item x = none
  item : ∀ x, s'.tree.item x = if x ∈ made then some .dir else s.tree.item x

theorem MakesDirs.refl (s : Disk Name Data) : MakesDirs s s [] := by
  refine ⟨(List.append_nil _).symm, fun _ h ↦ absurd h List.not_mem_nil, ?_⟩
  intro x
  rw [if_neg List.not_mem_nil]

theorem MakesDirs.trans {s'' : Disk Name Data} {made made' : List (Place Name)}
    (h : MakesDirs s s' made) (h' : MakesDirs s' s'' made') : MakesDirs s s'' (made ++ made') := by
  refine ⟨by rw [h'.touched, h.touched, List.append_assoc], ?_, ?_⟩
  · intro x hx
    rcases List.mem_append.mp hx with hx | hx
    · exact h.free x hx
    · have hfree := h'.free x hx
      rw [h.item x] at hfree
      split at hfree
      · cases hfree
      · exact hfree
  · intro x
    rw [h'.item x, h.item x]
    by_cases hx : x ∈ made <;> by_cases hx' : x ∈ made' <;> simp [hx, hx']

theorem MakesDirs.grows {made : List (Place Name)} (h : MakesDirs s s' made) :
    s.tree.Grows s'.tree := by
  intro x old hold
  refine ⟨old, ?_, PathTree.Item.Like.refl old⟩
  rw [h.item x, if_neg, hold]
  intro hx
  rw [h.free x hx] at hold
  cases hold

theorem makesDirs_create (h : create depth .dir path s = .ok q s') : MakesDirs s s' [q] := by
  obtain ⟨parent, p, name, tree, rfl, _, hmake, rfl, rfl⟩ := create_eq_ok h
  have hfree := (PathTree.make_eq_ok hmake).2.1
  refine ⟨rfl, ?_, ?_⟩
  · intro x hx
    rw [List.mem_singleton.mp hx]
    exact hfree
  · intro x
    by_cases hx : x = p ++ [name]
    · rw [if_pos (List.mem_singleton.mpr hx), hx]
      exact PathTree.item_make hmake
    · rw [if_neg fun hmem ↦ hx (List.mem_singleton.mp hmem)]
      exact PathTree.item_make_of_ne hmake hx

omit [DecidableEq Name] in
theorem isDir_iff {t : PathTree Name Data} :
    isDir t depth path = true ↔ ∃ p, t.walk depth [] path = .ok p ∧ t.item p = some .dir := by
  unfold isDir
  cases t.walk depth [] path with
  | ok p => simp
  | error e => simp

/-- What making one directory can do. -/
theorem mkdir_cases (depth : ℕ) (existOk : Bool) (path : List (Step Name)) (s : Disk Name Data) :
    (∃ q s', create depth .dir path s = .ok q s' ∧ mkdir depth existOk path s = .ok () s') ∨
      (existOk = true ∧ isDir s.tree depth path = true ∧ mkdir depth existOk path s = .ok () s) ∨
        ∃ e, mkdir depth existOk path s = .error e s ∧
          (e = .noent → create depth .dir path s = .error .noent s) := by
  unfold mkdir
  cases hcreate : create depth .dir path s with
  | ok q s' => exact .inl ⟨q, s', rfl, rfl⟩
  | error e s' =>
      cases create_eq_error hcreate
      cases e with
      | noent => exact .inr (.inr ⟨.noent, rfl, fun _ ↦ rfl⟩)
      | _ =>
          dsimp only
          split
          · rename_i hexist
            rw [Bool.and_eq_true] at hexist
            exact .inr (.inl ⟨hexist.1, hexist.2, rfl⟩)
          · exact .inr (.inr ⟨_, rfl, by rintro ⟨⟩⟩)

theorem create_noent (h : create depth item path s = .error .noent s') :
    ∃ parent last, path = parent ++ [last] ∧ s.tree.walk depth [] parent = .error .noent := by
  unfold create at h
  split at h
  · cases h
  · rename_i last hlast
    have hpath := (List.dropLast_append_getLast? _ hlast).symm
    split at h
    · rename_i e hwalk
      cases h
      exact ⟨path.dropLast, last, hpath, hwalk⟩
    · split at h
      · split at h <;> cases h
      · split at h
        · cases h
        · rename_i name e hmake
          unfold PathTree.make at hmake
          split at hmake
          · split at hmake
            · cases hmake
            · cases hmake
              cases h
          · cases hmake
            cases h

variable (item) in
/-- A missing last component is made. -/
theorem create_of_missing {parent : List (Step Name)} (hwalk : s.tree.walk depth [] parent = .ok p)
    (hdir : s.tree.item p = some .dir) (hfree : s.tree.item (p ++ [name]) = none) :
    ∃ s', create depth item (parent ++ [.down name]) s = .ok (p ++ [name]) s' := by
  obtain ⟨tree, hmake⟩ := PathTree.make_of_free item hdir hfree
  rw [create_down hwalk, hmake]
  exact ⟨_, rfl⟩

theorem isDir_create (h : create depth .dir path s = .ok q s') : isDir s'.tree depth path = true := by
  obtain ⟨parent, p, name, tree, rfl, hwalk, hmake, rfl, rfl⟩ := create_eq_ok h
  have hgrows := PathTree.grows_make hmake
  refine isDir_iff.mpr ⟨p ++ [name], ?_, PathTree.item_make hmake⟩
  rw [PathTree.walk_append, hgrows.walk hwalk]
  dsimp only
  rw [PathTree.walk, PathTree.walkWith, hgrows.dir (PathTree.make_eq_ok hmake).1]
  dsimp only
  rw [PathTree.item_make hmake]
  rfl

/-- The missing components of a path are made from the first one on. -/
structure MakesParents (depth : ℕ) (path : List (Step Name)) (s s' : Disk Name Data)
    (made : List (Place Name)) : Prop where
  makes : MakesDirs s s' made
  missing : ∀ p name, Missing s.tree depth path p name → p ++ [name] ∈ made
  first : made ≠ [] → ∃ p name, Missing s.tree depth path p name
  below : ∀ (base : List (Step Name)) (names : List Name), path = base ++ names.map .down → isDir s.tree depth base = true →
    ∀ x ∈ made, ∃ p name, Missing s.tree depth path p name ∧ p ++ [name] <+: x

omit [DecidableEq Name] in
theorem not_missing_of_isDir {t : PathTree Name Data} (h : isDir t depth path = true) :
    ¬Missing t depth path p name := by
  intro hmissing
  obtain ⟨q, hwalk, _⟩ := isDir_iff.mp h
  rw [hmissing.walk] at hwalk
  cases hwalk

theorem MakesParents.refl (h : ∀ p name, ¬Missing s.tree depth path p name) :
    MakesParents depth path s s [] :=
  ⟨MakesDirs.refl s, fun p name hmissing ↦ absurd hmissing (h p name), fun h ↦ absurd rfl h,
    fun _ _ _ _ _ hx ↦ absurd hx List.not_mem_nil⟩

omit [DecidableEq Name] in
/-- Below a directory, the first missing component is one of the names. -/
theorem names_of_missing {t : PathTree Name Data} {base : List (Step Name)} {names : List Name}
    (hbase : isDir t depth base = true) (h : Missing t depth (base ++ names.map .down) p name) :
    ∃ before after, names = before ++ name :: after ∧
      t.walk depth [] (base ++ before.map .down) = .ok p ∧ t.item p = some .dir ∧
      t.item (p ++ [name]) = none := by
  obtain ⟨a, b, hpath, hwalk, hdir, hfree⟩ := h
  rcases List.append_eq_append_iff.mp hpath with ⟨c, ha, hnames⟩ | ⟨c, hbase', hrest⟩
  · obtain ⟨l₁, l₂, rfl, rfl, hl₂⟩ := List.map_eq_append_iff.mp hnames
    obtain ⟨n, l₃, rfl, hn, _⟩ := List.map_eq_cons_iff.mp hl₂
    cases hn
    exact ⟨l₁, l₃, rfl, ha ▸ hwalk, hdir, hfree⟩
  · cases c with
    | nil =>
        rw [List.nil_append] at hrest
        rw [List.append_nil] at hbase'
        obtain ⟨n, l₃, rfl, hn, _⟩ := List.map_eq_cons_iff.mp hrest.symm
        cases hn
        refine ⟨[], l₃, rfl, ?_, hdir, hfree⟩
        rw [hbase', List.map_nil, List.append_nil]
        exact hwalk
    | cons step c =>
        rw [List.cons_append] at hrest
        obtain ⟨rfl, _⟩ := List.cons_eq_cons.mp hrest
        exact absurd ⟨a, c, hbase', hwalk, hdir, hfree⟩ (not_missing_of_isDir hbase)

/-- A path through a directory that was made stays below it. -/
theorem below_made {made : List (Place Name)} {base : List (Step Name)} {names : List Name}
    (hmakes : MakesDirs s s' made) (hbase : isDir s.tree depth base = true)
    (hmissing : Missing s.tree depth (base ++ names.map .down) p name) (hmade : p ++ [name] ∈ made)
    (hwalk : s'.tree.walk depth [] (base ++ names.map .down) = .ok q) : p ++ [name] <+: q := by
  obtain ⟨before, after, rfl, hbefore, hdir, hfree⟩ := names_of_missing hbase hmissing
  have hgrows := hmakes.grows
  rw [List.map_append, ← List.append_assoc, PathTree.walk_append, hgrows.walk hbefore] at hwalk
  dsimp only at hwalk
  rw [List.map_cons] at hwalk
  rw [PathTree.walk, PathTree.walkWith, hgrows.dir hdir] at hwalk
  dsimp only at hwalk
  rw [hmakes.item, if_pos hmade] at hwalk
  have hconfined : s'.tree.Confined depth (p ++ [name]) := by
    intro cur next target place hcur hlink _
    rw [hmakes.item] at hlink
    split at hlink
    · cases hlink
    · obtain ⟨rest, rfl⟩ := hcur
      rw [List.append_assoc] at hlink
      have hnone : s.tree.item (p ++ [name]) ≠ none :=
        PathTree.item_of_append (q := rest ++ [next]) (by
          rw [hlink]
          exact Option.some_ne_none _)
      exact absurd hfree hnone
  exact hconfined.walk (List.prefix_refl _) hwalk

theorem not_missing_of_error {e : PathErrno} {existOk : Bool} (he : e ≠ .noent)
    (h : mkdir depth existOk path s = .error e s') : ¬Missing s.tree depth path p name := by
  intro hmissing
  have hcreate : ∀ r, create depth (.dir : Item Name Data) path s = r →
      (∃ q s₁, r = .ok q s₁) ∨ r = .error .noent s := by
    intro r hr
    obtain ⟨a, b, rfl, hwalk, hdir, hfree⟩ := hmissing
    rcases List.eq_nil_or_concat b with rfl | ⟨b', last, rfl⟩
    · obtain ⟨s₁, hs₁⟩ := create_of_missing .dir hwalk hdir hfree
      rw [hs₁] at hr
      exact .inl ⟨_, _, hr.symm⟩
    · right
      have hmissing' : Missing s.tree depth (a ++ .down name :: b') p name :=
        ⟨a, b', rfl, hwalk, hdir, hfree⟩
      rw [← hr, List.concat_eq_append, ← List.cons_append, ← List.append_assoc]
      unfold create
      rw [List.getLast?_concat, List.dropLast_concat]
      dsimp only
      rw [hmissing'.walk]
  unfold mkdir at h
  rcases hcreate _ rfl with ⟨q, s₁, hok⟩ | hnoent
  · rw [hok] at h
    cases h
  · rw [hnoent] at h
    cases h
    exact he rfl

theorem makesParents_create (h : create depth .dir path s = .ok q s') :
    MakesParents depth path s s' [q] := by
  have hmakes := makesDirs_create h
  obtain ⟨parent, p, name, tree, rfl, hwalk, hmake, rfl, rfl⟩ := create_eq_ok h
  obtain ⟨hdir, hfree, _⟩ := PathTree.make_eq_ok hmake
  have hmissing : Missing s.tree depth (parent ++ [.down name]) p name :=
    ⟨parent, [], rfl, hwalk, hdir, hfree⟩
  refine ⟨hmakes, ?_, fun _ ↦ ⟨p, name, hmissing⟩, ?_⟩
  · intro p' name' hmissing'
    rcases missing_concat hmissing' with ⟨hname, hwalk', _, _⟩ | hparent
    · rw [hwalk] at hwalk'
      cases hwalk'
      cases hname
      exact List.mem_singleton_self _
    · rw [hparent.walk] at hwalk
      cases hwalk
  · intro _ _ _ _ x hx
    rw [List.mem_singleton.mp hx]
    exact ⟨p, name, hmissing, List.prefix_refl _⟩

/-- The parents were made, and then the directory itself. -/
theorem MakesParents.concat {parent : List (Step Name)} {last : Step Name} {s₁ : Disk Name Data}
    {made : List (Place Name)} (h : MakesParents depth parent s s₁ made)
    (hnoent : s.tree.walk depth [] parent = .error .noent) :
    MakesParents depth (parent ++ [last]) s s₁ made := by
  have hparent : ∀ {p name}, Missing s.tree depth (parent ++ [last]) p name →
      Missing s.tree depth parent p name := by
    intro p name hmissing
    rcases missing_concat hmissing with ⟨_, hwalk, _⟩ | hparent
    · rw [hnoent] at hwalk
      cases hwalk
    · exact hparent
  refine ⟨h.makes, fun p name hmissing ↦ h.missing p name (hparent hmissing), ?_, ?_⟩
  · intro hmade
    obtain ⟨p, name, hmissing⟩ := h.first hmade
    exact ⟨p, name, hmissing.append [last]⟩
  · intro base names hpath hbase x hx
    rcases List.eq_nil_or_concat names with rfl | ⟨names', name', rfl⟩
    · rw [List.map_nil, List.append_nil] at hpath
      obtain ⟨p, name, hmissing⟩ := h.first (List.ne_nil_of_mem hx)
      have hmissing' := hmissing.append [last]
      rw [hpath] at hmissing'
      exact absurd hmissing' (not_missing_of_isDir hbase)
    · rw [List.concat_eq_append, List.map_append, ← List.append_assoc] at hpath
      obtain ⟨rfl, _⟩ := List.append_inj' hpath rfl
      obtain ⟨p, name, hmissing, hbelow⟩ := h.below base names' rfl hbase x hx
      exact ⟨p, name, hmissing.append [last], hbelow⟩

theorem MakesParents.create {parent : List (Step Name)} {last : Step Name}
    {s₁ s₂ : Disk Name Data} {made : List (Place Name)}
    (h : MakesParents depth parent s s₁ made)
    (hnoent : s.tree.walk depth [] parent = .error .noent)
    (hcreate : create depth .dir (parent ++ [last]) s₁ = .ok q s₂) :
    MakesParents depth (parent ++ [last]) s s₂ (made ++ [q]) := by
  have hall : MakesParents depth (parent ++ [last]) s s₁ made := h.concat hnoent
  obtain ⟨parent', p₁, name₁, tree, hpath, hwalk, _, rfl, _⟩ := create_eq_ok hcreate
  obtain ⟨rfl, hlast⟩ := List.append_inj' hpath rfl
  have hne : made ≠ [] := by
    rintro rfl
    have hsame : s₁.tree = s.tree := by
      apply PathTree.ext
      funext x
      rw [h.makes.item x, if_neg List.not_mem_nil]
    rw [hsame, hnoent] at hwalk
    cases hwalk
  refine ⟨h.makes.trans (makesDirs_create hcreate), ?_, fun _ ↦ hall.first hne, ?_⟩
  · intro p name hmissing
    exact List.mem_append_left _ (hall.missing p name hmissing)
  · intro base names hpath' hbase x hx
    rcases List.mem_append.mp hx with hx | hx
    · exact hall.below base names hpath' hbase x hx
    · rw [List.mem_singleton.mp hx]
      obtain ⟨p, name, hmissing⟩ := h.first hne
      refine ⟨p, name, hmissing.append [last], ?_⟩
      rcases List.eq_nil_or_concat names with rfl | ⟨names', name', rfl⟩
      · rw [List.map_nil, List.append_nil] at hpath'
        have hmissing' := hmissing.append [last]
        rw [hpath'] at hmissing'
        exact absurd hmissing' (not_missing_of_isDir hbase)
      · rw [List.concat_eq_append, List.map_append, ← List.append_assoc] at hpath'
        obtain ⟨rfl, _⟩ := List.append_inj' hpath' rfl
        have hmade := h.missing p name hmissing
        exact (below_made h.makes hbase hmissing hmade hwalk).trans (List.prefix_append _ _)

theorem mkdirParents_cons (last : Step Name) (parents : List (Step Name)) (existOk : Bool)
    (s : Disk Name Data) : mkdirParents depth (last :: parents) existOk s =
      match mkdir depth existOk (parents.reverse ++ [last]) s with
      | .error .noent s' => (mkdirParents depth parents true >>= fun _ ↦
          mkdir depth existOk (parents.reverse ++ [last])) s'
      | result => result := by
  rw [← List.reverse_cons]
  rfl

/-- Making a directory with its parents, as a whole. -/
theorem mkdirParents_spec (depth : ℕ) (rev : List (Step Name)) (existOk : Bool)
    (s : Disk Name Data) : ∃ made s', MakesParents depth rev.reverse s s' made ∧
      ((mkdirParents depth rev existOk s = .ok () s' ∧ isDir s'.tree depth rev.reverse = true) ∨
        ∃ e, mkdirParents depth rev existOk s = .error e s') := by
  induction rev generalizing existOk s with
  | nil =>
      have hmissing : ∀ p name, ¬Missing s.tree depth [] p name := by
        rintro p name ⟨a, b, hpath, _⟩
        exact absurd hpath.symm (by simp)
      refine ⟨[], s, MakesParents.refl hmissing, ?_⟩
      rcases mkdir_cases depth existOk [] s with ⟨q, s', hcreate, _⟩ | ⟨_, hdir, hok⟩ | ⟨e, herror, _⟩
      · cases hcreate
      · exact .inl ⟨hok, hdir⟩
      · exact .inr ⟨e, herror⟩
  | cons last parents ih =>
      have hrev : (last :: parents).reverse = parents.reverse ++ [last] := List.reverse_cons
      rw [hrev]
      simp only [mkdirParents_cons]
      rcases mkdir_cases depth existOk (parents.reverse ++ [last]) s with
        ⟨q, s', hcreate, hok⟩ | ⟨_, hdir, hok⟩ | ⟨e, herror, hnoent⟩
      · rw [hok]
        exact ⟨[q], s', makesParents_create hcreate, .inl ⟨rfl, isDir_create hcreate⟩⟩
      · rw [hok]
        exact ⟨[], s, MakesParents.refl fun _ _ ↦ not_missing_of_isDir hdir, .inl ⟨rfl, hdir⟩⟩
      · rw [herror]
        by_cases he : e = .noent
        · cases he
          obtain ⟨parent, last', hpath, hwalk⟩ := create_noent (hnoent rfl)
          obtain ⟨rfl, _⟩ := List.append_inj' hpath rfl
          obtain ⟨made, s₁, hmade, hresult⟩ := ih true s
          dsimp only
          rw [Call.bind_eq]
          rcases hresult with ⟨hok, hdir⟩ | ⟨e, herror'⟩
          · rw [hok]
            dsimp only
            rcases mkdir_cases depth existOk (parents.reverse ++ [last]) s₁ with
              ⟨q, s₂, hcreate, hok₂⟩ | ⟨_, hdir₂, hok₂⟩ | ⟨e, herror₂, _⟩
            · exact ⟨made ++ [q], s₂, hmade.create hwalk hcreate, .inl ⟨hok₂, isDir_create hcreate⟩⟩
            · exact ⟨made, s₁, hmade.concat hwalk, .inl ⟨hok₂, hdir₂⟩⟩
            · exact ⟨made, s₁, hmade.concat hwalk, .inr ⟨e, herror₂⟩⟩
          · rw [herror']
            exact ⟨made, s₁, hmade.concat hwalk, .inr ⟨e, rfl⟩⟩
        · refine ⟨[], s, MakesParents.refl fun _ _ ↦ not_missing_of_error he herror, .inr ⟨e, ?_⟩⟩
          cases e with
          | noent => exact absurd rfl he
          | _ => rfl

omit [DecidableEq Name] in
/-- Names below a directory that has no links out are missing below it. -/
theorem missing_below {t : PathTree Name Data} {base : List (Step Name)} {names : List Name}
    {home : Place Name} (hbase : t.walk depth [] base = .ok home) (hdir : t.item home = some .dir)
    (hconfined : t.Confined depth home) (h : Missing t depth (base ++ names.map .down) p name) :
    home <+: p := by
  obtain ⟨before, after, rfl, hwalk, _⟩ := names_of_missing (isDir_iff.mpr ⟨home, hbase, hdir⟩) h
  rw [PathTree.walk_append, hbase] at hwalk
  exact hconfined.walk (List.prefix_refl _) hwalk

end Disk

end ShejaneRuntime.Lib
