import Mathlib.Data.Nat.Notation
import Mathlib.Data.List.Basic
import Mathlib.Data.List.Infix
import Mathlib.Tactic.Common

/-!
# Trees of paths

Directories, files and symbolic links by the place they have in the tree. A
path is walked step by step, and the links on it are followed; a tree that
only grows leaves every walk as it was.
-/

namespace ShejaneRuntime.Lib

/-- A component of a path; `.` and empty components are left out. -/
inductive Step (Name : Type) where
  | up
  | down (name : Name)
  deriving DecidableEq

structure Target (Name : Type) where
  absolute : Bool
  steps : List (Step Name)
  deriving DecidableEq

inductive Item (Name Data : Type) where
  | dir
  | file (data : Data)
  | link (target : Target Name)
  deriving DecidableEq

/-- The names from the root to an item. -/
abbrev Place (Name : Type) := List Name

inductive PathErrno where
  | noent | exist | notdir | isdir | loop
  deriving DecidableEq

structure PathTree (Name Data : Type) where
  item : Place Name → Option (Item Name Data)
  root : item [] = some .dir
  closed : ∀ p name, item (p ++ [name]) ≠ none → item p = some .dir

namespace PathTree

variable {Name Data : Type}

/-! ## Walking -/

def walkWith (t : PathTree Name Data) (follow : Place Name → Target Name → Except PathErrno (Place Name)) :
    Place Name → List (Step Name) → Except PathErrno (Place Name)
  | cur, [] => .ok cur
  | cur, .up :: rest =>
    match t.item cur with
    | some .dir => t.walkWith follow cur.dropLast rest
    | _ => .error .notdir
  | cur, .down name :: rest =>
    match t.item cur with
    | some .dir =>
      match t.item (cur ++ [name]) with
      | none => .error .noent
      | some (.link target) =>
        match follow cur target with
        | .ok p => t.walkWith follow p rest
        | .error e => .error e
      | some _ => t.walkWith follow (cur ++ [name]) rest
    | _ => .error .notdir

/-- Where a link that lies in `cur` leads, with links on the way at most so many levels deep. -/
def follow (t : PathTree Name Data) : ℕ → Place Name → Target Name → Except PathErrno (Place Name)
  | 0, _, _ => .error .loop
  | depth + 1, cur, target =>
    t.walkWith (t.follow depth) (if target.absolute then [] else cur) target.steps

/-- The place a path leads to. -/
def walk (t : PathTree Name Data) (depth : ℕ) (cur : Place Name) (path : List (Step Name)) :
    Except PathErrno (Place Name) :=
  t.walkWith (t.follow depth) cur path

variable {t t' t'' : PathTree Name Data} {p q : Place Name} {depth : ℕ}

theorem walkWith_append {f : Place Name → Target Name → Except PathErrno (Place Name)}
    (cur : Place Name) (a b : List (Step Name)) : t.walkWith f cur (a ++ b) =
      match t.walkWith f cur a with
      | .ok p => t.walkWith f p b
      | .error e => .error e := by
  induction a generalizing cur with
  | nil => rfl
  | cons step rest ih =>
      cases step with
      | up =>
          simp only [List.cons_append, walkWith]
          cases hcur : t.item cur with
          | none => rfl
          | some item =>
              cases item with
              | dir => exact ih cur.dropLast
              | _ => rfl
      | down name =>
          simp only [List.cons_append, walkWith]
          cases hcur : t.item cur with
          | none => rfl
          | some item =>
              cases item with
              | dir =>
                  dsimp only
                  cases hname : t.item (cur ++ [name]) with
                  | none => rfl
                  | some found =>
                      cases found with
                      | link target =>
                          dsimp only
                          cases hfollow : f cur target with
                          | ok p => exact ih p
                          | error e => rfl
                      | _ => exact ih (cur ++ [name])
              | _ => rfl

theorem walk_append (cur : Place Name) (a b : List (Step Name)) : t.walk depth cur (a ++ b) =
    match t.walk depth cur a with
    | .ok p => t.walk depth p b
    | .error e => .error e :=
  walkWith_append cur a b

@[simp] theorem walk_nil (cur : Place Name) : t.walk depth cur [] = .ok cur := rfl

/-! ## Places that are there -/

theorem item_of_append (h : t.item (p ++ q) ≠ none) : t.item p ≠ none := by
  induction q using List.reverseRecOn with
  | nil => rwa [List.append_nil] at h
  | append_singleton q name ih =>
      rw [← List.append_assoc] at h
      apply ih
      rw [t.closed _ _ h]
      exact Option.some_ne_none _

theorem dir_of_append (h : t.item (p ++ q) ≠ none) (hq : q ≠ []) : t.item p = some .dir := by
  obtain ⟨name, rest, rfl⟩ := List.exists_cons_of_ne_nil hq
  apply t.closed p name
  rw [List.append_cons] at h
  exact item_of_append h

/-- Names lead straight to a place that is there, unless a link is there. -/
theorem walk_names (h : t.item (p ++ q) ≠ none) (hlink : ∀ target, t.item (p ++ q) ≠ some (.link target)) :
    t.walk depth p (q.map .down) = .ok (p ++ q) := by
  induction q generalizing p with
  | nil =>
      rw [List.append_nil]
      rfl
  | cons name rest ih =>
      have hdir : t.item p = some .dir := dir_of_append h (List.cons_ne_nil _ _)
      rw [List.append_cons] at h hlink ⊢
      have hnext : t.item (p ++ [name]) ≠ none := item_of_append h
      rw [List.map_cons, walk, walkWith, hdir]
      dsimp only
      cases hname : t.item (p ++ [name]) with
      | none => exact absurd hname hnext
      | some item =>
          cases item with
          | link target =>
              cases rest with
              | nil =>
                  rw [List.append_nil] at hlink
                  exact absurd hname (hlink target)
              | cons next rest =>
                  have hdir' := dir_of_append h (List.cons_ne_nil next rest)
                  rw [hname] at hdir'
                  cases hdir'
          | dir => exact ih h hlink
          | file data => exact ih h hlink

theorem walk_dir (h : t.item (p ++ q) = some .dir) : t.walk depth p (q.map .down) = .ok (p ++ q) := by
  refine walk_names (by rw [h]; exact Option.some_ne_none _) ?_
  rw [h]
  rintro target ⟨⟩

/-- Two items of one kind; links lead to one target. -/
def Item.Like : Item Name Data → Item Name Data → Prop
  | .dir, .dir => True
  | .file _, .file _ => True
  | .link target, .link target' => target = target'
  | _, _ => False

theorem Item.Like.refl (item : Item Name Data) : Item.Like item item := by
  cases item with
  | link target => exact rfl
  | _ => trivial

theorem Item.Like.trans {a b c : Item Name Data} (h : Item.Like a b) (h' : Item.Like b c) :
    Item.Like a c := by
  cases a <;> cases b <;> cases c <;> simp_all [Item.Like]

theorem Item.Like.dir {item : Item Name Data} (h : Item.Like .dir item) : item = .dir := by
  cases item with
  | dir => rfl
  | _ => cases h

theorem Item.Like.link {item : Item Name Data} {target : Target Name}
    (h : Item.Like (.link target) item) : item = .link target := by
  cases item with
  | link target' => rw [show target = target' from h]
  | _ => cases h

/-- Nothing goes away, and only the data of files change. -/
def Grows (t t' : PathTree Name Data) : Prop :=
  ∀ p item, t.item p = some item → ∃ item', t'.item p = some item' ∧ Item.Like item item'

theorem Grows.refl (t : PathTree Name Data) : Grows t t :=
  fun _ item h ↦ ⟨item, h, Item.Like.refl item⟩

theorem Grows.trans (h : Grows t t') (h' : Grows t' t'') : Grows t t'' := by
  intro p item hitem
  obtain ⟨item', hitem', hlike⟩ := h p item hitem
  obtain ⟨item'', hitem'', hlike'⟩ := h' p item' hitem'
  exact ⟨item'', hitem'', hlike.trans hlike'⟩

theorem Grows.dir (h : Grows t t') (hp : t.item p = some .dir) : t'.item p = some .dir := by
  obtain ⟨item, hitem, hlike⟩ := h p _ hp
  rw [hitem, hlike.dir]

theorem Grows.link (h : Grows t t') {target : Target Name} (hp : t.item p = some (.link target)) :
    t'.item p = some (.link target) := by
  obtain ⟨item, hitem, hlike⟩ := h p _ hp
  rw [hitem, hlike.link]

theorem Grows.walkWith (h : Grows t t')
    {f f' : Place Name → Target Name → Except PathErrno (Place Name)}
    (hf : ∀ cur target p, f cur target = .ok p → f' cur target = .ok p) {cur : Place Name}
    {path : List (Step Name)} (hwalk : t.walkWith f cur path = .ok p) :
    t'.walkWith f' cur path = .ok p := by
  induction path generalizing cur with
  | nil => exact hwalk
  | cons step rest ih =>
      cases step with
      | up =>
          rw [PathTree.walkWith] at hwalk ⊢
          cases hcur : t.item cur with
          | none =>
              rw [hcur] at hwalk
              cases hwalk
          | some item =>
              cases item with
              | dir =>
                  rw [hcur] at hwalk
                  rw [h.dir hcur]
                  exact ih hwalk
              | _ =>
                  rw [hcur] at hwalk
                  cases hwalk
      | down name =>
          rw [PathTree.walkWith] at hwalk ⊢
          cases hcur : t.item cur with
          | none =>
              rw [hcur] at hwalk
              cases hwalk
          | some item =>
              cases item with
              | dir =>
                  rw [hcur] at hwalk
                  rw [h.dir hcur]
                  dsimp only at hwalk ⊢
                  cases hname : t.item (cur ++ [name]) with
                  | none =>
                      rw [hname] at hwalk
                      cases hwalk
                  | some found =>
                      rw [hname] at hwalk
                      cases found with
                      | dir =>
                          rw [h.dir hname]
                          exact ih hwalk
                      | link target =>
                          rw [h.link hname]
                          dsimp only at hwalk ⊢
                          cases hfollow : f cur target with
                          | error e =>
                              rw [hfollow] at hwalk
                              cases hwalk
                          | ok q =>
                              rw [hfollow] at hwalk
                              rw [hf cur target q hfollow]
                              exact ih hwalk
                      | file data =>
                          obtain ⟨item', hitem', hlike⟩ := h _ _ hname
                          rw [hitem']
                          cases item' with
                          | file data' => exact ih hwalk
                          | _ => cases hlike
              | _ =>
                  rw [hcur] at hwalk
                  cases hwalk

theorem Grows.follow (h : Grows t t') {cur : Place Name} {target : Target Name}
    (hfollow : t.follow depth cur target = .ok p) : t'.follow depth cur target = .ok p := by
  induction depth generalizing cur target p with
  | zero => cases hfollow
  | succ depth ih =>
      rw [PathTree.follow] at hfollow ⊢
      exact h.walkWith (fun _ _ _ ↦ ih) hfollow

theorem Grows.walk (h : Grows t t') {cur : Place Name} {path : List (Step Name)}
    (hwalk : t.walk depth cur path = .ok p) : t'.walk depth cur path = .ok p :=
  h.walkWith (fun _ _ _ ↦ h.follow) hwalk

/-! ## Staying inside -/

/-- The links below a place lead to places below it. -/
def Confined (t : PathTree Name Data) (depth : ℕ) (home : Place Name) : Prop :=
  ∀ cur name target p, home <+: cur → t.item (cur ++ [name]) = some (.link target) →
    t.follow depth cur target = .ok p → home <+: p

theorem Confined.walk {home cur : Place Name} (h : t.Confined depth home) (hcur : home <+: cur)
    {names : List Name} (hwalk : t.walk depth cur (names.map .down) = .ok p) : home <+: p := by
  induction names generalizing cur with
  | nil =>
      cases hwalk
      exact hcur
  | cons name rest ih =>
      rw [List.map_cons, PathTree.walk, PathTree.walkWith] at hwalk
      split at hwalk
      · split at hwalk
        · cases hwalk
        · rename_i target htarget
          split at hwalk
          · rename_i q hq
            exact ih (h cur name target q hcur htarget hq) hwalk
          · cases hwalk
        · exact ih (hcur.trans (List.prefix_append cur [name])) hwalk
      · cases hwalk

/-! ## Changing a tree -/

section Changes

variable [DecidableEq Name]

instance (found : Option (Item Name Data)) : Decidable (found = some .dir) :=
  match found with
  | some .dir => isTrue rfl
  | none => isFalse (by rintro ⟨⟩)
  | some (.file _) => isFalse (by rintro ⟨⟩)
  | some (.link _) => isFalse (by rintro ⟨⟩)

/-- A new item under a name of a directory that is not taken. -/
def put (t : PathTree Name Data) (p : Place Name) (name : Name) (item : Item Name Data)
    (hdir : t.item p = some .dir) (hfree : t.item (p ++ [name]) = none) : PathTree Name Data where
  item q := if q = p ++ [name] then some item else t.item q
  root := by
    rw [if_neg (by simp)]
    exact t.root
  closed := by
    intro q n hq
    by_cases hnew : q ++ [n] = p ++ [name]
    · obtain ⟨rfl, _⟩ := List.append_inj' hnew rfl
      rw [if_neg (by simp)]
      exact hdir
    · rw [if_neg hnew] at hq
      have hparent := t.closed q n hq
      rw [if_neg, hparent]
      rintro rfl
      rw [hfree] at hparent
      cases hparent

/-- Make an item where there is none. -/
def make (t : PathTree Name Data) (p : Place Name) (name : Name) (item : Item Name Data) :
    Except PathErrno (PathTree Name Data) :=
  if hdir : t.item p = some .dir then
    if hfree : t.item (p ++ [name]) = none then .ok (t.put p name item hdir hfree)
    else .error .exist
  else .error .notdir

/-- The data of a file, if there is one. -/
def setData (t : PathTree Name Data) (p : Place Name) (data : Data) : PathTree Name Data where
  item q :=
    match t.item q with
    | some (.file old) => some (.file (if q = p then data else old))
    | other => other
  root := by rw [t.root]
  closed := by
    intro q n hq
    have hold : t.item (q ++ [n]) ≠ none := by
      intro hnone
      rw [hnone] at hq
      exact hq rfl
    rw [t.closed q n hold]

/-- Remove what lies under a name of a directory. -/
def removeAll (t : PathTree Name Data) (p : Place Name) (name : Name) : PathTree Name Data where
  item q := if p ++ [name] <+: q then none else t.item q
  root := by
    rw [if_neg (by simp)]
    exact t.root
  closed := by
    intro q n hq
    by_cases hgone : p ++ [name] <+: q ++ [n]
    · rw [if_pos hgone] at hq
      exact absurd rfl hq
    · rw [if_neg hgone] at hq
      rw [if_neg, t.closed q n hq]
      intro hbefore
      exact hgone (hbefore.trans (List.prefix_append q [n]))

variable {name : Name} {item : Item Name Data}

theorem make_eq_ok (h : t.make p name item = .ok t') :
    t.item p = some .dir ∧ t.item (p ++ [name]) = none ∧
      t'.item = fun q ↦ if q = p ++ [name] then some item else t.item q := by
  unfold make at h
  split at h
  · rename_i hdir
    split at h
    · rename_i hfree
      cases h
      exact ⟨hdir, hfree, rfl⟩
    · cases h
  · cases h

variable (item) in
theorem make_of_free (hdir : t.item p = some .dir) (hfree : t.item (p ++ [name]) = none) :
    ∃ t', t.make p name item = .ok t' := by
  unfold make
  rw [dif_pos hdir, dif_pos hfree]
  exact ⟨_, rfl⟩

theorem item_make (h : t.make p name item = .ok t') : t'.item (p ++ [name]) = some item := by
  rw [(make_eq_ok h).2.2]
  exact if_pos rfl

theorem item_make_of_ne (h : t.make p name item = .ok t') (hq : q ≠ p ++ [name]) :
    t'.item q = t.item q := by
  rw [(make_eq_ok h).2.2]
  exact if_neg hq

theorem item_make_of_some (h : t.make p name item = .ok t') (hq : t.item q ≠ none) :
    t'.item q = t.item q := by
  apply item_make_of_ne h
  rintro rfl
  exact hq (make_eq_ok h).2.1

theorem grows_make (h : t.make p name item = .ok t') : Grows t t' := by
  intro q old hold
  refine ⟨old, ?_, Item.Like.refl old⟩
  rw [item_make_of_some h (by rw [hold]; exact Option.some_ne_none _), hold]

/-- What was there before the place was taken stays when the place is removed. -/
theorem Grows.removeAll (h : Grows t t') (hfree : t.item (p ++ [name]) = none) :
    Grows t (t'.removeAll p name) := by
  intro q item hitem
  obtain ⟨item', hitem', hlike⟩ := h q item hitem
  refine ⟨item', ?_, hlike⟩
  unfold PathTree.removeAll
  dsimp only
  rw [if_neg, hitem']
  rintro ⟨rest, rfl⟩
  apply item_of_append (t := t) (p := p ++ [name]) (q := rest) _ hfree
  rw [hitem]
  exact Option.some_ne_none _

end Changes

@[ext] theorem ext (h : t.item = t'.item) : t = t' := by
  cases t
  cases t'
  cases h
  rfl

end PathTree

end ShejaneRuntime.Lib
