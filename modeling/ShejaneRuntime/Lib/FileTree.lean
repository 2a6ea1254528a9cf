import Mathlib.Data.Nat.Notation
import Mathlib.Logic.Function.Basic

/-!
# File trees

Directories, files and symbolic links as numbered nodes, and the calls that
open, make and remove entries relative to an open directory without ever
following a link.
-/

namespace ShejaneRuntime.Lib

inductive Node (Name : Type) where
  | dir (entries : Name → Option ℕ)
  | file (bytes : List UInt8)
  | link (target : Name)

/-- A tree; the numbers from `next` on are not in use. -/
structure FileTree (Name : Type) where
  nodes : ℕ → Option (Node Name)
  next : ℕ
  fresh : ∀ i, next ≤ i → nodes i = none

inductive Errno where
  | noent | exist | notdir | loop
  deriving DecidableEq

namespace FileTree

variable {Name : Type} [DecidableEq Name]

/-- An empty directory. -/
def root : FileTree Name where
  nodes i := if i = 0 then some (.dir fun _ ↦ none) else none
  next := 1
  fresh i hi := if_neg (by omega)

def entries? (t : FileTree Name) (d : ℕ) : Option (Name → Option ℕ) :=
  match t.nodes d with
  | some (.dir entries) => some entries
  | _ => none

/-- What a name of a directory stands for. -/
def lookup (t : FileTree Name) (d : ℕ) (name : Name) : Option ℕ :=
  (t.entries? d).bind fun entries ↦ entries name

/-- `openat` with `O_DIRECTORY` and `O_NOFOLLOW` -/
def openDir (t : FileTree Name) (d : ℕ) (name : Name) : Except Errno ℕ :=
  match t.entries? d with
  | none => .error .notdir
  | some entries =>
    match entries name with
    | none => .error .noent
    | some i =>
      match t.nodes i with
      | some (.dir _) => .ok i
      | some (.file _) => .error .notdir
      | some (.link _) => .error .loop
      | none => .error .noent

/-- Walk down directories. -/
def walk (t : FileTree Name) (d : ℕ) : List Name → Option ℕ
  | [] => if (t.entries? d).isSome then some d else none
  | name :: rest =>
    match t.openDir d name with
    | .ok i => t.walk i rest
    | .error _ => none

section Calls

variable (t : FileTree Name) (d : ℕ) (name : Name)

/-- The tree with a new node under a name of a directory. -/
def link (entries : Name → Option ℕ) (node : Node Name) (hd : d < t.next) : FileTree Name where
  nodes := Function.update
    (Function.update t.nodes d (some (.dir (Function.update entries name (some t.next)))))
    t.next (some node)
  next := t.next + 1
  fresh i hi := by
    rw [Function.update_of_ne (by omega), Function.update_of_ne (by omega)]
    exact t.fresh i (by omega)

omit [DecidableEq Name] in
theorem lt_next_of_entries {t : FileTree Name} {d : ℕ} {entries : Name → Option ℕ}
    (h : t.entries? d = some entries) : d < t.next := by
  by_contra hge
  unfold entries? at h
  rw [t.fresh d (by omega)] at h
  cases h

/-- A new node under a name that is not taken. -/
def make (node : Node Name) : Except Errno (FileTree Name) :=
  match h : t.entries? d with
  | none => .error .notdir
  | some entries =>
    if (entries name).isSome then .error .exist
    else .ok (t.link d name entries node (lt_next_of_entries h))

/-- `mkdirat` -/
def mkdirAt : Except Errno (FileTree Name) := t.make d name (.dir fun _ ↦ none)

/-- `openat` with `O_CREAT`, `O_EXCL` and `O_NOFOLLOW`; the file is `t.next`. -/
def createExclusive : Except Errno (FileTree Name) := t.make d name (.file [])

/-- `unlinkat` -/
def unlink : FileTree Name :=
  match h : t.entries? d with
  | none => t
  | some entries =>
    { t with
      nodes := Function.update t.nodes d (some (.dir (Function.update entries name none)))
      fresh := by
        intro i hi
        have hd := lt_next_of_entries h
        rw [Function.update_of_ne (by omega)]
        exact t.fresh i hi }

end Calls

/-- The bytes of an open file. -/
def setBytes (t : FileTree Name) (i : ℕ) (bytes : List UInt8) : FileTree Name where
  nodes := if i < t.next then Function.update t.nodes i (some (.file bytes)) else t.nodes
  next := t.next
  fresh j hj := by
    split
    · rw [Function.update_of_ne (by omega)]
      exact t.fresh j hj
    · exact t.fresh j hj

/-! ## What a call leaves alone -/

variable {t t' t'' : FileTree Name}

omit [DecidableEq Name] in
theorem entries?_eq_some {d : ℕ} {entries : Name → Option ℕ} :
    t.entries? d = some entries ↔ t.nodes d = some (.dir entries) := by
  unfold entries?
  split
  · rename_i e he
    rw [he]
    simp
  · rename_i hnot
    constructor
    · intro h
      cases h
    · intro h
      exact absurd h (hnot entries)

/-- Directories stay, and their entries for directories. -/
structure SameDirs (t t' : FileTree Name) : Prop where
  dirs : ∀ i, (t.entries? i).isSome = true → (t'.entries? i).isSome = true
  opened : ∀ d name i, t.openDir d name = .ok i → t'.openDir d name = .ok i

omit [DecidableEq Name] in
theorem SameDirs.refl (t : FileTree Name) : SameDirs t t := ⟨fun _ h ↦ h, fun _ _ _ h ↦ h⟩

omit [DecidableEq Name] in
theorem SameDirs.trans (h : SameDirs t t') (h' : SameDirs t' t'') : SameDirs t t'' :=
  ⟨fun i hi ↦ h'.dirs i (h.dirs i hi), fun d n i hi ↦ h'.opened d n i (h.opened d n i hi)⟩

omit [DecidableEq Name] in
theorem SameDirs.walk (h : SameDirs t t') {d i : ℕ} {names : List Name}
    (hwalk : t.walk d names = some i) : t'.walk d names = some i := by
  induction names generalizing d with
  | nil =>
      unfold FileTree.walk at hwalk ⊢
      split at hwalk
      · rename_i hdir
        rw [if_pos (h.dirs d hdir)]
        exact hwalk
      · cases hwalk
  | cons name rest ih =>
      unfold FileTree.walk at hwalk ⊢
      split at hwalk
      · rename_i j hj
        rw [h.opened d name j hj]
        exact ih hwalk
      · cases hwalk

omit [DecidableEq Name] in
/-- An opened entry by the nodes behind it. -/
theorem openDir_eq_ok {d i : ℕ} {name : Name} :
    t.openDir d name = .ok i ↔ t.lookup d name = some i ∧ (t.entries? i).isSome = true := by
  unfold openDir lookup
  cases hd : t.entries? d with
  | none => simp
  | some entries =>
      simp only [Option.bind_some]
      cases hi : entries name with
      | none => simp
      | some j =>
          simp only [Option.some.injEq]
          constructor
          · intro h
            split at h
            · rename_i e he
              cases h
              exact ⟨rfl, by rw [entries?_eq_some.mpr he]; rfl⟩
            all_goals cases h
          · rintro ⟨rfl, hdir⟩
            obtain ⟨e, he⟩ := Option.isSome_iff_exists.mp hdir
            rw [entries?_eq_some.mp he]

omit [DecidableEq Name] in
theorem SameDirs.of_entries (hdirs : ∀ i, (t.entries? i).isSome = true →
      (t'.entries? i).isSome = true)
    (hentries : ∀ d name i, t.lookup d name = some i → (t.entries? i).isSome = true →
      t'.lookup d name = some i) : SameDirs t t' := by
  refine ⟨hdirs, ?_⟩
  intro d name i h
  obtain ⟨hentry, hdir⟩ := openDir_eq_ok.mp h
  exact openDir_eq_ok.mpr ⟨hentries d name i hentry hdir, hdirs i hdir⟩

/-! ## New nodes -/

theorem make_eq_ok {d : ℕ} {name : Name} {node : Node Name} (h : t.make d name node = .ok t') :
    ∃ entries, ∃ hentries : t.entries? d = some entries, entries name = none ∧
      t' = t.link d name entries node (lt_next_of_entries hentries) := by
  unfold make at h
  split at h
  · cases h
  · rename_i entries hentries
    split at h
    · cases h
    · rename_i hfree
      cases h
      exact ⟨entries, hentries, by simpa using hfree, rfl⟩

section Link

variable {d : ℕ} {name : Name} {node : Node Name}

theorem nodes_next_of_make (h : t.make d name node = .ok t') : t'.nodes t.next = some node := by
  obtain ⟨entries, hentries, _, rfl⟩ := make_eq_ok h
  simp [link]

theorem next_of_make (h : t.make d name node = .ok t') : t'.next = t.next + 1 := by
  obtain ⟨entries, hentries, _, rfl⟩ := make_eq_ok h
  rfl

theorem lookup_free_of_make (h : t.make d name node = .ok t') : t.lookup d name = none := by
  obtain ⟨entries, hentries, hfree, rfl⟩ := make_eq_ok h
  simp [lookup, hentries, hfree]

/-- Making a node changes the directory it goes to and nothing else. -/
theorem nodes_of_make (h : t.make d name node = .ok t') {i : ℕ} (hi : i ≠ d) (hnext : i ≠ t.next) :
    t'.nodes i = t.nodes i := by
  obtain ⟨entries, hentries, _, rfl⟩ := make_eq_ok h
  simp only [link]
  rw [Function.update_of_ne hnext, Function.update_of_ne hi]

theorem entries?_of_make (h : t.make d name node = .ok t') :
    ∃ entries, t.entries? d = some entries ∧
      t'.entries? d = some (Function.update entries name (some t.next)) := by
  obtain ⟨entries, hentries, _, rfl⟩ := make_eq_ok h
  have hd := lt_next_of_entries hentries
  refine ⟨entries, hentries, entries?_eq_some.mpr ?_⟩
  simp only [link]
  rw [Function.update_of_ne (by omega), Function.update_self]

theorem lookup_of_make (h : t.make d name node = .ok t') : t'.lookup d name = some t.next := by
  obtain ⟨entries, _, hentries'⟩ := entries?_of_make h
  simp [lookup, hentries']

/-- Entries stay when a node is made. -/
theorem lookup_kept_of_make (h : t.make d name node = .ok t') {d' i : ℕ} {name' : Name}
    (hentry : t.lookup d' name' = some i) : t'.lookup d' name' = some i := by
  by_cases hsame : d' = d
  · subst hsame
    obtain ⟨entries, hentries, hentries'⟩ := entries?_of_make h
    have hname : name' ≠ name := by
      rintro rfl
      rw [lookup_free_of_make h] at hentry
      cases hentry
    simp only [lookup, hentries, Option.bind_some] at hentry
    simp [lookup, hentries', Function.update_of_ne hname, hentry]
  · obtain ⟨entries', hentries', _⟩ := Option.bind_eq_some_iff.mp hentry
    have hlt := lt_next_of_entries hentries'
    have hsame' : t'.entries? d' = t.entries? d' := by
      unfold entries?
      rw [nodes_of_make h hsame (by omega)]
    unfold lookup at hentry ⊢
    rw [hsame']
    exact hentry

theorem sameDirs_of_make (h : t.make d name node = .ok t') : SameDirs t t' := by
  refine .of_entries ?_ fun d' name' i hentry _ ↦ lookup_kept_of_make h hentry
  intro i hi
  by_cases hsame : i = d
  · subst hsame
    obtain ⟨_, _, hentries'⟩ := entries?_of_make h
    rw [hentries']
    rfl
  · obtain ⟨entries', hentries'⟩ := Option.isSome_iff_exists.mp hi
    have hlt := lt_next_of_entries hentries'
    unfold entries? at hi ⊢
    rwa [nodes_of_make h hsame (by omega)]

end Link

/-! ## Files -/

/-- A file is under a name of a directory, with its bytes. -/
structure Holds (t : FileTree Name) (d : ℕ) (name : Name) (i : ℕ) (bytes : List UInt8) : Prop where
  entry : t.lookup d name = some i
  file : t.nodes i = some (.file bytes)

theorem file_of_make {d : ℕ} {name : Name} {node : Node Name} (h : t.make d name node = .ok t')
    {i : ℕ} {bytes : List UInt8} (hfile : t.nodes i = some (.file bytes)) :
    t'.nodes i = some (.file bytes) := by
  obtain ⟨entries, hentries, _⟩ := entries?_of_make h
  rw [nodes_of_make h ?_ ?_, hfile]
  · rintro rfl
    rw [entries?_eq_some.mp hentries] at hfile
    cases hfile
  · rintro rfl
    rw [t.fresh t.next (Nat.le_refl _)] at hfile
    cases hfile

theorem Holds.make {d d' i : ℕ} {name name' : Name} {node : Node Name} {bytes : List UInt8}
    (hholds : t.Holds d' name' i bytes) (h : t.make d name node = .ok t') :
    t'.Holds d' name' i bytes :=
  ⟨lookup_kept_of_make h hholds.entry, file_of_make h hholds.file⟩

section SetBytes

variable {i : ℕ} {bytes : List UInt8}

omit [DecidableEq Name] in
theorem nodes_setBytes_of_ne {j : ℕ} (hj : j ≠ i) : (t.setBytes i bytes).nodes j = t.nodes j := by
  simp only [setBytes]
  split
  · rw [Function.update_of_ne hj]
  · rfl

omit [DecidableEq Name] in
theorem nodes_setBytes (hi : i < t.next) : (t.setBytes i bytes).nodes i = some (.file bytes) := by
  simp [setBytes, hi]

omit [DecidableEq Name] in
theorem entries?_setBytes {old : List UInt8} (hfile : t.nodes i = some (.file old)) (d : ℕ) :
    (t.setBytes i bytes).entries? d = t.entries? d := by
  unfold entries?
  by_cases hd : d = i
  · subst hd
    have hlt : d < t.next := by
      by_contra hge
      rw [t.fresh d (by omega)] at hfile
      cases hfile
    rw [nodes_setBytes hlt, hfile]
  · rw [nodes_setBytes_of_ne hd]

omit [DecidableEq Name] in
theorem sameDirs_setBytes {old : List UInt8} (hfile : t.nodes i = some (.file old)) :
    SameDirs t (t.setBytes i bytes) := by
  refine .of_entries (fun j hj ↦ by rwa [entries?_setBytes hfile]) ?_
  intro d name j hentry _
  unfold lookup at hentry ⊢
  rwa [entries?_setBytes hfile]

omit [DecidableEq Name] in
theorem Holds.setBytes {d j : ℕ} {name : Name} {bytes' old : List UInt8}
    (hholds : t.Holds d name j bytes') (hfile : t.nodes i = some (.file old)) (hj : j ≠ i) :
    (t.setBytes i bytes).Holds d name j bytes' := by
  refine ⟨?_, by rw [nodes_setBytes_of_ne hj, hholds.file]⟩
  have hentry := hholds.entry
  unfold lookup at hentry ⊢
  rwa [entries?_setBytes hfile]

end SetBytes

section Unlink

variable {d : ℕ} {name : Name}

theorem next_unlink : (t.unlink d name).next = t.next := by
  unfold unlink
  split
  · rfl
  · rfl

theorem nodes_unlink_of_ne {i : ℕ} (hi : i ≠ d) : (t.unlink d name).nodes i = t.nodes i := by
  unfold unlink
  split
  · rfl
  · exact Function.update_of_ne hi _ _

theorem entries?_unlink {entries : Name → Option ℕ} (h : t.entries? d = some entries) :
    (t.unlink d name).entries? d = some (Function.update entries name none) := by
  unfold unlink
  split
  · rename_i hnone
    rw [h] at hnone
    cases hnone
  · rename_i entries' hentries
    rw [h] at hentries
    cases hentries
    exact entries?_eq_some.mpr (Function.update_self _ _ _)

theorem isSome_entries?_unlink (i : ℕ) (h : (t.entries? i).isSome = true) :
    ((t.unlink d name).entries? i).isSome = true := by
  by_cases hi : i = d
  · subst hi
    obtain ⟨entries, hentries⟩ := Option.isSome_iff_exists.mp h
    rw [entries?_unlink hentries]
    rfl
  · unfold entries? at h ⊢
    rwa [nodes_unlink_of_ne hi]

/-- Other entries stay when one is removed. -/
theorem lookup_unlink_of_ne {d' i : ℕ} {name' : Name} (hne : ¬(d' = d ∧ name' = name))
    (h : t.lookup d' name' = some i) : (t.unlink d name).lookup d' name' = some i := by
  by_cases hd : d' = d
  · subst hd
    have hname : name' ≠ name := fun hsame ↦ hne ⟨rfl, hsame⟩
    obtain ⟨entries, hentries, hentry⟩ := Option.bind_eq_some_iff.mp h
    unfold lookup
    rw [entries?_unlink hentries, Option.bind_some, Function.update_of_ne hname, hentry]
  · unfold lookup entries? at h ⊢
    rwa [nodes_unlink_of_ne hd]

/-- Removing the entry of a file leaves the directories alone. -/
theorem sameDirs_unlink {i : ℕ} {bytes : List UInt8} (hholds : t.Holds d name i bytes) :
    SameDirs t (t.unlink d name) := by
  refine .of_entries isSome_entries?_unlink ?_
  intro d' name' j hentry hdir
  refine lookup_unlink_of_ne ?_ hentry
  rintro ⟨rfl, rfl⟩
  rw [hholds.entry] at hentry
  cases hentry
  obtain ⟨entries, hentries⟩ := Option.isSome_iff_exists.mp hdir
  have hfile := hholds.file
  rw [entries?_eq_some.mp hentries] at hfile
  cases hfile

theorem file_unlink {i : ℕ} {bytes : List UInt8} (h : t.nodes i = some (.file bytes)) :
    (t.unlink d name).nodes i = some (.file bytes) := by
  unfold unlink
  split
  · exact h
  · rename_i entries hentries
    rw [← h]
    refine Function.update_of_ne ?_ _ _
    rintro rfl
    rw [entries?_eq_some.mp hentries] at h
    cases h

theorem Holds.unlink {d' i : ℕ} {name' : Name} {bytes : List UInt8}
    (hholds : t.Holds d' name' i bytes) (hne : ¬(d' = d ∧ name' = name)) :
    (t.unlink d name).Holds d' name' i bytes :=
  ⟨lookup_unlink_of_ne hne hholds.entry, file_unlink hholds.file⟩

end Unlink

/-! ## What is left untouched of a first tree -/

/-- The files and links of a first tree are what they were, and its numbers are
not given to new nodes. -/
structure Untouched (t₀ t : FileTree Name) : Prop where
  next : t₀.next ≤ t.next
  nodes : ∀ i node, t₀.nodes i = some node → t₀.entries? i = none → t.nodes i = some node
  dirs : ∀ i, (t₀.entries? i).isSome = true → (t.entries? i).isSome = true

variable {t₀ : FileTree Name}

omit [DecidableEq Name] in
theorem Untouched.refl (t : FileTree Name) : Untouched t t :=
  ⟨Nat.le_refl _, fun _ _ h _ ↦ h, fun _ h ↦ h⟩

omit [DecidableEq Name] in
theorem lt_next_of_nodes {i : ℕ} {node : Node Name} (h : t.nodes i = some node) : i < t.next := by
  by_contra hge
  rw [t.fresh i (by omega)] at h
  cases h

theorem Untouched.make (hu : Untouched t₀ t) {d : ℕ} {name : Name} {node : Node Name}
    (h : t.make d name node = .ok t') : Untouched t₀ t' := by
  refine ⟨?_, ?_, fun i hi ↦ (sameDirs_of_make h).dirs i (hu.dirs i hi)⟩
  · rw [next_of_make h]
    exact Nat.le_succ_of_le hu.next
  · intro i node₀ hnode hfile
    have hold := hu.nodes i node₀ hnode hfile
    rw [nodes_of_make h ?_ ?_, hold]
    · rintro rfl
      obtain ⟨entries, hentries, _⟩ := entries?_of_make h
      rw [entries?_eq_some.mp hentries] at hold
      cases hold
      rw [entries?_eq_some.mpr hnode] at hfile
      cases hfile
    · have hlt := lt_next_of_nodes hold
      omega

omit [DecidableEq Name] in
theorem Untouched.setBytes (hu : Untouched t₀ t) {i : ℕ} {bytes old : List UInt8}
    (hfile : t.nodes i = some (.file old)) (hi : t₀.next ≤ i) :
    Untouched t₀ (t.setBytes i bytes) := by
  refine ⟨hu.next, ?_, fun j hj ↦ (sameDirs_setBytes hfile).dirs j (hu.dirs j hj)⟩
  intro j node hnode hfile₀
  have hlt := lt_next_of_nodes hnode
  rw [nodes_setBytes_of_ne (by omega)]
  exact hu.nodes j node hnode hfile₀

theorem Untouched.unlink (hu : Untouched t₀ t) {d : ℕ} {name : Name} :
    Untouched t₀ (t.unlink d name) := by
  refine ⟨by rw [next_unlink]; exact hu.next, ?_,
    fun i hi ↦ isSome_entries?_unlink i (hu.dirs i hi)⟩
  intro i node hnode hfile
  have hold := hu.nodes i node hnode hfile
  by_cases hi : i = d
  · subst hi
    unfold FileTree.unlink
    split
    · exact hold
    · rename_i entries hentries
      rw [entries?_eq_some.mp hentries] at hold
      cases hold
      rw [entries?_eq_some.mpr hnode] at hfile
      cases hfile
  · rw [nodes_unlink_of_ne hi, hold]

end FileTree

end ShejaneRuntime.Lib
