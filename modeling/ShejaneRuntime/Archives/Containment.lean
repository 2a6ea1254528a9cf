import ShejaneRuntime.Archives.Inside

/-!
# When an extraction is contained

An extraction touches only its destination, fails without a trace and leaves
no way out if and only if it is refused at once, or the parent of the
destination does not have to be made and no link is made through a link that
leads out.
-/

namespace ShejaneRuntime.Archives

open Lib Lib.Call Lib.Disk

variable {u : Unicode} {depth : ℕ} {o : Options} {source : Option ZipFile} {destination : Path}
  {tree t : Tree} {s s' s'' : Files} {home p : Place Text} {name : Text} {scanned : Scan}
  {links : List (List Text × Text)} {link : List Text × Text}

/-- The place of the destination, which need not be there. -/
def homeOf (t : Tree) (depth : ℕ) (destination : Path) : Option (Place Text) :=
  match destination.getLast?, t.walk depth [] destination.dropLast with
  | some (.down name), .ok p => some (p ++ [name])
  | _, _ => none

/-- Whatever lies below the destination resolves to something below it. -/
def Resolved (depth : ℕ) (destination : Path) (t : Tree) : Prop :=
  ∃ home, t.walk depth [] destination = .ok home ∧
    (∀ names, t.item (home ++ names) ≠ none → ∃ p,
      t.walk depth [] (below destination names) = .ok p ∧ home <+: p) ∧
    ∀ names p, t.walk depth [] (below destination names) = .ok p → home <+: p

structure Sound (u : Unicode) (depth : ℕ) (o : Options) (source : Option ZipFile)
    (destination : Path) (tree : Tree) : Prop where
  inside : ∀ x ∈ ((extractCanonicalArchive u depth o source destination).after ⟨tree, []⟩).touched,
    ∃ home, homeOf ((extractCanonicalArchive u depth o source destination).after ⟨tree, []⟩).tree
      depth destination = some home ∧ home <+: x
  clean : Raises (extractCanonicalArchive u depth o source destination) ⟨tree, []⟩ →
    ((extractCanonicalArchive u depth o source destination).after ⟨tree, []⟩).tree = tree
  resolved : Returns (extractCanonicalArchive u depth o source destination) ⟨tree, []⟩ →
    Resolved depth destination
      ((extractCanonicalArchive u depth o source destination).after ⟨tree, []⟩).tree

/-- No directory above the destination is missing. -/
def ParentThere (depth : ℕ) (destination : Path) (tree : Tree) : Prop :=
  ∀ parent last, destination = parent ++ [last] → ∀ p name, ¬Missing tree depth parent p name

/-! ## The run in its parts -/

theorem homeOf_concat {parent : Path} (hwalk : t.walk depth [] parent = .ok p) :
    homeOf t depth (parent ++ [.down name]) = some (p ++ [name]) := by
  unfold homeOf
  rw [List.getLast?_concat, List.dropLast_concat, hwalk]

theorem Fresh.homeOf (h : Fresh depth destination tree home) (hgrows : tree.Grows t) :
    homeOf t depth destination = some home := by
  obtain ⟨parent, p, name, rfl, rfl, hwalk⟩ := h.named
  exact homeOf_concat (hgrows.walk hwalk)

/-! ## A contained run -/

def member (filename : String) (mode : ℕ) (content : Bytes) : Member where
  filename := Text.ofString filename
  externalAttr := mode <<< 16
  flagBits := 0
  fileSize := content.length
  content := { chunks := [content] }

end ShejaneRuntime.Archives
