import ShejaneRuntime.Archives.Extract

/-!
# Extraction inside the destination

What an extraction may touch, and what it leaves when it raises. As long as no
link is in the way every place it makes lies below the destination; a link may
be made through an earlier one, and this is where an extraction can get out.
-/

namespace ShejaneRuntime.Archives

open Lib Lib.Call Lib.Disk

variable {depth : ℕ} {destination : Path} {s s' s'' : Files} {t : Tree} {home p : Place Text}
  {name : Text} {item : Item Text Bytes}

/-! ## What every call keeps -/

/-- Places are only added to what was touched, and the tree only grows. -/
structure Onward (s s' : Files) : Prop where
  touched : s.touched <+: s'.touched
  grows : s.tree.Grows s'.tree

theorem Onward.refl (s : Files) : Onward s s := ⟨List.prefix_refl _, PathTree.Grows.refl _⟩

theorem Onward.trans (h : Onward s s') (h' : Onward s' s'') : Onward s s'' :=
  ⟨h.touched.trans h'.touched, h.grows.trans h'.grows⟩

/-- The action goes onward, however it ends. -/
def GoesOn {α : Type} (m : Action α) : Prop := ∀ s, Ends m s (fun _ ↦ Onward s) fun _ ↦ Onward s

theorem GoesOn.bind {α β : Type} {m : Action α} {f : α → Action β} (hm : GoesOn m)
    (hf : ∀ a, GoesOn (f a)) : GoesOn (m >>= f) := by
  intro s
  rw [ends_bind]
  refine (hm s).mono ?_ fun _ _ h ↦ h
  intro a s' h
  exact (hf a s').mono (fun _ _ h' ↦ h.trans h') fun _ _ h' ↦ h.trans h'

/-- The destination is a free name in a directory. -/
structure Fresh (depth : ℕ) (destination : Path) (t : Tree) (home : Place Text) : Prop where
  named : ∃ parent p name, destination = parent ++ [.down name] ∧ home = p ++ [name] ∧
    t.walk depth [] parent = .ok p
  free : t.item home = none

/-- Nothing outside of the home was touched, and nothing there has changed. -/
structure Below (t : Tree) (home : Place Text) (s : Files) : Prop where
  touched : ∀ x ∈ s.touched, home <+: x
  same : ∀ x, ¬ home <+: x → s.tree.item x = t.item x
  dir : s.tree.item home = some .dir

theorem Below.grows (h : Below t home s) (hfree : t.item home = none) : t.Grows s.tree := by
  intro x item hitem
  refine ⟨item, ?_, PathTree.Item.Like.refl item⟩
  rw [h.same x, hitem]
  rintro ⟨rest, rfl⟩
  apply PathTree.item_of_append (t := t) (p := home) (q := rest) _ hfree
  rw [hitem]
  exact Option.some_ne_none _

theorem walk_last {parent : Path} (hwalk : s.tree.walk depth [] parent = .ok p)
    (hdir : s.tree.item (p ++ [name]) = some .dir) :
    s.tree.walk depth [] (parent ++ [.down name]) = .ok (p ++ [name]) := by
  rw [PathTree.walk_append, hwalk]
  exact PathTree.walk_dir (q := [name]) hdir

theorem Below.walk (h : Below t home s) (hfresh : Fresh depth destination t home) :
    s.tree.walk depth [] destination = .ok home := by
  obtain ⟨parent, p, name, rfl, rfl, hwalk⟩ := hfresh.named
  exact walk_last ((h.grows hfresh.free).walk hwalk) h.dir

theorem Below.isDir_destination (h : Below t home s) (hfresh : Fresh depth destination t home) :
    isDir s.tree depth destination = true := isDir_iff.mpr ⟨home, h.walk hfresh, h.dir⟩

theorem Below.make (h : Below t home s) (hs' : s'.tree.item = fun x ↦
      if x = p ++ [name] then some item else s.tree.item x)
    (htouched : s'.touched = s.touched ++ [p ++ [name]]) (hp : home <+: p) : Below t home s' := by
  have hplace : home <+: p ++ [name] := hp.trans (List.prefix_append p [name])
  have hne : home ≠ p ++ [name] := by
    rintro rfl
    have hle := hp.length_le
    rw [List.length_append, List.length_singleton] at hle
    omega
  refine ⟨?_, ?_, ?_⟩
  · intro x hx
    rw [htouched] at hx
    rcases List.mem_append.mp hx with hx | hx
    · exact h.touched x hx
    · rw [List.mem_singleton.mp hx]
      exact hplace
  · intro x hx
    rw [hs']
    dsimp only
    rw [if_neg, h.same x hx]
    rintro rfl
    exact hx hplace
  · rw [hs']
    dsimp only
    rw [if_neg hne, h.dir]

theorem Below.makesDirs (h : Below t home s) {made : List (Place Text)} (hmakes : MakesDirs s s' made)
    (hmade : ∀ x ∈ made, home <+: x) : Below t home s' := by
  refine ⟨?_, ?_, hmakes.grows.dir h.dir⟩
  · intro x hx
    rw [hmakes.touched] at hx
    rcases List.mem_append.mp hx with hx | hx
    · exact h.touched x hx
    · exact hmade x hx
  · intro x hx
    rw [hmakes.item, if_neg fun hmem ↦ hx (hmade x hmem), h.same x hx]

/-- What is missing on the way of the names lies below the home. -/
def Within (depth : ℕ) (destination : Path) (t : Tree) (home : Place Text) (parts : List Text) : Prop :=
  ∀ p name, Missing t depth (Archives.below destination parts) p name → home <+: p

theorem Below.mkdirs (h : Below t home s) (hfresh : Fresh depth destination t home) {parts : List Text}
    (hwithin : Within depth destination s.tree home parts) : ∃ made s',
      MakesParents depth (Archives.below destination parts) s s' made ∧ Below t home s' ∧
      ((mkdirs depth true (Archives.below destination parts) s = .ok () s' ∧
          isDir s'.tree depth (Archives.below destination parts) = true) ∨
        ∃ e, mkdirs depth true (Archives.below destination parts) s = .error e s') := by
  obtain ⟨made, s', hmade, hresult⟩ :=
    mkdirParents_spec depth (Archives.below destination parts).reverse true s
  rw [List.reverse_reverse] at hmade hresult
  refine ⟨made, s', hmade, ?_, ?_⟩
  · apply h.makesDirs hmade.makes
    intro x hx
    obtain ⟨p, name, hmissing, hbefore⟩ :=
      hmade.below destination parts rfl (h.isDir_destination hfresh) x hx
    exact ((hwithin p name hmissing).trans (List.prefix_append p [name])).trans hbefore
  · unfold Archives.mkdirs mapError
    rcases hresult with ⟨hok, hdir⟩ | ⟨e, herror⟩
    · rw [hok]
      exact .inl ⟨rfl, hdir⟩
    · rw [herror]
      exact .inr ⟨.os e, rfl⟩

/-- No link lies below the home. -/
structure PlainBelow (t : Tree) (home : Place Text) (s : Files) : Prop extends Below t home s where
  plain : ∀ x target, home <+: x → s.tree.item x ≠ some (.link target)

theorem PlainBelow.within (h : PlainBelow t home s) (hfresh : Fresh depth destination t home)
    (parts : List Text) : Within depth destination s.tree home parts := by
  intro p name hmissing
  refine missing_below (h.walk hfresh) h.dir ?_ hmissing
  intro cur next target place hcur hlink _
  exact absurd hlink (h.plain _ target (hcur.trans (List.prefix_append cur [next])))

variable {links done : List (List Text × Text)} {link : List Text × Text}

/-- Every link below the home was made for one of these entries. -/
structure LinksBelow (depth : ℕ) (destination : Path) (t : Tree) (home : Place Text)
    (links : List (List Text × Text)) (s : Files) : Prop extends Below t home s where
  links : ∀ q name aim, home <+: q → s.tree.item (q ++ [name]) = some (.link aim) →
    ∃ link ∈ links, aim = target link.2 ∧ ∃ parent,
      Archives.below destination link.1 = parent ++ [.down name] ∧
        s.tree.walk depth [] parent = .ok q

theorem LinksBelow.onward (h : LinksBelow depth destination t home links s) (hbelow : Below t home s')
    (hgrows : s.tree.Grows s'.tree) (hlinks : ∀ x aim, home <+: x →
      s'.tree.item x = some (.link aim) → s.tree.item x = some (.link aim)) :
    LinksBelow depth destination t home links s' := by
  refine ⟨hbelow, ?_⟩
  intro q name aim hq hlink
  obtain ⟨link, hmem, haim, parent, hpath, hwalk⟩ :=
    h.links q name aim hq (hlinks _ aim (hq.trans (List.prefix_append q [name])) hlink)
  exact ⟨link, hmem, haim, parent, hpath, hgrows.walk hwalk⟩

theorem Within.dropLast {parts : List Text} (h : Within depth destination t home parts) :
    Within depth destination t home parts.dropLast := by
  intro p name hmissing
  rcases List.eq_nil_or_concat parts with rfl | ⟨parts', last, rfl⟩
  · exact h p name hmissing
  · rw [List.concat_eq_append, List.dropLast_concat] at hmissing
    apply h p name
    rw [List.concat_eq_append, below, List.map_append, ← List.append_assoc]
    exact hmissing.append _

/-- With the parents made, what is still missing lies below the home. -/
theorem Within.after {parts : List Text} {made : List (Place Text)}
    (h : Within depth destination s.tree home parts) (hbase : isDir s.tree depth destination = true)
    (hmade : MakesParents depth (below destination parts.dropLast) s s' made)
    (hdir : isDir s'.tree depth (below destination parts.dropLast) = true) :
    Within depth destination s'.tree home parts := by
  intro p name hmissing
  by_cases hnew : made = []
  · have hsame : s'.tree = s.tree := by
      apply PathTree.ext
      funext x
      rw [hmade.makes.item x, hnew, if_neg List.not_mem_nil]
    rw [hsame] at hmissing
    exact h p name hmissing
  · obtain ⟨p₀, name₀, hmissing₀⟩ := hmade.first hnew
    have hhome := h.dropLast p₀ name₀ hmissing₀
    rcases List.eq_nil_or_concat parts with rfl | ⟨parts', last, rfl⟩
    · rw [List.dropLast_nil, below, List.map_nil, List.append_nil] at hmissing₀
      exact absurd hmissing₀ (not_missing_of_isDir hbase)
    · rw [List.concat_eq_append, List.dropLast_concat] at hmade hmissing₀ hdir
      have hmem := hmade.missing p₀ name₀ hmissing₀
      rw [List.concat_eq_append, below, List.map_append, ← List.append_assoc] at hmissing
      have hbelow : ∀ {q}, s'.tree.walk depth [] (below destination parts') = .ok q → home <+: q := by
        intro q hwalk
        have hbefore := below_made hmade.makes hbase hmissing₀ hmem hwalk
        exact (hhome.trans (List.prefix_append p₀ [name₀])).trans hbefore
      rcases missing_concat hmissing with ⟨_, hwalk, _⟩ | hparent
      · exact hbelow hwalk
      · exact absurd hparent (not_missing_of_isDir hdir)

end ShejaneRuntime.Archives
