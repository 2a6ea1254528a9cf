import Mathlib.Data.List.Forall2
import ShejaneRuntime.Answers.Citations

/-!
# The markers of a block

A text block is its text with one marker for each page at each position where
an annotation names it. What a content says, and what its text says of it, is
stated here; the numbers are those of the pages cited so far.
-/

namespace ShejaneRuntime.Answers

open Lib Store

/-! ## What a content says -/

/-- The items of a content; a text alone is its only item. -/
def itemsOf : Json → List Json
  | .str text => [.str text]
  | .arr items => items
  | _ => []

section Spec

variable (library : Library)

/-- The text of a block; other items have none. -/
def blockText (item : Json) : Option String :=
  match item with
  | .str text => some text
  | .obj _ => if item.get? "type" = some (.str "text") then some (library.strOr (item.get? "text"))
    else none
  | _ => none

def annotationsOf (block : Json) : List Json :=
  match block.get? "annotations" with
  | some (.arr annotations) => annotations
  | _ => []

/-- An annotation is a citation of a safe URL. -/
def IsCitationOf (note : Json) (url : String) : Prop :=
  isCitation note = .ok true ∧
    safeSourceUrl library (note.get? "url") = .ok (some url)

/-- An annotation names a position of a text for a page whose URL is not in the text. -/
def CitesAt (text : String) (note : Json) (position : ℕ) (url : String) : Prop :=
  IsCitationOf library note url ∧ ¬ url.toList <:+: text.toList ∧
    citedPosition text note = position

/-- A block names a page by a citation. -/
def Cites (item : Json) (url : String) : Prop :=
  (blockText library item).isSome ∧
    ∃ note ∈ annotationsOf item, IsCitationOf library note url

/-- A block names a page by a citation, and its text does not have the URL. -/
def CitesUnseen (item : Json) (url : String) : Prop :=
  ∃ text, blockText library item = some text ∧
    ∃ note ∈ annotationsOf item, ∃ position, CitesAt library text note position url

/-- A search has looked at a page. -/
def Consults (item : Json) (url : String) : Prop :=
  item.get? "type" = some (.str "web_search_call") ∧
    ∃ source ∈ searchSources item, (∃ fields, source = .obj fields) ∧
      safeSourceUrl library (source.get? "url") = .ok (some url)

end Spec

/-! ## What a text says -/

/-- The blocks of a text with their markers, and its sources. -/
structure Rendering where
  blocks : List (List (Piece Char (ℕ × String)))
  sources : List String

def spell (mark : ℕ × String) : List Char := (marker mark.1 mark.2).toList

def Rendering.text (r : Rendering) : String :=
  withSources (String.join (r.blocks.map fun pieces ↦ String.ofList (write spell pieces))) r.sources

/-- The pieces of a block: its text, with one marker for each page at each position where
an annotation names it. -/
structure BlockFaithful (library : Library) (item : Json)
    (pieces : List (Piece Char (ℕ × String))) :
    Prop where
  plain : ∀ text, blockText library item = some text → plains pieces = text.toList
  placed : ∀ position url, (∃ n, (position, n, url) ∈ marksFrom 0 pieces) ↔
    ∃ text, blockText library item = some text ∧
      ∃ note ∈ annotationsOf item, CitesAt library text note position url
  once : ((marksFrom 0 pieces).map fun m ↦ (m.1, m.2.2)).Nodup

/-- A text says of a content what it says, its sources being the listed pages. -/
structure Faithful (library : Library) (items : List Json) (listed : String → Prop)
    (r : Rendering) : Prop where
  blocks : List.Forall₂ (BlockFaithful library)
    (items.filter fun item ↦ (blockText library item).isSome) r.blocks
  numbered : ∀ pieces ∈ r.blocks, ∀ position n url, (position, n, url) ∈ marksFrom 0 pieces →
    0 < n ∧ r.sources[n - 1]? = some url
  nodup : r.sources.Nodup
  listed : ∀ url, url ∈ r.sources ↔ listed url

variable {library : Library} {text url : String} {position n : ℕ} {note item : Json}
  {annotations items done : List Json} {urls urls' : List String} {c c' : Citing}

/-! ## Numbers of pages -/

theorem get?_zipIdx (urls : List String) (k : ℕ) (url : String) :
    OrderedMap.get? Prod.fst (urls.zipIdx k) url =
      if url ∈ urls then some (url, k + urls.idxOf url) else none := by
  unfold OrderedMap.get?
  induction urls generalizing k with
  | nil => rfl
  | cons u urls ih =>
      rw [List.zipIdx_cons, List.idxOf_cons]
      by_cases hu : u = url
      · subst hu
        simp
      · rw [List.find?_cons_of_neg (by simpa using hu), ih]
        have hne : (u == url) = false := beq_false_of_ne hu
        by_cases hmem : url ∈ urls
        · simp [hmem, hne, Nat.add_comm, Nat.add_left_comm]
        · simp [hmem, Ne.symm hu]

/-- The pages cited after one more citation. -/
def citing (urls : List String) (url : String) : List String :=
  if url ∈ urls then urls else urls ++ [url]

theorem mem_citing {v : String} : v ∈ citing urls url ↔ v ∈ urls ∨ v = url := by
  unfold citing
  split
  · rename_i h
    constructor
    · exact .inl
    · rintro (hv | rfl)
      · exact hv
      · exact h
  · simp

theorem nodup_citing (h : urls.Nodup) : (citing urls url).Nodup := by
  unfold citing
  split
  · exact h
  · rename_i hfresh
    rw [List.nodup_append]
    refine ⟨h, by simp, ?_⟩
    intro a ha b hb hab
    obtain rfl := List.mem_singleton.mp hb
    exact hfresh (hab ▸ ha)

theorem isPrefix_citing (urls : List String) (url : String) : urls <+: citing urls url := by
  unfold citing
  split
  · exact List.prefix_rfl
  · exact List.prefix_append urls [url]

theorem setdefault_zipIdx (urls : List String) (url : String) :
    OrderedMap.setdefault Prod.fst (urls.zipIdx 1) (url, (urls.zipIdx 1).length + 1) =
      (citing urls url).zipIdx 1 := by
  unfold OrderedMap.setdefault citing
  rw [get?_zipIdx]
  by_cases h : url ∈ urls
  · rw [if_pos h, if_pos h]
    rfl
  · rw [if_neg h, if_neg h, List.length_zipIdx, List.zipIdx_append, Nat.add_comm]
    rfl

theorem idxOf_of_isPrefix (h : urls <+: urls') (hmem : url ∈ urls) :
    urls'.idxOf url = urls.idxOf url := by
  obtain ⟨rest, rfl⟩ := h
  exact List.idxOf_append_of_mem hmem

/-! ## The citations of a block -/

/-- What has been inserted into a block after some of its annotations: with the pages cited before
it and since, each entry of the dict of insertions is written out of the set of those made. -/
structure Citing.Sound (library : Library) (text : String) (urls₀ : List String) (done : List Json)
    (c : Citing) (urls : List String) : Prop where
  numbers : c.sourceNumbers = urls.zipIdx 1
  nodup_urls : urls.Nodup
  before : urls₀ <+: urls
  mem_urls : ∀ url, url ∈ urls ↔ url ∈ urls₀ ∨ ∃ position, (position, url) ∈ c.inserted
  nodup_inserted : c.inserted.Nodup
  mem_inserted : ∀ position url, (position, url) ∈ c.inserted ↔
    ∃ note ∈ done, CitesAt library text note position url
  nodup_positions : (c.insertions.map Prod.fst).Nodup
  positions : ∀ position, position ∈ c.insertions.map Prod.fst ↔
    ∃ url, (position, url) ∈ c.inserted
  markers : ∀ position, c.markersAt position =
    (c.inserted.filter fun e ↦ e.1 = position).map fun e ↦ marker (1 + urls.idxOf e.2) e.2

theorem citedPosition_le (text : String) (note : Json) :
    citedPosition text note ≤ text.length := by
  unfold citedPosition
  split
  · split
    · omega
    · exact Nat.le_refl _
  · exact Nat.le_refl _

theorem Citing.Sound.init {urls₀ : List String} (h : urls₀.Nodup) :
    Citing.Sound library text urls₀ [] { sourceNumbers := urls₀.zipIdx 1 } urls₀ where
  numbers := rfl
  nodup_urls := h
  before := List.prefix_rfl
  mem_urls := by simp
  nodup_inserted := List.nodup_nil
  mem_inserted := by simp
  nodup_positions := List.nodup_nil
  positions := by simp
  markers := fun position ↦ rfl

/-- An annotation that names no page of its own, or one that has its marker already. -/
theorem Citing.Sound.skip {urls₀ : List String} (h : c.Sound library text urls₀ done urls)
    (hskip : ∀ position url, CitesAt library text note position url →
      (position, url) ∈ c.inserted) :
    c.Sound library text urls₀ (done ++ [note]) urls where
  numbers := h.numbers
  nodup_urls := h.nodup_urls
  before := h.before
  mem_urls := h.mem_urls
  nodup_inserted := h.nodup_inserted
  mem_inserted := by
    intro position url
    constructor
    · intro hmem
      obtain ⟨a, ha, hcites⟩ := (h.mem_inserted position url).mp hmem
      exact ⟨a, List.mem_append_left _ ha, hcites⟩
    · rintro ⟨a, ha, hcites⟩
      rcases List.mem_append.mp ha with ha | ha
      · exact (h.mem_inserted position url).mpr ⟨a, ha, hcites⟩
      · obtain rfl := List.mem_singleton.mp ha
        exact hskip position url hcites
  nodup_positions := h.nodup_positions
  positions := h.positions
  markers := h.markers

theorem Citing.markersAt_cite (h : (c.insertions.map Prod.fst).Nodup) (p : ℕ) :
    (c.cite position url).markersAt p =
      if position = p then c.markersAt p ++
        [marker (((OrderedMap.get? Prod.fst (c.cite position url).sourceNumbers url).map
          Prod.snd).getD 0) url]
      else c.markersAt p := by
  unfold Citing.markersAt
  show ((OrderedMap.get? Prod.fst (OrderedMap.set Prod.fst c.insertions _) p).map Prod.snd).getD [] = _
  rw [OrderedMap.get?_set h]
  dsimp only
  split
  · rename_i hp
    subst hp
    rfl
  · rfl

/-- A page gets its marker. -/
theorem Citing.Sound.cite {urls₀ : List String} (h : c.Sound library text urls₀ done urls)
    (hcites : CitesAt library text note position url)
    (honly : ∀ position' url', CitesAt library text note position' url' →
      (position', url') = (position, url))
    (hfresh : (position, url) ∉ c.inserted) :
    (c.cite position url).Sound library text urls₀ (done ++ [note]) (citing urls url) := by
  have hnumbers : (c.cite position url).sourceNumbers = (citing urls url).zipIdx 1 := by
    show OrderedMap.setdefault Prod.fst c.sourceNumbers (url, c.sourceNumbers.length + 1) = _
    rw [h.numbers]
    exact setdefault_zipIdx urls url
  have hurl : url ∈ citing urls url := mem_citing.mpr (.inr rfl)
  have hinserted : (c.cite position url).inserted = c.inserted ++ [(position, url)] := rfl
  have hkeys : (c.cite position url).insertions.map Prod.fst =
      if position ∈ c.insertions.map Prod.fst then c.insertions.map Prod.fst
      else c.insertions.map Prod.fst ++ [position] := OrderedMap.keys_set _ _
  refine
    { numbers := hnumbers
      nodup_urls := nodup_citing h.nodup_urls
      before := h.before.trans (isPrefix_citing urls url)
      mem_urls := ?_
      nodup_inserted := ?_
      mem_inserted := ?_
      nodup_positions := OrderedMap.nodup_set h.nodup_positions
      positions := ?_
      markers := ?_ }
  · intro v
    rw [mem_citing, h.mem_urls, hinserted]
    simp only [List.mem_append, List.mem_singleton, Prod.mk.injEq]
    constructor
    · rintro ((hv | ⟨p, hp⟩) | rfl)
      · exact .inl hv
      · exact .inr ⟨p, .inl hp⟩
      · exact .inr ⟨position, .inr ⟨rfl, rfl⟩⟩
    · rintro (hv | ⟨p, hp | ⟨_, rfl⟩⟩)
      · exact .inl (.inl hv)
      · exact .inl (.inr ⟨p, hp⟩)
      · exact .inr rfl
  · rw [hinserted, List.nodup_append]
    refine ⟨h.nodup_inserted, by simp, ?_⟩
    intro a ha b hb hab
    obtain rfl := List.mem_singleton.mp hb
    exact hfresh (hab ▸ ha)
  · intro p v
    rw [hinserted, List.mem_append, List.mem_singleton, h.mem_inserted]
    constructor
    · rintro (⟨a, ha, hpv⟩ | hpv)
      · exact ⟨a, List.mem_append_left _ ha, hpv⟩
      · cases hpv
        exact ⟨note, by simp, hcites⟩
    · rintro ⟨a, ha, hpv⟩
      rcases List.mem_append.mp ha with ha | ha
      · exact .inl ⟨a, ha, hpv⟩
      · obtain rfl := List.mem_singleton.mp ha
        exact .inr (honly p v hpv)
  · intro p
    rw [hkeys, hinserted]
    simp only [List.mem_append, List.mem_singleton, Prod.mk.injEq]
    constructor
    · intro hp
      split at hp
      · obtain ⟨v, hv⟩ := (h.positions p).mp hp
        exact ⟨v, .inl hv⟩
      · rcases List.mem_append.mp hp with hp | hp
        · obtain ⟨v, hv⟩ := (h.positions p).mp hp
          exact ⟨v, .inl hv⟩
        · exact ⟨url, .inr ⟨List.mem_singleton.mp hp, rfl⟩⟩
    · rintro ⟨v, hv | ⟨rfl, _⟩⟩
      · have hp := (h.positions p).mpr ⟨v, hv⟩
        split
        · exact hp
        · exact List.mem_append_left _ hp
      · split
        · assumption
        · simp
  · intro p
    have hold : ∀ e ∈ c.inserted, (citing urls url).idxOf e.2 = urls.idxOf e.2 := by
      intro e he
      exact idxOf_of_isPrefix (isPrefix_citing urls url) ((h.mem_urls e.2).mpr (.inr ⟨e.1, he⟩))
    have hmarkers : c.markersAt p = (c.inserted.filter fun e ↦ e.1 = p).map fun e ↦
        marker (1 + (citing urls url).idxOf e.2) e.2 := by
      rw [h.markers]
      apply List.map_congr_left
      intro e he
      rw [hold e (List.mem_of_mem_filter he)]
    rw [Citing.markersAt_cite h.nodup_positions, hnumbers, get?_zipIdx, if_pos hurl, hinserted,
      List.filter_append, List.map_append, ← hmarkers]
    by_cases hp : position = p
    · simp [hp]
    · simp [hp]

theorem CitesAt.unique {position' : ℕ} {url' : String}
    (h : CitesAt library text note position url)
    (h' : CitesAt library text note position' url') :
    (position', url') = (position, url) := by
  obtain ⟨⟨_, hurl⟩, _, rfl⟩ := h
  obtain ⟨⟨_, hurl'⟩, _, rfl⟩ := h'
  rw [hurl] at hurl'
  rw [Option.some.inj (Except.ok.inj hurl')]

/-- An annotation that is read either names no page that has no marker yet, or the page gets one. -/
theorem citeNote_cases (h : citeNote library text c note = .ok c') :
    (c' = c ∧ ∀ position url, CitesAt library text note position url →
      (position, url) ∈ c.inserted) ∨
    ∃ position url, CitesAt library text note position url ∧ (position, url) ∉ c.inserted ∧
      c' = c.cite position url := by
  unfold citeNote at h
  cases hcitation : isCitation note with
  | error e =>
      rw [hcitation] at h
      cases h
  | ok citation =>
      rw [hcitation] at h
      cases citation with
      | false =>
          refine .inl ⟨(Except.ok.inj h).symm, ?_⟩
          rintro p v ⟨⟨hc, _⟩, _⟩
          rw [hcitation] at hc
          cases hc
      | true =>
          cases hsafe : safeSourceUrl library (note.get? "url") with
          | error e =>
              simp only [hsafe] at h
              cases h
          | ok safe =>
              simp only [hsafe] at h
              cases safe with
              | none =>
                  refine .inl ⟨(Except.ok.inj h).symm, ?_⟩
                  rintro p v ⟨⟨_, hurl⟩, _⟩
                  rw [hsafe] at hurl
                  cases hurl
              | some url =>
                  replace h : (if url.toList <:+: text.toList ||
                      (citedPosition text note, url) ∈ c.inserted then pure c
                    else pure (c.cite (citedPosition text note) url) :
                      Except Failure Citing) = .ok c' := h
                  have hcited : ∀ p v, CitesAt library text note p v →
                      ¬ url.toList <:+: text.toList ∧
                        (p, v) = (citedPosition text note, url) := by
                    rintro p v ⟨⟨_, hurl⟩, hunseen, rfl⟩
                    rw [hsafe] at hurl
                    obtain rfl := Option.some.inj (Except.ok.inj hurl)
                    exact ⟨hunseen, rfl⟩
                  split at h
                  · rename_i hseen
                    refine .inl ⟨(Except.ok.inj h).symm, ?_⟩
                    intro p v hpv
                    obtain ⟨hunseen, heq⟩ := hcited p v hpv
                    rw [heq]
                    simpa [hunseen] using hseen
                  · rename_i hnew
                    simp only [Bool.or_eq_true, decide_eq_true_eq, not_or] at hnew
                    exact .inr ⟨citedPosition text note, url,
                      ⟨⟨hcitation, hsafe⟩, hnew.1, rfl⟩, hnew.2, (Except.ok.inj h).symm⟩

theorem Citing.Sound.citeNext {urls₀ : List String} (h : c.Sound library text urls₀ done urls)
    (hstep : citeNote library text c note = .ok c') :
    ∃ urls', c'.Sound library text urls₀ (done ++ [note]) urls' := by
  rcases citeNote_cases hstep with ⟨rfl, hskip⟩ | ⟨position, url, hcites, hfresh, rfl⟩
  · exact ⟨urls, h.skip hskip⟩
  · exact ⟨citing urls url, h.cite hcites (fun p v hpv ↦ hcites.unique hpv) hfresh⟩

theorem Citing.Sound.citeAll {urls₀ : List String} (h : c.Sound library text urls₀ done urls)
    (hrun : annotations.foldlM (citeNote library text) c = .ok c') :
    ∃ urls', c'.Sound library text urls₀ (done ++ annotations) urls' := by
  induction annotations generalizing c done urls with
  | nil =>
      obtain rfl := Except.ok.inj hrun
      rw [List.append_nil]
      exact ⟨urls, h⟩
  | cons note annotations ih =>
      rw [List.foldlM_cons] at hrun
      cases hstep : citeNote library text c note with
      | error e =>
          rw [hstep] at hrun
          cases hrun
      | ok c₁ =>
          rw [hstep] at hrun
          obtain ⟨urls₁, h₁⟩ := h.citeNext hstep
          obtain ⟨urls', h'⟩ := ih h₁ hrun
          rw [List.append_assoc] at h'
          exact ⟨urls', h'⟩

/-! ## A block -/

/-- The markers of a block at a position. -/
def Citing.marks (c : Citing) (urls : List String) (position : ℕ) : List (ℕ × String) :=
  (c.inserted.filter fun e ↦ e.1 = position).map fun e ↦ (1 + urls.idxOf e.2, e.2)

theorem Citing.Sound.position_le {urls₀ : List String} (h : c.Sound library text urls₀ done urls)
    (hmem : (position, url) ∈ c.inserted) : position ≤ text.length := by
  obtain ⟨a, _, _, _, rfl⟩ := (h.mem_inserted position url).mp hmem
  exact citedPosition_le text a

theorem Citing.Sound.mem_marksFrom {urls₀ : List String}
    (h : c.Sound library text urls₀ done urls) :
    (position, n, url) ∈ marksFrom 0 (weave (c.marks urls) text.toList) ↔
      (position, url) ∈ c.inserted ∧ n = 1 + urls.idxOf url := by
  rw [marksFrom_weave]
  simp only [Citing.marks, List.mem_flatMap, List.mem_map, List.mem_filter, List.mem_range,
    decide_eq_true_eq, Prod.mk.injEq]
  constructor
  · rintro ⟨p, _, m, ⟨⟨q, v⟩, ⟨hmem, rfl⟩, rfl⟩, rfl, hm⟩
    cases hm
    exact ⟨hmem, rfl⟩
  · rintro ⟨hmem, rfl⟩
    have hle := h.position_le hmem
    rw [← String.length_toList] at hle
    exact ⟨position, Nat.lt_succ_of_le hle, _, ⟨(position, url), ⟨hmem, rfl⟩, rfl⟩, rfl, rfl⟩

/-- The text of a block is the one with its markers woven in. -/
theorem Citing.Sound.spliceAll_eq {urls₀ : List String} (h : c.Sound library text urls₀ done urls) :
    spliceAll (fun position ↦ (c.markersAt position).flatMap String.toList)
        ((c.insertions.map Prod.fst).insertionSort (· ≥ ·)) text.toList =
      write spell (weave (c.marks urls) text.toList) := by
  have hmem : ∀ p, p ∈ (c.insertions.map Prod.fst).insertionSort (· ≥ ·) ↔
      ∃ url, (p, url) ∈ c.inserted := by
    intro p
    rw [List.mem_insertionSort, h.positions]
  apply spliceAll_eq_write_weave
  · have hsorted := List.pairwise_insertionSort (· ≥ ·) (c.insertions.map Prod.fst)
    have hnodup : ((c.insertions.map Prod.fst).insertionSort (· ≥ ·)).Nodup :=
      (List.perm_insertionSort _ _).nodup_iff.mpr h.nodup_positions
    exact (hsorted.and hnodup).imp fun ⟨hge, hne⟩ ↦ Nat.lt_of_le_of_ne hge (Ne.symm hne)
  · intro p hp
    obtain ⟨url, hurl⟩ := (hmem p).mp hp
    rw [String.length_toList]
    exact h.position_le hurl
  · intro p _
    rw [h.markers]
    unfold Citing.marks
    rw [List.flatMap_map, List.flatMap_map]
    rfl
  · intro p hp
    unfold Citing.marks
    rw [List.map_eq_nil_iff, List.filter_eq_nil_iff]
    rintro ⟨q, url⟩ he hq
    obtain rfl : q = p := of_decide_eq_true hq
    exact hp ((hmem q).mpr ⟨url, he⟩)

/-- What a block without annotations of its own has: its text. -/
theorem blockFaithful_plain (htext : blockText library item = some text)
    (hnone : annotationsOf item = []) : BlockFaithful library item (text.toList.map .plain) where
  plain := by
    intro text' htext'
    obtain rfl := Option.some.inj (htext.symm.trans htext')
    exact plains_map_plain _
  placed := by simp [hnone]
  once := by simp

theorem Citing.Sound.blockFaithful {urls₀ : List String}
    (h : c.Sound library text urls₀ (annotationsOf item) urls)
    (htext : blockText library item = some text) :
    BlockFaithful library item (weave (c.marks urls) text.toList) where
  plain := by
    intro text' htext'
    obtain rfl := Option.some.inj (htext.symm.trans htext')
    exact plains_weave _ _
  placed := by
    intro position url
    have hplaced : (∃ n, (position, n, url) ∈ marksFrom 0 (weave (c.marks urls) text.toList)) ↔
        (position, url) ∈ c.inserted := by
      simp only [h.mem_marksFrom]
      exact ⟨fun ⟨_, hmem, _⟩ ↦ hmem, fun hmem ↦ ⟨_, hmem, rfl⟩⟩
    rw [hplaced, h.mem_inserted]
    constructor
    · exact fun hcites ↦ ⟨text, htext, hcites⟩
    · rintro ⟨text', htext', hcites⟩
      obtain rfl := Option.some.inj (htext.symm.trans htext')
      exact hcites
  once := by
    rw [marksFrom_weave, List.map_flatMap, List.nodup_flatMap]
    refine ⟨?_, ?_⟩
    · intro p _
      simp only [Citing.marks, List.map_map]
      have hsame : ∀ e ∈ c.inserted.filter (fun e ↦ e.1 = p), (p, e.2) = e := by
        intro e he
        obtain ⟨_, hp⟩ := List.mem_filter.mp he
        rw [← of_decide_eq_true hp]
      have hmap : (c.inserted.filter fun e ↦ e.1 = p).map (fun e ↦ (p, e.2)) =
          c.inserted.filter fun e ↦ e.1 = p := by
        conv => rhs; rw [← List.map_id (c.inserted.filter fun e ↦ e.1 = p)]
        exact List.map_congr_left hsame
      have hnodup := h.nodup_inserted.filter fun e ↦ e.1 = p
      rw [← hmap] at hnodup
      exact hnodup
    · refine List.nodup_range.imp ?_
      intro p q hpq a hp hq
      obtain ⟨_, _, rfl⟩ := List.mem_map.mp hp
      obtain ⟨_, hm, heq⟩ := List.mem_map.mp hq
      simp_all

/-- What a text block is read as: with its markers, and the pages numbered. -/
theorem textBlockWithCitations_spec {t : String} {numbers : List (String × ℕ)}
    (hnodup : urls.Nodup) (htext : blockText library item = some (library.strOr (item.get? "text")))
    (h : textBlockWithCitations library item (urls.zipIdx 1) = .ok (t, numbers)) :
    ∃ urls' pieces, numbers = urls'.zipIdx 1 ∧ urls'.Nodup ∧ urls <+: urls' ∧
      t = String.ofList (write spell pieces) ∧ BlockFaithful library item pieces ∧
      (∀ p n url, (p, n, url) ∈ marksFrom 0 pieces → 0 < n ∧ urls'[n - 1]? = some url) ∧
      ∀ url, url ∈ urls' ↔ url ∈ urls ∨ CitesUnseen library item url := by
  unfold textBlockWithCitations at h
  dsimp only at h
  split at h
  · rename_i annotations hannotations
    have hall : annotationsOf item = annotations := by
      unfold annotationsOf
      rw [hannotations]
    cases hrun : annotations.foldlM (citeNote library (library.strOr (item.get? "text")))
        { sourceNumbers := urls.zipIdx 1 } with
    | error e =>
        rw [hrun] at h
        cases h
    | ok c =>
        rw [hrun] at h
        obtain ⟨urls', hsound⟩ := (Citing.Sound.init hnodup).citeAll hrun
        rw [List.nil_append, ← hall] at hsound
        have hpair := Except.ok.inj h
        refine ⟨urls', weave (c.marks urls') (library.strOr (item.get? "text")).toList, ?_,
          hsound.nodup_urls, hsound.before, ?_, hsound.blockFaithful htext, ?_, ?_⟩
        · rw [← hsound.numbers]
          exact (congrArg Prod.snd hpair).symm
        · rw [← hsound.spliceAll_eq]
          exact (congrArg Prod.fst hpair).symm
        · intro p n url hmark
          obtain ⟨hmem, rfl⟩ := hsound.mem_marksFrom.mp hmark
          have hurl : url ∈ urls' := (hsound.mem_urls url).mpr (.inr ⟨p, hmem⟩)
          refine ⟨by omega, ?_⟩
          rw [Nat.add_sub_cancel_left]
          exact List.getElem?_idxOf hurl
        · intro url
          rw [hsound.mem_urls]
          constructor
          · rintro (hmem | ⟨p, hmem⟩)
            · exact .inl hmem
            · obtain ⟨a, ha, hcites⟩ := (hsound.mem_inserted p url).mp hmem
              exact .inr ⟨_, htext, a, ha, p, hcites⟩
          · rintro (hmem | ⟨text', htext', a, ha, p, hcites⟩)
            · exact .inl hmem
            · obtain rfl := Option.some.inj (htext.symm.trans htext')
              exact .inr ⟨p, (hsound.mem_inserted p url).mpr ⟨a, ha, hcites⟩⟩
  · rename_i hnone
    have hempty : annotationsOf item = [] := by
      unfold annotationsOf
      split
      · exact absurd ‹_› (hnone _)
      · rfl
    have hpair := Except.ok.inj h
    refine ⟨urls, (library.strOr (item.get? "text")).toList.map .plain,
      (congrArg Prod.snd hpair).symm, hnodup, List.prefix_rfl, ?_,
      blockFaithful_plain htext hempty, by simp, ?_⟩
    · rw [write_plains, String.ofList_toList]
      exact (congrArg Prod.fst hpair).symm
    · intro url
      constructor
      · exact .inl
      · rintro (hmem | ⟨_, _, a, ha, _⟩)
        · exact hmem
        · rw [hempty] at ha
          cases ha

end ShejaneRuntime.Answers
