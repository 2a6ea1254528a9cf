import ShejaneRuntime.Answers.Blocks

/-!
# Citations are faithful

Where the URLs of a content parse its text is returned: each marker stands at the
position its annotation names and carries the page that the list of sources has
under its number, every page is listed once, and without markers and list the
text is that of the blocks.
-/

namespace ShejaneRuntime.Answers

open Lib Store

variable {library : Library} {text url : String} {item : Json} {items done : List Json}
  {urls urls' : List String}

/-! ## The pages a search consulted -/

theorem setdefault_eq_citing (urls : List String) (url : String) :
    OrderedMap.setdefault id urls url = citing urls url := by
  have hiff : (OrderedMap.get? id urls url).isSome ↔ url ∈ urls.map id :=
    OrderedMap.get?_isSome_iff
  rw [List.map_id] at hiff
  show (if (OrderedMap.get? id urls url).isSome then urls else urls ++ [url]) = _
  unfold citing
  by_cases hmem : url ∈ urls
  · rw [if_pos hmem, if_pos (hiff.mpr hmem)]
  · rw [if_neg hmem, if_neg fun hc ↦ hmem (hiff.mp hc)]

/-- The pages of a list after those before it, each once. -/
def citingAll (urls l : List String) : List String := l.foldl citing urls

theorem citingAll_cons (urls l : List String) (url : String) :
    citingAll urls (url :: l) = citingAll (citing urls url) l := rfl

theorem mem_citingAll {l : List String} : url ∈ citingAll urls l ↔ url ∈ urls ∨ url ∈ l := by
  induction l generalizing urls with
  | nil => simp [citingAll]
  | cons u l ih => rw [citingAll_cons, ih, mem_citing, List.mem_cons, or_assoc]

theorem nodup_citingAll {l : List String} (h : urls.Nodup) : (citingAll urls l).Nodup := by
  induction l generalizing urls with
  | nil => exact h
  | cons u l ih => exact ih (nodup_citing h)

theorem isPrefix_citingAll (urls l : List String) : urls <+: citingAll urls l := by
  induction l generalizing urls with
  | nil => exact List.prefix_rfl
  | cons u l ih => exact (isPrefix_citing urls u).trans (ih (citing urls u))

theorem citingAll_of_nodup {l : List String} (h : (urls ++ l).Nodup) :
    citingAll urls l = urls ++ l := by
  induction l generalizing urls with
  | nil => exact (List.append_nil urls).symm
  | cons u l ih =>
      have hfresh : u ∉ urls := fun hu ↦
        (List.nodup_append.mp h).2.2 u hu u List.mem_cons_self rfl
      rw [citingAll_cons, citing, if_neg hfresh, ih (by simpa using h)]
      simp

theorem fromkeys_append (h : urls.Nodup) (l : List String) :
    fromkeys (urls ++ l) = citingAll urls l := by
  have hfold : ∀ l, fromkeys l = citingAll [] l := by
    intro l
    unfold fromkeys citingAll
    congr 1
    funext v u
    exact setdefault_eq_citing v u
  have hfirst : citingAll [] urls = urls := citingAll_of_nodup h
  rw [hfold, citingAll, List.foldl_append]
  exact congrArg (fun v ↦ citingAll v l) hfirst

/-- A page that a search says it looked at. -/
def IsSource (library : Library) (source : Json) (url : String) : Prop :=
  (∃ fields, source = .obj fields) ∧ safeSourceUrl library (source.get? "url") = .ok (some url)

theorem ne_empty_of_safe {value : Option Json}
    (h : safeSourceUrl library value = .ok (some url)) : url ≠ "" := by
  rintro rfl
  unfold safeSourceUrl at h
  dsimp only at h
  split at h
  · cases h
  · rename_i scheme netloc hparse
    split at h
    · cases h
    · rename_i hfit
      have hempty := Option.some.inj (Except.ok.inj h)
      rw [hempty, library.urlparse_empty] at hparse
      obtain ⟨rfl, rfl⟩ := Prod.mk.inj (Option.some.inj hparse)
      exact hfit rfl

theorem consultSource_spec {source : Json} (h : consultSource library urls source = .ok urls') :
    (urls' = urls ∧ ∀ url, ¬ IsSource library source url) ∨
      ∃ url, IsSource library source url ∧ urls' = citing urls url := by
  unfold consultSource at h
  split at h
  · rename_i fields
    cases hsafe : safeSourceUrl library ((Json.obj fields).get? "url") with
    | error e =>
        rw [hsafe] at h
        cases h
    | ok safe =>
        rw [hsafe] at h
        cases safe with
        | none =>
            refine .inl ⟨(Except.ok.inj h).symm, ?_⟩
            rintro url ⟨_, hurl⟩
            rw [hsafe] at hurl
            cases hurl
        | some url =>
            refine .inr ⟨url, ⟨⟨fields, rfl⟩, hsafe⟩, ?_⟩
            rw [← setdefault_eq_citing]
            replace h : (pure (if url = "" then urls else OrderedMap.setdefault id urls url) :
              Except Failure (List String)) = .ok urls' := h
            rw [if_neg (ne_empty_of_safe hsafe)] at h
            exact (Except.ok.inj h).symm
  · rename_i hnone
    refine .inl ⟨(Except.ok.inj h).symm, ?_⟩
    rintro url ⟨⟨fields, hobj⟩, _⟩
    exact hnone fields hobj

theorem consultSources_spec {sources : List Json} (hnodup : urls.Nodup)
    (h : sources.foldlM (consultSource library) urls = .ok urls') :
    urls'.Nodup ∧ ∀ url, url ∈ urls' ↔
      url ∈ urls ∨ ∃ source ∈ sources, IsSource library source url := by
  induction sources generalizing urls with
  | nil =>
      obtain rfl := Except.ok.inj h
      exact ⟨hnodup, by simp⟩
  | cons source sources ih =>
      rw [List.foldlM_cons] at h
      cases hstep : consultSource library urls source with
      | error e =>
          rw [hstep] at h
          cases h
      | ok urls₁ =>
          rw [hstep] at h
          have hspec : urls₁.Nodup ∧ ∀ url, url ∈ urls₁ ↔
              url ∈ urls ∨ IsSource library source url := by
            rcases consultSource_spec hstep with ⟨rfl, hnone⟩ | ⟨v, hv, rfl⟩
            · exact ⟨hnodup, fun url ↦ ⟨.inl, fun h ↦ h.elim id fun h ↦ absurd h (hnone url)⟩⟩
            · refine ⟨nodup_citing hnodup, fun url ↦ ?_⟩
              rw [mem_citing]
              constructor
              · rintro (h | rfl)
                · exact .inl h
                · exact .inr hv
              · rintro (h | h)
                · exact .inl h
                · exact .inr (Option.some.inj (Except.ok.inj (h.2.symm.trans hv.2)))
          obtain ⟨hnodup₁, hmem₁⟩ := hspec
          obtain ⟨hnodup', hmem'⟩ := ih hnodup₁ h
          refine ⟨hnodup', fun url ↦ ?_⟩
          rw [hmem', hmem₁]
          simp only [List.mem_cons, or_and_right, exists_or, exists_eq_left, or_assoc]

/-! ## A content -/

/-- What has been read of a content after some of its items. -/
structure Reading.Sound (library : Library) (done : List Json) (reading : Reading)
    (urls : List String) (blocks : List (List (Piece Char (ℕ × String)))) : Prop where
  parts : reading.parts = blocks.map fun pieces ↦ String.ofList (write spell pieces)
  numbers : reading.sourceNumbers = urls.zipIdx 1
  nodup_urls : urls.Nodup
  faithful : List.Forall₂ (BlockFaithful library)
    (done.filter fun item ↦ (blockText library item).isSome) blocks
  numbered : ∀ pieces ∈ blocks, ∀ p n url, (p, n, url) ∈ marksFrom 0 pieces →
    0 < n ∧ urls[n - 1]? = some url
  mem_urls : ∀ url, url ∈ urls ↔ ∃ item ∈ done, CitesUnseen library item url
  nodup_consulted : reading.consulted.Nodup
  mem_consulted : ∀ url, url ∈ reading.consulted ↔ ∃ item ∈ done, Consults library item url

variable {reading reading' : Reading} {blocks : List (List (Piece Char (ℕ × String)))}

theorem exists_mem_concat {p : Json → Prop} :
    (∃ i ∈ done ++ [item], p i) ↔ (∃ i ∈ done, p i) ∨ p item := by
  simp only [List.mem_append, List.mem_singleton, or_and_right, exists_or, exists_eq_left]

theorem getElem?_of_isPrefix {i : ℕ} (h : urls <+: urls') (hurl : urls[i]? = some url) :
    urls'[i]? = some url := by
  obtain ⟨rest, rfl⟩ := h
  obtain ⟨hlt, _⟩ := List.getElem?_eq_some_iff.mp hurl
  rw [List.getElem?_append_left hlt, hurl]

/-- An item of text is one more block. -/
theorem Reading.Sound.block (h : reading.Sound library done urls blocks)
    {pieces : List (Piece Char (ℕ × String))} (hitem : (blockText library item).isSome)
    (hnot : ∀ url, ¬ Consults library item url) (hnodup : urls'.Nodup) (hbefore : urls <+: urls')
    (hpieces : BlockFaithful library item pieces)
    (hnumbered : ∀ p n url, (p, n, url) ∈ marksFrom 0 pieces → 0 < n ∧ urls'[n - 1]? = some url)
    (hmem : ∀ url, url ∈ urls' ↔ url ∈ urls ∨ CitesUnseen library item url) :
    Reading.Sound library (done ++ [item])
      { reading with
        parts := reading.parts ++ [String.ofList (write spell pieces)]
        sourceNumbers := urls'.zipIdx 1 } urls' (blocks ++ [pieces]) where
  parts := by simp [h.parts]
  numbers := rfl
  nodup_urls := hnodup
  faithful := by
    rw [List.filter_append]
    apply List.rel_append h.faithful
    simpa [hitem] using hpieces
  numbered := by
    intro pieces' hmem' p n url hmark
    rcases List.mem_append.mp hmem' with hmem' | hmem'
    · obtain ⟨hpos, hurl⟩ := h.numbered pieces' hmem' p n url hmark
      exact ⟨hpos, getElem?_of_isPrefix hbefore hurl⟩
    · obtain rfl := List.mem_singleton.mp hmem'
      exact hnumbered p n url hmark
  mem_urls := by
    intro url
    rw [hmem, h.mem_urls, exists_mem_concat]
  nodup_consulted := h.nodup_consulted
  mem_consulted := by
    intro url
    rw [exists_mem_concat, h.mem_consulted]
    exact ⟨.inl, fun hc ↦ hc.elim id fun hc ↦ absurd hc (hnot url)⟩

/-- An item that is no text: only the pages consulted may be more. -/
theorem Reading.Sound.other (h : reading.Sound library done urls blocks) {consulted : List String}
    (hitem : blockText library item = none) (hnodup : consulted.Nodup)
    (hmem : ∀ url, url ∈ consulted ↔ url ∈ reading.consulted ∨ Consults library item url) :
    Reading.Sound library (done ++ [item]) { reading with consulted := consulted } urls blocks where
  parts := h.parts
  numbers := h.numbers
  nodup_urls := h.nodup_urls
  faithful := by
    rw [List.filter_append]
    simpa [hitem] using h.faithful
  numbered := h.numbered
  mem_urls := by
    intro url
    rw [exists_mem_concat, h.mem_urls]
    constructor
    · exact .inl
    · rintro (hc | ⟨_, htext, _⟩)
      · exact hc
      · rw [hitem] at htext
        cases htext
  nodup_consulted := hnodup
  mem_consulted := by
    intro url
    rw [hmem, exists_mem_concat, h.mem_consulted]

/-- An item that says nothing. -/
theorem Reading.Sound.ignored (h : reading.Sound library done urls blocks)
    (hitem : blockText library item = none) (hnot : ∀ url, ¬ Consults library item url) :
    Reading.Sound library (done ++ [item]) reading urls blocks :=
  h.other hitem h.nodup_consulted fun url ↦
    ⟨.inl, fun hc ↦ hc.elim id fun hc ↦ absurd hc (hnot url)⟩

theorem not_consults (hitem : ∀ fields, item ≠ .obj fields) : ¬ Consults library item url := by
  rintro ⟨htype, _⟩
  cases item with
  | obj fields => exact hitem fields rfl
  | _ => cases htype

theorem Reading.Sound.readItem (h : reading.Sound library done urls blocks)
    (hstep : Answers.readItem library reading item = .ok reading') :
    ∃ urls' blocks', reading'.Sound library (done ++ [item]) urls' blocks' := by
  unfold Answers.readItem at hstep
  split at hstep
  · rename_i fields
    split at hstep
    · -- a text block
      rename_i htype
      have htext : blockText library (.obj fields) =
          some (library.strOr ((Json.obj fields).get? "text")) := if_pos htype
      have hnot : ∀ url, ¬ Consults library (.obj fields) url := by
        rintro url ⟨hsearch, _⟩
        rw [htype] at hsearch
        exact absurd hsearch (by decide)
      rw [h.numbers] at hstep
      cases hblock : textBlockWithCitations library (.obj fields) (urls.zipIdx 1) with
      | error e =>
          rw [hblock] at hstep
          cases hstep
      | ok result =>
          obtain ⟨t, numbers⟩ := result
          rw [hblock] at hstep
          obtain ⟨urls', pieces, rfl, hnodup, hbefore, rfl, hfaithful, hnumbered, hmem⟩ :=
            textBlockWithCitations_spec h.nodup_urls htext hblock
          obtain rfl := Except.ok.inj hstep
          exact ⟨urls', blocks ++ [pieces], h.block (by rw [htext]; rfl) hnot hnodup hbefore hfaithful
            hnumbered hmem⟩
    · rename_i htype
      have htext : blockText library (.obj fields) = none := if_neg htype
      split at hstep
      · -- a search
        rename_i hsearch
        cases hrun : (searchSources (.obj fields)).foldlM (consultSource library)
            reading.consulted with
        | error e =>
            rw [hrun] at hstep
            cases hstep
        | ok consulted =>
            rw [hrun] at hstep
            obtain rfl := Except.ok.inj hstep
            obtain ⟨hnodup, hmem⟩ := consultSources_spec h.nodup_consulted hrun
            refine ⟨urls, blocks, h.other htext hnodup fun url ↦ ?_⟩
            rw [hmem]
            exact or_congr_right ⟨fun hc ↦ ⟨hsearch, hc⟩, fun hc ↦ hc.2⟩
      · rename_i hsearch
        obtain rfl := Except.ok.inj hstep
        exact ⟨urls, blocks, h.ignored htext fun url hc ↦ hsearch hc.1⟩
  · -- a text alone
    rename_i text
    obtain rfl := Except.ok.inj hstep
    have hplain : BlockFaithful library (.str text) (text.toList.map .plain) :=
      blockFaithful_plain rfl rfl
    have hblock := h.block (by rfl) (fun url ↦ not_consults (by simp)) h.nodup_urls
      List.prefix_rfl hplain (by simp)
      (fun url ↦ ⟨.inl, fun hc ↦ hc.elim id fun ⟨_, _, _, ha, _⟩ ↦ absurd ha List.not_mem_nil⟩)
    rw [write_plains, String.ofList_toList, ← h.numbers] at hblock
    exact ⟨urls, _, hblock⟩
  · rename_i hobj hstr
    obtain rfl := Except.ok.inj hstep
    have htext : blockText library item = none := by
      cases item with
      | obj fields => exact absurd rfl (hobj fields)
      | str text => exact absurd rfl (hstr text)
      | _ => rfl
    exact ⟨urls, blocks, h.ignored htext fun url ↦ not_consults hobj⟩

theorem Reading.Sound.readItems (h : reading.Sound library done urls blocks)
    (hrun : items.foldlM (Answers.readItem library) reading = .ok reading') :
    ∃ urls' blocks', reading'.Sound library (done ++ items) urls' blocks' := by
  induction items generalizing reading done urls blocks with
  | nil =>
      obtain rfl := Except.ok.inj hrun
      rw [List.append_nil]
      exact ⟨urls, blocks, h⟩
  | cons item items ih =>
      rw [List.foldlM_cons] at hrun
      cases hstep : Answers.readItem library reading item with
      | error e =>
          rw [hstep] at hrun
          cases hrun
      | ok reading₁ =>
          rw [hstep] at hrun
          obtain ⟨urls₁, blocks₁, h₁⟩ := h.readItem hstep
          obtain ⟨urls', blocks', h'⟩ := ih h₁ hrun
          rw [List.append_assoc] at h'
          exact ⟨urls', blocks', h'⟩

theorem Reading.sound_nil (library : Library) : Reading.Sound library [] {} [] [] where
  parts := rfl
  numbers := rfl
  nodup_urls := List.nodup_nil
  faithful := .nil
  numbered := by simp
  mem_urls := by simp
  nodup_consulted := List.nodup_nil
  mem_consulted := by simp

/-- A text alone is read as the only item of a list. -/
theorem assistantContentText_itemsOf (content : Json) :
    assistantContentText library content =
      assistantContentText library (.arr (itemsOf content)) := by
  cases content with
  | str text => simp [assistantContentText, itemsOf, readItem, withSources, fromkeys, String.join]
  | arr items => rfl
  | _ => rfl

/-! ## Which contents are read -/

section

variable (library : Library)

/-- `urlparse` takes the text of a value for a URL. -/
def Parses (value : Option Json) : Prop := (library.urlparse (library.strOr value)).isSome

/-- The type of an annotation can be looked up, and the URL of a citation parses. -/
def ReadableNote (note : Json) : Prop :=
  (∃ citation, isCitation note = .ok citation) ∧
    (isCitation note = .ok true → Parses library (note.get? "url"))

/-- The annotations of a text block and the sources of a search can be read. -/
def ReadableItem (item : Json) : Prop :=
  (item.get? "type" = some (.str "text") →
    ∀ note ∈ annotationsOf item, ReadableNote library note) ∧
  (item.get? "type" = some (.str "web_search_call") →
    ∀ source ∈ searchSources item, (∃ fields, source = .obj fields) →
      Parses library (source.get? "url"))

def Readable (content : Json) : Prop := ∀ item ∈ itemsOf content, ReadableItem library item

end

theorem exists_foldlM {α β ε : Type} {f : β → α → Except ε β} {l : List α}
    (h : ∀ a ∈ l, ∀ b, ∃ b', f b a = .ok b') (b : β) : ∃ b', l.foldlM f b = .ok b' := by
  induction l generalizing b with
  | nil => exact ⟨b, rfl⟩
  | cons a l ih =>
      obtain ⟨b₁, hb₁⟩ := h a List.mem_cons_self b
      obtain ⟨b', hb'⟩ := ih (fun a' ha' ↦ h a' (List.mem_cons_of_mem a ha')) b₁
      refine ⟨b', ?_⟩
      rw [List.foldlM_cons, hb₁]
      exact hb'

theorem exists_safeSourceUrl {value : Option Json} (h : Parses library value) :
    ∃ safe, safeSourceUrl library value = .ok safe := by
  obtain ⟨⟨scheme, netloc⟩, hparse⟩ := Option.isSome_iff_exists.mp h
  unfold safeSourceUrl
  dsimp only
  rw [hparse]
  exact ⟨_, rfl⟩

theorem exists_citeNote {note : Json} (h : ReadableNote library note) (text : String) (c : Citing) :
    ∃ c', citeNote library text c note = .ok c' := by
  obtain ⟨⟨citation, hcitation⟩, hurl⟩ := h
  unfold citeNote
  rw [hcitation]
  cases citation with
  | false => exact ⟨c, rfl⟩
  | true =>
      obtain ⟨safe, hsafe⟩ := exists_safeSourceUrl (hurl hcitation)
      rw [hsafe]
      cases safe with
      | none => exact ⟨c, rfl⟩
      | some url =>
          change ∃ c', (if url.toList <:+: text.toList ||
              (citedPosition text note, url) ∈ c.inserted then pure c
            else pure (c.cite (citedPosition text note) url) : Except Failure Citing) = .ok c'
          split
          · exact ⟨_, rfl⟩
          · exact ⟨_, rfl⟩

theorem exists_textBlock (h : ∀ note ∈ annotationsOf item, ReadableNote library note)
    (numbers : List (String × ℕ)) :
    ∃ result, textBlockWithCitations library item numbers = .ok result := by
  unfold textBlockWithCitations
  unfold annotationsOf at h
  dsimp only
  split
  · rename_i annotations hannotations
    rw [hannotations] at h
    obtain ⟨c, hrun⟩ := exists_foldlM
      (fun note hnote c ↦ exists_citeNote (h note hnote) (library.strOr (item.get? "text")) c)
      { sourceNumbers := numbers }
    rw [hrun]
    exact ⟨_, rfl⟩
  · exact ⟨_, rfl⟩

theorem exists_consultSource {source : Json}
    (h : (∃ fields, source = .obj fields) → Parses library (source.get? "url"))
    (consulted : List String) : ∃ consulted', consultSource library consulted source =
      .ok consulted' := by
  unfold consultSource
  split
  · rename_i fields
    obtain ⟨safe, hsafe⟩ := exists_safeSourceUrl (h ⟨fields, rfl⟩)
    rw [hsafe]
    cases safe with
    | none => exact ⟨_, rfl⟩
    | some url => exact ⟨_, rfl⟩
  · exact ⟨_, rfl⟩

theorem exists_readItem (h : ReadableItem library item) (reading : Reading) :
    ∃ reading', readItem library reading item = .ok reading' := by
  unfold readItem
  split
  · rename_i fields
    split
    · rename_i htype
      obtain ⟨⟨text, numbers⟩, hblock⟩ := exists_textBlock (h.1 htype) reading.sourceNumbers
      rw [hblock]
      exact ⟨_, rfl⟩
    · split
      · rename_i hsearch
        obtain ⟨consulted, hrun⟩ := exists_foldlM
          (fun source hsource ↦ exists_consultSource (h.2 hsearch source hsource))
          reading.consulted
        rw [hrun]
        exact ⟨_, rfl⟩
      · exact ⟨_, rfl⟩
  · exact ⟨_, rfl⟩
  · exact ⟨_, rfl⟩

theorem exists_assistantContentText {content : Json} (h : Readable library content) :
    ∃ text, assistantContentText library content = .ok text := by
  rw [assistantContentText_itemsOf]
  unfold assistantContentText
  dsimp only
  obtain ⟨reading, hrun⟩ := exists_foldlM (fun item hitem ↦ exists_readItem (h item hitem)) {}
  rw [hrun]
  exact ⟨_, rfl⟩

/-- What a returned text says of a content. -/
theorem faithful_of_returned {content : Json}
    (h : assistantContentText library content = .ok text) :
    ∃ r : Rendering, r.text = text ∧ Faithful library (itemsOf content)
      (fun url ↦ (∃ item ∈ itemsOf content, CitesUnseen library item url) ∨
        ∃ item ∈ itemsOf content, Consults library item url) r := by
  rw [assistantContentText_itemsOf] at h
  unfold assistantContentText at h
  dsimp only at h
  cases hrun : (itemsOf content).foldlM (readItem library) {} with
  | error e =>
      rw [hrun] at h
      cases h
  | ok reading =>
      rw [hrun] at h
      obtain ⟨urls, blocks, hsound⟩ := (Reading.sound_nil library).readItems hrun
      rw [List.nil_append] at hsound
      have htext := Except.ok.inj h
      have hurls : reading.sourceNumbers.map Prod.fst = urls := by
        rw [hsound.numbers]
        exact List.zipIdx_map_fst 1 urls
      rw [hurls, fromkeys_append hsound.nodup_urls, hsound.parts] at htext
      refine ⟨⟨blocks, citingAll urls reading.consulted⟩, htext, hsound.faithful, ?_,
        nodup_citingAll hsound.nodup_urls, ?_⟩
      · intro pieces hpieces p n url hmark
        obtain ⟨hpos, hurl⟩ := hsound.numbered pieces hpieces p n url hmark
        exact ⟨hpos, getElem?_of_isPrefix (isPrefix_citingAll urls _) hurl⟩
      · intro url
        rw [mem_citingAll, hsound.mem_urls, hsound.mem_consulted]

/-- A content whose URLs parse and whose annotations have types that can be looked up has a text:
the blocks' texts with a marker at each position that a citation names for a page whose URL the
block does not have, numbered as in the sources; and the sources are these pages and those
consulted, each once. No other text is ever returned. -/
theorem citations_faithful (library : Library) (content : Json) :
    (Readable library content → ∃ text, assistantContentText library content = .ok text) ∧
    ∀ text, assistantContentText library content = .ok text →
      ∃ r : Rendering, r.text = text ∧ Faithful library (itemsOf content)
        (fun url ↦ (∃ item ∈ itemsOf content, CitesUnseen library item url) ∨
          ∃ item ∈ itemsOf content, Consults library item url) r :=
  ⟨exists_assistantContentText, fun _ h ↦ faithful_of_returned h⟩

/-! ## Two contents -/

namespace Sample

/-- Reading as it is for two URLs, one of which does not parse. -/
def twoUrls : Library where
  urlparse url :=
    if url = "http://[" then none
    else if url = "https://a.b" then some ("https", "a.b")
    else some ("", "")
  isspace := Char.isWhitespace
  str _ := ""
  urlparse_empty := by decide

/-- A block with a citation of a URL at a position. -/
def content (text url : String) (position : ℤ) : Json :=
  .arr [.obj [("type", .str "text"), ("text", .str text), ("annotations", .arr [.obj
    [("type", .str "url_citation"), ("url", .str url), ("end_index", .num position)]])]]

theorem readable_content : Readable twoUrls (content "Hi" "https://a.b" 1) := by
  intro item hitem
  obtain rfl := List.mem_singleton.mp hitem
  constructor
  · intro _ note hnote
    obtain rfl := List.mem_singleton.mp hnote
    exact ⟨⟨true, by decide +kernel⟩, fun _ ↦ by unfold Parses; decide +kernel⟩
  · intro hsearch
    exact absurd hsearch (by decide +kernel)

/-- The marker stands after the first letter. -/
theorem citations_faithful_marked :
    (∃ text, assistantContentText twoUrls (content "Hi" "https://a.b" 1) = .ok text) ∧
    ∃ r : Rendering, r.text = "H [\\[1\\]](<https://a.b>)i\n\n### Sources\n\n1. <https://a.b>" ∧
      Faithful twoUrls (itemsOf (content "Hi" "https://a.b" 1))
        (fun url ↦
          (∃ item ∈ itemsOf (content "Hi" "https://a.b" 1), CitesUnseen twoUrls item url) ∨
          ∃ item ∈ itemsOf (content "Hi" "https://a.b" 1), Consults twoUrls item url) r :=
  ⟨(citations_faithful twoUrls (content "Hi" "https://a.b" 1)).1 readable_content,
    (citations_faithful twoUrls (content "Hi" "https://a.b" 1)).2 _ (by decide +kernel)⟩

theorem length_withSources {answer : String} {sources : List String} (h : sources ≠ []) :
    13 ≤ (withSources answer sources).length := by
  have htitle : "### Sources\n\n".length = 13 := by decide
  have hbreak : "\n\n### Sources\n\n".length = 15 := by decide
  have hsome : sources.isEmpty = false := by
    rw [List.isEmpty_eq_false_iff]
    exact h
  unfold withSources
  rw [hsome]
  simp only [Bool.false_eq_true, if_false]
  split
  · rw [String.length_append]
    omega
  · rw [String.length_append, String.length_append]
    omega

/-- A page whose URL the text of the block has is cited, and is not among the sources; and a
citation whose URL does not parse leaves no text at all. -/
theorem not_listed : (¬ ∀ content : Json, ∀ text, assistantContentText twoUrls content = .ok text →
    ∃ r : Rendering, r.text = text ∧ Faithful twoUrls (itemsOf content)
      (fun url ↦ (∃ item ∈ itemsOf content, Cites twoUrls item url) ∨
        ∃ item ∈ itemsOf content, Consults twoUrls item url) r) ∧
    assistantContentText twoUrls (content "Hi" "http://[" 1) = .error .valueError := by
  refine ⟨?_, by decide +kernel⟩
  intro hall
  have hreturned : assistantContentText twoUrls (content "https://a.b" "https://a.b" 0) =
      .ok "https://a.b" := by
    decide +kernel
  obtain ⟨r, htext, hfaithful⟩ := hall (content "https://a.b" "https://a.b" 0) _ hreturned
  have hlength : r.text.length = 11 := by
    rw [htext]
    decide
  have hcited : "https://a.b" ∈ r.sources := by
    rw [hfaithful.listed]
    refine .inl ⟨_, List.mem_singleton.mpr rfl, by decide +kernel, _, List.mem_singleton.mpr rfl, ?_⟩
    exact ⟨by decide +kernel, by decide +kernel⟩
  have hlong : 13 ≤ r.text.length := length_withSources (List.ne_nil_of_mem hcited)
  omega

end Sample

end ShejaneRuntime.Answers
