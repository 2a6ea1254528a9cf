import ShejaneRuntime.ToolAliases.Aliasing

/-!
# When the aliases are a bijection

Every wire name is valid. The wire names are distinct, and lead back to the
tools they were made for, exactly when no hashed name that is needed is taken.
-/

namespace ShejaneRuntime.ToolAliases

variable {β : Type} {h : Digest} {reserved used : List Name} {name original wire key value : Name}
  {converted : List (Schema β)} {s : Aliasing β} {d : Dict}

/-! ## Dicts -/

namespace Dict

@[simp] theorem get_nil : get [] key = none := rfl

theorem get_set : (d.set key value).get name = if name = key then some value else d.get name := by
  unfold get set
  rw [List.find?_cons]
  by_cases heq : key = name
  · rw [if_pos heq.symm]
    simp [heq]
  · rw [if_neg fun hsame ↦ heq hsame.symm]
    simp [heq]

theorem get_set_self : (d.set key value).get key = some value := by
  rw [get_set, if_pos rfl]

variable (d value) in
theorem get_set_of_ne (hne : name ≠ key) : (d.set key value).get name = d.get name := by
  rw [get_set, if_neg hne]

theorem get_setdefault_of_some (hsome : d.get name = some original) :
    (d.setdefault key value).get name = some original := by
  unfold setdefault
  split
  · exact hsome
  · rename_i hnone
    rw [get_set_of_ne value d, hsome]
    rintro rfl
    rw [hsome] at hnone
    exact hnone rfl

theorem get_setdefault_eq_none :
    (d.setdefault key value).get name = none ↔ d.get name = none ∧ name ≠ key := by
  unfold setdefault
  split
  · rename_i hsome
    constructor
    · intro hnone
      refine ⟨hnone, ?_⟩
      rintro rfl
      rw [hnone] at hsome
      cases hsome
    · exact And.left
  · rw [get_set]
    by_cases heq : name = key
    · simp [heq]
    · simp [heq]

end Dict

/-! ## Names that are valid -/

theorem isSafe_iff : isSafe name = true ↔
    1 ≤ name.length ∧ name.length ≤ 64 ∧ ∀ c ∈ name, safeChar c = true := by
  unfold isSafe
  simp [and_assoc]

theorem safe_of_mem_squash {inRun : Bool} {c : Char} (hc : c ∈ squash inRun name) :
    safeChar c = true := by
  induction name generalizing inRun with
  | nil => cases hc
  | cons a rest ih =>
      unfold squash at hc
      split at hc
      · rename_i ha
        rcases List.mem_cons.mp hc with rfl | hrest
        · exact ha
        · exact ih hrest
      · split at hc
        · exact ih hc
        · rcases List.mem_cons.mp hc with rfl | hrest
          · rfl
          · exact ih hrest

theorem mem_of_mem_strip {c : Char} (hc : c ∈ strip name) : c ∈ name :=
  (List.dropWhile_suffix _).subset ((List.rdropWhile_prefix _ _).subset hc)

theorem stem_ne_nil (original : Name) : stem original ≠ [] := by
  unfold stem
  dsimp only
  split
  · decide
  · assumption

theorem safe_of_mem_stem {c : Char} (hc : c ∈ stem original) : safeChar c = true := by
  unfold stem at hc
  dsimp only at hc
  split at hc
  · exact List.all_eq_true.mp (by decide) c hc
  · exact safe_of_mem_squash (mem_of_mem_strip hc)

theorem isSafe_stem (hle : (stem original).length ≤ 64) : isSafe (stem original) = true := by
  refine isSafe_iff.mpr ⟨List.length_pos_iff.mpr (stem_ne_nil original), hle, ?_⟩
  intro c hc
  exact safe_of_mem_stem hc

theorem isSafe_legacyWireName (h : Digest) (original : Name) :
    isSafe (legacyWireName h original) = true := by
  have hlength : (legacyWireName h original).length = ((stem original).take 55).length + 9 := by
    unfold legacyWireName
    rw [List.length_append, List.length_cons, h.length]
  have htake := List.length_take_le 55 (stem original)
  refine isSafe_iff.mpr ⟨by omega, by omega, ?_⟩
  intro c hc
  unfold legacyWireName at hc
  rcases List.mem_append.mp hc with hc | hc
  · exact safe_of_mem_stem (List.mem_of_mem_take hc)
  · rcases List.mem_cons.mp hc with rfl | hc
    · rfl
    · have hhex : hexDigits.all safeChar = true := by decide
      exact List.all_eq_true.mp hhex c (h.hex original c hc)

theorem isSafe_wireName (h : Digest) (reserved used : List Name) (original : Name) :
    isSafe (wireName h reserved used original) = true := by
  unfold wireName
  split
  · assumption
  · split
    · exact isSafe_legacyWireName h original
    · rename_i hfree
      apply isSafe_stem
      unfold Taken at hfree
      omega

/-! ## The wire names in order -/

/-- The tools with the wire names they get, when some names are used already. -/
def assign (h : Digest) (reserved : List Name) : List Name → List Name → List (Name × Name)
  | _, [] => []
  | used, original :: originals =>
    let wire := wireName h reserved used original
    (original, wire) :: assign h reserved (used ++ [wire]) originals

/-- The wire names of the tools before. -/
def wires (h : Digest) (reserved originals : List Name) : List Name :=
  (assign h reserved [] originals).map Prod.snd

theorem assign_append (used before after : List Name) :
    assign h reserved used (before ++ after) = assign h reserved used before ++
      assign h reserved (used ++ (assign h reserved used before).map Prod.snd) after := by
  induction before generalizing used with
  | nil => simp [assign]
  | cons original before ih => simp [assign, ih]

variable (h reserved) in
theorem map_fst_assign (used originals : List Name) :
    (assign h reserved used originals).map Prod.fst = originals := by
  induction originals generalizing used with
  | nil => rfl
  | cons original originals ih => simp [assign, ih]

theorem names_cons (schema : Schema β) (rest : List (Schema β)) :
    names (schema :: rest) = schema.name.toList ++ names rest := by
  unfold names
  cases hname : schema.name with
  | none => simp [hname]
  | some original => simp [hname]

theorem wireNames_foldl (converted : List (Schema β)) (s : Aliasing β) :
    names (converted.foldl (addTool h reserved) s).schemas =
      names s.schemas ++ (assign h reserved s.used (names converted)).map Prod.snd := by
  induction converted generalizing s with
  | nil => simp [names, assign]
  | cons schema rest ih =>
      rw [List.foldl_cons, ih, names_cons]
      unfold addTool
      cases hname : schema.name with
      | none => simp [names, hname]
      | some original => simp [assign, names]

theorem wireNames_providerTools (converted : List (Schema β)) :
    names (providerTools h converted).schemas = wires h (reservedNames converted) (names converted) :=
  wireNames_foldl converted {}

/-! ## The tables -/

theorem aliases_kept (hkey : s.aliases.get key = some value)
    (hnot : key ∉ (assign h reserved s.used (names converted)).map Prod.snd) :
    (converted.foldl (addTool h reserved) s).aliases.get key = some value := by
  induction converted generalizing s with
  | nil => exact hkey
  | cons schema rest ih =>
      rw [List.foldl_cons]
      rw [names_cons] at hnot
      unfold addTool
      cases hname : schema.name with
      | none =>
          rw [hname] at hnot
          exact ih hkey hnot
      | some original =>
          rw [hname] at hnot
          simp only [Option.toList_some, List.singleton_append, assign, List.map_cons,
            List.mem_cons, not_or] at hnot
          apply ih
          · have hset := (Dict.get_set_of_ne original s.aliases hnot.1).trans hkey
            dsimp only
            split
            · exact Dict.get_setdefault_of_some hset
            · exact hset
          · exact hnot.2

theorem aliases_assigned (hnodup : ((assign h reserved s.used (names converted)).map Prod.snd).Nodup)
    (hmem : (original, wire) ∈ assign h reserved s.used (names converted)) :
    (converted.foldl (addTool h reserved) s).aliases.get wire = some original := by
  induction converted generalizing s with
  | nil => cases hmem
  | cons schema rest ih =>
      rw [List.foldl_cons]
      rw [names_cons] at hnodup hmem
      cases hname : schema.name with
      | none =>
          rw [hname] at hnodup hmem
          unfold addTool
          rw [hname]
          exact ih hnodup hmem
      | some first =>
          rw [hname] at hnodup hmem
          simp only [Option.toList_some, List.singleton_append, assign, List.map_cons,
            List.nodup_cons] at hnodup
          rcases List.mem_cons.mp hmem with heq | hrest
          · obtain ⟨rfl, rfl⟩ := Prod.mk.inj heq
            refine aliases_kept ?_ ?_
            · unfold addTool
              rw [hname]
              dsimp only
              split
              · exact Dict.get_setdefault_of_some Dict.get_set_self
              · exact Dict.get_set_self
            · unfold addTool
              rw [hname]
              exact hnodup.1
          · refine ih ?_ ?_
            · unfold addTool
              rw [hname]
              exact hnodup.2
            · unfold addTool
              rw [hname]
              exact hrest

variable (h reserved converted s key) in
/-- The keys of the aliases: wire names, and hashed names that no tool has. -/
theorem aliases_eq_none : (converted.foldl (addTool h reserved) s).aliases.get key = none ↔
    s.aliases.get key = none ∧ key ∉ (assign h reserved s.used (names converted)).map Prod.snd ∧
      ∀ original ∈ names converted, isSafe original = false →
        legacyWireName h original ∉ reserved → key ≠ legacyWireName h original := by
  induction converted generalizing s with
  | nil => simp [names, assign]
  | cons schema rest ih =>
      rw [List.foldl_cons, ih, names_cons]
      unfold addTool
      cases hname : schema.name with
      | none => simp
      | some original =>
          simp only [Option.toList_some, List.singleton_append, assign, List.map_cons,
            List.mem_cons, not_or, forall_eq_or_imp]
          have hget : (if isSafe original = false ∧ legacyWireName h original ∉ reserved then
              (s.aliases.set (wireName h reserved s.used original) original).setdefault
                (legacyWireName h original) original
              else s.aliases.set (wireName h reserved s.used original) original).get key = none ↔
              (s.aliases.get key = none ∧ key ≠ wireName h reserved s.used original) ∧
                (isSafe original = false → legacyWireName h original ∉ reserved →
                  key ≠ legacyWireName h original) := by
            have hset : (s.aliases.set (wireName h reserved s.used original) original).get key = none ↔
                s.aliases.get key = none ∧ key ≠ wireName h reserved s.used original := by
              rw [Dict.get_set]
              by_cases heq : key = wireName h reserved s.used original
              · simp [heq]
              · simp [heq]
            split
            · rename_i hlegacy
              rw [Dict.get_setdefault_eq_none, hset]
              constructor
              · rintro ⟨hnone, hne⟩
                exact ⟨hnone, fun _ _ ↦ hne⟩
              · rintro ⟨hnone, hne⟩
                exact ⟨hnone, hne hlegacy.1 hlegacy.2⟩
            · rename_i hlegacy
              rw [hset]
              constructor
              · intro hnone
                exact ⟨hnone, fun hsafe hfree ↦ absurd ⟨hsafe, hfree⟩ hlegacy⟩
              · exact And.left
          rw [hget]
          constructor
          · rintro ⟨⟨⟨hnone, hwire⟩, hlegacy⟩, hrest, hall⟩
            exact ⟨hnone, ⟨hwire, hrest⟩, hlegacy, hall⟩
          · rintro ⟨hnone, ⟨hwire, hrest⟩, hlegacy, hall⟩
            exact ⟨⟨⟨hnone, hwire⟩, hlegacy⟩, hrest, hall⟩

/-- Aliases stand for tools. -/
theorem aliases_values (hget : (converted.foldl (addTool h reserved) s).aliases.get key = some value) :
    value ∈ names converted ∨ s.aliases.get key = some value := by
  induction converted generalizing s with
  | nil => exact .inr hget
  | cons schema rest ih =>
      rw [names_cons]
      rcases ih hget with hrest | hfirst
      · exact .inl (List.mem_append_right _ hrest)
      · unfold addTool at hfirst
        cases hname : schema.name with
        | none =>
            rw [hname] at hfirst
            exact .inr hfirst
        | some original =>
            rw [hname] at hfirst
            have hset : ∀ {k : Name} {d : Dict}, (d.set k original).get key = some value →
                value = original ∨ d.get key = some value := by
              intro k d hd
              rw [Dict.get_set] at hd
              split at hd
              · exact .inl (Option.some.inj hd).symm
              · exact .inr hd
            have hor : value = original ∨ s.aliases.get key = some value := by
              dsimp only at hfirst
              unfold Dict.setdefault at hfirst
              split at hfirst
              · split at hfirst
                · exact hset hfirst
                · rcases hset hfirst with heq | hold
                  · exact .inl heq
                  · exact hset hold
              · exact hset hfirst
            rcases hor with rfl | hold
            · exact .inl (List.mem_append_left _ (List.mem_singleton_self _))
            · exact .inr hold

theorem choices_of_not_mem (hnot : name ∉ names converted) :
    (converted.foldl (addTool h reserved) s).choices.get name = s.choices.get name := by
  induction converted generalizing s with
  | nil => rfl
  | cons schema rest ih =>
      rw [names_cons] at hnot
      rw [List.foldl_cons, ih fun hmem ↦ hnot (List.mem_append_right _ hmem)]
      unfold addTool
      cases hname : schema.name with
      | none => rfl
      | some original =>
          rw [hname] at hnot
          apply Dict.get_set_of_ne
          rintro rfl
          exact hnot (List.mem_append_left _ (List.mem_singleton_self _))

variable (h reserved s) in
theorem choices_of_mem (hmem : name ∈ names converted) : ∃ wire,
    (name, wire) ∈ assign h reserved s.used (names converted) ∧
      (converted.foldl (addTool h reserved) s).choices.get name = some wire := by
  induction converted generalizing s with
  | nil => cases hmem
  | cons schema rest ih =>
      rw [names_cons] at hmem ⊢
      rw [List.foldl_cons]
      cases hname : schema.name with
      | none =>
          rw [hname] at hmem
          have hsame : (addTool h reserved s schema).used = s.used := by
            unfold addTool
            rw [hname]
          obtain ⟨wire, hwire, hget⟩ := ih (s := addTool h reserved s schema) hmem
          rw [hsame] at hwire
          exact ⟨wire, hwire, hget⟩
      | some original =>
          rw [hname] at hmem
          have hused : (addTool h reserved s schema).used =
              s.used ++ [wireName h reserved s.used original] := by
            unfold addTool
            rw [hname]
          by_cases hrest : name ∈ names rest
          · obtain ⟨wire, hwire, hget⟩ := ih (s := addTool h reserved s schema) hrest
            refine ⟨wire, ?_, hget⟩
            rw [hused] at hwire
            exact List.mem_cons_of_mem _ hwire
          · rcases List.mem_append.mp hmem with hfirst | hmem
            · rw [Option.toList_some, List.mem_singleton] at hfirst
              subst hfirst
              refine ⟨_, List.mem_cons_self, ?_⟩
              rw [choices_of_not_mem hrest]
              unfold addTool
              rw [hname]
              exact Dict.get_set_self
            · exact absurd hmem hrest

/-! ## Distinct wire names -/

/-- The hashed name of a tool that needs one is no tool's name, and none that a tool before
it has got; and no name that needs no alias stands twice. -/
structure HashedFree (h : Digest) (converted : List (Schema β)) : Prop where
  safe : ((names converted).filter isSafe).Nodup
  hashed : ∀ before original after, names converted = before ++ original :: after →
    isSafe original = false →
    Taken (reservedNames converted) (wires h (reservedNames converted) before) original →
      legacyWireName h original ∉ reservedNames converted ∧
        legacyWireName h original ∉ wires h (reservedNames converted) before

theorem mem_reservedNames : name ∈ reservedNames converted ↔ name ∈ names converted ∧ isSafe name = true := by
  unfold reservedNames names
  simp only [List.mem_filterMap, Option.filter_eq_some_iff]
  constructor
  · rintro ⟨schema, hschema, hname, hsafe⟩
    exact ⟨⟨schema, hschema, hname⟩, hsafe⟩
  · rintro ⟨⟨schema, hschema, hname⟩, hsafe⟩
    exact ⟨schema, hschema, hname, hsafe⟩

theorem wires_concat (originals : List Name) (last : Name) : wires h reserved (originals ++ [last]) =
    wires h reserved originals ++ [wireName h reserved (wires h reserved originals) last] := by
  unfold wires
  simp [assign_append, assign]

/-- A wire name of a tool, by where the tool stands. -/
theorem mem_wires {originals : List Name} : wire ∈ wires h reserved originals ↔
    ∃ before original after, originals = before ++ original :: after ∧
      wire = wireName h reserved (wires h reserved before) original := by
  induction originals using List.reverseRecOn with
  | nil =>
      constructor
      · intro hmem
        cases hmem
      · rintro ⟨before, original, after, heq, _⟩
        exact absurd heq.symm (by simp)
  | append_singleton originals last ih =>
      rw [wires_concat, List.mem_append, List.mem_singleton, ih]
      constructor
      · rintro (⟨before, original, after, rfl, hwire⟩ | rfl)
        · exact ⟨before, original, after ++ [last], by simp, hwire⟩
        · exact ⟨originals, last, [], rfl, rfl⟩
      · rintro ⟨before, original, after, heq, hwire⟩
        rcases List.eq_nil_or_concat after with rfl | ⟨after', last', rfl⟩
        · obtain ⟨rfl, hsame⟩ := List.append_inj' heq rfl
          cases hsame
          exact .inr hwire
        · rw [List.concat_eq_append, ← List.cons_append, ← List.append_assoc] at heq
          obtain ⟨rfl, _⟩ := List.append_inj' heq rfl
          exact .inl ⟨before, original, after', rfl, hwire⟩

/-- Wire names are distinct when each is new where it is given. -/
theorem nodup_wires {originals : List Name} : (wires h reserved originals).Nodup ↔
    ∀ before original after, originals = before ++ original :: after →
      wireName h reserved (wires h reserved before) original ∉ wires h reserved before := by
  induction originals using List.reverseRecOn with
  | nil =>
      constructor
      · intro _ before original after heq
        exact absurd heq.symm (by simp)
      · intro _
        exact List.nodup_nil
  | append_singleton originals last ih =>
      rw [wires_concat, List.nodup_append_comm, List.singleton_append, List.nodup_cons, ih]
      constructor
      · rintro ⟨hnew, hall⟩ before original after heq
        rcases List.eq_nil_or_concat after with rfl | ⟨after', last', rfl⟩
        · obtain ⟨rfl, hsame⟩ := List.append_inj' heq rfl
          cases hsame
          exact hnew
        · rw [List.concat_eq_append, ← List.cons_append, ← List.append_assoc] at heq
          obtain ⟨rfl, _⟩ := List.append_inj' heq rfl
          exact hall before original after' rfl
      · intro hall
        refine ⟨hall originals last [] rfl, ?_⟩
        rintro before original after rfl
        exact hall before original (after ++ [last]) (by simp)

theorem filter_sublist_wires (originals : List Name) :
    (originals.filter isSafe).Sublist (wires h reserved originals) := by
  induction originals using List.reverseRecOn with
  | nil => exact List.Sublist.refl []
  | append_singleton originals last ih =>
      rw [wires_concat, List.filter_append]
      apply ih.append
      by_cases hsafe : isSafe last = true
      · unfold wireName
        rw [if_pos hsafe]
        simp [hsafe]
      · simp [hsafe]

theorem distinct_iff (h : Digest) (converted : List (Schema β)) :
    (wires h (reservedNames converted) (names converted)).Nodup ↔ HashedFree h converted := by
  rw [nodup_wires]
  constructor
  · intro hnew
    have hnodup := nodup_wires.mpr hnew
    refine ⟨(filter_sublist_wires (names converted)).nodup hnodup, ?_⟩
    intro before original after hnames hnotsafe htaken
    have hwire : wireName h (reservedNames converted) (wires h (reservedNames converted) before)
        original = legacyWireName h original := by
      unfold wireName
      rw [if_neg (by rw [hnotsafe]; exact Bool.false_ne_true), if_pos htaken]
    have hstep := hnew before original after hnames
    rw [hwire] at hstep
    refine ⟨?_, hstep⟩
    intro hreserved
    obtain ⟨hmem, hsafe⟩ := mem_reservedNames.mp hreserved
    obtain ⟨front, back, hsplit⟩ := List.append_of_mem hmem
    -- the tool with that name and this one would share it, whichever comes first
    have hother : wireName h (reservedNames converted) (wires h (reservedNames converted) front)
        (legacyWireName h original) = legacyWireName h original := by
      unfold wireName
      rw [if_pos hsafe]
    have hne : legacyWireName h original ≠ original := by
      intro heq
      rw [heq, hnotsafe] at hsafe
      cases hsafe
    rw [hnames] at hsplit
    rcases List.append_eq_append_iff.mp hsplit with ⟨c, hc, hc'⟩ | ⟨c, hc, hc'⟩
    · cases c with
      | nil => exact hne (List.cons_eq_cons.mp hc').1.symm
      | cons a c =>
          obtain ⟨rfl, hrest⟩ := List.cons_eq_cons.mp hc'
          have hlater := hnew front (legacyWireName h original) back (by rw [hnames, hsplit])
          rw [hother] at hlater
          apply hlater
          exact mem_wires.mpr ⟨before, original, c, hc, hwire.symm⟩
    · cases c with
      | nil => exact hne (List.cons_eq_cons.mp hc').1
      | cons a c =>
          obtain ⟨rfl, hrest⟩ := List.cons_eq_cons.mp hc'
          apply hstep
          exact mem_wires.mpr ⟨front, legacyWireName h original, c, hc, hother.symm⟩
  · intro hfree before original after hnames
    by_cases hsafe : isSafe original = true
    · unfold wireName
      rw [if_pos hsafe]
      intro hused
      obtain ⟨front, first, back, hbefore, hwire⟩ := mem_wires.mp hused
      have hreserved : original ∈ reservedNames converted := by
        refine mem_reservedNames.mpr ⟨?_, hsafe⟩
        rw [hnames]
        exact List.mem_append_right _ List.mem_cons_self
      have hfront : names converted = front ++ first :: (back ++ original :: after) := by
        rw [hnames, hbefore, List.append_assoc, List.cons_append]
      unfold wireName at hwire
      split at hwire
      · have hnodup := hfree.safe
        rw [hfront, ← hwire, List.filter_append, List.filter_cons_of_pos hsafe,
          List.filter_append, List.filter_cons_of_pos hsafe] at hnodup
        have hcons := (List.nodup_append.mp hnodup).2.1
        exact (List.nodup_cons.mp hcons).1 (List.mem_append_right _ List.mem_cons_self)
      · rename_i hnotsafe
        split at hwire
        · rename_i htaken
          have hnot := (hfree.hashed front first _ hfront (by simpa using hnotsafe) htaken).1
          rw [← hwire] at hnot
          exact hnot hreserved
        · rename_i htaken
          rw [hwire] at hreserved
          exact htaken (.inr (.inl hreserved))
    · unfold wireName
      rw [if_neg hsafe]
      split
      · rename_i htaken
        exact (hfree.hashed before original after hnames (by simpa using hsafe) htaken).2
      · rename_i htaken
        intro hused
        exact htaken (.inr (.inr hused))

/-! ## There and back -/

/-- The wire names are distinct and valid, and lead back: from the wire name of each tool, and
from the wire name that its own name is rewritten to. -/
structure Bijective (h : Digest) (converted : List (Schema β)) : Prop where
  distinct : (names (providerTools h converted).schemas).Nodup
  valid : ∀ wire ∈ names (providerTools h converted).schemas, isSafe wire = true
  response : ∀ pair ∈ (names converted).zip (names (providerTools h converted).schemas),
    (providerTools h converted).aliases.apply pair.2 = pair.1
  back : ∀ name ∈ names converted, (providerTools h converted).aliases.apply
    ((providerTools h converted).choices.apply name) = name

theorem valid_wires (h : Digest) (converted : List (Schema β)) :
    ∀ wire ∈ names (providerTools h converted).schemas, isSafe wire = true := by
  intro wire hwire
  rw [wireNames_providerTools] at hwire
  obtain ⟨before, original, _, _, rfl⟩ := mem_wires.mp hwire
  exact isSafe_wireName h _ _ original

theorem zip_wires (h : Digest) (converted : List (Schema β)) :
    (names converted).zip (names (providerTools h converted).schemas) =
      assign h (reservedNames converted) [] (names converted) := by
  rw [wireNames_providerTools]
  have hfst := map_fst_assign h (reservedNames converted) [] (names converted)
  calc (names converted).zip (wires h (reservedNames converted) (names converted))
      = ((assign h (reservedNames converted) [] (names converted)).map Prod.fst).zip
          ((assign h (reservedNames converted) [] (names converted)).map Prod.snd) := by
        rw [hfst]
        rfl
    _ = assign h (reservedNames converted) [] (names converted) := by
        rw [List.zip_map']
        simp

theorem apply_wire (hfree : HashedFree h converted)
    (hmem : (original, wire) ∈ assign h (reservedNames converted) [] (names converted)) :
    (providerTools h converted).aliases.apply wire = original := by
  have hget := aliases_assigned (s := ({} : Aliasing β)) ((distinct_iff h converted).mpr hfree) hmem
  unfold Dict.apply providerTools
  rw [hget]
  rfl

theorem bijective_iff_hashedFree (h : Digest) (converted : List (Schema β)) :
    Bijective h converted ↔ HashedFree h converted := by
  constructor
  · intro hbijective
    have hdistinct := hbijective.distinct
    rw [wireNames_providerTools] at hdistinct
    exact (distinct_iff h converted).mp hdistinct
  · intro hfree
    refine ⟨?_, valid_wires h converted, ?_, ?_⟩
    · rw [wireNames_providerTools]
      exact (distinct_iff h converted).mpr hfree
    · rw [zip_wires]
      rintro ⟨original, wire⟩ hmem
      exact apply_wire hfree hmem
    · intro name hname
      obtain ⟨wire, hwire, hget⟩ := choices_of_mem h (reservedNames converted)
        ({} : Aliasing β) hname
      have hchoice : (providerTools h converted).choices.apply name = wire := by
        unfold Dict.apply providerTools
        rw [hget]
        rfl
      rw [hchoice]
      exact apply_wire hfree hwire

/-! ## History -/

/-- Rewriting a message rewrites the names of tools in it, one by one. -/
theorem toolNames_rewrite (d : Dict) (message : Message) :
    toolNames (rewriteToolNames d message) = (toolNames message).map d.apply := by
  unfold rewriteToolNames
  split
  · rename_i hempty
    rw [List.isEmpty_iff.mp hempty]
    have hid : Dict.apply [] = id := by
      funext name
      rfl
    rw [hid, List.map_id]
  · have hoptions : ∀ calls : List (Option Name),
        (calls.map fun name ↦ name.map d.apply).filterMap id = (calls.filterMap id).map d.apply := by
      intro calls
      induction calls with
      | nil => rfl
      | cons call calls ih =>
          cases call with
          | none => exact ih
          | some name => exact congrArg (List.cons (d.apply name)) ih
    cases message with
    | tool name rawName => cases name <;> cases rawName <;> rfl
    | other => rfl
    | ai content toolCalls invalidToolCalls toolCallChunks rawCalls =>
        have hblocks : ∀ blocks : List Block, (blocks.map (rewriteBlock d)).flatMap blockNames =
            (blocks.flatMap blockNames).map d.apply := by
          intro blocks
          induction blocks with
          | nil => rfl
          | cons block blocks ih =>
              rw [List.map_cons, List.flatMap_cons, List.flatMap_cons, List.map_append, ih]
              congr 1
              cases block with
              | text => rfl
              | dict type name =>
                  cases name with
                  | none => rfl
                  | some name =>
                      unfold rewriteBlock
                      by_cases htype : type ∈ callTypes <;> simp [blockNames, htype]
        have hraw : (rawCalls.map fun call ↦ call.map fun name ↦ name.map d.apply).map Option.join =
            (rawCalls.map Option.join).map fun name ↦ name.map d.apply := by
          rw [List.map_map, List.map_map]
          apply List.map_congr_left
          intro call _
          cases call with
          | none => rfl
          | some name => cases name <;> rfl
        have hcontent : ((content.map fun blocks ↦ blocks.map (rewriteBlock d)).getD []).flatMap
            blockNames = ((content.getD []).flatMap blockNames).map d.apply := by
          cases content with
          | none => rfl
          | some blocks => exact hblocks blocks
        unfold toolNames
        dsimp only
        rw [hcontent, hraw, ← List.map_append, ← List.map_append, ← List.map_append, hoptions,
          List.map_append]

/-- No tool would go by the name. -/
def NoAlias (h : Digest) (converted : List (Schema β)) (name : Name) : Prop :=
  ∀ original ∈ names converted, isSafe original = false →
    name ≠ legacyWireName h original ∧ (name = stem original → 64 < (stem original).length)

/-- A name that is no tool's comes back as it was when no tool would go by it. -/
theorem back_of_other (hnot : name ∉ names converted) :
    (providerTools h converted).aliases.apply ((providerTools h converted).choices.apply name) = name ↔
      NoAlias h converted name := by
  have hforth : (providerTools h converted).choices.apply name = name := by
    unfold Dict.apply providerTools
    rw [choices_of_not_mem hnot]
    rfl
  have hreserved : name ∉ reservedNames converted := fun hmem ↦ hnot (mem_reservedNames.mp hmem).1
  have hkeys := aliases_eq_none h (reservedNames converted) name converted {}
  rw [hforth]
  have hself : (providerTools h converted).aliases.get name ≠ some name := by
    intro hget
    rcases aliases_values (s := ({} : Aliasing β)) hget with hmem | hnone
    · exact hnot hmem
    · cases hnone
  have happly : (providerTools h converted).aliases.apply name = name ↔
      (providerTools h converted).aliases.get name = none := by
    unfold Dict.apply
    cases hget : (providerTools h converted).aliases.get name with
    | none => simp
    | some value =>
        rw [hget] at hself
        simpa using fun heq ↦ hself (congrArg some heq)
  rw [happly]
  unfold providerTools
  rw [hkeys]
  constructor
  · rintro ⟨_, hwires, hlegacy⟩ original hmem hnotsafe
    refine ⟨?_, ?_⟩
    · intro heq
      exact hlegacy original hmem hnotsafe (heq ▸ hreserved) heq
    · intro heq
      by_contra hle
      obtain ⟨before, after, hsplit⟩ := List.append_of_mem hmem
      apply hwires
      by_cases hused : name ∈ wires h (reservedNames converted) before
      · obtain ⟨front, first, back, rfl, hwire⟩ := mem_wires.mp hused
        exact mem_wires.mpr ⟨front, first, back ++ original :: after, by rw [hsplit]; simp, hwire⟩
      · refine mem_wires.mpr ⟨before, original, after, hsplit, ?_⟩
        unfold wireName
        rw [if_neg (by rw [hnotsafe]; exact Bool.false_ne_true), if_neg, heq]
        rw [heq] at hreserved hused
        rintro (hlong | hmem' | hmem')
        · exact hle hlong
        · exact hreserved hmem'
        · exact hused hmem'
  · intro hno
    refine ⟨rfl, ?_, fun original hmem hnotsafe _ ↦ (hno original hmem hnotsafe).1⟩
    intro hwire
    obtain ⟨before, original, after, hsplit, hname⟩ := mem_wires.mp hwire
    have hmem : original ∈ names converted := by
      rw [hsplit]
      exact List.mem_append_right _ List.mem_cons_self
    unfold wireName at hname
    split at hname
    · rw [← hname] at hmem
      exact hnot hmem
    · rename_i hnotsafe
      obtain ⟨hlegacy, hstem⟩ := hno original hmem (by simpa using hnotsafe)
      split at hname
      · exact hlegacy hname
      · rename_i hfree
        exact hfree (.inl (hstem hname))

/-- The tools and the messages of a request go to the provider and come back. -/
structure Faithful (h : Digest) (converted : List (Schema β)) (history : List Message) : Prop where
  bijective : Bijective h converted
  history : ∀ message ∈ history, toolNames (rewriteToolNames (providerTools h converted).aliases
    (rewriteToolNames (providerTools h converted).choices message)) = toolNames message

/-- Aliasing is faithful exactly when every hashed name that is needed is free, and no name in
the history that is no tool's is one that a tool would go by. -/
theorem faithful_iff (h : Digest) (converted : List (Schema β)) (history : List Message) :
    Faithful h converted history ↔ HashedFree h converted ∧
      ∀ message ∈ history, ∀ name ∈ toolNames message,
        name ∈ names converted ∨ NoAlias h converted name := by
  have hnames : ∀ message, toolNames (rewriteToolNames (providerTools h converted).aliases
      (rewriteToolNames (providerTools h converted).choices message)) = toolNames message ↔
        ∀ name ∈ toolNames message, (providerTools h converted).aliases.apply
          ((providerTools h converted).choices.apply name) = name := by
    intro message
    rw [toolNames_rewrite, toolNames_rewrite, List.map_map]
    conv_lhs => rhs; rw [← List.map_id (toolNames message)]
    exact List.map_inj_left
  constructor
  · rintro ⟨hbijective, hhistory⟩
    refine ⟨(bijective_iff_hashedFree h converted).mp hbijective, ?_⟩
    intro message hmessage name hname
    have hback := (hnames message).mp (hhistory message hmessage) name hname
    by_cases hmem : name ∈ names converted
    · exact .inl hmem
    · exact .inr ((back_of_other hmem).mp hback)
  · rintro ⟨hfree, hhistory⟩
    have hbijective := (bijective_iff_hashedFree h converted).mpr hfree
    refine ⟨hbijective, ?_⟩
    intro message hmessage
    refine (hnames message).mpr ?_
    intro name hname
    by_cases hmem : name ∈ names converted
    · exact hbijective.back name hmem
    · rcases hhistory message hmessage name hname with hin | hno
      · exact absurd hin hmem
      · exact (back_of_other hmem).mpr hno

/-- A digest that gives every name the same digits. -/
def zeroDigest : Digest where
  digits _ := "00000000".toList
  length _ := rfl
  hex _ c hc := by
    have hzero : "00000000".toList.all (fun digit ↦ decide (digit ∈ hexDigits)) = true := by decide
    exact of_decide_eq_true (List.all_eq_true.mp hzero c hc)

/-- The hashed name of `a.b` is the name of another tool. -/
def clashingTools : List (Schema Unit) :=
  [⟨some "a.b".toList, ()⟩, ⟨some "a_b".toList, ()⟩, ⟨some "a_b_00000000".toList, ()⟩]

theorem not_faithful : ¬ ∀ (h : Digest) (converted : List (Schema Unit)) (history : List Message),
    Faithful h converted history := by
  intro h
  have hdistinct := (h zeroDigest clashingTools []).bijective.distinct
  revert hdistinct
  decide +kernel

end ShejaneRuntime.ToolAliases
