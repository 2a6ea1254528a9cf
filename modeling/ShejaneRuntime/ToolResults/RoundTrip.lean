import ShejaneRuntime.ToolResults.Codec

/-!
# Storing a tool result and reading it back

The codec gives back what it was given exactly when the result has no tuple, no
dict that looks like a tagged message, and nothing that JSON does not have.
-/

namespace ShejaneRuntime.ToolResults

open Lib

/-! ## Steps that succeed -/

section Except

variable {α β : Type} {x : Except ToolResultError α} {b : β}

theorem bind_eq_ok {f : α → Except ToolResultError β} :
    (x >>= f) = .ok b ↔ ∃ a, x = .ok a ∧ f a = .ok b := by
  cases x with
  | error e =>
      constructor
      · rintro ⟨⟩
      · rintro ⟨a, h, _⟩
        cases h
  | ok a =>
      constructor
      · intro h
        exact ⟨a, rfl, h⟩
      · rintro ⟨a', h, hb⟩
        cases h
        exact hb

theorem map_eq_ok {f : α → β} : x.map f = .ok b ↔ ∃ a, x = .ok a ∧ f a = b := by
  cases x with
  | error e =>
      constructor
      · rintro ⟨⟩
      · rintro ⟨a, h, _⟩
        cases h
  | ok a =>
      constructor
      · intro h
        cases h
        exact ⟨a, rfl, rfl⟩
      · rintro ⟨a', h, rfl⟩
        cases h
        rfl

end Except

theorem toJsonItems_cons {sortKeys : Bool} {d : PyData} {ds : List PyData}
    {js : List JsonValue} :
    toJsonItems sortKeys (d :: ds) = some js ↔
      ∃ j rest, toJson sortKeys d = some j ∧ toJsonItems sortKeys ds = some rest ∧
        js = j :: rest := by
  rw [toJsonItems]
  simp only [Option.bind_eq_bind, Option.bind_eq_some_iff]
  constructor
  · rintro ⟨j, hj, rest, hrest, h⟩
    cases h
    exact ⟨j, rest, hj, hrest, rfl⟩
  · rintro ⟨j, rest, hj, hrest, rfl⟩
    exact ⟨j, hj, rest, hrest, rfl⟩

theorem toJsonFields_cons {sortKeys : Bool} {k : Key} {d : PyData} {ds : List (Key × PyData)}
    {fs : List (Text × JsonValue)} :
    toJsonFields sortKeys ((k, d) :: ds) = some fs ↔ ∃ name j rest, k.text = some name ∧
      toJson sortKeys d = some j ∧ toJsonFields sortKeys ds = some rest ∧
        fs = (name, j) :: rest := by
  rw [toJsonFields]
  simp only [Option.bind_eq_bind, Option.bind_eq_some_iff]
  constructor
  · rintro ⟨name, hname, j, hj, rest, hrest, h⟩
    cases h
    exact ⟨name, j, rest, hname, hj, hrest, rfl⟩
  · rintro ⟨name, j, rest, hname, hj, hrest, rfl⟩
    exact ⟨name, hname, j, hj, rest, hrest, rfl⟩

theorem exists_obj_of_dict {sortKeys : Bool} {ds : List (Key × PyData)} {j : JsonValue}
    (h : toJson sortKeys (.dict ds) = some j) : ∃ fs, j = .obj fs := by
  rw [toJson] at h
  split at h
  · cases h
  · obtain ⟨fs, _, rfl⟩ := Option.map_eq_some_iff.mp h
    exact ⟨fs, rfl⟩

/-! ## Data that JSON keeps -/

mutual

/-- JSON has all of the value: no tuples, no objects, only texts as keys. -/
def Plain : PyData → Prop
  | .int n => Writable n
  | .list items => PlainItems items
  | .dict items => PlainFields items
  | .tuple _ => False
  | .object _ _ => False
  | _ => True

def PlainItems : List PyData → Prop
  | [] => True
  | v :: items => Plain v ∧ PlainItems items

def PlainFields : List (Key × PyData) → Prop
  | [] => True
  | (k, v) :: items => k.isStr = true ∧ Plain v ∧ PlainFields items

end

theorem PlainFields.sortable {items : List (Key × PyData)} (h : PlainFields items) :
    sortable (items.map Prod.fst) = true := by
  have hall : (items.map Prod.fst).all Key.isStr = true := by
    induction items with
    | nil => rfl
    | cons item items ih =>
        obtain ⟨hk, _, hitems⟩ := h
        rw [List.map_cons, List.all_cons, hk, ih hitems, Bool.and_self]
  unfold ToolResults.sortable
  rw [hall, Bool.true_or, Bool.true_or]

mutual

theorem Plain.reads_back : ∀ {d : PyData}, Plain d → ∃ j, toJson true d = some j ∧ ofJson j = d
  | .none, _ => ⟨.null, rfl, rfl⟩
  | .bool b, _ => ⟨.bool b, rfl, rfl⟩
  | .int n, h => ⟨.int n, if_pos h, rfl⟩
  | .float shown, _ => ⟨.float shown, rfl, rfl⟩
  | .str s, _ => ⟨.str s, rfl, rfl⟩
  | .list items, h => by
      obtain ⟨js, hjs, hback⟩ := PlainItems.reads_back h
      refine ⟨.arr js, ?_, ?_⟩
      · rw [toJson, hjs, Option.map_some]
      · rw [ofJson, hback]
  | .dict items, h => by
      obtain ⟨fs, hfs, hback⟩ := PlainFields.reads_back h
      refine ⟨.obj fs, ?_, ?_⟩
      · rw [toJson, PlainFields.sortable h, if_neg (by simp), hfs, Option.map_some]
      · rw [ofJson, hback]
  | .tuple _, h => absurd h id
  | .object _ _, h => absurd h id
  | .message m, _ => m.elim

theorem PlainItems.reads_back : ∀ {items : List PyData}, PlainItems items →
    ∃ js, toJsonItems true items = some js ∧ ofJsonItems js = items
  | [], _ => ⟨[], rfl, rfl⟩
  | v :: items, h => by
      obtain ⟨j, hj, hback⟩ := Plain.reads_back h.1
      obtain ⟨js, hjs, hbacks⟩ := PlainItems.reads_back h.2
      refine ⟨j :: js, ?_, ?_⟩
      · exact toJsonItems_cons.mpr ⟨j, js, hj, hjs, rfl⟩
      · rw [ofJsonItems, hback, hbacks]

theorem PlainFields.reads_back : ∀ {items : List (Key × PyData)}, PlainFields items →
    ∃ fs, toJsonFields true items = some fs ∧ ofJsonFields fs = items
  | [], _ => ⟨[], rfl, rfl⟩
  | (.str s, v) :: items, h => by
      obtain ⟨j, hj, hback⟩ := Plain.reads_back h.2.1
      obtain ⟨fs, hfs, hbacks⟩ := PlainFields.reads_back h.2.2
      refine ⟨(s, j) :: fs, ?_, ?_⟩
      · exact toJsonFields_cons.mpr ⟨s, j, fs, rfl, hj, hfs, rfl⟩
      · rw [ofJsonFields, hback, hbacks]
  | (.number _, _) :: _, h => absurd h.1 Bool.false_ne_true
  | (.none, _) :: _, h => absurd h.1 Bool.false_ne_true
  | (.other, _) :: _, h => absurd h.1 Bool.false_ne_true

end

mutual

theorem plain_of_reads_back : ∀ {d : PyData} {j : JsonValue}, toJson true d = some j →
    ofJson j = d → Plain d
  | .none, _, _, _ => trivial
  | .bool _, _, _, _ => trivial
  | .int n, j, h, _ => by
      by_contra hn
      rw [Plain] at hn
      rw [toJson, if_neg hn] at h
      cases h
  | .float _, _, _, _ => trivial
  | .str _, _, _, _ => trivial
  | .list items, j, h, hback => by
      rw [toJson] at h
      obtain ⟨js, hjs, rfl⟩ := Option.map_eq_some_iff.mp h
      rw [ofJson] at hback
      exact plainItems_of_reads_back hjs (PyValue.list.inj hback)
  | .dict items, j, h, hback => by
      rw [toJson] at h
      split at h
      · cases h
      · obtain ⟨fs, hfs, rfl⟩ := Option.map_eq_some_iff.mp h
        rw [ofJson] at hback
        exact plainFields_of_reads_back hfs (PyValue.dict.inj hback)
  | .tuple items, j, h, hback => by
      rw [toJson] at h
      obtain ⟨js, _, rfl⟩ := Option.map_eq_some_iff.mp h
      rw [ofJson] at hback
      cases hback
  | .object _ _, _, h, _ => by cases h
  | .message m, _, _, _ => m.elim

theorem plainItems_of_reads_back : ∀ {items : List PyData} {js : List JsonValue},
    toJsonItems true items = some js → ofJsonItems js = items → PlainItems items
  | [], _, _, _ => trivial
  | v :: items, js, h, hback => by
      obtain ⟨j, rest, hj, hrest, rfl⟩ := toJsonItems_cons.mp h
      rw [ofJsonItems] at hback
      obtain ⟨hv, hitems⟩ := List.cons.inj hback
      exact ⟨plain_of_reads_back hj hv, plainItems_of_reads_back hrest hitems⟩

theorem plainFields_of_reads_back : ∀ {items : List (Key × PyData)} {fs : List (Text × JsonValue)},
    toJsonFields true items = some fs → ofJsonFields fs = items → PlainFields items
  | [], _, _, _ => trivial
  | (k, v) :: items, fs, h, hback => by
      obtain ⟨name, j, rest, _, hj, hrest, rfl⟩ := toJsonFields_cons.mp h
      rw [ofJsonFields] at hback
      obtain ⟨hitem, hitems⟩ := List.cons.inj hback
      obtain ⟨hk, hv⟩ := Prod.mk.inj hitem
      exact ⟨by rw [← hk]; rfl, plain_of_reads_back hj hv, plainFields_of_reads_back hrest hitems⟩

end

/-! ## Values that come back -/

variable {M : Type} (L : Langchain M)

/-- A dict that would be read back as a message. -/
def looksTagged (items : List (Key × PyValue M)) : Bool :=
  match get items "__runtime_type__" with
  | some (.str s) => s = Text.ofString "message"
  | _ => false

mutual

/-- No tuples, no objects, only texts as keys, no dict that looks like a tagged
message, and messages whose dicts JSON keeps. -/
def Clean : PyValue M → Prop
  | .int n => Writable n
  | .list items => CleanItems items
  | .dict items => looksTagged items = false ∧ CleanFields items
  | .message m => PlainFields (L.messageToDict m)
  | .tuple _ => False
  | .object _ _ => False
  | _ => True

def CleanItems : List (PyValue M) → Prop
  | [] => True
  | v :: items => Clean v ∧ CleanItems items

def CleanFields : List (Key × PyValue M) → Prop
  | [] => True
  | (k, v) :: items => k.isStr = true ∧ Clean v ∧ CleanFields items

end

/-- The value is stored as JSON and that is read as another value. -/
def Through (v : PyValue M) (j : JsonValue) : Prop :=
  ∃ d, encodeJsonValue L v = .ok d ∧ toJson true d = some j

def ThroughItems (items : List (PyValue M)) (js : List JsonValue) : Prop :=
  ∃ ds, encodeItems L items = .ok ds ∧ toJsonItems true ds = some js

def ThroughFields (items : List (Key × PyValue M)) (fs : List (Text × JsonValue)) : Prop :=
  ∃ ds, encodeFields L items = .ok ds ∧ toJsonFields true ds = some fs

variable {L} {v : PyValue M} {items : List (PyValue M)} {fields : List (Key × PyValue M)}
  {j : JsonValue} {js : List JsonValue} {fs : List (Text × JsonValue)}

theorem encodeItems_cons {ds : List PyData} : encodeItems L (v :: items) = .ok ds ↔
    ∃ d rest, encodeJsonValue L v = .ok d ∧ encodeItems L items = .ok rest ∧ ds = d :: rest := by
  rw [encodeItems, bind_eq_ok]
  constructor
  · rintro ⟨d, hd, h⟩
    obtain ⟨rest, hrest, h⟩ := bind_eq_ok.mp h
    cases h
    exact ⟨d, rest, hd, hrest, rfl⟩
  · rintro ⟨d, rest, hd, hrest, rfl⟩
    exact ⟨d, hd, bind_eq_ok.mpr ⟨rest, hrest, rfl⟩⟩

theorem encodeFields_cons {k : Key} {ds : List (Key × PyData)} :
    encodeFields L ((k, v) :: fields) = .ok ds ↔ ∃ d rest, encodeJsonValue L v = .ok d ∧
      encodeFields L fields = .ok rest ∧ ds = (k, d) :: rest := by
  rw [encodeFields, bind_eq_ok]
  constructor
  · rintro ⟨d, hd, h⟩
    obtain ⟨rest, hrest, h⟩ := bind_eq_ok.mp h
    cases h
    exact ⟨d, rest, hd, hrest, rfl⟩
  · rintro ⟨d, rest, hd, hrest, rfl⟩
    exact ⟨d, hd, bind_eq_ok.mpr ⟨rest, hrest, rfl⟩⟩

theorem throughItems_cons : ThroughItems L (v :: items) js ↔
    ∃ j rest, Through L v j ∧ ThroughItems L items rest ∧ js = j :: rest := by
  unfold ThroughItems Through
  constructor
  · rintro ⟨ds, hds, hjs⟩
    obtain ⟨d, rest, hd, hrest, rfl⟩ := encodeItems_cons.mp hds
    obtain ⟨j, rest', hj, hrest', rfl⟩ := toJsonItems_cons.mp hjs
    exact ⟨j, rest', ⟨d, hd, hj⟩, ⟨rest, hrest, hrest'⟩, rfl⟩
  · rintro ⟨j, rest', ⟨d, hd, hj⟩, ⟨rest, hrest, hrest'⟩, rfl⟩
    exact ⟨d :: rest, encodeItems_cons.mpr ⟨d, rest, hd, hrest, rfl⟩,
      toJsonItems_cons.mpr ⟨j, rest', hj, hrest', rfl⟩⟩

theorem throughFields_cons {k : Key} : ThroughFields L ((k, v) :: fields) fs ↔
    ∃ name j rest, k.text = some name ∧ Through L v j ∧ ThroughFields L fields rest ∧
      fs = (name, j) :: rest := by
  unfold ThroughFields Through
  constructor
  · rintro ⟨ds, hds, hfs⟩
    obtain ⟨d, rest, hd, hrest, rfl⟩ := encodeFields_cons.mp hds
    obtain ⟨name, j, rest', hname, hj, hrest', rfl⟩ := toJsonFields_cons.mp hfs
    exact ⟨name, j, rest', hname, ⟨d, hd, hj⟩, ⟨rest, hrest, hrest'⟩, rfl⟩
  · rintro ⟨name, j, rest', hname, ⟨d, hd, hj⟩, ⟨rest, hrest, hrest'⟩, rfl⟩
    exact ⟨(k, d) :: rest, encodeFields_cons.mpr ⟨d, rest, hd, hrest, rfl⟩,
      toJsonFields_cons.mpr ⟨name, j, rest', hname, hj, hrest', rfl⟩⟩

theorem through_list : Through L (.list items) j ↔ ∃ js, ThroughItems L items js ∧ j = .arr js := by
  unfold Through ThroughItems
  rw [encodeJsonValue]
  constructor
  · rintro ⟨d, hd, hj⟩
    obtain ⟨ds, hds, rfl⟩ := map_eq_ok.mp hd
    rw [toJson] at hj
    obtain ⟨js, hjs, rfl⟩ := Option.map_eq_some_iff.mp hj
    exact ⟨js, ⟨ds, hds, hjs⟩, rfl⟩
  · rintro ⟨js, ⟨ds, hds, hjs⟩, rfl⟩
    refine ⟨.list ds, map_eq_ok.mpr ⟨ds, hds, rfl⟩, ?_⟩
    rw [toJson, hjs, Option.map_some]

theorem through_tuple : Through L (.tuple items) j ↔
    ∃ js, ThroughItems L items js ∧ j = .arr js := by
  have hsame : encodeJsonValue L (.tuple items) = encodeJsonValue L (.list items) := by
    rw [encodeJsonValue, encodeJsonValue]
  unfold Through
  rw [hsame]
  exact through_list

theorem map_fst_of_encodeFields {ds : List (Key × PyData)} (h : encodeFields L fields = .ok ds) :
    ds.map Prod.fst = fields.map Prod.fst := by
  induction fields generalizing ds with
  | nil =>
      cases h
      rfl
  | cons item fields ih =>
      obtain ⟨d, rest, _, hrest, rfl⟩ := encodeFields_cons.mp h
      rw [List.map_cons, List.map_cons, ih hrest]

theorem through_dict : Through L (.dict fields) j ↔ (fields.map Prod.fst).all Key.isStr = true ∧
    ∃ fs, ThroughFields L fields fs ∧ j = .obj fs := by
  unfold Through ThroughFields
  rw [encodeJsonValue]
  constructor
  · rintro ⟨d, hd, hj⟩
    split at hd
    · rename_i hall
      obtain ⟨ds, hds, rfl⟩ := map_eq_ok.mp hd
      rw [toJson] at hj
      split at hj
      · cases hj
      · obtain ⟨fs, hfs, rfl⟩ := Option.map_eq_some_iff.mp hj
        exact ⟨hall, fs, ⟨ds, hds, hfs⟩, rfl⟩
    · cases hd
  · rintro ⟨hall, fs, ⟨ds, hds, hfs⟩, rfl⟩
    have hsortable : sortable (ds.map Prod.fst) = true := by
      unfold sortable
      rw [map_fst_of_encodeFields hds, hall, Bool.true_or, Bool.true_or]
    rw [if_pos hall]
    refine ⟨.dict ds, map_eq_ok.mpr ⟨ds, hds, rfl⟩, ?_⟩
    rw [toJson, hsortable, if_neg (by simp), hfs, Option.map_some]

theorem through_message {m : M} : Through L (.message m) j ↔
    ∃ fs, toJson true (.dict (L.messageToDict m)) = some (.obj fs) ∧
      j = .obj [(Text.ofString "__runtime_type__", .str (Text.ofString "message")),
        (Text.ofString "value", .obj fs)] := by
  have hwritten : ∀ d, toJson true (.dict [(key "__runtime_type__", str "message"),
      (key "value", d)]) = (toJson true d).map fun j ↦
        .obj [(Text.ofString "__runtime_type__", .str (Text.ofString "message")),
          (Text.ofString "value", j)] := by
    intro d
    rw [toJson, if_neg (by simp [sortable, key, Key.isStr])]
    cases hd : toJson true d with
    | none => simp [toJsonFields, hd]
    | some j => simp [toJsonFields, hd, toJson, key, str, Key.text]
  unfold Through
  rw [encodeJsonValue]
  constructor
  · rintro ⟨d, hd, hj⟩
    cases hd
    rw [hwritten] at hj
    obtain ⟨value, hvalue, rfl⟩ := Option.map_eq_some_iff.mp hj
    obtain ⟨fs, rfl⟩ := exists_obj_of_dict hvalue
    exact ⟨fs, hvalue, rfl⟩
  · rintro ⟨fs, hfs, rfl⟩
    refine ⟨_, rfl, ?_⟩
    rw [hwritten, hfs, Option.map_some]

theorem through_str_iff (h : Through L v j) {s : Text} : j = .str s ↔ v = .str s := by
  obtain ⟨d, hd, hj⟩ := h
  cases v with
  | str t =>
      cases hd
      cases hj
      constructor
      · rintro ⟨⟩
        rfl
      · rintro ⟨⟩
        rfl
  | list items =>
      obtain ⟨js, _, rfl⟩ := through_list.mp ⟨d, hd, hj⟩
      exact ⟨by rintro ⟨⟩, by rintro ⟨⟩⟩
  | tuple items =>
      obtain ⟨js, _, rfl⟩ := through_tuple.mp ⟨d, hd, hj⟩
      exact ⟨by rintro ⟨⟩, by rintro ⟨⟩⟩
  | dict items =>
      obtain ⟨_, fs, _, rfl⟩ := through_dict.mp ⟨d, hd, hj⟩
      exact ⟨by rintro ⟨⟩, by rintro ⟨⟩⟩
  | message m =>
      obtain ⟨fs, _, rfl⟩ := through_message.mp ⟨d, hd, hj⟩
      exact ⟨by rintro ⟨⟩, by rintro ⟨⟩⟩
  | object kind shown => cases hd
  | int n =>
      cases hd
      rw [toJson] at hj
      split at hj
      · cases hj
        exact ⟨by rintro ⟨⟩, by rintro ⟨⟩⟩
      · cases hj
  | _ =>
      cases hd
      cases hj
      exact ⟨by rintro ⟨⟩, by rintro ⟨⟩⟩

/-- What stands under a name is stored under it. -/
theorem ThroughFields.field (h : ThroughFields L fields fs)
    (hkeys : (fields.map Prod.fst).all Key.isStr = true) (name : String) :
    (get fields name = none ∧ field fs name = none) ∨
      ∃ v j, get fields name = some v ∧ ToolResults.field fs name = some j ∧ Through L v j := by
  induction fields generalizing fs with
  | nil =>
      obtain ⟨ds, hds, hfs⟩ := h
      cases hds
      cases hfs
      exact .inl ⟨rfl, rfl⟩
  | cons item fields ih =>
      obtain ⟨k, v⟩ := item
      obtain ⟨t, j, rest, hname, hj, hrest, rfl⟩ := throughFields_cons.mp h
      rw [List.map_cons, List.all_cons, Bool.and_eq_true] at hkeys
      have hk : k = .str t := by
        cases k with
        | str s => exact congrArg Key.str (Option.some.inj hname)
        | _ => exact absurd hkeys.1 Bool.false_ne_true
      subst hk
      by_cases hfound : t = Text.ofString name
      · refine .inr ⟨v, j, ?_, ?_, hj⟩
        · simp [get, key, hfound]
        · simp [ToolResults.field, hfound]
      · have hget : get ((Key.str t, v) :: fields) name = get fields name := by
          simp [get, key, hfound]
        have hfield : ToolResults.field ((t, j) :: rest) name = ToolResults.field rest name := by
          simp [ToolResults.field, hfound]
        rw [hget, hfield]
        exact ih hrest hkeys.2

theorem isTagged_eq (h : ThroughFields L fields fs)
    (hkeys : (fields.map Prod.fst).all Key.isStr = true) : isTagged fs = looksTagged fields := by
  unfold isTagged looksTagged
  rcases h.field hkeys "__runtime_type__" with ⟨hget, hfield⟩ | ⟨v, j, hget, hfield, hj⟩
  · rw [hget, hfield]
  · rw [hget, hfield]
    by_cases hstr : ∃ s, j = .str s
    · obtain ⟨s, rfl⟩ := hstr
      rw [(through_str_iff hj).mp rfl]
    · have hother : ∀ s, v ≠ .str s := fun s hv ↦ hstr ⟨s, (through_str_iff hj).mpr hv⟩
      split
      · rename_i s heq
        exact absurd (Option.some.inj heq) fun hs ↦ hstr ⟨s, hs⟩
      · split
        · rename_i s heq
          exact absurd (Option.some.inj heq) (hother s)
        · rfl

/-- What the codec relies on: a message is rebuilt from the JSON of its dict, and a
message that is built from the JSON of a dumped dict dumps to what was read. -/
structure Langchain.RoundTrips (L : Langchain M) : Prop where
  rebuilt : ∀ m fs, toJson true (.dict (L.messageToDict m)) = some (.obj fs) →
    ofJsonFields fs = L.messageToDict m → L.messagesFromDict fs = some m
  dumped : ∀ m m' fs, toJson true (.dict (L.messageToDict m)) = some (.obj fs) →
    L.messagesFromDict fs = some m' → L.messageToDict m' = ofJsonFields fs

theorem decodeItems_cons {vs : List (PyValue M)} : decodeItems L (j :: js) = .ok vs ↔
    ∃ v rest, decodeJsonValue L j = .ok v ∧ decodeItems L js = .ok rest ∧ vs = v :: rest := by
  rw [decodeItems, bind_eq_ok]
  constructor
  · rintro ⟨v, hv, h⟩
    obtain ⟨rest, hrest, h⟩ := bind_eq_ok.mp h
    cases h
    exact ⟨v, rest, hv, hrest, rfl⟩
  · rintro ⟨v, rest, hv, hrest, rfl⟩
    exact ⟨v, hv, bind_eq_ok.mpr ⟨rest, hrest, rfl⟩⟩

theorem decodeFields_cons {name : Text} {vs : List (Key × PyValue M)} :
    decodeFields L ((name, j) :: fs) = .ok vs ↔ ∃ v rest, decodeJsonValue L j = .ok v ∧
      decodeFields L fs = .ok rest ∧ vs = (.str name, v) :: rest := by
  rw [decodeFields, bind_eq_ok]
  constructor
  · rintro ⟨v, hv, h⟩
    obtain ⟨rest, hrest, h⟩ := bind_eq_ok.mp h
    cases h
    exact ⟨v, rest, hv, hrest, rfl⟩
  · rintro ⟨v, rest, hv, hrest, rfl⟩
    exact ⟨v, hv, bind_eq_ok.mpr ⟨rest, hrest, rfl⟩⟩

theorem CleanFields.keys {items : List (Key × PyValue M)} (h : CleanFields L items) :
    (items.map Prod.fst).all Key.isStr = true := by
  induction items with
  | nil => rfl
  | cons item items ih =>
      obtain ⟨hk, _, hitems⟩ := h
      rw [List.map_cons, List.all_cons, hk, ih hitems, Bool.and_self]

/-- The tagged object of a message, as it is read. -/
theorem decode_tagged {fs : List (Text × JsonValue)} :
    decodeJsonValue L (.obj [(Text.ofString "__runtime_type__", .str (Text.ofString "message")),
      (Text.ofString "value", .obj fs)]) =
        match L.messagesFromDict fs with
        | some m => .ok (.message m)
        | none => .error .invalidMessage := by
  have hne : Text.ofString "__runtime_type__" ≠ Text.ofString "value" := by decide +kernel
  rw [decodeJsonValue]
  cases hread : L.messagesFromDict fs
  all_goals simp only [isTagged, field, hne, decide_false, decide_true, List.find?_cons_of_pos,
    List.find?_cons_of_neg, Option.map_some, not_false_eq_true, Bool.false_eq_true, if_true, hread]

/-! ## What is clean comes back -/

mutual

theorem Clean.comes_back (hL : L.RoundTrips) : ∀ {v : PyValue M}, Clean L v →
    ∃ j, Through L v j ∧ decodeJsonValue L j = .ok v
  | .none, _ => ⟨.null, ⟨.none, rfl, rfl⟩, rfl⟩
  | .bool b, _ => ⟨.bool b, ⟨.bool b, rfl, rfl⟩, rfl⟩
  | .int n, h => ⟨.int n, ⟨.int n, rfl, if_pos h⟩, rfl⟩
  | .float shown, _ => ⟨.float shown, ⟨.float shown, rfl, rfl⟩, rfl⟩
  | .str s, _ => ⟨.str s, ⟨.str s, rfl, rfl⟩, rfl⟩
  | .list items, h => by
      obtain ⟨js, hjs, hback⟩ := CleanItems.come_back hL h
      refine ⟨.arr js, through_list.mpr ⟨js, hjs, rfl⟩, ?_⟩
      rw [decodeJsonValue, hback]
      rfl
  | .dict items, h => by
      rw [Clean] at h
      obtain ⟨fs, hfs, hback⟩ := CleanFields.come_back hL h.2
      have hkeys := CleanFields.keys h.2
      refine ⟨.obj fs, through_dict.mpr ⟨hkeys, fs, hfs, rfl⟩, ?_⟩
      rw [decodeJsonValue, isTagged_eq hfs hkeys, h.1, if_neg Bool.false_ne_true, hback]
      rfl
  | .message m, h => by
      have hplain : Plain (.dict (L.messageToDict m)) := h
      obtain ⟨value, hvalue, hback⟩ := hplain.reads_back
      obtain ⟨fs, rfl⟩ := exists_obj_of_dict hvalue
      rw [ofJson] at hback
      refine ⟨_, through_message.mpr ⟨fs, hvalue, rfl⟩, ?_⟩
      rw [decode_tagged, hL.rebuilt m fs hvalue (PyValue.dict.inj hback)]
  | .tuple _, h => absurd h id
  | .object _ _, h => absurd h id

theorem CleanItems.come_back (hL : L.RoundTrips) : ∀ {items : List (PyValue M)},
    CleanItems L items → ∃ js, ThroughItems L items js ∧ decodeItems L js = .ok items
  | [], _ => ⟨[], ⟨[], rfl, rfl⟩, rfl⟩
  | v :: items, h => by
      obtain ⟨j, hj, hv⟩ := Clean.comes_back hL h.1
      obtain ⟨js, hjs, hitems⟩ := CleanItems.come_back hL h.2
      exact ⟨j :: js, throughItems_cons.mpr ⟨j, js, hj, hjs, rfl⟩,
        decodeItems_cons.mpr ⟨v, items, hv, hitems, rfl⟩⟩

theorem CleanFields.come_back (hL : L.RoundTrips) : ∀ {items : List (Key × PyValue M)},
    CleanFields L items → ∃ fs, ThroughFields L items fs ∧ decodeFields L fs = .ok items
  | [], _ => ⟨[], ⟨[], rfl, rfl⟩, rfl⟩
  | (.str s, v) :: items, h => by
      obtain ⟨j, hj, hv⟩ := Clean.comes_back hL h.2.1
      obtain ⟨fs, hfs, hitems⟩ := CleanFields.come_back hL h.2.2
      exact ⟨(s, j) :: fs, throughFields_cons.mpr ⟨s, j, fs, rfl, hj, hfs, rfl⟩,
        decodeFields_cons.mpr ⟨v, items, hv, hitems, rfl⟩⟩
  | (.number _, _) :: _, h => absurd h.1 Bool.false_ne_true
  | (.none, _) :: _, h => absurd h.1 Bool.false_ne_true
  | (.other, _) :: _, h => absurd h.1 Bool.false_ne_true

end

/-! ## What comes back was clean -/

mutual

theorem clean_of_back (hL : L.RoundTrips) : ∀ {v : PyValue M} {j : JsonValue}, Through L v j →
    decodeJsonValue L j = .ok v → Clean L v
  | .none, _, _, _ => trivial
  | .bool _, _, _, _ => trivial
  | .int n, j, h, _ => by
      obtain ⟨d, hd, hj⟩ := h
      cases hd
      by_contra hn
      rw [Clean] at hn
      rw [toJson, if_neg hn] at hj
      cases hj
  | .float _, _, _, _ => trivial
  | .str _, _, _, _ => trivial
  | .list items, j, h, hback => by
      obtain ⟨js, hjs, rfl⟩ := through_list.mp h
      rw [decodeJsonValue] at hback
      obtain ⟨vs, hvs, heq⟩ := map_eq_ok.mp hback
      rw [PyValue.list.inj heq] at hvs
      exact cleanItems_of_back hL hjs hvs
  | .dict items, j, h, hback => by
      obtain ⟨hkeys, fs, hfs, rfl⟩ := through_dict.mp h
      rw [decodeJsonValue, isTagged_eq hfs hkeys] at hback
      split at hback
      · split at hback
        · split at hback
          · cases hback
          · cases hback
        · cases hback
      · rename_i htag
        obtain ⟨vs, hvs, heq⟩ := map_eq_ok.mp hback
        rw [PyValue.dict.inj heq] at hvs
        exact ⟨Bool.eq_false_iff.mpr htag, cleanFields_of_back hL hfs hvs⟩
  | .tuple items, j, h, hback => by
      obtain ⟨js, _, rfl⟩ := through_tuple.mp h
      rw [decodeJsonValue] at hback
      obtain ⟨vs, _, heq⟩ := map_eq_ok.mp hback
      cases heq
  | .message m, j, h, hback => by
      obtain ⟨fs, hfs, rfl⟩ := through_message.mp h
      rw [decode_tagged] at hback
      cases hm : L.messagesFromDict fs with
      | none =>
          rw [hm] at hback
          cases hback
      | some m' =>
          rw [hm] at hback
          cases hback
          have hdumped := hL.dumped m m fs hfs hm
          have hplain : Plain (.dict (L.messageToDict m)) := by
            apply plain_of_reads_back hfs
            rw [ofJson, hdumped]
          exact hplain
  | .object _ _, _, h, _ => by
      obtain ⟨d, hd, _⟩ := h
      cases hd

theorem cleanItems_of_back (hL : L.RoundTrips) : ∀ {items : List (PyValue M)}
    {js : List JsonValue}, ThroughItems L items js → decodeItems L js = .ok items →
      CleanItems L items
  | [], _, _, _ => trivial
  | v :: items, js, h, hback => by
      obtain ⟨j, rest, hj, hrest, rfl⟩ := throughItems_cons.mp h
      obtain ⟨v', items', hv, hitems, heq⟩ := decodeItems_cons.mp hback
      obtain ⟨rfl, rfl⟩ := List.cons.inj heq
      exact ⟨clean_of_back hL hj hv, cleanItems_of_back hL hrest hitems⟩

theorem cleanFields_of_back (hL : L.RoundTrips) : ∀ {items : List (Key × PyValue M)}
    {fs : List (Text × JsonValue)}, ThroughFields L items fs → decodeFields L fs = .ok items →
      CleanFields L items
  | [], _, _, _ => trivial
  | (k, v) :: items, fs, h, hback => by
      obtain ⟨name, j, rest, _, hj, hrest, rfl⟩ := throughFields_cons.mp h
      obtain ⟨v', items', hv, hitems, heq⟩ := decodeFields_cons.mp hback
      obtain ⟨hitem, rfl⟩ := List.cons.inj heq
      obtain ⟨rfl, rfl⟩ := Prod.mk.inj hitem
      exact ⟨rfl, clean_of_back hL hj hv, cleanFields_of_back hL hrest hitems⟩

end

end ShejaneRuntime.ToolResults
