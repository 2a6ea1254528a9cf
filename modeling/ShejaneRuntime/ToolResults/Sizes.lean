import ShejaneRuntime.ToolResults.Values

/-!
# The size of JSON

How many bytes the text of a JSON value takes, and when it can be encoded. A
quote, a backslash and a control character take more bytes in a string than they
take by themselves.
-/

namespace ShejaneRuntime.ToolResults

open Lib

/-! ## Texts -/

/-- A text takes so many bytes, and can be encoded when the condition holds. -/
structure Measure (t : Text) (size : ℕ) (encodable : Prop) : Prop where
  size_eq : t.bytes.length = size
  encodable_iff : t.Encodable ↔ encodable

theorem Measure.append {s t : Text} {m n : ℕ} {p q : Prop} (hs : Measure s m p)
    (ht : Measure t n q) : Measure (s ++ t) (m + n) (p ∧ q) where
  size_eq := by rw [Text.bytes_append, List.length_append, hs.size_eq, ht.size_eq]
  encodable_iff := by rw [Text.encodable_append, hs.encodable_iff, ht.encodable_iff]

theorem measure_ofString (s : String) :
    Measure (Text.ofString s) (Text.ofString s).bytes.length True where
  size_eq := rfl
  encodable_iff := iff_true_intro (Text.encodable_ofString s)

/-- The bytes a code point takes inside a string. -/
def escapeCost (c : CodePoint) : ℕ :=
  if c.val = 0x22 ∨ c.val = 0x5C ∨ c.val = 0x0A ∨ c.val = 0x0D ∨ c.val = 0x09 ∨ c.val = 0x08 ∨
    c.val = 0x0C then 2
  else if c.val < 0x20 then 6
  else Utf8.width c.val

def textCost (t : Text) : ℕ := (t.map escapeCost).sum

@[simp] theorem textCost_nil : textCost [] = 0 := rfl

theorem textCost_cons (c : CodePoint) (t : Text) : textCost (c :: t) = escapeCost c + textCost t :=
  rfl

theorem textCost_append (s t : Text) : textCost (s ++ t) = textCost s + textCost t := by
  unfold textCost
  rw [List.map_append, List.sum_append]

theorem measure_pair (s : String) (h : (Text.ofString s).bytes.length = 2) {c : CodePoint}
    (hc : c.isSurrogate = false) : Measure (Text.ofString s) 2 (c.isSurrogate = false) where
  size_eq := h
  encodable_iff := by simp [hc, Text.encodable_ofString]

theorem width_hexDigit : ∀ n < 16, Utf8.width (hexDigit n).val = 1 ∧
    (hexDigit n).isSurrogate = false := by
  decide +kernel

theorem measure_escape (c : CodePoint) : Measure (escape c) (escapeCost c) (c.isSurrogate = false) := by
  have hlow : c.val < 0x80 → c.isSurrogate = false := by
    intro h
    unfold CodePoint.isSurrogate
    simp only [Bool.and_eq_false_iff, decide_eq_false_iff_not]
    omega
  unfold escape
  split
  · rename_i h
    rw [escapeCost, if_pos (by omega)]
    exact measure_pair _ (by decide +kernel) (hlow (by omega))
  split
  · rename_i h
    rw [escapeCost, if_pos (by omega)]
    exact measure_pair _ (by decide +kernel) (hlow (by omega))
  split
  · rename_i h
    rw [escapeCost, if_pos (by omega)]
    exact measure_pair _ (by decide +kernel) (hlow (by omega))
  split
  · rename_i h
    rw [escapeCost, if_pos (by omega)]
    exact measure_pair _ (by decide +kernel) (hlow (by omega))
  split
  · rename_i h
    rw [escapeCost, if_pos (by omega)]
    exact measure_pair _ (by decide +kernel) (hlow (by omega))
  split
  · rename_i h
    rw [escapeCost, if_pos (by omega)]
    exact measure_pair _ (by decide +kernel) (hlow (by omega))
  split
  · rename_i h
    rw [escapeCost, if_pos (by omega)]
    exact measure_pair _ (by decide +kernel) (hlow (by omega))
  split
  · rename_i h
    rw [escapeCost, if_neg (by omega), if_pos h]
    obtain ⟨hwidth, hsurrogate⟩ := width_hexDigit (c.val / 16) (by omega)
    obtain ⟨hwidth', hsurrogate'⟩ := width_hexDigit (c.val % 16) (by omega)
    have hstart : (Text.ofString "\\u00").bytes.length = 4 := by decide +kernel
    refine ⟨?_, ?_⟩
    · rw [Text.bytes_append, Text.bytes_cons, Text.bytes_cons, Text.bytes_nil]
      simp only [List.length_append, Utf8.length_encodePoint, hwidth, hwidth', hstart,
        List.length_nil]
    · rw [Text.encodable_append, Text.encodable_cons, Text.encodable_cons]
      have hstart' : (Text.ofString "\\u00").Encodable := Text.encodable_ofString _
      have hnil : Text.Encodable [] := fun c hc ↦ absurd hc List.not_mem_nil
      exact iff_of_true ⟨hstart', hsurrogate, hsurrogate', hnil⟩ (hlow (by omega))
  · rename_i h
    rw [escapeCost, if_neg (by omega), if_neg h]
    refine ⟨?_, ?_⟩
    · rw [Text.bytes_cons, Text.bytes_nil, List.append_nil, Utf8.length_encodePoint]
    · simp [Text.Encodable]

theorem measure_flatMap_escape (t : Text) :
    Measure (t.flatMap escape) (textCost t) t.Encodable := by
  induction t with
  | nil => exact ⟨rfl, Iff.rfl⟩
  | cons c t ih =>
      rw [List.flatMap_cons, textCost_cons]
      have hcons := (measure_escape c).append ih
      rw [← Text.encodable_cons] at hcons
      exact hcons

theorem measure_quoted (s : Text) : Measure (quoted s) (textCost s + 2) s.Encodable := by
  have hquote : Measure (Text.ofString "\"") 1 True :=
    ⟨by decide +kernel, iff_true_intro (Text.encodable_ofString _)⟩
  have hwhole := (hquote.append (measure_flatMap_escape s)).append hquote
  rw [true_and, and_true] at hwhole
  refine ⟨?_, hwhole.encodable_iff⟩
  rw [quoted, hwhole.size_eq]
  omega

/-- A list of texts with a byte between them. -/
theorem measure_intercalate {α : Type} {sep : Text} (hsep : Measure sep 1 True) (f : α → Text)
    (size : α → ℕ) (encodable : α → Prop) (items : List α)
    (hf : ∀ a ∈ items, Measure (f a) (size a) (encodable a)) : Measure (sep.intercalate (items.map f))
      ((items.map size).sum + (items.length - 1)) (∀ a ∈ items, encodable a) := by
  induction items with
  | nil => exact ⟨rfl, by simp [Text.Encodable]⟩
  | cons a items ih =>
      have ha := hf a List.mem_cons_self
      have hrest := ih fun b hb ↦ hf b (List.mem_cons_of_mem a hb)
      cases items with
      | nil =>
          rw [List.map_cons, List.map_nil, List.intercalate_singleton]
          refine ⟨?_, ?_⟩
          · simp [ha.size_eq]
          · simp [ha.encodable_iff]
      | cons b items =>
          have hcons := (ha.append hsep).append hrest
          rw [List.map_cons, List.map_cons, List.intercalate_cons_cons, ← List.map_cons]
          refine ⟨?_, ?_⟩
          · rw [hcons.size_eq]
            simp only [List.map_cons, List.sum_cons, List.length_cons]
            omega
          · rw [hcons.encodable_iff, and_true]
            exact (List.forall_mem_cons (a := a)).symm

/-! ## Values -/

mutual

/-- The bytes of the compact text of a value. -/
def jsonSize : JsonValue → ℕ
  | .null => 4
  | .bool true => 4
  | .bool false => 5
  | .int n => (intText n).bytes.length
  | .float shown => Text.bytes shown |>.length
  | .str s => textCost s + 2
  | .arr items => 2 + (itemSizes items + (items.length - 1))
  | .obj fields => 2 + (fieldSizes fields + (fields.length - 1))

def itemSizes : List JsonValue → ℕ
  | [] => 0
  | j :: items => jsonSize j + itemSizes items

def fieldSizes : List (Text × JsonValue) → ℕ
  | [] => 0
  | (name, j) :: fields => textCost name + 3 + jsonSize j + fieldSizes fields

end

mutual

/-- No text in the value has a lone surrogate. -/
def JsonEncodable : JsonValue → Prop
  | .float shown => Text.Encodable shown
  | .str s => Text.Encodable s
  | .arr items => ItemsEncodable items
  | .obj fields => FieldsEncodable fields
  | _ => True

def ItemsEncodable : List JsonValue → Prop
  | [] => True
  | j :: items => JsonEncodable j ∧ ItemsEncodable items

def FieldsEncodable : List (Text × JsonValue) → Prop
  | [] => True
  | (name, j) :: fields => (Text.Encodable name ∧ JsonEncodable j) ∧ FieldsEncodable fields

end

def fieldSize (f : Text × JsonValue) : ℕ := textCost f.1 + 3 + jsonSize f.2

def FieldEncodable (f : Text × JsonValue) : Prop := Text.Encodable f.1 ∧ JsonEncodable f.2

theorem itemSizes_eq (items : List JsonValue) : itemSizes items = (items.map jsonSize).sum := by
  induction items with
  | nil => rfl
  | cons j items ih => rw [itemSizes, ih, List.map_cons, List.sum_cons]

theorem fieldSizes_eq (fields : List (Text × JsonValue)) :
    fieldSizes fields = (fields.map fieldSize).sum := by
  induction fields with
  | nil => rfl
  | cons f fields ih => rw [fieldSizes, ih, List.map_cons, List.sum_cons, fieldSize]

theorem itemsEncodable_iff (items : List JsonValue) :
    ItemsEncodable items ↔ ∀ j ∈ items, JsonEncodable j := by
  induction items with
  | nil => simp [ItemsEncodable]
  | cons j items ih => rw [ItemsEncodable, ih, List.forall_mem_cons]

theorem fieldsEncodable_iff (fields : List (Text × JsonValue)) :
    FieldsEncodable fields ↔ ∀ f ∈ fields, FieldEncodable f := by
  induction fields with
  | nil => simp [FieldsEncodable]
  | cons f fields ih => rw [FieldsEncodable, ih, List.forall_mem_cons, FieldEncodable]

theorem dumpsItems_eq (sep : Separators) (items : List JsonValue) :
    dumpsItems sep items = items.map (dumps sep) := by
  induction items with
  | nil => rfl
  | cons j items ih => rw [dumpsItems, ih, List.map_cons]

theorem dumpsFields_eq (sep : Separators) (fields : List (Text × JsonValue)) :
    dumpsFields sep fields = fields.map fun f ↦ quoted f.1 ++ sep.key ++ dumps sep f.2 := by
  induction fields with
  | nil => rfl
  | cons f fields ih => rw [dumpsFields, ih, List.map_cons]

theorem measure_comma : Measure compact.item 1 True :=
  ⟨by decide +kernel, iff_true_intro (Text.encodable_ofString _)⟩

theorem measure_literal (s : String) {n : ℕ} (h : (Text.ofString s).bytes.length = n) :
    Measure (Text.ofString s) n True :=
  ⟨h, iff_true_intro (Text.encodable_ofString s)⟩

theorem Measure.bracket {t : Text} {n : ℕ} {p : Prop} (h : Measure t n p) {left right : String}
    (hleft : (Text.ofString left).bytes.length = 1)
    (hright : (Text.ofString right).bytes.length = 1) :
    Measure (Text.ofString left ++ t ++ Text.ofString right) (2 + n) p := by
  have hwhole := ((measure_literal left hleft).append h).append (measure_literal right hright)
  rw [true_and, and_true] at hwhole
  refine ⟨?_, hwhole.encodable_iff⟩
  rw [hwhole.size_eq]
  omega

mutual

theorem measure_dumps : ∀ j : JsonValue, Measure (dumps compact j) (jsonSize j) (JsonEncodable j)
  | .null => measure_literal "null" (by decide +kernel)
  | .bool true => measure_literal "true" (by decide +kernel)
  | .bool false => measure_literal "false" (by decide +kernel)
  | .int n => measure_ofString (toString n)
  | .float _ => ⟨rfl, Iff.rfl⟩
  | .str s => measure_quoted s
  | .arr items => by
      have hitems := measure_intercalate measure_comma (dumps compact) jsonSize JsonEncodable items
        (measure_items items)
      rw [dumps, jsonSize, JsonEncodable, dumpsItems_eq, itemSizes_eq, itemsEncodable_iff]
      exact hitems.bracket (by decide +kernel) (by decide +kernel)
  | .obj fields => by
      have hfields := measure_intercalate measure_comma _ fieldSize FieldEncodable fields
        (measure_fields fields)
      rw [dumps, jsonSize, JsonEncodable, dumpsFields_eq, fieldSizes_eq, fieldsEncodable_iff]
      exact hfields.bracket (by decide +kernel) (by decide +kernel)

theorem measure_items : ∀ (items : List JsonValue), ∀ j ∈ items,
    Measure (dumps compact j) (jsonSize j) (JsonEncodable j)
  | [] => by
      intro j hj
      cases hj
  | i :: items => by
      intro j hj
      rcases List.mem_cons.mp hj with heq | hj
      · rw [heq]
        exact measure_dumps i
      · exact measure_items items j hj

theorem measure_fields : ∀ (fields : List (Text × JsonValue)), ∀ f ∈ fields,
    Measure (quoted f.1 ++ compact.key ++ dumps compact f.2) (fieldSize f) (FieldEncodable f)
  | [] => by
      intro f hf
      cases hf
  | (name, j) :: fields => by
      intro f hf
      rcases List.mem_cons.mp hf with heq | hf
      · rw [heq]
        have hcolon : Measure compact.key 1 True :=
          ⟨by decide +kernel, iff_true_intro (Text.encodable_ofString _)⟩
        have hwhole := ((measure_quoted name).append hcolon).append (measure_dumps j)
        rw [and_true] at hwhole
        refine ⟨?_, hwhole.encodable_iff⟩
        rw [hwhole.size_eq, fieldSize]
      · exact measure_fields fields f hf

end

/-! ## Sorting the fields -/

mutual

theorem sortFields_spec : ∀ j : JsonValue,
    jsonSize (sortFields j) = jsonSize j ∧ (JsonEncodable (sortFields j) ↔ JsonEncodable j)
  | .null => ⟨rfl, Iff.rfl⟩
  | .bool _ => ⟨rfl, Iff.rfl⟩
  | .int _ => ⟨rfl, Iff.rfl⟩
  | .float _ => ⟨rfl, Iff.rfl⟩
  | .str _ => ⟨rfl, Iff.rfl⟩
  | .arr items => by
      obtain ⟨hsize, hencodable, hlength⟩ := sortItems_spec items
      rw [sortFields, jsonSize, jsonSize, JsonEncodable, JsonEncodable, hsize, hencodable, hlength]
      exact ⟨rfl, Iff.rfl⟩
  | .obj fields => by
      obtain ⟨hsize, hencodable, hlength⟩ := sortFieldsOf_spec fields
      have hperm := List.perm_insertionSort (fun f g : Text × JsonValue ↦ f.1 ≤ g.1)
        (sortFieldsOf fields)
      rw [sortFields, jsonSize, jsonSize, JsonEncodable, JsonEncodable, ← hsize, ← hencodable,
        ← hlength, hperm.length_eq, fieldSizes_eq, fieldSizes_eq, (hperm.map fieldSize).sum_nat,
        fieldsEncodable_iff, fieldsEncodable_iff]
      refine ⟨rfl, ?_⟩
      simp only [hperm.mem_iff]

theorem sortItems_spec : ∀ items : List JsonValue,
    itemSizes (sortFieldsItems items) = itemSizes items ∧
      (ItemsEncodable (sortFieldsItems items) ↔ ItemsEncodable items) ∧
        (sortFieldsItems items).length = items.length
  | [] => ⟨rfl, Iff.rfl, rfl⟩
  | j :: items => by
      obtain ⟨hsize, hencodable⟩ := sortFields_spec j
      obtain ⟨hsizes, hencodables, hlength⟩ := sortItems_spec items
      rw [sortFieldsItems, itemSizes, itemSizes, ItemsEncodable, ItemsEncodable, hsize, hencodable,
        hsizes, hencodables, List.length_cons, List.length_cons, hlength]
      exact ⟨rfl, Iff.rfl, rfl⟩

theorem sortFieldsOf_spec : ∀ fields : List (Text × JsonValue),
    fieldSizes (sortFieldsOf fields) = fieldSizes fields ∧
      (FieldsEncodable (sortFieldsOf fields) ↔ FieldsEncodable fields) ∧
        (sortFieldsOf fields).length = fields.length
  | [] => ⟨rfl, Iff.rfl, rfl⟩
  | (name, j) :: fields => by
      obtain ⟨hsize, hencodable⟩ := sortFields_spec j
      obtain ⟨hsizes, hencodables, hlength⟩ := sortFieldsOf_spec fields
      rw [sortFieldsOf, fieldSizes, fieldSizes, FieldsEncodable, FieldsEncodable, hsize, hencodable,
        hsizes, hencodables, List.length_cons, List.length_cons, hlength]
      exact ⟨rfl, Iff.rfl, rfl⟩

end

end ShejaneRuntime.ToolResults
