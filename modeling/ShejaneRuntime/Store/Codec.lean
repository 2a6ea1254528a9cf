import Mathlib.Data.String.Basic

/-!
# JSON values and text

Payload columns hold JSON text. Text is compared only for equality and
always parsed back to the value it encodes, so a column holds the value
whose text `encode_payload` writes: the one with its fields sorted.
-/

namespace ShejaneRuntime.Store

inductive Json where
  | null
  | bool (b : Bool)
  | num (n : ℤ)
  | real (repr : String)
  | str (s : String)
  | arr (items : List Json)
  | obj (fields : List (String × Json))
  deriving Inhabited

namespace Json

/-! ## Decidable equality -/

mutual

def beq : Json → Json → Bool
  | null, null => true
  | bool a, bool b => a == b
  | num a, num b => a == b
  | real a, real b => a == b
  | str a, str b => a == b
  | arr xs, arr ys => beqItems xs ys
  | obj xs, obj ys => beqFields xs ys
  | _, _ => false

def beqItems : List Json → List Json → Bool
  | [], [] => true
  | x :: xs, y :: ys => beq x y && beqItems xs ys
  | _, _ => false

def beqFields : List (String × Json) → List (String × Json) → Bool
  | [], [] => true
  | (k, x) :: xs, (l, y) :: ys => k == l && beq x y && beqFields xs ys
  | _, _ => false

end

mutual

theorem eq_of_beq : ∀ {a b : Json}, beq a b = true → a = b
  | null, b, h => by cases b <;> simp_all [beq]
  | bool _, b, h => by cases b <;> simp_all [beq]
  | num _, b, h => by cases b <;> simp_all [beq]
  | real _, b, h => by cases b <;> simp_all [beq]
  | str _, b, h => by cases b <;> simp_all [beq]
  | arr xs, b, h => by
      cases b with
      | arr ys =>
          have hitems : beqItems xs ys = true := by simpa [beq] using h
          rw [eq_of_beqItems hitems]
      | _ => simp [beq] at h
  | obj xs, b, h => by
      cases b with
      | obj ys =>
          have hfields : beqFields xs ys = true := by simpa [beq] using h
          rw [eq_of_beqFields hfields]
      | _ => simp [beq] at h

theorem eq_of_beqItems : ∀ {xs ys : List Json}, beqItems xs ys = true → xs = ys
  | [], ys, h => by cases ys <;> simp_all [beqItems]
  | x :: xs, ys, h => by
      cases ys with
      | nil => simp [beqItems] at h
      | cons y ys =>
          have hpair : beq x y = true ∧ beqItems xs ys = true := by simpa [beqItems] using h
          rw [eq_of_beq hpair.1, eq_of_beqItems hpair.2]

theorem eq_of_beqFields : ∀ {xs ys : List (String × Json)}, beqFields xs ys = true → xs = ys
  | [], ys, h => by cases ys <;> simp_all [beqFields]
  | (k, x) :: xs, ys, h => by
      cases ys with
      | nil => simp [beqFields] at h
      | cons p ys =>
          obtain ⟨l, y⟩ := p
          have hparts : (k = l ∧ beq x y = true) ∧ beqFields xs ys = true := by
            simpa [beqFields] using h
          rw [hparts.1.1, eq_of_beq hparts.1.2, eq_of_beqFields hparts.2]

end

mutual

theorem beq_self : ∀ a : Json, beq a a = true
  | null => by simp [beq]
  | bool _ => by simp [beq]
  | num _ => by simp [beq]
  | real _ => by simp [beq]
  | str _ => by simp [beq]
  | arr xs => by simpa [beq] using beqItems_self xs
  | obj xs => by simpa [beq] using beqFields_self xs

theorem beqItems_self : ∀ xs : List Json, beqItems xs xs = true
  | [] => by simp [beqItems]
  | x :: xs => by simp [beqItems, beq_self x, beqItems_self xs]

theorem beqFields_self : ∀ xs : List (String × Json), beqFields xs xs = true
  | [] => by simp [beqFields]
  | (_, x) :: xs => by simp [beqFields, beq_self x, beqFields_self xs]

end

instance : DecidableEq Json := fun a b ↦
  decidable_of_iff (beq a b = true) ⟨eq_of_beq, fun h ↦ h ▸ beq_self a⟩

/-! ## Reading values -/

/-- `value.get(key)` on a dict; `none` on anything else. -/
def get? (j : Json) (key : String) : Option Json :=
  match j with
  | obj fields => (fields.find? fun p ↦ p.1 == key).map Prod.snd
  | _ => none

/-- Whether Python takes the value for true. -/
def truthy : Json → Bool
  | null => false
  | bool b => b
  | num n => n != 0
  | real r => r != "0.0" && r != "-0.0"
  | str s => s != ""
  | arr items => !items.isEmpty
  | obj fields => !fields.isEmpty

/-- `str(value or "")` for a value that is absent or a scalar. -/
def textOrEmpty : Option Json → String
  | none => ""
  | some j =>
    if j.truthy then
      match j with
      | str s => s
      | num n => toString n
      | real r => r
      | bool _ => "True"
      | _ => ""
    else ""

/-- `default or value` on a dict: the empty dict for everything falsy. -/
def orEmpty : Option Json → Json
  | some j => if j.truthy then j else obj []
  | none => obj []

/-! ## Canonical form -/

def insertField (kv : String × Json) : List (String × Json) → List (String × Json)
  | [] => [kv]
  | kv' :: rest => if kv.1 < kv'.1 then kv :: kv' :: rest else kv' :: insertField kv rest

mutual

/-- The value with the fields of every dict in key order. -/
def sorted : Json → Json
  | arr items => arr (sortedItems items)
  | obj fields => obj (sortedFields fields)
  | j => j

def sortedItems : List Json → List Json
  | [] => []
  | j :: rest => j.sorted :: sortedItems rest

def sortedFields : List (String × Json) → List (String × Json)
  | [] => []
  | (k, j) :: rest => insertField (k, j.sorted) (sortedFields rest)

end

theorem find?_insertField_ne {kv : String × Json} {key : String} (h : kv.1 ≠ key)
    (fields : List (String × Json)) :
    (insertField kv fields).find? (fun p ↦ p.1 == key) = fields.find? fun p ↦ p.1 == key := by
  induction fields with
  | nil => simp [insertField, h]
  | cons kv' rest ih =>
      unfold insertField
      split
      · simp [h]
      · rw [List.find?_cons, List.find?_cons, ih]

theorem find?_insertField_self {key : String} {value : Json} {fields : List (String × Json)}
    (h : fields.find? (fun p ↦ p.1 == key) = none) :
    (insertField (key, value) fields).find? (fun p ↦ p.1 == key) = some (key, value) := by
  induction fields with
  | nil => simp [insertField]
  | cons kv' rest ih =>
      have hne : (kv'.1 == key) = false := by
        have hnone := List.find?_eq_none.mp h kv' (by simp)
        simpa using hnone
      have hrest : rest.find? (fun p ↦ p.1 == key) = none := by
        rw [List.find?_cons, hne] at h
        exact h
      unfold insertField
      split
      · simp
      · rw [List.find?_cons, hne]
        exact ih hrest

/-- Sorting keeps the value of a key that occurs once. -/
theorem find?_sortedFields {fields : List (String × Json)} {key : String}
    (h : (fields.filter fun p ↦ p.1 == key).length ≤ 1) :
    (sortedFields fields).find? (fun p ↦ p.1 == key) =
      (fields.find? fun p ↦ p.1 == key).map fun p ↦ (p.1, p.2.sorted) := by
  induction fields with
  | nil => rfl
  | cons kv rest ih =>
      obtain ⟨k, value⟩ := kv
      rw [sortedFields]
      by_cases hk : k = key
      · subst hk
        have hnone : rest.filter (fun p ↦ p.1 == k) = [] := by
          rw [List.filter_cons_of_pos (by simp), List.length_cons] at h
          exact List.length_eq_zero_iff.mp (by omega)
        have habsent : rest.find? (fun p ↦ p.1 == k) = none :=
          List.find?_eq_none.mpr fun p hp ↦ List.filter_eq_nil_iff.mp hnone p hp
        have hrest := ih (by simp [hnone])
        rw [habsent] at hrest
        rw [find?_insertField_self hrest]
        simp
      · rw [List.filter_cons_of_neg (by simpa using hk)] at h
        rw [find?_insertField_ne hk, ih h]
        simp [hk]

/-- A field of a dict whose key occurs once reads the same after sorting. -/
theorem get?_sorted {fields : List (String × Json)} {key : String}
    (h : (fields.filter fun p ↦ p.1 == key).length ≤ 1) :
    (sorted (obj fields)).get? key = ((obj fields).get? key).map sorted := by
  rw [sorted, get?, find?_sortedFields h, get?, Option.map_map, Option.map_map]
  rfl

/-! ## Encoded size -/

/-- The bytes a character takes inside an encoded string. -/
def charSize (c : Char) : ℕ :=
  if c = '"' ∨ c = '\\' ∨ c = '\n' ∨ c = '\r' ∨ c = '\t' ∨ c.toNat = 8 ∨ c.toNat = 12 then 2
  else if c.toNat < 32 then 6
  else c.utf8Size

def textSize (s : String) : ℕ := (s.toList.map charSize).foldr (· + ·) 2

mutual

/-- The length in bytes of the text `encode_payload` writes. -/
def byteSize : Json → ℕ
  | null => 4
  | bool true => 4
  | bool false => 5
  | num n => (toString n).length
  | real repr => repr.length
  | str s => textSize s
  | arr items => byteSizeItems items + max items.length 1 + 1
  | obj fields => byteSizeFields fields + max fields.length 1 + 1

def byteSizeItems : List Json → ℕ
  | [] => 0
  | j :: rest => j.byteSize + byteSizeItems rest

def byteSizeFields : List (String × Json) → ℕ
  | [] => 0
  | (k, j) :: rest => textSize k + 1 + j.byteSize + byteSizeFields rest

end

end Json

def encodePayload (payload : Json) : Json := payload.sorted

/-- Parse a payload column; anything but a dict counts as the empty dict. -/
def jsonPayload : Option Json → Json
  | some (.obj fields) => .obj fields
  | _ => .obj []

/-! ## Text -/

/-- The characters `str.split` separates words at. -/
def isPySpace (c : Char) : Bool :=
  let n := c.toNat
  (9 ≤ n && n ≤ 13) || (28 ≤ n && n ≤ 32) || n == 0x85 || n == 0xA0 || n == 0x1680 ||
    (0x2000 ≤ n && n ≤ 0x200A) || n == 0x2028 || n == 0x2029 || n == 0x202F || n == 0x205F ||
    n == 0x3000

def pySplitChars : List Char → List Char → List (List Char)
  | [], word => if word.isEmpty then [] else [word.reverse]
  | c :: cs, word =>
    if isPySpace c then
      if word.isEmpty then pySplitChars cs [] else word.reverse :: pySplitChars cs []
    else pySplitChars cs (c :: word)

/-- `" ".join(text.split())[:limit]` -/
def squeeze (text : String) (limit : ℕ) : String :=
  String.ofList (((pySplitChars text.toList []).intersperse [' ']).flatten.take limit)

/-- `text.strip()` -/
def pyStrip (text : String) : String :=
  String.ofList ((text.toList.dropWhile isPySpace).reverse.dropWhile isPySpace).reverse

/-- `text.startswith(pre)` -/
def pyStartsWith (text pre : String) : Bool := pre.toList.isPrefixOf text.toList

/-- `first or second` on optional text -/
def textOr (first : Option String) (second : String) : String :=
  match first with
  | some s => if s = "" then second else s
  | none => second

example : squeeze "  a \t b\n" 80 = "a b" := by decide

end ShejaneRuntime.Store
