import Mathlib
import ShejaneRuntime.Lib.CodePoints

/-!
# Python values as JSON

What `json.dumps` makes of a value and the text it writes. A tuple becomes a
list, numbers and `None` become texts as keys, and what is no JSON is refused.
-/

namespace ShejaneRuntime.ToolResults

open Lib

/-- The key of a dict. A number is given by the text it is written as. -/
inductive Key where
  | str (s : Text)
  | number (shown : Text)
  | none
  | other
  deriving DecidableEq

/-- A Python value, as far as the codec tells values apart; its messages are of
type `M`. Floats are given by the text they are written as, and any other object
by the name of its type and its `str`. -/
inductive PyValue (M : Type) where
  | none
  | bool (b : Bool)
  | int (n : ℤ)
  | float (shown : Text)
  | str (s : Text)
  | list (items : List (PyValue M))
  | tuple (items : List (PyValue M))
  | dict (items : List (Key × PyValue M))
  | message (m : M)
  | object (kind shown : Text)

/-- A value without messages. -/
abbrev PyData := PyValue Empty

/-- What a JSON text is read as. The order of the fields of an object is not part
of the value. -/
inductive JsonValue where
  | null
  | bool (b : Bool)
  | int (n : ℤ)
  | float (shown : Text)
  | str (s : Text)
  | arr (items : List JsonValue)
  | obj (fields : List (Text × JsonValue))

/-! ## From a value to JSON -/

/-- `sys.int_info.default_max_str_digits`: longer integers are not written. -/
def maxStrDigits : ℕ := 4300

def Writable (n : ℤ) : Prop := (Nat.toDigits 10 n.natAbs).length ≤ maxStrDigits

instance (n : ℤ) : Decidable (Writable n) := inferInstanceAs (Decidable (_ ≤ _))

/-- The text that `json.dumps` writes for a key. -/
def Key.text : Key → Option Text
  | str s => some s
  | number shown => some shown
  | none => some (Text.ofString "null")
  | other => Option.none

def Key.isStr : Key → Bool
  | str _ => true
  | _ => false

def Key.isNumber : Key → Bool
  | number _ => true
  | _ => false

/-- The keys can be sorted: `sort_keys` compares them. -/
def sortable (keys : List Key) : Bool :=
  keys.all Key.isStr || keys.all Key.isNumber || keys.length ≤ 1

mutual

/-- The JSON that `json.dumps` writes, or nothing where it raises. -/
def toJson (sortKeys : Bool) : PyData → Option JsonValue
  | .none => some .null
  | .bool b => some (.bool b)
  | .int n => if Writable n then some (.int n) else none
  | .float shown => some (.float shown)
  | .str s => some (.str s)
  | .list items => (toJsonItems sortKeys items).map .arr
  | .tuple items => (toJsonItems sortKeys items).map .arr
  | .dict items =>
    if sortKeys = true ∧ sortable (items.map Prod.fst) = false then none
    else (toJsonFields sortKeys items).map .obj
  | .object _ _ => none

def toJsonItems (sortKeys : Bool) : List PyData → Option (List JsonValue)
  | [] => some []
  | v :: items => do
    let j ← toJson sortKeys v
    let rest ← toJsonItems sortKeys items
    return j :: rest

def toJsonFields (sortKeys : Bool) : List (Key × PyData) → Option (List (Text × JsonValue))
  | [] => some []
  | (key, v) :: items => do
    let name ← key.text
    let j ← toJson sortKeys v
    let rest ← toJsonFields sortKeys items
    return (name, j) :: rest

end

mutual

/-- `default=str`: an object stands as its text. -/
def withDefaultStr : PyData → PyData
  | .object _ shown => .str shown
  | .list items => .list (withDefaultStrItems items)
  | .tuple items => .tuple (withDefaultStrItems items)
  | .dict items => .dict (withDefaultStrFields items)
  | v => v

def withDefaultStrItems : List PyData → List PyData
  | [] => []
  | v :: items => withDefaultStr v :: withDefaultStrItems items

def withDefaultStrFields : List (Key × PyData) → List (Key × PyData)
  | [] => []
  | (key, v) :: items => (key, withDefaultStr v) :: withDefaultStrFields items

end

mutual

/-- The value that `json.loads` gives. -/
def ofJson : JsonValue → PyData
  | .null => .none
  | .bool b => .bool b
  | .int n => .int n
  | .float shown => .float shown
  | .str s => .str s
  | .arr items => .list (ofJsonItems items)
  | .obj fields => .dict (ofJsonFields fields)

def ofJsonItems : List JsonValue → List PyData
  | [] => []
  | j :: items => ofJson j :: ofJsonItems items

def ofJsonFields : List (Text × JsonValue) → List (Key × PyData)
  | [] => []
  | (name, j) :: fields => (.str name, ofJson j) :: ofJsonFields fields

end

/-! ## The text of JSON -/

def hexDigit (n : ℕ) : CodePoint := CodePoint.ofChar (Nat.digitChar n)

/-- The text of a code point inside a string, with `ensure_ascii=False`. -/
def escape (c : CodePoint) : Text :=
  if c.val = 0x22 then Text.ofString "\\\""
  else if c.val = 0x5C then Text.ofString "\\\\"
  else if c.val = 0x0A then Text.ofString "\\n"
  else if c.val = 0x0D then Text.ofString "\\r"
  else if c.val = 0x09 then Text.ofString "\\t"
  else if c.val = 0x08 then Text.ofString "\\b"
  else if c.val = 0x0C then Text.ofString "\\f"
  else if c.val < 0x20 then
    Text.ofString "\\u00" ++ [hexDigit (c.val / 16), hexDigit (c.val % 16)]
  else [c]

def quoted (s : Text) : Text := Text.ofString "\"" ++ s.flatMap escape ++ Text.ofString "\""

/-- The `separators` of a text. -/
structure Separators where
  item : Text
  key : Text

def compact : Separators := ⟨Text.ofString ",", Text.ofString ":"⟩

def spaced : Separators := ⟨Text.ofString ", ", Text.ofString ": "⟩

def intText (n : ℤ) : Text := Text.ofString (toString n)

mutual

def dumps (sep : Separators) : JsonValue → Text
  | .null => Text.ofString "null"
  | .bool true => Text.ofString "true"
  | .bool false => Text.ofString "false"
  | .int n => intText n
  | .float shown => shown
  | .str s => quoted s
  | .arr items => Text.ofString "[" ++ sep.item.intercalate (dumpsItems sep items) ++
      Text.ofString "]"
  | .obj fields => Text.ofString "\x7b" ++ sep.item.intercalate (dumpsFields sep fields) ++
      Text.ofString "\x7d"

def dumpsItems (sep : Separators) : List JsonValue → List Text
  | [] => []
  | j :: items => dumps sep j :: dumpsItems sep items

def dumpsFields (sep : Separators) : List (Text × JsonValue) → List Text
  | [] => []
  | (name, j) :: fields => (quoted name ++ sep.key ++ dumps sep j) :: dumpsFields sep fields

end

mutual

/-- The fields of every object in the order of their names. -/
def sortFields : JsonValue → JsonValue
  | .arr items => .arr (sortFieldsItems items)
  | .obj fields => .obj ((sortFieldsOf fields).insertionSort fun f g ↦ f.1 ≤ g.1)
  | j => j

def sortFieldsItems : List JsonValue → List JsonValue
  | [] => []
  | j :: items => sortFields j :: sortFieldsItems items

def sortFieldsOf : List (Text × JsonValue) → List (Text × JsonValue)
  | [] => []
  | (name, j) :: fields => (name, sortFields j) :: sortFieldsOf fields

end

end ShejaneRuntime.ToolResults
