import Mathlib
import ShejaneRuntime.Lib.CodePoints

/-!
# JSON values as Python has them

What `json.loads` makes of a text. A float is the number it stands for; `true`
is an integer where numbers are compared, and lists and dicts have no hash.
-/

namespace ShejaneRuntime.Plugins

open Lib

inductive FloatValue where
  | nan
  | infinite (negative : Bool)
  | finite (q : ℚ)
  deriving DecidableEq

inductive Value where
  | null
  | bool (b : Bool)
  | int (n : ℤ)
  | float (x : FloatValue)
  | str (s : Text)
  | list (items : List Value)
  | dict (fields : List (Text × Value))

abbrev Fields := List (Text × Value)

namespace Fields

variable (fields : Fields)

def get? (key : String) : Option Value :=
  (fields.find? fun f ↦ f.1 = Text.ofString key).map Prod.snd

/-- `dict.get(key)` -/
def get (key : String) : Value := (get? fields key).getD .null

/-- `keys <= set(fields)` -/
def Includes (keys : List String) : Prop := ∀ key ∈ keys, (get? fields key).isSome

instance (keys : List String) : Decidable (Includes fields keys) :=
  inferInstanceAs (Decidable (∀ _ ∈ _, _))

/-- `not set(fields) - keys` -/
def Within (keys : List String) : Prop := ∀ f ∈ fields, f.1 ∈ keys.map Text.ofString

instance (keys : List String) : Decidable (Within fields keys) :=
  inferInstanceAs (Decidable (∀ _ ∈ _, _))

end Fields

namespace Value

def dict? : Value → Option Fields
  | dict fields => some fields
  | _ => none

def str? : Value → Option Text
  | str s => some s
  | _ => none

def list? : Value → Option (List Value)
  | list items => some items
  | _ => none

/-- `isinstance(value, int) and not isinstance(value, bool)` -/
def int? : Value → Option ℤ
  | int n => some n
  | _ => none

def isNull : Value → Bool
  | null => true
  | _ => false

/-- `value == text` -/
def isText (value : Value) (text : String) : Bool := value.str? = some (Text.ofString text)

/-- `value == n` -/
def equalsInt (value : Value) (n : ℤ) : Bool :=
  match value with
  | bool b => (if b then 1 else 0) = n
  | int m => m = n
  | float (.finite q) => q = n
  | _ => false

def hashable : Value → Bool
  | list _ => false
  | dict _ => false
  | _ => true

/-- The integers that `float` rounds beyond the greatest float. -/
def overlarge (n : ℤ) : Bool := 2 ^ 1024 - 2 ^ 970 ≤ n.natAbs

/-- An integer for which `math.isfinite` raises. -/
def Overlarge (value : Value) : Prop := ∃ n, value = int n ∧ overlarge n = true

/-- The number a finite value stands for. -/
def rational : Value → ℚ
  | int n => n
  | float (.finite q) => q
  | _ => 0

end Value

end ShejaneRuntime.Plugins
