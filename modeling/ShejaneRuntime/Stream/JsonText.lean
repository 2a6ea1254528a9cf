import Mathlib
import ShejaneRuntime.Lib.Binary64
import ShejaneRuntime.Store.Codec

/-!
# JSON as text

`json.dumps(value, ensure_ascii=False)` and the readers of its text. Everything
but quotes, backslashes and control characters stands in a string as it is, so
the text holds whatever characters the strings do. A float stands as
`float.__repr__` writes it, which both readers take back to the same double; a
whole number is exact for `json.loads` and a double for `JSON.parse`.
-/

namespace ShejaneRuntime.Stream

open Lib Store

/-! ## Writing -/

/-- The text of a character inside a string. -/
def escapeChar (c : Char) : List Char :=
  if c = '"' then ['\\', '"']
  else if c = '\\' then ['\\', '\\']
  else if c = '\n' then ['\\', 'n']
  else if c = '\r' then ['\\', 'r']
  else if c = '\t' then ['\\', 't']
  else if c.toNat = 0x08 then ['\\', 'b']
  else if c.toNat = 0x0C then ['\\', 'f']
  else if c.toNat < 0x20 then
    ['\\', 'u', '0', '0', Nat.digitChar (c.toNat / 16), Nat.digitChar (c.toNat % 16)]
  else [c]

def quote (s : String) : List Char := '"' :: (s.toList.flatMap escapeChar ++ ['"'])

def decimal : ℤ → List Char
  | .ofNat n => Nat.toDigits 10 n
  | .negSucc n => '-' :: Nat.toDigits 10 (n + 1)

mutual

def dumps : Json → List Char
  | .null => ['n', 'u', 'l', 'l']
  | .bool true => ['t', 'r', 'u', 'e']
  | .bool false => ['f', 'a', 'l', 's', 'e']
  | .num n => decimal n
  | .real repr => repr.toList
  | .str s => quote s
  | .arr [] => ['[', ']']
  | .arr (j :: items) => '[' :: (dumps j ++ dumpsItems items)
  | .obj [] => ['{', '}']
  | .obj ((key, j) :: fields) => '{' :: (quote key ++ ':' :: ' ' :: (dumps j ++ dumpsFields fields))

/-- The items after the first one, and the closing bracket. -/
def dumpsItems : List Json → List Char
  | [] => [']']
  | j :: items => ',' :: ' ' :: (dumps j ++ dumpsItems items)

/-- The fields after the first one, and the closing brace. -/
def dumpsFields : List (String × Json) → List Char
  | [] => ['}']
  | (key, j) :: fields =>
    ',' :: ' ' :: (quote key ++ ':' :: ' ' :: (dumps j ++ dumpsFields fields))

end

/-! ## Reading -/

def isWhitespace (c : Char) : Bool := c = ' ' || c = '\t' || c = '\n' || c = '\r'

def skipWhitespace (text : List Char) : List Char := text.dropWhile isWhitespace

def unescape (c : Char) : Option Char :=
  if c = '"' ∨ c = '\\' ∨ c = '/' then some c
  else if c = 'n' then some '\n'
  else if c = 'r' then some '\r'
  else if c = 't' then some '\t'
  else if c = 'b' then some (Char.ofNat 0x08)
  else if c = 'f' then some (Char.ofNat 0x0C)
  else none

def hexValue (c : Char) : Option ℕ :=
  if c.isDigit then some (c.toNat - '0'.toNat)
  else if 'a' ≤ c ∧ c ≤ 'f' then some (c.toNat - 'a'.toNat + 10)
  else if 'A' ≤ c ∧ c ≤ 'F' then some (c.toNat - 'A'.toNat + 10)
  else none

/-- The character of a `\u` escape. Surrogates are read one by one: what
`json.dumps` writes has none. -/
def unescapeHex (a b c d : Char) : Option Char := do
  let a ← hexValue a
  let b ← hexValue b
  let c ← hexValue c
  let d ← hexValue d
  return Char.ofNat (((a * 16 + b) * 16 + c) * 16 + d)

/-- The characters of a string up to its closing quote, and what follows. -/
def readString : List Char → Option (List Char × List Char)
  | [] => none
  | '"' :: text => some ([], text)
  | '\\' :: 'u' :: a :: b :: c :: d :: text =>
    match unescapeHex a b c d with
    | none => none
    | some ch => (readString text).map fun r ↦ (ch :: r.1, r.2)
  | '\\' :: e :: text =>
    match unescape e with
    | none => none
    | some ch => (readString text).map fun r ↦ (ch :: r.1, r.2)
  | c :: text =>
    if c = '\\' ∨ c.toNat < 0x20 then none
    else (readString text).map fun r ↦ (c :: r.1, r.2)

/-- The characters of numbers and of the three words. -/
def isAtomChar (c : Char) : Bool := c.isAlphanum || c = '-' || c = '+' || c = '.'

/-- Digits without a leading zero. -/
def isNat (digits : List Char) : Bool :=
  !digits.isEmpty && digits.all Char.isDigit && (digits.head? != some '0' || digits.length == 1)

def isExponent : List Char → Bool
  | [] => true
  | e :: text =>
    let digits := if text.head? = some '-' ∨ text.head? = some '+' then text.drop 1 else text
    (e = 'e' || e = 'E') && !digits.isEmpty && digits.all Char.isDigit

/-- A number with a fraction or an exponent. -/
def isFloat (token : List Char) : Bool :=
  let text := if token.head? = some '-' then token.drop 1 else token
  let rest := text.dropWhile Char.isDigit
  isNat (text.takeWhile Char.isDigit) &&
    match rest with
    | [] => false
    | '.' :: rest =>
      !(rest.takeWhile Char.isDigit).isEmpty && isExponent (rest.dropWhile Char.isDigit)
    | rest => isExponent rest

def readInt (token : List Char) : Option ℤ :=
  match token with
  | '-' :: digits => if isNat digits then some (-Nat.ofDigitChars 10 digits 0 : ℤ) else none
  | digits => if isNat digits then some (Nat.ofDigitChars 10 digits 0 : ℤ) else none

def atomOf (token : List Char) : Option Json :=
  if token = ['n', 'u', 'l', 'l'] then some .null
  else if token = ['t', 'r', 'u', 'e'] then some (.bool true)
  else if token = ['f', 'a', 'l', 's', 'e'] then some (.bool false)
  else
    match readInt token with
    | some n => some (.num n)
    | none => if isFloat token then some (.real (String.ofList token)) else none

def readAtom (text : List Char) : Option (Json × List Char) :=
  (atomOf (text.takeWhile isAtomChar)).map fun j ↦ (j, text.dropWhile isAtomChar)

mutual

/-- The value that a text begins with, and what follows it. A text names each
key once, as a dict has it. -/
def readValue : ℕ → List Char → Option (Json × List Char)
  | 0, _ => none
  | _ + 1, '"' :: text => (readString text).map fun r ↦ (.str (String.ofList r.1), r.2)
  | fuel + 1, '[' :: text =>
    match skipWhitespace text with
    | ']' :: rest => some (.arr [], rest)
    | text =>
      match readValue fuel text with
      | none => none
      | some (j, rest) =>
        (readItems fuel (skipWhitespace rest)).map fun r ↦ (.arr (j :: r.1), r.2)
  | fuel + 1, '{' :: text =>
    match skipWhitespace text with
    | '}' :: rest => some (.obj [], rest)
    | text =>
      match readField fuel text with
      | none => none
      | some (field, rest) =>
        (readFields fuel (skipWhitespace rest)).map fun r ↦ (.obj (field :: r.1), r.2)
  | _ + 1, text => readAtom text

def readItems : ℕ → List Char → Option (List Json × List Char)
  | fuel + 1, ',' :: text =>
    match readValue fuel (skipWhitespace text) with
    | none => none
    | some (j, rest) => (readItems fuel (skipWhitespace rest)).map fun r ↦ (j :: r.1, r.2)
  | _ + 1, ']' :: rest => some ([], rest)
  | _, _ => none

def readField : ℕ → List Char → Option ((String × Json) × List Char)
  | fuel + 1, '"' :: text =>
    match readString text with
    | none => none
    | some (key, rest) =>
      match skipWhitespace rest with
      | ':' :: rest =>
        (readValue fuel (skipWhitespace rest)).map fun r ↦ ((String.ofList key, r.1), r.2)
      | _ => none
  | _, _ => none

def readFields : ℕ → List Char → Option (List (String × Json) × List Char)
  | fuel + 1, ',' :: text =>
    match readField fuel (skipWhitespace text) with
    | none => none
    | some (field, rest) =>
      (readFields fuel (skipWhitespace rest)).map fun r ↦ (field :: r.1, r.2)
  | _ + 1, '}' :: rest => some ([], rest)
  | _, _ => none

end

/-- `json.loads(text)`: the whole text is one value. Each character is looked at
no more than twice. -/
def loads (text : List Char) : Option Json :=
  match readValue (2 * text.length + 2) (skipWhitespace text) with
  | some (j, rest) => if skipWhitespace rest = [] then some j else none
  | none => none

/-- A whole number as JavaScript keeps it. -/
def jsNumber (n : ℤ) : Json :=
  if Binary64.round n.natAbs < Binary64.overflow then .num (n.sign * Binary64.round n.natAbs)
  else .real (if n < 0 then "-Infinity" else "Infinity")

mutual

def asDoubles : Json → Json
  | .num n => jsNumber n
  | .arr items => .arr (asDoublesItems items)
  | .obj fields => .obj (asDoublesFields fields)
  | j => j

def asDoublesItems : List Json → List Json
  | [] => []
  | j :: items => asDoubles j :: asDoublesItems items

def asDoublesFields : List (String × Json) → List (String × Json)
  | [] => []
  | (key, j) :: fields => (key, asDoubles j) :: asDoublesFields fields

end

/-- `JSON.parse(text)`: the same values, with doubles for numbers. -/
def jsonParse (text : List Char) : Option Json := (loads text).map asDoubles

mutual

/-- The whole numbers in a value. -/
def wholeNumbers : Json → List ℤ
  | .num n => [n]
  | .arr items => wholeNumbersItems items
  | .obj fields => wholeNumbersFields fields
  | _ => []

def wholeNumbersItems : List Json → List ℤ
  | [] => []
  | j :: items => wholeNumbers j ++ wholeNumbersItems items

def wholeNumbersFields : List (String × Json) → List ℤ
  | [] => []
  | (_, j) :: fields => wholeNumbers j ++ wholeNumbersFields fields

end

mutual

/-- A value whose numbers are JSON numbers: no float is infinite or NaN. -/
def readable : Json → Bool
  | .real repr => atomOf repr.toList = some (.real repr) && repr.toList.all isAtomChar
  | .arr items => readableItems items
  | .obj fields => readableFields fields
  | _ => true

def readableItems : List Json → Bool
  | [] => true
  | j :: items => readable j && readableItems items

def readableFields : List (String × Json) → Bool
  | [] => true
  | (_, j) :: fields => readable j && readableFields fields

end

end ShejaneRuntime.Stream
