import Mathlib.Data.Nat.Notation
import Mathlib.Data.List.DropRight
import Mathlib.Data.List.Nodup
import Mathlib.Tactic.Common

/-!
# Tool names at the provider's boundary

A tool goes to the provider under a wire name: its own name where the grammar
of the provider allows it, else a sanitized one, else one with a hash. Names in
messages are rewritten through the tables of the choices and of the aliases.
-/

namespace ShejaneRuntime.ToolAliases

abbrev Name := List Char

/-- A dict, the latest assignment first. -/
abbrev Dict := List (Name × Name)

namespace Dict

def get (d : Dict) (key : Name) : Option Name := (d.find? fun item ↦ item.1 = key).map Prod.snd

def set (d : Dict) (key value : Name) : Dict := (key, value) :: d

def setdefault (d : Dict) (key value : Name) : Dict := if (d.get key).isSome then d else d.set key value

/-- `d.get(key, key)` -/
def apply (d : Dict) (key : Name) : Name := (d.get key).getD key

end Dict

/-! ## Names -/

def safeChar (c : Char) : Bool := c.isAlphanum || c = '_' || c = '-'

/-- `_SAFE_TOOL_NAME.fullmatch` -/
def isSafe (name : Name) : Bool := 1 ≤ name.length && name.length ≤ 64 && name.all safeChar

/-- `re.sub(r"[^a-zA-Z0-9_-]+", "_", ·)`; the flag says that a run has been replaced already. -/
def squash : Bool → Name → Name
  | _, [] => []
  | inRun, c :: cs =>
    if safeChar c then c :: squash false cs
    else if inRun then squash true cs
    else '_' :: squash true cs

/-- `text.strip("_")` -/
def strip (name : Name) : Name := (name.dropWhile (· = '_')).rdropWhile (· = '_')

def stem (original : Name) : Name :=
  let stripped := strip (squash false original)
  if stripped = [] then "tool".toList else stripped

def hexDigits : List Char := "0123456789abcdef".toList

/-- `hashlib.sha256(name.encode()).hexdigest()[:8]` -/
structure Digest where
  digits : Name → Name
  length : ∀ name, (digits name).length = 8
  hex : ∀ name, ∀ c ∈ digits name, c ∈ hexDigits

def legacyWireName (h : Digest) (original : Name) : Name :=
  (stem original).take 55 ++ '_' :: h.digits original

/-! ## The tools of a request -/

/-- A converted tool. Its function may lack a name. -/
structure Schema (β : Type) where
  name : Option Name
  body : β

structure Aliasing (β : Type) where
  used : List Name := []
  schemas : List (Schema β) := []
  aliases : Dict := []
  choices : Dict := []

variable {β : Type}

def reservedNames (converted : List (Schema β)) : List Name :=
  converted.filterMap fun schema ↦ schema.name.filter fun name ↦ isSafe name

/-- The sanitized name is too long, or another tool has it. -/
def Taken (reserved used : List Name) (original : Name) : Prop :=
  64 < (stem original).length ∨ stem original ∈ reserved ∨ stem original ∈ used

instance (reserved used : List Name) (original : Name) : Decidable (Taken reserved used original) := by
  unfold Taken
  infer_instance

def wireName (h : Digest) (reserved used : List Name) (original : Name) : Name :=
  if isSafe original then original
  else if Taken reserved used original then legacyWireName h original
  else stem original

def addTool (h : Digest) (reserved : List Name) (s : Aliasing β) (schema : Schema β) : Aliasing β :=
  match schema.name with
  | none => { s with schemas := s.schemas ++ [schema] }
  | some original =>
    let wire := wireName h reserved s.used original
    let aliases := s.aliases.set wire original
    { used := s.used ++ [wire]
      schemas := s.schemas ++ [{ schema with name := some wire }]
      aliases :=
        if isSafe original = false ∧ legacyWireName h original ∉ reserved then
          aliases.setdefault (legacyWireName h original) original
        else aliases
      choices := s.choices.set original wire }

/-- `provider_tools` -/
def providerTools (h : Digest) (converted : List (Schema β)) : Aliasing β :=
  converted.foldl (addTool h (reservedNames converted)) {}

/-- The names of the tools that have one. -/
def names (converted : List (Schema β)) : List Name := converted.filterMap Schema.name

/-! ## Messages -/

/-- An item of a content that is a list. -/
inductive Block where
  | text (text : String)
  | dict (type : String) (name : Option Name)

inductive Message where
  | tool (name : Option Name) (rawName : Option Name)
  | ai (content : Option (List Block)) (toolCalls invalidToolCalls toolCallChunks : List (Option Name))
      (rawCalls : List (Option (Option Name)))
  | other

def callTypes : List String := ["tool_call", "function_call", "tool_use"]

def rewriteBlock (aliases : Dict) : Block → Block
  | .dict type (some name) =>
    if type ∈ callTypes then .dict type (some (aliases.apply name)) else .dict type (some name)
  | block => block

/-- `rewrite_tool_names` -/
def rewriteToolNames (aliases : Dict) (message : Message) : Message :=
  if aliases.isEmpty then message
  else
    match message with
    | .tool name rawName => .tool (name.map aliases.apply) (rawName.map aliases.apply)
    | .ai content toolCalls invalidToolCalls toolCallChunks rawCalls =>
      .ai (content.map fun blocks ↦ blocks.map (rewriteBlock aliases))
        (toolCalls.map fun name ↦ name.map aliases.apply)
        (invalidToolCalls.map fun name ↦ name.map aliases.apply)
        (toolCallChunks.map fun name ↦ name.map aliases.apply)
        (rawCalls.map fun call ↦ call.map fun name ↦ name.map aliases.apply)
    | .other => .other

def blockNames : Block → List Name
  | .dict type (some name) => if type ∈ callTypes then [name] else []
  | _ => []

/-- The names of tools in a message. -/
def toolNames : Message → List Name
  | .tool name rawName => name.toList ++ rawName.toList
  | .ai content toolCalls invalidToolCalls toolCallChunks rawCalls =>
    (content.getD []).flatMap blockNames ++
      (toolCalls ++ invalidToolCalls ++ toolCallChunks ++ rawCalls.map Option.join).filterMap id
  | .other => []

end ShejaneRuntime.ToolAliases
