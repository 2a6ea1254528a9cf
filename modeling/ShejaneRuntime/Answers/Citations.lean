import Mathlib.Data.List.Infix
import Mathlib.Data.List.Sort
import ShejaneRuntime.Lib.OrderedMap
import ShejaneRuntime.Lib.Splice
import ShejaneRuntime.Store.Codec

/-!
# The text of an answer

The content of an assistant message as text: the citations of its blocks are
inserted as numbered links, and the pages cited or consulted are listed under
it. Contents come from the provider, so every part of them may be any value.
-/

namespace ShejaneRuntime.Answers

open Lib Store

/-- What the text takes from the standard library: scheme and host of a URL, nothing where
`urlparse` raises, and `str` of a value that is not a text. -/
structure Library where
  urlparse : String → Option (String × String)
  isspace : Char → Bool
  str : Json → String
  urlparse_empty : urlparse "" = some ("", "")

inductive Failure where
  | valueError
  | typeError
  deriving DecidableEq

section Model

variable (library : Library)

/-- `str(value or "")` -/
def Library.strOr (value : Option Json) : String :=
  match value with
  | none => ""
  | some (.str s) => s
  | some j => if j.truthy then library.str j else ""

/-- `_safe_source_url` -/
def safeSourceUrl (value : Option Json) : Except Failure (Option String) :=
  let url := library.strOr value
  match library.urlparse url with
  | none => .error .valueError
  | some (scheme, netloc) =>
      let unfit := !(scheme = "http" || scheme = "https") || netloc = "" ||
        url.toList.any library.isspace || url.toList.contains '<' || url.toList.contains '>'
      .ok (if unfit then none else some url)

/-- Whether an annotation is a citation; a list or dict as its type has no hash. -/
def isCitation (note : Json) : Except Failure Bool :=
  match note with
  | .obj _ =>
      match note.get? "type" with
      | some (.arr _) => .error .typeError
      | some (.obj _) => .error .typeError
      | some (.str type) => .ok (type = "citation" || type = "url_citation")
      | _ => .ok false
  | _ => .ok false

/-- Where the marker of an annotation goes: at the end where it names no position of the text. -/
def citedPosition (text : String) (note : Json) : ℕ :=
  match note.get? "end_index" with
  | some (.num n) => if 0 ≤ n ∧ n ≤ text.length then n.toNat else text.length
  | _ => text.length

def marker (number : ℕ) (url : String) : String :=
  " [\\[" ++ toString number ++ "\\]](<" ++ url ++ ">)"

/-- The dicts of a block's citations, and the numbers of the pages cited so far. -/
structure Citing where
  inserted : List (ℕ × String) := []
  insertions : List (ℕ × List String) := []
  sourceNumbers : List (String × ℕ)

def Citing.markersAt (c : Citing) (position : ℕ) : List String :=
  ((OrderedMap.get? Prod.fst c.insertions position).map Prod.snd).getD []

def Citing.cite (c : Citing) (position : ℕ) (url : String) : Citing :=
  let sourceNumbers :=
    OrderedMap.setdefault Prod.fst c.sourceNumbers (url, c.sourceNumbers.length + 1)
  let number := ((OrderedMap.get? Prod.fst sourceNumbers url).map Prod.snd).getD 0
  { inserted := c.inserted ++ [(position, url)]
    insertions := OrderedMap.set Prod.fst c.insertions
      (position, c.markersAt position ++ [marker number url])
    sourceNumbers := sourceNumbers }

def citeNote (text : String) (c : Citing) (note : Json) : Except Failure Citing := do
  if ← isCitation note then
    match ← safeSourceUrl library (note.get? "url") with
    | none => pure c
    | some url =>
        let position := citedPosition text note
        if url.toList <:+: text.toList || (position, url) ∈ c.inserted then pure c
        else pure (c.cite position url)
  else pure c

/-- `_text_block_with_citations` -/
def textBlockWithCitations (block : Json) (sourceNumbers : List (String × ℕ)) :
    Except Failure (String × List (String × ℕ)) := do
  let text := library.strOr (block.get? "text")
  match block.get? "annotations" with
  | some (.arr annotations) =>
      let c ← annotations.foldlM (citeNote library text) { sourceNumbers := sourceNumbers }
      let positions := (c.insertions.map Prod.fst).insertionSort (· ≥ ·)
      let inserted position := (c.markersAt position).flatMap String.toList
      pure (String.ofList (spliceAll inserted positions text.toList), c.sourceNumbers)
  | _ => pure (text, sourceNumbers)

/-- What has been read of a content. -/
structure Reading where
  parts : List String := []
  sourceNumbers : List (String × ℕ) := []
  consulted : List String := []

def consultSource (consulted : List String) (source : Json) : Except Failure (List String) :=
  match source with
  | .obj _ => do
      match ← safeSourceUrl library (source.get? "url") with
      | some url => pure (if url = "" then consulted else OrderedMap.setdefault id consulted url)
      | none => pure consulted
  | _ => pure consulted

/-- The pages a search looked at. -/
def searchSources (item : Json) : List Json :=
  match item.get? "action" with
  | some action =>
      match action.get? "sources" with
      | some (.arr sources) => sources
      | _ => []
  | none => []

def readItem (reading : Reading) (item : Json) : Except Failure Reading :=
  match item with
  | .obj _ =>
      if item.get? "type" = some (.str "text") then do
        let (text, sourceNumbers) ←
          textBlockWithCitations library item reading.sourceNumbers
        pure { reading with parts := reading.parts ++ [text], sourceNumbers := sourceNumbers }
      else if item.get? "type" = some (.str "web_search_call") then do
        let consulted ← (searchSources item).foldlM (consultSource library) reading.consulted
        pure { reading with consulted := consulted }
      else pure reading
  | .str text => pure { reading with parts := reading.parts ++ [text] }
  | _ => pure reading

/-- `dict.fromkeys` -/
def fromkeys (urls : List String) : List String := urls.foldl (OrderedMap.setdefault id) []

/-- An answer with its sources under it. -/
def withSources (answer : String) (sources : List String) : String :=
  if sources.isEmpty then answer
  else
    let sourceList := "\n".intercalate
      ((sources.zipIdx 1).map fun (url, number) ↦ toString number ++ ". <" ++ url ++ ">")
    if answer = "" then "### Sources\n\n" ++ sourceList
    else answer ++ "\n\n### Sources\n\n" ++ sourceList

/-- `_assistant_content_text` -/
def assistantContentText (content : Json) : Except Failure String :=
  match content with
  | .str text => pure text
  | .arr items => do
      let reading ← items.foldlM (readItem library) {}
      let sources := fromkeys (reading.sourceNumbers.map Prod.fst ++ reading.consulted)
      pure (withSources (String.join reading.parts) sources)
  | _ => pure ""

end Model

end ShejaneRuntime.Answers
