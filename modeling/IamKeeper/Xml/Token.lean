import IamKeeper.Xml.Escape
import IamKeeper.Xml.Prolog

namespace IamKeeper.Xml

open Text (afterFront?)

/-- The tag of an element, with the number of open elements around it. -/
structure Tag where
  name : TagName
  depth : Nat
deriving Repr, DecidableEq

inductive Token where
  /-- The opening tag of an element; it is readable when the values of its attributes are. -/
  | opening (tag : Tag) (isEmpty isReadable : Bool)
  | closing (tag : Tag)
  /-- A stretch of text; none where an ampersand begins no escape. -/
  | text (content : Option String)
  | malformed
deriving Repr, DecidableEq

/-- The number of open elements behind a token. -/
def Token.depthBehind (depth : Nat) : Token → Nat
  | .opening tag isEmpty _ => if isEmpty then tag.depth else tag.depth + 1
  | .closing tag => tag.depth
  | .text _ | .malformed => depth

/-- Reads the value of an attribute; an opening mark cannot stand in it. -/
def readValue (s : List Char) : Option (List Char × List Char) := do
  let (value, rest) ← readQuoted s
  if value.all fun c => c != '<' && isAllowed c then some (value, rest) else none

/-- Reads what follows the name in an opening tag: at most `limit` attributes, and the end. Tells
whether the element is empty and whether all values are readable. -/
def readTagEnd : (limit : Nat) → List Char → Option (Bool × Bool × List Char)
  | limit, s =>
    match skipSpace s with
    | '>' :: rest => some (false, true, rest)
    | '/' :: '>' :: rest => some (true, true, rest)
    | _ =>
      match limit with
      | 0 => none
      | limit + 1 => do
        let (_, s) ← (behindSpace? s).bind readName
        let (value, s) ← (behindEquals? s).bind readValue
        let (isEmpty, isReadable, s) ← readTagEnd limit s
        return (isEmpty, (unescape? value).isSome && isReadable, s)

def readText (s : List Char) : Option (Token × List Char) :=
  let content := s.takeWhile (· ≠ '<')
  if content.all isAllowed && (behind? "]]>".toList content).isNone then
    some (.text ((unescape? content).map String.ofList), s.dropWhile (· ≠ '<'))
  else none

/-- Reads a token within `depth` open elements, or passes over something that says nothing. -/
def readToken (depth : Nat) : List Char → Option (Option Token × List Char)
  | '<' :: '!' :: '-' :: '-' :: s => (behindComment? s).map (none, ·)
  | '<' :: '!' :: s =>
    ((afterFront? "[CDATA[".toList s).bind (behind? "]]>".toList)).map (none, ·)
  | '<' :: '?' :: s => (behindInstruction? s).map (none, ·)
  | '<' :: '/' :: s => do
    let (name, s) ← readName s
    let s ← afterFront? ['>'] (skipSpace s)
    return (some (.closing ⟨name, depth - 1⟩), s)
  | '<' :: s => do
    let (name, s) ← readName s
    let (isEmpty, isReadable, s) ← readTagEnd s.length s
    return (some (.opening ⟨name, depth⟩ isEmpty isReadable), s)
  | s => (readText s).map fun (token, rest) => (some token, rest)

/-- The tokens behind the outermost element, where only comments, instructions and blanks stand. -/
def readEpilog (s : List Char) : List Token :=
  if skipMisc s.length s = some [] then [] else [.malformed]

/-- Reads at most `limit` tokens within `depth` open elements. -/
def readTokens : (limit depth : Nat) → List Char → List Token
  | _, _, [] | 0, _, _ => []
  | limit + 1, depth, s =>
    match readToken depth s with
    | none => [.malformed]
    | some (none, rest) => readTokens limit depth rest
    | some (some token, rest) =>
      token ::
        match token.depthBehind depth with
        | 0 => readEpilog rest
        | depth => readTokens limit depth rest

/-- The tags and texts of a document, in order. What is read stays when the document is malformed further on. Tags
are not matched here, but each knows how many elements are open around it. -/
def tokens (text : String) : List Token :=
  match behindProlog? text.toList with
  | some s => readTokens s.length 0 s
  | none => [.malformed]

end IamKeeper.Xml
