import IamKeeper.Xml.Basic
import IamKeeper.Xml.Token

namespace IamKeeper.Xml

/-- An element by its opening tag. It reaches to the first closing tag that is equal to its own, with the same name
and as many open elements around it, and without one to the end. -/
structure Element where
  tag : Tag
  isEmpty : Bool
deriving Repr, DecidableEq

/-- The name of an element without its space. -/
def Element.name (e : Element) : String :=
  String.ofList e.tag.name.name

/-- The element at the front, and the tokens behind its opening tag. -/
def front? : List Token → Option (Element × List Token)
  | .opening tag isEmpty true :: rest => some (⟨tag, isEmpty⟩, rest)
  | _ => none

/-- The tokens behind the first closing tag that is equal to a tag. -/
def behindClosing (tag : Tag) : List Token → List Token
  | [] => []
  | .closing found :: rest => if found = tag then rest else behindClosing tag rest
  | _ :: rest => behindClosing tag rest

/-- The text at the front of what stands in the element with a tag. Where nothing stands the text is
empty; an element is no text. -/
def textWithin (tag : Tag) : List Token → Option String
  | [] => some ""
  | .text content :: _ => content
  | .closing found :: rest => if found = tag then some "" else textWithin tag rest
  | .opening _ _ _ :: _ | .malformed :: _ => none

/-- The next element in the element with a tag, and the tokens behind its opening tag; without one,
the tokens behind the outer element. An opening tag that is not readable hides the rest of the
element that it stands in. -/
def nextWithin (tag : Tag) : List Token → Option Element × List Token
  | [] | .malformed :: _ => (none, [])
  | .text _ :: rest => nextWithin tag rest
  | .closing found :: rest => if found = tag then (none, rest) else nextWithin tag rest
  | .opening found isEmpty true :: rest => (some ⟨found, isEmpty⟩, rest)
  | .opening _ _ false :: rest => (none, behindClosing tag rest)

namespace Element

def behind (e : Element) (tokens : List Token) : List Token :=
  if e.isEmpty then tokens else behindClosing e.tag tokens

def text? (e : Element) (tokens : List Token) : Option String :=
  if e.isEmpty then some "" else textWithin e.tag tokens

def next (e : Element) (tokens : List Token) : Option Element × List Token :=
  if e.isEmpty then (none, tokens) else nextWithin e.tag tokens

/-- Finds the members of known names among at most `limit` elements. Gives the tokens behind the
outer element too, for a member can reach further than that. -/
def members : (limit : Nat) → (known : List (String × Shape)) → Element → List Token →
    List (String × Content) × List Token
  | 0, _, _, _ => ([], [])
  | limit + 1, known, e, tokens =>
    match e.next tokens with
    | (none, rest) => ([], rest)
    | (some inner, rest) =>
      match known.lookup inner.name with
      | none => members limit known e (inner.behind rest)
      | some .text =>
        let (found, behind) := members limit known e (inner.behind rest)
        ((inner.name, .text (inner.text? rest)) :: found, behind)
      | some (.members deeper) =>
        let (within, rest) := members limit deeper inner rest
        let (found, behind) := members limit known e rest
        ((inner.name, .members within) :: found, behind)

def find (known : List (String × Shape)) (e : Element) (tokens : List Token) :
    List (String × Content) :=
  (e.members (tokens.length + 1) known tokens).1

end Element

end IamKeeper.Xml
