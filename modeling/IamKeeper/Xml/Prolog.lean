import IamKeeper.Xml.Name

namespace IamKeeper.Xml

open Text (afterFront?)

/-- Passes over a comment; two hyphens stand only at its end. -/
def behindComment? (s : List Char) : Option (List Char) := do
  let s ← behind? "--".toList s
  afterFront? ">".toList s

/-- Passes over an instruction. One that is named like the declaration of a document stands nowhere
but at the front. -/
def behindInstruction? (s : List Char) : Option (List Char) :=
  if (afterFront? "xml ".toList s).isSome then none
  else (behindName? s).bind (behind? "?>".toList)

/-- Passes over blanks, comments and instructions, of which there are at most `limit`. -/
def skipMisc : (limit : Nat) → List Char → Option (List Char)
  | 0, s => some s
  | limit + 1, s =>
    match skipSpace s with
    | '<' :: '!' :: '-' :: '-' :: s => (behindComment? s).bind (skipMisc limit)
    | '<' :: '?' :: s => (behindInstruction? s).bind (skipMisc limit)
    | s => some s

def behindEquals? (s : List Char) : Option (List Char) :=
  (afterFront? ['='] (skipSpace s)).map skipSpace

/-- Passes over a setting in a declaration, with a value of the right form. A blank or the end of
the declaration follows. -/
def behindSetting? (name : String) (isValue : List Char → Bool) (s : List Char) :
    Option (List Char) := do
  let s ← afterFront? name.toList (skipSpace s)
  let (value, s) ← (behindEquals? s).bind readQuoted
  if isValue value && (s.head?.any isSpace || (afterFront? "?>".toList s).isSome) then some s
  else none

def skipSetting (name : String) (isValue : List Char → Bool) (s : List Char) :
    Option (List Char) :=
  if (afterFront? name.toList (skipSpace s)).isSome then behindSetting? name isValue s else some s

def isVersion (value : List Char) : Bool :=
  (afterFront? "1.".toList value).any (·.all Char.isDigit)

def isEncoding (value : List Char) : Bool :=
  value.all fun c => c.isAlphanum || c = '.' || c = '_' || c = '-'

def isStandalone (value : List Char) : Bool :=
  value = "yes".toList || value = "no".toList

def behindDeclaration? (s : List Char) : Option (List Char) := do
  let s ← behindSetting? "version" isVersion s
  let s ← skipSetting "encoding" isEncoding s
  let s ← skipSetting "standalone" isStandalone s
  afterFront? "?>".toList (skipSpace s)

def behindLiteral? (s : List Char) : Option (List Char) :=
  (behindSpace? s).bind behindQuoted?

/-- Passes over the name of something that is kept elsewhere. -/
def behindExternal? (s : List Char) : Option (List Char) :=
  match afterFront? "PUBLIC".toList s with
  | some s => (behindLiteral? s).bind behindLiteral?
  | none => (afterFront? "SYSTEM".toList s).bind behindLiteral?

def skipNotation (s : List Char) : Option (List Char) :=
  match afterFront? "NDATA".toList (skipSpace s) with
  | some s => (behindSpace? s).bind behindName?
  | none => some s

/-- Passes over the declaration of an entity. One that is for the declarations themselves has no
notation. -/
def behindEntity? (s : List Char) : Option (List Char) := do
  let s ← behindSpace? s
  let (isGeneral, s) ←
    match s with
    | '%' :: s => (behindSpace? s).map (false, ·)
    | s => some (true, s)
  let s ← (behindName? s).bind behindSpace?
  let s ← behindQuoted? s <|> if isGeneral then (behindExternal? s).bind skipNotation
    else behindExternal? s
  afterFront? ['>'] (skipSpace s)

/-- The marks of declarations of which only the end counts. -/
def skippedMarks : List String :=
  ["<!ELEMENT", "<!ATTLIST", "<!NOTATION"]

/-- Passes over at most `limit` declarations and the bracket that closes them. -/
def behindDeclarations? : (limit : Nat) → List Char → Option (List Char)
  | 0, _ => none
  | limit + 1, s => do
    let s ← skipMisc s.length s
    match afterFront? "<!ENTITY".toList s with
    | some s => (behindEntity? s).bind (behindDeclarations? limit)
    | none =>
      if skippedMarks.any fun mark => (afterFront? mark.toList s).isSome then
        (afterFront? ['>'] (s.dropWhile (· ≠ '>'))).bind (behindDeclarations? limit)
      else afterFront? [']'] s

def behindType? (s : List Char) : Option (List Char) := do
  let s ← (behindSpace? s).bind behindName?
  let s := skipSpace s
  match skipSpace ((behindExternal? s).getD s) with
  | '[' :: s => (behindDeclarations? s.length s).bind fun s => afterFront? ['>'] (skipSpace s)
  | s => afterFront? ['>'] s

/-- Passes over everything in front of the element that a document consists of. None of it says anything, but it has
to be well formed. -/
def behindProlog? (s : List Char) : Option (List Char) := do
  let s := (afterFront? ['\ufeff'] s).getD s
  let s ←
    match afterFront? "<?xml ".toList s with
    | some s => behindDeclaration? s
    | none => some s
  let s ← skipMisc s.length s
  let s ←
    match afterFront? "<!DOCTYPE".toList s with
    | some s => (behindType? s).bind fun s => skipMisc s.length s
    | none => some s
  if (afterFront? "<!".toList s).isSome then none else some s

end IamKeeper.Xml
