import IamKeeper.Text.Split

namespace IamKeeper.Xml

open Text (afterFront?)

def isSpace (c : Char) : Bool :=
  c = ' ' || c = '\t' || c = '\n' || c = '\r'

def skipSpace (s : List Char) : List Char :=
  s.dropWhile isSpace

/-- Passes over blanks: gives the rest behind them, and nothing where none stands. -/
def behindSpace? (s : List Char) : Option (List Char) :=
  if s.head?.any isSpace then some (skipSpace s) else none

/-- The characters that a document may hold. -/
def isAllowed (c : Char) : Bool :=
  isSpace c || (0x20 ≤ c.toNat && c.toNat != 0xFFFE && c.toNat != 0xFFFF)

/-- The rest behind a mark, with only allowed characters in front of the mark. -/
def behind? (mark : List Char) : List Char → Option (List Char)
  | [] => none
  | c :: s =>
    match afterFront? mark (c :: s) with
    | some rest => some rest
    | none => if isAllowed c then behind? mark s else none

/-- The characters beyond ASCII with which names may begin. -/
def nameRanges : List (Nat × Nat) :=
  [(0xC0, 0xD6), (0xD8, 0xF6), (0xF8, 0x2FF), (0x370, 0x37D), (0x37F, 0x1FFF), (0x200C, 0x200D),
    (0x2070, 0x218F), (0x2C00, 0x2FEF), (0x3001, 0xD7FF), (0xF900, 0xFDCF), (0xFDF0, 0xFFFD),
    (0x10000, 0xEFFFF)]

/-- The characters beyond ASCII that stand in names, but not at their front. -/
def innerNameRanges : List (Nat × Nat) :=
  [(0xB7, 0xB7), (0x300, 0x36F), (0x203F, 0x2040)]

def isWithin (ranges : List (Nat × Nat)) (c : Char) : Bool :=
  ranges.any fun r => r.1 ≤ c.toNat && c.toNat ≤ r.2

def isNameStart (c : Char) : Bool :=
  c.isAlpha || c = '_' || isWithin nameRanges c

def isNameChar (c : Char) : Bool :=
  isNameStart c || c.isDigit || c = '-' || c = '.' || isWithin innerNameRanges c

/-- Passes over a name in which colons mean nothing. -/
def behindName? (s : List Char) : Option (List Char) :=
  if s.head?.any fun c => isNameStart c || c = ':' then
    some (s.dropWhile fun c => isNameChar c || c = ':')
  else none

/-- A name with the space in front of its colon; without a colon the space is empty. -/
structure TagName where
  space : List Char
  name : List Char
deriving Repr, DecidableEq

def readName (s : List Char) : Option (TagName × List Char) :=
  let written := s.takeWhile fun c => isNameChar c || c = ':'
  let rest := s.dropWhile fun c => isNameChar c || c = ':'
  match Text.splitAt ':' written with
  | [name] => if begins name then some (⟨[], name⟩, rest) else none
  | [space, name] =>
    if begins name && (space.isEmpty || begins space) then some (⟨space, name⟩, rest) else none
  | _ => none
where
  begins (part : List Char) : Bool :=
    part.head?.any isNameStart

/-- Reads a text between two quotes of one kind. -/
def readQuoted : List Char → Option (List Char × List Char)
  | quote :: s =>
    if quote = '"' || quote = '\'' then do
      let rest ← afterFront? [quote] (s.dropWhile (· ≠ quote))
      return (s.takeWhile (· ≠ quote), rest)
    else none
  | [] => none

def behindQuoted? (s : List Char) : Option (List Char) :=
  (readQuoted s).map Prod.snd

end IamKeeper.Xml
