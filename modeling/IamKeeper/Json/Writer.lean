import IamKeeper.Decimal.Shortest
import IamKeeper.Json.Basic
import IamKeeper.Text.Quoted

namespace IamKeeper.Json

def fourDigits (n : Nat) : List Char :=
  let digits := Text.hexadecimal n
  List.replicate (4 - digits.length) '0' ++ digits

/-- A character inside a text: marks and controls are escaped, all else stands for itself. -/
def escapedChar (c : Char) : List Char :=
  if c = '"' then ['\\', '"']
  else if c = '\\' then ['\\', '\\']
  else if c = '\x08' then ['\\', 'b']
  else if c = '\x0c' then ['\\', 'f']
  else if c = '\n' then ['\\', 'n']
  else if c = '\r' then ['\\', 'r']
  else if c = '\t' then ['\\', 't']
  else if c.toNat < 0x20 then '\\' :: 'u' :: fourDigits c.toNat
  else [c]

def writeString (s : String) : List Char :=
  '"' :: s.toList.flatMap escapedChar ++ ['"']

def Number.write : Number → List Char
  | .whole n => (toString n).toList
  | .real x => x.write

mutual

def write : Json → List Char
  | .null => ['n', 'u', 'l', 'l']
  | .bool true => ['t', 'r', 'u', 'e']
  | .bool false => ['f', 'a', 'l', 's', 'e']
  | .number n => n.write
  | .string s => writeString s
  | .array items => '[' :: writeItems items
  | .object members => '\x7b' :: writeMembers members

/-- The items behind an opening bracket, up to and with the closing one. -/
def writeItems : List Json → List Char
  | [] => [']']
  | [item] => write item ++ [']']
  | item :: items => write item ++ ',' :: writeItems items

/-- The members behind an opening brace, up to and with the closing one. -/
def writeMembers : List (String × Json) → List Char
  | [] => ['\x7d']
  | [(name, value)] => writeString name ++ ':' :: write value ++ ['\x7d']
  | (name, value) :: members => writeString name ++ ':' :: write value ++ ',' :: writeMembers members

end

def compact (v : Json) : String :=
  String.ofList v.write

end IamKeeper.Json
