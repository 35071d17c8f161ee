import IamKeeper.Json.Basic
import IamKeeper.Text.Digits

namespace IamKeeper.Json

open Decimal (Binary64)
open Text (hexValue?)

/-- So many lists and objects may be open at once. -/
def greatestDepth : Nat := 127

def isSpace (c : Char) : Bool :=
  c = ' ' || c = '\t' || c = '\n' || c = '\r'

def skipSpace (s : List Char) : List Char :=
  s.dropWhile isSpace

def hexUnit? (a b c d : Char) : Option Nat := do
  let a ← hexValue? a
  let b ← hexValue? b
  let c ← hexValue? c
  let d ← hexValue? d
  return ((a * 16 + b) * 16 + c) * 16 + d

/-- The character that stands behind a backslash, other than an escape by number. -/
def escapeOf? (c : Char) : Option Char :=
  if c = '"' then some '"'
  else if c = '\\' then some '\\'
  else if c = '/' then some '/'
  else if c = 'b' then some '\x08'
  else if c = 'f' then some '\x0c'
  else if c = 'n' then some '\n'
  else if c = 'r' then some '\r'
  else if c = 't' then some '\t'
  else none

/-- The first half of a surrogate pair. -/
def isHighSurrogate (n : Nat) : Bool :=
  0xD800 ≤ n && n < 0xDC00

/-- The second half of a surrogate pair. -/
def isLowSurrogate (n : Nat) : Bool :=
  0xDC00 ≤ n && n < 0xE000

def pairedChar (high low : Nat) : Char :=
  Char.ofNat (0x10000 + (high - 0xD800) * 0x400 + (low - 0xDC00))

/-- Reads a text behind its opening quotation mark, with the rest behind the closing one. -/
def readString : List Char → Option (List Char × List Char)
  | [] => none
  | '"' :: rest => some ([], rest)
  | '\\' :: 'u' :: a :: b :: c :: d :: rest =>
    match hexUnit? a b c d with
    | none => none
    | some unit =>
      if isHighSurrogate unit then
        match rest with
        | '\\' :: 'u' :: e :: f :: g :: h :: rest =>
          match hexUnit? e f g h with
          | none => none
          | some low =>
            if isLowSurrogate low then
              (readString rest).map fun (s, rest) => (pairedChar unit low :: s, rest)
            else none
        | _ => none
      else if isLowSurrogate unit then none
      else (readString rest).map fun (s, rest) => (Char.ofNat unit :: s, rest)
  | '\\' :: c :: rest =>
    match escapeOf? c with
    | none => none
    | some c => (readString rest).map fun (s, rest) => (c :: s, rest)
  | c :: rest =>
    if c.toNat < 0x20 ∨ c = '\\' then none
    else (readString rest).map fun (s, rest) => (c :: s, rest)

/-- The digits in front of a text, as numbers, and the rest. -/
def takeDigits (s : List Char) : List Nat × List Char :=
  ((s.takeWhile Char.isDigit).map fun c => c.toNat - '0'.toNat, s.dropWhile Char.isDigit)

structure NumberText where
  negative : Bool
  whole : List Nat
  fraction : Option (List Nat)
  /-- Whether the exponent is negative, and its digits. -/
  exponent : Option (Bool × List Nat)
deriving Repr, DecidableEq

/-- Reads the digits behind a point, if there is one; at least one is required. -/
def readFraction : List Char → Option (Option (List Nat) × List Char)
  | '.' :: rest =>
    match takeDigits rest with
    | ([], _) => none
    | (digits, rest) => some (some digits, rest)
  | rest => some (none, rest)

def readExponentDigits (negative : Bool) (s : List Char) :
    Option (Option (Bool × List Nat) × List Char) :=
  match takeDigits s with
  | ([], _) => none
  | (digits, rest) => some (some (negative, digits), rest)

def readExponent : List Char → Option (Option (Bool × List Nat) × List Char)
  | [] => some (none, [])
  | c :: rest =>
    if c = 'e' ∨ c = 'E' then
      match rest with
      | '+' :: rest => readExponentDigits false rest
      | '-' :: rest => readExponentDigits true rest
      | rest => readExponentDigits false rest
    else some (none, c :: rest)

/-- Reads a number as it is written; a zero in front is followed by no other digit. -/
def readNumberText (s : List Char) : Option (NumberText × List Char) :=
  let (negative, s) : Bool × List Char :=
    match s with
    | '-' :: rest => (true, rest)
    | rest => (false, rest)
  match takeDigits s with
  | ([], _) => none
  | (0 :: _ :: _, _) => none
  | (whole, rest) => do
    let (fraction, rest) ← readFraction rest
    let (exponent, rest) ← readExponent rest
    return (⟨negative, whole, fraction, exponent⟩, rest)

def greatestWord : Nat := UInt64.size - 1

/-- The greatest exponent that is looked at. -/
def greatestExponent : Nat := Nat.pow 2 31 - 1

/-- Appends digits to a significand as long as it stays a word, and counts the digits left out. -/
def appendDigits (significand : Nat) : List Nat → Nat × Nat
  | [] => (significand, 0)
  | d :: digits =>
    if greatestWord < significand * 10 + d then (significand, digits.length + 1)
    else appendDigits (significand * 10 + d) digits

def ofDigits (digits : List Nat) : Nat :=
  digits.foldl (fun n d => n * 10 + d) 0

/-- A significand times a power of ten, rounded step by step. -/
def NumberText.real (t : NumberText) (significand : Nat) (exponent : Int) : Option Number :=
  ((Binary64.round significand 1).bind (·.scale exponent)).map fun x =>
    .real (if t.negative then x.negate else x)

/-- The value of a number as it is written. Of the digits only those count that fit the significand;
a number beyond the greatest is refused. -/
def NumberText.value (t : NumberText) : Option Number :=
  let (significand, dropped) := appendDigits 0 t.whole
  if t.fraction.isNone ∧ t.exponent.isNone ∧ dropped = 0 then
    if t.negative then
      if significand = 0 ∨ Nat.pow 2 63 < significand then t.real significand 0
      else some (.whole (-(significand : Int)))
    else some (.whole significand)
  else
    let digits := t.fraction.getD []
    let (significand, ignored) := appendDigits significand digits
    let exponent : Int := (dropped : Int) - ((digits.length - ignored : Nat) : Int)
    match t.exponent with
    | none => t.real significand exponent
    | some (negative, digits) =>
      let shift := ofDigits digits
      if greatestExponent < shift then
        if significand ≠ 0 ∧ !negative then none
        else some (.real (Binary64.zero t.negative))
      else t.real significand (if negative then exponent - shift else exponent + shift)

def readNumber (s : List Char) : Option (Json × List Char) := do
  let (text, rest) ← readNumberText s
  let value ← text.value
  return (.number value, rest)

def readWord (word : List Char) (value : Json) (s : List Char) : Option (Json × List Char) :=
  if word.isPrefixOf s then some (value, s.drop word.length) else none

mutual

/-- Reads a document, with `depth` more lists and objects allowed; blanks in front are skipped. -/
def readValue : Nat → Nat → List Char → Option (Json × List Char)
  | 0, _, _ => none
  | fuel + 1, depth, s =>
    match skipSpace s with
    | [] => none
    | '"' :: rest => (readString rest).map fun (s, rest) => (.string (String.ofList s), rest)
    | 'n' :: rest => readWord ['n', 'u', 'l', 'l'] .null ('n' :: rest)
    | 't' :: rest => readWord ['t', 'r', 'u', 'e'] (.bool true) ('t' :: rest)
    | 'f' :: rest => readWord ['f', 'a', 'l', 's', 'e'] (.bool false) ('f' :: rest)
    | '[' :: rest =>
      match depth with
      | 0 => none
      | depth + 1 =>
        match skipSpace rest with
        | ']' :: rest => some (.array [], rest)
        | rest => (readItems fuel depth rest).map fun (items, rest) => (.array items, rest)
    | '\x7b' :: rest =>
      match depth with
      | 0 => none
      | depth + 1 =>
        match skipSpace rest with
        | '\x7d' :: rest => some (.object [], rest)
        | rest =>
          (readMembers fuel depth rest).map fun (members, rest) => (ofMembers members, rest)
    | rest => readNumber rest

/-- Reads one item or more, up to and with the closing bracket. -/
def readItems : Nat → Nat → List Char → Option (List Json × List Char)
  | 0, _, _ => none
  | fuel + 1, depth, s =>
    match readValue fuel depth s with
    | none => none
    | some (item, rest) =>
      match skipSpace rest with
      | ',' :: rest => (readItems fuel depth rest).map fun (items, rest) => (item :: items, rest)
      | ']' :: rest => some ([item], rest)
      | _ => none

/-- Reads one member or more, up to and with the closing brace. -/
def readMembers : Nat → Nat → List Char → Option (List (String × Json) × List Char)
  | 0, _, _ => none
  | fuel + 1, depth, s =>
    match skipSpace s with
    | '"' :: rest =>
      match readString rest with
      | none => none
      | some (name, rest) =>
        match skipSpace rest with
        | ':' :: rest =>
          match readValue fuel depth rest with
          | none => none
          | some (value, rest) =>
            match skipSpace rest with
            | ',' :: rest =>
              (readMembers fuel depth rest).map fun (members, rest) =>
                ((String.ofList name, value) :: members, rest)
            | '\x7d' :: rest => some ([(String.ofList name, value)], rest)
            | _ => none
        | _ => none
    | _ => none

end

/-- Reads a text that holds one document and blanks around it. A text that nests too deeply or holds a number beyond the
greatest binary64 number is refused, and an object keeps the last member of each name. -/
def read? (text : String) : Option Json :=
  let s := text.toList
  match readValue (2 * s.length + 2) greatestDepth s with
  | some (value, rest) => if (skipSpace rest).isEmpty then some value else none
  | none => none

end IamKeeper.Json
