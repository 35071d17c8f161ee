import IamKeeper.Text.Blank
import IamKeeper.Text.Digits
import IamKeeper.Time.Date

namespace IamKeeper.Time

def secondsPerDay : Nat := 86400

def nanosecondsPerSecond : Nat := 1000000000

/-- A point in universal time. A leap second is the last second of a minute with a nanosecond of
`10 ^ 9` or more. -/
structure Instant where
  date : Date
  second : Nat
  nanosecond : Nat
  valid : second < secondsPerDay ∧ nanosecond < 2 * nanosecondsPerSecond ∧
    (nanosecondsPerSecond ≤ nanosecond → second % 60 = 59)
deriving DecidableEq

namespace Instant

def of? (date : Date) (second nanosecond : Nat) : Option Instant :=
  if h : second < secondsPerDay ∧ nanosecond < 2 * nanosecondsPerSecond ∧
      (nanosecondsPerSecond ≤ nanosecond → second % 60 = 59) then
    some ⟨date, second, nanosecond, h⟩
  else none

@[simp]
theorem of?_self (i : Instant) : of? i.date i.second i.nanosecond = some i := by
  obtain ⟨date, second, nanosecond, valid⟩ := i
  simp only [of?]
  rw [dif_pos valid]

def epoch : Instant :=
  ⟨⟨1970, 1, 1, by decide⟩, 0, 0, by decide⟩

def lt (a b : Instant) : Bool :=
  a.date.lt b.date || (a.date = b.date &&
    (a.second < b.second || (a.second = b.second && a.nanosecond < b.nanosecond)))

/-- The day and second that lie `offset` seconds before the given ones. -/
def shift? (date : Date) (second : Nat) (offset : Int) : Option (Date × Nat) :=
  let moved := (second : Int) - offset
  (date.move? (moved / secondsPerDay)).map (·, (moved % secondsPerDay).toNat)

def later? (i : Instant) (seconds : Nat) : Option Instant :=
  (shift? i.date i.second (-seconds)).bind fun (date, second) => of? date second i.nanosecond

/-- The digits of `n`, with zeros in front up to `width`. -/
def padded (width n : Nat) : List Char :=
  let digits := Nat.toDigits 10 n
  List.replicate (width - digits.length) '0' ++ digits

/-- A year has four digits or more, with a sign outside 0000 to 9999. -/
def writeYear (year : Int) : List Char :=
  if 0 ≤ year ∧ year ≤ 9999 then padded 4 year.toNat
  else (if year < 0 then '-' else '+') :: padded 4 year.natAbs

/-- The fraction of a second in as few of 0, 3, 6 or 9 digits as lose nothing. -/
def writeFraction (nanosecond : Nat) : List Char :=
  if nanosecond = 0 then []
  else if nanosecond % 1000000 = 0 then '.' :: padded 3 (nanosecond / 1000000)
  else if nanosecond % 1000 = 0 then '.' :: padded 6 (nanosecond / 1000)
  else '.' :: padded 9 nanosecond

def write (i : Instant) : String :=
  let leap := i.nanosecond / nanosecondsPerSecond
  String.ofList <|
    writeYear i.date.year ++ '-' :: padded 2 i.date.month ++ '-' :: padded 2 i.date.day ++
    'T' :: padded 2 (i.second / 3600) ++ ':' :: padded 2 (i.second / 60 % 60) ++
    ':' :: padded 2 (i.second % 60 + leap) ++
    writeFraction (i.nanosecond % nanosecondsPerSecond) ++ ['Z']

def readDigits (width : Nat) (s : List Char) : Option (Nat × List Char) :=
  match (s.take width).takeWhile Char.isDigit with
  | [] => none
  | digits => some (Text.ofDigits digits, s.drop digits.length)

/-- Reads a number of at most two digits behind blanks. -/
def readPair (s : List Char) : Option (Nat × List Char) :=
  readDigits 2 (Text.trimStart s)

/-- Reads a year behind blanks: up to four digits, or any number of them behind a sign. -/
def readYear (s : List Char) : Option (Int × List Char) :=
  match Text.trimStart s with
  | '-' :: rest => (readDigits rest.length rest).map fun (n, rest) => (-(n : Int), rest)
  | '+' :: rest => (readDigits rest.length rest).map fun (n, rest) => ((n : Int), rest)
  | rest => (readDigits 4 rest).map fun (n, rest) => ((n : Int), rest)

def readMark (mark : Char) (s : List Char) : Option (List Char) :=
  match Text.trimStart s with
  | [] => none
  | c :: rest => if c = mark then some rest else none

def readSeparator : List Char → Option (List Char)
  | [] => none
  | c :: rest => if c = 'T' ∨ c = 't' ∨ c = ' ' then some rest else none

/-- Reads a fraction of a second in nanoseconds, if there is one; further digits are ignored. -/
def readFraction : List Char → Option (Nat × List Char)
  | '.' :: rest =>
    match rest.takeWhile Char.isDigit with
    | [] => none
    | digits =>
      let kept := digits.take 9
      some (Text.ofDigits kept * Nat.pow 10 (9 - kept.length), rest.drop digits.length)
  | rest => some (0, rest)

/-- Reads the hours and minutes of an offset, with any colons and blanks between them. -/
def readOffsetParts : List Char → Option (Nat × List Char)
  | a :: b :: rest =>
    match rest.dropWhile fun c => c = ':' || Text.isBlank c with
    | c :: d :: rest =>
      if a.isDigit ∧ b.isDigit ∧ c.isDigit ∧ d.isDigit ∧ c < '6' then
        some (Text.ofDigits [a, b] * 3600 + Text.ofDigits [c, d] * 60, rest)
      else none
    | _ => none
  | _ => none

def readOffset : List Char → Option (Int × List Char)
  | [] => none
  | c :: rest =>
    if c = 'Z' ∨ c = 'z' then some (0, rest)
    else if c = '+' then (readOffsetParts rest).map fun (n, rest) => ((n : Int), rest)
    else if c = '-' ∨ c = '\u2212' then
      (readOffsetParts rest).map fun (n, rest) => (-(n : Int), rest)
    else
      match c :: rest with
      | u :: t :: z :: rest =>
        if u.toUpper = 'U' ∧ t.toUpper = 'T' ∧ z.toUpper = 'C' then some (0, rest) else none
      | _ => none

/-- A second of the day with its nanosecond; second 60 is a leap second. -/
def timeOfDay? (hour minute second fraction : Nat) : Option (Nat × Nat) :=
  if hour < 24 ∧ minute < 60 ∧ second ≤ 60 then
    some (hour * 3600 + minute * 60 + min second 59,
      fraction + if second = 60 then nanosecondsPerSecond else 0)
  else none

/-- Reads a point in time in any offset from universal time, with blanks between the parts and also with a blank in
place of the `T`. -/
def readChars (s : List Char) : Option Instant := do
  let (year, s) ← readYear s
  let s ← readMark '-' s
  let (month, s) ← readPair s
  let s ← readMark '-' s
  let (day, s) ← readPair s
  let s ← readSeparator s
  let (hour, s) ← readPair s
  let s ← readMark ':' s
  let (minute, s) ← readPair s
  let s ← readMark ':' s
  let (second, s) ← readPair s
  let (fraction, s) ← readFraction s
  let (offset, s) ← readOffset (Text.trimStart s)
  if (Text.trimStart s).isEmpty ∧ offset.natAbs < secondsPerDay then
    let date ← Date.of? year month day
    let (second, nanosecond) ← timeOfDay? hour minute second fraction
    let (date, second) ← shift? date second offset
    of? date second nanosecond
  else none

def read? (text : String) : Option Instant :=
  readChars text.toList

end Instant

end IamKeeper.Time
