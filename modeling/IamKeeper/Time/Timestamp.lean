import IamKeeper.Time.Instant

namespace IamKeeper.Time.Instant

def readFixed (width : Nat) (s : List Char) : Option (Nat × List Char) :=
  let digits := s.take width
  if digits.length = width then (Text.digits? digits).map (·, s.drop width) else none

def readOneOf (marks : List Char) : List Char → Option (List Char)
  | [] => none
  | c :: rest => if c ∈ marks then some rest else none

/-- Reads the offset from universal time at the end of a timestamp, in seconds, less than a day. -/
def readLastOffset : List Char → Option Int
  | ['Z'] | ['z'] => some 0
  | sign :: rest => do
    let (hours, rest) ← readFixed 2 rest
    let rest ← readOneOf [':'] rest
    let (minutes, rest) ← readFixed 2 rest
    let offset : Int := hours * 3600 + minutes * 60
    if hours < 24 ∧ minutes < 60 ∧ rest.isEmpty then
      if sign = '+' then some offset else if sign = '-' then some (-offset) else none
    else none
  | [] => none

/-- Whether a second of a day is the last one of a month. -/
def endsMonth (date : Date) (second : Nat) : Bool :=
  second + 1 = secondsPerDay && date.day = daysInMonth date.year date.month

/-- Reads a timestamp with every part in its full width, as in `2006-01-02T15:04:05Z`. A leap second ends a month and
stands for its last nanosecond. -/
def readTimestampChars (s : List Char) : Option Instant := do
  let (year, s) ← readFixed 4 s
  let s ← readOneOf ['-'] s
  let (month, s) ← readFixed 2 s
  let s ← readOneOf ['-'] s
  let (day, s) ← readFixed 2 s
  let s ← readOneOf ['T', 't'] s
  let (hour, s) ← readFixed 2 s
  let s ← readOneOf [':'] s
  let (minute, s) ← readFixed 2 s
  let s ← readOneOf [':'] s
  let (second, s) ← readFixed 2 s
  let (fraction, s) ← readFraction s
  let offset ← readLastOffset s
  let date ← Date.of? year month day
  let (time, _) ← timeOfDay? hour minute second 0
  let (date, time) ← shift? date time offset
  if second < 60 then of? date time fraction
  else if endsMonth date time then of? date time (nanosecondsPerSecond - 1)
  else none

def readTimestamp? (text : String) : Option Instant :=
  readTimestampChars text.toList

end IamKeeper.Time.Instant
