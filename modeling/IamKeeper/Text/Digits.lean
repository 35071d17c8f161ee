namespace IamKeeper.Text

def ofDigits (digits : List Char) : Nat :=
  digits.foldl (fun n c => n * 10 + (c.toNat - '0'.toNat)) 0

def digits? (s : List Char) : Option Nat :=
  if s.isEmpty || !s.all Char.isDigit then none else some (ofDigits s)

/-- Reads a number that may have a plus sign in front. -/
def natural? : List Char → Option Nat
  | '+' :: s => digits? s
  | s => digits? s

/-- Reads a number that may have a sign in front. -/
def integer? : List Char → Option Int
  | '-' :: s => (digits? s).map fun n => -(n : Int)
  | s => (natural? s).map fun n => (n : Int)

def hexValue? (c : Char) : Option Nat :=
  if '0' ≤ c ∧ c ≤ '9' then some (c.toNat - '0'.toNat)
  else if 'a' ≤ c ∧ c ≤ 'f' then some (c.toNat - 'a'.toNat + 10)
  else if 'A' ≤ c ∧ c ≤ 'F' then some (c.toNat - 'A'.toNat + 10)
  else none

def hexDigits? (s : List Char) : Option Nat :=
  if s.isEmpty then none
  else s.foldlM (fun n c => (hexValue? c).map (n * 16 + ·)) 0

/-- Reads a hexadecimal number that may have a plus sign in front. -/
def hexNatural? : List Char → Option Nat
  | '+' :: s => hexDigits? s
  | s => hexDigits? s

end IamKeeper.Text
