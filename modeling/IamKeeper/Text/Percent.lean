import IamKeeper.Text.Utf8

namespace IamKeeper.Text.Percent

def digit? (b : UInt8) : Option Nat :=
  let n := b.toNat
  if 0x30 ≤ n ∧ n ≤ 0x39 then some (n - 0x30)
  else if 0x41 ≤ n ∧ n ≤ 0x46 then some (n - 0x41 + 10)
  else if 0x61 ≤ n ∧ n ≤ 0x66 then some (n - 0x61 + 10)
  else none

/-- The byte that two hexadecimal digits denote. -/
def escaped? (high low : UInt8) : Option UInt8 :=
  match digit? high, digit? low with
  | some h, some l => some (UInt8.ofNat (h * 16 + l))
  | _, _ => none

def plusToSpace (bytes : List UInt8) : List UInt8 :=
  bytes.map fun b => if b = 0x2B then 0x20 else b

/-- A percent sign without two hexadecimal digits behind it stands for itself. -/
def unescape : List UInt8 → List UInt8
  | [] => []
  | b :: rest =>
    if b = 0x25 then
      match rest with
      | high :: low :: tail =>
        match escaped? high low with
        | some byte => byte :: unescape tail
        | none => b :: unescape (high :: low :: tail)
      | short => b :: short
    else b :: unescape rest

/-- Reads a query text; the bytes that it denotes must be UTF-8. -/
def decode (encoded : String) : Except Utf8.Defect String :=
  Utf8.decode (unescape (plusToSpace (Utf8.encode encoded)))

end IamKeeper.Text.Percent
