namespace IamKeeper.Text.Utf8

/-- The first defect of a byte sequence; `index` counts the well-formed bytes before it. -/
inductive Defect where
  /-- The longest start of a character at `index` has `length` bytes and does not continue as one. -/
  | malformed (length index : Nat)
  /-- The bytes end inside a character that begins at `index`. -/
  | incomplete (index : Nat)
deriving Repr, DecidableEq

def Defect.message : Defect → String
  | .malformed length index => s!"invalid utf-8 sequence of {length} bytes from index {index}"
  | .incomplete index => s!"incomplete utf-8 byte sequence from index {index}"

/-- How many bytes follow a first byte, and the least and the greatest second byte. -/
structure Lead where
  following : Nat
  least : Nat
  greatest : Nat
deriving Repr, DecidableEq

/-- What a first byte of 0x80 or more announces; overlong forms, surrogates and code points above
0x10FFFF are excluded by the range of the second byte. -/
def Lead.of? (b : Nat) : Option Lead :=
  if b < 0xC2 then none
  else if b < 0xE0 then some ⟨1, 0x80, 0xBF⟩
  else if b = 0xE0 then some ⟨2, 0xA0, 0xBF⟩
  else if b = 0xED then some ⟨2, 0x80, 0x9F⟩
  else if b < 0xF0 then some ⟨2, 0x80, 0xBF⟩
  else if b = 0xF0 then some ⟨3, 0x90, 0xBF⟩
  else if b < 0xF4 then some ⟨3, 0x80, 0xBF⟩
  else if b = 0xF4 then some ⟨3, 0x80, 0x8F⟩
  else none

def isContinuation (b : Nat) : Bool :=
  0x80 ≤ b && b ≤ 0xBF

def push (code byte : Nat) : Nat :=
  code * 64 + byte % 64

/-- Reads the characters of `bytes`, of which `index` bytes went before. -/
def decodeFrom (index : Nat) : List UInt8 → Except Defect (List Char)
  | [] => .ok []
  | b :: rest =>
    if b.toNat < 0x80 then (decodeFrom (index + 1) rest).map (Char.ofNat b.toNat :: ·)
    else
      match Lead.of? b.toNat with
      | none => .error (.malformed 1 index)
      | some lead =>
        match rest with
        | [] => .error (.incomplete index)
        | c :: rest =>
          if c.toNat < lead.least || lead.greatest < c.toNat then .error (.malformed 1 index)
          else if lead.following = 1 then
            (decodeFrom (index + 2) rest).map (Char.ofNat (push (b.toNat % 32) c.toNat) :: ·)
          else
            match rest with
            | [] => .error (.incomplete index)
            | d :: rest =>
              if !isContinuation d.toNat then .error (.malformed 2 index)
              else if lead.following = 2 then
                (decodeFrom (index + 3) rest).map
                  (Char.ofNat (push (push (b.toNat % 16) c.toNat) d.toNat) :: ·)
              else
                match rest with
                | [] => .error (.incomplete index)
                | e :: rest =>
                  if !isContinuation e.toNat then .error (.malformed 3 index)
                  else
                    (decodeFrom (index + 4) rest).map
                      (Char.ofNat (push (push (push (b.toNat % 8) c.toNat) d.toNat) e.toNat) :: ·)

def decode (bytes : List UInt8) : Except Defect String :=
  (decodeFrom 0 bytes).map String.ofList

def encode (s : String) : List UInt8 :=
  s.toList.flatMap String.utf8EncodeChar

end IamKeeper.Text.Utf8
