import IamKeeper.Text.Digits
import IamKeeper.Text.Split

namespace IamKeeper.Xml

/-- A character as it stands between elements. -/
def escapedChar (c : Char) : List Char :=
  if c = '&' then ['&', 'a', 'm', 'p', ';']
  else if c = '<' then ['&', 'l', 't', ';']
  else if c = '>' then ['&', 'g', 't', ';']
  else [c]

def escape (s : List Char) : List Char :=
  s.flatMap escapedChar

def charOf? (n : Nat) : Option Char :=
  if n.isValidChar then some (Char.ofNat n) else none

def named? : List Char → Option Char
  | ['l', 't'] => some '<'
  | ['g', 't'] => some '>'
  | ['a', 'm', 'p'] => some '&'
  | ['q', 'u', 'o', 't'] => some '"'
  | ['a', 'p', 'o', 's'] => some '\''
  | '#' :: 'x' :: digits => (Text.hexNatural? digits).bind charOf?
  | '#' :: digits => (Text.natural? digits).bind charOf?
  | _ => none

/-- What stands between two ampersands: the name of an escape up to a semicolon, and plain text. -/
def openPiece? (piece : List Char) : Option (List Char) :=
  match piece.dropWhile (· ≠ ';') with
  | [] => none
  | _ :: rest => (named? (piece.takeWhile (· ≠ ';'))).map (· :: rest)

def openPieces? : List (List Char) → Option (List Char)
  | [] => some []
  | piece :: pieces => do
    let text ← openPiece? piece
    let rest ← openPieces? pieces
    return text ++ rest

/-- Replaces each escape by its character; none when an ampersand begins no escape. -/
def unescape? (s : List Char) : Option (List Char) :=
  match Text.splitAt '&' s with
  | [] => some []
  | plain :: pieces => (openPieces? pieces).map (plain ++ ·)

theorem unescape?_cons {c : Char} (h : c ≠ '&') (s : List Char) :
    unescape? (c :: s) = (unescape? s).map (c :: ·) := by
  obtain ⟨plain, pieces, hs⟩ := List.exists_cons_of_ne_nil (Text.splitAt_ne_nil '&' s)
  simp only [unescape?, Text.splitAt, h, if_false, hs]
  cases openPieces? pieces <;> rfl

theorem unescape?_named {name : List Char} {c : Char} (hn : named? name = some c)
    (ha : '&' ∉ name) (hs : ';' ∉ name) (s : List Char) :
    unescape? ('&' :: (name ++ ';' :: s)) = (unescape? s).map (c :: ·) := by
  obtain ⟨plain, pieces, h⟩ := List.exists_cons_of_ne_nil (Text.splitAt_ne_nil '&' s)
  have hsplit : Text.splitAt '&' (name ++ ';' :: s) = (name ++ ';' :: plain) :: pieces := by
    clear hn hs
    induction name with
    | nil => simp [Text.splitAt, h]
    | cons d name ih =>
      have hd : d ≠ '&' := fun e => ha (e ▸ List.mem_cons_self)
      simp [Text.splitAt, hd, ih fun m => ha (List.mem_cons_of_mem d m)]
  have hall : ∀ d ∈ name, decide (d ≠ ';') = true := fun d hd => by
    simpa using fun e : d = ';' => hs (e ▸ hd)
  have hpiece : openPiece? (name ++ ';' :: plain) = some (c :: plain) := by
    rw [openPiece?, List.dropWhile_append_of_pos hall, List.takeWhile_append_of_pos hall]
    simp [hn]
  simp only [unescape?, Text.splitAt, if_true, hsplit, openPieces?, hpiece, h]
  cases openPieces? pieces <;> rfl

theorem unescape?_escape (s : List Char) : unescape? (escape s) = some s := by
  induction s with
  | nil => rfl
  | cons c s ih =>
    have named (name : List Char) {d : Char} (hn : named? name = some d) (ha : '&' ∉ name)
        (hs : ';' ∉ name) : unescape? ('&' :: (name ++ ';' :: escape s)) = some (d :: s) := by
      rw [unescape?_named hn ha hs, ih]
      rfl
    rw [escape, List.flatMap_cons, ← escape, escapedChar]
    split
    next h => exact h ▸ named ['a', 'm', 'p'] rfl (by decide) (by decide)
    split
    next h => exact h ▸ named ['l', 't'] rfl (by decide) (by decide)
    split
    next h => exact h ▸ named ['g', 't'] rfl (by decide) (by decide)
    next h _ _ =>
      rw [List.singleton_append, unescape?_cons h, ih]
      rfl

end IamKeeper.Xml
