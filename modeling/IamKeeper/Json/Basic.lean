import IamKeeper.Entries
import IamKeeper.Decimal.Binary64

namespace IamKeeper

open Decimal (Binary64)

/-- A number of a document: a whole number, or one written with a point, an exponent, or more digits
than a machine word holds. -/
inductive Json.Number where
  | whole (value : Int)
  | real (value : Binary64)
deriving Repr, DecidableEq

inductive Json where
  | null
  | bool (value : Bool)
  | number (value : Json.Number)
  | string (text : String)
  | array (items : List Json)
  | object (members : List (String × Json))
deriving Repr, Inhabited

namespace Json

mutual

def same : Json → Json → Bool
  | .null, .null => true
  | .bool a, .bool b => a == b
  | .number a, .number b => a == b
  | .string a, .string b => a == b
  | .array xs, .array ys => sameItems xs ys
  | .object xs, .object ys => sameMembers xs ys
  | _, _ => false

def sameItems : List Json → List Json → Bool
  | [], [] => true
  | x :: xs, y :: ys => same x y && sameItems xs ys
  | _, _ => false

def sameMembers : List (String × Json) → List (String × Json) → Bool
  | [], [] => true
  | (m, x) :: xs, (n, y) :: ys => m == n && same x y && sameMembers xs ys
  | _, _ => false

end

mutual

theorem same_iff : (a b : Json) → (same a b = true ↔ a = b)
  | .null, b => by cases b <;> simp [same]
  | .bool _, b => by cases b <;> simp [same]
  | .number _, b => by cases b <;> simp [same]
  | .string _, b => by cases b <;> simp [same]
  | .array xs, b => by cases b <;> simp [same, sameItems_iff xs]
  | .object xs, b => by cases b <;> simp [same, sameMembers_iff xs]

theorem sameItems_iff : (xs ys : List Json) → (sameItems xs ys = true ↔ xs = ys)
  | [], ys => by cases ys <;> simp [sameItems]
  | x :: xs, ys => by cases ys <;> simp [sameItems, same_iff x, sameItems_iff xs]

theorem sameMembers_iff : (xs ys : List (String × Json)) → (sameMembers xs ys = true ↔ xs = ys)
  | [], ys => by cases ys <;> simp [sameMembers]
  | (m, x) :: xs, ys => by
    cases ys <;> simp [sameMembers, same_iff x, sameMembers_iff xs, Prod.ext_iff]

end

instance : DecidableEq Json := fun a b => decidable_of_iff _ (same_iff a b)

/-- A number without the sign of a zero. -/
def Number.unsignedZero : Number → Number
  | .real x => if x.isZero then .real (Binary64.zero false) else .real x
  | n => n

mutual

/-- The document with every zero unsigned. Two documents have the same value when these agree. -/
def unsignedZeros : Json → Json
  | .number n => .number n.unsignedZero
  | .array items => .array (unsignedZerosList items)
  | .object members => .object (unsignedZerosMembers members)
  | v => v

def unsignedZerosList : List Json → List Json
  | [] => []
  | x :: xs => unsignedZeros x :: unsignedZerosList xs

def unsignedZerosMembers : List (String × Json) → List (String × Json)
  | [] => []
  | (name, x) :: xs => (name, unsignedZeros x) :: unsignedZerosMembers xs

end

/-- An object of the given members, of which the last for each name counts. -/
def ofMembers (members : List (String × Json)) : Json :=
  .object (Entries.ofList members)

def int (n : Int) : Json :=
  .number (.whole n)

def strings (items : List String) : Json :=
  .array (items.map .string)

def optional (encode : α → Json) : Option α → Json
  | some value => encode value
  | none => .null

def member? (name : String) : Json → Option Json
  | .object members => Entries.get? name members
  | _ => none

/-- Sets a member of an object; any other document becomes an object of that member. -/
def setMember (v : Json) (name : String) (value : Json) : Json :=
  match v with
  | .object members => .object (Entries.insert name value members)
  | _ => .object [(name, value)]

end Json

end IamKeeper
