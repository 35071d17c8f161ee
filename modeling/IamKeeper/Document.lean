import IamKeeper.Json.Reader
import IamKeeper.Json.Writer
import IamKeeper.Text.Blank
import IamKeeper.Text.Percent
import IamKeeper.Fault

namespace IamKeeper.Document

def decode (encoded : String) : Except Fault String :=
  (Text.Percent.decode encoded).mapError .undecodable

/-- The members of a statement that hold one text or a list of texts. -/
def listMembers : List String :=
  ["Action", "NotAction", "Resource", "NotResource"]

/-- The members of a statement whose own members hold one text or a list of texts. -/
def principalMembers : List String :=
  ["Principal", "NotPrincipal"]

def textLe (a b : Json) : Bool :=
  a.compact ≤ b.compact

/-- One text becomes a list of it, and a list is put in order. -/
def normalizeList : Json → Json
  | .string s => .array [.string s]
  | .array items => .array (items.mergeSort textLe)
  | v => v

def normalizePrincipal : Json → Json
  | .object members => .object (members.map fun member => (member.1, normalizeList member.2))
  | v => v

def normalizeMember (member : String × Json) : String × Json :=
  if listMembers.contains member.1 then (member.1, normalizeList member.2)
  else if principalMembers.contains member.1 then (member.1, normalizePrincipal member.2)
  else member

def normalizeStatement : Json → Json
  | .object members => .object (members.map normalizeMember)
  | v => v

/-- One statement becomes a list of it; the order of statements stays. -/
def normalizeStatements : Json → Json
  | .array statements => .array (statements.map normalizeStatement)
  | statement => .array [normalizeStatement statement]

/-- The document with every list written out and in order. -/
def normalize : Json → Json
  | .object members =>
    .object <| members.map fun member =>
      if member.1 = "Statement" then (member.1, normalizeStatements member.2) else member
  | v => v

/-- What two documents have in common when they are equivalent. -/
def canonical (v : Json) : Json :=
  (normalize v).unsignedZeros

/-- Whether two documents differ at most in how a single statement, action, resource or principal is written, and in
the order of the lists of the latter three. Texts that are no documents are compared as they are, but for blanks around
them. -/
def equivalent (a b : String) : Bool :=
  match Json.read? a, Json.read? b with
  | some x, some y => canonical x = canonical y
  | _, _ => Text.trim a = Text.trim b

end IamKeeper.Document
