import IamKeeper.Document
import Mathlib.Logic.Relation

namespace IamKeeper

/-- Lists that agree but for one place, where `R` leads from one to the other. -/
inductive AtOne {α : Type} (R : α → α → Prop) : List α → List α → Prop
  | here {x y : α} (xs : List α) (step : R x y) : AtOne R (x :: xs) (y :: xs)
  | later (x : α) {xs ys : List α} (step : AtOne R xs ys) : AtOne R (x :: xs) (x :: ys)

namespace Json

/-- Objects that agree but for one member, where `R` leads from one value to the other. -/
inductive InMember (R : String → Json → Json → Prop) : Json → Json → Prop
  | mk {xs ys : List (String × Json)}
      (step : AtOne (fun m n => n.1 = m.1 ∧ R m.1 m.2 n.2) xs ys) :
      InMember R (.object xs) (.object ys)

def EachMember (P : String → Json → Prop) : Json → Prop
  | .object members => ∀ m ∈ members, P m.1 m.2
  | _ => True

/-- Documents that differ in the sign of zeros at most. -/
def SameValue (v w : Json) : Prop :=
  v.unsignedZeros = w.unsignedZeros

end Json

namespace Document

open Json (InMember EachMember SameValue)

/-- A step between two forms of a value that is one text or a list of texts. -/
inductive ListStep : Json → Json → Prop
  | wrap (s : String) : ListStep (.string s) (.array [.string s])
  | permute {xs ys : List Json} (perm : xs.Perm ys) : ListStep (.array xs) (.array ys)

/-- The members of a statement that are one text or a list of texts. -/
def ListKey (name : String) : Prop :=
  name = "Action" ∨ name = "NotAction" ∨ name = "Resource" ∨ name = "NotResource"

/-- The members of a statement whose own members are one text or a list of texts. -/
def PrincipalKey (name : String) : Prop :=
  name = "Principal" ∨ name = "NotPrincipal"

/-- A step at a list in a member of a statement. -/
inductive MemberStep : String → Json → Json → Prop
  | list {name : String} {v w : Json} (key : ListKey name) (step : ListStep v w) : MemberStep name v w
  | inside {name : String} {v w : Json} (key : PrincipalKey name) (step : InMember (fun _ => ListStep) v w) :
      MemberStep name v w

/-- A step between two forms of a value that is one statement or a list of statements. -/
inductive StatementsStep : Json → Json → Prop
  | wrap {v : Json} (single : ∀ items, v ≠ .array items) : StatementsStep v (.array [v])
  | single {v w : Json} (step : InMember MemberStep v w) : StatementsStep v w
  | listed {xs ys : List Json} (step : AtOne (InMember MemberStep) xs ys) :
      StatementsStep (.array xs) (.array ys)

def Step : Json → Json → Prop :=
  InMember fun name v w => name = "Statement" ∧ StatementsStep v w

/-- Two documents that steps in either direction lead from one to the other. -/
def Connected : Json → Json → Prop :=
  Relation.EqvGen fun v w => Step v w ∨ SameValue v w

def TextsOnly : Json → Prop
  | .array items => ∀ item ∈ items, ∃ s, item = .string s
  | _ => True

/-- The lists in a member of a statement hold texts only. -/
structure MemberListed (name : String) (v : Json) : Prop where
  list : ListKey name → TextsOnly v
  inside : PrincipalKey name → EachMember (fun _ => TextsOnly) v

def StatementsListed : Json → Prop
  | .array statements => ∀ v ∈ statements, EachMember MemberListed v
  | v => EachMember MemberListed v

def Listed : Json → Prop :=
  EachMember fun name v => name = "Statement" → StatementsListed v

end Document

end IamKeeper
