import IamKeeper.Fault
import IamKeeper.Iam.Entity
import IamKeeper.Plan

namespace IamKeeper.Iam.Query

def version : String := "2010-05-08"

structure Form where
  action : String
  parameters : List (String × String)
deriving Repr, DecidableEq

def Form.fields (f : Form) : List (String × String) :=
  [("Action", f.action), ("Version", version)] ++ f.parameters

inductive Reply where
  /-- An answer, with its status and the document in it. -/
  | answer (status : Nat) (body : String)
  | lost
deriving Repr, DecidableEq

def connection : Interface :=
  ⟨Form, fun _ => Reply⟩

abbrev Exchange (α : Type) : Type :=
  Plan connection Fault α

/-- A parameter that is sent when there is a value. -/
def optionalField (name : String) : Option String → List (String × String)
  | some value => [(name, value)]
  | none => []

/-- The parameters of a list, counted from 1; an empty list is sent as an empty text. -/
def listFields (name : String) (items : List String) : List (String × String) :=
  if items.isEmpty then [(name, "")]
  else items.mapIdx fun index item => (s!"{name}.member.{index + 1}", item)

def tagFields (tags : List Tag) : List (String × String) :=
  (tags.mapIdx fun index tag =>
    let name := s!"Tags.member.{index + 1}"
    [(name ++ ".Key", tag.key), (name ++ ".Value", tag.value)]).flatten

def principalField : Principal → String × String
  | .role name => ("RoleName", name)
  | .user name => ("UserName", name)
  | .group name => ("GroupName", name)

/-- A principal as it is called in actions. -/
def principalNoun : Principal → String
  | .role _ => "Role"
  | .user _ => "User"
  | .group _ => "Group"

def targetField : TagTarget → String × String
  | .role name => ("RoleName", name)
  | .user name => ("UserName", name)
  | .policy arn => ("PolicyArn", arn)
  | .instanceProfile name => ("InstanceProfileName", name)
  | .oidcProvider arn => ("OpenIDConnectProviderArn", arn)
  | .samlProvider arn => ("SAMLProviderArn", arn)

def targetNoun : TagTarget → String
  | .role _ => "Role"
  | .user _ => "User"
  | .policy _ => "Policy"
  | .instanceProfile _ => "InstanceProfile"
  | .oidcProvider _ => "OpenIDConnectProvider"
  | .samlProvider _ => "SAMLProvider"

end IamKeeper.Iam.Query
