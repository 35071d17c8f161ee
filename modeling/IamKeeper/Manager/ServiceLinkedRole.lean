import IamKeeper.Iam.Attachments
import IamKeeper.Manager.Basic
import IamKeeper.Text.Blank
import IamKeeper.Text.Split

namespace IamKeeper

namespace ServiceLinkedRoleManager

open Iam Job Manager

abbrev LinkedRoleObject : Type := Kind.serviceLinkedRole.Object

def detailOf (report : RoleReport) : ServiceLinkedRoleDetail :=
  { name := some report.name
    id := some report.id
    created := report.created
    maxSession := report.maxSession
    lastUsed := report.lastUsed }

def record (o : LinkedRoleObject) (report : RoleReport) : LinkedRoleObject :=
  (o.withIdentity (Identity.ofArn report.arn)).withDetail (detailOf report)

/-- The name under which the role of an object is known. -/
def roleName? (o : LinkedRoleObject) : Option String :=
  o.detail?.bind ServiceLinkedRoleDetail.name

/-- The path of a service-linked role starts so and goes on with the service. -/
def pathFront : List Char :=
  "/aws-service-role/".toList

def filled : List Char → Option String
  | [] => none
  | c :: s => some (String.ofList (c :: s))

def serviceOf? (path : String) : Option String :=
  (Text.afterFront? pathFront path.toList).bind fun rest =>
    filled (Text.dropTrailing (· = '/') rest)

/-- The suffix of a role is what stands behind the last underscore of its name. -/
def suffixOf? (name : String) : Option String :=
  match (Text.splitAt '_' name.toList).reverse with
  | suffix :: _ :: _ => filled suffix
  | _ => none

def lateInitialize (desired latest : ServiceLinkedRoleSpec) : ServiceLinkedRoleSpec :=
  { desired with description := desired.description <|> latest.description }

def delta (a b : ServiceLinkedRoleSpec) : Delta :=
  Delta.empty
    |>.addIf (a.service ≠ b.service) "Spec.AWSServiceName"
    |>.addIf (!sameGiven a.suffix b.suffix) "Spec.CustomSuffix"
    |>.addIf (!sameGiven a.description b.description) "Spec.Description"

def readOne (desired : LinkedRoleObject) : Job (Option LinkedRoleObject) :=
  match roleName? desired with
  | none => pure none
  | some name => do
    match ← iam (.getRole name) with
    | none => return none
    | some report =>
      let spec : ServiceLinkedRoleSpec :=
        { service := (serviceOf? report.path).getD desired.spec.service
          suffix := suffixOf? report.name
          description := report.description }
      return some (record { desired with spec } report)

def create (desired : LinkedRoleObject) : Job LinkedRoleObject := do
  let report ← iam (.createServiceLinkedRole desired.spec)
  info s!"created service linked role {report.arn}"
  return record desired report

/-- Changes the description of a role, which is all that can change. -/
def changeDescription (name : String) (desired : ServiceLinkedRoleSpec) : Job Unit := do
  iam (.updateRole name desired.description none)
  info s!"updated description of service linked role {name}"

def change (desired latest : LinkedRoleObject) (delta : Delta) : Job LinkedRoleObject :=
  let updated := desired.observe latest
  match roleName? latest with
  | none => pure updated
  | some name => do
    whenDiffers delta "Spec.Description" (changeDescription name desired.spec)
    return updated

def delete (latest : LinkedRoleObject) : Job Unit :=
  match roleName? latest with
  | none => pure ()
  | some name => do
    let deletion ← iam (.deleteServiceLinkedRole name)
    info s!"deleting service linked role {name}, deletion task {deletion}"

end ServiceLinkedRoleManager

def serviceLinkedRoleManager : Manager ServiceLinkedRoleSpec ServiceLinkedRoleDetail where
  resolve := Resolution.none
  lateInitialize := ServiceLinkedRoleManager.lateInitialize
  delta := ServiceLinkedRoleManager.delta
  immutable := ["Spec.AWSServiceName", "Spec.CustomSuffix"]
  readOne := ServiceLinkedRoleManager.readOne
  create := ServiceLinkedRoleManager.create
  change := ServiceLinkedRoleManager.change
  delete := ServiceLinkedRoleManager.delete

end IamKeeper
