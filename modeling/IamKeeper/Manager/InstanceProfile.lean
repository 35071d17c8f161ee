import IamKeeper.Iam.Attachments
import IamKeeper.Iam.Tags
import IamKeeper.Manager.Basic

namespace IamKeeper

namespace InstanceProfileManager

open Iam Job Manager

abbrev ProfileObject : Type := Kind.instanceProfile.Object

def detailOf (report : InstanceProfileReport) : InstanceProfileDetail :=
  ⟨some report.id, report.created⟩

def record (o : ProfileObject) (report : InstanceProfileReport) : ProfileObject :=
  (o.withIdentity (Identity.ofArn report.arn)).withDetail (detailOf report)

def lateInitialize (desired latest : InstanceProfileSpec) : InstanceProfileSpec :=
  { desired with path := desired.path <|> latest.path }

def delta (a b : InstanceProfileSpec) : Delta :=
  Delta.empty
    |>.addIf (a.name ≠ b.name) "Spec.Name"
    |>.addIf (!sameGiven a.path b.path) "Spec.Path"
    |>.addIf (!sameGiven a.role b.role) "Spec.Role"
    |>.addIf (!Tag.same a.tags b.tags) "Spec.Tags"

def takeRole (profile : String) : Option String → Job Unit
  | none => pure ()
  | some role => do
    debug s!"removing role {role} from instance profile {profile}"
    iam (.removeRole profile role)

def putRole (profile : String) : Option String → Job Unit
  | none => pure ()
  | some role => do
    debug s!"adding role {role} to instance profile {profile}"
    iam (.addRole profile role)

/-- Takes the present role out before the desired one is put in. -/
def syncRole (profile : String) (desired latest : Option String) : Job Unit :=
  if given desired = given latest then pure ()
  else do
    takeRole profile (given latest)
    putRole profile (given desired)

def readOne (desired : ProfileObject) : Job (Option ProfileObject) := do
  match ← iam (.getInstanceProfile desired.spec.name) with
  | none => return none
  | some report =>
    let tags ← iam (.listTags (.instanceProfile report.name))
    let spec : InstanceProfileSpec :=
      { desired.spec with
        name := report.name
        path := some report.path
        role := report.roles.head?
        tags }
    return some (record { desired with spec } report)

def create (desired : ProfileObject) : Job ProfileObject := do
  let report ← iam (.createInstanceProfile desired.spec)
  info s!"created instance profile {report.arn}"
  syncRole report.name desired.spec.role none
  return record desired report

def change (desired latest : ProfileObject) (delta : Delta) : Job ProfileObject := do
  let name := latest.spec.name
  whenDiffers delta "Spec.Role" <|
    syncRole name desired.spec.role latest.spec.role
  whenDiffers delta "Spec.Tags" <|
    syncTags (.instanceProfile name) desired.spec.tags latest.spec.tags
  noteUpdate s!"instance profile {name}" delta
  return desired.observe latest

def delete (latest : ProfileObject) : Job Unit := do
  let name := latest.spec.name
  syncRole name none latest.spec.role
  iam (.deleteInstanceProfile name)
  info s!"deleted instance profile {name}"

end InstanceProfileManager

def instanceProfileManager : Manager InstanceProfileSpec InstanceProfileDetail where
  resolve := InstanceProfileSpec.resolve
  lateInitialize := InstanceProfileManager.lateInitialize
  delta := InstanceProfileManager.delta
  immutable := ["Spec.Name", "Spec.Path"]
  readOne := InstanceProfileManager.readOne
  create := InstanceProfileManager.create
  change := InstanceProfileManager.change
  delete := InstanceProfileManager.delete

end IamKeeper
