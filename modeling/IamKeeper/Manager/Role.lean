import IamKeeper.Iam.Attachments
import IamKeeper.Iam.Tags
import IamKeeper.Manager.Basic

namespace IamKeeper

namespace RoleManager

open Iam Job Manager

/-- The session duration of roles that ask for none, in seconds. -/
def defaultMaxSession : Int32 := 3600

def detailOf (report : RoleReport) : RoleDetail :=
  ⟨some report.id, report.created, report.lastUsed⟩

def record (o : RoleObject) (report : RoleReport) : RoleObject :=
  (o.withIdentity (Identity.ofArn report.arn)).withDetail (detailOf report)

def lateInitialize (desired latest : RoleSpec) : RoleSpec :=
  { desired with
    path := desired.path <|> latest.path <|> some defaultPath
    maxSession := desired.maxSession <|> latest.maxSession <|> some defaultMaxSession
    description := desired.description <|> latest.description }

def delta (a b : RoleSpec) : Delta :=
  Delta.empty
    |>.addIf (a.name ≠ b.name) "Spec.Name"
    |>.addIf (!sameGiven a.path b.path) "Spec.Path"
    |>.addIf (!sameGiven a.description b.description) "Spec.Description"
    |>.addIf (!Document.equivalent a.trust b.trust) "Spec.AssumeRolePolicyDocument"
    |>.addIf (a.maxSession ≠ b.maxSession) "Spec.MaxSessionDuration"
    |>.addIf (!sameGiven a.boundary b.boundary) "Spec.PermissionsBoundary"
    |>.addIf (!sameMembers a.policies b.policies) "Spec.Policies"
    |>.addIf (!sameInline a.inline b.inline) "Spec.InlinePolicies"
    |>.addIf (!Tag.same a.tags b.tags) "Spec.Tags"

/-- The trust policy of a report; none is an empty one. -/
def trustOf (report : RoleReport) : Except Fault String :=
  match report.trust with
  | some encoded => Document.decode encoded
  | none => .ok ""

def readOne (desired : RoleObject) : Job (Option RoleObject) := do
  match ← iam (.getRole desired.spec.name) with
  | none => return none
  | some report =>
    let principal := Principal.role report.name
    let trust ← Plan.ofExcept (trustOf report)
    let policies ← iam (.listAttached principal)
    let inline ← inlinePolicies principal
    let tags ← iam (.listTags (.role report.name))
    let spec : RoleSpec :=
      { desired.spec with
        name := report.name
        path := some report.path
        description := report.description
        maxSession := report.maxSession
        trust
        boundary := report.boundary
        policies
        inline
        tags }
    return some (record { desired with spec } report)

def create (desired : RoleObject) : Job RoleObject := do
  let report ← iam (.createRole desired.spec)
  info s!"created role {report.arn}"
  let principal := Principal.role report.name
  syncAttached principal desired.spec.policies []
  syncInline principal desired.spec.inline ∅
  return record desired report

def change (desired latest : RoleObject) (delta : Delta) : Job RoleObject := do
  let name := latest.spec.name
  let principal := Principal.role name
  whenDiffers delta "Spec.Policies" <|
    syncAttached principal desired.spec.policies latest.spec.policies
  whenDiffers delta "Spec.InlinePolicies" <|
    syncInline principal desired.spec.inline latest.spec.inline
  whenDiffers delta "Spec.PermissionsBoundary" <|
    syncBoundary principal desired.spec.boundary latest.spec.boundary
  whenDiffers delta "Spec.Tags" <|
    syncTags (.role name) desired.spec.tags latest.spec.tags
  whenDiffers delta "Spec.AssumeRolePolicyDocument" <|
    iam (.updateTrust name desired.spec.trust)
  Plan.when (delta.differsAt "Spec.Description" || delta.differsAt "Spec.MaxSessionDuration") <|
    iam (.updateRole name desired.spec.description desired.spec.maxSession)
  noteUpdate s!"role {name}" delta
  return desired.observe latest

def delete (latest : RoleObject) : Job Unit := do
  let name := latest.spec.name
  removeAllPolicies (.role name)
  iam (.deleteRole name)
  info s!"deleted role {name}"

end RoleManager

def roleManager : Manager RoleSpec RoleDetail where
  resolve := RoleSpec.resolve
  lateInitialize := RoleManager.lateInitialize
  delta := RoleManager.delta
  immutable := ["Spec.Name", "Spec.Path"]
  readOne := RoleManager.readOne
  create := RoleManager.create
  change := RoleManager.change
  delete := RoleManager.delete

end IamKeeper
