import IamKeeper.Iam.Attachments
import IamKeeper.Iam.Tags
import IamKeeper.Manager.Basic

namespace IamKeeper

namespace UserManager

open Iam Job Manager

abbrev UserObject : Type := Kind.user.Object

def detailOf (report : UserReport) : UserDetail :=
  ⟨some report.id, report.created, report.passwordLastUsed⟩

def record (o : UserObject) (report : UserReport) : UserObject :=
  (o.withIdentity (Identity.ofArn report.arn)).withDetail (detailOf report)

def lateInitialize (desired latest : UserSpec) : UserSpec :=
  { desired with path := desired.path <|> latest.path }

def delta (a b : UserSpec) : Delta :=
  Delta.empty
    |>.addIf (a.name ≠ b.name) "Spec.Name"
    |>.addIf (!sameGiven a.path b.path) "Spec.Path"
    |>.addIf (!sameGiven a.boundary b.boundary) "Spec.PermissionsBoundary"
    |>.addIf (!sameMembers a.policies b.policies) "Spec.Policies"
    |>.addIf (!sameInline a.inline b.inline) "Spec.InlinePolicies"
    |>.addIf (!Tag.same a.tags b.tags) "Spec.Tags"

def readOne (desired : UserObject) : Job (Option UserObject) := do
  match ← iam (.getUser desired.spec.name) with
  | none => return none
  | some report =>
    let principal := Principal.user report.name
    let policies ← iam (.listAttached principal)
    let inline ← inlinePolicies principal
    let tags ← iam (.listTags (.user report.name))
    let spec : UserSpec :=
      { desired.spec with
        name := report.name
        path := some report.path
        boundary := report.boundary
        policies
        inline
        tags }
    return some (record { desired with spec } report)

def create (desired : UserObject) : Job UserObject := do
  let report ← iam (.createUser desired.spec)
  info s!"created user {report.arn}"
  let principal := Principal.user report.name
  syncAttached principal desired.spec.policies []
  syncInline principal desired.spec.inline ∅
  return record desired report

def change (desired latest : UserObject) (delta : Delta) : Job UserObject := do
  let name := latest.spec.name
  let principal := Principal.user name
  whenDiffers delta "Spec.Policies" <|
    syncAttached principal desired.spec.policies latest.spec.policies
  whenDiffers delta "Spec.InlinePolicies" <|
    syncInline principal desired.spec.inline latest.spec.inline
  whenDiffers delta "Spec.PermissionsBoundary" <|
    syncBoundary principal desired.spec.boundary latest.spec.boundary
  whenDiffers delta "Spec.Tags" <|
    syncTags (.user name) desired.spec.tags latest.spec.tags
  whenDiffers delta "Spec.Path" <|
    iam (.updateUser name (desired.spec.path.getD defaultPath))
  noteUpdate s!"user {name}" delta
  return desired.observe latest

def delete (latest : UserObject) : Job Unit := do
  let name := latest.spec.name
  removeAllPolicies (.user name)
  iam (.deleteUser name)
  info s!"deleted user {name}"

end UserManager

def userManager : Manager UserSpec UserDetail where
  resolve := UserSpec.resolve
  lateInitialize := UserManager.lateInitialize
  delta := UserManager.delta
  immutable := ["Spec.Name"]
  readOne := UserManager.readOne
  create := UserManager.create
  change := UserManager.change
  delete := UserManager.delete

end IamKeeper
