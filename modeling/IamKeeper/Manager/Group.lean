import IamKeeper.Iam.Attachments
import IamKeeper.Manager.Basic

namespace IamKeeper

namespace GroupManager

open Iam Job Manager

abbrev GroupObject : Type := Kind.group.Object

def detailOf (report : GroupReport) : GroupDetail :=
  ⟨some report.id, report.created⟩

def record (o : GroupObject) (report : GroupReport) : GroupObject :=
  (o.withIdentity (Identity.ofArn report.arn)).withDetail (detailOf report)

def lateInitialize (desired latest : GroupSpec) : GroupSpec :=
  { desired with path := desired.path <|> latest.path }

def delta (a b : GroupSpec) : Delta :=
  Delta.empty
    |>.addIf (a.name ≠ b.name) "Spec.Name"
    |>.addIf (!sameGiven a.path b.path) "Spec.Path"
    |>.addIf (!sameMembers a.policies b.policies) "Spec.Policies"
    |>.addIf (!sameInline a.inline b.inline) "Spec.InlinePolicies"

def readOne (desired : GroupObject) : Job (Option GroupObject) := do
  match ← iam (.getGroup desired.spec.name) with
  | none => return none
  | some report =>
    let principal := Principal.group report.name
    let policies ← iam (.listAttached principal)
    let inline ← inlinePolicies principal
    let spec : GroupSpec :=
      { desired.spec with
        name := report.name
        path := some report.path
        policies
        inline }
    return some (record { desired with spec } report)

def create (desired : GroupObject) : Job GroupObject := do
  let report ← iam (.createGroup desired.spec)
  info s!"created group {report.arn}"
  let principal := Principal.group report.name
  syncAttached principal desired.spec.policies []
  syncInline principal desired.spec.inline ∅
  return record desired report

def change (desired latest : GroupObject) (delta : Delta) : Job GroupObject := do
  let name := latest.spec.name
  let principal := Principal.group name
  whenDiffers delta "Spec.Policies" <|
    syncAttached principal desired.spec.policies latest.spec.policies
  whenDiffers delta "Spec.InlinePolicies" <|
    syncInline principal desired.spec.inline latest.spec.inline
  whenDiffers delta "Spec.Path" <|
    iam (.updateGroup name (desired.spec.path.getD defaultPath))
  noteUpdate s!"group {name}" delta
  return desired.observe latest

def delete (latest : GroupObject) : Job Unit := do
  let name := latest.spec.name
  removeAllPolicies (.group name)
  iam (.deleteGroup name)
  info s!"deleted group {name}"

end GroupManager

def groupManager : Manager GroupSpec GroupDetail where
  resolve := GroupSpec.resolve
  lateInitialize := GroupManager.lateInitialize
  delta := GroupManager.delta
  immutable := ["Spec.Name"]
  readOne := GroupManager.readOne
  create := GroupManager.create
  change := GroupManager.change
  delete := GroupManager.delete

end IamKeeper
