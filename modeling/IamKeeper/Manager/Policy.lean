import IamKeeper.Iam.Attachments
import IamKeeper.Iam.Tags
import IamKeeper.Iam.Versions
import IamKeeper.Manager.Basic

namespace IamKeeper

namespace PolicyManager

open Iam Job Manager

def detailOf (report : PolicyReport) : PolicyDetail :=
  { id := report.id
    defaultVersion := report.defaultVersion
    attachments := report.attachments
    boundaryUses := report.boundaryUses
    attachable := some report.attachable
    created := report.created
    updated := report.updated }

def record (o : PolicyObject) (report : PolicyReport) : PolicyObject :=
  (o.withIdentity (Identity.ofArn report.arn)).withDetail (detailOf report)

def lateInitialize (desired latest : PolicySpec) : PolicySpec :=
  { desired with
    path := desired.path <|> latest.path <|> some defaultPath
    description := desired.description <|> latest.description }

def delta (a b : PolicySpec) : Delta :=
  Delta.empty
    |>.addIf (a.name ≠ b.name) "Spec.Name"
    |>.addIf (!sameGiven a.path b.path) "Spec.Path"
    |>.addIf (!sameGiven a.description b.description) "Spec.Description"
    |>.addIf (!Document.equivalent a.document b.document) "Spec.PolicyDocument"
    |>.addIf (!Tag.same a.tags b.tags) "Spec.Tags"

/-- The document of the default version; the desired one where IAM tells none. -/
def readDocument (desired : PolicySpec) (report : PolicyReport) : Job String :=
  match report.defaultVersion with
  | none => pure desired.document
  | some version => do
    let version ← iam (.getPolicyVersion report.arn version)
    match version.document with
    | none => return desired.document
    | some encoded => Plan.ofExcept (Document.decode encoded)

def readOne (desired : PolicyObject) : Job (Option PolicyObject) :=
  match desired.arn with
  | none => pure none
  | some arn => do
    match ← iam (.getPolicy arn) with
    | none => return none
    | some report =>
      let document ← readDocument desired.spec report
      let tags ← iam (.listTags (.policy report.arn))
      let spec : PolicySpec :=
        { name := report.name.getD desired.spec.name
          path := report.path
          description := report.description
          document
          tags }
      return some (record { desired with spec } report)

def create (desired : PolicyObject) : Job PolicyObject := do
  let report ← iam (.createPolicy desired.spec)
  info s!"created policy {report.arn}"
  return record desired report

def withVersion (o : PolicyObject) (version : String) : PolicyObject :=
  o.withDetail { o.statusOrEmpty.detail with defaultVersion := some version }

/-- Makes the desired document the default version when it differs. -/
def changeDocument (arn : String) (updated : PolicyObject) (delta : Delta) : Job PolicyObject :=
  if delta.differsAt "Spec.PolicyDocument" then do
    let version ← updateDocument arn updated.spec.document
    return withVersion updated version
  else pure updated

def change (desired latest : PolicyObject) (delta : Delta) : Job PolicyObject :=
  let updated := desired.observe latest
  match latest.arn with
  | none => pure updated
  | some arn => do
    let updated ← changeDocument arn updated delta
    whenDiffers delta "Spec.Tags" <|
      syncTags (.policy arn) desired.spec.tags latest.spec.tags
    noteUpdate s!"policy {arn}" delta
    return updated

def delete (latest : PolicyObject) : Job Unit :=
  match latest.arn with
  | none => pure ()
  | some arn => do
    deleteOtherVersions arn
    iam (.deletePolicy arn)
    info s!"deleted policy {arn}"

end PolicyManager

def policyManager : Manager PolicySpec PolicyDetail where
  resolve := Resolution.none
  lateInitialize := PolicyManager.lateInitialize
  delta := PolicyManager.delta
  immutable := ["Spec.Name", "Spec.Path", "Spec.Description"]
  readOne := PolicyManager.readOne
  create := PolicyManager.create
  change := PolicyManager.change
  delete := PolicyManager.delete

end IamKeeper
