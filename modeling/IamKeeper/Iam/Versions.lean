import IamKeeper.Job

namespace IamKeeper.Iam

open Job (iam debug info)
open Time (Instant)

def versionLimit : Nat := 5

/-- Whether `a` is not later than `b`; an unknown time is the earliest. -/
def notLater : Option Instant → Option Instant → Bool
  | none, _ => true
  | some _, none => false
  | some a, some b => !b.lt a

/-- Versions from the oldest to the newest; those of one age stay as they are. -/
def byAge (versions : List PolicyVersion) : List PolicyVersion :=
  versions.mergeSort fun a b => notLater a.created b.created

def policyVersions (arn : String) : Job (List PolicyVersion) := do
  let versions ← iam (.listPolicyVersions arn)
  return byAge versions

/-- The oldest version that is not the default one. -/
def expendable? (versions : List PolicyVersion) : Option PolicyVersion :=
  versions.find? fun version => !version.isDefault

/-- Makes room for one more version: at the limit the oldest one goes that is not the default. -/
def makeRoom (arn : String) : Job Unit := do
  let versions ← policyVersions arn
  if versions.length < versionLimit then pure ()
  else
    match expendable? versions with
    | none => pure ()
    | some version => do
      iam (.deletePolicyVersion arn version.id)
      info (s!"policy {arn} reached {versionLimit} versions, " ++
        s!"deleted oldest non-default version {version.id}")

/-- Creates a new default version of a policy, and gives its id. -/
def updateDocument (arn document : String) : Job String := do
  makeRoom arn
  let version ← iam (.createPolicyVersion arn document true)
  debug s!"policy {arn} now defaults to version {version.id}"
  return version.id

def deleteUnlessDefault (arn : String) (version : PolicyVersion) : Job Unit :=
  if version.isDefault then pure ()
  else do
    debug s!"deleting version {version.id} of policy {arn}"
    iam (.deletePolicyVersion arn version.id)

/-- Deletes all versions but the default one, so that the policy can be deleted. -/
def deleteOtherVersions (arn : String) : Job Unit := do
  let versions ← policyVersions arn
  Plan.forEach (deleteUnlessDefault arn) versions

end IamKeeper.Iam
