import IamKeeper.Iam.Attachments
import IamKeeper.Iam.Tags
import IamKeeper.Manager.Basic
import IamKeeper.Text.Blank
import IamKeeper.Text.Split

namespace IamKeeper

namespace OidcProviderManager

open Iam Job Manager

abbrev ProviderObject : Type := Kind.oidcProvider.Object

/-- The scheme that IAM leaves out when it reports an issuer. -/
def scheme : List Char :=
  ['h', 't', 't', 'p', 's', ':', '/', '/']

/-- The issuer of a URL: without the scheme, and without slashes at the end. -/
def issuer (url : String) : List Char :=
  let s := url.toList
  Text.dropTrailing (· = '/') ((Text.afterFront? scheme s).getD s)

def delta (a b : OidcProviderSpec) : Delta :=
  Delta.empty
    |>.addIf (issuer a.url ≠ issuer b.url) "Spec.URL"
    |>.addIf (!sameMembers a.clientIds b.clientIds) "Spec.ClientIDs"
    |>.addIf (!sameMembers a.thumbprints b.thumbprints) "Spec.Thumbprints"
    |>.addIf (!Tag.same a.tags b.tags) "Spec.Tags"

def addClientId (arn clientId : String) : Job Unit := do
  debug s!"adding client id {clientId} to {arn}"
  iam (.addClientId arn clientId)

def removeClientId (arn clientId : String) : Job Unit := do
  debug s!"removing client id {clientId} from {arn}"
  iam (.removeClientId arn clientId)

/-- Adds the client ids that are only desired, then removes those that are only there. -/
def syncClientIds (arn : String) (desired latest : List String) : Job Unit := do
  Plan.forEach (addClientId arn) (difference desired latest)
  Plan.forEach (removeClientId arn) (difference latest desired)

def readOne (desired : ProviderObject) : Job (Option ProviderObject) :=
  match desired.arn with
  | none => pure none
  | some arn => do
    match ← iam (.getOidcProvider arn) with
    | none => return none
    | some report =>
      let tags ← iam (.listTags (.oidcProvider arn))
      let spec : OidcProviderSpec :=
        { url := report.url.getD desired.spec.url
          clientIds := report.clientIds
          thumbprints := report.thumbprints
          tags }
      return some { desired with spec }

def create (desired : ProviderObject) : Job ProviderObject := do
  let arn ← iam (.createOidcProvider desired.spec)
  info s!"created OIDC provider {arn}"
  return desired.withIdentity (Identity.ofArn arn)

def change (desired latest : ProviderObject) (delta : Delta) : Job ProviderObject :=
  let updated := desired.observe latest
  match latest.arn with
  | none => pure updated
  | some arn => do
    whenDiffers delta "Spec.Thumbprints" <|
      iam (.updateThumbprints arn desired.spec.thumbprints)
    whenDiffers delta "Spec.ClientIDs" <|
      syncClientIds arn desired.spec.clientIds latest.spec.clientIds
    whenDiffers delta "Spec.Tags" <|
      syncTags (.oidcProvider arn) desired.spec.tags latest.spec.tags
    noteUpdate s!"OIDC provider {arn}" delta
    return updated

def delete (latest : ProviderObject) : Job Unit :=
  match latest.arn with
  | none => pure ()
  | some arn => do
    iam (.deleteOidcProvider arn)
    info s!"deleted OIDC provider {arn}"

end OidcProviderManager

def oidcProviderManager : Manager OidcProviderSpec OidcProviderDetail where
  resolve := Resolution.none
  lateInitialize := Manager.keepDesired
  delta := OidcProviderManager.delta
  immutable := ["Spec.URL"]
  readOne := OidcProviderManager.readOne
  create := OidcProviderManager.create
  change := OidcProviderManager.change
  delete := OidcProviderManager.delete

end IamKeeper
