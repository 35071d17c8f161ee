import IamKeeper.Iam.Tags
import IamKeeper.Manager.Basic
import IamKeeper.Text.Blank
import IamKeeper.Text.Split

namespace IamKeeper

namespace SamlProviderManager

open Iam Job Manager

abbrev ProviderObject : Type := Kind.samlProvider.Object

/-- What stands before the name of a provider in its ARN. -/
def marker : List Char :=
  [':', 's', 'a', 'm', 'l', '-', 'p', 'r', 'o', 'v', 'i', 'd', 'e', 'r', '/']

/-- The rest of a text behind the last occurrence of a part. -/
def afterLast? (part : List Char) : List Char → Option (List Char)
  | [] => Text.afterFront? part []
  | c :: s =>
    match afterLast? part s with
    | some rest => some rest
    | none => Text.afterFront? part (c :: s)

def nameOf? (arn : String) : Option String :=
  (afterLast? marker arn.toList).map String.ofList

def delta (a b : SamlProviderSpec) : Delta :=
  Delta.empty
    |>.addIf (a.name ≠ b.name) "Spec.Name"
    |>.addIf (Text.trim a.document ≠ Text.trim b.document) "Spec.SAMLMetadataDocument"
    |>.addIf (!Tag.same a.tags b.tags) "Spec.Tags"

def readOne (desired : ProviderObject) : Job (Option ProviderObject) :=
  match desired.arn with
  | none => pure none
  | some arn => do
    match ← iam (.getSamlProvider arn) with
    | none => return none
    | some report =>
      let tags ← iam (.listTags (.samlProvider arn))
      let spec : SamlProviderSpec :=
        { name := (nameOf? arn).getD desired.spec.name
          document := report.document.getD desired.spec.document
          tags }
      let latest : ProviderObject := { desired with spec }
      return some (latest.withDetail ⟨report.created, report.validUntil⟩)

def create (desired : ProviderObject) : Job ProviderObject := do
  let arn ← iam (.createSamlProvider desired.spec)
  info s!"created SAML provider {arn}"
  return desired.withIdentity (Identity.ofArn arn)

def change (desired latest : ProviderObject) (delta : Delta) : Job ProviderObject :=
  let updated := desired.observe latest
  match latest.arn with
  | none => pure updated
  | some arn => do
    whenDiffers delta "Spec.SAMLMetadataDocument" <|
      iam (.updateSamlProvider arn desired.spec.document)
    whenDiffers delta "Spec.Tags" <|
      syncTags (.samlProvider arn) desired.spec.tags latest.spec.tags
    noteUpdate s!"SAML provider {arn}" delta
    return updated

def delete (latest : ProviderObject) : Job Unit :=
  match latest.arn with
  | none => pure ()
  | some arn => do
    iam (.deleteSamlProvider arn)
    info s!"deleted SAML provider {arn}"

end SamlProviderManager

def samlProviderManager : Manager SamlProviderSpec SamlProviderDetail where
  resolve := Resolution.none
  lateInitialize := Manager.keepDesired
  delta := SamlProviderManager.delta
  immutable := ["Spec.Name"]
  readOne := SamlProviderManager.readOne
  create := SamlProviderManager.create
  change := SamlProviderManager.change
  delete := SamlProviderManager.delete

end IamKeeper
