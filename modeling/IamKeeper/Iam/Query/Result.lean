import IamKeeper.Iam.Entity
import IamKeeper.Text.Digits
import IamKeeper.Time.Timestamp
import IamKeeper.Xml.Reader

namespace IamKeeper.Iam.Query

open Time (Instant)
open Xml (Reader Record)
open Xml.Record (optional required)

def number : Reader Int32 :=
  .written fun s => do
    let n ← Text.integer? s.toList
    if Int32.minValue.toInt ≤ n ∧ n ≤ Int32.maxValue.toInt then some (Int32.ofInt n) else none

def flag : Reader Bool :=
  .written fun
    | "true" => some true
    | "false" => some false
    | _ => none

def instant : Reader Instant :=
  .written Instant.readTimestamp?

/-- A list; what is no item of it says nothing. -/
def list (item : Reader α) : Reader (List α) :=
  .record (.all "member" item)

/-- A text that is required; IAM may leave it out all the same, and then it is empty. -/
def requiredText (name : String) : Record String :=
  required name .text ""

def optionalText (name : String) : Record (Option String) :=
  optional name .text

def requiredList (name : String) (item : Reader α) : Record (List α) :=
  required name (list item) []

def created : Record Instant :=
  required "CreateDate" instant .epoch

def tag : Record Tag :=
  Tag.mk <$> requiredText "Key" <*> requiredText "Value"

def tags : Record (List Tag) :=
  requiredList "Tags" (.record tag)

def boundary : Record (Option String) :=
  Option.join <$> optional "PermissionsBoundary" (.record
    (optionalText "PermissionsBoundaryArn" <* optionalText "PermissionsBoundaryType"))

def lastUsed : Record LastUsed :=
  LastUsed.mk <$> optional "LastUsedDate" instant <*> optionalText "Region"

/-- The template that a role was made from. Nothing of it is kept, but a number of the wrong form spoils the result. -/
def roleTemplate : Record Unit :=
  pure () <* optional "TemplateMinorVersion" number

def role : Record RoleReport :=
  RoleReport.mk
    <$> requiredText "Arn"
    <*> requiredText "RoleId"
    <*> requiredText "RoleName"
    <*> requiredText "Path"
    <*> optionalText "Description"
    <*> optional "MaxSessionDuration" number
    <*> optionalText "AssumeRolePolicyDocument"
    <*> boundary
    <*> some <$> created
    <*> optional "RoleLastUsed" (.record lastUsed)
    <* tags
    <* optional "SourceRoleTemplate" (.record roleTemplate)

def policy : Record PolicyReport :=
  PolicyReport.mk
    <$> requiredText "Arn"
    <*> optionalText "PolicyId"
    <*> optionalText "PolicyName"
    <*> optionalText "Path"
    <*> optionalText "Description"
    <*> optionalText "DefaultVersionId"
    <*> optional "AttachmentCount" number
    <*> optional "PermissionsBoundaryUsageCount" number
    <*> required "IsAttachable" flag false
    <*> optional "CreateDate" instant
    <*> optional "UpdateDate" instant
    <* tags

def policyVersion : Record PolicyVersion :=
  PolicyVersion.mk
    <$> requiredText "VersionId"
    <*> optionalText "Document"
    <*> required "IsDefaultVersion" flag false
    <*> optional "CreateDate" instant

def group : Record GroupReport :=
  GroupReport.mk
    <$> requiredText "Arn"
    <*> requiredText "GroupId"
    <*> requiredText "GroupName"
    <*> requiredText "Path"
    <*> some <$> created

def user : Record UserReport :=
  UserReport.mk
    <$> requiredText "Arn"
    <*> requiredText "UserId"
    <*> requiredText "UserName"
    <*> requiredText "Path"
    <*> boundary
    <*> some <$> created
    <*> optional "PasswordLastUsed" instant
    <* tags

def instanceProfile : Record InstanceProfileReport :=
  InstanceProfileReport.mk
    <$> requiredText "Arn"
    <*> requiredText "InstanceProfileId"
    <*> requiredText "InstanceProfileName"
    <*> requiredText "Path"
    <*> List.map RoleReport.name <$> requiredList "Roles" (.record role)
    <*> some <$> created
    <* tags

/-- The members of an OIDC provider stand in the result itself. -/
def oidcProvider : Record OidcProviderReport :=
  OidcProviderReport.mk
    <$> optionalText "Url"
    <*> requiredList "ClientIDList" .text
    <*> requiredList "ThumbprintList" .text
    <*> optional "CreateDate" instant
    <* tags

/-- The key with which a SAML provider reads assertions; nothing of it is kept. -/
def privateKey : Record Unit :=
  pure () <* optionalText "KeyId" <* optional "Timestamp" instant

/-- The members of a SAML provider stand in the result itself. -/
def samlProvider : Record SamlProviderReport :=
  SamlProviderReport.mk
    <$> optionalText "SAMLMetadataDocument"
    <*> optional "CreateDate" instant
    <*> optional "ValidUntil" instant
    <* tags
    <* optionalText "SAMLProviderUUID"
    <* optionalText "AssertionEncryptionMode"
    <* optional "PrivateKeyList" (list (.record privateKey))

structure Page (α : Type) where
  items : List α
  marker : Option String

def page (items : Record (List α)) : Record (Page α) :=
  Page.mk <$> items <*> optionalText "Marker" <* required "IsTruncated" flag false

/-- The ARN of an attached policy, if it has one. -/
def attachedArn : Record (Option String) :=
  optionalText "PolicyArn" <* optionalText "PolicyName"

/-- The ARNs of attached policies; one without an ARN is passed over. -/
def attachedArns : Record (List String) :=
  List.filterMap id <$> requiredList "AttachedPolicies" (.record attachedArn)

def policyNames : Record (List String) :=
  requiredList "PolicyNames" .text

def policyVersions : Record (List PolicyVersion) :=
  requiredList "Versions" (.record policyVersion)

/-- The document of a policy that is part of a principal, beside the names of both. -/
def inlineDocument (principalName : String) : Record String :=
  requiredText "PolicyDocument" <* optionalText principalName <* optionalText "PolicyName"

/-- A group comes with a page of its members. -/
def groupWithMembers : Record GroupReport :=
  .orEmpty "Group" group <* page (requiredList "Users" (.record user))

/-- The ARN of a provider that was just made, beside its tags. -/
def newProvider (name : String) : Record (Option String) :=
  optionalText name <* tags

def result? (action : String) (r : Record α) (body : String) : Option α := do
  let (response, tokens) ← Xml.front? (Xml.tokens body)
  match response.next tokens with
  | (some result, tokens) =>
    if response.name = action ++ "Response" ∧ result.name = action ++ "Result" then
      r.within result tokens
    else none
  | (none, _) => none

end IamKeeper.Iam.Query
