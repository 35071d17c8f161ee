import IamKeeper.Identity
import IamKeeper.Reference
import IamKeeper.Tag

namespace IamKeeper

open Time (Instant)
open Json (Codec Member Record)

/-- A list member that is left out when it is empty. -/
def listMember {R α : Type} (name : String) (get : R → List α) (codec : Codec α) :
    Member R (List α) :=
  .omittable name get (.list codec) [] List.isEmpty

/-- A map member that is left out when it is empty. -/
def tableMember {R : Type} (name : String) (get : R → Table String) : Member R (Table String) :=
  .omittable name get (.table .string) ∅ Table.isEmpty

structure RoleSpec where
  name : String
  path : Option String
  description : Option String
  trust : String
  maxSession : Option Int32
  boundary : Option String
  boundaryRef : Option Reference
  policies : List String
  policyRefs : List Reference
  inline : Table String
  tags : List Tag
deriving DecidableEq

def RoleSpec.codec : Codec RoleSpec :=
  ((Record.start RoleSpec.mk)
    |>.field (.described (.required "name" RoleSpec.name .string)
      "Name of the role, unique within the account. Immutable.")
    |>.field (.described (.optional "path" RoleSpec.path .string)
      "Path of the role, defaults to `/`. Immutable.")
    |>.field (.optional "description" RoleSpec.description .string)
    |>.field (.described (.required "assumeRolePolicyDocument" RoleSpec.trust .string)
      "Trust policy that grants an entity permission to assume the role")
    |>.field (.described (.optional "maxSessionDuration" RoleSpec.maxSession .int32)
      "Maximum session duration in seconds, 3600 to 43200")
    |>.field (.described (.optional "permissionsBoundary" RoleSpec.boundary .string)
      "ARN of the managed policy used as permissions boundary")
    |>.field (.optional "permissionsBoundaryRef" RoleSpec.boundaryRef Reference.codec)
    |>.field (.described (listMember "policies" RoleSpec.policies .string)
      "ARNs of the managed policies attached to the role")
    |>.field (listMember "policyRefs" RoleSpec.policyRefs Reference.codec)
    |>.field (.described (tableMember "inlinePolicies" RoleSpec.inline)
      "Inline policy documents keyed by policy name")
    |>.field (listMember "tags" RoleSpec.tags Tag.codec)).codec.described
  "An IAM role with its trust policy, attached managed policies, inline policies, permissions boundary and tags"

structure RoleDetail where
  id : Option String
  created : Option Instant
  lastUsed : Option LastUsed
deriving DecidableEq, Inhabited

def RoleDetail.record : Record RoleDetail RoleDetail :=
  (Record.start RoleDetail.mk)
    |>.field (.nullable "roleID" RoleDetail.id .string)
    |>.field (.nullable "createDate" RoleDetail.created .instant)
    |>.field (.nullable "roleLastUsed" RoleDetail.lastUsed LastUsed.codec)

structure PolicySpec where
  name : String
  path : Option String
  description : Option String
  document : String
  tags : List Tag
deriving DecidableEq

def PolicySpec.codec : Codec PolicySpec :=
  ((Record.start PolicySpec.mk)
    |>.field (.described (.required "name" PolicySpec.name .string) "Immutable")
    |>.field (.described (.optional "path" PolicySpec.path .string)
      "Immutable, defaults to `/`")
    |>.field (.described (.optional "description" PolicySpec.description .string)
      "Immutable once assigned")
    |>.field (.described (.required "policyDocument" PolicySpec.document .string)
      "JSON policy document. Changing it creates a new default policy version.")
    |>.field (listMember "tags" PolicySpec.tags Tag.codec)).codec.described
  "A customer managed IAM policy"

structure PolicyDetail where
  id : Option String
  defaultVersion : Option String
  attachments : Option Int32
  boundaryUses : Option Int32
  attachable : Option Bool
  created : Option Instant
  updated : Option Instant
deriving DecidableEq, Inhabited

def PolicyDetail.record : Record PolicyDetail PolicyDetail :=
  (Record.start PolicyDetail.mk)
    |>.field (.nullable "policyID" PolicyDetail.id .string)
    |>.field (.nullable "defaultVersionID" PolicyDetail.defaultVersion .string)
    |>.field (.nullable "attachmentCount" PolicyDetail.attachments .int32)
    |>.field (.nullable "permissionsBoundaryUsageCount" PolicyDetail.boundaryUses .int32)
    |>.field (.nullable "isAttachable" PolicyDetail.attachable .bool)
    |>.field (.nullable "createDate" PolicyDetail.created .instant)
    |>.field (.nullable "updateDate" PolicyDetail.updated .instant)

structure GroupSpec where
  name : String
  path : Option String
  policies : List String
  policyRefs : List Reference
  inline : Table String
deriving DecidableEq

def GroupSpec.codec : Codec GroupSpec :=
  ((Record.start GroupSpec.mk)
    |>.field (.required "name" GroupSpec.name .string)
    |>.field (.optional "path" GroupSpec.path .string)
    |>.field (listMember "policies" GroupSpec.policies .string)
    |>.field (listMember "policyRefs" GroupSpec.policyRefs Reference.codec)
    |>.field (tableMember "inlinePolicies" GroupSpec.inline)).codec.described
  "An IAM group. Groups carry no tags and no permissions boundary."

structure GroupDetail where
  id : Option String
  created : Option Instant
deriving DecidableEq, Inhabited

def GroupDetail.record : Record GroupDetail GroupDetail :=
  (Record.start GroupDetail.mk)
    |>.field (.nullable "groupID" GroupDetail.id .string)
    |>.field (.nullable "createDate" GroupDetail.created .instant)

structure UserSpec where
  name : String
  path : Option String
  boundary : Option String
  boundaryRef : Option Reference
  policies : List String
  policyRefs : List Reference
  inline : Table String
  tags : List Tag
deriving DecidableEq

def UserSpec.codec : Codec UserSpec :=
  ((Record.start UserSpec.mk)
    |>.field (.required "name" UserSpec.name .string)
    |>.field (.optional "path" UserSpec.path .string)
    |>.field (.optional "permissionsBoundary" UserSpec.boundary .string)
    |>.field (.optional "permissionsBoundaryRef" UserSpec.boundaryRef Reference.codec)
    |>.field (listMember "policies" UserSpec.policies .string)
    |>.field (listMember "policyRefs" UserSpec.policyRefs Reference.codec)
    |>.field (tableMember "inlinePolicies" UserSpec.inline)
    |>.field (listMember "tags" UserSpec.tags Tag.codec)).codec.described
  "An IAM user"

structure UserDetail where
  id : Option String
  created : Option Instant
  passwordLastUsed : Option Instant
deriving DecidableEq, Inhabited

def UserDetail.record : Record UserDetail UserDetail :=
  (Record.start UserDetail.mk)
    |>.field (.nullable "userID" UserDetail.id .string)
    |>.field (.nullable "createDate" UserDetail.created .instant)
    |>.field (.nullable "passwordLastUsed" UserDetail.passwordLastUsed .instant)

structure InstanceProfileSpec where
  name : String
  path : Option String
  role : Option String
  roleRef : Option Reference
  tags : List Tag
deriving DecidableEq

def InstanceProfileSpec.codec : Codec InstanceProfileSpec :=
  ((Record.start InstanceProfileSpec.mk)
    |>.field (.described (.required "name" InstanceProfileSpec.name .string) "Immutable")
    |>.field (.described (.optional "path" InstanceProfileSpec.path .string)
      "Immutable, defaults to `/`")
    |>.field (.described (.optional "role" InstanceProfileSpec.role .string)
      "Name of the role to place in the instance profile")
    |>.field (.optional "roleRef" InstanceProfileSpec.roleRef Reference.codec)
    |>.field (listMember "tags" InstanceProfileSpec.tags Tag.codec)).codec.described
  "An IAM instance profile holding at most one role"

structure InstanceProfileDetail where
  id : Option String
  created : Option Instant
deriving DecidableEq, Inhabited

def InstanceProfileDetail.record : Record InstanceProfileDetail InstanceProfileDetail :=
  (Record.start InstanceProfileDetail.mk)
    |>.field (.nullable "instanceProfileID" InstanceProfileDetail.id .string)
    |>.field (.nullable "createDate" InstanceProfileDetail.created .instant)

structure OidcProviderSpec where
  url : String
  clientIds : List String
  thumbprints : List String
  tags : List Tag
deriving DecidableEq

def OidcProviderSpec.codec : Codec OidcProviderSpec :=
  ((Record.start OidcProviderSpec.mk)
    |>.field (.described (.required "url" OidcProviderSpec.url .string)
      "Issuer URL of the identity provider. Immutable.")
    |>.field (.described (listMember "clientIDs" OidcProviderSpec.clientIds .string)
      "Audiences allowed to use the provider")
    |>.field (.described (listMember "thumbprints" OidcProviderSpec.thumbprints .string)
      "Server certificate thumbprints of the identity provider")
    |>.field (listMember "tags" OidcProviderSpec.tags Tag.codec)).codec

/-- Nothing is observed of an OIDC provider but its identity. -/
structure OidcProviderDetail where
deriving DecidableEq, Inhabited

def OidcProviderDetail.record : Record OidcProviderDetail OidcProviderDetail :=
  .start {}

structure SamlProviderSpec where
  name : String
  document : String
  tags : List Tag
deriving DecidableEq

def SamlProviderSpec.codec : Codec SamlProviderSpec :=
  ((Record.start SamlProviderSpec.mk)
    |>.field (.described (.required "name" SamlProviderSpec.name .string) "Immutable")
    |>.field (.described (.required "samlMetadataDocument" SamlProviderSpec.document .string)
      "SAML metadata document issued by the identity provider")
    |>.field (listMember "tags" SamlProviderSpec.tags Tag.codec)).codec

structure SamlProviderDetail where
  created : Option Instant
  validUntil : Option Instant
deriving DecidableEq, Inhabited

def SamlProviderDetail.record : Record SamlProviderDetail SamlProviderDetail :=
  (Record.start SamlProviderDetail.mk)
    |>.field (.nullable "createDate" SamlProviderDetail.created .instant)
    |>.field (.nullable "validUntil" SamlProviderDetail.validUntil .instant)

structure ServiceLinkedRoleSpec where
  service : String
  suffix : Option String
  description : Option String
deriving DecidableEq

def ServiceLinkedRoleSpec.codec : Codec ServiceLinkedRoleSpec :=
  ((Record.start ServiceLinkedRoleSpec.mk)
    |>.field (.described (.required "awsServiceName" ServiceLinkedRoleSpec.service .string)
      "Service principal, e.g. `elasticbeanstalk.amazonaws.com`. Immutable.")
    |>.field (.described (.optional "customSuffix" ServiceLinkedRoleSpec.suffix .string) "Immutable")
    |>.field (.optional "description" ServiceLinkedRoleSpec.description .string)).codec.described
  "A role linked to an AWS service. IAM picks the role name, which is then tracked in status."

structure ServiceLinkedRoleDetail where
  name : Option String
  id : Option String
  created : Option Instant
  maxSession : Option Int32
  lastUsed : Option LastUsed
deriving DecidableEq, Inhabited

def ServiceLinkedRoleDetail.record : Record ServiceLinkedRoleDetail ServiceLinkedRoleDetail :=
  (Record.start ServiceLinkedRoleDetail.mk)
    |>.field (.nullable "roleName" ServiceLinkedRoleDetail.name .string)
    |>.field (.nullable "roleID" ServiceLinkedRoleDetail.id .string)
    |>.field (.nullable "createDate" ServiceLinkedRoleDetail.created .instant)
    |>.field (.nullable "maxSessionDuration" ServiceLinkedRoleDetail.maxSession .int32)
    |>.field (.nullable "roleLastUsed" ServiceLinkedRoleDetail.lastUsed LastUsed.codec)

end IamKeeper
