import IamKeeper.Resource.Object
import IamKeeper.Resource.Specs

namespace IamKeeper

open Json (Codec Record)

inductive Kind where
  | role
  | policy
  | group
  | user
  | instanceProfile
  | oidcProvider
  | samlProvider
  | serviceLinkedRole
deriving Repr, DecidableEq

def apiGroup : String := "iam.services.k8s.aws"

def apiVersion : String := "v1alpha1"

namespace Kind

def all : List Kind :=
  [role, policy, group, user, instanceProfile, oidcProvider, samlProvider, serviceLinkedRole]

def name : Kind → String
  | role => "Role"
  | policy => "Policy"
  | group => "Group"
  | user => "User"
  | instanceProfile => "InstanceProfile"
  | oidcProvider => "OpenIDConnectProvider"
  | samlProvider => "SAMLProvider"
  | serviceLinkedRole => "ServiceLinkedRole"

def of? (name : String) : Option Kind :=
  all.find? fun kind => kind.name = name

/-- The name of one object of a kind, as it stands in definitions. -/
def singular : Kind → String
  | role => "role"
  | policy => "policy"
  | group => "group"
  | user => "user"
  | instanceProfile => "instanceprofile"
  | oidcProvider => "openidconnectprovider"
  | samlProvider => "samlprovider"
  | serviceLinkedRole => "servicelinkedrole"

/-- The name of the objects of a kind, as it stands in paths. -/
def plural : Kind → String
  | policy => "policies"
  | kind => kind.singular ++ "s"

/-- The mark that keeps an object of a kind from vanishing before its entity is gone. -/
def finalizer (kind : Kind) : String :=
  s!"finalizers.{apiGroup}/{kind.name}"

@[reducible]
def Spec : Kind → Type
  | role => RoleSpec
  | policy => PolicySpec
  | group => GroupSpec
  | user => UserSpec
  | instanceProfile => InstanceProfileSpec
  | oidcProvider => OidcProviderSpec
  | samlProvider => SamlProviderSpec
  | serviceLinkedRole => ServiceLinkedRoleSpec

@[reducible]
def Detail : Kind → Type
  | role => RoleDetail
  | policy => PolicyDetail
  | group => GroupDetail
  | user => UserDetail
  | instanceProfile => InstanceProfileDetail
  | oidcProvider => OidcProviderDetail
  | samlProvider => SamlProviderDetail
  | serviceLinkedRole => ServiceLinkedRoleDetail

instance (kind : Kind) : Inhabited kind.Detail :=
  match kind with
  | role => inferInstanceAs (Inhabited RoleDetail)
  | policy => inferInstanceAs (Inhabited PolicyDetail)
  | group => inferInstanceAs (Inhabited GroupDetail)
  | user => inferInstanceAs (Inhabited UserDetail)
  | instanceProfile => inferInstanceAs (Inhabited InstanceProfileDetail)
  | oidcProvider => inferInstanceAs (Inhabited OidcProviderDetail)
  | samlProvider => inferInstanceAs (Inhabited SamlProviderDetail)
  | serviceLinkedRole => inferInstanceAs (Inhabited ServiceLinkedRoleDetail)

def specCodec : (kind : Kind) → Codec kind.Spec
  | role => RoleSpec.codec
  | policy => PolicySpec.codec
  | group => GroupSpec.codec
  | user => UserSpec.codec
  | instanceProfile => InstanceProfileSpec.codec
  | oidcProvider => OidcProviderSpec.codec
  | samlProvider => SamlProviderSpec.codec
  | serviceLinkedRole => ServiceLinkedRoleSpec.codec

def detailRecord : (kind : Kind) → Record kind.Detail kind.Detail
  | role => RoleDetail.record
  | policy => PolicyDetail.record
  | group => GroupDetail.record
  | user => UserDetail.record
  | instanceProfile => InstanceProfileDetail.record
  | oidcProvider => OidcProviderDetail.record
  | samlProvider => SamlProviderDetail.record
  | serviceLinkedRole => ServiceLinkedRoleDetail.record

def statusCodec (kind : Kind) : Codec (Status kind.Detail) :=
  (Status.record kind.detailRecord).codec

abbrev Object (kind : Kind) : Type :=
  IamKeeper.Object kind.Spec kind.Detail

def objectRecord (kind : Kind) : Record kind.Object kind.Object :=
  Object.record kind.specCodec kind.statusCodec

def decode (kind : Kind) (v : Json) : Option kind.Object :=
  kind.objectRecord.codec.decode v

/-- Writes an object of a kind, with the name of the kind and its version. -/
def encode (kind : Kind) (o : kind.Object) : Json :=
  ((kind.objectRecord.codec.encode o).setMember "apiVersion"
    (.string (apiGroup ++ "/" ++ apiVersion))).setMember "kind" (.string kind.name)

/-- The patch that replaces the status of an object. -/
def statusPatch (kind : Kind) (o : kind.Object) : Json :=
  o.statusPatch kind.statusCodec

end Kind

abbrev PolicyObject : Type := Kind.policy.Object

abbrev RoleObject : Type := Kind.role.Object

end IamKeeper
