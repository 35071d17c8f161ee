import IamKeeper.Fault
import IamKeeper.Iam.Entity
import IamKeeper.Plan

namespace IamKeeper.Iam

inductive Call where
  | createRole (spec : RoleSpec)
  | getRole (name : String)
  | updateRole (name : String) (description : Option String) (maxSession : Option Int32)
  | updateTrust (name document : String)
  | deleteRole (name : String)
  | putBoundary (principal : Principal) (policy : String)
  | deleteBoundary (principal : Principal)
  | listAttached (principal : Principal)
  | attach (principal : Principal) (policy : String)
  | detach (principal : Principal) (policy : String)
  | listInline (principal : Principal)
  | getInline (principal : Principal) (policy : String)
  | putInline (principal : Principal) (policy document : String)
  | deleteInline (principal : Principal) (policy : String)
  | listTags (target : TagTarget)
  | tag (target : TagTarget) (tags : List Tag)
  | untag (target : TagTarget) (keys : List String)
  | createPolicy (spec : PolicySpec)
  | getPolicy (arn : String)
  | getPolicyVersion (arn version : String)
  | listPolicyVersions (arn : String)
  | createPolicyVersion (arn document : String) (asDefault : Bool)
  | deletePolicyVersion (arn version : String)
  | deletePolicy (arn : String)
  | createGroup (spec : GroupSpec)
  | getGroup (name : String)
  | updateGroup (name path : String)
  | deleteGroup (name : String)
  | createUser (spec : UserSpec)
  | getUser (name : String)
  | updateUser (name path : String)
  | deleteUser (name : String)
  | createInstanceProfile (spec : InstanceProfileSpec)
  | getInstanceProfile (name : String)
  | addRole (profile role : String)
  | removeRole (profile role : String)
  | deleteInstanceProfile (name : String)
  | createOidcProvider (spec : OidcProviderSpec)
  | getOidcProvider (arn : String)
  | updateThumbprints (arn : String) (thumbprints : List String)
  | addClientId (arn clientId : String)
  | removeClientId (arn clientId : String)
  | deleteOidcProvider (arn : String)
  | createSamlProvider (spec : SamlProviderSpec)
  | getSamlProvider (arn : String)
  | updateSamlProvider (arn document : String)
  | deleteSamlProvider (arn : String)
  | createServiceLinkedRole (spec : ServiceLinkedRoleSpec)
  | deleteServiceLinkedRole (name : String)
deriving DecidableEq

/-- What a call that succeeds gives. Reading an entity that does not exist gives none; creating a
provider gives its ARN; deleting a service-linked role gives the task that deletes it. -/
@[reducible]
def Call.Result : Call → Type
  | createRole _ => RoleReport
  | getRole _ => Option RoleReport
  | listAttached _ => List String
  | listInline _ => List String
  | getInline _ _ => String
  | listTags _ => List Tag
  | createPolicy _ => PolicyReport
  | getPolicy _ => Option PolicyReport
  | getPolicyVersion _ _ => PolicyVersion
  | listPolicyVersions _ => List PolicyVersion
  | createPolicyVersion _ _ _ => PolicyVersion
  | createGroup _ => GroupReport
  | getGroup _ => Option GroupReport
  | createUser _ => UserReport
  | getUser _ => Option UserReport
  | createInstanceProfile _ => InstanceProfileReport
  | getInstanceProfile _ => Option InstanceProfileReport
  | createOidcProvider _ => String
  | getOidcProvider _ => Option OidcProviderReport
  | createSamlProvider _ => String
  | getSamlProvider _ => Option SamlProviderReport
  | createServiceLinkedRole _ => RoleReport
  | deleteServiceLinkedRole _ => String
  | _ => Unit

def Call.isRead : Call → Bool
  | getRole _ | listAttached _ | listInline _ | getInline _ _ | listTags _ | getPolicy _
  | getPolicyVersion _ _ | listPolicyVersions _ | getGroup _ | getUser _ | getInstanceProfile _
  | getOidcProvider _ | getSamlProvider _ => true
  | _ => false

def Call.isCreate : Call → Bool
  | createRole _ | createPolicy _ | createGroup _ | createUser _ | createInstanceProfile _
  | createOidcProvider _ | createSamlProvider _ | createServiceLinkedRole _ => true
  | _ => false

end IamKeeper.Iam
