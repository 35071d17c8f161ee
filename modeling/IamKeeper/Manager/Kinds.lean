import IamKeeper.Manager.Group
import IamKeeper.Manager.InstanceProfile
import IamKeeper.Manager.OidcProvider
import IamKeeper.Manager.Policy
import IamKeeper.Manager.Role
import IamKeeper.Manager.SamlProvider
import IamKeeper.Manager.ServiceLinkedRole
import IamKeeper.Manager.User

namespace IamKeeper

def Kind.manager : (kind : Kind) → Manager kind.Spec kind.Detail
  | .role => roleManager
  | .policy => policyManager
  | .group => groupManager
  | .user => userManager
  | .instanceProfile => instanceProfileManager
  | .oidcProvider => oidcProviderManager
  | .samlProvider => samlProviderManager
  | .serviceLinkedRole => serviceLinkedRoleManager

end IamKeeper
