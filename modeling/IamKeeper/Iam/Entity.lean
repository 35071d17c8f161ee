import IamKeeper.Resource.Specs

namespace IamKeeper.Iam

open Time (Instant)

/-- An identity to which policies can be attached. -/
inductive Principal where
  | role (name : String)
  | user (name : String)
  | group (name : String)
deriving Repr, DecidableEq

def Principal.name : Principal → String
  | role name | user name | group name => name

/-- A principal as it is called in messages. -/
def Principal.text : Principal → String
  | role name => s!"role {name}"
  | user name => s!"user {name}"
  | group name => s!"group {name}"

/-- An entity that carries tags. Roles, users and instance profiles are addressed by name, the
others by ARN. -/
inductive TagTarget where
  | role (name : String)
  | user (name : String)
  | policy (arn : String)
  | instanceProfile (name : String)
  | oidcProvider (arn : String)
  | samlProvider (arn : String)
deriving Repr, DecidableEq

def TagTarget.text : TagTarget → String
  | role name => s!"role {name}"
  | user name => s!"user {name}"
  | policy arn => s!"policy {arn}"
  | instanceProfile name => s!"instance profile {name}"
  | oidcProvider arn => s!"OIDC provider {arn}"
  | samlProvider arn => s!"SAML provider {arn}"

/-- A role; the trust policy is query-escaped. -/
structure RoleReport where
  arn : String
  id : String
  name : String
  path : String
  description : Option String
  maxSession : Option Int32
  trust : Option String
  boundary : Option String
  created : Option Instant
  lastUsed : Option LastUsed
deriving DecidableEq, Inhabited

structure PolicyReport where
  arn : String
  id : Option String
  name : Option String
  path : Option String
  description : Option String
  defaultVersion : Option String
  attachments : Option Int32
  boundaryUses : Option Int32
  attachable : Bool
  created : Option Instant
  updated : Option Instant
deriving DecidableEq, Inhabited

/-- A version of a policy; the document is query-escaped, and listings leave it out. -/
structure PolicyVersion where
  id : String
  document : Option String
  isDefault : Bool
  created : Option Instant
deriving DecidableEq, Inhabited

structure GroupReport where
  arn : String
  id : String
  name : String
  path : String
  created : Option Instant
deriving DecidableEq, Inhabited

structure UserReport where
  arn : String
  id : String
  name : String
  path : String
  boundary : Option String
  created : Option Instant
  passwordLastUsed : Option Instant
deriving DecidableEq, Inhabited

structure InstanceProfileReport where
  arn : String
  id : String
  name : String
  path : String
  roles : List String
  created : Option Instant
deriving DecidableEq, Inhabited

structure OidcProviderReport where
  url : Option String
  clientIds : List String
  thumbprints : List String
  created : Option Instant
deriving DecidableEq, Inhabited

structure SamlProviderReport where
  document : Option String
  created : Option Instant
  validUntil : Option Instant
deriving DecidableEq, Inhabited

end IamKeeper.Iam
