import IamKeeper.Iam.Query.Result

namespace IamKeeper.Iam.Query

open Xml (Element Record Token)

/-- Codes of complaints, with the actions that declare them. -/
def declarations : List (List String × List String) := [
  (["NoSuchEntity"],
    ["GetRole", "GetUser", "GetGroup", "GetInstanceProfile", "GetRolePolicy", "GetUserPolicy",
      "GetGroupPolicy", "ListRolePolicies", "ListUserPolicies", "ListGroupPolicies",
      "ListRoleTags", "ListUserTags", "ListInstanceProfileTags",
      "DeleteUserPermissionsBoundary"]),
  (["NoSuchEntity", "InvalidInput"],
    ["ListAttachedRolePolicies", "ListAttachedUserPolicies", "ListAttachedGroupPolicies",
      "ListPolicyTags", "ListOpenIDConnectProviderTags", "ListSAMLProviderTags", "GetPolicy",
      "GetPolicyVersion", "ListPolicyVersions", "GetOpenIDConnectProvider",
      "RemoveClientIDFromOpenIDConnectProvider", "DeleteOpenIDConnectProvider",
      "GetSAMLProvider"]),
  (["NoSuchEntity", "UnmodifiableEntity"], ["UpdateRole", "DeleteRolePermissionsBoundary"]),
  (["NoSuchEntity", "InvalidInput", "PolicyNotAttachable"], ["PutUserPermissionsBoundary"]),
  (["NoSuchEntity", "InvalidInput", "PolicyNotAttachable", "UnmodifiableEntity"],
    ["PutRolePermissionsBoundary"]),
  (["NoSuchEntity", "ConcurrentModification"], ["UntagRole", "UntagUser"]),
  (["NoSuchEntity", "ConcurrentModification", "InvalidInput"],
    ["UntagPolicy", "UntagInstanceProfile", "UntagOpenIDConnectProvider", "UntagSAMLProvider",
      "UpdateOpenIDConnectProviderThumbprint"]),
  (["NoSuchEntity", "LimitExceeded"],
    ["DeleteUserPolicy", "DeleteGroupPolicy", "DeleteServiceLinkedRole"]),
  (["NoSuchEntity", "LimitExceeded", "UnmodifiableEntity"],
    ["DeleteRolePolicy", "RemoveRoleFromInstanceProfile"]),
  (["NoSuchEntity", "LimitExceeded", "InvalidInput"],
    ["DetachUserPolicy", "DetachGroupPolicy", "AddClientIDToOpenIDConnectProvider",
      "DeleteSAMLProvider", "CreateServiceLinkedRole"]),
  (["NoSuchEntity", "LimitExceeded", "InvalidInput", "UnmodifiableEntity"],
    ["DetachRolePolicy"]),
  (["NoSuchEntity", "LimitExceeded", "InvalidInput", "PolicyNotAttachable"],
    ["AttachUserPolicy", "AttachGroupPolicy"]),
  (["NoSuchEntity", "LimitExceeded", "InvalidInput", "PolicyNotAttachable",
      "UnmodifiableEntity"],
    ["AttachRolePolicy"]),
  (["NoSuchEntity", "LimitExceeded", "InvalidInput", "ConcurrentModification"],
    ["TagRole", "TagUser", "TagPolicy", "TagInstanceProfile", "TagOpenIDConnectProvider",
      "TagSAMLProvider", "UpdateSAMLProvider"]),
  (["NoSuchEntity", "LimitExceeded", "InvalidInput", "DeleteConflict"],
    ["DeletePolicy", "DeletePolicyVersion"]),
  (["NoSuchEntity", "LimitExceeded", "MalformedPolicyDocument"],
    ["PutUserPolicy", "PutGroupPolicy"]),
  (["NoSuchEntity", "LimitExceeded", "MalformedPolicyDocument", "UnmodifiableEntity"],
    ["PutRolePolicy", "UpdateAssumeRolePolicy"]),
  (["NoSuchEntity", "LimitExceeded", "MalformedPolicyDocument", "InvalidInput"],
    ["CreatePolicyVersion"]),
  (["NoSuchEntity", "LimitExceeded", "DeleteConflict"], ["DeleteGroup", "DeleteInstanceProfile"]),
  (["NoSuchEntity", "LimitExceeded", "DeleteConflict", "ConcurrentModification"], ["DeleteUser"]),
  (["NoSuchEntity", "LimitExceeded", "DeleteConflict", "ConcurrentModification",
      "UnmodifiableEntity"],
    ["DeleteRole"]),
  (["NoSuchEntity", "LimitExceeded", "EntityAlreadyExists"], ["CreateGroup", "UpdateGroup"]),
  (["NoSuchEntity", "LimitExceeded", "EntityAlreadyExists", "UnmodifiableEntity"],
    ["AddRoleToInstanceProfile"]),
  (["NoSuchEntity", "LimitExceeded", "EntityAlreadyExists", "ConcurrentModification",
      "EntityTemporarilyUnmodifiable"],
    ["UpdateUser"]),
  (["NoSuchEntity", "LimitExceeded", "EntityAlreadyExists", "ConcurrentModification",
      "InvalidInput"],
    ["CreateUser"]),
  (["LimitExceeded", "EntityAlreadyExists", "ConcurrentModification", "InvalidInput"],
    ["CreateInstanceProfile", "CreateSAMLProvider"]),
  (["LimitExceeded", "EntityAlreadyExists", "ConcurrentModification", "InvalidInput",
      "OpenIdIdpCommunicationError"],
    ["CreateOpenIDConnectProvider"]),
  (["LimitExceeded", "EntityAlreadyExists", "ConcurrentModification", "InvalidInput",
      "MalformedPolicyDocument"],
    ["CreateRole", "CreatePolicy"])]

/-- Whether an action declares a code. All actions declare a failure of the service. -/
def declares (action code : String) : Bool :=
  code = "ServiceFailure" ||
    declarations.any fun (codes, actions) => actions.contains action && codes.contains code

structure Complaint where
  code : Option String
  message : Option String
deriving Repr, DecidableEq

/-- A complaint in the outermost element; several elements named `Error` count as one. -/
def complaint : Record Complaint where
  known := [("Error", .members told.known)]
  read found := told.read (Xml.inside "Error" found |>.flatMap fun
    | .members found => found
    | .text _ => [])
where
  told : Record Complaint :=
    Complaint.mk <$> optionalText "Code" <*> optionalText "Message"

/-- The first element named `Error` that stands right in the outermost element, and the tokens
behind its opening tag. An opening tag that is not readable hides it. -/
def declaredError? : List Token → Option (Element × List Token)
  | [] | .malformed :: _ | .opening _ _ false :: _ => none
  | .opening tag isEmpty true :: rest =>
    let e : Element := ⟨tag, isEmpty⟩
    if tag.depth = 1 ∧ e.name = "Error" then some (e, rest) else declaredError? rest
  | _ :: rest => declaredError? rest

def isDeclaredForm (root : Element) (tokens : List Token) : Bool :=
  root.name = "ErrorResponse" &&
    (declaredError? tokens).any fun (error, tokens) =>
      ((optionalText "message").within error tokens).isSome

/-- What a document complains of. The name of its outermost element says nothing; only where the code is one that the
action declares, the document has to be of the declared form. -/
def complaint? (action body : String) : Option Complaint := do
  let (root, tokens) ← Xml.front? (Xml.tokens body)
  let found ← complaint.within root tokens
  if found.code.any (declares action) && !isDeclaredForm root tokens then none else some found

end IamKeeper.Iam.Query
