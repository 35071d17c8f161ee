import IamKeeper.Iam.Call
import IamKeeper.Iam.Query.Complaint
import IamKeeper.Iam.Query.Form

namespace IamKeeper.Iam.Query

open Xml (Record)
open Xml.Record (optional)

/-- The fault of a request that was lost, or whose answer is no result. -/
def brokenReply (action : String) : Fault :=
  .iam action none "no readable answer"

/-- The fault of a request that IAM refused; a complaint that cannot be read tells nothing. -/
def refusal (action body : String) : Fault :=
  let complaint := (complaint? action body).getD ⟨none, none⟩
  .iam action complaint.code (complaint.message.getD "the request was refused")

/-- Sends a request; what comes back is the document that tells of a success. -/
def exchange (action : String) (parameters : List (String × String)) : Exchange String := do
  match ← Plan.request (I := connection) (Form.mk action parameters) with
  | .answer status body =>
    if 200 ≤ status ∧ status < 300 then return body else .fail (refusal action body)
  | .lost => .fail (brokenReply action)

def command (action : String) (parameters : List (String × String)) : Exchange Unit := do
  let _ ← exchange action parameters
  return ()

def query (action : String) (parameters : List (String × String)) (result : Record α) :
    Exchange α := do
  let body ← exchange action parameters
  match result? action result body with
  | some value => return value
  | none => .fail (brokenReply action)

def present (action result : String) : Option α → Exchange α
  | some value => pure value
  | none => .fail (.missingResult action result)

def queryPresent (action : String) (parameters : List (String × String)) (name : String)
    (result : Record (Option α)) : Exchange α := do
  let found ← query action parameters result
  present action name found

/-- Sends a request that must have a result, which is a member. -/
def queryMember (action : String) (parameters : List (String × String)) (name : String)
    (member : Record α) : Exchange α :=
  queryPresent action parameters name (optional name (.record member))

/-- No value when IAM does not know the entity. -/
def unlessMissing (exchange : Exchange α) : Exchange (Option α) := do
  match ← exchange.attempt with
  | .ok value => return some value
  | .error fault => if fault.isNotFound then return none else .fail fault

/-- Collects at most `limit` pages of a list. A page without a marker is the last, and so is one
with an empty marker or with the marker that led to it. -/
def pages (action : String) (parameters : List (String × String))
    (items : Record (List α)) : (limit : Nat) → (marker : Option String) → Exchange (List α)
  | 0, _ => .fail (.iam action none "the list has too many pages")
  | limit + 1, marker => do
    let found ← query action (parameters ++ optionalField "Marker" marker) (page items)
    match found.marker with
    | none => return found.items
    | some next =>
      if next.isEmpty ∨ marker = some next then return found.items
      else
        let rest ← pages action parameters items limit (some next)
        return found.items ++ rest

def boundaryCommand (verb : String) (principal : Principal)
    (parameters : List (String × String)) : Exchange Unit :=
  match principal with
  | .group _ => .fail (.terminal "groups do not support permissions boundaries")
  | _ =>
    command (verb ++ principalNoun principal ++ "PermissionsBoundary")
      (principalField principal :: parameters)

def policyCommand (verb : String) (principal : Principal)
    (parameters : List (String × String)) : Exchange Unit :=
  command (verb ++ principalNoun principal ++ "Policy") (principalField principal :: parameters)

def tagCommand (verb : String) (target : TagTarget) (parameters : List (String × String)) :
    Exchange Unit :=
  command (verb ++ targetNoun target) (targetField target :: parameters)

def roleField (name : String) : String × String :=
  ("RoleName", name)

/-- Carries out a call. Lists are followed for at most `limit` pages. -/
def send (limit : Nat) : (call : Call) → Exchange call.Result
  | .createRole spec =>
    query "CreateRole"
      ([roleField spec.name] ++ optionalField "Path" spec.path ++
        optionalField "Description" spec.description ++
        [("AssumeRolePolicyDocument", spec.trust)] ++
        optionalField "MaxSessionDuration" (spec.maxSession.map fun n => toString n.toInt) ++
        optionalField "PermissionsBoundary" spec.boundary ++ tagFields spec.tags)
      (.orEmpty "Role" role)
  | .getRole name => unlessMissing <| query "GetRole" [roleField name] (.orEmpty "Role" role)
  | .updateRole name description maxSession =>
    command "UpdateRole"
      ([roleField name] ++ optionalField "Description" description ++
        optionalField "MaxSessionDuration" (maxSession.map fun n => toString n.toInt))
  | .updateTrust name document =>
    command "UpdateAssumeRolePolicy" [roleField name, ("PolicyDocument", document)]
  | .deleteRole name => command "DeleteRole" [roleField name]
  | .putBoundary principal arn =>
    boundaryCommand "Put" principal [("PermissionsBoundary", arn)]
  | .deleteBoundary principal => boundaryCommand "Delete" principal []
  | .listAttached principal =>
    pages s!"ListAttached{principalNoun principal}Policies" [principalField principal]
      attachedArns limit none
  | .attach principal arn => policyCommand "Attach" principal [("PolicyArn", arn)]
  | .detach principal arn => policyCommand "Detach" principal [("PolicyArn", arn)]
  | .listInline principal =>
    pages s!"List{principalNoun principal}Policies" [principalField principal]
      policyNames limit none
  | .getInline principal name =>
    query s!"Get{principalNoun principal}Policy"
      [principalField principal, ("PolicyName", name)] (inlineDocument (principalField principal).1)
  | .putInline principal name document =>
    policyCommand "Put" principal [("PolicyName", name), ("PolicyDocument", document)]
  | .deleteInline principal name => policyCommand "Delete" principal [("PolicyName", name)]
  | .listTags target =>
    pages s!"List{targetNoun target}Tags" [targetField target] tags limit none
  | .tag target tags => tagCommand "Tag" target (tagFields tags)
  | .untag target keys => tagCommand "Untag" target (listFields "TagKeys" keys)
  | .createPolicy spec =>
    queryMember "CreatePolicy"
      ([("PolicyName", spec.name)] ++ optionalField "Path" spec.path ++
        optionalField "Description" spec.description ++
        [("PolicyDocument", spec.document)] ++ tagFields spec.tags)
      "Policy" policy
  | .getPolicy arn => do
    let found ← unlessMissing <| query "GetPolicy" [("PolicyArn", arn)]
      (optional "Policy" (.record policy))
    return found.join
  | .getPolicyVersion arn version =>
    queryMember "GetPolicyVersion" [("PolicyArn", arn), ("VersionId", version)]
      "PolicyVersion" policyVersion
  | .listPolicyVersions arn =>
    pages "ListPolicyVersions" [("PolicyArn", arn)] policyVersions limit none
  | .createPolicyVersion arn document asDefault =>
    queryMember "CreatePolicyVersion"
      [("PolicyArn", arn), ("PolicyDocument", document),
        ("SetAsDefault", if asDefault then "true" else "false")]
      "PolicyVersion" policyVersion
  | .deletePolicyVersion arn version =>
    command "DeletePolicyVersion" [("PolicyArn", arn), ("VersionId", version)]
  | .deletePolicy arn => command "DeletePolicy" [("PolicyArn", arn)]
  | .createGroup spec =>
    query "CreateGroup" ([("GroupName", spec.name)] ++ optionalField "Path" spec.path)
      (.orEmpty "Group" group)
  | .getGroup name => unlessMissing <| query "GetGroup" [("GroupName", name)] groupWithMembers
  | .updateGroup name path => command "UpdateGroup" [("GroupName", name), ("NewPath", path)]
  | .deleteGroup name => command "DeleteGroup" [("GroupName", name)]
  | .createUser spec =>
    queryMember "CreateUser"
      ([("UserName", spec.name)] ++ optionalField "Path" spec.path ++
        optionalField "PermissionsBoundary" spec.boundary ++ tagFields spec.tags)
      "User" user
  | .getUser name =>
    unlessMissing <| query "GetUser" [("UserName", name)] (.orEmpty "User" user)
  | .updateUser name path => command "UpdateUser" [("UserName", name), ("NewPath", path)]
  | .deleteUser name => command "DeleteUser" [("UserName", name)]
  | .createInstanceProfile spec =>
    query "CreateInstanceProfile"
      ([("InstanceProfileName", spec.name)] ++ optionalField "Path" spec.path ++
        tagFields spec.tags)
      (.orEmpty "InstanceProfile" instanceProfile)
  | .getInstanceProfile name =>
    unlessMissing <| query "GetInstanceProfile" [("InstanceProfileName", name)]
      (.orEmpty "InstanceProfile" instanceProfile)
  | .addRole profile role =>
    command "AddRoleToInstanceProfile" [("InstanceProfileName", profile), roleField role]
  | .removeRole profile role =>
    command "RemoveRoleFromInstanceProfile" [("InstanceProfileName", profile), roleField role]
  | .deleteInstanceProfile name =>
    command "DeleteInstanceProfile" [("InstanceProfileName", name)]
  | .createOidcProvider spec =>
    queryPresent "CreateOpenIDConnectProvider"
      ([("Url", spec.url)] ++ listFields "ClientIDList" spec.clientIds ++
        listFields "ThumbprintList" spec.thumbprints ++ tagFields spec.tags)
      "OpenIDConnectProviderArn" (newProvider "OpenIDConnectProviderArn")
  | .getOidcProvider arn =>
    unlessMissing <| query "GetOpenIDConnectProvider" [("OpenIDConnectProviderArn", arn)]
      oidcProvider
  | .updateThumbprints arn thumbprints =>
    command "UpdateOpenIDConnectProviderThumbprint"
      (("OpenIDConnectProviderArn", arn) :: listFields "ThumbprintList" thumbprints)
  | .addClientId arn clientId =>
    command "AddClientIDToOpenIDConnectProvider"
      [("OpenIDConnectProviderArn", arn), ("ClientID", clientId)]
  | .removeClientId arn clientId =>
    command "RemoveClientIDFromOpenIDConnectProvider"
      [("OpenIDConnectProviderArn", arn), ("ClientID", clientId)]
  | .deleteOidcProvider arn =>
    command "DeleteOpenIDConnectProvider" [("OpenIDConnectProviderArn", arn)]
  | .createSamlProvider spec =>
    queryPresent "CreateSAMLProvider"
      ([("Name", spec.name), ("SAMLMetadataDocument", spec.document)] ++ tagFields spec.tags)
      "SAMLProviderArn" (newProvider "SAMLProviderArn")
  | .getSamlProvider arn =>
    unlessMissing <| query "GetSAMLProvider" [("SAMLProviderArn", arn)] samlProvider
  | .updateSamlProvider arn document => do
    let _ ← query "UpdateSAMLProvider"
      [("SAMLProviderArn", arn), ("SAMLMetadataDocument", document)]
      (optionalText "SAMLProviderArn")
    return ()
  | .deleteSamlProvider arn => command "DeleteSAMLProvider" [("SAMLProviderArn", arn)]
  | .createServiceLinkedRole spec =>
    queryMember "CreateServiceLinkedRole"
      ([("AWSServiceName", spec.service)] ++ optionalField "CustomSuffix" spec.suffix ++
        optionalField "Description" spec.description)
      "Role" role
  | .deleteServiceLinkedRole name =>
    query "DeleteServiceLinkedRole" [roleField name] (requiredText "DeletionTaskId")

end IamKeeper.Iam.Query
