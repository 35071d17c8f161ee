import IamKeeper.Proofs.Quiet
import IamKeeper.Proofs.Removal

namespace IamKeeper

open Iam
open Plan hiding bind_assoc

def Iam.TagTarget.owner : TagTarget → Owner
  | role name => .principal (.role name)
  | user name => .principal (.user name)
  | policy arn => .policy arn
  | instanceProfile name => .instanceProfile name
  | oidcProvider arn => .oidcProvider arn
  | samlProvider arn => .samlProvider arn

namespace Iam.Call

/-- The entity that a call changes, if it does not delete it. -/
def tended? : Call → Option Owner
  | updateRole name _ _ | updateTrust name _ => some (.principal (.role name))
  | updateUser name _ => some (.principal (.user name))
  | updateGroup name _ => some (.principal (.group name))
  | putBoundary p _ | deleteBoundary p | attach p _ | detach p _ | putInline p _ _ | deleteInline p _ =>
    some (.principal p)
  | tag target _ | untag target _ => some target.owner
  | createPolicyVersion arn _ _ | deletePolicyVersion arn _ => some (.policy arn)
  | addRole profile _ | removeRole profile _ => some (.instanceProfile profile)
  | updateThumbprints arn _ | addClientId arn _ | removeClientId arn _ => some (.oidcProvider arn)
  | updateSamlProvider arn _ => some (.samlProvider arn)
  | _ => none

/-- The entity that a successful creation tells of. -/
def made? : (call : Call) → call.Result → Option Owner
  | createRole _, report | createServiceLinkedRole _, report => some (.principal (.role report.name))
  | createUser _, report => some (.principal (.user report.name))
  | createGroup _, report => some (.principal (.group report.name))
  | createInstanceProfile _, report => some (.instanceProfile report.name)
  | createPolicy _, report => some (.policy report.arn)
  | createOidcProvider _, arn => some (.oidcProvider arn)
  | createSamlProvider _, arn => some (.samlProvider arn)
  | _, _ => none

end Iam.Call

/-- A note, a read that is no lookup, or a call that changes an entity which is known. -/
def Request.Tends (known : Option Owner) : Request → Prop
  | .iam call =>
    (call.isRead = true ∧ call.isLookup = false) ∨ ∃ owner, known = some owner ∧ call.tended? = some owner
  | .note _ _ => True
  | _ => False

theorem Request.Tends.quiet {known : Option Owner} {r : Request} (h : r.Tends known) : r.Quiet := by
  cases r with
  | iam call =>
    rcases h with ⟨read, unsought⟩ | ⟨owner, -, tended⟩
    · cases call <;> first | rfl | (cases read; done) | cases unsought
    · cases call <;> first | rfl | cases tended
  | note => rfl
  | policy | role | patchStatus | patchFinalizers => cases h

section

variable {owner : Owner}

theorem Job.tends_iam (call : Call) (tended : call.tended? = some owner) :
    (Job.iam call).Asks (Request.Tends (some owner)) :=
  ⟨.inr ⟨owner, rfl, tended⟩, fun _ => trivial⟩

theorem Job.tends_note {known : Option Owner} (level : Level) (text : String) :
    (Job.note level text).Asks (Request.Tends known) :=
  ⟨trivial, fun _ => trivial⟩

theorem Job.tends_noted (text : String) (call : Call) (tended : call.tended? = some owner) :
    (Job.debug text >>= fun _ => Job.iam call).Asks (Request.Tends (some owner)) :=
  (tends_note _ text).bind fun _ => tends_iam call tended

theorem Job.tends_read {known : Option Owner} (call : Call) (read : call.isRead = true)
    (unsought : call.isLookup = false) : (Job.iam call).Asks (Request.Tends known) :=
  ⟨.inl ⟨read, unsought⟩, fun _ => trivial⟩

end

open Job (tends_iam tends_note tends_noted tends_read)

namespace Iam

variable (p : Principal)

theorem tends_detach (arn : String) : (detach p arn).Asks (Request.Tends (some (.principal p))) :=
  tends_noted _ (.detach p arn) rfl

theorem tends_deleteInline (name : String) :
    (deleteInline p name).Asks (Request.Tends (some (.principal p))) :=
  tends_noted _ (.deleteInline p name) rfl

theorem tends_syncAttached (desired latest : List String) :
    (syncAttached p desired latest).Asks (Request.Tends (some (.principal p))) :=
  Asks.bind (asks_forEach _ fun arn => tends_noted _ (.attach p arn) rfl) fun _ => asks_forEach _ (tends_detach p)

theorem tends_syncInline (desired latest : Table String) :
    (syncInline p desired latest).Asks (Request.Tends (some (.principal p))) :=
  Asks.bind (asks_forEach _ fun entry => tends_noted _ (.putInline p entry.1 entry.2) rfl) fun _ =>
    asks_forEach _ (tends_deleteInline p)

theorem tends_syncBoundary (desired latest : Option String) :
    (syncBoundary p desired latest).Asks (Request.Tends (some (.principal p))) := by
  unfold syncBoundary
  split
  · trivial
  · exact tends_noted _ (.deleteBoundary p) rfl
  · next boundary _ => exact asks_ite trivial (tends_noted _ (.putBoundary p boundary) rfl)

theorem tends_removeAllPolicies : (removeAllPolicies p).Asks (Request.Tends (some (.principal p))) :=
  Asks.bind (tends_read (.listAttached p) rfl rfl) fun _ =>
    Asks.bind (asks_forEach _ (tends_detach p)) fun _ =>
      Asks.bind (tends_read (.listInline p) rfl rfl) fun _ => asks_forEach _ (tends_deleteInline p)

theorem tends_syncTags (target : TagTarget) (desired latest : List Tag) :
    (syncTags target desired latest).Asks (Request.Tends (some target.owner)) := by
  refine Asks.bind ?_ fun _ => ?_
  · exact asks_ite trivial (tends_noted _ (.untag target _) rfl)
  · exact asks_ite trivial (tends_noted _ (.tag target _) rfl)

variable (arn : String)

theorem tends_policyVersions {known : Option Owner} : (policyVersions arn).Asks (Request.Tends known) :=
  Asks.bind (tends_read (.listPolicyVersions arn) rfl rfl) fun _ => trivial

theorem tends_makeRoom : (makeRoom arn).Asks (Request.Tends (some (.policy arn))) := by
  refine (tends_policyVersions arn).bind fun versions => asks_ite trivial ?_
  split
  · trivial
  · next version _ =>
    exact Asks.bind (tends_iam (.deletePolicyVersion arn version.id) rfl) fun _ => tends_note _ _

theorem tends_updateDocument (document : String) :
    (updateDocument arn document).Asks (Request.Tends (some (.policy arn))) :=
  Asks.bind (tends_makeRoom arn) fun _ =>
    Asks.bind (tends_iam (.createPolicyVersion arn document true) rfl) fun _ =>
      Asks.bind (tends_note _ _) fun _ => trivial

theorem tends_deleteOtherVersions : (deleteOtherVersions arn).Asks (Request.Tends (some (.policy arn))) :=
  Asks.bind (tends_policyVersions arn) fun _ => asks_forEach _ fun version =>
    asks_ite trivial (tends_noted _ (.deletePolicyVersion arn version.id) rfl)

end Iam

theorem InstanceProfileManager.tends_syncRole (profile : String) (desired latest : Option String) :
    (syncRole profile desired latest).Asks (Request.Tends (some (.instanceProfile profile))) := by
  refine asks_ite trivial (Asks.bind ?_ fun _ => ?_)
  · unfold takeRole
    split
    · trivial
    · next role _ => exact tends_noted _ (.removeRole profile role) rfl
  · unfold putRole
    split
    · trivial
    · next role _ => exact tends_noted _ (.addRole profile role) rfl

theorem OidcProviderManager.tends_syncClientIds (arn : String) (desired latest : List String) :
    (syncClientIds arn desired latest).Asks (Request.Tends (some (.oidcProvider arn))) := by
  refine Asks.bind (asks_forEach _ fun clientId => ?_) fun _ => asks_forEach _ fun clientId => ?_
  · exact tends_noted _ (.addClientId arn clientId) rfl
  · exact tends_noted _ (.removeClientId arn clientId) rfl

theorem Kind.tends_clear (kind : Kind) (key : String) (latest : kind.Object) :
    (kind.clear key latest).Asks (Request.Tends (some (kind.owner key))) := by
  cases kind with
  | role | user | group => exact tends_removeAllPolicies _
  | policy => exact tends_deleteOtherVersions key
  | instanceProfile => exact InstanceProfileManager.tends_syncRole key none latest.spec.role
  | oidcProvider | samlProvider | serviceLinkedRole => trivial

end IamKeeper
