import IamKeeper.Proofs.Reading
import IamKeeper.Proofs.Site
import IamKeeper.Reconcile.Sync

namespace IamKeeper

open Iam
open Job (Heeds)
open Plan hiding bind_assoc

/-- An entity as it is addressed by the calls that delete it. -/
inductive Owner where
  | principal (principal : Principal)
  | policy (arn : String)
  | instanceProfile (name : String)
  | oidcProvider (arn : String)
  | samlProvider (arn : String)
deriving DecidableEq

inductive Bond where
  | attached
  | inline
  | version
  | role
deriving DecidableEq

/-- Something that hangs on an entity: a policy, a version that is not the default one, or a role. -/
structure Tie where
  bond : Bond
  name : String
deriving DecidableEq

namespace Iam.Call

/-- What a call takes away, and from which entity. -/
def untied? : Call → Option (Owner × Tie)
  | .detach p arn => some (.principal p, ⟨.attached, arn⟩)
  | .deleteInline p name => some (.principal p, ⟨.inline, name⟩)
  | .deletePolicyVersion arn id => some (.policy arn, ⟨.version, id⟩)
  | .removeRole profile role => some (.instanceProfile profile, ⟨.role, role⟩)
  | _ => none

def deleted? : Call → Option Owner
  | .deleteRole name | .deleteServiceLinkedRole name => some (.principal (.role name))
  | .deleteUser name => some (.principal (.user name))
  | .deleteGroup name => some (.principal (.group name))
  | .deletePolicy arn => some (.policy arn)
  | .deleteInstanceProfile name => some (.instanceProfile name)
  | .deleteOidcProvider arn => some (.oidcProvider arn)
  | .deleteSamlProvider arn => some (.samlProvider arn)
  | _ => none

/-- What an entity must be rid of before a call can delete it. -/
def bonds : Call → List Bond
  | .deleteRole _ | .deleteUser _ | .deleteGroup _ => [.attached, .inline]
  | .deletePolicy _ => [.version]
  | .deleteInstanceProfile _ => [.role]
  | _ => []

def isRemoval (call : Call) : Bool :=
  call.untied?.isSome || call.deleted?.isSome

/-- A read, or a call that takes something away from an entity. -/
def Clears (owner : Owner) (call : Call) : Prop :=
  call.isRead = true ∨ ∃ tie, call.untied? = some (owner, tie)

/-- A read, or a call that takes something away. -/
def Removes (call : Call) : Prop :=
  call.isRead = true ∨ call.isRemoval = true

theorem untied?_read {call : Call} (read : call.isRead = true) : call.untied? = none := by
  cases call <;> first | rfl | cases read

theorem deleted?_read {call : Call} (read : call.isRead = true) : call.deleted? = none := by
  cases call <;> first | rfl | cases read

theorem deleted?_untied {call : Call} (untied : call.untied?.isSome = true) : call.deleted? = none := by
  cases call <;> first | rfl | cases untied

theorem Clears.removes {owner : Owner} {call : Call} (h : call.Clears owner) : call.Removes := by
  rcases h with read | ⟨tie, untied⟩
  · exact .inl read
  · refine .inr ?_
    unfold isRemoval
    rw [untied]
    rfl

end Iam.Call

namespace Kind

def owner : Kind → String → Owner
  | role, name | serviceLinkedRole, name => .principal (.role name)
  | user, name => .principal (.user name)
  | group, name => .principal (.group name)
  | policy, arn => .policy arn
  | instanceProfile, name => .instanceProfile name
  | oidcProvider, arn => .oidcProvider arn
  | samlProvider, arn => .samlProvider arn

def deletion : Kind → String → Call
  | role, name => .deleteRole name
  | serviceLinkedRole, name => .deleteServiceLinkedRole name
  | user, name => .deleteUser name
  | group, name => .deleteGroup name
  | policy, arn => .deletePolicy arn
  | instanceProfile, name => .deleteInstanceProfile name
  | oidcProvider, arn => .deleteOidcProvider arn
  | samlProvider, arn => .deleteSamlProvider arn

/-- Takes away what keeps an entity from being deleted. -/
def clear : (kind : Kind) → String → kind.Object → Job Unit
  | role, name, _ => removeAllPolicies (.role name)
  | user, name, _ => removeAllPolicies (.user name)
  | group, name, _ => removeAllPolicies (.group name)
  | policy, arn, _ => deleteOtherVersions arn
  | instanceProfile, name, latest => InstanceProfileManager.syncRole name none latest.spec.role
  | oidcProvider, _, _ | samlProvider, _, _ | serviceLinkedRole, _, _ => pure ()

theorem deleted?_deletion (kind : Kind) (key : String) :
    (kind.deletion key).deleted? = some (kind.owner key) := by
  cases kind <;> rfl

/-- An entity whose key is known is cleared and then deleted. -/
theorem delete_eq (kind : Kind) (latest : kind.Object) :
    ∃ text : (key : String) → (kind.deletion key).Result → String, kind.manager.delete latest =
      match kind.key? latest.spec latest.status with
      | none => pure ()
      | some key => kind.clear key latest >>= fun _ =>
          Job.iam (kind.deletion key) >>= fun result => Job.info (text key result) := by
  cases kind with
  | role => exact ⟨fun name _ => s!"deleted role {name}", rfl⟩
  | user => exact ⟨fun name _ => s!"deleted user {name}", rfl⟩
  | group => exact ⟨fun name _ => s!"deleted group {name}", rfl⟩
  | instanceProfile => exact ⟨fun name _ => s!"deleted instance profile {name}", rfl⟩
  | policy => exact ⟨fun arn _ => s!"deleted policy {arn}", rfl⟩
  | oidcProvider => exact ⟨fun arn _ => s!"deleted OIDC provider {arn}", rfl⟩
  | samlProvider => exact ⟨fun arn _ => s!"deleted SAML provider {arn}", rfl⟩
  | serviceLinkedRole =>
    exact ⟨fun name (task : String) => s!"deleting service linked role {name}, deletion task {task}", rfl⟩

end Kind

section Heeds

variable {A : Replies} {own : Fault → Prop}

theorem heeds_noted {P : Call → Prop} {text : String} (call : Call) (h : P call) :
    Heeds A (Request.Among P) own (Job.debug text >>= fun _ => Job.iam call) :=
  (Heeds.note trivial).bind fun _ => Heeds.iam call h

theorem Iam.heeds_removeAllPolicies (p : Principal) :
    Heeds A (Request.Among (Call.Clears (.principal p))) own (removeAllPolicies p) := by
  have detached (arn : String) :
      Heeds A (Request.Among (Call.Clears (.principal p))) own (detach p arn) :=
    heeds_noted (.detach p arn) (.inr ⟨_, rfl⟩)
  have deleted (name : String) :
      Heeds A (Request.Among (Call.Clears (.principal p))) own (deleteInline p name) :=
    heeds_noted (.deleteInline p name) (.inr ⟨_, rfl⟩)
  exact (Heeds.iam (.listAttached p) (.inl rfl)).bind fun arns =>
    (Heeds.forEach detached arns).bind fun _ =>
      (Heeds.iam (.listInline p) (.inl rfl)).bind fun names => Heeds.forEach deleted names

theorem Iam.heeds_deleteOtherVersions (arn : String) :
    Heeds A (Request.Among (Call.Clears (.policy arn))) own (deleteOtherVersions arn) := by
  have listed : Heeds A (Request.Among (Call.Clears (.policy arn))) own (policyVersions arn) :=
    (Heeds.iam (.listPolicyVersions arn) (.inl rfl)).bind fun _ => .pure _
  have deleted (version : PolicyVersion) :
      Heeds A (Request.Among (Call.Clears (.policy arn))) own (deleteUnlessDefault arn version) :=
    .ite (.pure ()) (heeds_noted (.deletePolicyVersion arn version.id) (.inr ⟨_, rfl⟩))
  exact listed.bind fun versions => Heeds.forEach deleted versions

theorem InstanceProfileManager.heeds_takeRole (profile : String) (role : Option String) :
    Heeds A (Request.Among (Call.Clears (.instanceProfile profile))) own
      (syncRole profile none role) := by
  refine .ite (.pure ()) (Heeds.bind ?_ fun _ => .pure ())
  unfold takeRole
  split
  · exact .pure ()
  next role _ => exact heeds_noted (.removeRole profile role) (.inr ⟨_, rfl⟩)

namespace Kind

theorem heeds_clear (kind : Kind) (key : String) (latest : kind.Object) :
    Heeds A (Request.Among (Call.Clears (kind.owner key))) own (kind.clear key latest) := by
  cases kind with
  | role | user | group => exact heeds_removeAllPolicies _
  | policy => exact heeds_deleteOtherVersions key
  | instanceProfile => exact InstanceProfileManager.heeds_takeRole key latest.spec.role
  | oidcProvider | samlProvider | serviceLinkedRole => exact .pure ()

theorem heeds_delete (kind : Kind) (latest : kind.Object) :
    Heeds A (Request.Among Call.Removes) own (kind.manager.delete latest) := by
  obtain ⟨text, eq⟩ := delete_eq kind latest
  rw [eq]
  cases kind.key? latest.spec latest.status with
  | none => exact .pure ()
  | some key =>
    have clears : Heeds A (Request.Among Call.Removes) own (kind.clear key latest) :=
      (heeds_clear kind key latest).mono (Request.Among.mono fun _ => Call.Clears.removes) fun _ => id
    have deletes : (kind.deletion key).Removes := by
      refine .inr ?_
      unfold Call.isRemoval
      rw [deleted?_deletion]
      simp
    exact clears.bind fun _ => (Heeds.iam _ deletes).bind fun _ => .note trivial

/-- Removing an entity makes no call but reads and removals, and ends with the first that fails. -/
theorem heeds_remove (blame : A.Own own) (kind : Kind) (o : kind.Object) :
    Heeds A (Request.Among Call.Removes) own (kind.manager.remove o) := by
  have read := (kind.reads blame o).mono
    (Request.Among.mono fun call (read : call.isRead = true) => (.inl read : call.Removes)) fun _ => id
  refine read.bind fun found => ?_
  cases found with
  | none => exact .note trivial
  | some latest => exact heeds_delete kind latest

end Kind

end Heeds

end IamKeeper
