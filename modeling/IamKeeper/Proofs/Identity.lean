import IamKeeper.Proofs.StatusKey
import IamKeeper.Proofs.Sync

namespace IamKeeper

open Iam
open Plan hiding bind_assoc

/-- The ARN that a status tells. -/
def Status.arn? {D : Type} (status : Option (Status D)) : Option String :=
  (status.bind Status.identity).bind Identity.arn

namespace Kind

/-- A status that tells the ARN of an entity and what it is found by. -/
structure Identified (kind : Kind) (status : Option (Status kind.Detail)) : Prop where
  arn : (Status.arn? status).isSome = true
  key : ∀ spec, (kind.key? spec status).isSome = true

variable {kind : Kind} {status : Option (Status kind.Detail)}

/-- Only service-linked roles are found by something that their ARN does not tell. -/
theorem Identified.of_arn (h : kind ≠ .serviceLinkedRole) (arn : (Status.arn? status).isSome = true) :
    kind.Identified status where
  arn := arn
  key spec := by
    cases kind with
    | role | group | user | instanceProfile => rfl
    | policy | oidcProvider | samlProvider => exact arn
    | serviceLinkedRole => exact absurd rfl h

theorem Identified.observe {latest : kind.Object} (h : kind.Identified latest.status)
    (desired : kind.Object) : kind.Identified (desired.observe latest).status where
  arn := by
    obtain ⟨metadata, spec, status⟩ := latest
    cases status with
    | none => exact nomatch h.arn
    | some status => exact h.arn
  key spec := by
    rw [key?_observe]
    exact h.key spec

/-- What was found is identified, if there is something. -/
def Recognized (kind : Kind) : Option kind.Object → Prop
  | none => True
  | some latest => kind.Identified latest.status

/-- Whatever a manager gives is identified. -/
structure Identifies (kind : Kind) : Prop where
  read (o : kind.Object) : (kind.manager.readOne o).Yields kind.Recognized
  create (o : kind.Object) :
    (kind.manager.create o).Yields fun observed => kind.Identified observed.status
  change (desired latest : kind.Object) (delta : Delta) (known : kind.Identified latest.status) :
    (kind.manager.change desired latest delta).Yields fun observed => kind.Identified observed.status

end Kind

open Kind (Identified Identifies Recognized)

namespace RoleManager

theorem identified_record (o : RoleObject) (report : RoleReport) :
    Kind.role.Identified (record o report).status :=
  .of_arn (by decide) rfl

theorem identifies : Kind.role.Identifies where
  read o := by
    refine yields_bind fun found => ?_
    cases found with
    | none => exact yields_pure trivial
    | some report =>
      exact yields_bind fun _ => yields_bind fun _ => yields_bind fun _ => yields_bind fun _ =>
        yields_pure (identified_record ..)
  create o := yields_bind fun _ => yields_bind fun _ => yields_bind fun _ => yields_bind fun _ =>
    yields_pure (identified_record ..)
  change desired latest delta known := by
    refine yields_bind fun _ => yields_bind fun _ => yields_bind fun _ => yields_bind fun _ => ?_
    exact yields_bind fun _ => yields_bind fun _ => yields_bind fun _ =>
      yields_pure (known.observe desired)

end RoleManager

namespace UserManager

theorem identified_record (o : UserObject) (report : UserReport) :
    Kind.user.Identified (record o report).status :=
  .of_arn (by decide) rfl

theorem identifies : Kind.user.Identifies where
  read o := by
    refine yields_bind fun found => ?_
    cases found with
    | none => exact yields_pure trivial
    | some report =>
      exact yields_bind fun _ => yields_bind fun _ => yields_bind fun _ =>
        yields_pure (identified_record ..)
  create o := yields_bind fun _ => yields_bind fun _ => yields_bind fun _ => yields_bind fun _ =>
    yields_pure (identified_record ..)
  change desired latest delta known := by
    refine yields_bind fun _ => yields_bind fun _ => yields_bind fun _ => yields_bind fun _ => ?_
    exact yields_bind fun _ => yields_bind fun _ => yields_pure (known.observe desired)

end UserManager

namespace GroupManager

theorem identified_record (o : GroupObject) (report : GroupReport) :
    Kind.group.Identified (record o report).status :=
  .of_arn (by decide) rfl

theorem identifies : Kind.group.Identifies where
  read o := by
    refine yields_bind fun found => ?_
    cases found with
    | none => exact yields_pure trivial
    | some report =>
      exact yields_bind fun _ => yields_bind fun _ => yields_pure (identified_record ..)
  create o := yields_bind fun _ => yields_bind fun _ => yields_bind fun _ => yields_bind fun _ =>
    yields_pure (identified_record ..)
  change desired latest delta known := yields_bind fun _ => yields_bind fun _ => yields_bind fun _ =>
    yields_bind fun _ => yields_pure (known.observe desired)

end GroupManager

namespace InstanceProfileManager

theorem identified_record (o : ProfileObject) (report : InstanceProfileReport) :
    Kind.instanceProfile.Identified (record o report).status :=
  .of_arn (by decide) rfl

theorem identifies : Kind.instanceProfile.Identifies where
  read o := by
    refine yields_bind fun found => ?_
    cases found with
    | none => exact yields_pure trivial
    | some report => exact yields_bind fun _ => yields_pure (identified_record ..)
  create o := yields_bind fun _ => yields_bind fun _ => yields_bind fun _ =>
    yields_pure (identified_record ..)
  change desired latest delta known := yields_bind fun _ => yields_bind fun _ => yields_bind fun _ =>
    yields_pure (known.observe desired)

end InstanceProfileManager

namespace PolicyManager

theorem identified_record (o : PolicyObject) (report : PolicyReport) :
    Kind.policy.Identified (record o report).status :=
  .of_arn (by decide) rfl

theorem Identified.withVersion {o : PolicyObject} (known : Kind.policy.Identified o.status)
    (version : String) : Kind.policy.Identified (withVersion o version).status := by
  obtain ⟨metadata, spec, status⟩ := o
  cases status with
  | none => exact nomatch known.arn
  | some status => exact .of_arn (by decide) known.arn

theorem identifies : Kind.policy.Identifies where
  read o := by
    change (readOne o).Yields _
    unfold readOne
    split
    · exact yields_pure trivial
    · refine yields_bind fun found => ?_
      cases found with
      | none => exact yields_pure trivial
      | some report => exact yields_bind fun _ => yields_bind fun _ => yields_pure (identified_record ..)
  create o := yields_bind fun _ => yields_bind fun _ => yields_pure (identified_record ..)
  change desired latest delta known := by
    change (change desired latest delta).Yields _
    have kept := known.observe desired
    unfold change
    split
    · exact yields_pure kept
    · refine Yields.bind (P := fun updated => Kind.policy.Identified updated.status) ?_
        fun updated h => yields_bind fun _ => yields_bind fun _ => yields_pure h
      exact yields_ite (yields_bind fun version => yields_pure (Identified.withVersion kept version))
        (yields_pure kept)

end PolicyManager

namespace OidcProviderManager

theorem identifies : Kind.oidcProvider.Identifies where
  read o := by
    change (readOne o).Yields _
    unfold readOne
    cases known : o.arn with
    | none => exact yields_pure trivial
    | some arn =>
      refine yields_bind fun found => ?_
      cases found with
      | none => exact yields_pure trivial
      | some report =>
        -- The status is the one by whose ARN the provider was found.
        exact yields_bind fun _ => yields_pure (.of_arn (by decide) (Option.isSome_of_eq_some known))
  create o := yields_bind fun _ => yields_bind fun _ => yields_pure (.of_arn (by decide) rfl)
  change desired latest delta known := by
    change (change desired latest delta).Yields _
    unfold change
    split
    · exact yields_pure (known.observe desired)
    · exact yields_bind fun _ => yields_bind fun _ => yields_bind fun _ => yields_bind fun _ =>
        yields_pure (known.observe desired)

end OidcProviderManager

namespace SamlProviderManager

theorem identifies : Kind.samlProvider.Identifies where
  read o := by
    change (readOne o).Yields _
    unfold readOne
    cases known : o.arn with
    | none => exact yields_pure trivial
    | some arn =>
      refine yields_bind fun found => ?_
      cases found with
      | none => exact yields_pure trivial
      | some report =>
        refine yields_bind fun _ => yields_pure (.of_arn (by decide) ?_)
        obtain ⟨metadata, spec, status⟩ := o
        cases status with
        | none => cases known
        | some status => exact Option.isSome_of_eq_some known
  create o := yields_bind fun _ => yields_bind fun _ => yields_pure (.of_arn (by decide) rfl)
  change desired latest delta known := by
    change (change desired latest delta).Yields _
    unfold change
    split
    · exact yields_pure (known.observe desired)
    · exact yields_bind fun _ => yields_bind fun _ => yields_bind fun _ =>
        yields_pure (known.observe desired)

end SamlProviderManager

namespace ServiceLinkedRoleManager

theorem identified_record (o : LinkedRoleObject) (report : RoleReport) :
    Kind.serviceLinkedRole.Identified (record o report).status :=
  ⟨rfl, fun _ => rfl⟩

theorem identifies : Kind.serviceLinkedRole.Identifies where
  read o := by
    change (readOne o).Yields _
    unfold readOne
    split
    · exact yields_pure trivial
    · refine yields_bind fun found => ?_
      cases found with
      | none => exact yields_pure trivial
      | some report => exact yields_pure (identified_record ..)
  create o := yields_bind fun _ => yields_bind fun _ => yields_pure (identified_record ..)
  change desired latest delta known := by
    change (change desired latest delta).Yields _
    unfold change
    split
    · exact yields_pure (known.observe desired)
    · exact yields_bind fun _ => yields_pure (known.observe desired)

end ServiceLinkedRoleManager

namespace Kind

theorem identifies : (kind : Kind) → kind.Identifies
  | role => RoleManager.identifies
  | policy => PolicyManager.identifies
  | group => GroupManager.identifies
  | user => UserManager.identifies
  | instanceProfile => InstanceProfileManager.identifies
  | oidcProvider => OidcProviderManager.identifies
  | samlProvider => SamlProviderManager.identifies
  | serviceLinkedRole => ServiceLinkedRoleManager.identifies

/-- A sync that succeeds gives an object whose status tells the identity of its entity. -/
theorem sync_identified {kind : Kind} (o : kind.Object) : (kind.manager.sync o).Yields fun synced =>
    kind.Identified synced.object.status := by
  rw [Manager.sync_eq]
  refine yields_bind fun resolved => (kind.identifies.read resolved.object).bind fun found known => ?_
  cases found with
  | none =>
    exact (kind.identifies.create resolved.object).bind fun observed created => yields_pure created
  | some latest =>
    refine yields_ite (yields_bind fun _ => yields_pure known) ?_
    refine Yields.bind (yields_bind fun _ => ?_) fun observed changed => yields_pure changed
    exact kind.identifies.change _ latest _ known

end Kind

end IamKeeper
