import IamKeeper.Proofs.StatusKey
import IamKeeper.Proofs.Tracking.Basic

namespace IamKeeper

open Iam
open Plan hiding bind_assoc
open Job (asks_iam tends_iam tends_note)

namespace PolicyManager

theorem asks_readDocument (desired : PolicySpec) (report : PolicyReport) :
    (readDocument desired report).Asks Request.Quiet := by
  unfold readDocument
  split
  · trivial
  · refine Asks.bind (asks_iam (.getPolicyVersion ..) rfl) fun version => ?_
    split
    · trivial
    · trivial

theorem seeks (o : PolicyObject) : Seeks .policy o.arn (readOne o) := by
  unfold readOne
  cases known : o.arn with
  | none => exact .of_unknown
  | some arn =>
    refine Seeks.of_known (fun found => ?_) fun s t found finds => ?_
    · cases found with
      | none => trivial
      | some report =>
        exact Asks.bind (asks_readDocument ..) fun _ =>
          Asks.bind (asks_iam (.listTags _) rfl) fun _ => trivial
    · cases found with
      | none => exact yields_pure (.of_none finds)
      | some report =>
        refine yields_bind fun _ => yields_bind fun _ =>
          .of_recorded (congrArg some (finds.2.1 _ rfl)) fun e there same name given => ?_
        obtain ⟨report', found, own⟩ := finds.2.2 e there same
        cases found
        rw [Kind.nameIn?, own] at given
        exact (Option.some.inj given).symm

theorem creates (o : PolicyObject) : Creates .policy o (create o) :=
  Creates.of_recorded fun _ _ _ gained => ⟨_, gained, rfl⟩

theorem tends_change (desired latest : PolicyObject) (delta : Delta) :
    (change desired latest delta).Asks (Request.Tends (latest.arn.map .policy)) := by
  unfold change
  cases latest.arn with
  | none => trivial
  | some arn =>
    refine Asks.bind ?_ fun _ => Asks.bind (asks_when (tends_syncTags (.policy arn) ..)) fun _ =>
      Asks.bind (tends_note _ _) fun _ => trivial
    exact asks_ite (Asks.bind (tends_updateDocument ..) fun _ => trivial) trivial

theorem key?_withVersion (spec : PolicySpec) (o : PolicyObject) (version : String) :
    Kind.policy.key? spec (withVersion o version).status = Kind.policy.key? spec o.status := by
  obtain ⟨metadata, _, status⟩ := o
  cases status <;> rfl

theorem change_yields (desired latest : PolicyObject) (delta : Delta) :
    (change desired latest delta).Yields fun observed => ∀ spec,
      Kind.policy.key? spec observed.status = Kind.policy.key? spec latest.status := by
  have kept (spec : PolicySpec) := @Kind.key?_observe .policy spec desired latest
  unfold change
  split
  · exact yields_pure kept
  · refine Yields.bind (P := fun updated => ∀ spec,
      Kind.policy.key? spec updated.status = Kind.policy.key? spec latest.status) ?_
      fun updated h => yields_bind fun _ => yields_bind fun _ => yields_pure h
    refine yields_ite (yields_bind fun version => yields_pure fun spec => ?_) (yields_pure kept)
    exact (key?_withVersion ..).trans (kept spec)

theorem tracks : Tracks .policy :=
  ⟨seeks, creates, tends_change, change_yields⟩

end PolicyManager

namespace OidcProviderManager

theorem seeks (o : ProviderObject) : Seeks .oidcProvider o.arn (readOne o) := by
  unfold readOne
  cases known : o.arn with
  | none => exact .of_unknown
  | some arn =>
    refine Seeks.of_known (fun found => ?_) fun s t found finds => ?_
    · cases found with
      | none => trivial
      | some report => exact Asks.bind (asks_iam (.listTags _) rfl) fun _ => trivial
    · cases found with
      | none => exact yields_pure (.of_none finds)
      | some report =>
        refine yields_bind fun _ => .of_recorded known fun e there same name given => ?_
        obtain ⟨report', found, url, reported, own⟩ := finds.2.2 e there same
        cases found
        rw [Kind.nameIn?, reported] at given
        exact (Option.some.inj given).symm.trans own

theorem creates (o : ProviderObject) : Creates .oidcProvider o (create o) :=
  Creates.of_recorded fun _ _ _ gained => ⟨_, gained, rfl⟩

theorem tends_change (desired latest : ProviderObject) (delta : Delta) :
    (change desired latest delta).Asks (Request.Tends (latest.arn.map .oidcProvider)) := by
  unfold change
  cases latest.arn with
  | none => trivial
  | some arn =>
    exact Asks.bind (asks_when (tends_iam (.updateThumbprints ..) rfl)) fun _ =>
      Asks.bind (asks_when (tends_syncClientIds ..)) fun _ =>
        Asks.bind (asks_when (tends_syncTags (.oidcProvider arn) ..)) fun _ =>
          Asks.bind (tends_note _ _) fun _ => trivial

theorem change_yields (desired latest : ProviderObject) (delta : Delta) :
    (change desired latest delta).Yields fun observed => ∀ spec,
      Kind.oidcProvider.key? spec observed.status = Kind.oidcProvider.key? spec latest.status := by
  have kept (spec : OidcProviderSpec) := @Kind.key?_observe .oidcProvider spec desired latest
  unfold change
  split
  · exact yields_pure kept
  · exact yields_bind fun _ => yields_bind fun _ => yields_bind fun _ => yields_bind fun _ =>
      yields_pure kept

theorem tracks : Tracks .oidcProvider :=
  ⟨seeks, creates, tends_change, change_yields⟩

end OidcProviderManager

namespace SamlProviderManager

theorem seeks (o : ProviderObject) : Seeks .samlProvider o.arn (readOne o) := by
  unfold readOne
  cases known : o.arn with
  | none => exact .of_unknown
  | some arn =>
    refine Seeks.of_known (fun found => ?_) fun s t found finds => ?_
    · cases found with
      | none => trivial
      | some report => exact Asks.bind (asks_iam (.listTags _) rfl) fun _ => trivial
    · cases found with
      | none => exact yields_pure (.of_none finds)
      | some report =>
        refine yields_bind fun _ => .of_recorded
          ((@Kind.key?_withDetail .samlProvider nofun ..).trans known) fun e there same name given => ?_
        obtain ⟨report', found, own⟩ := finds.2.2 e there same
        cases found
        rw [Kind.nameIn?, own] at given
        exact (Option.some.inj given).symm

theorem creates (o : ProviderObject) : Creates .samlProvider o (create o) :=
  Creates.of_recorded fun _ _ _ gained => ⟨_, gained.2, rfl⟩

theorem tends_change (desired latest : ProviderObject) (delta : Delta) :
    (change desired latest delta).Asks (Request.Tends (latest.arn.map .samlProvider)) := by
  unfold change
  cases latest.arn with
  | none => trivial
  | some arn =>
    exact Asks.bind (asks_when (tends_iam (.updateSamlProvider ..) rfl)) fun _ =>
      Asks.bind (asks_when (tends_syncTags (.samlProvider arn) ..)) fun _ =>
        Asks.bind (tends_note _ _) fun _ => trivial

theorem change_yields (desired latest : ProviderObject) (delta : Delta) :
    (change desired latest delta).Yields fun observed => ∀ spec,
      Kind.samlProvider.key? spec observed.status = Kind.samlProvider.key? spec latest.status := by
  have kept (spec : SamlProviderSpec) := @Kind.key?_observe .samlProvider spec desired latest
  unfold change
  split
  · exact yields_pure kept
  · exact yields_bind fun _ => yields_bind fun _ => yields_bind fun _ => yields_pure kept

theorem tracks : Tracks .samlProvider :=
  ⟨seeks, creates, tends_change, change_yields⟩

end SamlProviderManager

namespace ServiceLinkedRoleManager

theorem seeks (o : LinkedRoleObject) : Seeks .serviceLinkedRole (roleName? o) (readOne o) := by
  unfold readOne
  cases known : roleName? o with
  | none => exact .of_unknown
  | some name =>
    refine Seeks.of_known (fun found => ?_) fun s t found finds => ?_
    · cases found with
      | none => trivial
      | some report => trivial
    · cases found with
      | none => exact yields_pure (.of_none finds)
      | some report =>
        refine yields_pure (.of_recorded (congrArg some (finds.2.1 _ rfl)) ?_)
        rintro e there same name ⟨⟩

theorem creates (o : LinkedRoleObject) : Creates .serviceLinkedRole o (create o) :=
  Creates.of_recorded fun _ _ _ gained => ⟨_, gained, rfl⟩

theorem tends_change (desired latest : LinkedRoleObject) (delta : Delta) :
    (change desired latest delta).Asks
      (Request.Tends ((roleName? latest).map fun name => .principal (.role name))) := by
  unfold change
  cases roleName? latest with
  | none => trivial
  | some name =>
    refine Asks.bind (asks_when ?_) fun _ => trivial
    exact Asks.bind (tends_iam (.updateRole ..) rfl) fun _ => tends_note _ _

theorem change_yields (desired latest : LinkedRoleObject) (delta : Delta) :
    (change desired latest delta).Yields fun observed => ∀ spec,
      Kind.serviceLinkedRole.key? spec observed.status =
        Kind.serviceLinkedRole.key? spec latest.status := by
  have kept (spec : ServiceLinkedRoleSpec) :=
    @Kind.key?_observe .serviceLinkedRole spec desired latest
  unfold change
  split
  · exact yields_pure kept
  · exact yields_bind fun _ => yields_pure kept

theorem tracks : Tracks .serviceLinkedRole :=
  ⟨seeks, creates, tends_change, change_yields⟩

end ServiceLinkedRoleManager

end IamKeeper
