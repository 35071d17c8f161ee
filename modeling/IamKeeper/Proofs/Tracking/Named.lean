import IamKeeper.Proofs.Tracking.Basic

namespace IamKeeper

open Iam
open Plan hiding bind_assoc
open Job (asks_iam tends_iam tends_note)

namespace RoleManager

theorem seeks (o : RoleObject) : Seeks .role (some o.spec.name) (readOne o) := by
  refine Seeks.of_known (fun found => ?_) fun s t found finds => ?_
  · cases found with
    | none => trivial
    | some report =>
      exact Asks.bind trivial fun _ => Asks.bind (asks_iam (.listAttached _) rfl) fun _ =>
        Asks.bind (asks_inlinePolicies _) fun _ =>
          Asks.bind (asks_iam (.listTags _) rfl) fun _ => trivial
  · cases found with
    | none => exact yields_pure (.of_none finds)
    | some report =>
      exact yields_bind fun _ => yields_bind fun _ => yields_bind fun _ => yields_bind fun _ =>
        .of_named rfl (congrArg some (finds.2.1 _ rfl))

theorem builds (o : RoleObject) : Builds .role o (create o) :=
  ⟨_, rfl, fun _ => Asks.bind (tends_note _ _) fun _ => Asks.bind (tends_syncAttached ..) fun _ =>
    Asks.bind (tends_syncInline ..) fun _ => trivial⟩

theorem tends_change (desired latest : RoleObject) (delta : Delta) :
    (change desired latest delta).Asks (Request.Tends (some (.principal (.role latest.spec.name)))) :=
  Asks.bind (asks_when (tends_syncAttached ..)) fun _ =>
    Asks.bind (asks_when (tends_syncInline ..)) fun _ =>
      Asks.bind (asks_when (tends_syncBoundary ..)) fun _ =>
        Asks.bind (asks_when (tends_syncTags (.role _) ..)) fun _ =>
          Asks.bind (asks_when (tends_iam (.updateTrust ..) rfl)) fun _ =>
            Asks.bind (asks_when (tends_iam (.updateRole ..) rfl)) fun _ =>
              Asks.bind (tends_note _ _) fun _ => trivial

theorem tracks : Tracks .role where
  read := seeks
  create o := .of_named (builds o) fun _ _ _ gained => ⟨_, gained, fun _ => rfl⟩
  change_tends := tends_change
  change_yields _ _ _ := yields_of_forall fun _ _ => rfl

end RoleManager

namespace GroupManager

theorem seeks (o : GroupObject) : Seeks .group (some o.spec.name) (readOne o) := by
  refine Seeks.of_known (fun found => ?_) fun s t found finds => ?_
  · cases found with
    | none => trivial
    | some report =>
      exact Asks.bind (asks_iam (.listAttached _) rfl) fun _ =>
        Asks.bind (asks_inlinePolicies _) fun _ => trivial
  · cases found with
    | none => exact yields_pure (.of_none finds)
    | some report =>
      exact yields_bind fun _ => yields_bind fun _ =>
        .of_named rfl (congrArg some (finds.2.1 _ rfl))

theorem builds (o : GroupObject) : Builds .group o (create o) :=
  ⟨_, rfl, fun _ => Asks.bind (tends_note _ _) fun _ => Asks.bind (tends_syncAttached ..) fun _ =>
    Asks.bind (tends_syncInline ..) fun _ => trivial⟩

theorem tends_change (desired latest : GroupObject) (delta : Delta) :
    (change desired latest delta).Asks (Request.Tends (some (.principal (.group latest.spec.name)))) :=
  Asks.bind (asks_when (tends_syncAttached ..)) fun _ =>
    Asks.bind (asks_when (tends_syncInline ..)) fun _ =>
      Asks.bind (asks_when (tends_iam (.updateGroup ..) rfl)) fun _ =>
        Asks.bind (tends_note _ _) fun _ => trivial

theorem tracks : Tracks .group where
  read := seeks
  create o := .of_named (builds o) fun _ _ _ gained => ⟨_, gained, fun _ => rfl⟩
  change_tends := tends_change
  change_yields _ _ _ := yields_of_forall fun _ _ => rfl

end GroupManager

namespace UserManager

theorem seeks (o : UserObject) : Seeks .user (some o.spec.name) (readOne o) := by
  refine Seeks.of_known (fun found => ?_) fun s t found finds => ?_
  · cases found with
    | none => trivial
    | some report =>
      exact Asks.bind (asks_iam (.listAttached _) rfl) fun _ =>
        Asks.bind (asks_inlinePolicies _) fun _ =>
          Asks.bind (asks_iam (.listTags _) rfl) fun _ => trivial
  · cases found with
    | none => exact yields_pure (.of_none finds)
    | some report =>
      exact yields_bind fun _ => yields_bind fun _ => yields_bind fun _ =>
        .of_named rfl (congrArg some (finds.2.1 _ rfl))

theorem builds (o : UserObject) : Builds .user o (create o) :=
  ⟨_, rfl, fun _ => Asks.bind (tends_note _ _) fun _ => Asks.bind (tends_syncAttached ..) fun _ =>
    Asks.bind (tends_syncInline ..) fun _ => trivial⟩

theorem tends_change (desired latest : UserObject) (delta : Delta) :
    (change desired latest delta).Asks (Request.Tends (some (.principal (.user latest.spec.name)))) :=
  Asks.bind (asks_when (tends_syncAttached ..)) fun _ =>
    Asks.bind (asks_when (tends_syncInline ..)) fun _ =>
      Asks.bind (asks_when (tends_syncBoundary ..)) fun _ =>
        Asks.bind (asks_when (tends_syncTags (.user _) ..)) fun _ =>
          Asks.bind (asks_when (tends_iam (.updateUser ..) rfl)) fun _ =>
            Asks.bind (tends_note _ _) fun _ => trivial

theorem tracks : Tracks .user where
  read := seeks
  create o := .of_named (builds o) fun _ _ _ gained => ⟨_, gained, fun _ => rfl⟩
  change_tends := tends_change
  change_yields _ _ _ := yields_of_forall fun _ _ => rfl

end UserManager

namespace InstanceProfileManager

theorem seeks (o : ProfileObject) : Seeks .instanceProfile (some o.spec.name) (readOne o) := by
  refine Seeks.of_known (fun found => ?_) fun s t found finds => ?_
  · cases found with
    | none => trivial
    | some report => exact Asks.bind (asks_iam (.listTags _) rfl) fun _ => trivial
  · cases found with
    | none => exact yields_pure (.of_none finds)
    | some report => exact yields_bind fun _ => .of_named rfl (congrArg some (finds.2.1 _ rfl))

theorem builds (o : ProfileObject) : Builds .instanceProfile o (create o) :=
  ⟨_, rfl, fun _ => Asks.bind (tends_note _ _) fun _ => Asks.bind (tends_syncRole ..) fun _ => trivial⟩

theorem tends_change (desired latest : ProfileObject) (delta : Delta) :
    (change desired latest delta).Asks (Request.Tends (some (.instanceProfile latest.spec.name))) :=
  Asks.bind (asks_when (tends_syncRole ..)) fun _ =>
    Asks.bind (asks_when (tends_syncTags (.instanceProfile _) ..)) fun _ =>
      Asks.bind (tends_note _ _) fun _ => trivial

theorem tracks : Tracks .instanceProfile where
  read := seeks
  create o := .of_named (builds o) fun _ _ _ gained => ⟨_, gained, fun _ => rfl⟩
  change_tends := tends_change
  change_yields _ _ _ := yields_of_forall fun _ _ => rfl

end InstanceProfileManager

end IamKeeper
