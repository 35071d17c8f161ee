import IamKeeper.Proofs.Likeness
import IamKeeper.Proofs.Tracking.Sync

namespace IamKeeper

open Iam
open Job (Alike)
open Plan hiding bind_assoc

namespace Object

variable {S D : Type} [Inhabited D] (o other : Object S D)

theorem identity_withDetail (detail : D) : (o.withDetail detail).identity = o.identity := by
  obtain ⟨metadata, spec, _ | status⟩ := o <;> rfl

theorem identity_observe : (o.observe other).identity = other.identity := by
  obtain ⟨metadata, spec, _ | status⟩ := other <;> rfl

end Object

namespace Kind

/-- Whether IAM tells the key of an entity anew whenever the entity is looked up. -/
def reportsKey : Kind → Bool
  | policy | serviceLinkedRole => true
  | role | group | user | instanceProfile | oidcProvider | samlProvider => false

variable (kind : Kind) (S : Request → Request → Prop)

/-- Two keys under which an entity is looked up alike, and known alike from then on. -/
def Keyed (key key' : String) : Prop :=
  key = key' ∨ kind.reportsKey = true ∧ S (.iam (kind.lookup key)) (.iam (kind.lookup key'))

/-- Two statuses that lead to an entity alike. -/
def Recalls (s t : Option (Status kind.Detail)) : Prop :=
  ∀ spec, Option.Rel (kind.Keyed S) (kind.key? spec s) (kind.key? spec t)

/-- What is seen of an entity beside two statuses: the same, but the identity may have been kept on either side. -/
structure Sighted (s t : Option (Status kind.Detail)) (a b : kind.Object) : Prop where
  spec : a.spec = b.spec
  arn : a.arn = b.arn
  detail : a.statusOrEmpty.detail = b.statusOrEmpty.detail
  identity : a.identity = b.identity ∨
    a.identity = s.bind Status.identity ∧ b.identity = t.bind Status.identity

variable {kind S} {s t : Option (Status kind.Detail)} {a b : kind.Object}

theorem Keyed.alike [Std.Refl S] {key key' : String} (keyed : kind.Keyed S key key') :
    S (.iam (kind.lookup key)) (.iam (kind.lookup key')) := by
  rcases keyed with rfl | ⟨-, same⟩
  · exact ‹Std.Refl S›.refl _
  · exact same

/-- Only where IAM tells the key anew may the old ones differ. -/
theorem Keyed.eq {key key' : String} (keyed : kind.Keyed S key key') (kept : kind.reportsKey = false) :
    key = key' := by
  rcases keyed with same | ⟨reported, -⟩
  · exact same
  · rw [kept] at reported
    cases reported

theorem Recalls.of_eq (same : ∀ spec, kind.key? spec s = kind.key? spec t) : kind.Recalls S s t := by
  intro spec
  rw [same spec]
  cases kind.key? spec t with
  | none => exact .none
  | some key => exact .some (.inl rfl)

theorem Recalls.key?_eq (recalls : kind.Recalls S s t) (kept : kind.reportsKey = false) (spec : kind.Spec) :
    kind.key? spec s = kind.key? spec t := by
  have keys := recalls spec
  revert keys
  generalize kind.key? spec s = known
  generalize kind.key? spec t = known'
  rintro (keyed | _)
  · exact congrArg some (keyed.eq kept)
  · rfl

theorem Sighted.observe (sighted : kind.Sighted s t a b) {desired desired' : kind.Object}
    (wanted : desired.spec = desired'.spec) : kind.Sighted s t (desired.observe a) (desired'.observe b) where
  spec := wanted
  arn := by
    simp only [Object.arn, Object.identity_observe]
    exact sighted.arn
  detail := sighted.detail
  identity := by
    simp only [Object.identity_observe]
    exact sighted.identity

/-- What a manager does with an object is alike beside statuses that lead to its entity alike. -/
structure Recalling (kind : Kind) : Prop where
  read {S : Request → Request → Prop} [Std.Refl S] (o : kind.Object) (t : Option (Status kind.Detail))
    (recalls : kind.Recalls S o.status t) :
    Alike S (Option.Rel (kind.Sighted o.status t)) (kind.manager.readOne o)
      (kind.manager.readOne { o with status := t })
  create {S : Request → Request → Prop} [Std.Refl S] (o : kind.Object) (t : Option (Status kind.Detail)) :
    Alike S (fun a b : kind.Object => a.spec = b.spec) (kind.manager.create o)
      (kind.manager.create { o with status := t })
  change {S : Request → Request → Prop} [Std.Refl S] {s t : Option (Status kind.Detail)}
    {desired desired' latest latest' : kind.Object} (delta : Delta) (wanted : desired.spec = desired'.spec)
    (sighted : kind.Sighted s t latest latest') :
    Alike S (kind.Sighted s t) (kind.manager.change desired latest delta)
      (kind.manager.change desired' latest' delta)

end Kind

open Kind (Recalling)

namespace RoleManager

theorem recalling : Recalling .role where
  read o t _ := by
    refine .on _ fun found => ?_
    cases found with
    | none => exact .pure .none
    | some report =>
      exact .on _ fun _ => .on _ fun _ => .on _ fun _ => .on _ fun _ =>
        .pure (.some ⟨rfl, rfl, rfl, .inl rfl⟩)
  create o t := .on _ fun _ => .on _ fun _ => .on _ fun _ => .on _ fun _ => .pure rfl
  change {S _ s t desired desired' latest latest'} delta wanted sighted := by
    change Alike S _ (change desired latest delta) (change desired' latest' delta)
    have observed := sighted.observe wanted
    unfold change
    rw [wanted, sighted.spec]
    exact .on _ fun _ => .on _ fun _ => .on _ fun _ => .on _ fun _ => .on _ fun _ => .on _ fun _ =>
      .on _ fun _ => .pure observed

end RoleManager

namespace UserManager

theorem recalling : Recalling .user where
  read o t _ := by
    refine .on _ fun found => ?_
    cases found with
    | none => exact .pure .none
    | some report =>
      exact .on _ fun _ => .on _ fun _ => .on _ fun _ => .pure (.some ⟨rfl, rfl, rfl, .inl rfl⟩)
  create o t := .on _ fun _ => .on _ fun _ => .on _ fun _ => .on _ fun _ => .pure rfl
  change {S _ s t desired desired' latest latest'} delta wanted sighted := by
    change Alike S _ (change desired latest delta) (change desired' latest' delta)
    have observed := sighted.observe wanted
    unfold change
    rw [wanted, sighted.spec]
    exact .on _ fun _ => .on _ fun _ => .on _ fun _ => .on _ fun _ => .on _ fun _ => .on _ fun _ =>
      .pure observed

end UserManager

namespace GroupManager

theorem recalling : Recalling .group where
  read o t _ := by
    refine .on _ fun found => ?_
    cases found with
    | none => exact .pure .none
    | some report => exact .on _ fun _ => .on _ fun _ => .pure (.some ⟨rfl, rfl, rfl, .inl rfl⟩)
  create o t := .on _ fun _ => .on _ fun _ => .on _ fun _ => .on _ fun _ => .pure rfl
  change {S _ s t desired desired' latest latest'} delta wanted sighted := by
    change Alike S _ (change desired latest delta) (change desired' latest' delta)
    have observed := sighted.observe wanted
    unfold change
    rw [wanted, sighted.spec]
    exact .on _ fun _ => .on _ fun _ => .on _ fun _ => .on _ fun _ => .pure observed

end GroupManager

namespace InstanceProfileManager

theorem recalling : Recalling .instanceProfile where
  read o t _ := by
    refine .on _ fun found => ?_
    cases found with
    | none => exact .pure .none
    | some report => exact .on _ fun _ => .pure (.some ⟨rfl, rfl, rfl, .inl rfl⟩)
  create o t := .on _ fun _ => .on _ fun _ => .on _ fun _ => .pure rfl
  change {S _ s t desired desired' latest latest'} delta wanted sighted := by
    change Alike S _ (change desired latest delta) (change desired' latest' delta)
    have observed := sighted.observe wanted
    unfold change
    rw [wanted, sighted.spec]
    exact .on _ fun _ => .on _ fun _ => .on _ fun _ => .pure observed

end InstanceProfileManager

namespace PolicyManager

theorem Sighted.withVersion {s t : Option (Status PolicyDetail)} {a b : PolicyObject}
    (sighted : Kind.policy.Sighted s t a b) (version : String) :
    Kind.policy.Sighted s t (withVersion a version) (withVersion b version) where
  spec := sighted.spec
  arn := by
    simp only [PolicyManager.withVersion, Object.arn, Object.identity_withDetail]
    exact sighted.arn
  detail := by
    simp only [PolicyManager.withVersion, sighted.detail]
    rfl
  identity := by
    simp only [PolicyManager.withVersion, Object.identity_withDetail]
    exact sighted.identity

theorem recalling : Recalling .policy where
  read {S _} o t recalls := by
    change Alike S _ (readOne o) (readOne { o with status := t })
    have keys : Option.Rel (Kind.policy.Keyed S) o.arn (Object.arn { o with status := t }) := recalls o.spec
    unfold readOne
    revert keys
    generalize o.arn = known
    generalize Object.arn { o with status := t } = known'
    rintro (keyed | _)
    · -- From here on, the ARN is the one that IAM reports.
      refine .lookup .policy keyed.alike fun found found' told => ?_
      cases told
      cases found with
      | none => exact .pure .none
      | some report => exact .on _ fun _ => .on _ fun _ => .pure (.some ⟨rfl, rfl, rfl, .inl rfl⟩)
    · exact .pure .none
  create o t := .on _ fun _ => .on _ fun _ => .pure rfl
  change {S _ s t desired desired' latest latest'} delta wanted sighted := by
    change Alike S _ (change desired latest delta) (change desired' latest' delta)
    have observed := sighted.observe wanted
    unfold change
    rw [wanted, sighted.spec, sighted.arn]
    split
    · exact .pure observed
    · refine .bind (U := Kind.policy.Sighted s t) ?_ fun updated updated' seen =>
        .on _ fun _ => .on _ fun _ => .pure seen
      unfold changeDocument
      rw [observed.spec]
      exact .ite (.on _ fun version => .pure (Sighted.withVersion observed version)) (.pure observed)

end PolicyManager

namespace OidcProviderManager

theorem recalling : Recalling .oidcProvider where
  read {S _} o t recalls := by
    change Alike S _ (readOne o) (readOne { o with status := t })
    have same : o.arn = Object.arn { o with status := t } := recalls.key?_eq rfl o.spec
    unfold readOne
    rw [← same]
    cases known : o.arn with
    | none => exact .pure .none
    | some arn =>
      refine .on _ fun found => ?_
      cases found with
      | none => exact .pure .none
      | some report => exact .on _ fun _ => .pure (.some ⟨rfl, same, rfl, .inr ⟨rfl, rfl⟩⟩)
  create o t := .on _ fun _ => .on _ fun _ => .pure rfl
  change {S _ s t desired desired' latest latest'} delta wanted sighted := by
    change Alike S _ (change desired latest delta) (change desired' latest' delta)
    have observed := sighted.observe wanted
    unfold change
    rw [wanted, sighted.spec, sighted.arn]
    split
    · exact .pure observed
    · exact .on _ fun _ => .on _ fun _ => .on _ fun _ => .on _ fun _ => .pure observed

end OidcProviderManager

namespace SamlProviderManager

theorem recalling : Recalling .samlProvider where
  read {S _} o t recalls := by
    change Alike S _ (readOne o) (readOne { o with status := t })
    have same : o.arn = Object.arn { o with status := t } := recalls.key?_eq rfl o.spec
    unfold readOne
    rw [← same]
    cases known : o.arn with
    | none => exact .pure .none
    | some arn =>
      refine .on _ fun found => ?_
      cases found with
      | none => exact .pure .none
      | some report =>
        refine .on _ fun _ => .pure (.some ⟨rfl, ?_, rfl, .inr ⟨?_, ?_⟩⟩)
        · simp only [Object.arn, Object.identity_withDetail]
          exact same
        · exact Object.identity_withDetail ..
        · exact Object.identity_withDetail ..
  create o t := .on _ fun _ => .on _ fun _ => .pure rfl
  change {S _ s t desired desired' latest latest'} delta wanted sighted := by
    change Alike S _ (change desired latest delta) (change desired' latest' delta)
    have observed := sighted.observe wanted
    unfold change
    rw [wanted, sighted.spec, sighted.arn]
    split
    · exact .pure observed
    · exact .on _ fun _ => .on _ fun _ => .on _ fun _ => .pure observed

end SamlProviderManager

namespace ServiceLinkedRoleManager

theorem roleName?_eq (o : LinkedRoleObject) : roleName? o = o.statusOrEmpty.detail.name := by
  obtain ⟨metadata, spec, _ | status⟩ := o <;> rfl

theorem recalling : Recalling .serviceLinkedRole where
  read {S _} o t recalls := by
    change Alike S _ (readOne o) (readOne { o with status := t })
    have keys : Option.Rel (Kind.serviceLinkedRole.Keyed S) (roleName? o) (roleName? { o with status := t }) :=
      recalls o.spec
    unfold readOne
    revert keys
    generalize roleName? o = known
    generalize roleName? { o with status := t } = known'
    rintro (keyed | _)
    · refine .lookup .serviceLinkedRole keyed.alike fun found found' told => ?_
      cases told
      cases found with
      | none => exact .pure .none
      | some report => exact .pure (.some ⟨rfl, rfl, rfl, .inl rfl⟩)
    · exact .pure .none
  create o t := .on _ fun _ => .on _ fun _ => .pure rfl
  change {S _ s t desired desired' latest latest'} delta wanted sighted := by
    change Alike S _ (change desired latest delta) (change desired' latest' delta)
    have observed := sighted.observe wanted
    unfold change
    rw [wanted, roleName?_eq latest, roleName?_eq latest', sighted.detail]
    cases latest'.statusOrEmpty.detail.name with
    | none => exact .pure observed
    | some name => exact .on _ fun _ => .pure observed

end ServiceLinkedRoleManager

namespace Kind

theorem recalling : (kind : Kind) → Recalling kind
  | role => RoleManager.recalling
  | policy => PolicyManager.recalling
  | group => GroupManager.recalling
  | user => UserManager.recalling
  | instanceProfile => InstanceProfileManager.recalling
  | oidcProvider => OidcProviderManager.recalling
  | samlProvider => SamlProviderManager.recalling
  | serviceLinkedRole => ServiceLinkedRoleManager.recalling

variable {kind : Kind} {S : Request → Request → Prop} [Std.Refl S] {s t : Option (Status kind.Detail)}

theorem alike_resolve (o : kind.Object) (t : Option (Status kind.Detail)) :
    Alike S (fun a b : Resolved kind.Spec kind.Detail =>
        a.object.status = o.status ∧ b = ⟨{ a.object with status := t }, a.referenced⟩)
      (kind.manager.resolve o) (kind.manager.resolve { o with status := t }) := by
  rw [resolve_eq, resolve_eq]
  cases kind.conflicts o.spec with
  | cons => exact .done (.error _)
  | nil =>
    refine .ite (.pure ⟨rfl, rfl⟩) ?_
    unfold takeAll
    cases o.metadata.space with
    | none => exact .done (.error _)
    | some space => exact .on _ fun values => .pure ⟨rfl, rfl⟩

/-- What two syncs come to: the same, as far as an entity that was there already is seen alike. -/
structure Matches (s t : Option (Status kind.Detail)) (a b : Synced kind.Spec kind.Detail) : Prop where
  spec : a.object.spec = b.object.spec
  referenced : a.referenced = b.referenced
  created : a.created = b.created
  sighted : a.created = false → kind.Sighted s t a.object b.object

theorem alike_sync (o : kind.Object) (t : Option (Status kind.Detail)) (recalls : kind.Recalls S o.status t) :
    Alike S (Matches o.status t) (kind.manager.sync o) (kind.manager.sync { o with status := t }) := by
  rw [Manager.sync_eq, Manager.sync_eq]
  refine (alike_resolve o t).bind ?_
  rintro ⟨resolved, referenced⟩ _ ⟨kept, rfl⟩
  rw [← kept] at recalls ⊢
  refine (kind.recalling.read resolved t recalls).bind fun found found' seen => ?_
  cases seen with
  | none => exact (kind.recalling.create resolved t).bind fun a b spec => .pure ⟨spec, rfl, rfl, nofun⟩
  | @some latest latest' sighted =>
    -- What is wanted and what has drifted are told by specs alone.
    have wanted : (kind.manager.wish resolved latest).spec =
        (kind.manager.wish { resolved with status := t } latest').spec := by
      unfold Manager.wish
      rw [sighted.spec]
    have drift : kind.manager.drift { resolved with status := t } latest' = kind.manager.drift resolved latest := by
      unfold Manager.drift
      rw [wanted, sighted.spec]
    cases inSync : (kind.manager.drift resolved latest).isEmpty with
    | true =>
      have inSync' : (kind.manager.drift { resolved with status := t } latest').isEmpty = true := drift ▸ inSync
      rw [Manager.settle_inSync o inSync, Manager.settle_inSync _ inSync']
      exact .on _ fun _ => .pure ⟨sighted.spec, rfl, rfl, fun _ => sighted⟩
    | false =>
      have drifted' : (kind.manager.drift { resolved with status := t } latest').isEmpty = false :=
        drift ▸ inSync
      rw [Manager.settle_drifted o inSync, Manager.settle_drifted _ drifted', drift]
      refine .bind (.on _ fun _ => kind.recalling.change _ wanted sighted) fun a b seen => ?_
      exact .pure ⟨seen.spec, rfl, rfl, fun _ => seen⟩

end Kind

end IamKeeper
