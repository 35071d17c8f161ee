import IamKeeper.Proofs.Fixpoint
import IamKeeper.Proofs.Removal

namespace IamKeeper

open Iam
open Job (Alike Ends)
open Plan hiding bind_assoc

theorem Oracle.agrees_self (oracle : Oracle) : oracle.Agrees Eq oracle := by
  intro past past' r r' before same _
  rw [List.forall₂_eq_eq_eq] at before
  subst before same
  rfl

theorem Job.Ends.mono {α β : Type} {V U : α → β → Prop} {x : Except Fault α} {y : Except Fault β} (ends : Ends V x y)
    (weaker : ∀ a b, V a b → U a b) : Ends U x y := by
  cases ends with
  | ok like => exact .ok (weaker _ _ like)
  | error fault => exact .error fault

theorem Job.Ends.eq {α : Type} {x y : Except Fault α} (ends : Ends Eq x y) : x = y := by
  cases ends with
  | ok same => rw [same]
  | error fault => rfl

theorem Job.Alike.refl {α : Type} {S : Request → Request → Prop} [Std.Refl S] (p : Job α) : Alike S Eq p p := by
  induction p with
  | done outcome =>
    cases outcome with
    | ok value => exact .pure rfl
    | error fault => exact .done (.error fault)
  | ask r next ih =>
    refine .ask (‹Std.Refl S›.refl r) fun answer answer' told => ?_
    cases told
    exact ih answer

/-- One oracle is asked the same by jobs that are alike to the letter. -/
theorem Job.Alike.told {α β : Type} {V : α → β → Prop} {p : Job α} {q : Job β} (alike : Alike Eq V p q)
    (unpatched : p.Asks (Request.patches · = false)) (oracle : Oracle) (past : List Request) :
    Ends V (p.toldBy oracle past).1 (q.toldBy oracle past).1 ∧
      (p.toldBy oracle past).2 = (q.toldBy oracle past).2 := by
  obtain ⟨ends, asked⟩ := alike.toldBy oracle.agrees_self unpatched (List.forall₂_same.mpr fun _ _ => rfl)
  rw [List.forall₂_eq_eq_eq] at asked
  exact ⟨ends, asked⟩

namespace Kind

variable {kind : Kind} {s t : Option (Status kind.Detail)} {a b : kind.Object}

/-- What is seen alike is deleted by the same job. -/
theorem delete_sighted (sighted : kind.Sighted s t a b) : kind.manager.delete a = kind.manager.delete b := by
  cases kind with
  | role =>
    change RoleManager.delete a = RoleManager.delete b
    unfold RoleManager.delete
    rw [sighted.spec]
  | user =>
    change UserManager.delete a = UserManager.delete b
    unfold UserManager.delete
    rw [sighted.spec]
  | group =>
    change GroupManager.delete a = GroupManager.delete b
    unfold GroupManager.delete
    rw [sighted.spec]
  | instanceProfile =>
    change InstanceProfileManager.delete a = InstanceProfileManager.delete b
    unfold InstanceProfileManager.delete
    rw [sighted.spec]
  | policy =>
    change PolicyManager.delete a = PolicyManager.delete b
    unfold PolicyManager.delete
    rw [sighted.arn]
  | oidcProvider =>
    change OidcProviderManager.delete a = OidcProviderManager.delete b
    unfold OidcProviderManager.delete
    rw [sighted.arn]
  | samlProvider =>
    change SamlProviderManager.delete a = SamlProviderManager.delete b
    unfold SamlProviderManager.delete
    rw [sighted.arn]
  | serviceLinkedRole =>
    change ServiceLinkedRoleManager.delete a = ServiceLinkedRoleManager.delete b
    unfold ServiceLinkedRoleManager.delete
    rw [ServiceLinkedRoleManager.roleName?_eq, ServiceLinkedRoleManager.roleName?_eq, sighted.detail]

theorem asks_remove (o : kind.Object) : (kind.manager.remove o).Asks (Request.patches · = false) :=
  (heeds_remove Replies.all_own kind o).asks.mono fun _ => Request.Among.unpatched

theorem alike_remove {S : Request → Request → Prop} [Std.Refl S] (o : kind.Object) (t : Option (Status kind.Detail))
    (recalls : kind.Recalls S o.status t) :
    Alike S Eq (kind.manager.remove o) (kind.manager.remove { o with status := t }) := by
  refine (kind.recalling.read o t recalls).bind fun found found' seen => ?_
  cases seen with
  | none => exact .refl _
  | @some latest latest' sighted =>
    change Alike S Eq (kind.manager.delete latest) (kind.manager.delete latest')
    rw [delete_sighted sighted]
    exact .refl _

theorem Recalls.of_key {S : Request → Request → Prop} {spec : kind.Spec} (same : kind.key? spec s = kind.key? spec t) :
    kind.Recalls S s t := by
  refine .of_eq fun other => ?_
  cases named : kind.isNamed with
  | true => exact key?_named named other s t
  | false => rw [key?_unnamed named other spec, key?_unnamed named other spec, same]

/-- Two syncs that saw and did the same. -/
structure Twins (a b : Synced kind.Spec kind.Detail) : Prop where
  spec : a.object.spec = b.object.spec
  referenced : a.referenced = b.referenced
  created : a.created = b.created

/-- Of a status nothing but the key of the entity has a part in what is asked for by a sync or a removal, or in how they
end. -/
theorem sync_impartial (o : kind.Object) (t : Option (Status kind.Detail))
    (same : kind.key? o.spec o.status = kind.key? o.spec t) (oracle : Oracle) (past : List Request) :
    (Ends Twins ((kind.manager.sync o).toldBy oracle past).1
        ((kind.manager.sync { o with status := t }).toldBy oracle past).1 ∧
      ((kind.manager.sync o).toldBy oracle past).2 =
        ((kind.manager.sync { o with status := t }).toldBy oracle past).2) ∧
    (kind.manager.remove o).toldBy oracle past = (kind.manager.remove { o with status := t }).toldBy oracle past := by
  obtain ⟨ends, asked⟩ := (alike_sync o t (.of_key same)).told (asks_sync o) oracle past
  obtain ⟨ends', asked'⟩ := (alike_remove o t (.of_key same)).told (asks_remove o) oracle past
  have twins := ends.mono fun a b matched => (⟨matched.spec, matched.referenced, matched.created⟩ : Twins a b)
  exact ⟨⟨twins, asked⟩, Prod.ext ends'.eq asked'⟩

/-- A status by which a policy is stuck, with another id. -/
def stuck : Status PolicyDetail :=
  ⟨some (Identity.ofArn "arn:old"), [⟨.terminal, .yes, some "too many versions", none, none⟩],
    { (default : PolicyDetail) with id := some "ANPB" }⟩

/-- The tags of a policy that is told to be stuck are changed as they are without that. -/
theorem sync_impartial_stuck :
    policy.key? movedPolicy.spec movedPolicy.status = policy.key? movedPolicy.spec (some stuck) ∧
    ((policy.manager.sync movedPolicy).toldBy archive []).2 =
      ((policy.manager.sync { movedPolicy with status := some stuck }).toldBy archive []).2 ∧
    Request.iam (.tag (.policy "arn:new") [⟨"team", "one"⟩]) ∈
      ((policy.manager.sync { movedPolicy with status := some stuck }).toldBy archive []).2 := by
  have same : policy.key? movedPolicy.spec movedPolicy.status = policy.key? movedPolicy.spec (some stuck) := rfl
  exact ⟨same, (sync_impartial movedPolicy (some stuck) same archive []).1.2, by decide⟩

end Kind

end IamKeeper
