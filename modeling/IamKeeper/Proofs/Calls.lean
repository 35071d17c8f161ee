import IamKeeper.Proofs.Reading
import IamKeeper.Proofs.Resolution
import IamKeeper.Proofs.Update.Agreement

namespace IamKeeper

open Iam
open Job (Heeds)
open Manager (whenDiffers)
open Plan hiding bind_assoc

variable {α β : Type}

/-- A plan that calls IAM and takes notes, and fails only with a call. -/
def Calls (p : Job α) : Prop :=
  Heeds Replies.all (Request.Among fun _ => True) (fun _ => False) p

namespace Calls

theorem weaken {P : Call → Prop} {p : Job α}
    (h : Heeds Replies.all (Request.Among P) (fun _ => False) p) : Calls p :=
  h.mono (Request.Among.mono fun _ _ => trivial) fun _ => id

theorem bind {p : Job α} {f : α → Job β} (hp : Calls p) (hf : ∀ value, Calls (f value)) :
    Calls (p >>= f) :=
  Heeds.bind hp hf

theorem pure (value : α) : Calls (Pure.pure value : Job α) := trivial

theorem iam (call : Call) : Calls (Job.iam call) :=
  Heeds.iam call trivial

theorem note {level : Level} {text : String} : Calls (Job.note level text) :=
  Heeds.note trivial

theorem when {condition : Bool} {p : Job Unit} (h : Calls p) : Calls (Plan.when condition p) :=
  Heeds.ite h (Heeds.pure ())

theorem finish {what : String} {delta : Delta} {value : α} :
    Calls (Manager.noteUpdate what delta >>= fun _ => (Pure.pure value : Job α)) :=
  note.bind fun _ => pure value

/-- A plan that asks nothing of IAM does not fail. -/
theorem fails_with_call {σ : Type} {W : World world σ} {s t : σ} {steps : List (Step world σ)}
    {p : Job α} {fault : Fault} (h : Calls p) (run : Run W s p steps (.error fault) t) :
    ∃ step ∈ steps, ∃ call, step.request = .iam call := by
  rcases h.blames (Replies.all_bound W) run with impossible | ⟨step, hs, failed⟩
  · exact impossible.elim
  refine ⟨step, hs, ?_⟩
  have among := h.asked (Replies.all_bound W) run step hs
  obtain ⟨before, request, answer, after⟩ := step
  cases request with
  | iam call => exact ⟨call, rfl⟩
  | note => cases failed
  | policy | role | patchStatus | patchFinalizers => exact among.elim

end Calls

namespace Kind

variable {kind : Kind}

theorem calls_hook {key path : String} {hook : Job Unit} {desired latest : kind.Spec} (delta : Delta)
    (h : (path, hook) ∈ kind.hooks key desired latest) : Calls (whenDiffers delta path hook) := by
  obtain ⟨same, -, agrees⟩ := agrees_hook h
  exact .when (.weaken agrees.heeds)

/-- Whatever delta it is given, a change fails only with a call. -/
theorem calls_change (desired latest : kind.Object) (delta : Delta) :
    Calls (kind.manager.change desired latest delta) := by
  have hooked (key : String) {path : String} {hook : Job Unit}
      (h : (path, hook) ∈ kind.hooks key desired.spec latest.spec) := calls_hook delta h
  cases kind with
  | role =>
    refine .bind (hooked latest.spec.name (by simp [hooks])) fun _ =>
      .bind (hooked latest.spec.name (by simp [hooks])) fun _ =>
      .bind (hooked latest.spec.name (by simp [hooks])) fun _ =>
      .bind (hooked latest.spec.name (by simp [hooks])) fun _ => ?_
    exact .bind (.when (.iam _)) fun _ => .bind (.when (.iam _)) fun _ => .finish
  | user =>
    refine .bind (hooked latest.spec.name (by simp [hooks])) fun _ =>
      .bind (hooked latest.spec.name (by simp [hooks])) fun _ =>
      .bind (hooked latest.spec.name (by simp [hooks])) fun _ =>
      .bind (hooked latest.spec.name (by simp [hooks])) fun _ => ?_
    exact .bind (.when (.iam _)) fun _ => .finish
  | group =>
    refine .bind (hooked latest.spec.name (by simp [hooks])) fun _ =>
      .bind (hooked latest.spec.name (by simp [hooks])) fun _ => ?_
    exact .bind (.when (.iam _)) fun _ => .finish
  | instanceProfile =>
    exact .bind (hooked latest.spec.name (by simp [hooks])) fun _ =>
      .bind (hooked latest.spec.name (by simp [hooks])) fun _ => .finish
  | policy =>
    change Calls (PolicyManager.change desired latest delta)
    unfold PolicyManager.change
    cases latest.arn with
    | none => exact .pure _
    | some arn =>
      exact .bind (.weaken (PolicyManager.serves_changeDocument ..).heeds) fun _ =>
        .bind (hooked arn (by simp [hooks])) fun _ => .finish
  | oidcProvider =>
    change Calls (OidcProviderManager.change desired latest delta)
    unfold OidcProviderManager.change
    cases latest.arn with
    | none => exact .pure _
    | some arn =>
      exact .bind (.when (.iam _)) fun _ => .bind (hooked arn (by simp [hooks])) fun _ =>
        .bind (hooked arn (by simp [hooks])) fun _ => .finish
  | samlProvider =>
    change Calls (SamlProviderManager.change desired latest delta)
    unfold SamlProviderManager.change
    cases latest.arn with
    | none => exact .pure _
    | some arn =>
      exact .bind (.when (.iam _)) fun _ => .bind (hooked arn (by simp [hooks])) fun _ => .finish
  | serviceLinkedRole =>
    change Calls (ServiceLinkedRoleManager.change desired latest delta)
    unfold ServiceLinkedRoleManager.change
    cases ServiceLinkedRoleManager.roleName? latest with
    | none => exact .pure _
    | some name =>
      exact .bind (.when (.weaken (ServiceLinkedRoleManager.writes_changeDescription ..).heeds)) fun _ =>
        .pure _

theorem asks_readOne (o : kind.Object) : (kind.manager.readOne o).Asks Request.Reads := by
  refine (kind.reads Replies.all_own o).asks.mono fun r h => ?_
  cases r with
  | iam call => exact congrArg not (show call.isRead = true from h)
  | note => rfl
  | policy | role | patchStatus | patchFinalizers => cases h

theorem calls_create (o : kind.Object) : Calls (kind.manager.create o) := by
  cases kind with
  | role | user | group =>
    exact .bind (.iam _) fun _ => .bind .note fun _ =>
      .bind (.weaken (agrees_syncAttached ..).heeds) fun _ =>
      .bind (.weaken (agrees_syncInline ..).heeds) fun _ => .pure _
  | instanceProfile =>
    exact .bind (.iam _) fun _ => .bind .note fun _ =>
      .bind (.weaken (InstanceProfileManager.agrees_syncRole ..).heeds) fun _ => .pure _
  | policy | oidcProvider | samlProvider | serviceLinkedRole =>
    exact .bind (.iam _) fun _ => .bind .note fun _ => .pure _

/-- A sync leaves the cluster alone. -/
theorem asks_sync (o : kind.Object) :
    (kind.manager.sync o).Asks (Request.patches · = false) := by
  have unpatched {α : Type} {P : Call → Prop} {own : Fault → Prop} {p : Job α}
      (h : Heeds Replies.all (Request.Among P) own p) : p.Asks (Request.patches · = false) :=
    h.asks.mono fun _ => Request.Among.unpatched
  rw [Manager.sync_eq]
  refine ((asks_resolve o).mono fun _ => Request.Refers.unpatched).bind fun resolved =>
    (unpatched (kind.reads Replies.all_own _)).bind fun found => ?_
  cases found with
  | none => exact unpatched ((calls_create resolved.object).bind fun _ => .pure _)
  | some latest =>
    refine asks_ite (unpatched (Calls.note.bind fun _ => .pure _)) (Asks.bind ?_ fun _ => trivial)
    exact Asks.bind trivial fun _ => unpatched (calls_change ..)

end Kind

end IamKeeper
