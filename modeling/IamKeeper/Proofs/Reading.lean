import IamKeeper.Manager.Kinds
import IamKeeper.Proofs.Failure
import IamKeeper.Proofs.Percent

namespace IamKeeper

open Iam
open Job (Heeds)
open Plan hiding bind_assoc
open Text.Percent (Escapes)

/-- The documents that an answer tells, as they are told. -/
def Iam.Call.documents : (call : Call) → call.Result → List String
  | .getRole _, some report => report.trust.toList
  | .getInline _ _, encoded => [encoded]
  | .getPolicyVersion _ _, version => version.document.toList
  | _, _ => []

/-- A document that cannot be read is a fault of their own for plans that get such answers. -/
def Replies.Own (A : Replies) (own : Fault → Prop) : Prop :=
  ∀ (call : Call) (result : call.Result), A (.iam call) (.ok result) →
    ∀ encoded ∈ call.documents result, ∀ fault, Document.decode encoded = .error fault → own fault

/-- Answers whose documents are told escaped. -/
def Replies.escaped : Replies
  | .iam call, .ok result =>
    ∀ encoded ∈ call.documents result, ∃ document, Escapes encoded document
  | _, _ => True

theorem Replies.escaped_own : escaped.Own fun _ => False := by
  intro call result told encoded he fault h
  obtain ⟨document, escapes⟩ := told encoded he
  rw [Document.decode_of_escapes escapes] at h
  cases h

theorem Replies.all_own : all.Own fun _ => True :=
  fun _ _ _ _ _ _ _ => trivial

/-- A plan that asks IAM for reads, and ends with the first one that fails. -/
def Reads {α : Type} (A : Replies) (own : Fault → Prop) (p : Job α) : Prop :=
  Heeds A (Request.Among fun call => call.isRead = true) own p

namespace Reads

variable {A : Replies} {own : Fault → Prop} {α β : Type}

theorem pure (value : α) : Reads A own (Pure.pure value : Job α) := trivial

theorem bind {p : Job α} {f : α → Job β} (hp : Reads A own p) (hf : ∀ value, Reads A own (f value)) :
    Reads A own (p >>= f) :=
  Heeds.bind hp hf

theorem iam (call : Call) (read : call.isRead = true) : Reads A own (Job.iam call) :=
  Heeds.iam call read

theorem decode {call : Call} {result : call.Result} (blame : A.Own own)
    (told : A (.iam call) (.ok result)) {encoded : String} (he : encoded ∈ call.documents result) :
    Reads A own (Plan.ofExcept (Document.decode encoded)) :=
  Heeds.ofExcept (blame call result told encoded he)

end Reads

variable {A : Replies} {own : Fault → Prop}

theorem Iam.reads_inlinePolicies (blame : A.Own own) (p : Principal) :
    Reads A own (inlinePolicies p) := by
  have readInline (name : String) : Reads A own (readInline p name) :=
    Heeds.iam_bind (.getInline p name) rfl fun encoded told =>
      (Reads.decode blame told (List.mem_singleton_self _)).bind fun _ => .pure _
  exact (Reads.iam (.listInline p) rfl).bind fun names =>
    (Heeds.collect readInline names).bind fun _ => Reads.pure _

theorem RoleManager.reads (blame : A.Own own) (o : RoleObject) : Reads A own (readOne o) := by
  refine Heeds.iam_bind (.getRole o.spec.name) rfl fun found told => ?_
  cases found with
  | none => exact Reads.pure _
  | some report =>
    have trust : Reads A own (Plan.ofExcept (trustOf report)) := by
      unfold trustOf
      cases ht : report.trust with
      | none => exact .pure _
      | some encoded => exact .decode blame told (by simp [Call.documents, ht])
    exact trust.bind fun _ => (Reads.iam (.listAttached _) rfl).bind fun _ =>
      (reads_inlinePolicies blame _).bind fun _ => (Reads.iam (.listTags _) rfl).bind fun _ => .pure _

theorem UserManager.reads (blame : A.Own own) (o : UserObject) : Reads A own (readOne o) := by
  refine (Reads.iam (.getUser o.spec.name) rfl).bind fun found => ?_
  cases found with
  | none => exact .pure _
  | some report =>
    exact (Reads.iam (.listAttached _) rfl).bind fun _ => (reads_inlinePolicies blame _).bind fun _ =>
      (Reads.iam (.listTags _) rfl).bind fun _ => .pure _

theorem GroupManager.reads (blame : A.Own own) (o : GroupObject) : Reads A own (readOne o) := by
  refine (Reads.iam (.getGroup o.spec.name) rfl).bind fun found => ?_
  cases found with
  | none => exact .pure _
  | some report =>
    exact (Reads.iam (.listAttached _) rfl).bind fun _ =>
      (reads_inlinePolicies blame _).bind fun _ => .pure _

theorem InstanceProfileManager.reads (o : ProfileObject) : Reads A own (readOne o) := by
  refine (Reads.iam (.getInstanceProfile o.spec.name) rfl).bind fun found => ?_
  cases found with
  | none => exact .pure _
  | some report => exact (Reads.iam (.listTags _) rfl).bind fun _ => .pure _

theorem PolicyManager.reads (blame : A.Own own) (o : PolicyObject) : Reads A own (readOne o) := by
  unfold readOne
  cases o.arn with
  | none => exact .pure _
  | some arn =>
    refine (Reads.iam (.getPolicy arn) rfl).bind fun found => ?_
    cases found with
    | none => exact .pure _
    | some report =>
      have document : Reads A own (readDocument o.spec report) := by
        unfold readDocument
        cases report.defaultVersion with
        | none => exact .pure _
        | some id =>
          refine Heeds.iam_bind (.getPolicyVersion report.arn id) rfl fun version told => ?_
          cases hd : version.document with
          | none => exact Reads.pure _
          | some encoded => exact Reads.decode blame told (by simp [Call.documents, hd])
      exact document.bind fun _ => (Reads.iam (.listTags _) rfl).bind fun _ => .pure _

theorem OidcProviderManager.reads (o : ProviderObject) : Reads A own (readOne o) := by
  unfold readOne
  cases o.arn with
  | none => exact .pure _
  | some arn =>
    refine (Reads.iam (.getOidcProvider arn) rfl).bind fun found => ?_
    cases found with
    | none => exact .pure _
    | some report => exact (Reads.iam (.listTags _) rfl).bind fun _ => .pure _

theorem SamlProviderManager.reads (o : ProviderObject) : Reads A own (readOne o) := by
  unfold readOne
  cases o.arn with
  | none => exact .pure _
  | some arn =>
    refine (Reads.iam (.getSamlProvider arn) rfl).bind fun found => ?_
    cases found with
    | none => exact .pure _
    | some report => exact (Reads.iam (.listTags _) rfl).bind fun _ => .pure _

theorem ServiceLinkedRoleManager.reads (o : LinkedRoleObject) : Reads A own (readOne o) := by
  unfold readOne
  cases roleName? o with
  | none => exact .pure _
  | some name =>
    refine (Reads.iam (.getRole name) rfl).bind fun found => ?_
    cases found <;> exact .pure _

theorem Kind.reads (blame : A.Own own) :
    (kind : Kind) → (o : kind.Object) → Reads A own (kind.manager.readOne o)
  | role => RoleManager.reads blame
  | policy => PolicyManager.reads blame
  | group => GroupManager.reads blame
  | user => UserManager.reads blame
  | instanceProfile => InstanceProfileManager.reads
  | oidcProvider => OidcProviderManager.reads
  | samlProvider => SamlProviderManager.reads
  | serviceLinkedRole => ServiceLinkedRoleManager.reads

end IamKeeper
