import IamKeeper.Manager.Kinds
import IamKeeper.Proofs.Attachments

namespace IamKeeper

open Iam
open Job (Heeds)
open Plan hiding bind_assoc

/-- The fields of a spec for which an update makes a call. -/
def Iam.Call.fields : Call → List String
  | .attach _ _ | .detach _ _ => ["Spec.Policies"]
  | .putInline _ _ _ | .deleteInline _ _ => ["Spec.InlinePolicies"]
  | .putBoundary _ _ | .deleteBoundary _ => ["Spec.PermissionsBoundary"]
  | .tag _ _ | .untag _ _ => ["Spec.Tags"]
  | .updateTrust _ _ => ["Spec.AssumeRolePolicyDocument"]
  | .updateRole _ _ _ => ["Spec.Description", "Spec.MaxSessionDuration"]
  | .updateUser _ _ | .updateGroup _ _ => ["Spec.Path"]
  | .listPolicyVersions _ | .createPolicyVersion _ _ _ | .deletePolicyVersion _ _ =>
    ["Spec.PolicyDocument"]
  | .addRole _ _ | .removeRole _ _ => ["Spec.Role"]
  | .addClientId _ _ | .removeClientId _ _ => ["Spec.ClientIDs"]
  | .updateThumbprints _ _ => ["Spec.Thumbprints"]
  | .updateSamlProvider _ _ => ["Spec.SAMLMetadataDocument"]
  | _ => []

def Request.Changes (path : String) (r : Request) : Prop :=
  ∃ call : Call, r = .iam call ∧ call.isRead = false ∧ path ∈ call.fields

variable {α β : Type}

/-- A plan that does not succeed without a call that changes something for a field. -/
def Makes (path : String) (p : Job α) : Prop :=
  ∀ (σ : Type) (W : World world σ) (s t : σ) (steps : List (Step world σ)) (value : α),
    Run W s p steps (.ok value) t → ∃ step ∈ steps, step.request.Changes path

/-- A plan that makes no call but for a field, and at least one that changes something. It fails only with a
call. -/
structure Writes (path : String) (p : Job α) : Prop where
  heeds : Heeds Replies.all (Request.Among fun call => path ∈ call.fields) (fun _ => False) p
  makes : Makes path p

namespace Makes

variable {path : String} {p : Job α} {f : α → Job β}

theorem iam (call : Call) (changes : call.isRead = false) (served : path ∈ call.fields) :
    Makes path (Job.iam call) := by
  intro σ W s t steps value run
  obtain ⟨answer, mid, later, -, -, rfl⟩ := run_ask.mp run
  exact ⟨_, List.mem_cons_self .., call, rfl, changes, served⟩

theorem first (f : α → Job β) (h : Makes path p) : Makes path (p >>= f) := by
  intro σ W s t steps value run
  obtain ⟨x, mid, first, second, hp, -, rfl⟩ := run_bind_ok.mp run
  obtain ⟨step, hs, changes⟩ := h _ _ _ _ _ _ hp
  exact ⟨step, List.mem_append_left _ hs, changes⟩

theorem next (p : Job α) (h : ∀ value, Makes path (f value)) : Makes path (p >>= f) := by
  intro σ W s t steps value run
  obtain ⟨x, mid, first, second, -, hf, rfl⟩ := run_bind_ok.mp run
  obtain ⟨step, hs, changes⟩ := h x _ _ _ _ _ _ hf
  exact ⟨step, List.mem_append_right _ hs, changes⟩

theorem noted {text : String} (call : Call) (changes : call.isRead = false)
    (served : path ∈ call.fields) : Makes path (Job.debug text >>= fun _ => Job.iam call) :=
  next _ fun _ => iam call changes served

theorem not_pure {value : α} : ¬ Makes path (pure value : Job α) := by
  intro h
  obtain ⟨step, hs, -⟩ := h Unit (fun _ _ _ _ => True) () () [] value .done
  cases hs

end Makes

namespace Writes

variable {path : String}

theorem iam (call : Call) (changes : call.isRead = false) (served : path ∈ call.fields) :
    Writes path (Job.iam call) :=
  ⟨.iam call served, .iam call changes served⟩

theorem noted {text : String} (call : Call) (changes : call.isRead = false)
    (served : path ∈ call.fields) : Writes path (Job.debug text >>= fun _ => Job.iam call) :=
  ⟨(Heeds.note trivial).bind fun _ => .iam call served, .noted call changes served⟩

end Writes

/-- A hook that does nothing where two sides are the same, and else makes a call for a field. -/
structure Agrees (same : Bool) (path : String) (hook : Job Unit) : Prop where
  idle : same = true → hook = pure ()
  writes : same = false → Writes path hook

namespace Agrees

variable {same same' : Bool} {path : String} {hook hook' : Job Unit}

theorem heeds (h : Agrees same path hook) :
    Heeds Replies.all (Request.Among fun call => path ∈ call.fields) (fun _ => False) hook := by
  cases hs : same with
  | false => exact (h.writes hs).heeds
  | true =>
    rw [h.idle hs]
    exact .pure ()

theorem writes_iff (h : Agrees same path hook) : Writes path hook ↔ same = false := by
  constructor
  · intro writes
    cases hs : same with
    | false => rfl
    | true =>
      have made := writes.makes
      rw [h.idle hs] at made
      exact absurd made Makes.not_pure
  · exact h.writes

theorem of_writes (h : Writes path hook) : Agrees false path hook :=
  ⟨nofun, fun _ => h⟩

theorem bind (h : Agrees same path hook) (h' : Agrees same' path hook') :
    Agrees (same && same') path (hook >>= fun _ => hook') where
  idle := by
    intro both
    obtain ⟨hs, hs'⟩ := Bool.and_eq_true_iff.mp both
    rw [h.idle hs, h'.idle hs']
    rfl
  writes := by
    intro some
    refine ⟨h.heeds.bind fun _ => h'.heeds, ?_⟩
    cases hs : same with
    | false => exact .first _ (h.writes hs).makes
    | true =>
      rw [hs, Bool.true_and] at some
      exact .next _ fun _ => (h'.writes some).makes

theorem forEach {f : β → Job Unit} (h : ∀ item, Writes path (f item)) (items : List β) :
    Agrees items.isEmpty path (Plan.forEach f items) := by
  cases items with
  | nil => exact ⟨fun _ => rfl, nofun⟩
  | cons item items =>
    exact .of_writes ⟨Heeds.forEach (fun item => (h item).heeds) _, .first _ (h item).makes⟩

theorem ite {c : Prop} [Decidable c] (h : Writes path hook) :
    Agrees (decide c) path (if c then pure () else hook) := by
  by_cases hc : c
  · rw [if_pos hc]
    exact ⟨fun _ => rfl, fun h => absurd hc (of_decide_eq_false h)⟩
  · rw [if_neg hc]
    exact ⟨fun h => absurd (of_decide_eq_true h) hc, fun _ => h⟩

theorem congr (h : Agrees same path hook) (eq : same' = same) : Agrees same' path hook := by
  rw [eq]
  exact h

end Agrees

namespace Iam

theorem difference_isEmpty {a b : List String} :
    (difference a b).isEmpty = true ↔ ∀ item ∈ a, item ∈ b := by
  rw [List.isEmpty_iff, List.eq_nil_iff_forall_not_mem]
  refine forall_congr' fun item => ?_
  rw [mem_difference, not_and, not_not]

theorem sameMembers_eq (a b : List String) :
    sameMembers a b = ((difference a b).isEmpty && (difference b a).isEmpty) := by
  rw [Bool.eq_iff_iff, Bool.and_eq_true, sameMembers_iff, difference_isEmpty, difference_isEmpty]
  exact ⟨fun h => ⟨fun item => (h item).mp, fun item => (h item).mpr⟩,
    fun h item => ⟨h.1 item, h.2 item⟩⟩

theorem agrees_syncAttached (p : Principal) (desired latest : List String) :
    Agrees (sameMembers desired latest) "Spec.Policies" (syncAttached p desired latest) := by
  have attached (arn : String) : Writes "Spec.Policies" (attach p arn) :=
    .noted (.attach p arn) rfl (List.mem_singleton_self _)
  have detached (arn : String) : Writes "Spec.Policies" (detach p arn) :=
    .noted (.detach p arn) rfl (List.mem_singleton_self _)
  exact ((Agrees.forEach attached _).bind (.forEach detached _)).congr (sameMembers_eq ..)

theorem staleInline_isEmpty {desired latest : Table String} :
    (staleInline desired latest).isEmpty = true ↔
      ∀ name document, desired.get? name = some document → isCurrent latest name document = true := by
  unfold staleInline
  rw [List.isEmpty_iff, List.filter_eq_nil_iff]
  simp only [Table.get?_eq_some, Bool.not_eq_true', Bool.not_eq_false, Prod.forall]

theorem obsoleteInline_isEmpty {desired latest : Table String} :
    (obsoleteInline desired latest).isEmpty = true ↔
      ∀ name, desired.get? name = none → latest.get? name = none := by
  unfold obsoleteInline
  rw [List.isEmpty_iff, List.filter_eq_nil_iff]
  refine forall_congr' fun name => ?_
  rw [Table.mem_keys, ← Option.isSome_iff_exists]
  unfold Table.contains
  cases desired.get? name <;> cases latest.get? name <;> simp

theorem sameInline_eq (desired latest : Table String) : sameInline desired latest =
    ((staleInline desired latest).isEmpty && (obsoleteInline desired latest).isEmpty) := by
  rw [Bool.eq_iff_iff, Bool.and_eq_true, sameInline_iff, staleInline_isEmpty, obsoleteInline_isEmpty]
  constructor
  · intro same
    refine ⟨fun name document wanted => ?_, fun name absent => ?_⟩
    · have h := same name
      rw [wanted] at h
      cases hl : latest.get? name with
      | none =>
        rw [hl] at h
        cases h
      | some current =>
        rw [hl] at h
        cases h with
        | some equivalent => exact isCurrent_iff.mpr ⟨current, hl, equivalent⟩
    · have h := (same name).isSome
      rw [absent] at h
      exact Option.not_isSome_iff_eq_none.mp (by simp [← h])
  · intro h name
    obtain ⟨current, kept⟩ := h
    cases hd : desired.get? name with
    | none =>
      rw [kept name hd]
      exact .none
    | some document =>
      obtain ⟨other, found, equivalent⟩ := isCurrent_iff.mp (current name document hd)
      rw [found]
      exact .some equivalent

theorem agrees_syncInline (p : Principal) (desired latest : Table String) :
    Agrees (sameInline desired latest) "Spec.InlinePolicies" (syncInline p desired latest) := by
  have put (entry : String × String) : Writes "Spec.InlinePolicies" (putInline p entry.1 entry.2) :=
    .noted (.putInline p entry.1 entry.2) rfl (List.mem_singleton_self _)
  have deleted (name : String) : Writes "Spec.InlinePolicies" (deleteInline p name) :=
    .noted (.deleteInline p name) rfl (List.mem_singleton_self _)
  exact ((Agrees.forEach put _).bind (.forEach deleted _)).congr (sameInline_eq ..)

theorem sameGiven_eq (x y : Option String) : sameGiven x y = decide (given x = given y) := by
  rw [Bool.eq_iff_iff, sameGiven_iff, decide_eq_true_eq]

theorem agrees_syncBoundary (p : Principal) (desired latest : Option String) :
    Agrees (sameGiven desired latest) "Spec.PermissionsBoundary" (syncBoundary p desired latest) := by
  rw [sameGiven_eq]
  unfold syncBoundary
  cases given desired with
  | none =>
    cases given latest with
    | none => exact ⟨fun _ => rfl, nofun⟩
    | some current => exact .of_writes (.noted (.deleteBoundary p) rfl (List.mem_singleton_self _))
  | some boundary =>
    have put : Writes "Spec.PermissionsBoundary"
        (Job.debug s!"setting permissions boundary of {p.text} to {boundary}" >>= fun _ =>
          Job.iam (.putBoundary p boundary)) :=
      .noted (.putBoundary p boundary) rfl (List.mem_singleton_self _)
    exact (Agrees.ite put).congr (decide_eq_decide.mpr eq_comm)

theorem removeTags_agrees (target : TagTarget) (keys : List String) :
    Agrees keys.isEmpty "Spec.Tags" (removeTags target keys) :=
  (Agrees.ite (.noted (.untag target keys) rfl (List.mem_singleton_self _))).congr (Bool.decide_coe _).symm

theorem setTags_agrees (target : TagTarget) (tags : List Tag) :
    Agrees tags.isEmpty "Spec.Tags" (setTags target tags) :=
  (Agrees.ite (.noted (.tag target tags) rfl (List.mem_singleton_self _))).congr (Bool.decide_coe _).symm

end Iam

theorem TagDelta.between_eq_empty_iff {latest desired : List Tag} :
    between latest desired = ⟨[], []⟩ ↔ Tag.same desired latest = true := by
  rw [Tag.same_iff]
  constructor
  · intro empty key
    have reached := get?_between latest desired key
    rw [empty] at reached
    have none : (Tag.table []).get? key = none := rfl
    simpa [none] using reached.symm
  · intro same
    have table : Tag.table desired = Tag.table latest := Table.ext_get? same
    unfold between
    rw [table, TagDelta.mk.injEq, List.map_eq_nil_iff, List.filter_eq_nil_iff, List.filter_eq_nil_iff]
    refine ⟨fun entry he => ?_, fun key hk => ?_⟩
    · simp [Table.get?_eq_some.mpr he]
    · obtain ⟨value, there⟩ := Table.mem_keys.mp hk
      simp [Table.contains, there]

theorem Iam.agrees_syncTags (target : TagTarget) (desired latest : List Tag) :
    Agrees (Tag.same desired latest) "Spec.Tags" (syncTags target desired latest) := by
  refine ((removeTags_agrees target _).bind (setTags_agrees target _)).congr ?_
  rw [Bool.eq_iff_iff, ← TagDelta.between_eq_empty_iff, Bool.and_eq_true, List.isEmpty_iff,
    List.isEmpty_iff]
  cases TagDelta.between latest desired
  simp [and_comm]

namespace InstanceProfileManager

theorem agrees_takeRole (profile : String) (role : Option String) :
    Agrees role.isNone "Spec.Role" (takeRole profile role) := by
  cases role with
  | none => exact ⟨fun _ => rfl, nofun⟩
  | some role => exact .of_writes (.noted (.removeRole profile role) rfl (List.mem_singleton_self _))

theorem agrees_putRole (profile : String) (role : Option String) :
    Agrees role.isNone "Spec.Role" (putRole profile role) := by
  cases role with
  | none => exact ⟨fun _ => rfl, nofun⟩
  | some role => exact .of_writes (.noted (.addRole profile role) rfl (List.mem_singleton_self _))

theorem agrees_syncRole (profile : String) (desired latest : Option String) :
    Agrees (sameGiven desired latest) "Spec.Role" (syncRole profile desired latest) := by
  rw [sameGiven_eq]
  unfold syncRole
  by_cases same : given desired = given latest
  · rw [if_pos same]
    exact ⟨fun _ => rfl, fun h => absurd same (of_decide_eq_false h)⟩
  · rw [if_neg same]
    have moved := (agrees_takeRole profile (given latest)).bind (agrees_putRole profile (given desired))
    refine moved.congr ?_
    cases hd : given desired <;> cases hl : given latest <;> simp_all

end InstanceProfileManager

theorem OidcProviderManager.agrees_syncClientIds (arn : String) (desired latest : List String) :
    Agrees (sameMembers desired latest) "Spec.ClientIDs" (syncClientIds arn desired latest) := by
  have added (id : String) : Writes "Spec.ClientIDs" (addClientId arn id) :=
    .noted (.addClientId arn id) rfl (List.mem_singleton_self _)
  have removed (id : String) : Writes "Spec.ClientIDs" (removeClientId arn id) :=
    .noted (.removeClientId arn id) rfl (List.mem_singleton_self _)
  exact ((Agrees.forEach added _).bind (.forEach removed _)).congr (sameMembers_eq ..)

end IamKeeper
