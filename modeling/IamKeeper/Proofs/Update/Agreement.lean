import IamKeeper.Proofs.Delta
import IamKeeper.Proofs.Site
import IamKeeper.Proofs.Sync
import IamKeeper.Proofs.Update.Hooks

namespace IamKeeper

open Iam
open Job (Heeds)
open Manager (whenDiffers)
open Plan hiding bind_assoc

variable {α β : Type} {delta : Delta}

/-- Whether a call is made for a path that a delta has. -/
def Delta.Wants (delta : Delta) (paths : List String) (call : Call) : Prop :=
  ∃ path ∈ call.fields, path ∈ paths ∧ delta.differsAt path = true

/-- A plan that takes care of some paths: it changes something for each that a delta has, and makes no call but
for those. -/
structure Serves (delta : Delta) (paths : List String) (p : Job α) : Prop where
  heeds : Heeds Replies.all (Request.Among (delta.Wants paths)) (fun _ => False) p
  makes : ∀ path ∈ paths, delta.differsAt path = true → Makes path p

namespace Serves

theorem pure (value : α) : Serves delta [] (Pure.pure value : Job α) :=
  ⟨.pure value, by simp⟩

theorem note (level : Level) (text : String) : Serves delta [] (Job.note level text) :=
  ⟨.note trivial, by simp⟩

theorem bind {ps qs : List String} {p : Job α} {f : α → Job β} (hp : Serves delta ps p)
    (hf : ∀ value, Serves delta qs (f value)) : Serves delta (ps ++ qs) (p >>= f) := by
  have widen {few : List String} (some : few ⊆ ps ++ qs) (r : Request)
      (h : r.Among (delta.Wants few)) : r.Among (delta.Wants (ps ++ qs)) :=
    Request.Among.mono (fun call ⟨path, served, mem, differs⟩ => ⟨path, served, some mem, differs⟩) r h
  refine ⟨(hp.heeds.mono (widen (List.subset_append_left ps qs)) fun _ => id).bind fun value =>
    (hf value).heeds.mono (widen (List.subset_append_right ps qs)) fun _ => id, fun path hpath differs => ?_⟩
  rcases List.mem_append.mp hpath with mem | mem
  · exact .first _ (hp.makes path mem differs)
  · exact .next _ fun value => (hf value).makes path mem differs

theorem of_writes {path : String} {p : Job α} (h : Writes path p)
    (differs : delta.differsAt path = true) : Serves delta [path] p where
  heeds := h.heeds.mono
    (Request.Among.mono fun _ served => ⟨path, served, List.mem_singleton_self _, differs⟩) fun _ => id
  makes := List.forall_mem_singleton.mpr fun _ => h.makes

theorem of_unchanged {path : String} {p : Job α} (same : delta.differsAt path = false)
    (h : Serves delta [] p) : Serves delta [path] p where
  heeds := h.heeds.mono (Request.Among.mono fun _ wanted => by
    obtain ⟨_, -, mem, -⟩ := wanted
    cases mem) fun _ => id
  makes := by
    refine List.forall_mem_singleton.mpr fun differs => ?_
    rw [same] at differs
    cases differs

theorem whenDiffers {path : String} {hook : Job Unit}
    (h : delta.differsAt path = true → Writes path hook) :
    Serves delta [path] (whenDiffers delta path hook) := by
  unfold Manager.whenDiffers Plan.when
  cases differs : delta.differsAt path with
  | true => exact .of_writes (h differs) differs
  | false => exact .of_unchanged differs (.pure ())

theorem cons {path : String} {rest : List String} {p : Job α} {f : α → Job β}
    (hp : Serves delta [path] p) (hf : ∀ value, Serves delta rest (f value)) :
    Serves delta (path :: rest) (p >>= f) :=
  hp.bind hf

-- One call stands for two fields here, so it is made once and serves both.
theorem either {first second : String} {hook : Job Unit} (h : Writes first hook)
    (h' : Writes second hook) : Serves delta [first, second]
      (Plan.when (delta.differsAt first || delta.differsAt second) hook) := by
  unfold Plan.when
  cases differs : (delta.differsAt first || delta.differsAt second) with
  | false =>
    obtain ⟨hf, hs⟩ := Bool.or_eq_false_iff.mp differs
    exact (of_unchanged hf (.pure ())).cons fun _ => of_unchanged hs (.pure ())
  | true =>
    refine ⟨?_, fun path hpath _ => ?_⟩
    · rcases Bool.or_eq_true_iff.mp differs with hf | hs
      · exact h.heeds.mono (Request.Among.mono fun _ served => ⟨first, served, by simp, hf⟩) fun _ => id
      · exact h'.heeds.mono (Request.Among.mono fun _ served => ⟨second, served, by simp, hs⟩) fun _ => id
    · rcases List.mem_pair.mp hpath with rfl | rfl
      · exact h.makes
      · exact h'.makes

theorem finish {what : String} {value : α} :
    Serves delta [] (Manager.noteUpdate what delta >>= fun _ => (Pure.pure value : Job α)) :=
  (note ..).bind fun _ => .pure value

end Serves

/-- Steps that change something for each field of a delta, with no call but for those, and come to an end. -/
structure Amends {σ : Type} (delta : Delta) (steps : List (Step world σ)) (outcome : Except Fault α) :
    Prop where
  succeeds : ∃ value, outcome = .ok value
  served : ∀ path ∈ delta.paths, ∃ step ∈ steps, step.request.Changes path
  wanted : ∀ step ∈ steps, ∀ call, step.request = .iam call → ∃ path ∈ call.fields, path ∈ delta.paths

theorem Iam.writes_updateDocument (arn document : String) :
    Writes "Spec.PolicyDocument" (updateDocument arn document) := by
  have served (call : Call) (h : "Spec.PolicyDocument" ∈ call.fields) :
      Heeds Replies.all (Request.Among fun call => "Spec.PolicyDocument" ∈ call.fields)
        (fun _ => False) (Job.iam call) := .iam call h
  have listed : Heeds Replies.all (Request.Among fun call => "Spec.PolicyDocument" ∈ call.fields)
      (fun _ => False) (policyVersions arn) :=
    (served (.listPolicyVersions arn) (List.mem_singleton_self _)).bind fun _ => .pure _
  have room : Heeds Replies.all (Request.Among fun call => "Spec.PolicyDocument" ∈ call.fields)
      (fun _ => False) (makeRoom arn) := by
    refine listed.bind fun versions => .ite (.pure ()) ?_
    cases expendable? versions with
    | none => exact .pure ()
    | some version =>
      exact (served (.deletePolicyVersion arn version.id) (List.mem_singleton_self _)).bind fun _ =>
        .note trivial
  refine ⟨room.bind fun _ => ?_, .next _ fun _ => .first _ ?_⟩
  · exact (served (.createPolicyVersion arn document true) (List.mem_singleton_self _)).bind fun _ =>
      (Heeds.note trivial).bind fun _ => .pure _
  · exact .iam (.createPolicyVersion arn document true) rfl (List.mem_singleton_self _)

theorem PolicyManager.serves_changeDocument (arn : String) (updated : PolicyObject) :
    Serves delta ["Spec.PolicyDocument"] (changeDocument arn updated delta) := by
  unfold changeDocument
  cases differs : delta.differsAt "Spec.PolicyDocument" with
  | false => exact .of_unchanged differs (.pure updated)
  | true =>
    exact (Serves.of_writes (writes_updateDocument arn updated.spec.document) differs).cons fun _ =>
      .pure _

theorem ServiceLinkedRoleManager.writes_changeDescription (name : String)
    (desired : ServiceLinkedRoleSpec) :
    Writes "Spec.Description" (changeDescription name desired) := by
  have called : Writes "Spec.Description" (Job.iam (.updateRole name desired.description none)) :=
    .iam (.updateRole ..) rfl (List.mem_cons_self ..)
  exact ⟨called.heeds.bind fun _ => .note trivial, .first _ called.makes⟩

namespace Kind

variable {kind : Kind} {key path : String} {hook : Job Unit}

/-- The hooks of an update that compare by themselves, each with its field. -/
def hooks : (kind : Kind) → (key : String) → (desired latest : kind.Spec) → List (String × Job Unit)
  | .role, key, desired, latest => [
    ("Spec.Policies", syncAttached (.role key) desired.policies latest.policies),
    ("Spec.InlinePolicies", syncInline (.role key) desired.inline latest.inline),
    ("Spec.PermissionsBoundary", syncBoundary (.role key) desired.boundary latest.boundary),
    ("Spec.Tags", syncTags (.role key) desired.tags latest.tags)]
  | .policy, key, desired, latest => [
    ("Spec.Tags", syncTags (.policy key) desired.tags latest.tags)]
  | .group, key, desired, latest => [
    ("Spec.Policies", syncAttached (.group key) desired.policies latest.policies),
    ("Spec.InlinePolicies", syncInline (.group key) desired.inline latest.inline)]
  | .user, key, desired, latest => [
    ("Spec.Policies", syncAttached (.user key) desired.policies latest.policies),
    ("Spec.InlinePolicies", syncInline (.user key) desired.inline latest.inline),
    ("Spec.PermissionsBoundary", syncBoundary (.user key) desired.boundary latest.boundary),
    ("Spec.Tags", syncTags (.user key) desired.tags latest.tags)]
  | .instanceProfile, key, desired, latest => [
    ("Spec.Role", InstanceProfileManager.syncRole key desired.role latest.role),
    ("Spec.Tags", syncTags (.instanceProfile key) desired.tags latest.tags)]
  | .oidcProvider, key, desired, latest => [
    ("Spec.ClientIDs", OidcProviderManager.syncClientIds key desired.clientIds latest.clientIds),
    ("Spec.Tags", syncTags (.oidcProvider key) desired.tags latest.tags)]
  | .samlProvider, key, desired, latest => [
    ("Spec.Tags", syncTags (.samlProvider key) desired.tags latest.tags)]
  | .serviceLinkedRole, _, _, _ => []

/-- Each hook compares as the delta does. -/
theorem agrees_hook {desired latest : kind.Spec} (h : (path, hook) ∈ kind.hooks key desired latest) :
    ∃ same, (!same, path) ∈ kind.differences desired latest ∧ Agrees same path hook := by
  cases kind with
  | role | user =>
    simp only [hooks, List.mem_cons, List.not_mem_nil, or_false, Prod.mk.injEq] at h
    rcases h with ⟨rfl, rfl⟩ | ⟨rfl, rfl⟩ | ⟨rfl, rfl⟩ | ⟨rfl, rfl⟩
    · exact ⟨_, by simp [differences], agrees_syncAttached ..⟩
    · exact ⟨_, by simp [differences], agrees_syncInline ..⟩
    · exact ⟨_, by simp [differences], agrees_syncBoundary ..⟩
    · exact ⟨_, by simp [differences], agrees_syncTags ..⟩
  | group =>
    simp only [hooks, List.mem_cons, List.not_mem_nil, or_false, Prod.mk.injEq] at h
    rcases h with ⟨rfl, rfl⟩ | ⟨rfl, rfl⟩
    · exact ⟨_, by simp [differences], agrees_syncAttached ..⟩
    · exact ⟨_, by simp [differences], agrees_syncInline ..⟩
  | instanceProfile =>
    simp only [hooks, List.mem_cons, List.not_mem_nil, or_false, Prod.mk.injEq] at h
    rcases h with ⟨rfl, rfl⟩ | ⟨rfl, rfl⟩
    · exact ⟨_, by simp [differences], InstanceProfileManager.agrees_syncRole ..⟩
    · exact ⟨_, by simp [differences], agrees_syncTags ..⟩
  | oidcProvider =>
    simp only [hooks, List.mem_cons, List.not_mem_nil, or_false, Prod.mk.injEq] at h
    rcases h with ⟨rfl, rfl⟩ | ⟨rfl, rfl⟩
    · exact ⟨_, by simp [differences], OidcProviderManager.agrees_syncClientIds ..⟩
    · exact ⟨_, by simp [differences], agrees_syncTags ..⟩
  | policy | samlProvider =>
    simp only [hooks, List.mem_cons, List.not_mem_nil, or_false, Prod.mk.injEq] at h
    obtain ⟨rfl, rfl⟩ := h
    exact ⟨_, by simp [differences], agrees_syncTags ..⟩
  | serviceLinkedRole => cases h

/-- The fields that the update of an entity can change, in the order in which it does. -/
def amended : Kind → List String
  | .role => ["Spec.Policies", "Spec.InlinePolicies", "Spec.PermissionsBoundary", "Spec.Tags",
    "Spec.AssumeRolePolicyDocument", "Spec.Description", "Spec.MaxSessionDuration"]
  | .policy => ["Spec.PolicyDocument", "Spec.Tags"]
  | .group => ["Spec.Policies", "Spec.InlinePolicies", "Spec.Path"]
  | .user => ["Spec.Policies", "Spec.InlinePolicies", "Spec.PermissionsBoundary", "Spec.Tags",
    "Spec.Path"]
  | .instanceProfile => ["Spec.Role", "Spec.Tags"]
  | .oidcProvider => ["Spec.Thumbprints", "Spec.ClientIDs", "Spec.Tags"]
  | .samlProvider => ["Spec.SAMLMetadataDocument", "Spec.Tags"]
  | .serviceLinkedRole => ["Spec.Description"]

/-- Every field that is compared can be changed, or may not change. -/
theorem mem_paths_iff {kind : Kind} {path : String} :
    path ∈ kind.paths ↔ path ∈ kind.manager.immutable ∨ path ∈ kind.amended := by
  cases kind <;> simp [paths, manager, amended, roleManager, policyManager, groupManager, userManager,
    instanceProfileManager, oidcProviderManager, samlProviderManager, serviceLinkedRoleManager] <;> tauto

theorem serves_hook {desired latest : kind.Spec} (h : (path, hook) ∈ kind.hooks key desired latest) :
    Serves (kind.manager.delta desired latest) [path]
      (whenDiffers (kind.manager.delta desired latest) path hook) := by
  obtain ⟨same, field, agrees⟩ := agrees_hook h
  refine .whenDiffers fun differs => agrees.writes ?_
  rw [differsAt_of_mem field] at differs
  exact Bool.not_eq_true' same ▸ differs

/-- The change of an entity takes care of all its fields. -/
theorem serves_change (desired : kind.Object) {latest : kind.Object}
    (known : kind.key? latest.spec latest.status = some key) :
    Serves (kind.manager.delta desired.spec latest.spec) kind.amended
      (kind.manager.change desired latest (kind.manager.delta desired.spec latest.spec)) := by
  have hooked {path : String} {hook : Job Unit}
      (h : (path, hook) ∈ kind.hooks key desired.spec latest.spec) := serves_hook h
  cases kind with
  | role =>
    cases known
    refine .cons (hooked (by simp [hooks])) fun _ => .cons (hooked (by simp [hooks])) fun _ =>
      .cons (hooked (by simp [hooks])) fun _ => .cons (hooked (by simp [hooks])) fun _ => ?_
    have shared (path : String) (served : path ∈ ["Spec.Description", "Spec.MaxSessionDuration"]) :
        Writes path (Job.iam (.updateRole latest.spec.name desired.spec.description
          desired.spec.maxSession)) :=
      .iam (.updateRole ..) rfl served
    refine .cons (.whenDiffers fun _ => .iam (.updateTrust ..) rfl (List.mem_singleton_self _)) fun _ => ?_
    exact (Serves.either (shared _ (by simp)) (shared _ (by simp))).bind fun _ => .finish
  | user =>
    cases known
    refine .cons (hooked (by simp [hooks])) fun _ => .cons (hooked (by simp [hooks])) fun _ =>
      .cons (hooked (by simp [hooks])) fun _ => .cons (hooked (by simp [hooks])) fun _ => ?_
    exact .cons (.whenDiffers fun _ => .iam (.updateUser ..) rfl (List.mem_singleton_self _)) fun _ =>
      .finish
  | group =>
    cases known
    refine .cons (hooked (by simp [hooks])) fun _ => .cons (hooked (by simp [hooks])) fun _ => ?_
    exact .cons (.whenDiffers fun _ => .iam (.updateGroup ..) rfl (List.mem_singleton_self _)) fun _ =>
      .finish
  | instanceProfile =>
    cases known
    exact .cons (hooked (by simp [hooks])) fun _ => .cons (hooked (by simp [hooks])) fun _ => .finish
  | policy =>
    change Serves _ _ (PolicyManager.change desired latest _)
    unfold PolicyManager.change
    rw [show latest.arn = some key from known]
    refine .cons (PolicyManager.serves_changeDocument ..) fun _ => ?_
    exact .cons (hooked (by simp [hooks])) fun _ => .finish
  | oidcProvider =>
    change Serves _ _ (OidcProviderManager.change desired latest _)
    unfold OidcProviderManager.change
    rw [show latest.arn = some key from known]
    refine .cons (.whenDiffers fun _ => .iam (.updateThumbprints ..) rfl (List.mem_singleton_self _)) fun _ => ?_
    exact .cons (hooked (by simp [hooks])) fun _ => .cons (hooked (by simp [hooks])) fun _ => .finish
  | samlProvider =>
    change Serves _ _ (SamlProviderManager.change desired latest _)
    unfold SamlProviderManager.change
    rw [show latest.arn = some key from known]
    refine .cons (.whenDiffers fun _ => .iam (.updateSamlProvider ..) rfl (List.mem_singleton_self _)) fun _ => ?_
    exact .cons (hooked (by simp [hooks])) fun _ => .finish
  | serviceLinkedRole =>
    change Serves _ _ (ServiceLinkedRoleManager.change desired latest _)
    unfold ServiceLinkedRoleManager.change
    rw [show ServiceLinkedRoleManager.roleName? latest = some key from known]
    exact .cons (.whenDiffers fun _ => ServiceLinkedRoleManager.writes_changeDescription ..) fun _ => .pure _

theorem mem_delta {a b : kind.Spec} :
    path ∈ (kind.manager.delta a b).paths ↔ (true, path) ∈ kind.differences a b := by
  rw [delta_eq]
  exact Delta.mem_paths_ofFields

theorem mem_delta_of_mem {a b : kind.Spec} {differs : Bool}
    (field : (differs, path) ∈ kind.differences a b) :
    path ∈ (kind.manager.delta a b).paths ↔ differs = true := by
  rw [mem_delta]
  constructor
  · intro changed
    exact (differsAt_of_mem field).symm.trans (differsAt_of_mem changed)
  · intro changed
    exact changed ▸ field

theorem mem_delta_iff {a b : kind.Spec} : path ∈ (kind.manager.delta a b).paths ↔
    path ∈ kind.paths ∧ (kind.manager.delta a b).differsAt path = true := by
  rw [← kind.differences_paths a b]
  constructor
  · intro changed
    have field := mem_delta.mp changed
    exact ⟨List.mem_map.mpr ⟨_, field, rfl⟩, differsAt_of_mem field⟩
  · intro h
    obtain ⟨compared, differs⟩ := h
    obtain ⟨⟨same, _⟩, field, rfl⟩ := List.mem_map.mp compared
    rw [differsAt_of_mem field] at differs
    exact (mem_delta_of_mem field).mpr differs

theorem allowed_of_changeable {a b : kind.Spec}
    (changeable : ∀ path ∈ kind.manager.immutable, path ∉ (kind.manager.delta a b).paths) :
    (kind.manager.delta a b).checkImmutable kind.manager.immutable = .ok () := by
  refine Delta.checkImmutable_eq_ok.mpr fun path fixed => ?_
  have absent := changeable path fixed
  rw [mem_delta_iff, not_and] at absent
  exact eq_false_of_ne_true (absent (mem_paths_iff.mpr (.inl fixed)))

theorem update_amends {σ : Type} {W : World world σ} {s t : σ} {steps : List (Step world σ)}
    {desired latest : kind.Object} {outcome : Except Fault kind.Object}
    (known : kind.key? latest.spec latest.status = some key)
    (changeable : ∀ path ∈ kind.manager.immutable,
      path ∉ (kind.manager.delta desired.spec latest.spec).paths)
    (run : Run W s (kind.manager.update desired latest
      (kind.manager.delta desired.spec latest.spec)) steps outcome t)
    (smooth : ∀ step ∈ steps, step.failed = false) :
    Amends (kind.manager.delta desired.spec latest.spec) steps outcome := by
  have serves := serves_change desired known
  have bound := Replies.all_bound W
  -- No immutable field differs, so the update gets past its check and to the change.
  rcases Manager.run_update run with ⟨_, refused, -⟩ | ⟨-, hchange⟩
  · cases (allowed_of_changeable changeable).symm.trans refused
  have succeeds : ∃ observed, outcome = .ok observed := by
    cases outcome with
    | ok observed => exact ⟨observed, rfl⟩
    | error fault =>
      rcases serves.heeds.blames bound hchange with own | ⟨step, hs, failed⟩
      · exact own.elim
      · cases (smooth step hs).symm.trans failed
  obtain ⟨observed, rfl⟩ := succeeds
  refine ⟨⟨observed, rfl⟩, fun path hpath => ?_, fun step hs call same => ?_⟩
  · obtain ⟨compared, differs⟩ := mem_delta_iff.mp hpath
    rcases mem_paths_iff.mp compared with fixed | amended
    · exact absurd hpath (changeable path fixed)
    · exact serves.makes path amended differs _ _ _ _ _ _ hchange
  · have wanted := serves.heeds.asked bound hchange step hs
    rw [same] at wanted
    obtain ⟨path, served, amended, differs⟩ := wanted
    exact ⟨path, served, mem_delta_iff.mpr ⟨mem_paths_iff.mpr (.inr amended), differs⟩⟩

def tags? : (kind : Kind) → kind.Spec → Option (List Tag)
  | .role, spec => some spec.tags
  | .policy, spec => some spec.tags
  | .user, spec => some spec.tags
  | .instanceProfile, spec => some spec.tags
  | .oidcProvider, spec => some spec.tags
  | .samlProvider, spec => some spec.tags
  | .group, _ | .serviceLinkedRole, _ => none

theorem tags_mem_delta {a b : kind.Spec} {x y : List Tag} (ha : kind.tags? a = some x)
    (hb : kind.tags? b = some y) :
    "Spec.Tags" ∈ (kind.manager.delta a b).paths ↔ TagDelta.between y x ≠ ⟨[], []⟩ := by
  have field : (!Tag.same x y, "Spec.Tags") ∈ kind.differences a b := by
    cases kind with
    | group | serviceLinkedRole => cases ha
    | _ =>
      cases ha
      cases hb
      simp [differences]
  rw [mem_delta_of_mem field, Ne, TagDelta.between_eq_empty_iff, Bool.not_eq_true, Bool.not_eq_true']

theorem hook_mem_delta {a b : kind.Spec} (h : (path, hook) ∈ kind.hooks key a b) :
    (path ∈ (kind.manager.delta a b).paths ↔ Writes path hook) ∧
      (path ∉ (kind.manager.delta a b).paths → hook = pure ()) := by
  obtain ⟨same, field, agrees⟩ := agrees_hook h
  rw [mem_delta_of_mem field, agrees.writes_iff, Bool.not_eq_true', Bool.not_eq_false]
  exact ⟨.rfl, agrees.idle⟩

/-- The delta of a kind and its update agree, each hook agrees with the delta, and so does the comparison of
tags. -/
theorem update_agrees {desired latest : kind.Object} {delta : Delta}
    (known : kind.key? latest.spec latest.status = some key)
    (compared : delta = kind.manager.delta desired.spec latest.spec) :
    ((∀ path ∈ kind.manager.immutable, path ∉ delta.paths) →
      ∀ (σ : Type) (W : World world σ) (s t : σ) (steps : List (Step world σ))
        (outcome : Except Fault kind.Object),
        Run W s (kind.manager.update desired latest delta) steps outcome t →
        (∀ step ∈ steps, step.failed = false) → Amends delta steps outcome) ∧
    (∀ path hook, (path, hook) ∈ kind.hooks key desired.spec latest.spec →
      (path ∈ delta.paths ↔ Writes path hook) ∧ (path ∉ delta.paths → hook = pure ())) ∧
    ∀ x y, kind.tags? desired.spec = some x → kind.tags? latest.spec = some y →
      ("Spec.Tags" ∈ delta.paths ↔ TagDelta.between y x ≠ ⟨[], []⟩) := by
  subst compared
  exact ⟨fun changeable σ W s t steps outcome run smooth => update_amends known changeable run smooth,
    fun path hook h => hook_mem_delta h, fun x y hx hy => tags_mem_delta hx hy⟩

/-- An instance profile that holds a role, or is to hold it. -/
def holding (role : String) : Kind.instanceProfile.Object where
  metadata := ⟨some "web", none, some "space", [], none⟩
  spec := ⟨"web", none, some role, none, []⟩
  status := none

/-- Where one role is to take the place of another, the update moves them and does nothing else. -/
theorem update_holding :
    ∃ delta steps outcome, "Spec.Role" ∈ delta.paths ∧
      Run (fun (s : Unit) _ _ t => t = s) ()
        (instanceProfile.manager.update (holding "new") (holding "old") delta) steps outcome () ∧
      Amends delta steps outcome ∧
      Writes "Spec.Role" (InstanceProfileManager.syncRole "web" (some "new") (some "old")) := by
  obtain ⟨delta, hd⟩ : ∃ delta,
      delta = instanceProfile.manager.delta (holding "new").spec (holding "old").spec := ⟨_, rfl⟩
  have compare {differs : Bool} {path : String}
      (field : (differs, path) ∈ instanceProfile.differences (holding "new").spec (holding "old").spec) :
      delta.differsAt path = differs ∧ (path ∈ delta.paths ↔ differs = true) := by
    rw [hd]
    exact ⟨differsAt_of_mem field, mem_delta_of_mem field⟩
  have role : (true, "Spec.Role") ∈
      instanceProfile.differences (holding "new").spec (holding "old").spec := by decide
  have tags : (false, "Spec.Tags") ∈
      instanceProfile.differences (holding "new").spec (holding "old").spec := by decide
  have fixed : ∀ path ∈ instanceProfile.manager.immutable, path ∉ delta.paths := by
    have same : ∀ path ∈ instanceProfile.manager.immutable,
        (false, path) ∈ instanceProfile.differences (holding "new").spec (holding "old").spec := by
      decide
    intro path hpath
    rw [(compare (same path hpath)).2]
    exact Bool.false_ne_true
  have allowed : delta.checkImmutable instanceProfile.manager.immutable = .ok () := by
    rw [hd] at fixed ⊢
    exact allowed_of_changeable fixed
  have swaps : InstanceProfileManager.syncRole "web" (some "new") (some "old") =
      InstanceProfileManager.takeRole "web" (some "old") >>= fun _ =>
        InstanceProfileManager.putRole "web" (some "new") := by
    unfold InstanceProfileManager.syncRole
    rw [show given (some "new") = some "new" by decide, show given (some "old") = some "old" by decide]
    exact if_neg (by decide)
  have updated : instanceProfile.manager.update (holding "new") (holding "old") delta =
      (InstanceProfileManager.takeRole "web" (some "old") >>= fun _ =>
        InstanceProfileManager.putRole "web" (some "new")) >>= fun _ =>
        Manager.noteUpdate "instance profile web" delta >>= fun _ =>
          pure ((holding "new").observe (holding "old")) := by
    unfold Manager.update
    rw [allowed, ← swaps]
    change whenDiffers delta "Spec.Role" _ >>= (fun _ => whenDiffers delta "Spec.Tags" _ >>= _) = _
    unfold whenDiffers Plan.when
    rw [if_pos (compare role).1, (compare tags).1]
    rfl
  have run : ∃ steps outcome, Run (fun (s : Unit) _ _ t => t = s) ()
      (instanceProfile.manager.update (holding "new") (holding "old") delta) steps outcome () ∧
      ∀ step ∈ steps, step.failed = false := by
    rw [updated]
    refine ⟨_, _,
      Job.run_ask (r := Request.note _ _) () rfl <|
      Job.run_ask (r := Request.iam (.removeRole "web" "old")) (Except.ok ()) rfl <|
      Job.run_ask (r := Request.note _ _) () rfl <|
      Job.run_ask (r := Request.iam (.addRole "web" "new")) (Except.ok ()) rfl <|
      Job.run_ask (r := Request.note _ _) () rfl .done, ?_⟩
    simp [Step.failed, Request.isFailure]
  obtain ⟨steps, outcome, run, smooth⟩ := run
  have known : instanceProfile.key? (holding "old").spec (holding "old").status = some "web" := rfl
  obtain ⟨amends, hooked, -⟩ := update_agrees known hd
  have changed : "Spec.Role" ∈ delta.paths := (compare role).2.mpr rfl
  exact ⟨delta, steps, outcome, changed, run, amends fixed _ _ _ _ _ _ run smooth,
    (hooked _ _ (List.mem_cons_self ..)).1.mp changed⟩

end Kind

end IamKeeper
