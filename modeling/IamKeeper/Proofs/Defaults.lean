import IamKeeper.Proofs.References
import IamKeeper.Proofs.Sync

namespace IamKeeper

open Iam Plan

/-- A value that is given stays. -/
def Kept {α : Type} (given filled : Option α) : Prop :=
  ∀ value, given = some value → filled = some value

theorem kept_or {α : Type} (given other : Option α) : Kept given (given <|> other) := by
  rintro value rfl
  rfl

theorem or_again {α : Type} (given other : Option α) : ((given <|> other) <|> other) = (given <|> other) := by
  cases given <;> cases other <;> rfl

theorem true_eq_isNone {α : Type} {given : Option α} : true = given.isNone ↔ given = none := by
  cases given <;> simp

/-- A default stands for what is reported just where something is. -/
theorem some_getD_eq_iff {α : Type} {reported : Option α} {default : α} :
    some (reported.getD default) = reported ↔ reported ≠ none := by
  cases reported <;> simp

theorem sameGiven_default (reported : Option String) :
    sameGiven (some (reported.getD defaultPath)) reported = !decide (reported = none) := by
  cases reported with
  | none => decide
  | some path => exact sameGiven_refl _

namespace Kind

/-- The fields that are filled in, each with whether it is left open. -/
def openings : (kind : Kind) → kind.Spec → List (Bool × String)
  | .role, s => [(s.path.isNone, "Spec.Path"), (s.description.isNone, "Spec.Description"),
    (s.maxSession.isNone, "Spec.MaxSessionDuration")]
  | .policy, s => [(s.path.isNone, "Spec.Path"), (s.description.isNone, "Spec.Description")]
  | .group, s => [(s.path.isNone, "Spec.Path")]
  | .user, s => [(s.path.isNone, "Spec.Path")]
  | .instanceProfile, s => [(s.path.isNone, "Spec.Path")]
  | .serviceLinkedRole, s => [(s.description.isNone, "Spec.Description")]
  | .oidcProvider, _ => []
  | .samlProvider, _ => []

/-- The fields for which there is a default. -/
def defaults : Kind → List String
  | .role => ["Spec.Path", "Spec.MaxSessionDuration"]
  | .policy => ["Spec.Path"]
  | _ => []

variable {kind : Kind}

def LeavesOpen (s : kind.Spec) (path : String) : Prop :=
  (true, path) ∈ kind.openings s

/-- Nothing is reported of a field that has a default. -/
def Untold (latest : kind.Spec) (path : String) : Prop :=
  path ∈ kind.defaults ∧ LeavesOpen latest path

instance (s : kind.Spec) (path : String) : Decidable (LeavesOpen s path) :=
  inferInstanceAs (Decidable (_ ∈ _))

instance (latest : kind.Spec) (path : String) : Decidable (Untold latest path) :=
  inferInstanceAs (Decidable (_ ∧ _))

/-- Two specs agree but for what the first one leaves open. -/
def KeepsGiven : (kind : Kind) → (s t : kind.Spec) → Prop
  | .role, s, t => Kept s.path t.path ∧ Kept s.description t.description ∧ Kept s.maxSession t.maxSession ∧
    t = { s with path := t.path, description := t.description, maxSession := t.maxSession }
  | .policy, s, t => Kept s.path t.path ∧ Kept s.description t.description ∧
    t = { s with path := t.path, description := t.description }
  | .group, s, t => Kept s.path t.path ∧ t = { s with path := t.path }
  | .user, s, t => Kept s.path t.path ∧ t = { s with path := t.path }
  | .instanceProfile, s, t => Kept s.path t.path ∧ t = { s with path := t.path }
  | .serviceLinkedRole, s, t => Kept s.description t.description ∧ t = { s with description := t.description }
  | .oidcProvider, s, t => t = s
  | .samlProvider, s, t => t = s

theorem keepsGiven_lateInitialize (s latest : kind.Spec) :
    kind.KeepsGiven s (kind.manager.lateInitialize s latest) := by
  cases kind with
  | role => exact ⟨kept_or _ _, kept_or _ _, kept_or _ _, rfl⟩
  | policy => exact ⟨kept_or _ _, kept_or _ _, rfl⟩
  | group | user | instanceProfile | serviceLinkedRole => exact ⟨kept_or _ _, rfl⟩
  | oidcProvider | samlProvider => rfl

theorem lateInitialize_again (s latest : kind.Spec) :
    kind.manager.lateInitialize (kind.manager.lateInitialize s latest) latest =
      kind.manager.lateInitialize s latest := by
  cases kind with
  | role => simp only [manager, roleManager, RoleManager.lateInitialize, or_again]
  | policy => simp only [manager, policyManager, PolicyManager.lateInitialize, or_again]
  | group => simp only [manager, groupManager, GroupManager.lateInitialize, or_again]
  | user => simp only [manager, userManager, UserManager.lateInitialize, or_again]
  | instanceProfile => simp only [manager, instanceProfileManager, InstanceProfileManager.lateInitialize, or_again]
  | serviceLinkedRole =>
    simp only [manager, serviceLinkedRoleManager, ServiceLinkedRoleManager.lateInitialize, or_again]
  | oidcProvider | samlProvider => rfl

theorem mem_paths_delta {a b : kind.Spec} {differs : Bool} {path : String}
    (compared : (differs, path) ∈ kind.differences a b) :
    path ∈ (kind.manager.delta a b).paths ↔ differs = true := by
  rw [delta_eq, Delta.mem_paths_ofFields]
  constructor
  · intro there
    have distinct := (differences_paths kind a b ▸ kind.paths_flat).1
    exact congrArg Prod.fst (List.inj_on_of_nodup_map distinct compared there rfl)
  · rintro rfl
    exact compared

/-- An open field differs after it is filled in just where it has a default and nothing is reported of it. -/
theorem differs_open {s latest : kind.Spec} {path : String} (left : LeavesOpen s path) :
    (decide (Untold latest path), path) ∈ kind.differences (kind.manager.lateInitialize s latest) latest := by
  cases kind with
  | role =>
    simp only [LeavesOpen, openings, List.mem_cons, Prod.mk.injEq, List.not_mem_nil, or_false, true_eq_isNone] at left
    rcases left with ⟨none, rfl⟩ | ⟨none, rfl⟩ | ⟨none, rfl⟩ <;>
      simp [differences, manager, roleManager, RoleManager.lateInitialize, none, Untold, LeavesOpen, openings, defaults,
        sameGiven_default, sameGiven_refl, some_getD_eq_iff]
  | policy =>
    simp only [LeavesOpen, openings, List.mem_cons, Prod.mk.injEq, List.not_mem_nil, or_false, true_eq_isNone] at left
    rcases left with ⟨none, rfl⟩ | ⟨none, rfl⟩ <;>
      simp [differences, manager, policyManager, PolicyManager.lateInitialize, none, Untold, LeavesOpen, openings,
        defaults, sameGiven_default, sameGiven_refl]
  | group | user | instanceProfile | serviceLinkedRole =>
    simp only [LeavesOpen, openings, List.mem_singleton, Prod.mk.injEq, true_eq_isNone] at left
    obtain ⟨none, rfl⟩ := left
    simp [differences, manager, groupManager, GroupManager.lateInitialize, userManager, UserManager.lateInitialize,
      instanceProfileManager, InstanceProfileManager.lateInitialize, serviceLinkedRoleManager,
      ServiceLinkedRoleManager.lateInitialize, none, Untold, defaults, sameGiven_refl]
  | oidcProvider | samlProvider => exact absurd left List.not_mem_nil

/-- What filling in does to a wish for an entity that was read. -/
structure Completes (o latest : kind.Object) : Prop where
  /-- What the user set stays. -/
  keeps : kind.KeepsGiven o.spec (kind.manager.wish o latest).spec
  /-- Filling in once is enough. -/
  again : kind.manager.wish (kind.manager.wish o latest) latest = kind.manager.wish o latest
  /-- What the user left open shows as drift just where a default is not what is reported. -/
  drift (path : String) (left : LeavesOpen o.spec path) :
    path ∈ (kind.manager.drift o latest).paths ↔ Untold latest.spec path
  /-- So it has the entity changed, or the change refused, just there. -/
  acts (path : String) (left : LeavesOpen o.spec path) :
    (kind.manager.drift o latest).differsAt path = decide (Untold latest.spec path)

theorem completes (o latest : kind.Object) : Completes o latest where
  keeps := keepsGiven_lateInitialize o.spec latest.spec
  again := congrArg (fun spec => { o with spec }) (lateInitialize_again o.spec latest.spec)
  drift _ left := (mem_paths_delta (differs_open left)).trans decide_eq_true_iff
  acts _ left := differsAt_of_mem (differs_open left)

/-- IAM tells the path of every entity that has one, but perhaps not of a policy. -/
theorem readOne_tells_path (other : kind ≠ .policy) (o : kind.Object) :
    (kind.manager.readOne o).Yields fun found => ∀ latest, found = some latest →
      ¬ LeavesOpen latest.spec "Spec.Path" := by
  cases kind with
  | role =>
    have told {s : RoleSpec} {path : String} (told : s.path = some path) : ¬ @LeavesOpen .role s "Spec.Path" := by
      simp [LeavesOpen, openings, told]
    refine yields_bind fun found => ?_
    cases found with
    | none => exact yields_pure (by simp)
    | some report =>
      refine yields_bind fun _ => yields_bind fun _ => yields_bind fun _ => yields_bind fun _ => yields_pure ?_
      rintro _ ⟨⟩
      exact told rfl
  | group =>
    have told {s : GroupSpec} {path : String} (told : s.path = some path) : ¬ @LeavesOpen .group s "Spec.Path" := by
      simp [LeavesOpen, openings, told]
    refine yields_bind fun found => ?_
    cases found with
    | none => exact yields_pure (by simp)
    | some report =>
      refine yields_bind fun _ => yields_bind fun _ => yields_pure ?_
      rintro _ ⟨⟩
      exact told rfl
  | user =>
    have told {s : UserSpec} {path : String} (told : s.path = some path) : ¬ @LeavesOpen .user s "Spec.Path" := by
      simp [LeavesOpen, openings, told]
    refine yields_bind fun found => ?_
    cases found with
    | none => exact yields_pure (by simp)
    | some report =>
      refine yields_bind fun _ => yields_bind fun _ => yields_bind fun _ => yields_pure ?_
      rintro _ ⟨⟩
      exact told rfl
  | instanceProfile =>
    have told {s : InstanceProfileSpec} {path : String} (told : s.path = some path) :
        ¬ @LeavesOpen .instanceProfile s "Spec.Path" := by
      simp [LeavesOpen, openings, told]
    refine yields_bind fun found => ?_
    cases found with
    | none => exact yields_pure (by simp)
    | some report =>
      refine yields_bind fun _ => yields_pure ?_
      rintro _ ⟨⟩
      exact told rfl
  | policy => exact absurd rfl other
  | oidcProvider | samlProvider | serviceLinkedRole =>
    exact yields_of_forall fun _ _ _ => by simp [LeavesOpen, openings]

/-- A wish keeps what the user set, and what was left open shows as drift in two cases only: a role of which no session
duration is reported, and a policy of which no path is. -/
theorem readOne_completes (kind : Kind) (o : kind.Object) :
    (kind.manager.readOne o).Yields fun found => ∀ latest, found = some latest →
      Completes o latest ∧ ∀ path, Untold latest.spec path →
        (kind = .role ∧ path = "Spec.MaxSessionDuration") ∨ (kind = .policy ∧ path = "Spec.Path") := by
  have untold {latest : kind.Object} {path : String} (told : kind ≠ .policy → ¬ LeavesOpen latest.spec "Spec.Path")
      (untold : Untold latest.spec path) :
      (kind = .role ∧ path = "Spec.MaxSessionDuration") ∨ (kind = .policy ∧ path = "Spec.Path") := by
    obtain ⟨default, left⟩ := untold
    cases kind with
    | role =>
      rcases List.mem_pair.mp default with rfl | rfl
      · exact absurd left (told (by decide))
      · exact .inl ⟨rfl, rfl⟩
    | policy => exact .inr ⟨rfl, List.mem_singleton.mp default⟩
    | group | user | instanceProfile | oidcProvider | samlProvider | serviceLinkedRole =>
      exact absurd default List.not_mem_nil
  by_cases policy : kind = .policy
  · exact yields_of_forall fun _ latest _ => ⟨completes o latest, fun _ => untold fun other => absurd policy other⟩
  · exact (readOne_tells_path policy o).mono fun _ tells latest found =>
      ⟨completes o latest, fun _ => untold fun _ => tells latest found⟩

/-- A role of which only the name and the trust policy are given. -/
def openRole : RoleObject where
  metadata := ⟨some "app", none, some "space", [], none⟩
  spec := ⟨"app", none, none, "", none, none, none, [], [], ∅, []⟩
  status := none

/-- A policy of which only the name and the document are given. -/
def openPolicy : PolicyObject where
  metadata := ⟨some "app", none, some "space", [], none⟩
  spec := ⟨"app", none, none, "", []⟩
  status := some ⟨some (.ofArn "arn:app"), [], default⟩

/-- IAM tells of a role and of a policy no more than it must. -/
def reticent : Oracle
  | _, .iam (.getRole name) => .ok (some { (default : RoleReport) with arn := "arn:app", name, path := "/" })
  | _, .iam (.getPolicy arn) => .ok (some { (default : PolicyReport) with arn })
  | _, .iam (.listAttached _) => .ok []
  | _, .iam (.listInline _) => .ok []
  | _, .iam (.listTags _) => .ok []
  | _, .iam (.updateRole _ _ _) => .ok ()
  | _, .iam _ => .error .malformedObject
  | _, .policy _ _ => .ok none
  | _, .role _ _ => .ok none
  | _, .patchStatus _ _ => .ok ()
  | _, .patchFinalizers _ _ => .ok ()
  | _, .note _ _ => ()

/-- Of the fields that the role leaves open only the session duration shows as drift. -/
theorem readOne_completes_openRole : ∃ latest,
    ((Kind.role.manager.readOne openRole).toldBy reticent []).1 = .ok (some latest) ∧ Completes openRole latest ∧
      (Kind.role.manager.drift openRole latest).paths = ["Spec.MaxSessionDuration"] := by
  have read := readOne_completes .role openRole
    (.ok (some { (default : RoleReport) with arn := "arn:app", name := "app", path := "/" })) (.ok []) (.ok []) (.ok [])
  exact ⟨_, rfl, (read _ rfl).1, rfl⟩

/-- The role is changed on every pass for a duration that nobody asked for, and the policy is refused for a path that
nobody asked for. -/
theorem sync_reticent :
    LeavesOpen openRole.spec "Spec.MaxSessionDuration" ∧
    .iam (.updateRole "app" none (some 3600)) ∈ ((Kind.role.manager.sync openRole).toldBy reticent []).2 ∧
    LeavesOpen openPolicy.spec "Spec.Path" ∧
    ((Kind.policy.manager.sync openPolicy).toldBy reticent []).1 = .error (.immutableFields ["Spec.Path"]) :=
  ⟨by decide, by decide, by decide, rfl⟩

end Kind

end IamKeeper
