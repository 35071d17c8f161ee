import IamKeeper.Proofs.Delta
import IamKeeper.Proofs.Principal.Parts
import IamKeeper.Proofs.Resolution

namespace IamKeeper

open Iam Plan Manager

/-- A user as it is read. -/
structure UserSpec.Sees (s latest : UserSpec) (h : Holder) : Prop where
  name : latest.name = s.name
  path : latest.path = some h.path
  boundary : latest.boundary = h.boundary
  lists : h.Lists latest.policies latest.inline
  tags : ∀ key, (Tag.table latest.tags).get? key = h.tags key

/-- A user is as it is asked for. -/
structure UserSpec.Conforms (s : UserSpec) (old : Option Holder) (h : Holder) : Prop where
  path : h.path = s.path.getD ((old.map Holder.path).getD "/")
  boundary : given h.boundary = given s.boundary
  grants : h.Grants s.policies s.inline
  tags : ∀ key, h.tags key = (Tag.table s.tags).get? key

namespace UserManager

variable {directory : Directory} {a b : Account} {h : Holder} {o latest observed : UserObject}
  {steps : List (Step world Account)}

theorem wish_eq {s latest : UserSpec} (seen : s.Sees latest h) :
    userManager.lateInitialize s latest = { s with path := some (s.path.getD h.path) } := by
  simp [userManager, lateInitialize, seen.path]

theorem inSync {s latest : UserSpec} (seen : s.Sees latest h) :
    (userManager.delta (userManager.lateInitialize s latest) latest).isEmpty = true ↔
      s.Conforms (some h) h := by
  change (Kind.user.manager.delta (userManager.lateInitialize s latest) latest).isEmpty = true ↔ _
  have fields : (∀ field ∈ Kind.user.differences (userManager.lateInitialize s latest) latest,
      field.1 = false) ↔
      sameGiven (some (s.path.getD h.path)) (some h.path) = true ∧
      sameGiven s.boundary h.boundary = true ∧
      sameMembers s.policies latest.policies = true ∧
      sameInline s.inline latest.inline = true ∧ Tag.same s.tags latest.tags = true := by
    rw [wish_eq seen]
    simp [Kind.differences, seen.name, seen.path, seen.boundary]
  rw [Kind.delta_eq, Delta.isEmpty_iff, fields, sameGiven_some, sameGiven_iff, Tag.same_iff]
  constructor
  · intro h
    obtain ⟨path, boundary, policies, inline, tags⟩ := h
    exact ⟨path, boundary.symm, seen.lists.grants_iff.mp ⟨policies, inline⟩,
      fun key => ((tags key).trans (seen.tags key)).symm⟩
  · intro h
    obtain ⟨path, boundary, grants, tags⟩ := h
    obtain ⟨policies, inline⟩ := seen.lists.grants_iff.mpr grants
    exact ⟨path, boundary.symm, policies, inline,
      fun key => (tags key).symm.trans (seen.tags key).symm⟩

theorem run_readOne {found : Option UserObject}
    (run : Run (Account.Answers directory) a (readOne o) steps (.ok found) b) :
    Option.Rel (fun latest h => o.spec.Sees latest.spec h) found (a (.user o.spec.name)) := by
  obtain ⟨answer, mid, _, _, hget, hrest, -⟩ := run_bind_ok.mp run
  obtain ⟨rfl, told⟩ := Account.run_iam_ok hget
  generalize hold : mid (.user o.spec.name) = old at told
  cases told with
  | none =>
    obtain ⟨-, hv, -⟩ := run_pure.mp hrest
    cases hv
    exact .none
  | @some report h told =>
    obtain ⟨name, path, boundary⟩ := told
    rw [← name] at hold
    obtain ⟨policies, inline, _, lists, hrest⟩ := run_readPolicies hrest hold
    obtain ⟨tags, _, _, _, htags, hend, -⟩ := run_bind_ok.mp hrest
    obtain ⟨-, k, hk, tagged⟩ := Account.run_iam_ok htags
    cases hk.symm.trans hold
    obtain ⟨-, hv, -⟩ := run_pure.mp hend
    cases hv
    exact .some ⟨name, congrArg some path, boundary, lists, tagged⟩

theorem run_create
    (run : Run (Account.Answers directory) a (create o) steps (.ok observed) b) :
    ∃ h, b = a.put (.user o.spec.name) h ∧ o.spec.Conforms none h := by
  obtain ⟨report, mid, _, _, hcreate, hrest, -⟩ := run_bind_ok.mp run
  obtain ⟨name, -, rfl⟩ := Account.run_iam_ok hcreate
  simp only [name] at hrest
  obtain ⟨attached, inlined, rfl, grants⟩ := run_furnish hrest (Account.put_self ..) ⟨rfl, rfl⟩
  rw [Account.put_put]
  exact ⟨_, rfl, rfl, given_given _, grants, fun _ => rfl⟩

theorem run_updateUser {name path : String}
    (run : Run (Account.Answers directory) a (Job.iam (.updateUser name path)) steps (.ok ()) b)
    (there : a (.user name) = some h) : b = a.put (.user name) { h with path } :=
  (Account.run_iam_ok run).eq there

theorem run_update (there : a (.user o.spec.name) = some h) (seen : o.spec.Sees latest.spec h)
    (run : Run (Account.Answers directory) a
      (userManager.update (userManager.wish o latest) latest (userManager.drift o latest)) steps
      (.ok observed) b) :
    ∃ k, b = a.put (.user o.spec.name) k ∧ o.spec.Conforms (some h) k := by
  rcases Manager.run_update run with ⟨_, -, -, outcome, -⟩ | ⟨-, run⟩
  · cases outcome
  have differs {differs : Bool} {path : String} (field : (differs, path) ∈
      Kind.user.differences (userManager.wish o latest).spec latest.spec) :
      (userManager.drift o latest).differsAt path = differs :=
    Kind.differsAt_of_mem field
  have wish : (userManager.wish o latest).spec = _ := wish_eq seen
  generalize userManager.drift o latest = delta at run differs
  generalize userManager.wish o latest = desired at run differs wish
  rw [wish] at differs
  have hpolicies : delta.differsAt "Spec.Policies" =
      !sameMembers o.spec.policies latest.spec.policies :=
    differs (by simp [Kind.differences])
  have hinline : delta.differsAt "Spec.InlinePolicies" =
      !sameInline o.spec.inline latest.spec.inline :=
    differs (by simp [Kind.differences])
  have hboundary : delta.differsAt "Spec.PermissionsBoundary" =
      !sameGiven o.spec.boundary latest.spec.boundary :=
    differs (by simp [Kind.differences])
  have htags : delta.differsAt "Spec.Tags" = !Tag.same o.spec.tags latest.spec.tags :=
    differs (by simp [Kind.differences])
  have hpath : delta.differsAt "Spec.Path" =
      !sameGiven (some (o.spec.path.getD h.path)) (some h.path) :=
    differs (by simp [Kind.differences, seen.path])
  obtain ⟨metadata, spec, status⟩ := desired
  cases wish
  change Run _ _ (UserManager.change _ latest delta) _ _ _ at run
  unfold change at run
  rw [seen.name] at run
  obtain ⟨attached, inlined, _, grants, run⟩ := run_regrant run there seen.lists hpolicies hinline
  obtain ⟨bound, _, boundary, run⟩ :=
    run_rebind run (Account.put_self ..) rfl seen.boundary seen.tags hboundary htags
  obtain ⟨_, run⟩ := run_move run_updateUser run (Account.put_self ..) hpath
  cases run_noteUpdate run
  simp only [Account.put_put]
  exact ⟨_, rfl, rfl, boundary, ⟨grants.attached, grants.inline⟩, fun _ => rfl⟩

theorem asks_readOne (o : UserObject) : (readOne o).Asks Request.Reads := by
  refine Asks.bind ⟨rfl, fun _ => trivial⟩ fun found => ?_
  cases found with
  | none => exact trivial
  | some report =>
    exact Asks.bind ⟨rfl, fun _ => trivial⟩ fun _ => (reads_inlinePolicies _).bind fun _ =>
      Asks.bind ⟨rfl, fun _ => trivial⟩ fun _ => trivial

theorem getsThrough_readOne (o : UserObject) : Account.GetsThrough directory (readOne o) := by
  refine (Account.getsThrough_iam _).bind fun {_ _ _ found} _ => ?_
  cases found with
  | none => exact Account.getsThrough_pure _
  | some report =>
    exact (Account.getsThrough_iam _).bind fun _ => (getsThrough_inlinePolicies _).bind fun _ =>
      (Account.getsThrough_iam _).bind fun _ => Account.getsThrough_pure _

theorem conforms_again {s : UserSpec} {old : Option Holder} (conforms : s.Conforms old h) :
    s.Conforms (some h) h := by
  obtain ⟨path, boundary, grants, tags⟩ := conforms
  refine ⟨?_, boundary, grants, tags⟩
  cases hs : s.path with
  | none => rfl
  | some wanted => simpa [hs] using path

theorem convergent (directory : Directory) :
    Convergent directory userManager (fun s => .user s.name) UserSpec.Sees UserSpec.Conforms where
  lookups := Kind.user.asks_wanted
  resolve_status := Kind.user.resolve_status
  reads := asks_readOne
  getsThrough := getsThrough_readOne
  found := run_readOne
  inSync := inSync
  create := run_create
  update := run_update
  again := conforms_again

end UserManager

end IamKeeper
