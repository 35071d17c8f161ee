import IamKeeper.Proofs.Delta
import IamKeeper.Proofs.Principal.Parts
import IamKeeper.Proofs.Resolution

namespace IamKeeper

open Iam Plan Manager

/-- A group as it is read. -/
structure GroupSpec.Sees (s latest : GroupSpec) (h : Holder) : Prop where
  name : latest.name = s.name
  path : latest.path = some h.path
  lists : h.Lists latest.policies latest.inline

/-- A group is as it is asked for. -/
structure GroupSpec.Conforms (s : GroupSpec) (old : Option Holder) (h : Holder) : Prop where
  path : h.path = s.path.getD ((old.map Holder.path).getD "/")
  grants : h.Grants s.policies s.inline

namespace GroupManager

variable {directory : Directory} {a b : Account} {h : Holder} {o latest observed : GroupObject}
  {steps : List (Step world Account)}

theorem wish_eq {s latest : GroupSpec} (seen : s.Sees latest h) :
    groupManager.lateInitialize s latest = { s with path := some (s.path.getD h.path) } := by
  simp [groupManager, lateInitialize, seen.path]

theorem inSync {s latest : GroupSpec} (seen : s.Sees latest h) :
    (groupManager.delta (groupManager.lateInitialize s latest) latest).isEmpty = true ↔
      s.Conforms (some h) h := by
  change (Kind.group.manager.delta (groupManager.lateInitialize s latest) latest).isEmpty = true ↔ _
  have fields : (∀ field ∈ Kind.group.differences (groupManager.lateInitialize s latest) latest,
      field.1 = false) ↔
      sameGiven (some (s.path.getD h.path)) (some h.path) = true ∧
      sameMembers s.policies latest.policies = true ∧
      sameInline s.inline latest.inline = true := by
    rw [wish_eq seen]
    simp [Kind.differences, seen.name, seen.path]
  rw [Kind.delta_eq, Delta.isEmpty_iff, fields, sameGiven_some, seen.lists.grants_iff]
  constructor
  · intro h
    obtain ⟨path, grants⟩ := h
    exact ⟨path, grants⟩
  · intro h
    obtain ⟨path, grants⟩ := h
    exact ⟨path, grants⟩

theorem run_readOne {found : Option GroupObject}
    (run : Run (Account.Answers directory) a (readOne o) steps (.ok found) b) :
    Option.Rel (fun latest h => o.spec.Sees latest.spec h) found (a (.group o.spec.name)) := by
  obtain ⟨answer, mid, _, _, hget, hrest, -⟩ := run_bind_ok.mp run
  obtain ⟨rfl, told⟩ := Account.run_iam_ok hget
  generalize hold : mid (.group o.spec.name) = old at told
  cases told with
  | none =>
    obtain ⟨-, hv, -⟩ := run_pure.mp hrest
    cases hv
    exact .none
  | @some report h told =>
    obtain ⟨name, path⟩ := told
    rw [← name] at hold
    obtain ⟨policies, inline, _, lists, hend⟩ := run_readPolicies hrest hold
    obtain ⟨-, hv, -⟩ := run_pure.mp hend
    cases hv
    exact .some ⟨name, congrArg some path, lists⟩

theorem run_create
    (run : Run (Account.Answers directory) a (create o) steps (.ok observed) b) :
    ∃ h, b = a.put (.group o.spec.name) h ∧ o.spec.Conforms none h := by
  obtain ⟨report, mid, _, _, hcreate, hrest, -⟩ := run_bind_ok.mp run
  obtain ⟨name, -, rfl⟩ := Account.run_iam_ok hcreate
  simp only [name] at hrest
  obtain ⟨attached, inlined, rfl, grants⟩ := run_furnish hrest (Account.put_self ..) ⟨rfl, rfl⟩
  rw [Account.put_put]
  exact ⟨_, rfl, rfl, grants⟩

theorem run_updateGroup {name path : String}
    (run : Run (Account.Answers directory) a (Job.iam (.updateGroup name path)) steps (.ok ()) b)
    (there : a (.group name) = some h) : b = a.put (.group name) { h with path } :=
  (Account.run_iam_ok run).eq there

theorem run_update (there : a (.group o.spec.name) = some h) (seen : o.spec.Sees latest.spec h)
    (run : Run (Account.Answers directory) a
      (groupManager.update (groupManager.wish o latest) latest (groupManager.drift o latest)) steps
      (.ok observed) b) :
    ∃ k, b = a.put (.group o.spec.name) k ∧ o.spec.Conforms (some h) k := by
  rcases Manager.run_update run with ⟨_, -, -, outcome, -⟩ | ⟨-, run⟩
  · cases outcome
  have differs {differs : Bool} {path : String} (field : (differs, path) ∈
      Kind.group.differences (groupManager.wish o latest).spec latest.spec) :
      (groupManager.drift o latest).differsAt path = differs :=
    Kind.differsAt_of_mem field
  have wish : (groupManager.wish o latest).spec = _ := wish_eq seen
  generalize groupManager.drift o latest = delta at run differs
  generalize groupManager.wish o latest = desired at run differs wish
  rw [wish] at differs
  have hpolicies : delta.differsAt "Spec.Policies" =
      !sameMembers o.spec.policies latest.spec.policies :=
    differs (by simp [Kind.differences])
  have hinline : delta.differsAt "Spec.InlinePolicies" =
      !sameInline o.spec.inline latest.spec.inline :=
    differs (by simp [Kind.differences])
  have hpath : delta.differsAt "Spec.Path" =
      !sameGiven (some (o.spec.path.getD h.path)) (some h.path) :=
    differs (by simp [Kind.differences, seen.path])
  obtain ⟨metadata, spec, status⟩ := desired
  cases wish
  change Run _ _ (GroupManager.change _ latest delta) _ _ _ at run
  unfold change at run
  rw [seen.name] at run
  obtain ⟨attached, inlined, _, grants, run⟩ := run_regrant run there seen.lists hpolicies hinline
  obtain ⟨_, run⟩ := run_move run_updateGroup run (Account.put_self ..) hpath
  cases run_noteUpdate run
  simp only [Account.put_put]
  exact ⟨_, rfl, rfl, ⟨grants.attached, grants.inline⟩⟩

theorem asks_readOne (o : GroupObject) : (readOne o).Asks Request.Reads := by
  refine Asks.bind ⟨rfl, fun _ => trivial⟩ fun found => ?_
  cases found with
  | none => exact trivial
  | some report =>
    exact Asks.bind ⟨rfl, fun _ => trivial⟩ fun _ => (reads_inlinePolicies _).bind fun _ => trivial

theorem getsThrough_readOne (o : GroupObject) : Account.GetsThrough directory (readOne o) := by
  refine (Account.getsThrough_iam _).bind fun {_ _ _ found} _ => ?_
  cases found with
  | none => exact Account.getsThrough_pure _
  | some report =>
    exact (Account.getsThrough_iam _).bind fun _ => (getsThrough_inlinePolicies _).bind fun _ =>
      Account.getsThrough_pure _

theorem conforms_again {s : GroupSpec} {old : Option Holder} (conforms : s.Conforms old h) :
    s.Conforms (some h) h := by
  obtain ⟨path, grants⟩ := conforms
  refine ⟨?_, grants⟩
  cases hs : s.path with
  | none => rfl
  | some wanted => simpa [hs] using path

theorem convergent (directory : Directory) :
    Convergent directory groupManager (fun s => .group s.name) GroupSpec.Sees GroupSpec.Conforms where
  lookups := Kind.group.asks_wanted
  resolve_status := Kind.group.resolve_status
  reads := asks_readOne
  getsThrough := getsThrough_readOne
  found := run_readOne
  inSync := inSync
  create := run_create
  update := run_update
  again := conforms_again

end GroupManager

end IamKeeper
