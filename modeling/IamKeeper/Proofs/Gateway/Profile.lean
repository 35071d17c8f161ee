import IamKeeper.Proofs.Calls
import IamKeeper.Proofs.Gateway.Store

namespace IamKeeper

open Iam Plan Manager
open Gateways (Answers)

/-- An instance profile as it is read. -/
structure InstanceProfileSpec.Sees (s : InstanceProfileSpec) (key : String)
    (latest : Kind.instanceProfile.Object) (e : Gateway .instanceProfile) : Prop where
  keyed : s.name = key
  name : latest.spec.name = key
  path : latest.spec.path = some e.form.path
  role : latest.spec.role = e.form.role
  tags : ∀ key, (Tag.table latest.spec.tags).get? key = e.tags key

/-- An instance profile is as it is asked for. Without a path it stays where it is, or gets the default one. -/
structure InstanceProfileSpec.Conforms (s : InstanceProfileSpec) (key : String)
    (old : Option (Gateway .instanceProfile)) (e : Gateway .instanceProfile) : Prop where
  name : key = s.name
  path : e.form.path = s.path.getD ((old.map fun e => e.form.path).getD defaultPath)
  role : e.form.role = given s.role
  tags : ∀ key, e.tags key = (Tag.table s.tags).get? key

namespace InstanceProfileManager

variable {directory : RoleDirectory} {g t : Gateways} {key : String} {e : Gateway .instanceProfile}
  {o latest observed : ProfileObject} {steps : List (Step world Gateways)}

/-- The profile with another role in it. -/
def holding (e : Gateway .instanceProfile) (role : Option String) : Gateway .instanceProfile :=
  { e with form := e.form.hold role }

theorem holding_congr {a b : Option String} (same : given a = given b) : holding e a = holding e b := by
  simp [holding, Gateway.Profile.hold, same]

theorem holding_self (e : Gateway .instanceProfile) : holding e e.form.role = e := by
  obtain ⟨⟨path, role, named⟩, tags⟩ := e
  simp [holding, Gateway.Profile.hold, named]

theorem run_takeRole (there : g .instanceProfile key = some e)
    (run : Run (Answers directory) g (takeRole key (given e.form.role)) steps (.ok ()) t) :
    t = g.put .instanceProfile key (holding e none) := by
  rw [e.form.named] at run
  cases held : e.form.role with
  | none =>
    rw [held] at run
    obtain ⟨-, -, rfl⟩ := run_pure.mp run
    rw [← held, holding_self, Gateways.put_same there]
  | some role =>
    rw [held] at run
    exact ((Gateways.run_noted_iam (.removeRole key role) run).eq there).2

theorem run_putRole {desired : Option String} (there : g .instanceProfile key = some e)
    (vacant : e.form.role = none)
    (run : Run (Answers directory) g (putRole key (given desired)) steps (.ok ()) t) :
    t = g.put .instanceProfile key (holding e desired) := by
  rw [← holding_congr (given_given desired)]
  cases wanted : given desired with
  | none =>
    rw [wanted] at run
    obtain ⟨-, -, rfl⟩ := run_pure.mp run
    rw [← vacant, holding_self, Gateways.put_same there]
  | some role =>
    rw [wanted] at run
    exact ((Gateways.run_noted_iam (.addRole key role) run).eq there).2

theorem run_syncRole {desired : Option String} (there : g .instanceProfile key = some e)
    (run : Run (Answers directory) g (syncRole key desired e.form.role) steps (.ok ()) t) :
    t = g.put .instanceProfile key (holding e desired) := by
  unfold syncRole at run
  split at run
  next same =>
    obtain ⟨-, -, rfl⟩ := run_pure.mp run
    rw [holding_congr same, holding_self, Gateways.put_same there]
  next =>
    obtain ⟨_, mid, _, _, htake, hput, -⟩ := run_bind_ok.mp run
    cases run_takeRole there htake
    rw [run_putRole (Gateways.put_self ..) rfl hput, Gateways.put_put]
    rfl

theorem run_readOne {found : Option ProfileObject} (known : o.spec.name = key)
    (run : Run (Answers directory) g (readOne o) steps (.ok found) t) :
    Option.Rel (o.spec.Sees key) found (g .instanceProfile key) := by
  subst known
  obtain ⟨answer, mid, _, _, hget, hrest, -⟩ := run_bind_ok.mp run
  obtain ⟨rfl, told⟩ := Gateways.run_iam_ok hget
  generalize hold : mid .instanceProfile o.spec.name = old at told
  cases told with
  | none =>
    obtain ⟨-, h, -⟩ := run_pure.mp hrest
    cases h
    exact .none
  | @some report e told =>
    obtain ⟨name, path, held⟩ := told
    obtain ⟨tags, _, _, _, htags, hend, -⟩ := run_bind_ok.mp hrest
    rw [name] at htags
    obtain ⟨-, f, hf, tagged⟩ := Gateways.run_iam_ok htags
    cases hf.symm.trans hold
    obtain ⟨-, h, -⟩ := run_pure.mp hend
    cases h
    refine .some ⟨rfl, name, congrArg some path, ?_, tagged⟩
    change report.roles.head? = e.form.role
    rw [held]
    cases e.form.role <;> rfl

theorem inSync {s : InstanceProfileSpec} (seen : s.Sees key latest e) :
    (instanceProfileManager.delta (instanceProfileManager.lateInitialize s latest.spec)
      latest.spec).isEmpty = true ↔ s.Conforms key (some e) e := by
  change (Kind.instanceProfile.manager.delta (lateInitialize s latest.spec) latest.spec).isEmpty = true ↔ _
  have wish : lateInitialize s latest.spec = { s with path := some (s.path.getD e.form.path) } := by
    simp [lateInitialize, seen.path]
  have fields : (∀ field ∈ Kind.instanceProfile.differences (lateInitialize s latest.spec) latest.spec,
      field.1 = false) ↔
      s.name = key ∧ sameGiven (some (s.path.getD e.form.path)) (some e.form.path) = true ∧
      sameGiven s.role e.form.role = true ∧ Tag.same s.tags latest.spec.tags = true := by
    rw [wish]
    simp [Kind.differences, seen.name, seen.path, seen.role]
  rw [Kind.delta_eq, Delta.isEmpty_iff, fields, sameGiven_some, sameGiven_iff, e.form.named, Tag.same_iff]
  constructor
  · intro h
    obtain ⟨name, path, role, tags⟩ := h
    exact ⟨name.symm, path, role.symm, fun key => ((tags key).trans (seen.tags key)).symm⟩
  · intro h
    obtain ⟨name, path, role, tags⟩ := h
    exact ⟨name.symm, path, role.symm, fun key => (tags key).symm.trans (seen.tags key).symm⟩

theorem run_create (run : Run (Answers directory) g (create o) steps (.ok observed) t) :
    ∃ key e, g .instanceProfile key = none ∧ t = g.put .instanceProfile key e ∧
      o.spec.Conforms key none e ∧ some o.spec.name = some key := by
  obtain ⟨report, mid, _, _, hcreate, hrest, -⟩ := run_bind_ok.mp run
  obtain ⟨name, absent, rfl⟩ := Gateways.run_iam_ok hcreate
  obtain ⟨_, mid, _, _, hnote, hrest, -⟩ := run_bind_ok.mp hrest
  cases Gateways.run_note hnote
  obtain ⟨_, last, _, _, hrole, hend, -⟩ := run_bind_ok.mp hrest
  rw [name] at hrole
  cases run_syncRole (Gateways.put_self ..) hrole
  obtain ⟨-, -, rfl⟩ := run_pure.mp hend
  rw [Gateways.put_put]
  exact ⟨_, _, absent, rfl, ⟨rfl, rfl, rfl, fun _ => rfl⟩, rfl⟩

theorem run_change {desired : ProfileObject} {delta : Delta} (there : g .instanceProfile key = some e)
    (seen : o.spec.Sees key latest e)
    (hrole : delta.differsAt "Spec.Role" = !sameGiven desired.spec.role latest.spec.role)
    (htags : delta.differsAt "Spec.Tags" = !Tag.same desired.spec.tags latest.spec.tags)
    (run : Run (Answers directory) g (change desired latest delta) steps (.ok observed) t) :
    t = g.put .instanceProfile key
      { holding e desired.spec.role with tags := (Tag.table desired.spec.tags).get? } := by
  unfold change at run
  simp only [seen.name] at run
  obtain ⟨_, mid, _, _, hswap, run, -⟩ := run_bind_ok.mp run
  have swapped : mid = g.put .instanceProfile key (holding e desired.spec.role) := by
    rw [seen.role] at hrole hswap
    rcases run_whenDiffers hrole hswap with ⟨-, hswap⟩ | ⟨same, rfl⟩
    · exact run_syncRole there hswap
    · have same := sameGiven_iff.mp (by simpa using same)
      rw [holding_congr same, holding_self, Gateways.put_same there]
  subst swapped
  obtain ⟨_, last, _, _, htag, run, -⟩ := run_bind_ok.mp run
  cases (Gateways.tagging rfl g (holding e desired.spec.role)).run_retag htag seen.tags htags
  obtain ⟨_, _, _, _, hnote, hend, -⟩ := run_bind_ok.mp run
  cases Gateways.run_note hnote
  exact (run_pure.mp hend).2.2

theorem run_update (there : g .instanceProfile key = some e) (seen : o.spec.Sees key latest e)
    (run : Run (Answers directory) g
      (instanceProfileManager.update (instanceProfileManager.wish o latest) latest
        (instanceProfileManager.drift o latest)) steps (.ok observed) t) :
    ∃ f, t = g.put .instanceProfile key f ∧ o.spec.Conforms key (some e) f := by
  rcases Manager.run_update run with ⟨_, -, -, outcome, -⟩ | ⟨allowed, run⟩
  · cases outcome
  have differs {d : Bool} {path : String} (field : (d, path) ∈
      Kind.instanceProfile.differences (instanceProfileManager.wish o latest).spec latest.spec) :
      (instanceProfileManager.drift o latest).differsAt path = d :=
    Kind.differsAt_of_mem field
  have hpath : (instanceProfileManager.drift o latest).differsAt "Spec.Path" =
      !sameGiven (some (o.spec.path.getD e.form.path)) (some e.form.path) :=
    differs (by simp [Kind.differences, wish, instanceProfileManager, lateInitialize, seen.path])
  have path : e.form.path = o.spec.path.getD e.form.path := by
    have same := Delta.checkImmutable_eq_ok.mp allowed "Spec.Path" (by simp [instanceProfileManager])
    rw [hpath] at same
    exact sameGiven_some.mp (by simpa using same)
  have only := run_change there seen (differs (by simp [Kind.differences]))
    (differs (by simp [Kind.differences])) run
  exact ⟨_, only, seen.keyed.symm, path, rfl, fun _ => rfl⟩

theorem settling (directory : RoleDirectory) :
    Settling (Answers directory) (Gateways.kept .instanceProfile) instanceProfileManager
      Kind.instanceProfile.key? (fun _ => True) InstanceProfileSpec.Sees InstanceProfileSpec.Conforms where
  still reads answered := answered.still reads
  lookups o := (Kind.instanceProfile.asks_wanted o).mono fun _ asked => asked.refers.reads
  resolved run run' := run.outcome_unique run' (Kind.instanceProfile.asks_wanted _) fun _ r _ _ _ _ _ looks h h' => by
    cases r with
    | role space name => exact h.1.trans h'.1.symm
    | _ => cases looks
  resolve_status := Kind.instanceProfile.resolve_status
  fine _ _ := trivial
  reads := @Kind.asks_readOne .instanceProfile
  blames := Gateways.blames (k := .instanceProfile)
  blind := Gateways.blind (k := .instanceProfile)
  found known run := run_readOne (Option.some.inj known) run
  tells seen := congrArg some seen.keyed
  inSync := inSync
  create _ _ run := run_create run
  update there seen run := by
    obtain ⟨f, only, conforms⟩ := run_update there seen run
    exact ⟨f, only, conforms, congrArg some seen.keyed⟩
  again conforms := by
    obtain ⟨name, path, role, tags⟩ := conforms
    refine ⟨name, ?_, role, tags⟩
    cases hs : (InstanceProfileSpec.path _) with
    | none => rfl
    | some wanted => simpa [hs] using path

end InstanceProfileManager

end IamKeeper
