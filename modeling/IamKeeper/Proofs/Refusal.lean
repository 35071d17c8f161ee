import IamKeeper.Proofs.Calls

namespace IamKeeper

open Iam
open Plan hiding bind_assoc

namespace Kind

variable {kind : Kind} {α : Type}

/-- Whether a delta has an immutable path of a kind. -/
def Forbids (kind : Kind) (delta : Delta) : Prop :=
  ∃ path ∈ kind.manager.immutable, delta.differsAt path = true

/-- The fault that lists the immutable paths which differ, as the manager orders them. -/
def refused (kind : Kind) (delta : Delta) : Fault :=
  .immutableFields (kind.manager.immutable.filter delta.differsAt)

theorem checkImmutable_of_forbids {delta : Delta} (h : kind.Forbids delta) :
    delta.checkImmutable kind.manager.immutable = .error (kind.refused delta) := by
  cases hc : delta.checkImmutable kind.manager.immutable with
  | error fault => exact congrArg _ (Delta.checkImmutable_eq_error hc)
  | ok =>
    obtain ⟨path, fixed, differs⟩ := h
    cases differs.symm.trans (Delta.checkImmutable_eq_ok.mp hc path fixed)

theorem forbids_of_checkImmutable {delta : Delta} {fault : Fault}
    (h : delta.checkImmutable kind.manager.immutable = .error fault) : kind.Forbids delta := by
  by_contra allowed
  have fine := Delta.checkImmutable_eq_ok.mpr fun path (fixed : path ∈ kind.manager.immutable) =>
    eq_false_of_ne_true fun differs => allowed ⟨path, fixed, differs⟩
  cases h.symm.trans fine

theorem update_refused {delta : Delta} (h : kind.Forbids delta) (desired latest : kind.Object) :
    kind.manager.update desired latest delta = Job.fail (kind.refused delta) := by
  unfold Manager.update
  rw [checkImmutable_of_forbids h]
  rfl

/-- An update fails before it makes a call exactly when an immutable path differs. -/
theorem update_fails_iff {σ : Type} {W : World world σ} {s t : σ} {steps : List (Step world σ)}
    {desired latest : kind.Object} {delta : Delta} {outcome : Except Fault kind.Object}
    (run : Run W s (kind.manager.update desired latest delta) steps outcome t) :
    ((∃ fault, outcome = .error fault) ∧ ∀ step ∈ steps, ∀ call, step.request ≠ .iam call) ↔
      kind.Forbids delta := by
  constructor
  · intro h
    obtain ⟨⟨fault, rfl⟩, silent⟩ := h
    rcases Manager.run_update run with ⟨fault', refused, -⟩ | ⟨-, hchange⟩
    · exact forbids_of_checkImmutable refused
    · obtain ⟨step, hs, call, same⟩ := (calls_change ..).fails_with_call hchange
      exact absurd same (silent step hs call)
  · intro h
    rw [update_refused h] at run
    obtain ⟨rfl, rfl, -⟩ := run_done.mp run
    exact ⟨⟨_, rfl⟩, by simp⟩

section Pass

variable {σ : Type} {W : World world σ} {s t : σ} {steps front : List (Step world σ)}
  {o : kind.Object} {fault : Fault}

/-- A plan that has made no mutating call when it has met with some answers, and fails there. -/
structure Abandons (W : World world σ) (s : σ) (p : Job α) (front : List (Step world σ))
    (fault : Fault) : Prop where
  run : ∃ t, Run W s p front (.error fault) t
  only : ∀ steps outcome t, Run W s p steps outcome t → front <+: steps →
    steps = front ∧ outcome = .error fault
  untouched : ∀ step ∈ front, step.request.isMutation = false

theorem Abandons.of_run {p : Job α} (run : Run W s p front (.error fault) t)
    (untouched : ∀ step ∈ front, step.request.isMutation = false) : Abandons W s p front fault where
  run := ⟨t, run⟩
  only _ _ _ other same := by
    obtain ⟨rfl, ends, -⟩ := run.eq_of_prefix other same
    exact ⟨rfl, ends⟩
  untouched := untouched

/-- What stops a sync before it writes: a reference, a read, or a drift in an immutable field. -/
inductive Stops (W : World world σ) (s : σ) (o : kind.Object) : List (Step world σ) → Fault → Prop
  | unresolved {front : List (Step world σ)} {fault : Fault} {t : σ}
      (resolve : Run W s (kind.manager.resolve o) front (.error fault) t) : Stops W s o front fault
  | unread {first second : List (Step world σ)} {fault : Fault} {mid t : σ}
      {resolved : Resolved kind.Spec kind.Detail}
      (resolve : Run W s (kind.manager.resolve o) first (.ok resolved) mid)
      (read : Run W mid (kind.manager.readOne resolved.object) second (.error fault) t) :
      Stops W s o (first ++ second) fault
  | forbidden {first second : List (Step world σ)} {mid t : σ}
      {resolved : Resolved kind.Spec kind.Detail} {latest : kind.Object}
      (resolve : Run W s (kind.manager.resolve o) first (.ok resolved) mid)
      (read : Run W mid (kind.manager.readOne resolved.object) second (.ok (some latest)) t)
      (forbids : kind.Forbids (kind.manager.drift resolved.object latest)) :
      Stops W s o (first ++ second) (kind.refused (kind.manager.drift resolved.object latest))

theorem Stops.abandons (stops : Stops W s o front fault) :
    Abandons W s (kind.manager.sync o) front fault := by
  have refers : (kind.manager.resolve o).Asks Request.Reads :=
    (asks_resolve o).mono fun _ => Request.Refers.reads
  rw [Manager.sync_eq]
  cases stops with
  | unresolved resolve => exact .of_run (resolve.bind_error _) (resolve.asked refers)
  | unread resolve read =>
    have reads := List.forall_mem_append.mpr ⟨resolve.asked refers, read.asked (asks_readOne _)⟩
    exact .of_run (resolve.bind (read.bind_error _)) reads
  | @forbidden first second mid t resolved latest resolve read forbids =>
    have reads := List.forall_mem_append.mpr ⟨resolve.asked refers, read.asked (asks_readOne _)⟩
    have settles : Run W t (kind.manager.settle o resolved (some latest)) []
        (.error (kind.refused (kind.manager.drift resolved.object latest))) t := by
      rw [Manager.settle_refused o (checkImmutable_of_forbids forbids)]
      exact .done
    have rest := read.bind settles
    rw [List.append_nil] at rest
    exact .of_run (resolve.bind rest) reads

theorem remove_abandons (read : Run W s (kind.manager.readOne o) front (.error fault) t) :
    Abandons W s (kind.manager.remove o) front fault :=
  .of_run (read.bind_error _) (read.asked (asks_readOne o))

end Pass

/-- What is refused before anything is written leaves IAM untouched: a sync that is stopped, an update with an
immutable path, whose fault is terminal and lists those that differ, and a removal that cannot read. -/
theorem refused_leaves_untouched {σ : Type} (W : World world σ) (s : σ) (o : kind.Object) :
    (∀ front fault, Stops W s o front fault → Abandons W s (kind.manager.sync o) front fault) ∧
    (∀ desired latest delta steps outcome t,
      Run W s (kind.manager.update desired latest delta) steps outcome t →
      (((∃ fault, outcome = .error fault) ∧ ∀ step ∈ steps, ∀ call, step.request ≠ .iam call) ↔
        kind.Forbids delta) ∧
      (kind.Forbids delta → steps = [] ∧ outcome = .error (kind.refused delta))) ∧
    (∀ delta, (kind.refused delta).isTerminal = true) ∧
    ∀ front fault t, Run W s (kind.manager.readOne o) front (.error fault) t →
      Abandons W s (kind.manager.remove o) front fault := by
  refine ⟨fun _ _ => Stops.abandons, fun desired latest delta steps outcome t run => ?_, fun _ => rfl,
    fun _ _ _ => remove_abandons⟩
  refine ⟨update_fails_iff run, fun forbids => ?_⟩
  rw [update_refused forbids] at run
  obtain ⟨rfl, rfl, -⟩ := run_done.mp run
  exact ⟨rfl, rfl⟩

/-- An instance profile that is to lie elsewhere than where IAM has it. -/
def movedProfile : instanceProfile.Object where
  metadata := ⟨some "web", none, some "space", [], none⟩
  spec := ⟨"web", some "/new/", none, none, []⟩
  status := none

/-- What IAM has in its place. -/
def movedReport : InstanceProfileReport :=
  { (default : InstanceProfileReport) with name := "web", path := "/old/" }

/-- The sync of the moved profile reads it and stops, and so does its removal when IAM does not answer. -/
theorem movedProfile_leaves_untouched :
    let W : World world Unit := fun s _ _ t => t = s
    let throttled : Fault := .iam "GetInstanceProfile" none "throttled"
    ∃ front silent : List (Step world Unit),
      Stops W () movedProfile front (.immutableFields ["Spec.Path"]) ∧
      Abandons W () (instanceProfile.manager.sync movedProfile) front
        (.immutableFields ["Spec.Path"]) ∧
      Run W () (instanceProfile.manager.readOne movedProfile) silent (.error throttled) () ∧
      Abandons W () (instanceProfile.manager.remove movedProfile) silent throttled := by
  intro W throttled
  obtain ⟨latest, hl⟩ : ∃ latest, latest = InstanceProfileManager.record
      { movedProfile with spec := ⟨"web", some "/old/", none, none, []⟩ } movedReport := ⟨_, rfl⟩
  have read : ∃ steps,
      Run W () (instanceProfile.manager.readOne movedProfile) steps (.ok (some latest)) () := by
    rw [hl]
    exact ⟨_,
      Job.run_ask (r := Request.iam (.getInstanceProfile "web")) (Except.ok (some movedReport)) rfl <|
      Job.run_ask (r := Request.iam (.listTags (.instanceProfile "web"))) (Except.ok []) rfl .done⟩
  have fails : ∃ steps, Run W () (instanceProfile.manager.readOne movedProfile) steps
      (.error throttled) () :=
    ⟨_, Job.run_ask (r := Request.iam (.getInstanceProfile "web")) (Except.error throttled) rfl .done⟩
  obtain ⟨delta, hd⟩ : ∃ delta,
      delta = instanceProfile.manager.drift movedProfile latest := ⟨_, rfl⟩
  have differs {differs : Bool} {path : String} (field : (differs, path) ∈ instanceProfile.differences
      (instanceProfile.manager.wish movedProfile latest).spec latest.spec) :
      delta.differsAt path = differs := by
    rw [hd]
    exact differsAt_of_mem field
  have name : delta.differsAt "Spec.Name" = false := by
    rw [hl] at differs
    exact differs (by decide)
  have path : delta.differsAt "Spec.Path" = true := by
    rw [hl] at differs
    exact differs (by decide)
  have listed : instanceProfile.refused delta = .immutableFields ["Spec.Path"] := by
    change Fault.immutableFields (["Spec.Name", "Spec.Path"].filter delta.differsAt) = _
    simp [name, path]
  obtain ⟨front, read⟩ := read
  obtain ⟨silent, fails⟩ := fails
  have resolve : Run W () (instanceProfile.manager.resolve movedProfile) []
      (.ok ⟨movedProfile, false⟩) () := .done
  have forbids : instanceProfile.Forbids delta :=
    ⟨"Spec.Path", show "Spec.Path" ∈ ["Spec.Name", "Spec.Path"] by decide, path⟩
  have stops : Stops W () movedProfile front (.immutableFields ["Spec.Path"]) := by
    subst hd
    rw [← listed]
    exact Stops.forbidden resolve read forbids
  obtain ⟨sync, -, -, remove⟩ := refused_leaves_untouched W () movedProfile
  exact ⟨front, silent, stops, sync _ _ stops, fails, remove _ _ _ fails⟩

end Kind

end IamKeeper
