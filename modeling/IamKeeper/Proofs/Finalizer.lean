import IamKeeper.Proofs.Calls
import IamKeeper.Proofs.Custody.Pass
import IamKeeper.Proofs.Removal

namespace IamKeeper

open Iam
open Plan hiding bind_assoc
open Job (Heeds)

/-- A request that drops no finalizer. -/
def Request.Keeps (r : Request) : Prop :=
  r.releases = false

theorem Request.Quiet.keeps {r : Request} (quiet : r.Quiet) : r.Keeps :=
  quiet.parts.2.1

theorem Request.Idle.unpatched {r : Request} (idle : r.Idle true) : r.patches = false := by
  cases r with
  | iam | note | policy | role => rfl
  | patchStatus => cases idle
  | patchFinalizers path patch => cases patch <;> cases idle

theorem Request.keeps_of_unpatched {r : Request} (h : r.patches = false) : r.Keeps := by
  cases r with
  | iam | note | policy | role | patchStatus => rfl
  | patchFinalizers => cases h

theorem Request.Among.kept {P : Call → Prop} {r : Request} (h : r.Among P) : r.Keeps :=
  keeps_of_unpatched h.unpatched

def FinalizerPatch.Fits : FinalizerPatch → List String → Prop
  | start _, finalizers => finalizers = []
  | append present _, finalizers => finalizers = present
  | drop index finalizer, finalizers => finalizers[index]? = some finalizer

namespace Kind

variable {kind : Kind}

theorem asks_apply (options : PassOptions) (clock : Clock) (space : String) (o : kind.Object) :
    (kind.apply options clock space o).Asks Request.Keeps := by
  rw [apply_eq]
  refine ((asks_sync o).mono fun _ => Request.keeps_of_unpatched).attempt.bind fun result => ?_
  refine (kind.asks_conclude options clock space o result).mono fun r records => ?_
  rcases records with quiet | ⟨path, recorded, rfl, -⟩
  · exact quiet.keeps
  · rfl

section World

variable {σ : Type} {W : World world σ} {s t : σ} {steps front : List (Step world σ)} {o : kind.Object}

/-- A cleanup that succeeded: there was no entity, or all that its deletion asks for was done. -/
structure Cleaned (W : World world σ) (o : kind.Object) (steps : List (Step world σ)) : Prop where
  smooth : ∀ step ∈ steps, step.failed = false
  removed : ∃ s mid t lead reading rest later found, steps = lead ++ (reading ++ rest) ++ later ∧
    Run W s (kind.manager.remove o) (reading ++ rest) (.ok ()) t ∧
    Run W s (kind.manager.readOne o) reading (.ok found) mid ∧
    ∀ latest, found = some latest → Run W mid (kind.manager.delete latest) rest (.ok ()) t

/-- What a pass is held to. Without the finalizer it asks IAM for nothing; over an object that is to be deleted
it only reads and takes down, and writes nothing but to drop the finalizer, which no failing cleanup does. -/
structure Guarded (W : World world σ) (o : kind.Object) (steps : List (Step world σ))
    (outcome : Except Fault Action) : Prop where
  unclaimed : kind.finalizer ∉ o.metadata.finalizers →
    ∀ step ∈ steps, ∀ call, step.request ≠ .iam call
  leaving : o.metadata.deletion.isSome = true →
    ∀ step ∈ steps, ∀ call, step.request = .iam call → call.Removes
  -- The finalizer is dropped last, and behind a cleanup that succeeded.
  released : ∀ step ∈ steps, step.request.releases = true →
    o.metadata.deletion.isSome = true ∧ ∃ front, steps = front ++ [step] ∧ Cleaned W o front
  written : o.metadata.deletion.isSome = true →
    ∀ step ∈ steps, step.request.patches = true → step.request.releases = true
  failing : o.metadata.deletion.isSome = true → ∀ fault, outcome = .error (.cleanupFailed fault) →
    ∀ step ∈ steps, step.request.patches = false

theorem heeds_cleanup (o : kind.Object) :
    Heeds Replies.all (Request.Among Call.Removes) (fun _ => True) (kind.cleanup o) :=
  (heeds_remove Replies.all_own kind o).bind fun _ => (Heeds.note trivial).bind fun _ => .pure _

theorem Cleaned.of_run {action : Action}
    (run : Run W s (kind.cleanup o) steps (.ok action) t) : Cleaned W o steps := by
  refine ⟨(heeds_cleanup o).smooth (Replies.all_bound W) run, ?_⟩
  obtain ⟨⟨⟩, t, removal, later, hremove, -, rfl⟩ := run_bind_ok.mp run
  obtain ⟨found, mid, reading, rest, hread, hrest, rfl⟩ := run_bind_ok.mp hremove
  refine ⟨s, mid, t, [], reading, rest, later, found, rfl, hremove, hread, fun latest there => ?_⟩
  rw [there] at hrest
  exact hrest

theorem Cleaned.cons (step : Step world σ) (fine : step.failed = false) (h : Cleaned W o steps) :
    Cleaned W o (step :: steps) := by
  obtain ⟨smooth, s, mid, t, lead, reading, rest, later, found, rfl, runs⟩ := h
  exact ⟨List.forall_mem_cons.mpr ⟨fine, smooth⟩,
    s, mid, t, step :: lead, reading, rest, later, found, rfl, runs⟩

theorem run_released {space name : String} {index : Nat} {outcome : Except Fault Action}
    (run : Run W s (do
      let action ← (kind.cleanup o).mapFault .cleanupFailed
      kind.storeFinalizers space name .finalizerNotRemoved (.drop index kind.finalizer)
      return action) steps outcome t) :
    (∃ fault, outcome = .error fault ∧ ∀ step ∈ steps, step.request.Among Call.Removes) ∨
    ∃ front last, steps = front ++ [last] ∧ Cleaned W o front ∧ last.request.releases = true ∧
      (∀ step ∈ front, step.request.Among Call.Removes) ∧
      ∀ fault, outcome ≠ .error (.cleanupFailed fault) := by
  have among {first : List (Step world σ)} {result : Except Fault Action} {mid : σ}
      (hclean : Run W s (kind.cleanup o) first result mid) :=
    (heeds_cleanup o).asked (Replies.all_bound W) hclean
  rcases run_bind.mp run with ⟨fault, hclean, rfl⟩ | ⟨action, mid, first, rest, hclean, hdrop, rfl⟩
  · obtain ⟨_, hclean, -⟩ := run_mapFault.mp hclean
    exact .inl ⟨fault, rfl, among hclean⟩
  obtain ⟨result, hclean, hresult⟩ := run_mapFault.mp hclean
  cases result with
  | error fault => cases hresult
  | ok value =>
    obtain ⟨answer, mid', later, answered, hrest, rfl⟩ := run_ask.mp hdrop
    cases answer with
    | ok _ =>
      obtain ⟨rfl, rfl, -⟩ := run_done.mp hrest
      exact .inr ⟨first, _, rfl, .of_run hclean, rfl, among hclean, by simp⟩
    | error cause =>
      obtain ⟨rfl, rfl, -⟩ := run_done.mp hrest
      exact .inr ⟨first, _, rfl, .of_run hclean, rfl, among hclean, by simp⟩

theorem Guarded.of_idle {outcome : Except Fault Action}
    (idle : ∀ step ∈ steps, Request.Idle o.metadata.deletion.isSome step.request) :
    Guarded W o steps outcome := by
  have unasked (step) (hs : step ∈ steps) (call : Call) : step.request ≠ .iam call := by
    intro h
    have still := idle step hs
    rw [h] at still
    cases still
  have unpatched (leaving : o.metadata.deletion.isSome = true) (step) (hs : step ∈ steps) :
      step.request.patches = false := by
    have still := idle step hs
    rw [leaving] at still
    exact still.unpatched
  refine ⟨fun _ => unasked, fun _ step hs call h => absurd h (unasked step hs call), ?_, ?_,
    fun leaving _ _ => unpatched leaving⟩
  · intro step hs releases
    rw [(idle step hs).quiet.keeps] at releases
    cases releases
  · intro leaving step hs patches
    rw [unpatched leaving step hs] at patches
    cases patches

theorem Guarded.of_apply {outcome : Except Fault Action} (acts : Acts o)
    (staying : o.metadata.deletion = none) (kept : ∀ step ∈ steps, step.request.Keeps) :
    Guarded W o steps outcome := by
  have stays : o.metadata.deletion.isSome ≠ true := by
    rw [staying]
    exact Bool.false_ne_true
  refine ⟨fun unclaimed => absurd acts.2.1 unclaimed, fun leaving => absurd leaving stays, ?_,
    fun leaving => absurd leaving stays, fun leaving => absurd leaving stays⟩
  intro step hs releases
  rw [kept step hs] at releases
  cases releases

theorem Guarded.of_failed {outcome : Except Fault Action} (acts : Acts o)
    (removes : ∀ step ∈ steps, step.request.Among Call.Removes) : Guarded W o steps outcome := by
  refine ⟨fun unclaimed => absurd acts.2.1 unclaimed, ?_, ?_, ?_,
    fun _ _ _ step hs => (removes step hs).unpatched⟩
  · intro _ step hs call h
    have removal := removes step hs
    rw [h] at removal
    exact removal
  · intro step hs releases
    rw [(removes step hs).kept] at releases
    cases releases
  · intro _ step hs patches
    rw [(removes step hs).unpatched] at patches
    cases patches

theorem Guarded.of_released {last : Step world σ} {outcome : Except Fault Action} (acts : Acts o)
    (leaving : o.metadata.deletion.isSome = true) (cleaned : Cleaned W o front)
    (removes : ∀ step ∈ front, step.request.Among Call.Removes)
    (releases : last.request.releases = true)
    (done : ∀ fault, outcome ≠ .error (.cleanupFailed fault)) :
    Guarded W o (front ++ [last]) outcome := by
  have before : Guarded W o front outcome := .of_failed acts removes
  have unasked (call : Call) : last.request ≠ .iam call := by
    intro h
    rw [h] at releases
    cases releases
  -- The steps in front are held to what a failed cleanup is, and the last step is a patch.
  refine ⟨fun unclaimed => absurd acts.2.1 unclaimed, fun h => ?_, ?_, fun h => ?_,
    fun _ fault failed => absurd failed (done fault)⟩
  · exact List.forall_mem_append.mpr ⟨before.leaving h,
      List.forall_mem_singleton.mpr fun call same => absurd same (unasked call)⟩
  · refine List.forall_mem_append.mpr ⟨fun step hs early => ?_, List.forall_mem_singleton.mpr fun _ => ?_⟩
    · rw [(removes step hs).kept] at early
      cases early
    · exact ⟨leaving, front, rfl, cleaned⟩
  · exact List.forall_mem_append.mpr ⟨before.written h, List.forall_mem_singleton.mpr fun _ => releases⟩

/-- Every pass is held to this, whatever the world answers. -/
theorem pass_guarded {options : PassOptions} {clock : Clock} {outcome : Except Fault Action}
    (run : Run W s (kind.pass options clock o) steps outcome t) : Guarded W o steps outcome := by
  rcases kind.pass_cases options clock o with
    ⟨-, idle⟩ | ⟨text, space, ⟨acts, staying⟩, eq⟩ | ⟨text, space, name, index, ⟨acts, leaving⟩, eq⟩
  · exact .of_idle (run.asked idle)
  · rw [eq] at run
    obtain ⟨_, mid, later, answered, hrest, rfl⟩ := run_ask.mp run
    obtain ⟨_, happly, -⟩ := run_mapFault.mp hrest
    exact .of_apply acts staying
      (List.forall_mem_cons.mpr ⟨rfl, happly.asked (asks_apply options clock space o)⟩)
  · rw [eq] at run
    obtain ⟨_, mid, later, answered, hrest, rfl⟩ := run_ask.mp run
    rcases run_released hrest with
      ⟨_, rfl, removes⟩ | ⟨front, last, rfl, cleaned, releases, removes, done⟩
    · exact .of_failed acts (List.forall_mem_cons.mpr ⟨trivial, removes⟩)
    · exact .of_released acts leaving (cleaned.cons _ rfl)
        (List.forall_mem_cons.mpr ⟨trivial, removes⟩) releases done

end World

/-- Whoever else changes the finalizers of an object leaves the one of the kind alone. -/
def Spared (kind : Kind) (s t : List String) : Prop :=
  kind.finalizer ∈ s → kind.finalizer ∈ t

/-- The stored finalizers of an object, which others may change at any time. A patch is taken only where it
finds what it expects, and it may have been taken though it fails. -/
def Shelves (kind : Kind) : World world (List String)
  | s, .patchFinalizers _ patch, answer, t => ∃ mid, kind.Spared s mid ∧
      ((patch.Fits mid ∧ t = patch.apply mid) ∨ (∃ cause, answer = .error cause) ∧ t = mid)
  | s, _, _, t => kind.Spared s t

end Kind

theorem Request.Keeps.spared {kind : Kind} {r : Request} {s t : List String} {answer : r.Answer}
    (keeps : r.Keeps) (answered : kind.Shelves s r answer t) : kind.Spared s t := by
  cases r with
  | iam | policy | role | patchStatus | note => exact answered
  | patchFinalizers path patch =>
    obtain ⟨mid, spared, ⟨fits, rfl⟩ | ⟨-, rfl⟩⟩ := answered
    · intro there
      have present := spared there
      cases patch with
      | start finalizer =>
        have empty : mid = [] := fits
        rw [empty] at present
        cases present
      | append expected finalizer => exact List.mem_append_left _ present
      | drop => cases keeps
    · exact spared

/-- A pass over an object as it is seen, between the finalizers that are stored before and after it. -/
structure Passage (kind : Kind) where
  object : kind.Object
  before : List String
  steps : List (Step world (List String))
  outcome : Except Fault Action
  after : List String

namespace Passage

open Kind (Cleaned Guarded Shelves Spared)

variable {kind : Kind} {s t : List String} {passages : List (Passage kind)}

/-- Passes over an object, seen as it may be, and changes by others between them. -/
inductive History : List String → List (Passage kind) → List String → Prop
  | nil {s : List String} : History s [] s
  | edit {s mid t : List String} {passages : List (Passage kind)} (spared : kind.Spared s mid)
      (rest : History mid passages t) : History s passages t
  | pass {options : PassOptions} {clock : Clock} {o : kind.Object} {s mid t : List String}
      {steps : List (Step world (List String))} {outcome : Except Fault Action}
      {passages : List (Passage kind)}
      (run : Run kind.Shelves s (kind.pass options clock o) steps outcome mid)
      (rest : History mid passages t) : History s (⟨o, s, steps, outcome, mid⟩ :: passages) t

/-- A passage over an object that is to be deleted, with a cleanup that succeeded. -/
def Leaves (p : Passage kind) : Prop :=
  p.object.metadata.deletion.isSome = true ∧
    ∃ front last, p.steps = front ++ [last] ∧ last.request.releases = true ∧
      Cleaned kind.Shelves p.object front

theorem spared_of_run {α : Type} {p : Job α} {steps : List (Step world (List String))}
    {outcome : Except Fault α} (run : Run kind.Shelves s p steps outcome t)
    (keeps : ∀ step ∈ steps, Request.Keeps step.request) : kind.Spared s t := by
  induction run with
  | done => exact id
  | ask answered _ ih =>
    obtain ⟨first, later⟩ := List.forall_mem_cons.mp keeps
    exact fun there => ih later (first.spared answered there)

/-- Every pass of a history is guarded, and the finalizer goes in none but one over an object that is to be
deleted, behind a cleanup that succeeded. -/
theorem History.finalizer_kept (history : History s passages t) :
    (∀ p ∈ passages, Guarded kind.Shelves p.object p.steps p.outcome) ∧
    (∀ p ∈ passages, kind.finalizer ∈ p.before → kind.finalizer ∉ p.after → p.Leaves) ∧
    (kind.finalizer ∈ s → kind.finalizer ∉ t →
      ∃ p ∈ passages, kind.finalizer ∈ p.before ∧ kind.finalizer ∉ p.after) := by
  induction history with
  | nil => exact ⟨by simp, by simp, fun there gone => absurd there gone⟩
  | edit spared _ ih => exact ⟨ih.1, ih.2.1, fun there => ih.2.2 (spared there)⟩
  | @pass options clock o s mid t steps outcome passages run _ ih =>
    have guarded := Kind.pass_guarded run
    refine ⟨List.forall_mem_cons.mpr ⟨guarded, ih.1⟩,
      List.forall_mem_cons.mpr ⟨fun there gone => ?_, ih.2.1⟩, fun there gone => ?_⟩
    · -- Only a patch that drops it can have taken the finalizer away, and such a patch is guarded.
      have dropped : ∃ step ∈ steps, step.request.releases = true := by
        by_contra none
        refine gone (spared_of_run run (fun step hs => ?_) there)
        exact eq_false_of_ne_true fun releases => none ⟨step, hs, releases⟩
      obtain ⟨step, hs, releases⟩ := dropped
      obtain ⟨leaving, front, eq, cleaned⟩ := guarded.released step hs releases
      exact ⟨leaving, front, step, eq, releases, cleaned⟩
    · by_cases present : kind.finalizer ∈ mid
      · obtain ⟨p, hp, lost⟩ := ih.2.2 present gone
        exact ⟨p, List.mem_cons_of_mem _ hp, lost⟩
      · exact ⟨_, List.mem_cons_self .., there, present⟩

/-- An instance profile that is to be deleted. -/
def leavingProfile : Kind.instanceProfile.Object where
  metadata := ⟨some "web", none, some "space", [Kind.instanceProfile.finalizer], some .epoch⟩
  spec := ⟨"web", none, none, none, []⟩
  status := none

/-- A cleanup fails at its first call, and the next one succeeds. -/
theorem finalizer_leavingProfile :
    ∃ first second : Passage .instanceProfile,
      History [Kind.instanceProfile.finalizer] [first, second] [] ∧
      (∀ step ∈ first.steps, step.request.patches = false) ∧ ¬ first.Leaves ∧ second.Leaves := by
  let f := Kind.instanceProfile.finalizer
  let W := Kind.instanceProfile.Shelves
  let report : InstanceProfileReport := { (default : InstanceProfileReport) with name := "web" }
  let pass := Kind.instanceProfile.pass ⟨none, 600, 15⟩ (fun _ => .epoch) leavingProfile
  have failing : ∃ steps, Run W [f] pass steps
      (.error (.cleanupFailed (.iam "GetInstanceProfile" none "throttled"))) [f] :=
    ⟨_,
      Job.run_ask (r := Request.note _ _) () id <|
      Job.run_ask (r := Request.iam (.getInstanceProfile "web"))
        (Except.error (.iam "GetInstanceProfile" none "throttled")) id .done⟩
  have deleting : ∃ steps outcome, Run W [f] pass steps outcome [] :=
    ⟨_, _,
      Job.run_ask (r := Request.note _ _) () id <|
      Job.run_ask (r := Request.iam (.getInstanceProfile "web")) (Except.ok (some report)) id <|
      Job.run_ask (r := Request.iam (.listTags (.instanceProfile "web"))) (Except.ok []) id <|
      Job.run_ask (r := Request.iam (.deleteInstanceProfile "web")) (Except.ok ()) id <|
      Job.run_ask (r := Request.note _ _) () id <|
      Job.run_ask (r := Request.note _ _) () id <|
      Job.run_ask (r := Request.patchFinalizers _ (.drop 0 f)) (Except.ok ())
        ⟨[f], id, .inl ⟨rfl, rfl⟩⟩ .done⟩
  obtain ⟨steps, first⟩ := failing
  obtain ⟨steps', outcome, second⟩ := deleting
  have history : History [f]
      [⟨leavingProfile, [f], steps, _, [f]⟩, ⟨leavingProfile, [f], steps', outcome, []⟩] [] :=
    .pass first (.pass second .nil)
  obtain ⟨guarded, leaves, -⟩ := history.finalizer_kept
  obtain ⟨held, -⟩ := List.forall_mem_cons.mp guarded
  obtain ⟨-, later⟩ := List.forall_mem_cons.mp leaves
  have unpatched := held.failing rfl _ rfl
  refine ⟨_, _, history, unpatched, ?_, List.forall_mem_singleton.mp later (List.mem_singleton_self f) nofun⟩
  intro left
  obtain ⟨-, front, last, eq, releases, -⟩ := left
  have there : last ∈ steps := by
    rw [show steps = front ++ [last] from eq]
    exact List.mem_append_right _ (List.mem_singleton_self _)
  have unreleased := unpatched last there
  cases h : last.request with
  | patchFinalizers path patch =>
    rw [h] at unreleased
    cases unreleased
  | iam | policy | role | patchStatus | note =>
    rw [h] at releases
    cases releases

end Passage

end IamKeeper
