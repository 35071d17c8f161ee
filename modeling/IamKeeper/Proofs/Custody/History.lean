import IamKeeper.Proofs.Custody.Pass

namespace IamKeeper

open Iam
open Plan hiding bind_assoc

namespace Kind

variable {kind : Kind} {s t : Site kind} {o : kind.Object} {e : Entity}
  {steps : List (Step world (Site kind))}

theorem stray_lookup {α : Type} {key : String} {next : (Request.iam (kind.lookup key)).Answer → Job α}
    {outcome : Except Fault α} (there : s.entity = some e) (stray : key ≠ kind.keyOf e)
    (run : Run Site.Answers s (.ask (Request.iam (kind.lookup key)) next) steps outcome t) :
    ∃ step ∈ steps, ¬ step.Careful := by
  obtain ⟨answer, mid, later, -, -, rfl⟩ := run_ask.mp run
  exact ⟨_, List.mem_cons_self .., fun careful => stray (careful.lookup key rfl e there)⟩

theorem second_creation {resolved : Resolved kind.Spec kind.Detail}
    {outcome : Except Fault (Synced kind.Spec kind.Detail)} (there : s.entity = some e)
    (run : Run Site.Answers s (kind.manager.settle o resolved none) steps outcome t) :
    ∃ step ∈ steps, ¬ step.Careful := by
  obtain ⟨answer, later, rfl, -⟩ := run_settle_none run
  refine ⟨_, List.mem_cons_self .., fun careful => ?_⟩
  have creates : (Request.iam (kind.creation resolved.object.spec)).creates = true := by
    cases kind <;> rfl
  have missing : s.entity = none := careful.create creates
  rw [missing] at there
  cases there

theorem apply_first (options : PassOptions) (clock : Clock) (space : String) {r : Request}
    {next : r.Answer → Job (Option kind.Object)} (recorded : kind.isNamed = false)
    (first : kind.manager.readOne o = .ask r next) :
    ∃ next', kind.apply options clock space o = .ask r next' := by
  rw [apply_eq, Manager.sync_eq, resolve_recorded recorded, pure_bind, first]
  exact ⟨_, rfl⟩

theorem cleanup_first {r : Request} {next : r.Answer → Job (Option kind.Object)}
    (first : kind.manager.readOne o = .ask r next) : ∃ next', kind.cleanup o = .ask r next' := by
  unfold cleanup Manager.remove
  rw [first]
  exact ⟨_, rfl⟩

theorem apply_careless {options : PassOptions} {clock : Clock} {space : String}
    {outcome : Except Fault Action} (recorded : kind.isNamed = false) (there : s.entity = some e)
    (stray : kind.key? o.spec o.status ≠ some (kind.keyOf e))
    (run : Run Site.Answers s (kind.apply options clock space o) steps outcome t) :
    ∃ step ∈ steps, ¬ step.Careful := by
  have read := kind.tracks.read o
  cases hkey : kind.key? o.spec o.status with
  | some key =>
    obtain ⟨next, first⟩ := read.first key hkey
    obtain ⟨next', eq⟩ := apply_first options clock space recorded first
    rw [eq] at run
    exact stray_lookup there (fun same => stray (hkey.trans (congrArg some same))) run
  | none =>
    rw [apply_eq] at run
    have second {first : List (Step world (Site kind))} {mid : Site kind}
        {result : Except Fault (Synced kind.Spec kind.Detail)}
        (hsync : Run Site.Answers s (kind.manager.sync o) first result mid) :
        ∃ step ∈ first, ¬ step.Careful := by
      rw [Manager.sync_eq, resolve_recorded recorded, pure_bind, read.blind hkey, pure_bind] at hsync
      exact second_creation there hsync
    rcases run_bind.mp run with ⟨fault, hsync, -⟩ | ⟨result, mid, first, rest, hsync, -, rfl⟩
    · obtain ⟨_, hsync, -⟩ := run_attempt.mp hsync
      exact second hsync
    · obtain ⟨_, hsync, -⟩ := run_attempt.mp hsync
      obtain ⟨step, hs, careless⟩ := second hsync
      exact ⟨step, List.mem_append_left _ hs, careless⟩

theorem cleanup_careless {space name : String} {index : Nat} {outcome : Except Fault Action}
    (there : s.entity = some e) (stray : kind.key? o.spec o.status ≠ some (kind.keyOf e))
    (run : Run Site.Answers s (do
      let action ← (kind.cleanup o).mapFault .cleanupFailed
      kind.storeFinalizers space name .finalizerNotRemoved (.drop index kind.finalizer)
      return action) steps outcome t) :
    ∃ step ∈ steps, ¬ step.Careful := by
  have read := kind.tracks.read o
  cases hkey : kind.key? o.spec o.status with
  | some key =>
    obtain ⟨next, first⟩ := read.first key hkey
    obtain ⟨next', eq⟩ := cleanup_first first
    rw [eq] at run
    exact stray_lookup there (fun same => stray (hkey.trans (congrArg some same))) run
  | none =>
    have eq : kind.cleanup o = Job.debug s!"{o.name} is already gone from IAM" >>= fun _ =>
        Job.info s!"cleaned up {kind.name} {o.name}" >>= fun _ => pure .awaitChange := by
      unfold cleanup Manager.remove
      rw [read.blind hkey]
      rfl
    rw [eq] at run
    obtain ⟨later, rfl, hinfo⟩ := Site.run_noted run
    obtain ⟨later, rfl, hdrop⟩ := Site.run_noted hinfo
    obtain ⟨answer, mid, rest, -, -, rfl⟩ := run_ask.mp hdrop
    refine ⟨_, List.mem_cons_of_mem _ (List.mem_cons_of_mem _ (List.mem_cons_self ..)),
      fun careful => ?_⟩
    have missing : s.entity = none := careful.release rfl
    rw [missing] at there
    cases there

/-- Once the recorded key does not lead to the entity, every pass that acts does something careless. -/
theorem pass_careless {options : PassOptions} {clock : Clock} {outcome : Except Fault Action}
    (recorded : kind.isNamed = false) (acts : Acts o) (there : s.entity = some e)
    (stray : kind.key? o.spec o.status ≠ some (kind.keyOf e))
    (run : Run Site.Answers s (kind.pass options clock o) steps outcome t) :
    ∃ step ∈ steps, ¬ step.Careful := by
  rcases kind.pass_cases options clock o with
    ⟨idle, -⟩ | ⟨text, space, -, eq⟩ | ⟨text, space, name, index, -, eq⟩
  · exact absurd acts idle
  · rw [eq] at run
    obtain ⟨later, rfl, hrest⟩ := Site.run_noted run
    obtain ⟨_, happly, -⟩ := run_mapFault.mp hrest
    obtain ⟨step, hs, careless⟩ := apply_careless recorded there stray happly
    exact ⟨step, List.mem_cons_of_mem _ hs, careless⟩
  · rw [eq] at run
    obtain ⟨later, rfl, hrest⟩ := Site.run_noted run
    obtain ⟨step, hs, careless⟩ := cleanup_careless there stray hrest
    exact ⟨step, List.mem_cons_of_mem _ hs, careless⟩

end Kind

structure Visit (kind : Kind) where
  object : kind.Object
  before : Site kind
  steps : List (Step world (Site kind))
  after : Site kind

namespace Visit

variable {kind : Kind} {s t : Site kind} {spec : kind.Spec} {visits : List (Visit kind)}

def Careful (v : Visit kind) : Prop :=
  ∀ step ∈ v.steps, step.Careful

/-- An entity came into being whose key is not recorded. -/
def Loses (v : Visit kind) : Prop :=
  Lost v.before v.object.spec v.steps

/-- Passes over an object that asks for `spec`. Each of them sees the status that is stored; between two of
them the entity may vanish. Whatever the cluster keeps of an object beside may change at any time. -/
inductive History (spec : kind.Spec) : Site kind → List (Visit kind) → Site kind → Prop
  | nil {s : Site kind} : History spec s [] s
  | vanish {s t : Site kind} {visits : List (Visit kind)}
      (rest : History spec { s with entity := none } visits t) : History spec s visits t
  | pass {options : PassOptions} {clock : Clock} {o : kind.Object} {s mid t : Site kind}
      {steps : List (Step world (Site kind))} {outcome : Except Fault Action}
      {visits : List (Visit kind)} (wished : o.spec = spec) (current : o.status = s.status)
      (run : Run Site.Answers s (kind.pass options clock o) steps outcome mid)
      (rest : History spec mid visits t) : History spec s (⟨o, s, steps, mid⟩ :: visits) t

structure Made (spec : kind.Spec) (v : Visit kind) : Prop where
  wished : v.object.spec = spec
  current : v.object.status = v.before.status
  ran : ∃ options clock outcome,
    Run Site.Answers v.before (kind.pass options clock v.object) v.steps outcome v.after

theorem History.made (history : History spec s visits t) : ∀ v ∈ visits, Made spec v := by
  induction history with
  | nil => simp
  | vanish _ ih => exact ih
  | pass wished current run _ ih =>
    exact List.forall_mem_cons.mpr ⟨⟨wished, current, _, _, _, run⟩, ih⟩

namespace Made

variable {v : Visit kind}

theorem keeps (made : Made spec v) (held : v.before.Held spec) :
    v.Careful ∧ (v.after.Held spec ↔ ¬ v.Loses) ∧ (kind.isNamed = true → ¬ v.Loses) := by
  obtain ⟨rfl, current, _, _, _, run⟩ := made
  exact Kind.pass_careful current held run

theorem careful_of_idle (made : Made spec v) (idle : ¬ Kind.Acts v.object) : v.Careful := by
  obtain ⟨-, -, options, clock, _, run⟩ := made
  rcases kind.pass_cases options clock v.object with
    ⟨-, still⟩ | ⟨_, _, ⟨acts, -⟩, -⟩ | ⟨_, _, _, _, ⟨acts, -⟩, -⟩
  · exact fun step hs => .of_quiet (run.asked still step hs).quiet
  · exact absurd acts idle
  · exact absurd acts idle

theorem held_of_careful (made : Made spec v) (recorded : kind.isNamed = false)
    (acts : Kind.Acts v.object) (careful : v.Careful) : v.before.Held spec := by
  obtain ⟨rfl, current, _, _, _, run⟩ := made
  intro e there
  by_contra stray
  rw [← current] at stray
  obtain ⟨step, hs, careless⟩ := Kind.pass_careless recorded acts there stray run
  exact careless (careful step hs)

end Made

/-- As long as no pass loses an entity, each finds what there is in custody. -/
theorem History.held (history : History spec s visits t) (start : s.Held spec)
    (kept : ∀ v ∈ visits, v.before.Held spec → ¬ v.Loses) : ∀ v ∈ visits, v.before.Held spec := by
  induction history with
  | nil => simp
  | vanish _ ih =>
    refine ih ?_ kept
    intro e h
    cases h
  | pass wished current run _ ih =>
    obtain ⟨first, later⟩ := List.forall_mem_cons.mp kept
    have made : Made spec ⟨_, _, _, _⟩ := ⟨wished, current, _, _, _, run⟩
    exact List.forall_mem_cons.mpr ⟨start, ih ((made.keeps start).2.1.mpr (first start)) later⟩

/-- From before the entity is created, a pass is careful exactly when it does nothing or finds the entity in
custody. Custody ends exactly with a pass that loses the entity, which no pass over a named kind does; as long
as none does, all passes are careful. -/
theorem History.careful_iff_held (history : History spec s visits t) (start : s.entity = none) :
    (∀ v ∈ visits, v.Careful ↔ (Kind.Acts v.object → v.before.Held spec)) ∧
    (∀ v ∈ visits, v.before.Held spec → (v.after.Held spec ↔ ¬ v.Loses)) ∧
    (kind.isNamed = true → ∀ v ∈ visits, ¬ v.Loses) ∧
    ((∀ v ∈ visits, ¬ v.Loses) → ∀ v ∈ visits, v.Careful) := by
  have held : s.Held spec := by
    intro e there
    rw [start] at there
    cases there
  have made := history.made
  -- That no pass over a named kind loses the entity rests on each finding it in custody, and the other way
  -- round, so both are had in one induction.
  have named (h : kind.isNamed = true) : ∀ v ∈ visits, v.before.Held spec :=
    history.held held fun v hv before => ((made v hv).keeps before).2.2 h
  refine ⟨fun v hv => ⟨fun careful acts => ?_, fun h => ?_⟩,
    fun v hv before => ((made v hv).keeps before).2.1,
    fun h v hv => ((made v hv).keeps (named h v hv)).2.2 h, fun kept v hv => ?_⟩
  · cases h : kind.isNamed with
    | true => exact named h v hv
    | false => exact (made v hv).held_of_careful h acts careful
  · by_cases acts : Kind.Acts v.object
    · exact ((made v hv).keeps (h acts)).1
    · exact (made v hv).careful_of_idle acts
  · have before := history.held held (fun v hv _ => kept v hv) v hv
    exact ((made v hv).keeps before).1

def scaling : Kind.serviceLinkedRole.Object where
  metadata := ⟨some "scaling", none, some "space", [Kind.serviceLinkedRole.finalizer], none⟩
  spec := ⟨"autoscaling.amazonaws.com", none, none⟩
  status := none

theorem scaling_careful :
    ∃ visits t, History scaling.spec ⟨none, none⟩ visits t ∧ t.entity.isSome = true ∧
      t.Held scaling.spec ∧ ∀ v ∈ visits, v.Careful := by
  let e : Entity := ⟨"arn:scaling", "AWSServiceRoleForAutoScaling"⟩
  let s : Site .serviceLinkedRole := ⟨none, none⟩
  let mid : Site .serviceLinkedRole := ⟨none, some e⟩
  have created : s.Does (.createServiceLinkedRole scaling.spec)
      { (default : RoleReport) with arn := e.arn, name := e.name } mid := rfl
  have run : ∃ steps outcome t, Stored steps ∧ t.entity = some e ∧
      Run Site.Answers s (Kind.serviceLinkedRole.pass ⟨none, 600, 15⟩ (fun _ => .epoch) scaling)
        steps outcome t :=
    ⟨_, _, _, ⟨_, .tail _ (.tail _ (.tail _ (.tail _ (.head _)))), rfl⟩, rfl,
      Site.run_ask_note <| Site.run_ask_iam (.createServiceLinkedRole _) _ created <|
      Site.run_ask_note <| Site.run_ask_note <|
      Site.run_ask (r := Request.patchStatus _ _) (Except.ok ()) ⟨_, rfl, rfl⟩ .done⟩
  obtain ⟨steps, outcome, t, stored, there, run⟩ := run
  have history : History scaling.spec s [⟨scaling, s, steps, t⟩] t :=
    .pass rfl rfl run .nil
  obtain ⟨-, keeps, -, careful⟩ := history.careful_iff_held rfl
  have kept : ∀ v ∈ [(⟨scaling, s, steps, t⟩ : Visit .serviceLinkedRole)], ¬ v.Loses := by
    rintro v hv ⟨_, -, unstored, -⟩
    cases List.mem_singleton.mp hv
    exact unstored stored
  refine ⟨_, t, history, by rw [there]; rfl, ?_, careful kept⟩
  exact (keeps _ (List.mem_singleton_self _) (by rintro _ ⟨⟩)).mpr (kept _ (List.mem_singleton_self _))

/-- A policy that is to be created, or that is to be deleted since some time. -/
def unrecorded (deletion : Option Time.Instant) : PolicyObject where
  metadata := ⟨some "app", none, some "space", [Kind.policy.finalizer], deletion⟩
  spec := ⟨"app", none, none, "\x7b\x7d", []⟩
  status := none

/-- When the status of a new policy cannot be stored, a cleanup drops the finalizer beside the policy. -/
theorem unrecorded_orphaned :
    ∃ visits t, History (unrecorded none).spec ⟨none, none⟩ visits t ∧
      t.entity = some ⟨"arn:app", "app"⟩ ∧
      ∃ v ∈ visits, ∃ step ∈ v.steps, step.request.releases = true ∧
        step.before.entity = some ⟨"arn:app", "app"⟩ := by
  let s : Site .policy := ⟨none, none⟩
  let t : Site .policy := ⟨none, some ⟨"arn:app", "app"⟩⟩
  have created : s.Does (.createPolicy (unrecorded none).spec)
      { (default : PolicyReport) with arn := "arn:app" } t := rfl
  have first : ∃ steps outcome, Run Site.Answers s
      (Kind.policy.pass ⟨none, 600, 15⟩ (fun _ => .epoch) (unrecorded none)) steps outcome t :=
    ⟨_, _, Site.run_ask_note <| Site.run_ask_iam (.createPolicy _) _ created <|
      Site.run_ask_note <| Site.run_ask_note <|
      Site.run_ask (r := Request.patchStatus _ _) (Except.error .unsendable) rfl .done⟩
  have second : ∃ steps outcome, Run Site.Answers t
      (Kind.policy.pass ⟨none, 600, 15⟩ (fun _ => .epoch) (unrecorded (some .epoch))) steps outcome t ∧
      ∃ step ∈ steps, step.request.releases = true ∧ step.before = t :=
    ⟨_, _, Site.run_ask_note <| Site.run_ask_note <| Site.run_ask_note <|
      Site.run_ask (r := Request.patchFinalizers _ _) (Except.ok ()) rfl .done,
      _, .tail _ (.tail _ (.tail _ (.head _))), rfl, rfl⟩
  obtain ⟨steps, _, first⟩ := first
  obtain ⟨steps', _, second, step, hs, releases, before⟩ := second
  refine ⟨[⟨unrecorded none, s, steps, t⟩, ⟨unrecorded (some .epoch), t, steps', t⟩], t,
    .pass rfl rfl first (.pass rfl rfl second .nil), rfl, _, .tail _ (.head _), step, hs, releases, ?_⟩
  rw [before]

end Visit

end IamKeeper
