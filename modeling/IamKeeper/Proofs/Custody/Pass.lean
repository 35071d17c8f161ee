import IamKeeper.Proofs.Custody.Careful

namespace IamKeeper

open Plan hiding bind_assoc

variable {kind : Kind} {s t : Site kind} {o : kind.Object} {steps : List (Step world (Site kind))}

/-- What a sync does to the site of an object: it leaves the site alone and keeps the recorded key, or it
creates the entity and records its key. Where it fails after the creation, every status tells that key. -/
inductive Site.Syncs (s : Site kind) (spec : kind.Spec) (steps : List (Step world (Site kind)))
    (outcome : Except Fault (Synced kind.Spec kind.Detail)) : Site kind → Prop
  | kept (idle : ∀ e, ¬ Gained steps e)
      (recorded : ∀ synced, outcome = .ok synced →
        kind.key? spec synced.object.status = kind.key? spec s.status) : Syncs s spec steps outcome s
  | created {e : Entity} (missing : s.entity = none) (gained : ∀ e', Gained steps e' ↔ e' = e)
      (recorded : ∀ synced, outcome = .ok synced →
        kind.key? spec synced.object.status = some (kind.keyOf e))
      (failed : ∀ fault, outcome = .error fault → ∀ status,
        kind.key? spec status = some (kind.keyOf e)) :
      Syncs s spec steps outcome { s with entity := some e }

theorem not_gained (still : ∀ step ∈ steps, step.before = s ∧ step.after = s) (e : Entity) :
    ¬ Gained steps e := by
  intro h
  obtain ⟨step, hs, missing, there⟩ := h
  obtain ⟨before, after⟩ := still step hs
  rw [before] at missing
  rw [after, missing] at there
  cases there

/-- Where one step brings an entity into being and the steps around it change nothing, it is the only one
that comes into being. -/
theorem gained_once {first later : List (Step world (Site kind))} {r : Request} {answer : r.Answer}
    {e e' : Entity} (still : ∀ step ∈ first, step.before = s ∧ step.after = s)
    (alone : ∀ step ∈ later, step.before = t ∧ step.after = t) (missing : s.entity = none)
    (there : t.entity = some e) : Gained (first ++ ⟨s, r, answer, t⟩ :: later) e' ↔ e' = e := by
  constructor
  · intro gained
    rcases gained_append.mp gained with gained | ⟨step, hs, absent, present⟩
    · exact absurd gained (not_gained still e')
    rcases List.mem_cons.mp hs with rfl | hs
    · exact Option.some.inj (present.symm.trans there)
    · rw [(alone step hs).1, there] at absent
      cases absent
  · intro same
    subst same
    exact ⟨_, List.mem_append_right _ (List.mem_cons_self ..), missing, there⟩

/-- A note, or the addition of a finalizer to an object that is not leaving. -/
def Request.Idle (leaving : Bool) : Request → Prop
  | .note _ _ => True
  | .patchFinalizers _ (.drop _ _) => False
  | .patchFinalizers _ _ => leaving = false
  | _ => False

theorem Request.Idle.quiet {leaving : Bool} {r : Request} (idle : r.Idle leaving) : r.Quiet := by
  cases r with
  | note => rfl
  | patchFinalizers path patch => cases patch <;> first | rfl | cases idle
  | iam | policy | role | patchStatus => cases idle

namespace Kind

theorem look_careful {known : Option String}
    (held : ∀ e, s.entity = some e → known = some (kind.keyOf e))
    (alone : ∀ step ∈ steps, step.request.Seeks kind known ∧ step.before = s ∧ step.after = s) :
    ∀ step ∈ steps, step.Careful ∧ step.request.Spares := by
  intro step hs
  obtain ⟨seeks, before, -⟩ := alone step hs
  have leads : ∀ e, step.before.entity = some e → known = some (kind.keyOf e) := by
    rw [before]
    exact held
  exact ⟨.of_seeks seeks leads, seeks.spares⟩

/-- A sync keeps its entity in custody, and does nothing careless. -/
theorem sync_careful {outcome : Except Fault (Synced kind.Spec kind.Detail)}
    (current : o.status = s.status) (held : s.Held o.spec)
    (run : Run Site.Answers s (kind.manager.sync o) steps outcome t) :
    (∀ step ∈ steps, step.Careful ∧ step.request.stores = false) ∧
      s.Syncs o.spec steps outcome t := by
  unfold Site.Held at held
  rw [← current] at held
  rw [Manager.sync_eq_look] at run
  rcases run_bind.mp run with ⟨fault, hlook, rfl⟩ | ⟨looked, mid, first, rest, hlook, hsettle, rfl⟩
  · obtain ⟨rfl, alone, -⟩ := run_look hlook
    have looked := look_careful held alone
    exact ⟨fun step hs => ⟨(looked step hs).1, (looked step hs).2.stores⟩,
      .kept (not_gained fun step hs => (alone step hs).2) (by simp)⟩
  obtain ⟨resolved, found⟩ := looked
  obtain ⟨rfl, alone, told⟩ := run_look hlook
  obtain ⟨wanted, tells⟩ := told resolved found rfl
  have looked := look_careful held alone
  have careful (step) (hs : step ∈ first) : step.Careful ∧ step.request.stores = false :=
    ⟨(looked step hs).1, (looked step hs).2.stores⟩
  have still (step) (hs : step ∈ first) : step.before = mid ∧ step.after = mid :=
    (alone step hs).2
  -- An entity in custody cannot be overlooked, so what is created here comes in its place.
  cases found with
  | some latest =>
    obtain ⟨rfl, quiet, recorded⟩ := run_settle_some hsettle
    have still' := List.forall_mem_append.mpr ⟨still, fun step hs => (quiet step hs).2⟩
    refine ⟨List.forall_mem_append.mpr ⟨careful, fun step hs => ?_⟩,
      .kept (not_gained still') fun synced h => ?_⟩
    · exact ⟨.of_quiet (quiet step hs).1, (quiet step hs).1.spares.stores⟩
    · rw [recorded synced h o.spec, ← current]
      exact key?_kept (tells.key latest rfl) o.spec
  | none =>
    have missing : mid.entity = none := by
      cases h : mid.entity with
      | none => rfl
      | some e => exact absurd (held e h) (tells.missing rfl e h)
    obtain ⟨answer, later, rfl, quiet, h⟩ := run_settle_none hsettle
    refine ⟨List.forall_mem_append.mpr ⟨careful, List.forall_mem_cons.mpr
      ⟨⟨.of_missing missing, rfl⟩, fun step hs => ?_⟩⟩, ?_⟩
    · exact ⟨.of_quiet (quiet step hs).1, (quiet step hs).1.spares.stores⟩
    have alone' (step) (hs : step ∈ later) : step.before = t ∧ step.after = t :=
      (quiet step hs).2
    rcases h with ⟨rfl, fault, rfl⟩ | ⟨e, gained, recorded, failed⟩
    · refine .kept (not_gained (List.forall_mem_append.mpr ⟨still, ?_⟩)) (by simp)
      exact List.forall_mem_cons.mpr ⟨⟨rfl, rfl⟩, alone'⟩
    · have there : t = { mid with entity := some e } := by
        rw [gained, missing]
        rfl
      subst there
      refine .created missing (fun e' => ?_) (fun synced h => ?_) fun fault h status => ?_
      · exact gained_once still alone' missing rfl
      · rw [← key?_congr wanted]
        exact recorded synced h
      · rw [← key?_congr wanted]
        exact failed fault h status

/-- The key that is stored after a sync: of what it observed, or the old one. -/
def keyAfter (o : kind.Object) : Except Fault (Synced kind.Spec kind.Detail) → Option String
  | .ok synced => kind.key? o.spec synced.object.status
  | .error _ => kind.key? o.spec o.status

theorem asks_storeStatus {key : Option String} (space : String) (spec : kind.Spec)
    (recorded : kind.Object) (known : kind.key? spec recorded.status = key) :
    (kind.storeStatus space recorded).Asks (Request.Records kind spec key) := by
  refine ⟨.inr ⟨_, recorded, rfl, known⟩, fun answer => ?_⟩
  cases answer <;> trivial

def conclude (options : PassOptions) (clock : Clock) (space : String) (o : kind.Object) :
    Except Fault (Synced kind.Spec kind.Detail) → Job Action
  | .ok synced => do
    Plan.when synced.created <| Job.info s!"created {kind.name} for {o.name}"
    kind.storeStatus space (o.recordSync options.region clock synced)
    return .requeue options.resync
  | .error fault =>
    if fault.isTerminal then do
      Job.warn s!"{kind.name} {o.name} needs attention: {fault.message}"
      kind.storeStatus space (o.markFailed clock fault)
      return .awaitChange
    else do
      match ← (kind.storeStatus space (o.markFailed clock fault)).attempt with
      | .ok () => Job.fail fault
      | .error refusal =>
        Job.warn s!"failed to record error on {o.name}: {refusal.message}"
        Job.fail fault

theorem apply_eq (options : PassOptions) (clock : Clock) (space : String) (o : kind.Object) :
    kind.apply options clock space o =
      (kind.manager.sync o).attempt >>= kind.conclude options clock space o := by
  unfold apply
  refine congrArg _ (funext fun result => ?_)
  cases result <;> rfl

theorem asks_conclude (options : PassOptions) (clock : Clock) (space : String) (o : kind.Object)
    (result : Except Fault (Synced kind.Spec kind.Detail)) :
    (kind.conclude options clock space o result).Asks
      (Request.Records kind o.spec (kind.keyAfter o result)) := by
  have note (level : Level) (text : String) {key : Option String} :
      (Job.note level text).Asks (Request.Records kind o.spec key) :=
    (Job.asks_note level text).mono fun _ => .inl
  cases result with
  | ok synced =>
    refine Asks.bind (asks_when (note _ _)) fun _ => Asks.bind ?_ fun _ => trivial
    exact asks_storeStatus _ _ _ (key?_recordSync ..)
  | error fault =>
    refine asks_ite (Asks.bind (note _ _) fun _ => Asks.bind ?_ fun _ => trivial)
      (Asks.bind (Asks.attempt ?_) fun stored => ?_)
    · exact asks_storeStatus _ _ _ (key?_markFailed ..)
    · exact asks_storeStatus _ _ _ (key?_markFailed ..)
    · cases stored with
      | ok _ => trivial
      | error refusal => exact Asks.bind (note _ _) fun _ => trivial

end Kind

/-- Steps in which an entity comes into being, but its key is not stored and was not there before. -/
def Lost (s : Site kind) (spec : kind.Spec) (steps : List (Step world (Site kind))) : Prop :=
  ∃ e, Gained steps e ∧ ¬ Stored steps ∧ kind.key? spec s.status ≠ some (kind.keyOf e)

namespace Kind

/-- An apply keeps the entity in custody unless it loses it, and does nothing careless. -/
theorem apply_careful {options : PassOptions} {clock : Clock} {space : String}
    {outcome : Except Fault Action} (current : o.status = s.status) (held : s.Held o.spec)
    (run : Run Site.Answers s (kind.apply options clock space o) steps outcome t) :
    (∀ step ∈ steps, step.Careful) ∧ (t.Held o.spec ↔ ¬ Lost s o.spec steps) ∧
      (kind.isNamed = true → ¬ Lost s o.spec steps) := by
  rw [apply_eq] at run
  rcases run_bind.mp run with ⟨fault, hsync, -⟩ | ⟨result, mid, first, second, hsync, hrest, rfl⟩
  · obtain ⟨_, -, h⟩ := run_attempt.mp hsync
    cases h
  obtain ⟨result', hsync, h⟩ := run_attempt.mp hsync
  cases h
  have asks := kind.asks_conclude options clock space o result
  obtain ⟨careful, syncs⟩ := sync_careful current held hsync
  obtain ⟨entity, status⟩ := run_records asks hrest
  refine ⟨List.forall_mem_append.mpr ⟨fun step hs => (careful step hs).1, fun step hs =>
    .of_records (hrest.asked asks step hs)⟩, ?_⟩
  -- Entities come into being within the sync only, and statuses are stored only behind it.
  have later (e : Entity) : ¬ Gained second e := by
    intro gained
    obtain ⟨step, hs, creates⟩ := gained.creates hrest
    rw [(hrest.asked asks step hs).creates] at creates
    cases creates
  have unstored : ¬ Stored first := not_stored fun step hs => (careful step hs).2
  unfold Lost
  simp only [gained_append, stored_append, later, unstored, or_false, false_or]
  cases syncs with
  | kept idle recorded =>
    have kept : kind.key? o.spec t.status = kind.key? o.spec s.status := by
      rcases status with ⟨-, known⟩ | ⟨-, same⟩
      · rw [known]
        cases result with
        | ok synced => exact recorded synced rfl
        | error fault => exact congrArg (kind.key? o.spec) current
      · rw [same]
    have unlost : ¬ ∃ e, Gained first e ∧ ¬ Stored second ∧
        kind.key? o.spec s.status ≠ some (kind.keyOf e) := by
      intro h
      obtain ⟨e, gained, -⟩ := h
      exact idle e gained
    refine ⟨iff_of_true (fun e there => ?_) unlost, fun _ => unlost⟩
    rw [kept]
    exact held e (entity.symm.trans there)
  | @created e missing gained recorded failed =>
    have there : t.entity = some e := entity
    have held_iff : t.Held o.spec ↔ kind.key? o.spec t.status = some (kind.keyOf e) := by
      unfold Site.Held
      simp [there]
    have after : kind.keyAfter o result = some (kind.keyOf e) := by
      cases result with
      | ok synced => exact recorded synced rfl
      | error fault => exact failed fault rfl o.status
    simp only [gained, exists_eq_left, held_iff]
    refine ⟨?_, fun named h => h.2 ?_⟩
    · rcases status with ⟨stored, known⟩ | ⟨unstored, same⟩
      · exact iff_of_true (known.trans after) fun h => h.1 stored
      · rw [same]
        simp [unstored]
    · cases result <;> exact (key?_named named ..).trans after

/-- Removing an entity in custody is careful, and when it succeeds there is no entity any more. -/
theorem remove_careful {outcome : Except Fault Unit} (current : o.status = s.status)
    (held : s.Held o.spec) (run : Run Site.Answers s (kind.manager.remove o) steps outcome t) :
    (∀ step ∈ steps, step.Careful ∧ step.request.Spares) ∧
      (outcome = .ok () → t.entity = none) := by
  have read := kind.tracks.read o
  have looked {first : List (Step world (Site kind))} {found : Except Fault (Option kind.Object)}
      {mid : Site kind} (hread : Run Site.Answers s (kind.manager.readOne o) first found mid) :
      mid = s ∧ ∀ step ∈ first, step.Careful ∧ step.request.Spares := by
    obtain ⟨still, alone⟩ := run_seeks read.asks hread
    rw [current] at alone
    exact ⟨still, look_careful held alone⟩
  rcases run_bind.mp run with ⟨fault, hread, rfl⟩ | ⟨found, mid, first, second, hread, hrest, rfl⟩
  · exact ⟨(looked hread).2, by simp⟩
  obtain ⟨rfl, careful⟩ := looked hread
  have tells := read.tells _ _ _ _ hread
  rw [current] at tells
  cases found with
  | none =>
    obtain ⟨rfl, quiet⟩ := Site.run_quiet (Job.asks_note ..) hrest
    refine ⟨List.forall_mem_append.mpr ⟨careful, fun step hs => ?_⟩, fun _ => ?_⟩
    · exact ⟨.of_quiet (quiet step hs).1, (quiet step hs).1.spares⟩
    · cases h : t.entity with
      | none => rfl
      | some e => exact absurd (held e h) (tells.missing rfl e h)
  | some latest =>
    have known := tells.key latest rfl
    cases hkey : kind.key? o.spec mid.status with
    | none =>
      have blind := read.blind (by rw [current]; exact hkey)
      rw [blind] at hread
      cases (run_pure.mp hread).2.1
    | some key =>
      rw [hkey] at known
      have delete := deletes known
      have deletes := hrest.asked delete.asks
      refine ⟨List.forall_mem_append.mpr ⟨careful, fun step hs => ?_⟩, ?_⟩
      · exact ⟨.of_deletes (deletes step hs), Request.Deletes.spares (deletes step hs)⟩
      · intro h
        subst h
        have lost := delete.loses _ _ _ hrest
        rw [lost]
        cases h : mid.entity with
        | none => rfl
        | some e =>
          have same := hkey.symm.trans (held e h)
          simp [(Option.some.inj same).symm]

theorem gone_careful {α : Type} {p : Job α} {outcome : Except Fault α} (gone : s.entity = none)
    (run : Run Site.Answers s p steps outcome t) (asks : p.Asks Request.Spares) :
    t.entity = none ∧ ∀ step ∈ steps, step.Careful ∧ Request.Spares step.request := by
  have spares := run.asked asks
  obtain ⟨-, entity, before⟩ := run_spares run spares
  rw [gone, or_self] at entity
  refine ⟨entity, fun step hs => ⟨.of_missing ?_, spares step hs⟩⟩
  have missing := before step hs
  rw [gone, or_self] at missing
  exact missing

theorem asks_storeFinalizers (space name : String) (fault : ApiFault → Fault)
    (patch : FinalizerPatch) : (kind.storeFinalizers space name fault patch).Asks Request.Spares := by
  refine ⟨⟨rfl, rfl⟩, fun answer => ?_⟩
  cases answer <;> trivial

theorem cleanup_careful {space name : String} {patch : FinalizerPatch}
    {outcome : Except Fault Action} (current : o.status = s.status) (held : s.Held o.spec)
    (run : Run Site.Answers s (do
      let action ← (kind.cleanup o).mapFault .cleanupFailed
      kind.storeFinalizers space name .finalizerNotRemoved patch
      return action) steps outcome t) :
    ∀ step ∈ steps, step.Careful ∧ Request.Spares step.request := by
  have cleaned {first : List (Step world (Site kind))} {result : Except Fault Action}
      {mid : Site kind} (hclean : Run Site.Answers s (kind.cleanup o) first result mid) :
      (∀ step ∈ first, step.Careful ∧ Request.Spares step.request) ∧
        ∀ action, result = .ok action → mid.entity = none := by
    rcases run_bind.mp hclean with
      ⟨fault, hremove, rfl⟩ | ⟨_, mid', _, _, hremove, hnote, rfl⟩
    · exact ⟨(remove_careful current held hremove).1, by simp⟩
    · obtain ⟨careful, gone⟩ := remove_careful current held hremove
      have noted : (Job.info s!"cleaned up {kind.name} {o.name}" >>= fun _ =>
          (pure .awaitChange : Job Action)).Asks Request.Spares :=
        Asks.bind ((Job.asks_note ..).mono fun _ => Request.Quiet.spares) fun _ => trivial
      obtain ⟨still, rest⟩ := gone_careful (gone rfl) hnote noted
      exact ⟨List.forall_mem_append.mpr ⟨careful, rest⟩, fun _ _ => still⟩
  rcases run_bind.mp run with ⟨fault, hclean, -⟩ | ⟨action, mid, first, second, hclean, hdrop, rfl⟩
  · obtain ⟨result, hclean, -⟩ := run_mapFault.mp hclean
    exact (cleaned hclean).1
  · obtain ⟨result, hclean, hresult⟩ := run_mapFault.mp hclean
    obtain ⟨careful, gone⟩ := cleaned hclean
    cases result with
    | error fault => cases hresult
    | ok value =>
      obtain ⟨-, rest⟩ := gone_careful (gone value rfl) hdrop
        ((asks_storeFinalizers ..).bind fun _ => trivial)
      exact List.forall_mem_append.mpr ⟨careful, rest⟩

/-- Whether a pass does something to the entity of an object. -/
def Acts (o : kind.Object) : Prop :=
  o.metadata.space.isSome = true ∧ kind.finalizer ∈ o.metadata.finalizers ∧
    (o.metadata.deletion = none ∨ o.metadata.name.isSome = true)

/-- A pass makes no call and drops no finalizer, or it applies the object, or it cleans up behind it. -/
theorem pass_cases (options : PassOptions) (clock : Clock) (o : kind.Object) :
    (¬ Acts o ∧ (kind.pass options clock o).Asks (Request.Idle o.metadata.deletion.isSome)) ∨
    (∃ text space, (Acts o ∧ o.metadata.deletion = none) ∧ kind.pass options clock o =
      Job.debug text >>= fun _ => (kind.apply options clock space o).mapFault .applyFailed) ∨
    ∃ text space name index, (Acts o ∧ o.metadata.deletion.isSome = true) ∧
      kind.pass options clock o = Job.debug text >>= fun _ => do
        let action ← (kind.cleanup o).mapFault .cleanupFailed
        kind.storeFinalizers space name .finalizerNotRemoved (.drop index kind.finalizer)
        return action := by
  have noted (text : String) (leaving : Bool) :
      (Job.debug text).Asks (Request.Idle leaving) := ⟨trivial, fun _ => trivial⟩
  unfold pass Object.spaceOf Object.nameOf Acts
  cases hs : o.metadata.space with
  | none => exact .inl ⟨by simp, trivial⟩
  | some space =>
    simp only [ofExcept_ok_bind]
    cases hi : o.metadata.finalizers.idxOf? kind.finalizer with
    | none =>
      have absent : kind.finalizer ∉ o.metadata.finalizers := List.idxOf?_eq_none_iff.mp hi
      refine .inl ⟨fun h => absent h.2.1, Asks.bind (noted ..) fun _ => ?_⟩
      cases hd : o.metadata.deletion with
      | some time => trivial
      | none =>
        cases hn : o.metadata.name with
        | none => trivial
        | some name =>
          refine Asks.bind trivial fun name => Asks.bind ⟨?_, fun answer => ?_⟩ fun _ => trivial
          · unfold addFinalizer
            split <;> rfl
          · cases answer <;> trivial
    | some index =>
      have present : kind.finalizer ∈ o.metadata.finalizers := by
        rw [← List.isSome_idxOf?, hi]
        rfl
      cases hd : o.metadata.deletion with
      | none => exact .inr (.inl ⟨_, space, ⟨⟨rfl, present, .inl rfl⟩, rfl⟩, rfl⟩)
      | some time =>
        cases hn : o.metadata.name with
        | none => exact .inl ⟨by simp, Asks.bind (noted ..) fun _ => trivial⟩
        | some name =>
          exact .inr (.inr ⟨_, space, name, index, ⟨⟨rfl, present, .inr rfl⟩, rfl⟩, rfl⟩)

theorem lost_noted {level : Level} {text : String} {spec : kind.Spec} :
    Lost s spec (⟨s, Request.note level text, (), s⟩ :: steps) ↔ Lost s spec steps := by
  let note : Step world (Site kind) := ⟨s, Request.note level text, (), s⟩
  have idle (e : Entity) : ¬ Gained [note] e := not_gained (s := s) (by simp [note]) e
  have unstored : ¬ Stored [note] := not_stored (by simp [note, Request.stores])
  change Lost s spec ([note] ++ steps) ↔ Lost s spec steps
  unfold Lost
  simp only [gained_append, stored_append, idle, unstored, false_or]

theorem not_lost_of_spares {α : Type} {p : Job α} {outcome : Except Fault α} (spec : kind.Spec)
    (run : Run Site.Answers s p steps outcome t)
    (spares : ∀ step ∈ steps, Request.Spares step.request) : ¬ Lost s spec steps := by
  intro h
  obtain ⟨e, gained, -⟩ := h
  obtain ⟨step, hs, creates⟩ := gained.creates run
  rw [(spares step hs).creates] at creates
  cases creates

theorem held_of_spares {α : Type} {p : Job α} {outcome : Except Fault α} {spec : kind.Spec}
    (held : s.Held spec) (run : Run Site.Answers s p steps outcome t)
    (spares : ∀ step ∈ steps, Request.Spares step.request) : t.Held spec := by
  obtain ⟨status, entity, -⟩ := run_spares run spares
  intro e there
  rw [status]
  rcases entity with same | gone
  · exact held e (same.symm.trans there)
  · rw [gone] at there
    cases there

theorem kept_of_spares {α : Type} {p : Job α} {outcome : Except Fault α} {spec : kind.Spec}
    (held : s.Held spec) (run : Run Site.Answers s p steps outcome t)
    (spares : ∀ step ∈ steps, Request.Spares step.request) :
    (t.Held spec ↔ ¬ Lost s spec steps) ∧ (kind.isNamed = true → ¬ Lost s spec steps) := by
  have unlost := not_lost_of_spares spec run spares
  exact ⟨iff_of_true (held_of_spares held run spares) unlost, fun _ => unlost⟩

/-- A pass over an object whose entity is in custody does nothing careless, and keeps the entity in custody
unless it loses it. -/
theorem pass_careful {options : PassOptions} {clock : Clock} {outcome : Except Fault Action}
    (current : o.status = s.status) (held : s.Held o.spec)
    (run : Run Site.Answers s (kind.pass options clock o) steps outcome t) :
    (∀ step ∈ steps, step.Careful) ∧ (t.Held o.spec ↔ ¬ Lost s o.spec steps) ∧
      (kind.isNamed = true → ¬ Lost s o.spec steps) := by
  rcases kind.pass_cases options clock o with
    ⟨-, idle⟩ | ⟨text, space, -, eq⟩ | ⟨text, space, name, index, -, eq⟩
  · have asked := run.asked (idle.mono fun _ => Request.Idle.quiet)
    have kept := kept_of_spares held run fun step hs => Request.Quiet.spares (asked step hs)
    exact ⟨fun step hs => .of_quiet (asked step hs), kept⟩
  · rw [eq] at run
    obtain ⟨later, rfl, hrest⟩ := Site.run_noted run
    obtain ⟨_, happly, -⟩ := run_mapFault.mp hrest
    obtain ⟨careful, kept⟩ := apply_careful current held happly
    rw [lost_noted]
    exact ⟨List.forall_mem_cons.mpr ⟨.of_quiet rfl, careful⟩, kept⟩
  · rw [eq] at run
    obtain ⟨later, rfl, hrest⟩ := Site.run_noted run
    have each := cleanup_careful current held hrest
    have kept := kept_of_spares held hrest fun step hs => (each step hs).2
    rw [lost_noted]
    exact ⟨List.forall_mem_cons.mpr ⟨.of_quiet rfl, fun step hs => (each step hs).1⟩, kept⟩

end Kind

end IamKeeper
