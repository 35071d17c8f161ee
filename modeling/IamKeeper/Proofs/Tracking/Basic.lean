import IamKeeper.Proofs.Sync
import IamKeeper.Proofs.Tending

namespace IamKeeper

open Iam
open Plan hiding bind_assoc

variable {kind : Kind}

/-- A request that leaves the site of an object alone, or looks an entity up by a key that is known. -/
def Request.Seeks (kind : Kind) (known : Option String) (r : Request) : Prop :=
  r.Quiet ∨ ∃ key, known = some key ∧ r = .iam (kind.lookup key)

/-- A request that leaves the site of an object alone, or deletes an entity. -/
def Request.Deletes (r : Request) : Prop :=
  r.Quiet ∨ r.destroys = true

/-- What a read that succeeds tells of the entity with a key, if one is known. -/
structure Site.Tells (s : Site kind) (known : Option String) (found : Option kind.Object) : Prop where
  missing : found = none → ∀ e, s.entity = some e → known ≠ some (kind.keyOf e)
  key : ∀ latest, found = some latest → kind.key? latest.spec latest.status = known
  name : ∀ latest, found = some latest → ∀ e, s.entity = some e → known = some (kind.keyOf e) →
    ∀ name, kind.nameIn? latest.spec = some name → name = e.name

/-- A plan that looks an entity up by its key, if one is known, and by nothing else. -/
structure Seeks (kind : Kind) (known : Option String) (p : Job (Option kind.Object)) : Prop where
  asks : p.Asks (Request.Seeks kind known)
  blind : known = none → p = pure none
  first : ∀ key, known = some key → ∃ next, p = .ask (Request.iam (kind.lookup key)) next
  tells : ∀ (s t : Site kind) (steps : List (Step world (Site kind))) (found : Option kind.Object),
    Run Site.Answers s p steps (.ok found) t → s.Tells known found

/-- A plan that creates the entity of an object, and then changes none but the one it is told of. -/
def Builds (kind : Kind) (o : kind.Object) (p : Job kind.Object) : Prop :=
  ∃ rest, p = Job.iam (kind.creation o.spec) >>= rest ∧
    ∀ result, (rest result).Asks (Request.Tends ((kind.creation o.spec).made? result))

/-- A plan that first creates the entity of an object and then leaves it alone. When it succeeds, it has the
key of what was created; when it fails after all, every status tells that key. -/
structure Creates (kind : Kind) (o : kind.Object) (p : Job kind.Object) : Prop where
  builds : Builds kind o p
  course : ∀ (s t : Site kind) (steps : List (Step world (Site kind))) (outcome : Except Fault kind.Object),
    Run Site.Answers s p steps outcome t →
    ∃ answer later, steps = ⟨s, .iam (kind.creation o.spec), answer, t⟩ :: later ∧
      (∀ step ∈ later, step.request.Quiet ∧ step.before = t ∧ step.after = t) ∧
      ((t = s ∧ ∃ fault, outcome = .error fault) ∨ ∃ e, s.Gains e t ∧
        (∀ observed, outcome = .ok observed →
          kind.key? o.spec observed.status = some (kind.keyOf e)) ∧
        ∀ fault, outcome = .error fault → ∀ status, kind.key? o.spec status = some (kind.keyOf e))

structure Deletes (kind : Kind) (key : String) (p : Job Unit) : Prop where
  asks : p.Asks Request.Deletes
  loses : ∀ (s t : Site kind) (steps : List (Step world (Site kind))),
    Run Site.Answers s p steps (.ok ()) t → s.Loses kind.keyOf key t

structure Tracks (kind : Kind) : Prop where
  read (o : kind.Object) : Seeks kind (kind.key? o.spec o.status) (kind.manager.readOne o)
  create (o : kind.Object) : Creates kind o (kind.manager.create o)
  change_tends (desired latest : kind.Object) (delta : Delta) :
    (kind.manager.change desired latest delta).Asks
      (Request.Tends ((kind.key? latest.spec latest.status).map kind.owner))
  change_yields (desired latest : kind.Object) (delta : Delta) :
    (kind.manager.change desired latest delta).Yields fun observed => ∀ spec,
      kind.key? spec observed.status = kind.key? spec latest.status

namespace Kind

/-- Specs that give one name have one key beside a status. -/
theorem key?_congr {a b : kind.Spec} (same : kind.nameIn? a = kind.nameIn? b)
    (status : Option (Status kind.Detail)) : kind.key? a status = kind.key? b status := by
  cases kind <;> first | rfl | exact same

/-- Statuses that tell one key beside some specs tell one beside each. -/
theorem key?_kept {a b : kind.Spec} {status status' : Option (Status kind.Detail)}
    (same : kind.key? a status = kind.key? b status') (spec : kind.Spec) :
    kind.key? spec status = kind.key? spec status' := by
  cases h : kind.isNamed with
  | true => exact key?_named h spec _ _
  | false => rw [key?_unnamed h spec a, key?_unnamed h spec b, same]

theorem key?_eq_nameIn? (named : kind.isNamed = true) (spec : kind.Spec)
    (status : Option (Status kind.Detail)) : kind.key? spec status = kind.nameIn? spec := by
  cases kind <;> first | rfl | cases named

theorem keyOf_named (named : kind.isNamed = true) (e : Entity) : kind.keyOf e = e.name := by
  cases kind <;> first | rfl | cases named

theorem nameIn?_filled (spec : kind.Spec) (values : List String) :
    kind.nameIn? (kind.filled spec values) = kind.nameIn? spec := by
  cases kind <;> rfl

/-- Resolving references leaves the status and the name of an object as they are. -/
theorem resolve_yields (o : kind.Object) : (kind.manager.resolve o).Yields fun resolved =>
    resolved.object.status = o.status ∧ kind.nameIn? resolved.object.spec = kind.nameIn? o.spec := by
  rw [resolve_eq]
  refine Resolution.yields_refuse (yields_ite ⟨rfl, rfl⟩ ?_)
  unfold takeAll
  cases o.metadata.space with
  | none => trivial
  | some space => exact yields_bind fun values => ⟨rfl, nameIn?_filled ..⟩

end Kind

namespace Site.Tells

variable {s t : Site kind} {key : String} {latest : kind.Object}

theorem of_none {α : Type} {fits : α → Prop} {tells : α → Entity → Prop}
    (finds : s.Finds kind.keyOf key none fits tells t) : s.Tells (some key) none where
  missing := by
    intro _ e there same
    exact finds.not_none there (Option.some.inj same).symm
  key := by
    intro _ h
    cases h
  name := by
    intro _ h
    cases h

theorem of_named (named : kind.isNamed = true) (same : kind.nameIn? latest.spec = some key) :
    s.Tells (some key) (some latest) where
  missing := by
    intro h
    cases h
  key := by
    intro _ h
    cases h
    exact (Kind.key?_eq_nameIn? named ..).trans same
  name := by
    intro _ h e there known name given
    cases h
    cases same.symm.trans given
    rw [Kind.keyOf_named named] at known
    exact Option.some.inj known

theorem of_recorded (same : kind.key? latest.spec latest.status = some key)
    (name : ∀ e, s.entity = some e → kind.keyOf e = key →
      ∀ name, kind.nameIn? latest.spec = some name → name = e.name) :
    s.Tells (some key) (some latest) where
  missing := by
    intro h
    cases h
  key := by
    intro _ h
    cases h
    exact same
  name := by
    intro _ h e there known
    cases h
    exact name e there (Option.some.inj known).symm

end Site.Tells

namespace Seeks

theorem of_unknown : Seeks kind none (pure none) where
  asks := trivial
  blind _ := rfl
  first := by
    intro _ h
    cases h
  tells := by
    intro s t steps found run
    cases (run_pure.mp run).2.1
    exact ⟨by simp, by simp, by simp⟩

theorem of_known {key : String} {rest : (kind.lookup key).Result → Job (Option kind.Object)}
    (quiet : ∀ result, (rest result).Asks Request.Quiet)
    (tells : ∀ (s t : Site kind) result, s.Does (kind.lookup key) result t →
      (rest result).Yields (s.Tells (some key))) :
    Seeks kind (some key) (Job.iam (kind.lookup key) >>= rest) where
  asks := Asks.bind ⟨.inr ⟨key, rfl, rfl⟩, fun _ => trivial⟩ fun result =>
    (quiet result).mono fun _ => .inl
  blind := by
    intro h
    cases h
  first := by
    intro _ h
    cases h
    exact ⟨_, rfl⟩
  tells := by
    intro s t steps found run
    rcases Site.run_call run with ⟨_, -, h, -⟩ | ⟨result, mid, later, does, hrest, -⟩
    · cases h
    · exact hrest.yielded (tells s mid result does)

end Seeks

namespace Creates

/-- Whatever follows the creation of a named entity, its key is known. -/
theorem of_named {o : kind.Object} {p : Job kind.Object} (builds : Builds kind o p)
    (gains : ∀ (s t : Site kind) result, s.Does (kind.creation o.spec) result t →
      ∃ e, s.Gains e t ∧ ∀ status, kind.key? o.spec status = some (kind.keyOf e)) :
    Creates kind o p := by
  refine ⟨builds, ?_⟩
  intro s t steps outcome run
  obtain ⟨rest, rfl, tends⟩ := builds
  rcases Site.run_call run with ⟨fault, rfl, rfl, rfl⟩ | ⟨result, mid, later, does, hrest, rfl⟩
  · exact ⟨_, [], rfl, by simp, .inl ⟨rfl, fault, rfl⟩⟩
  · obtain ⟨rfl, alone⟩ := Site.run_quiet ((tends result).mono fun _ => Request.Tends.quiet) hrest
    obtain ⟨e, gained, known⟩ := gains s _ result does
    exact ⟨_, later, rfl, alone, .inr ⟨e, gained, fun _ _ => known _, fun _ _ => known⟩⟩

/-- A key that only IAM tells is known as soon as the creation succeeds, since nothing can fail then. -/
theorem of_recorded {o : kind.Object} {text : (kind.creation o.spec).Result → String}
    {observed : (kind.creation o.spec).Result → kind.Object}
    (gains : ∀ (s t : Site kind) result, s.Does (kind.creation o.spec) result t →
      ∃ e, s.Gains e t ∧ kind.key? o.spec (observed result).status = some (kind.keyOf e)) :
    Creates kind o (Job.iam (kind.creation o.spec) >>= fun result =>
      Job.info (text result) >>= fun _ => pure (observed result)) := by
  refine ⟨⟨_, rfl, fun _ => Asks.bind (Job.tends_note _ _) fun _ => trivial⟩, ?_⟩
  intro s t steps outcome run
  rcases Site.run_call run with ⟨fault, rfl, rfl, rfl⟩ | ⟨result, mid, later, does, hrest, rfl⟩
  · exact ⟨_, [], rfl, by simp, .inl ⟨rfl, fault, rfl⟩⟩
  · have noted : (Job.info (text result) >>= fun _ =>
        (pure (observed result) : Job kind.Object)).Asks Request.Quiet :=
      Asks.bind (Job.asks_note _ _) fun _ => trivial
    obtain ⟨rfl, alone⟩ := Site.run_quiet noted hrest
    obtain ⟨e, gained, known⟩ := gains s _ result does
    obtain ⟨_, _, _, -, hdone, -⟩ := run_ask.mp hrest
    obtain ⟨-, rfl, -⟩ := run_done.mp hdone
    refine ⟨_, later, rfl, alone, .inr ⟨e, gained, ?_, ?_⟩⟩
    · intro _ h
      cases h
      exact known
    · intro _ h
      cases h

end Creates

namespace Deletes

theorem of_call {key : String} {call : Call} {text : call.Result → String}
    (isDelete : call.isDelete = true)
    (loses : ∀ (s t : Site kind) result, s.Does call result t → s.Loses kind.keyOf key t) :
    Deletes kind key (Job.iam call >>= fun result => Job.info (text result)) where
  asks := Asks.bind ⟨.inr isDelete, fun _ => trivial⟩ fun _ =>
    (Job.asks_note ..).mono fun _ => .inl
  loses := by
    intro s t steps run
    rcases Site.run_call run with ⟨_, -, h, -⟩ | ⟨result, mid, later, does, hrest, -⟩
    · cases h
    · obtain ⟨rfl, -⟩ := Site.run_quiet (Job.asks_note ..) hrest
      exact loses s _ result does

theorem after_tending {α : Type} {key : String} {known : Option Owner} {p : Job α} {f : α → Job Unit}
    (tends : p.Asks (Request.Tends known)) (h : ∀ value, Deletes kind key (f value)) :
    Deletes kind key (p >>= f) where
  asks := (tends.mono fun _ tending => .inl tending.quiet).bind fun value => (h value).asks
  loses := by
    intro s t steps run
    have quiet : p.Asks Request.Quiet := tends.mono fun _ => Request.Tends.quiet
    obtain ⟨value, mid, first, second, hfirst, hsecond, -⟩ := run_bind_ok.mp run
    obtain ⟨rfl, -⟩ := Site.run_quiet quiet hfirst
    exact (h value).loses _ _ _ hsecond

end Deletes

/-- An entity whose key is known is gone once it has been deleted. -/
theorem Kind.deletes {latest : kind.Object} {key : String}
    (known : kind.key? latest.spec latest.status = some key) :
    Deletes kind key (kind.manager.delete latest) := by
  have isDelete : (kind.deletion key).isDelete = true := by cases kind <;> rfl
  have loses (s t : Site kind) (result : (kind.deletion key).Result)
      (does : s.Does (kind.deletion key) result t) : s.Loses kind.keyOf key t := by
    cases kind <;> exact does
  obtain ⟨text, eq⟩ := kind.delete_eq latest
  rw [eq, known]
  exact .after_tending (kind.tends_clear key latest) fun _ => .of_call isDelete loses

end IamKeeper
