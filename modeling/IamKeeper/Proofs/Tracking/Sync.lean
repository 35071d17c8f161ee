import IamKeeper.Proofs.Tracking.Named
import IamKeeper.Proofs.Tracking.Recorded

namespace IamKeeper

open Plan hiding bind_assoc

theorem Kind.tracks : (kind : Kind) → Tracks kind
  | role => RoleManager.tracks
  | policy => PolicyManager.tracks
  | group => GroupManager.tracks
  | user => UserManager.tracks
  | instanceProfile => InstanceProfileManager.tracks
  | oidcProvider => OidcProviderManager.tracks
  | samlProvider => SamlProviderManager.tracks
  | serviceLinkedRole => ServiceLinkedRoleManager.tracks

theorem Request.Seeks.spares {kind : Kind} {known : Option String} {r : Request}
    (seeks : r.Seeks kind known) : r.Spares := by
  rcases seeks with quiet | ⟨key, -, rfl⟩
  · exact quiet.spares
  · cases kind <;> exact ⟨rfl, rfl⟩

namespace Kind

variable {kind : Kind} {s t : Site kind} {o latest : kind.Object}
  {steps : List (Step world (Site kind))}

theorem resolve_recorded (recorded : kind.isNamed = false) (o : kind.Object) :
    kind.manager.resolve o = pure ⟨o, false⟩ := by
  cases kind <;> first | rfl | cases recorded

theorem key?_resolved {resolved : Resolved kind.Spec kind.Detail}
    (same : resolved.object.status = o.status ∧
      kind.nameIn? resolved.object.spec = kind.nameIn? o.spec) :
    kind.key? resolved.object.spec resolved.object.status = kind.key? o.spec o.status := by
  rw [same.1]
  exact key?_congr same.2 _

theorem asks_look (o : kind.Object) :
    (kind.manager.look o).Asks (Request.Seeks kind (kind.key? o.spec o.status)) := by
  refine (resolve_yields o).asks
    ((asks_resolve o).mono fun _ refers => .inl refers.quiet) fun resolved same => ?_
  rw [← key?_resolved same]
  exact (kind.tracks.read resolved.object).asks.bind fun _ => trivial

theorem run_seeks {α : Type} {known : Option String} {p : Job α} {outcome : Except Fault α}
    (seeks : p.Asks (Request.Seeks kind known)) (run : Run Site.Answers s p steps outcome t) :
    t = s ∧ ∀ step ∈ steps,
      step.request.Seeks kind known ∧ step.before = s ∧ step.after = s := by
  have still (s : Site kind) (r : Request) (answer : r.Answer) (t : Site kind)
      (seek : r.Seeks kind known) (answered : s.Answers r answer t) : t = s := by
    rcases seek with quiet | ⟨key, -, rfl⟩
    · exact answered.quiet quiet
    · exact answered.lookup
  have asked := run.asked seeks
  have alone := run.steps_eq seeks still
  exact ⟨run.state_eq seeks still, fun step hs => ⟨asked step hs, alone step hs⟩⟩

/-- Looking for the entity leaves the site alone, and tells what there is. -/
theorem run_look {outcome : Except Fault (Resolved kind.Spec kind.Detail × Option kind.Object)}
    (run : Run Site.Answers s (kind.manager.look o) steps outcome t) :
    t = s ∧ (∀ step ∈ steps, step.request.Seeks kind (kind.key? o.spec o.status) ∧
        step.before = s ∧ step.after = s) ∧
      ∀ resolved found, outcome = .ok (resolved, found) →
        kind.nameIn? resolved.object.spec = kind.nameIn? o.spec ∧
          s.Tells (kind.key? o.spec o.status) found := by
  obtain ⟨still, alone⟩ := run_seeks (asks_look o) run
  refine ⟨still, alone, ?_⟩
  intro resolved found hfound
  subst hfound
  obtain ⟨_, mid, first, second, hresolve, hrest, -⟩ := run_bind_ok.mp run
  obtain ⟨_, _, _, _, hread, hdone, -⟩ := run_bind_ok.mp hrest
  cases (run_pure.mp hdone).2.1
  have same := hresolve.yielded (resolve_yields o)
  obtain ⟨rfl, -⟩ := Site.run_quiet ((asks_resolve o).mono fun _ => Request.Refers.quiet) hresolve
  have tells := (kind.tracks.read resolved.object).tells _ _ _ _ hread
  rw [key?_resolved same] at tells
  exact ⟨same.2, tells⟩

/-- Where there is no entity to be found, a sync creates it before anything else. -/
theorem run_settle_none {resolved : Resolved kind.Spec kind.Detail}
    {outcome : Except Fault (Synced kind.Spec kind.Detail)}
    (run : Run Site.Answers s (kind.manager.settle o resolved none) steps outcome t) :
    ∃ answer later,
      steps = ⟨s, .iam (kind.creation resolved.object.spec), answer, t⟩ :: later ∧
      (∀ step ∈ later, step.request.Quiet ∧ step.before = t ∧ step.after = t) ∧
      ((t = s ∧ ∃ fault, outcome = .error fault) ∨ ∃ e, s.Gains e t ∧
        (∀ synced, outcome = .ok synced →
          kind.key? resolved.object.spec synced.object.status = some (kind.keyOf e)) ∧
        ∀ fault, outcome = .error fault → ∀ status,
          kind.key? resolved.object.spec status = some (kind.keyOf e)) := by
  have create := (kind.tracks.create resolved.object).course
  rcases run_bind.mp run with ⟨fault, hcreate, rfl⟩ | ⟨observed, mid, first, second, hcreate, hdone, rfl⟩
  · obtain ⟨answer, later, hsteps, quiet, h⟩ := create _ _ _ _ hcreate
    refine ⟨answer, later, hsteps, quiet, ?_⟩
    rcases h with ⟨rfl, -⟩ | ⟨e, gained, -, failed⟩
    · exact .inl ⟨rfl, fault, rfl⟩
    · exact .inr ⟨e, gained, by simp, fun _ _ => failed fault rfl⟩
  · obtain ⟨rfl, rfl, rfl⟩ := run_pure.mp hdone
    obtain ⟨answer, later, hsteps, quiet, h⟩ := create _ _ _ _ hcreate
    rw [List.append_nil]
    refine ⟨answer, later, hsteps, quiet, ?_⟩
    rcases h with ⟨-, _, h⟩ | ⟨e, gained, known, -⟩
    · cases h
    · refine .inr ⟨e, gained, ?_, by simp⟩
      intro _ h
      cases h
      exact known observed rfl

theorem update_keeps (desired latest : kind.Object) (delta : Delta) :
    (kind.manager.update desired latest delta).Yields fun observed => ∀ spec,
      kind.key? spec observed.status = kind.key? spec latest.status :=
  yields_bind fun _ => kind.tracks.change_yields ..

/-- Where the entity is found, its key stays. -/
theorem settle_keeps (o latest : kind.Object) (resolved : Resolved kind.Spec kind.Detail) :
    (kind.manager.settle o resolved (some latest)).Yields fun synced => ∀ spec,
      kind.key? spec synced.object.status = kind.key? spec latest.status := by
  refine yields_ite (yields_bind fun _ => yields_pure fun _ => rfl) ?_
  exact (update_keeps ..).bind fun observed h => yields_pure h

theorem run_settle_some {resolved : Resolved kind.Spec kind.Detail}
    {outcome : Except Fault (Synced kind.Spec kind.Detail)}
    (run : Run Site.Answers s (kind.manager.settle o resolved (some latest)) steps outcome t) :
    t = s ∧ (∀ step ∈ steps, step.request.Quiet ∧ step.before = s ∧ step.after = s) ∧
      ∀ synced, outcome = .ok synced → ∀ spec,
        kind.key? spec synced.object.status = kind.key? spec latest.status := by
  have quiet : (kind.manager.settle o resolved (some latest)).Asks Request.Quiet := by
    refine asks_ite (Asks.bind (Job.asks_note _ _) fun _ => trivial) ?_
    refine Asks.bind (Asks.bind trivial fun _ => ?_) fun _ => trivial
    exact (kind.tracks.change_tends ..).mono fun _ => Request.Tends.quiet
  obtain ⟨still, alone⟩ := Site.run_quiet quiet run
  refine ⟨still, alone, ?_⟩
  intro synced hsynced
  subst hsynced
  exact run.yielded (settle_keeps o latest resolved)

end Kind

end IamKeeper
