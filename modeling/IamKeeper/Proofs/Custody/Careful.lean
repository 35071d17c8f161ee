import IamKeeper.Proofs.Tracking.Sync

namespace IamKeeper

open Plan hiding bind_assoc

variable {kind : Kind} {s t : Site kind} {steps : List (Step world (Site kind))}

/-- A step that creates no second entity, drops no finalizer while the entity is there, and looks for no
other entity than the one that is there. -/
structure Step.Careful (step : Step world (Site kind)) : Prop where
  create : step.request.creates = true → step.before.entity = none
  release : step.request.releases = true → step.before.entity = none
  lookup : ∀ key, step.request = Request.iam (kind.lookup key) →
    ∀ e, step.before.entity = some e → key = kind.keyOf e

/-- Whether a request was answered by storing a status. -/
def Request.isStored : (r : Request) → r.Answer → Bool
  | .patchStatus _ _, .ok _ => true
  | _, _ => false

def Step.stored (step : Step world (Site kind)) : Bool :=
  step.request.isStored step.answer

/-- Steps in which an entity comes into being. -/
def Gained (steps : List (Step world (Site kind))) (e : Entity) : Prop :=
  ∃ step ∈ steps, step.before.entity = none ∧ step.after.entity = some e

def Stored (steps : List (Step world (Site kind))) : Prop :=
  ∃ step ∈ steps, step.stored = true

theorem lookup_injective {a b : String}
    (same : Request.iam (kind.lookup a) = Request.iam (kind.lookup b)) : a = b := by
  cases kind <;> cases same <;> rfl

theorem Step.Careful.of_idle {step : Step world (Site kind)} (creates : step.request.creates = false)
    (releases : step.request.releases = false) (looks : step.request.looks = false) :
    step.Careful where
  create h := by
    rw [creates] at h
    cases h
  release h := by
    rw [releases] at h
    cases h
  lookup key same := by
    rw [same] at looks
    cases kind <;> cases looks

theorem Step.Careful.of_quiet {step : Step world (Site kind)} (quiet : step.request.Quiet) :
    step.Careful :=
  .of_idle quiet.spares.creates quiet.parts.2.1 quiet.parts.2.2

theorem Step.Careful.of_deletes {step : Step world (Site kind)} (deletes : step.request.Deletes) :
    step.Careful := by
  rcases deletes with quiet | destroys
  · exact .of_quiet quiet
  · obtain ⟨before, request, answer, after⟩ := step
    cases request with
    | iam call => cases call <;> first | exact .of_idle rfl rfl rfl | cases destroys
    | _ => cases destroys

theorem Step.Careful.of_seeks {step : Step world (Site kind)} {known : Option String}
    (seeks : step.request.Seeks kind known)
    (held : ∀ e, step.before.entity = some e → known = some (kind.keyOf e)) : step.Careful := by
  rcases seeks with quiet | ⟨key, hkey, same⟩
  · exact .of_quiet quiet
  · refine ⟨?_, ?_, ?_⟩
    · intro creates
      rw [same] at creates
      cases kind <;> cases creates
    · intro releases
      rw [same] at releases
      cases releases
    · intro key' same' e there
      cases lookup_injective (same.symm.trans same')
      exact Option.some.inj (hkey.symm.trans (held e there))

theorem Step.Careful.of_missing {step : Step world (Site kind)}
    (missing : step.before.entity = none) : step.Careful where
  create _ := missing
  release _ := missing
  lookup _ _ e there := by
    rw [missing] at there
    cases there

theorem gained_append {first second : List (Step world (Site kind))} {e : Entity} :
    Gained (first ++ second) e ↔ Gained first e ∨ Gained second e := by
  unfold Gained
  simp only [List.mem_append, or_and_right, exists_or]

theorem stored_append {first second : List (Step world (Site kind))} :
    Stored (first ++ second) ↔ Stored first ∨ Stored second := by
  unfold Stored
  simp only [List.mem_append, or_and_right, exists_or]

theorem Step.stores_of_stored {step : Step world (Site kind)} (stored : step.stored = true) :
    step.request.stores = true := by
  obtain ⟨before, request, answer, after⟩ := step
  cases request with
  | patchStatus => rfl
  | iam | policy | role | patchFinalizers | note => cases stored

theorem not_stored (h : ∀ step ∈ steps, step.request.stores = false) : ¬ Stored steps := by
  intro h
  obtain ⟨step, hs, stored⟩ := h
  have stores := step.stores_of_stored stored
  rw [h step hs] at stores
  cases stores

theorem Gained.creates {α : Type} {outcome : Except Fault α} {p : Job α} {e : Entity}
    (run : Run Site.Answers s p steps outcome t) (gained : Gained steps e) :
    ∃ step ∈ steps, step.request.creates = true := by
  obtain ⟨step, hs, missing, there⟩ := gained
  refine ⟨step, hs, ?_⟩
  cases h : step.request.creates with
  | true => rfl
  | false =>
    have answered : Site.Answers step.before step.request step.answer step.after :=
      run.answered step hs
    rcases answered.entity h with same | gone
    · rw [missing, there] at same
      cases same
    · rw [there] at gone
      cases gone

/-- A request that leaves the site of an object alone, or stores a status with a key. -/
def Request.Records (kind : Kind) (spec : kind.Spec) (key : Option String) (r : Request) : Prop :=
  r.Quiet ∨ ∃ path, ∃ o : kind.Object, r = .patchStatus path (kind.statusPatch o) ∧
    kind.key? spec o.status = key

theorem Step.Careful.of_records {step : Step world (Site kind)} {spec : kind.Spec}
    {key : Option String} (records : step.request.Records kind spec key) : step.Careful := by
  obtain ⟨before, request, answer, after⟩ := step
  rcases records with quiet | ⟨path, o, rfl, -⟩
  · exact .of_quiet quiet
  · exact .of_idle rfl rfl rfl

theorem Request.Records.answered {spec : kind.Spec} {key : Option String} {r : Request}
    {answer : r.Answer} (records : r.Records kind spec key) (answered : s.Answers r answer t) :
    t.entity = s.entity ∧ ((r.isStored answer = true ∧ kind.key? spec t.status = key) ∨
      (r.isStored answer = false ∧ t.status = s.status)) := by
  rcases records with quiet | ⟨path, o, rfl, hkey⟩
  · cases answered.quiet quiet
    refine ⟨rfl, .inr ⟨?_, rfl⟩⟩
    cases r with
    | patchStatus => cases quiet
    | iam | policy | role | patchFinalizers | note => rfl
  · cases answer with
    | error fault =>
      cases answered
      exact ⟨rfl, .inr ⟨rfl, rfl⟩⟩
    | ok _ =>
      obtain ⟨o', same, rfl⟩ := answered
      exact ⟨rfl, .inl ⟨rfl, (Kind.key?_of_statusPatch same spec).trans hkey⟩⟩

/-- Afterwards the stored key is the given one if a status was stored, and the old one otherwise. -/
theorem run_records {α : Type} {spec : kind.Spec} {key : Option String} {p : Job α}
    {outcome : Except Fault α} (asks : p.Asks (Request.Records kind spec key))
    (run : Run Site.Answers s p steps outcome t) :
    t.entity = s.entity ∧ ((Stored steps ∧ kind.key? spec t.status = key) ∨
      (¬ Stored steps ∧ t.status = s.status)) := by
  induction run with
  | done => exact ⟨rfl, .inr ⟨not_stored (by simp), rfl⟩⟩
  | ask answered rest ih =>
    obtain ⟨entity, h⟩ := ih (asks.2 _)
    obtain ⟨entity', h'⟩ := asks.1.answered answered
    refine ⟨entity.trans entity', ?_⟩
    rcases h with ⟨⟨step, hs, stored⟩, known⟩ | ⟨unstored, same⟩
    · exact .inl ⟨⟨step, List.mem_cons_of_mem _ hs, stored⟩, known⟩
    rcases h' with ⟨stored, known⟩ | ⟨unstored', same'⟩
    · refine .inl ⟨⟨_, List.mem_cons_self .., stored⟩, ?_⟩
      rw [same]
      exact known
    · refine .inr ⟨?_, same.trans same'⟩
      intro h
      obtain ⟨step, hs, stored⟩ := h
      rcases List.mem_cons.mp hs with rfl | hs
      · cases unstored'.symm.trans stored
      · exact unstored ⟨step, hs, stored⟩

theorem Request.Records.creates {spec : kind.Spec} {key : Option String} {r : Request}
    (records : r.Records kind spec key) : r.creates = false := by
  rcases records with quiet | ⟨path, o, rfl, -⟩
  · exact quiet.spares.creates
  · rfl

theorem Request.Deletes.spares {r : Request} (deletes : r.Deletes) : r.Spares := by
  rcases deletes with quiet | destroys
  · exact quiet.spares
  · cases r with
    | iam call => cases call <;> first | exact ⟨rfl, rfl⟩ | cases destroys
    | _ => cases destroys

/-- Where nothing is created and nothing stored, the entity stays or goes, once and for all. -/
theorem run_spares {α : Type} {p : Job α} {outcome : Except Fault α}
    (run : Run Site.Answers s p steps outcome t)
    (spares : ∀ step ∈ steps, Request.Spares step.request) :
    t.status = s.status ∧ (t.entity = s.entity ∨ t.entity = none) ∧
      ∀ step ∈ steps, step.before.entity = s.entity ∨ step.before.entity = none := by
  induction run with
  | done => exact ⟨rfl, .inl rfl, by simp⟩
  | @ask s mid t r next a steps outcome answered rest ih =>
    obtain ⟨first, later⟩ := List.forall_mem_cons.mp spares
    obtain ⟨status, entity, before⟩ := ih later
    have status' : mid.status = s.status := Site.Answers.status answered first.stores
    have entity' : mid.entity = s.entity ∨ mid.entity = none :=
      Site.Answers.entity answered first.creates
    refine ⟨status.trans status', ?_, List.forall_mem_cons.mpr ⟨.inl rfl, fun step hs => ?_⟩⟩
    · rcases entity with same | gone
      · rw [same]
        exact entity'
      · exact .inr gone
    · rcases before step hs with same | gone
      · rw [same]
        exact entity'
      · exact .inr gone

end IamKeeper
