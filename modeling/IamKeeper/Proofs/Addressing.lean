import IamKeeper.Proofs.Calls
import IamKeeper.Proofs.Tracking.Sync

namespace IamKeeper

open Iam
open Plan hiding bind_assoc

/-- The entity that a call changes or deletes. -/
def Iam.Call.target? (call : Call) : Option Owner :=
  call.tended?.or call.deleted?

/-- What is found fits what was asked for. -/
def Iam.Call.Candid : (call : Call) → call.Result → Prop
  | getRole name, some report => report.name = name
  | getUser name, some report => report.name = name
  | getGroup name, some report => report.name = name
  | getInstanceProfile name, some report => report.name = name
  | getPolicy arn, some report => report.arn = arn
  | _, _ => True

/-- Answers in which whatever is found fits what was asked for. -/
def Replies.candid : Replies
  | .iam call, .ok result => call.Candid result
  | _, _ => True

namespace Request

def target? : Request → Option Owner
  | .iam call => call.target?
  | _ => none

/-- The entity that a request has created, as its answer tells. -/
def made? : (r : Request) → r.Answer → Option Owner
  | .iam call, .ok result => call.made? result
  | _, _ => none

/-- A request that creates no entity, and that changes nothing or the one that is known. -/
structure Confined (known : Option Owner) (r : Request) : Prop where
  creates : r.creates = false
  within : r.isMutation = true → ∃ owner, r.target? = some owner ∧ known = some owner

variable {known : Option Owner} {r : Request}

theorem Confined.of_reads (creates : r.creates = false) (reads : r.Reads) : r.Confined known :=
  ⟨creates, fun mutation => nomatch reads.symm.trans mutation⟩

theorem confined_note (level : Level) (text : String) : (Request.note level text).Confined known :=
  .of_reads rfl rfl

theorem confined_read {call : Call} (read : call.isRead = true) : (Request.iam call).Confined known := by
  refine .of_reads ?_ (congrArg not read)
  cases call <;> first | rfl | cases read

theorem Tends.confined (h : r.Tends known) : r.Confined known := by
  cases r with
  | iam call =>
    rcases h with ⟨read, -⟩ | ⟨owner, rfl, tended⟩
    · exact confined_read read
    · refine ⟨?_, fun _ => ⟨owner, ?_, rfl⟩⟩
      · cases call <;> first | rfl | cases tended
      · rw [target?, Call.target?, tended]
        rfl
  | note => exact confined_note ..
  | policy | role | patchStatus | patchFinalizers => cases h

/-- A lookup of an object or a read of IAM, or a note. -/
def Inquires (r : Request) : Prop :=
  r.Refers ∨ r.Among fun call => call.isRead = true

theorem Inquires.confined (h : r.Inquires) : r.Confined known := by
  cases r with
  | iam call => exact confined_read (h.resolve_left id)
  | policy | role | note => exact .of_reads rfl rfl
  | patchStatus | patchFinalizers => exact (h.elim id id).elim

end Request

/-- Steps that create no entity, and of which none changes another than the one that is known. -/
def Confined {σ : Type} (known : Option Owner) (steps : List (Step world σ)) : Prop :=
  ∀ step ∈ steps, step.request.Confined known

theorem Plan.Run.transfer {I : Interface} {σ τ ε α : Type} {W : World I σ} {W' : World I τ} {s t : σ} {u : τ}
    {p : Plan I ε α} {steps : List (Step I σ)} {outcome : Except ε α} (run : Run W s p steps outcome t)
    (permits : ∀ step ∈ steps, W' u step.request step.answer u) : ∃ steps', Run W' u p steps' outcome u := by
  induction run with
  | done => exact ⟨[], .done⟩
  | ask answered rest ih =>
    obtain ⟨permitted, later⟩ := List.forall_mem_cons.mp permits
    obtain ⟨steps', run⟩ := ih later
    exact ⟨_, .ask permitted run⟩

namespace Site

variable {kind : Kind}

/-- A site without a status, at which there is no entity to follow. -/
def bare : Site kind :=
  ⟨none, none⟩

theorem finds_bare {α : Type} {keyOf : Entity → String} {key : String} {found : Option α} {fits : α → Prop}
    {tells : α → Entity → Prop} (fit : ∀ report, found = some report → fits report) :
    (bare : Site kind).Finds keyOf key found fits tells bare :=
  ⟨rfl, fit, fun _ there => nomatch there⟩

/-- At a bare site, whatever fits may be found. -/
theorem answers_bare {r : Request} {answer : r.Answer} (inquires : r.Inquires)
    (candid : Replies.candid r answer) : Answers (bare : Site kind) r answer bare := by
  cases r with
  | iam call =>
    cases answer with
    | error fault => rfl
    | ok result =>
      have read : call.isRead = true := inquires.resolve_left id
      cases call with
      | getRole | getUser | getGroup | getInstanceProfile | getPolicy =>
        exact finds_bare fun report found => by
          subst found
          exact candid
      | getOidcProvider | getSamlProvider => exact finds_bare fun _ _ => trivial
      | _ => first | rfl | cases read
  | policy | role | note => rfl
  | patchStatus | patchFinalizers => exact (inquires.elim id id).elim

end Site

namespace Kind

variable {kind : Kind} {σ : Type} {W : World world σ} {s t : σ} {steps : List (Step world σ)}

theorem inquires_readOne (o : kind.Object) : (kind.manager.readOne o).Asks Request.Inquires :=
  (kind.reads Replies.all_own o).asks.mono fun _ => .inr

theorem inquires_look (o : kind.Object) : (kind.manager.look o).Asks Request.Inquires :=
  ((asks_resolve o).mono fun _ => .inl).bind fun resolved =>
    (inquires_readOne resolved.object).bind fun _ => trivial

/-- What is read goes by the key that the object tells. -/
theorem key?_readOne (candid : Replies.candid.Bound W) {o latest : kind.Object}
    (run : Run W s (kind.manager.readOne o) steps (.ok (some latest)) t) :
    kind.key? latest.spec latest.status = kind.key? o.spec o.status := by
  have asked := run.asked (inquires_readOne o)
  have permits : ∀ step ∈ steps, (Site.bare : Site kind).Answers step.request step.answer Site.bare :=
    fun step hs => Site.answers_bare (asked step hs) (candid _ _ _ _ (run.answered step hs))
  obtain ⟨_, elsewhere⟩ := run.transfer permits
  exact ((kind.tracks.read o).tells _ _ _ _ elsewhere).key latest rfl

/-- Resolving references keeps the name, and what is found after it goes by the key that the object tells. -/
theorem run_look_candid (candid : Replies.candid.Bound W) {o : kind.Object}
    {resolved : Resolved kind.Spec kind.Detail} {found : Option kind.Object}
    (run : Run W s (kind.manager.look o) steps (.ok (resolved, found)) t) :
    kind.nameIn? resolved.object.spec = kind.nameIn? o.spec ∧
      ∀ latest, found = some latest → kind.key? latest.spec latest.status = kind.key? o.spec o.status := by
  obtain ⟨_, mid, first, second, hresolve, hrest, -⟩ := run_bind_ok.mp run
  obtain ⟨_, _, _, _, hread, hdone, -⟩ := run_bind_ok.mp hrest
  cases (run_pure.mp hdone).2.1
  have same := hresolve.yielded (resolve_yields o)
  refine ⟨same.2, fun latest there => ?_⟩
  subst there
  exact (key?_readOne candid hread).trans (key?_resolved same)

theorem confined_update (desired latest : kind.Object) (delta : Delta) :
    (kind.manager.update desired latest delta).Asks
      (Request.Confined ((kind.key? latest.spec latest.status).map kind.owner)) :=
  Asks.bind trivial fun _ => (kind.tracks.change_tends desired latest delta).mono fun _ => Request.Tends.confined

theorem confined_delete (latest : kind.Object) :
    (kind.manager.delete latest).Asks
      (Request.Confined ((kind.key? latest.spec latest.status).map kind.owner)) := by
  obtain ⟨text, eq⟩ := delete_eq kind latest
  rw [eq]
  cases kind.key? latest.spec latest.status with
  | none => trivial
  | some key =>
    have clears : (kind.clear key latest).Asks (Request.Confined (some (kind.owner key))) :=
      (kind.tends_clear key latest).mono fun _ => Request.Tends.confined
    have deletes : (Request.iam (kind.deletion key)).Confined (some (kind.owner key)) := by
      cases kind <;> exact ⟨rfl, fun _ => ⟨_, rfl, rfl⟩⟩
    exact clears.bind fun _ => Asks.bind ⟨deletes, fun _ => trivial⟩ fun _ =>
      ⟨Request.confined_note .., fun _ => trivial⟩

/-- Where the entity is found, a sync changes none but this one. -/
theorem confined_settle (o : kind.Object) (resolved : Resolved kind.Spec kind.Detail) (latest : kind.Object) :
    (kind.manager.settle o resolved (some latest)).Asks
      (Request.Confined ((kind.key? latest.spec latest.status).map kind.owner)) :=
  asks_ite (Asks.bind ⟨Request.confined_note .., fun _ => trivial⟩ fun _ => trivial)
    ((confined_update ..).bind fun _ => trivial)

/-- A creation, after which nothing is changed but what it has told of. -/
def Made (kind : Kind) (spec : kind.Spec) (steps : List (Step world σ)) : Prop :=
  ∃ creation later, steps = creation :: later ∧ creation.request = .iam (kind.creation spec) ∧
    Confined (creation.request.made? creation.answer) later

theorem made_settle {o : kind.Object} {resolved : Resolved kind.Spec kind.Detail}
    {outcome : Except Fault (Synced kind.Spec kind.Detail)}
    (run : Run W s (kind.manager.settle o resolved none) steps outcome t) : kind.Made resolved.object.spec steps := by
  obtain ⟨rest, eq, tends⟩ := (kind.tracks.create resolved.object).builds
  have settles : kind.manager.settle o resolved none = Job.iam (kind.creation resolved.object.spec) >>= fun result =>
      rest result >>= fun observed => pure ⟨observed, resolved.referenced, true⟩ := by
    unfold Manager.settle
    rw [eq, bind_assoc]
  rw [settles] at run
  rcases Job.run_call run with ⟨fault, -, rfl, -⟩ | ⟨result, mid, later, -, hrest, rfl⟩
  · exact ⟨_, [], rfl, rfl, fun _ hs => nomatch hs⟩
  · have confined : (rest result >>= fun observed =>
        (pure ⟨observed, resolved.referenced, true⟩ : Job (Synced kind.Spec kind.Detail))).Asks
        (Request.Confined ((kind.creation resolved.object.spec).made? result)) :=
      ((tends result).mono fun _ => Request.Tends.confined).bind fun _ => trivial
    exact ⟨_, later, rfl, rfl, hrest.asked confined⟩

/-- A pass changes the entity that its object tells of, and no other, unless it is the one that this pass has
created. An update or a deletion changes nothing where no entity is told of. -/
theorem confined_to_told_or_made (candid : Replies.candid.Bound W) (o : kind.Object) :
    (∀ s t steps outcome, Run W s (kind.manager.sync o) steps outcome t →
      Confined ((kind.key? o.spec o.status).map kind.owner) steps ∨
      ∃ front back spec, steps = front ++ back ∧ Confined none front ∧ kind.nameIn? spec = kind.nameIn? o.spec ∧
        kind.Made spec back) ∧
    (∀ s t steps outcome, Run W s (kind.manager.remove o) steps outcome t →
      Confined ((kind.key? o.spec o.status).map kind.owner) steps) ∧
    ∀ desired latest delta, kind.key? latest.spec latest.status = none →
      (kind.manager.update desired latest delta).Asks (Request.Confined none) ∧
      (kind.manager.delete latest).Asks (Request.Confined none) := by
  refine ⟨fun s t steps outcome run => ?_, fun s t steps outcome run => ?_, fun desired latest delta unknown => ?_⟩
  · rw [Manager.sync_eq_look] at run
    rcases run_bind.mp run with ⟨fault, hlook, -⟩ | ⟨⟨resolved, found⟩, mid, front, back, hlook, hsettle, rfl⟩
    · exact .inl fun step hs => (hlook.asked (inquires_look o) step hs).confined
    · have looks {known : Option Owner} : Confined known front := fun step hs =>
        (hlook.asked (inquires_look o) step hs).confined
      obtain ⟨named, keyed⟩ := run_look_candid candid hlook
      cases found with
      | none => exact .inr ⟨front, back, resolved.object.spec, rfl, looks, named, made_settle hsettle⟩
      | some latest =>
        have confined := hsettle.asked (confined_settle o resolved latest)
        rw [keyed latest rfl] at confined
        exact .inl (List.forall_mem_append.mpr ⟨looks, confined⟩)
  · rcases run_bind.mp run with ⟨fault, hread, -⟩ | ⟨found, mid, front, back, hread, hdelete, rfl⟩
    · exact fun step hs => (hread.asked (inquires_readOne o) step hs).confined
    · have reads : Confined ((kind.key? o.spec o.status).map kind.owner) front := fun step hs =>
        (hread.asked (inquires_readOne o) step hs).confined
      refine List.forall_mem_append.mpr ⟨reads, ?_⟩
      cases found with
      | none =>
        have noted : (Job.debug s!"{o.name} is already gone from IAM").Asks
            (Request.Confined ((kind.key? o.spec o.status).map kind.owner)) :=
          ⟨Request.confined_note .., fun _ => trivial⟩
        exact hdelete.asked noted
      | some latest =>
        have confined := hdelete.asked (confined_delete latest)
        rw [key?_readOne candid hread] at confined
        exact confined
  · have update := confined_update desired latest delta
    have delete := confined_delete latest
    rw [unknown] at update delete
    exact ⟨update, delete⟩

/-- A new profile with a role. -/
def newProfile : Kind.instanceProfile.Object where
  metadata := ⟨some "web", none, some "space", [], none⟩
  spec := ⟨"web", none, some "app", none, []⟩
  status := none

/-- IAM tells of a new profile by another spelling of its name. The role is put into the profile that was told of. -/
theorem newProfile_confined :
    let W : World world Unit := fun s r answer t => t = s ∧ Replies.candid r answer
    ∃ steps outcome, Run W () (Kind.instanceProfile.manager.sync newProfile) steps outcome () ∧
      (∃ step ∈ steps, step.request = .iam (.addRole "Web" "app")) ∧
      ∃ front back spec, steps = front ++ back ∧ Confined none front ∧ spec.name = "web" ∧
        Kind.instanceProfile.Made spec back := by
  intro W
  have candid : Replies.candid.Bound W := fun _ _ _ _ answered => answered.2
  let report : InstanceProfileReport := { (default : InstanceProfileReport) with name := "Web" }
  have run : ∃ steps outcome, Run W () (Kind.instanceProfile.manager.sync newProfile) steps outcome () ∧
      ∃ step ∈ steps, step.request = .iam (.addRole "Web" "app") :=
    ⟨_, _,
      Job.run_ask (r := Request.iam (.getInstanceProfile "web")) (Except.ok none) ⟨rfl, trivial⟩ <|
      Job.run_ask (r := Request.iam (.createInstanceProfile _)) (Except.ok report) ⟨rfl, trivial⟩ <|
      Job.run_ask (r := Request.note _ _) () ⟨rfl, trivial⟩ <|
      Job.run_ask (r := Request.note _ _) () ⟨rfl, trivial⟩ <|
      Job.run_ask (r := Request.iam (.addRole "Web" "app")) (Except.ok ()) ⟨rfl, trivial⟩ .done,
      _, .tail _ (.tail _ (.tail _ (.tail _ (.head _)))), rfl⟩
  obtain ⟨steps, outcome, run, step, hs, puts⟩ := run
  refine ⟨steps, outcome, run, ⟨step, hs, puts⟩, ?_⟩
  obtain ⟨syncs, -, -⟩ := confined_to_told_or_made candid newProfile
  rcases syncs () () steps outcome run with own | ⟨front, back, spec, split, reads, named, made⟩
  · have confined := own step hs
    rw [puts] at confined
    obtain ⟨owner, targeted, known⟩ := confined.within rfl
    exact absurd (targeted.trans known.symm) (by decide)
  · exact ⟨front, back, spec, split, reads, Option.some.inj named, made⟩

end Kind

end IamKeeper
