import IamKeeper.Proofs.Calls
import IamKeeper.Proofs.Custody.Pass
import IamKeeper.Proofs.Identity

namespace IamKeeper

open Plan hiding bind_assoc

/-- The patches of a status among steps, each with the object that it is for. -/
def statusPatches {σ : Type} (steps : List (Step world σ)) : List (ObjectPath × Json) :=
  steps.filterMap fun step =>
    match step.request with
    | .patchStatus path patch => some (path, patch)
    | _ => none

/-- A plan that patches statuses in one way only, however it is answered. -/
def Posts {α : Type} (patches : List (ObjectPath × Json)) (p : Job α) : Prop :=
  ∀ (σ : Type) (W : World world σ) (s t : σ) (steps : List (Step world σ)) (outcome : Except Fault α),
    Run W s p steps outcome t → statusPatches steps = patches

namespace Posts

variable {α β : Type} {patches : List (ObjectPath × Json)}

theorem done (outcome : Except Fault α) : Posts [] (Plan.done outcome : Job α) := by
  intro σ W s t steps outcome run
  obtain ⟨rfl, -⟩ := run_done.mp run
  rfl

theorem of_asks {p : Job α} (asks : p.Asks (Request.patches · = false)) : Posts [] p := by
  intro σ W s t steps outcome run
  refine List.filterMap_eq_nil_iff.mpr fun step hs => ?_
  have unpatched := run.asked asks step hs
  split
  next eq =>
    rw [eq] at unpatched
    cases unpatched
  next => rfl

/-- What follows a plan without patching anything adds nothing, and where the plan fails it is left out. -/
theorem bind {p : Job α} {f : α → Job β} (hp : Posts patches p) (hf : ∀ value, Posts [] (f value)) :
    Posts patches (p >>= f) := by
  intro σ W s t steps outcome run
  rcases run_bind.mp run with ⟨fault, hfirst, -⟩ | ⟨value, mid, first, second, hfirst, hsecond, rfl⟩
  · exact hp _ _ _ _ _ _ hfirst
  · unfold statusPatches
    rw [List.filterMap_append]
    exact congrArg₂ _ (hp _ _ _ _ _ _ hfirst) (hf value _ _ _ _ _ _ hsecond) |>.trans
      (List.append_nil _)

theorem noted {level : Level} {text : String} {p : Job α} (h : Posts patches p) :
    Posts patches (Job.note level text >>= fun _ => p) := by
  intro σ W s t steps outcome run
  obtain ⟨_, mid, rest, -, hrest, rfl⟩ := run_ask.mp run
  have posted := h σ W mid t rest outcome hrest
  exact posted

theorem when_noted {condition : Bool} {level : Level} {text : String} {p : Job α}
    (h : Posts patches p) :
    Posts patches (Plan.when condition (Job.note level text) >>= fun _ => p) := by
  cases condition with
  | true => exact h.noted
  | false => exact h

theorem ite {c : Prop} [Decidable c] {p q : Job α} (hp : Posts patches p) (hq : Posts patches q) :
    Posts patches (if c then p else q) := by
  split
  · exact hp
  · exact hq

theorem attempt {p : Job α} (h : Posts patches p) :
    Posts patches (p.attempt : Job (Except Fault α)) := by
  intro σ W s t steps outcome run
  obtain ⟨result, hp, -⟩ := run_attempt.mp run
  exact h _ _ _ _ _ _ hp

end Posts

namespace Kind

variable {kind : Kind}

theorem posts_storeStatus (space : String) (o : kind.Object) :
    Posts [(⟨kind, space, o.name⟩, kind.statusPatch o)] (kind.storeStatus space o) := by
  intro σ W s t steps outcome run
  obtain ⟨answer, mid, rest, -, haccepted, rfl⟩ := run_ask.mp run
  have silent : Posts [] (Job.accepted Fault.api answer) := by
    cases answer <;> exact .done _
  exact congrArg (_ :: ·) (silent _ _ _ _ _ _ haccepted)

/-- The object as a pass stores it, by how its sync ended. -/
def settled (options : PassOptions) (clock : Clock) (o : kind.Object) :
    Except Fault (Synced kind.Spec kind.Detail) → kind.Object
  | .ok synced => o.recordSync options.region clock synced
  | .error fault => o.markFailed clock fault

theorem name_settled (options : PassOptions) (clock : Clock) (o : kind.Object)
    (result : Except Fault (Synced kind.Spec kind.Detail)) :
    (settled options clock o result).name = o.name := by
  cases result with
  | error fault => rfl
  | ok synced =>
    simp only [settled, Object.recordSync]
    split <;> rfl

theorem posts_conclude (options : PassOptions) (clock : Clock) (space : String) (o : kind.Object)
    (result : Except Fault (Synced kind.Spec kind.Detail)) :
    Posts [(⟨kind, space, o.name⟩, kind.statusPatch (settled options clock o result))]
      (kind.conclude options clock space o result) := by
  have stored := posts_storeStatus space (settled options clock o result)
  rw [name_settled] at stored
  cases result with
  | ok synced => exact (stored.bind fun _ => .done _).when_noted
  | error fault =>
    refine .ite (stored.bind fun _ => .done _).noted (stored.attempt.bind fun answer => ?_)
    cases answer with
    | ok => exact .done _
    | error refusal => exact (Posts.done _).noted

/-- What a pass stores of an object, by how its sync ended. A failure changes nothing but the conditions; a
success takes over what was observed, but neither its conditions nor, if one is configured, its region. -/
structure Records (options : PassOptions) (clock : Clock) (o : kind.Object)
    (result : Except Fault (Synced kind.Spec kind.Detail)) (stored : Status kind.Detail) : Prop where
  failed : ∀ fault, result = .error fault →
    stored = { o.statusOrEmpty with conditions := Condition.afterFault clock fault o.conditions }
  synced : ∀ synced, result = .ok synced → ∃ identity, synced.object.identity = some identity ∧
    stored = ⟨some { identity with region := options.region <|> identity.region },
      Condition.afterSync clock synced.referenced o.conditions, synced.object.statusOrEmpty.detail⟩
  identified : ∀ synced, result = .ok synced → kind.Identified (some stored)

theorem status_recordSync (o : kind.Object) (region : Option String) (clock : Clock)
    (synced : Synced kind.Spec kind.Detail) (known : kind.Identified synced.object.status) :
    ∃ identity, synced.object.identity = some identity ∧
      (o.recordSync region clock synced).status =
        some ⟨some { identity with region := region <|> identity.region },
          Condition.afterSync clock synced.referenced o.conditions,
          synced.object.statusOrEmpty.detail⟩ := by
  obtain ⟨⟨metadata, spec, status⟩, referenced, created⟩ := synced
  rcases status with _ | ⟨_ | ⟨_ | arn, account, own⟩, conditions, detail⟩
  · exact nomatch known.arn
  · exact nomatch known.arn
  · exact nomatch known.arn
  · cases region <;> exact ⟨_, rfl, rfl⟩

theorem records_settled (options : PassOptions) (clock : Clock) (o : kind.Object)
    (result : Except Fault (Synced kind.Spec kind.Detail))
    (known : ∀ synced, result = .ok synced → kind.Identified synced.object.status) :
    ∃ stored, (settled options clock o result).status = some stored ∧
      Records options clock o result stored := by
  cases result with
  | error fault =>
    refine ⟨_, rfl, fun fault' same => ?_, fun _ same => ?_, fun _ same => ?_⟩ <;> cases same
    rfl
  | ok synced =>
    have identified := known synced rfl
    obtain ⟨identity, observed, status⟩ := status_recordSync o options.region clock synced identified
    have told : kind.Identified (settled options clock o (.ok synced)).status := by
      refine ⟨?_, fun spec => ?_⟩
      · have arn := identified.arn
        unfold Status.arn? at arn ⊢
        rw [show synced.object.status.bind Status.identity = some identity from observed] at arn
        rw [show (settled options clock o (.ok synced)).status = _ from status]
        exact arn
      · rw [show kind.key? spec (settled options clock o (.ok synced)).status = _ from
          key?_recordSync spec o options.region clock synced]
        exact identified.key spec
    refine ⟨_, status, fun _ same => ?_, fun synced' same => ?_, fun _ _ => status ▸ told⟩
    · cases same
    · cases same
      exact ⟨identity, observed, rfl⟩

theorem statusPatch_congr {a b : kind.Object} (same : a.status = b.status) :
    kind.statusPatch a = kind.statusPatch b := by
  unfold statusPatch Object.statusPatch
  rw [same]

/-- The steps of an apply are those of a sync, and others that patch the status once and with what is told of the
sync. -/
def Accounted {σ : Type} (W : World world σ) (options : PassOptions) (clock : Clock) (space : String)
    (o : kind.Object) (s : σ) (steps : List (Step world σ)) : Prop :=
  ∃ result front rest mid stored, Run W s (kind.manager.sync o) front result mid ∧
    steps = front ++ rest ∧ Records options clock o result stored ∧
    statusPatches steps = [(⟨kind, space, o.name⟩, kind.statusPatch { o with status := some stored })]

theorem apply_accounted {σ : Type} {W : World world σ} {options : PassOptions} {clock : Clock}
    {space : String} {o : kind.Object} {s t : σ} {steps : List (Step world σ)}
    {outcome : Except Fault Action} (run : Run W s (kind.apply options clock space o) steps outcome t) :
    Accounted W options clock space o s steps := by
  rw [apply_eq] at run
  rcases run_bind.mp run with ⟨fault, hsync, -⟩ | ⟨result, mid, front, rest, hsync, hrest, rfl⟩
  · obtain ⟨_, -, h⟩ := run_attempt.mp hsync
    cases h
  obtain ⟨result', hsync, h⟩ := run_attempt.mp hsync
  cases h
  have known (synced : Synced kind.Spec kind.Detail) (succeeds : result = .ok synced) :
      kind.Identified synced.object.status := by
    subst succeeds
    exact hsync.yielded (sync_identified o)
  obtain ⟨stored, status, records⟩ := records_settled options clock o result known
  refine ⟨result, front, rest, mid, stored, hsync, rfl, records, ?_⟩
  have silent := Posts.of_asks (asks_sync o) σ W s mid front result hsync
  have posted := posts_conclude options clock space o result σ W mid t rest outcome hrest
  have patch : kind.statusPatch (settled options clock o result) =
      kind.statusPatch { o with status := some stored } := statusPatch_congr status
  unfold statusPatches at silent posted ⊢
  rw [List.filterMap_append, silent, posted, patch]
  rfl

/-- A status that a patch may store: one that is written as the patch tells. -/
def Stores (kind : Kind) (patch : Json) (t : Option (Status kind.Detail)) : Prop :=
  ∃ o : kind.Object, kind.statusPatch o = patch ∧ t = o.status

/-- The stored status of an object that nothing but its passes writes. A patch that is answered by a failure may
have been stored all the same. -/
def Ledger (kind : Kind) : World world (Option (Status kind.Detail)) := fun s r answer t =>
  match r, answer with
  | .patchStatus _ patch, .ok _ => kind.Stores patch t
  | .patchStatus _ patch, .error _ => t = s ∨ kind.Stores patch t
  | _, _ => t = s

/-- What one status tells of an entity, a later one does not lack. -/
structure Keeps (kind : Kind) (s t : Option (Status kind.Detail)) : Prop where
  arn : (Status.arn? s).isSome = true → (Status.arn? t).isSome = true
  key : ∀ spec, (kind.key? spec s).isSome = true → (kind.key? spec t).isSome = true

theorem Keeps.refl (s : Option (Status kind.Detail)) : kind.Keeps s s :=
  ⟨id, fun _ => id⟩

theorem Keeps.trans {s mid t : Option (Status kind.Detail)} (h : kind.Keeps s mid)
    (h' : kind.Keeps mid t) : kind.Keeps s t :=
  ⟨h'.arn ∘ h.arn, fun spec => h'.key spec ∘ h.key spec⟩

theorem Records.keeps {options : PassOptions} {clock : Clock} {o : kind.Object}
    {result : Except Fault (Synced kind.Spec kind.Detail)} {stored : Status kind.Detail}
    (records : Records options clock o result stored) : kind.Keeps o.status (some stored) := by
  cases result with
  | ok synced =>
    have identified := records.identified synced rfl
    exact ⟨fun _ => identified.arn, fun spec _ => identified.key spec⟩
  | error fault =>
    have same : some stored = (o.markFailed clock fault).status := congrArg some (records.failed fault rfl)
    rw [same]
    refine ⟨fun arn => ?_, fun spec => by rw [key?_markFailed]; exact id⟩
    obtain ⟨metadata, spec, status⟩ := o
    cases status with
    | none => cases arn
    | some status => exact arn

theorem Stores.keeps {o : kind.Object} {t : Option (Status kind.Detail)}
    (stores : kind.Stores (kind.statusPatch o) t) : kind.Keeps o.status t := by
  obtain ⟨written, same, rfl⟩ := stores
  have arn : Status.arn? o.status = Status.arn? written.status := arn_of_statusPatch same.symm
  exact ⟨fun there => arn ▸ there, fun spec there => key?_of_statusPatch same.symm spec ▸ there⟩

/-- Steps that patch a status in one way leave the stored one alone, or store what the patch tells. -/
theorem run_ledger {α : Type} {p : Job α} {s t : Option (Status kind.Detail)} {patch : Json}
    {steps : List (Step world (Option (Status kind.Detail)))} {outcome : Except Fault α}
    (run : Run kind.Ledger s p steps outcome t)
    (single : ∀ entry ∈ statusPatches steps, entry.2 = patch) : t = s ∨ kind.Stores patch t := by
  induction run with
  | done => exact .inl rfl
  | @ask s mid t r next answer steps outcome answered rest ih =>
    have first : (mid = s ∨ kind.Stores patch mid) ∧ ∀ entry ∈ statusPatches steps, entry.2 = patch := by
      cases r with
      | patchStatus path written =>
        obtain ⟨same, later⟩ := List.forall_mem_cons.mp
          (show ∀ entry ∈ (path, written) :: statusPatches steps, entry.2 = patch from single)
        cases (show written = patch from same)
        refine ⟨?_, later⟩
        cases answer with
        | ok => exact .inr answered
        | error => exact answered
      | iam | policy | role | patchFinalizers | note => exact ⟨.inl answered, single⟩
    rcases ih first.2 with rfl | stores
    · exact first.1
    · exact .inr stores

/-- An apply over an object with the stored status keeps what that status tells. -/
theorem apply_keeps {options : PassOptions} {clock : Clock} {space : String} {o : kind.Object}
    {s t : Option (Status kind.Detail)} {steps : List (Step world (Option (Status kind.Detail)))}
    {outcome : Except Fault Action} (current : o.status = s)
    (run : Run kind.Ledger s (kind.apply options clock space o) steps outcome t) : kind.Keeps s t := by
  obtain ⟨result, front, rest, mid, stored, -, -, records, patches⟩ := apply_accounted run
  have single : ∀ entry ∈ statusPatches steps,
      entry.2 = kind.statusPatch { o with status := some stored } := by
    rw [patches]
    exact List.forall_mem_singleton.mpr rfl
  subst current
  rcases run_ledger run single with rfl | stores
  · exact .refl _
  · exact records.keeps.trans stores.keeps

/-- An empty status tells nothing. -/
def Blank (kind : Kind) (status : Status kind.Detail) : Prop :=
  status.identity = none ∧ status.conditions = [] ∧
    ∀ member ∈ kind.detailRecord.members status.detail, member.2 = Json.null

theorem blank_default (kind : Kind) : kind.Blank default := by
  refine ⟨rfl, rfl, ?_⟩
  cases kind <;> decide

end Kind

/-- An apply over an object, between the statuses that are stored before and after it. -/
structure Turn (kind : Kind) where
  options : PassOptions
  clock : Clock
  space : String
  object : kind.Object
  before : Option (Status kind.Detail)
  steps : List (Step world (Option (Status kind.Detail)))
  outcome : Except Fault Action
  after : Option (Status kind.Detail)

namespace Turn

variable {kind : Kind}

/-- Applies over an object, one after the other, each with the status that is stored before it. Everything else of
the object may have changed in between. -/
inductive History : Option (Status kind.Detail) → List (Turn kind) → Option (Status kind.Detail) → Prop
  | nil {s : Option (Status kind.Detail)} : History s [] s
  | apply {options : PassOptions} {clock : Clock} {space : String} {o : kind.Object}
      {s mid t : Option (Status kind.Detail)} {steps : List (Step world (Option (Status kind.Detail)))}
      {outcome : Except Fault Action} {turns : List (Turn kind)} (current : o.status = s)
      (run : Run kind.Ledger s (kind.apply options clock space o) steps outcome mid)
      (rest : History mid turns t) :
      History s (⟨options, clock, space, o, s, steps, outcome, mid⟩ :: turns) t

variable {s t : Option (Status kind.Detail)} {turns : List (Turn kind)}

theorem History.keeps (history : History s turns t) : ∀ turn ∈ turns, kind.Keeps s turn.after := by
  induction history with
  | nil => simp
  | apply current run _ ih =>
    have kept := Kind.apply_keeps current run
    exact List.forall_mem_cons.mpr ⟨kept, fun turn ht => kept.trans (ih turn ht)⟩

theorem History.pairwise (history : History s turns t) :
    turns.Pairwise fun earlier later => kind.Keeps earlier.after later.after := by
  induction history with
  | nil => exact .nil
  | apply _ _ rest ih => exact List.pairwise_cons.mpr ⟨rest.keeps, ih⟩

theorem History.accounted (history : History s turns t) :
    ∀ turn ∈ turns, turn.object.status = turn.before ∧
      Kind.Accounted kind.Ledger turn.options turn.clock turn.space turn.object turn.before
        turn.steps := by
  induction history with
  | nil => simp
  | apply current run _ ih => exact List.forall_mem_cons.mpr ⟨⟨current, Kind.apply_accounted run⟩, ih⟩

/-- Every pass of a history stores what its sync tells, beside what was stored before, and no stored status lacks
an identity that an earlier one has. -/
theorem History.recorded (history : History s turns t) :
    (∀ turn ∈ turns, turn.object.status = turn.before ∧
      Kind.Accounted kind.Ledger turn.options turn.clock turn.space turn.object turn.before
        turn.steps) ∧
    (∀ turn ∈ turns, turn.before = none → kind.Blank turn.object.statusOrEmpty) ∧
    (∀ turn ∈ turns, kind.Keeps s turn.after) ∧
    turns.Pairwise fun earlier later => kind.Keeps earlier.after later.after := by
  refine ⟨history.accounted, fun turn ht absent => ?_, history.keeps, history.pairwise⟩
  have empty : turn.object.statusOrEmpty = default := by
    unfold Object.statusOrEmpty
    rw [(history.accounted turn ht).1, absent]
    rfl
  rw [empty]
  exact kind.blank_default

/-- A SAML provider that does not exist yet. -/
def federation : Kind.samlProvider.Object where
  metadata := ⟨some "sso", none, some "space", [Kind.samlProvider.finalizer], none⟩
  spec := ⟨"sso", "<metadata/>", []⟩
  status := none

/-- A provider is created, and the next pass over it fails: its ARN stays. -/
theorem recorded_federation :
    ∃ first second : Turn .samlProvider, History none [first, second] second.after ∧
      Status.arn? first.after = some "arn:sso" ∧ (Status.arn? second.after).isSome = true ∧
      ∃ fault, second.outcome = .error fault := by
  let options : PassOptions := ⟨some "eu-west-1", 600, 15⟩
  let clock : Clock := fun _ => .epoch
  let throttled : Fault := .iam "GetSAMLProvider" none "throttled"
  let created := federation.recordSync options.region clock
    ⟨federation.withIdentity (Identity.ofArn "arn:sso"), false, true⟩
  have first : ∃ steps outcome, Run Kind.samlProvider.Ledger none
      (Kind.samlProvider.apply options clock "space" federation) steps outcome created.status :=
    ⟨_, _,
      Job.run_ask (r := Request.iam (.createSamlProvider _)) (Except.ok "arn:sso") rfl <|
      Job.run_ask (r := Request.note _ _) () rfl <|
      Job.run_ask (r := Request.note _ _) () rfl <|
      Job.run_ask (r := Request.patchStatus _ _) (Except.ok ()) ⟨created, rfl, rfl⟩ .done⟩
  have second : ∃ steps, Run Kind.samlProvider.Ledger created.status
      (Kind.samlProvider.apply options clock "space" created) steps (.error throttled)
      (created.markFailed clock throttled).status :=
    ⟨_,
      Job.run_ask (r := Request.iam (.getSamlProvider "arn:sso")) (Except.error throttled) rfl <|
      Job.run_ask (r := Request.patchStatus _ _) (Except.ok ())
        ⟨created.markFailed clock throttled, rfl, rfl⟩ .done⟩
  obtain ⟨steps, outcome, first⟩ := first
  obtain ⟨steps', second⟩ := second
  have history : History none
      [⟨options, clock, "space", federation, none, steps, outcome, _⟩,
        ⟨options, clock, "space", created, created.status, steps', .error throttled, _⟩] _ :=
    .apply rfl first (.apply rfl second .nil)
  obtain ⟨-, -, -, kept⟩ := history.recorded
  have later := (List.pairwise_cons.mp kept).1 _ (List.mem_singleton_self _)
  exact ⟨_, _, history, rfl, later.arn rfl, throttled, rfl⟩

end Turn

end IamKeeper
