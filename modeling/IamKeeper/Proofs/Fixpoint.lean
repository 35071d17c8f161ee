import IamKeeper.Proofs.Conditions
import IamKeeper.Proofs.Ledger
import IamKeeper.Proofs.Recall
import IamKeeper.Proofs.StatusPatch

namespace IamKeeper

open Time (Instant)
open Job (Ends)
open Plan hiding bind_assoc

namespace Condition

/-- The first condition of a type, if not its time. -/
def First (conditions : List Condition) (type : ConditionType) (status : ConditionStatus)
    (message reason : Option String) : Prop :=
  ∃ since, (ofType type conditions).head? = some ⟨type, status, message, reason, since⟩

variable {now : Instant} {type other : ConditionType} {status : ConditionStatus}
  {message reason : Option String} {conditions : List Condition}

theorem first_set (conditions : List Condition) :
    First (set now type status message reason conditions) type status message reason := by
  induction conditions with
  | nil => exact ⟨some now, by simp [set, ofType]⟩
  | cons c rest ih =>
    simp only [set]
    split
    next same => exact ⟨if c.status = status then c.since else some now, by simp [ofType]⟩
    next differs =>
      unfold First ofType at ih ⊢
      rw [List.filter_cons_of_neg (by simpa using differs)]
      exact ih

/-- Setting what is set already changes nothing, not even the time. -/
theorem set_of_first (first : First conditions type status message reason) :
    set now type status message reason conditions = conditions := by
  induction conditions with
  | nil =>
    obtain ⟨since, told⟩ := first
    cases told
  | cons c rest ih =>
    obtain ⟨since, told⟩ := first
    simp only [set]
    split
    next same =>
      rw [ofType, List.filter_cons_of_pos (by simpa using same)] at told
      cases told
      rw [if_pos rfl]
    next differs =>
      rw [ofType, List.filter_cons_of_neg (by simpa using differs)] at told
      exact congrArg (c :: ·) (ih ⟨since, told⟩)

theorem setBy_of_first (clock : Clock) (first : First conditions type status message reason) :
    setBy clock type status message reason conditions = conditions :=
  set_of_first first

theorem remove_of_lacks (lacks : Lacks conditions type) : remove type conditions = conditions := by
  refine List.filter_eq_self.mpr fun c hc => ?_
  have other := List.filter_eq_nil_iff.mp lacks c hc
  simpa using other

@[simp]
theorem first_set_other (h : other ≠ type) {status' : ConditionStatus} {message' reason' : Option String} :
    First (set now type status message reason conditions) other status' message' reason' ↔
      First conditions other status' message' reason' := by
  unfold First
  rw [ofType_set_other h]

@[simp]
theorem first_remove_other (h : other ≠ type) :
    First (remove type conditions) other status message reason ↔ First conditions other status message reason := by
  unfold First
  rw [ofType_remove_other h]

/-- Conditions that tell a success are marked by it once more without a change, whatever the clock reads. -/
theorem afterSync_eq_self {clock : Clock} {referenced : Bool}
    (references : if referenced then First conditions .referencesResolved .yes none none
      else Lacks conditions .referencesResolved)
    (terminal : Lacks conditions .terminal) (recoverable : Lacks conditions .recoverable)
    (synced : First conditions .synced .yes none none) : afterSync clock referenced conditions = conditions := by
  have resolved : (if referenced then setBy clock .referencesResolved .yes none none conditions
      else remove .referencesResolved conditions) = conditions := by
    cases referenced with
    | true => exact setBy_of_first clock references
    | false => exact remove_of_lacks references
  unfold afterSync
  rw [resolved, remove_of_lacks terminal, remove_of_lacks recoverable]
  exact setBy_of_first clock synced

theorem afterSync_again (clock clock' : Clock) (referenced : Bool) (conditions : List Condition) :
    afterSync clock' referenced (afterSync clock referenced conditions) = afterSync clock referenced conditions := by
  refine afterSync_eq_self ?_ ?_ ?_ (first_set _)
  · cases referenced <;> simp [afterSync, setBy, first_set, lacks_remove]
  · simp [afterSync, setBy, lacks_remove]
  · simp [afterSync, setBy, lacks_remove]

theorem afterFault_eq_self {clock : Clock} {fault : Fault}
    (references : fault.isReference = true → First conditions .referencesResolved .no (some fault.message) none)
    (blame : if fault.isTerminal then
        Lacks conditions .recoverable ∧ First conditions .terminal .yes (some fault.message) none
      else Lacks conditions .terminal ∧ First conditions .recoverable .yes (some fault.message) fault.code?)
    (synced : First conditions .synced .no none none) : afterFault clock fault conditions = conditions := by
  have resolved : (if fault.isReference then
      setBy clock .referencesResolved .no (some fault.message) none conditions else conditions) = conditions := by
    cases reference : fault.isReference with
    | true => exact setBy_of_first clock (references reference)
    | false => rfl
  unfold afterFault
  simp only [resolved]
  cases terminal : fault.isTerminal with
  | true =>
    rw [terminal, if_pos rfl] at blame
    rw [if_pos rfl, remove_of_lacks blame.1, setBy_of_first clock blame.2]
    exact setBy_of_first clock synced
  | false =>
    rw [terminal, if_neg nofun] at blame
    rw [if_neg nofun, remove_of_lacks blame.1, setBy_of_first clock blame.2]
    exact setBy_of_first clock synced

theorem afterFault_again (clock clock' : Clock) (fault : Fault) (conditions : List Condition) :
    afterFault clock' fault (afterFault clock fault conditions) = afterFault clock fault conditions := by
  refine afterFault_eq_self (fun reference => ?_) ?_ (first_set _)
  · cases terminal : fault.isTerminal <;> simp [afterFault, setBy, reference, terminal, first_set]
  · cases terminal : fault.isTerminal <;> cases reference : fault.isReference <;>
      simp [afterFault, setBy, reference, terminal, first_set, lacks_remove]

end Condition

/-- One request, or lookups of one sort of entity under two keys. -/
def Request.Akin (r r' : Request) : Prop :=
  r = r' ∨ ∃ kind key key', r = .iam (Kind.lookup kind key) ∧ r' = .iam (Kind.lookup kind key')

instance : Std.Refl Request.Akin :=
  ⟨fun _ => .inl rfl⟩

def Request.statusPatch? : Request → Option (ObjectPath × Json)
  | .patchStatus path patch => some (path, patch)
  | _ => none

def requests {σ : Type} (steps : List (Step world σ)) : List Request :=
  steps.map Step.request

theorem filterMap_requests {σ : Type} (steps : List (Step world σ)) :
    (requests steps).filterMap Request.statusPatch? = statusPatches steps :=
  List.filterMap_map

/-- The world in which an oracle answers. Its state is what the oracle has been asked. -/
def Oracle.world (oracle : Oracle) : World world (List Request) := fun past (r : Request) answer later =>
  answer = oracle past r ∧ later = past ++ [r]

namespace Job

variable {α : Type} {oracle : Oracle} {past later : List Request}

def patches (p : Job α) (oracle : Oracle) : List (ObjectPath × Json) :=
  (p.toldBy oracle []).2.filterMap Request.statusPatch?

theorem exists_run (oracle : Oracle) (past : List Request) (p : Job α) :
    ∃ steps, Run oracle.world past p steps (p.toldBy oracle past).1 (p.toldBy oracle past).2 ∧
      (p.toldBy oracle past).2 = past ++ requests steps := by
  induction p generalizing past with
  | done outcome => exact ⟨[], .done, (List.append_nil past).symm⟩
  | ask r next ih =>
    obtain ⟨steps, run, asked⟩ := @ih (oracle past r) (List.append past [r])
    exact ⟨_, .ask ⟨rfl, rfl⟩ run, asked.trans (List.append_assoc past [r] _)⟩

theorem toldBy_of_run {p : Job α} {steps : List (Step IamKeeper.world (List Request))} {outcome : Except Fault α}
    (run : Run oracle.world past p steps outcome later) : p.toldBy oracle past = (outcome, later) := by
  induction run with
  | done => rfl
  | ask answered _ ih =>
    obtain ⟨rfl, rfl⟩ := answered
    exact ih

end Job

namespace Kind

variable {kind : Kind} {options : PassOptions} {clock clock' : Clock} {space : String} {o : kind.Object}
  {result result' : Except Fault (Synced kind.Spec kind.Detail)} {stored stored' : Status kind.Detail}

theorem apply_patches (options : PassOptions) (clock : Clock) (space : String) (o : kind.Object)
    (oracle : Oracle) : ∃ stored, Records options clock o ((kind.manager.sync o).toldBy oracle []).1 stored ∧
      (kind.apply options clock space o).patches oracle =
        [(⟨kind, space, o.name⟩, kind.statusPatch { o with status := some stored })] := by
  obtain ⟨steps, run, asked⟩ := Job.exists_run oracle [] (kind.apply options clock space o)
  obtain ⟨result, front, rest, mid, stored, hsync, -, records, patches⟩ := apply_accounted run
  rw [Job.toldBy_of_run hsync]
  refine ⟨stored, records, ?_⟩
  unfold Job.patches
  rw [asked, List.nil_append, filterMap_requests, patches]

theorem sync_unknown (unknown : kind.key? o.spec o.status = none) :
    (kind.manager.sync o).Yields (·.created = true) := by
  rw [Manager.sync_eq]
  refine (resolve_yields o).bind fun resolved same => ?_
  rw [← key?_resolved same] at unknown
  rw [(kind.tracks.read resolved.object).blind unknown, pure_bind]
  exact yields_bind fun _ => yields_pure rfl

/-- What was found by a recorded key that IAM does not tell anew keeps this key. -/
theorem readOne_keeps (recorded : kind.isNamed = false) (kept : kind.reportsKey = false) (o : kind.Object) :
    (kind.manager.readOne o).Yields fun found => ∀ latest, found = some latest →
      ∀ spec, kind.key? spec latest.status = kind.key? spec o.status := by
  cases kind with
  | role | group | user | instanceProfile => cases recorded
  | policy | serviceLinkedRole => cases kept
  | oidcProvider =>
    change (OidcProviderManager.readOne o).Yields _
    unfold OidcProviderManager.readOne
    split
    · exact yields_pure (by simp)
    · refine yields_bind fun found => ?_
      cases found with
      | none => exact yields_pure (by simp)
      | some report =>
        refine yields_bind fun _ => yields_pure ?_
        rintro _ ⟨rfl⟩ spec
        rfl
  | samlProvider =>
    change (SamlProviderManager.readOne o).Yields _
    unfold SamlProviderManager.readOne
    split
    · exact yields_pure (by simp)
    · refine yields_bind fun found => ?_
      cases found with
      | none => exact yields_pure (by simp)
      | some report =>
        refine yields_bind fun _ => yields_pure ?_
        rintro _ ⟨rfl⟩ spec
        exact congrArg (Option.bind · Identity.arn) (Object.identity_withDetail _ _)

/-- An entity that was there already keeps the key that is recorded, if IAM does not tell it anew. -/
theorem sync_keeps (recorded : kind.isNamed = false) (kept : kind.reportsKey = false) (o : kind.Object) :
    (kind.manager.sync o).Yields fun synced => synced.created = false →
      ∀ spec, kind.key? spec synced.object.status = kind.key? spec o.status := by
  rw [Manager.sync_eq, resolve_recorded recorded, pure_bind]
  refine (readOne_keeps recorded kept o).bind fun found keeps => ?_
  cases found with
  | none => exact yields_bind fun _ => yields_pure (by simp)
  | some latest =>
    exact (settle_keeps o latest _).mono fun synced same _ spec =>
      (same spec).trans (keeps latest rfl spec)

/-- An entity that was there already is led to afterwards as it was before. -/
theorem sync_recalls (o : kind.Object) : (kind.manager.sync o).Yields fun synced => synced.created = false →
    kind.Recalls Request.Akin o.status synced.object.status := by
  cases recorded : kind.isNamed with
  | true => exact (sync_identified o).mono fun _ _ _ => .of_eq fun spec => key?_named recorded spec _ _
  | false =>
    cases reported : kind.reportsKey with
    | false =>
      exact (sync_keeps recorded reported o).mono fun _ keeps found => .of_eq fun spec =>
        (keeps found spec).symm
    | true =>
      -- Both statuses tell a key, and any two keys are looked up alike.
      cases known : kind.key? o.spec o.status with
      | none =>
        refine (sync_unknown known).mono fun synced created found => ?_
        rw [created] at found
        cases found
      | some key =>
        refine (sync_identified o).mono fun synced identified _ spec => ?_
        obtain ⟨key', told⟩ := Option.isSome_iff_exists.mp (identified.key spec)
        rw [key?_unnamed recorded spec o.spec, known, told]
        exact .some (.inr ⟨reported, .inr ⟨kind, key, key', rfl, rfl⟩⟩)

theorem Records.recalls (records : Records options clock o result stored)
    (found : ∀ synced, result = .ok synced → kind.Recalls Request.Akin o.status synced.object.status) :
    kind.Recalls Request.Akin o.status (some stored) := by
  cases result with
  | error fault =>
    refine .of_eq fun spec => ?_
    rw [records.failed fault rfl]
    exact (key?_markFailed spec o clock fault).symm
  | ok synced =>
    intro spec
    have kept : kind.key? spec (some stored) = kind.key? spec synced.object.status := by
      obtain ⟨identity, observed, rfl⟩ := records.synced synced rfl
      obtain ⟨⟨metadata, wanted, _ | ⟨_, conditions, detail⟩⟩, referenced, created⟩ := synced
      · cases observed
      · cases observed
        cases kind <;> rfl
    rw [kept]
    exact found synced rfl spec

/-- Where two syncs end alike, what is stored after the first is stored again after the second. -/
theorem Records.again (records : Records options clock o result stored)
    (records' : Records options clock' { o with status := some stored } result' stored')
    (ends : Ends (kind.Matches o.status (some stored)) result result')
    (uncreated : ∀ synced, result = .ok synced → synced.created = false) : stored' = stored := by
  cases ends with
  | error fault =>
    rw [records'.failed fault rfl, records.failed fault rfl]
    exact congrArg (Status.mk _ · _) (Condition.afterFault_again clock clock' fault o.conditions)
  | @ok synced synced' same =>
    obtain ⟨identity, observed, stores⟩ := records.synced synced rfl
    obtain ⟨identity', observed', stores'⟩ := records'.synced synced' rfl
    have sighted := same.sighted (uncreated synced rfl)
    have identities : { identity' with region := options.region <|> identity'.region } =
        { identity with region := options.region <|> identity.region } := by
      rcases sighted.identity with told | ⟨-, kept⟩
      · cases observed.symm.trans (told.trans observed')
        rfl
      · -- The identity is the stored one, which has its region already.
        rw [observed', stores] at kept
        cases kept
        cases options.region <;> rfl
    have conditions : Condition.afterSync clock' synced.referenced stored.conditions = stored.conditions := by
      rw [stores]
      exact Condition.afterSync_again clock clock' synced.referenced o.conditions
    rw [stores', identities, ← same.referenced, ← sighted.detail]
    refine (congrArg (Status.mk _ · _) conditions).trans ?_
    rw [stores]

/-- A pass that has not created anything stores a status beside which the same answers lead to the same patch. -/
theorem apply_fixpoint (kind : Kind) (options : PassOptions) (clock clock' : Clock) (space : String)
    (o : kind.Object) {oracle oracle' : Oracle} (agree : oracle.Agrees Request.Akin oracle')
    (uncreated : ∀ synced, ((kind.manager.sync o).toldBy oracle []).1 = .ok synced → synced.created = false) :
    ∃ patch status, (kind.apply options clock space o).patches oracle = [(⟨kind, space, o.name⟩, patch)] ∧
      kind.statusMember.read (patch.member? "status") = some status ∧
      (kind.apply options clock' space { o with status }).patches oracle' = [(⟨kind, space, o.name⟩, patch)] := by
  obtain ⟨stored, records, patches⟩ := apply_patches options clock space o oracle
  obtain ⟨stored', records', patches'⟩ :=
    apply_patches options clock' space { o with status := some stored } oracle'
  have recalls : kind.Recalls Request.Akin o.status (some stored) := by
    refine records.recalls fun synced succeeds => ?_
    obtain ⟨steps, run, -⟩ := Job.exists_run oracle [] (kind.manager.sync o)
    rw [succeeds] at run
    exact run.yielded (sync_recalls o) (uncreated synced succeeds)
  have ends := ((alike_sync o (some stored) recalls).toldBy agree (asks_sync o) .nil).1
  have same := records.again records' ends uncreated
  subst same
  refine ⟨_, some stored', patches, ?_, patches'⟩
  exact read_statusMember Json.Channel.direct_sound rfl

/-- A policy that went by another ARN when it was last in sync. -/
def movedPolicy : PolicyObject where
  metadata := ⟨some "app", none, some "space", [policy.finalizer], none⟩
  spec := ⟨"app", some "/", none, "", [⟨"team", "one"⟩]⟩
  status := some ⟨some (Identity.ofArn "arn:old"), [⟨.recoverable, .yes, none, none, none⟩,
    ⟨.synced, .no, none, none, none⟩], default⟩

/-- An oracle to whom every policy goes by a new ARN and has no tags. -/
def archive : Oracle
  | _, .iam (.getPolicy _) =>
    .ok (some ⟨"arn:new", some "ANPA", some "app", some "/", none, none, none, none, true, none, none⟩)
  | _, .iam (.listTags _) => .ok []
  | _, .iam (.tag _ _) => .ok ()
  | _, .iam _ => .error .malformedObject
  | _, .policy _ _ => .ok none
  | _, .role _ _ => .ok none
  | _, .patchStatus _ _ => .ok ()
  | _, .patchFinalizers _ _ => .ok ()
  | _, .note _ _ => ()

/-- The tags of a policy are changed, and its new ARN is stored; a second later, the pass does as much again. -/
theorem apply_fixpoint_movedPolicy :
    archive.Agrees Request.Akin archive ∧
    (∀ synced, ((policy.manager.sync movedPolicy).toldBy archive []).1 = .ok synced → synced.created = false) ∧
    ∃ patch status,
      (policy.apply ⟨none, 600, 15⟩ (fun _ => .epoch) "space" movedPolicy).patches archive =
        [(⟨policy, "space", "app"⟩, patch)] ∧
      policy.statusMember.read (patch.member? "status") = some status ∧
      (policy.apply ⟨none, 600, 15⟩ (fun _ => ⟨Instant.epoch.date, 1, 0, by decide⟩) "space"
          { movedPolicy with status }).patches archive = [(⟨policy, "space", "app"⟩, patch)] := by
  have agree : archive.Agrees Request.Akin archive := by
    rintro past past' r _ - (rfl | ⟨kind, key, key', rfl, rfl⟩) -
    · cases r with
      | iam call => cases call <;> rfl
      | policy | role | patchStatus | patchFinalizers | note => rfl
    · cases kind <;> rfl
  have uncreated (synced) (succeeds : ((policy.manager.sync movedPolicy).toldBy archive []).1 = .ok synced) :
      synced.created = false := by
    obtain ⟨observed, found⟩ : ∃ observed,
        ((policy.manager.sync movedPolicy).toldBy archive []).1 = .ok ⟨observed, false, false⟩ := ⟨_, rfl⟩
    cases found.symm.trans succeeds
    rfl
  exact ⟨agree, uncreated, apply_fixpoint policy _ _ _ "space" movedPolicy agree uncreated⟩

end Kind

end IamKeeper
