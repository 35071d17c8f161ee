import IamKeeper.Proofs.Conditions
import IamKeeper.Proofs.Fixpoint

namespace IamKeeper

open Plan hiding bind_assoc

/-- The condition that holds after a verdict. -/
def Verdict.type : Verdict → ConditionType
  | synced _ => .synced
  | failed fault => if fault.isTerminal then .terminal else .recoverable

/-- What a pass blames when its status cannot be stored: the fault that is worth another try, or else that one. -/
def Verdict.blame (cause : ApiFault) : Verdict → Fault
  | synced _ => .api cause
  | failed fault => if fault.isTerminal then .api cause else fault

namespace Condition

variable {type : ConditionType} {status : ConditionStatus} {message reason : Option String}
  {conditions : List Condition}

theorem holds_eq (type : ConditionType) (conditions : List Condition) :
    holds type conditions = (ofType type conditions).any fun c => c.status = .yes := by
  unfold holds ofType
  rw [List.any_filter]

theorem Has.holds_iff (has : Has conditions type status message reason) :
    holds type conditions = true ↔ status = .yes := by
  obtain ⟨since, only⟩ := has
  rw [holds_eq, only]
  simp

theorem Lacks.not_holds (lacks : Lacks conditions type) : holds type conditions = false := by
  rw [holds_eq, lacks]
  rfl

/-- Of what tells how a pass ended, the one condition holds that fits the verdict. -/
theorem Tell.holds_iff {verdict : Verdict} (tell : Tell conditions verdict) (decisive : type ≠ .referencesResolved) :
    holds type conditions = true ↔ type = verdict.type := by
  cases verdict with
  | synced referenced =>
    obtain ⟨terminal, recoverable, -⟩ := tell.afterSync referenced rfl
    cases type with
    | synced => exact iff_of_true (tell.synced.holds_iff.mpr rfl) rfl
    | terminal => simp [terminal.not_holds, Verdict.type]
    | recoverable => simp [recoverable.not_holds, Verdict.type]
    | referencesResolved => exact absurd rfl decisive
  | failed fault =>
    have unsynced : holds .synced conditions ≠ true := fun h => nomatch tell.synced.holds_iff.mp h
    cases ruled : fault.isTerminal with
    | true =>
      obtain ⟨terminal, recoverable⟩ := tell.afterTerminal fault rfl ruled
      cases type with
      | synced => simp [unsynced, Verdict.type, ruled]
      | terminal => simp [terminal.holds_iff, Verdict.type, ruled]
      | recoverable => simp [recoverable.not_holds, Verdict.type, ruled]
      | referencesResolved => exact absurd rfl decisive
    | false =>
      obtain ⟨recoverable, terminal⟩ := tell.afterOther fault rfl ruled
      cases type with
      | synced => simp [unsynced, Verdict.type, ruled]
      | terminal => simp [terminal.not_holds, Verdict.type, ruled]
      | recoverable => simp [recoverable.holds_iff, Verdict.type, ruled]
      | referencesResolved => exact absurd rfl decisive

end Condition

namespace Job

variable {α β : Type} {oracle : Oracle} {past : List Request}

theorem toldBy_attempt (p : Job α) :
    Job.toldBy p.attempt oracle past = (.ok (p.toldBy oracle past).1, (p.toldBy oracle past).2) := by
  induction p generalizing past with
  | done outcome => rfl
  | ask r next ih => exact ih (oracle past r)

theorem toldBy_mapFault (f : Fault → Fault) (p : Job α) :
    Job.toldBy (p.mapFault f) oracle past =
      ((p.toldBy oracle past).1.mapError f, (p.toldBy oracle past).2) := by
  induction p generalizing past with
  | done outcome => cases outcome <;> rfl
  | ask r next ih => exact ih (oracle past r)

/-- What an oracle is asked by a job comes behind what it was asked before. -/
theorem toldBy_asks {P : Request → Prop} {p : Job α} (asks : p.Asks P) (oracle : Oracle) (past : List Request) :
    ∃ asked, (p.toldBy oracle past).2 = past ++ asked ∧ ∀ r ∈ asked, P r := by
  obtain ⟨steps, run, asked⟩ := exists_run oracle past p
  refine ⟨requests steps, asked, fun r hr => ?_⟩
  obtain ⟨step, hs, rfl⟩ := List.mem_map.mp hr
  exact run.asked asks step hs

/-- A job that comes to one outcome, and patches nothing. -/
def Settled (p : Job α) (outcome : Except Fault α) : Prop :=
  ∀ oracle past, ∃ asked, p.toldBy oracle past = (outcome, past ++ asked) ∧ ∀ r ∈ asked, r.patches = false

theorem settled_done (outcome : Except Fault α) : Settled (.done outcome) outcome :=
  fun _ past => ⟨[], by rw [List.append_nil]; rfl, by simp⟩

theorem settled_note (level : Level) (text : String) : Settled (note level text) (.ok ()) :=
  fun _ _ => ⟨[Request.note level text], rfl, by simp [Request.patches]⟩

theorem settled_when_note (condition : Bool) (level : Level) (text : String) :
    Settled (Plan.when condition (note level text)) (.ok ()) := by
  cases condition with
  | true => exact settled_note level text
  | false => exact settled_done (.ok ())

/-- A job that asks for a request once and patches nothing else. What it comes to is told by the answer. -/
def Hinges (r : Request) (p : Job α) (outcome : r.Answer → Except Fault α) : Prop :=
  ∀ oracle past, ∃ front back,
    p.toldBy oracle past = (outcome (oracle (past ++ front) r), past ++ front ++ r :: back) ∧
      ∀ other ∈ front ++ back, other.patches = false

namespace Hinges

variable {r : Request} {outcome : r.Answer → Except Fault α}

theorem ask (r : Request) (outcome : r.Answer → Except Fault α) :
    Hinges r (.ask r fun answer => .done (outcome answer)) outcome :=
  fun _ past => ⟨[], [], by rw [List.append_nil]; rfl, by simp⟩

theorem after {p : Job β} {f : β → Job α} {value : β} (settled : Settled p (.ok value))
    (h : Hinges r (f value) outcome) : Hinges r (p >>= f) outcome := by
  intro oracle past
  obtain ⟨asked, told, quiet⟩ := settled oracle past
  obtain ⟨front, back, told', quiet'⟩ := h oracle (past ++ asked)
  refine ⟨asked ++ front, back, ?_, ?_⟩
  · rw [toldBy_bind, told, ← List.append_assoc]
    exact told'
  · rw [List.append_assoc]
    exact List.forall_mem_append.mpr ⟨quiet, quiet'⟩

theorem andThen {p : Job α} {f : α → Job β} {next : α → Except Fault β} (h : Hinges r p outcome)
    (settled : ∀ value, Settled (f value) (next value)) :
    Hinges r (p >>= f) fun answer => outcome answer >>= next := by
  intro oracle past
  obtain ⟨front, back, told, quiet⟩ := h oracle past
  cases answered : outcome (oracle (past ++ front) r) with
  | error fault =>
    refine ⟨front, back, ?_, quiet⟩
    rw [toldBy_bind, told]
    simp only [answered]
    rfl
  | ok value =>
    obtain ⟨asked, told', quiet'⟩ := settled value oracle (past ++ front ++ r :: back)
    refine ⟨front, back ++ asked, ?_, ?_⟩
    · rw [toldBy_bind, told]
      simp only [answered]
      rw [told']
      simp only [List.append_assoc, List.cons_append]
      rfl
    · rw [← List.append_assoc]
      exact List.forall_mem_append.mpr ⟨quiet, quiet'⟩

theorem attempt {p : Job α} (h : Hinges r p outcome) :
    Hinges r (Plan.attempt p) fun answer => .ok (outcome answer) := by
  intro oracle past
  obtain ⟨front, back, told, quiet⟩ := h oracle past
  exact ⟨front, back, by rw [toldBy_attempt, told], quiet⟩

theorem congr {p : Job α} (h : Hinges r p outcome) {outcome' : r.Answer → Except Fault α}
    (same : ∀ answer, outcome answer = outcome' answer) : Hinges r p outcome' := by
  rw [← funext same]
  exact h

end Hinges

end Job

namespace Kind

open Job (Hinges settled_done settled_note settled_when_note)

variable {kind : Kind} {options : PassOptions} {clock : Clock} {space : String} {o : kind.Object}
  {result : Except Fault (Synced kind.Spec kind.Detail)} {oracle : Oracle} {past : List Request}

/-- The request by which the status of an object is stored. -/
@[reducible]
def storing (kind : Kind) (space : String) (o : kind.Object) : Request :=
  .patchStatus ⟨kind, space, o.name⟩ (kind.statusPatch o)

/-- The verdict on a sync. -/
def verdict : Except Fault (Synced kind.Spec kind.Detail) → Verdict
  | .ok synced => .synced synced.referenced
  | .error fault => .failed fault

/-- How a pass ends, by its verdict and by the answer to the patch of the status. -/
def decision (options : PassOptions) (verdict : Verdict) : Except ApiFault Unit → Except Fault Action
  | .error cause => .error (verdict.blame cause)
  | .ok () =>
    match verdict with
    | .synced _ => .ok (.requeue options.resync)
    | .failed fault => if fault.isTerminal then .ok .awaitChange else .error fault

theorem hinges_storeStatus (space : String) (o : kind.Object) :
    Hinges (kind.storing space o) (kind.storeStatus space o) (Except.mapError .api) := by
  have eq : kind.storeStatus space o =
      .ask (kind.storing space o) fun answer : Except ApiFault Unit => .done (answer.mapError .api) :=
    congrArg (Plan.ask _) (funext fun answer => by cases answer <;> rfl)
  rw [eq]
  exact .ask _ _

theorem hinges_conclude (options : PassOptions) (clock : Clock) (space : String) (o : kind.Object)
    (result : Except Fault (Synced kind.Spec kind.Detail)) :
    Hinges (kind.storing space (settled options clock o result)) (kind.conclude options clock space o result)
      (decision options (verdict result)) := by
  have stored := hinges_storeStatus space (settled options clock o result)
  cases result with
  | ok synced =>
    refine .congr (.after (settled_when_note _ _ _) (stored.andThen fun _ => settled_done _)) ?_
    rintro (_ | _) <;> rfl
  | error fault =>
    cases terminal : fault.isTerminal with
    | true =>
      simp only [conclude, terminal]
      refine .congr (.after (settled_note _ _) (stored.andThen fun _ => settled_done _)) ?_
      rintro (_ | _) <;> simp [decision, verdict, Verdict.blame, terminal] <;> rfl
    | false =>
      simp only [conclude, terminal]
      rw [if_neg Bool.false_ne_true]
      refine .congr (@Hinges.andThen _ _ _ _ _ _ (fun _ => .error fault) stored.attempt fun accepted => ?_) ?_
      · cases accepted with
        | ok => exact settled_done _
        | error refusal => exact fun _ _ => ⟨[Request.note _ _], rfl, by simp [Request.patches]⟩
      · rintro (_ | _) <;> simp [decision, verdict, Verdict.blame, terminal] <;> rfl

/-- What a pass comes to beside what it stores. Its sync ended in `result`, the patch tells `conditions`, and `answer`
is what the patch was answered. -/
structure Concludes (options : PassOptions) (o : kind.Object) (result : Except Fault (Synced kind.Spec kind.Detail))
    (conditions : List Condition) (answer : Except ApiFault Unit) (outcome : Except Fault Action) : Prop where
  again : o.Distinct → answer = .ok () →
    (outcome = .ok (.requeue options.resync) ↔ Condition.holds .synced conditions = true)
  waits : o.Distinct → answer = .ok () →
    (outcome = .ok .awaitChange ↔ Condition.holds .terminal conditions = true)
  fails : o.Distinct → answer = .ok () →
    ((∃ fault, outcome = .error fault) ↔ Condition.holds .recoverable conditions = true)
  -- Of the three conditions exactly one holds.
  single : o.Distinct → ∃ told ≠ .referencesResolved, ∀ type ≠ .referencesResolved,
    Condition.holds type conditions = true ↔ type = told
  unstored : ∀ cause, answer = .error cause → outcome = .error (.applyFailed ((verdict result).blame cause))
  retried : ∀ fault, result = .error fault → fault.isTerminal = false → outcome = .error (.applyFailed fault)
  stored : ∀ action, outcome = .ok action → answer = .ok ()
  worthwhile : ∀ fault, outcome = .error fault → fault.isTerminal = false

theorem verdict_type_decisive (v : Verdict) : v.type ≠ .referencesResolved := by
  cases v with
  | synced => exact nofun
  | failed fault => cases ruled : fault.isTerminal <;> simp [Verdict.type, ruled]

/-- Where the patch was accepted, a pass ends as the condition of its verdict has it. -/
theorem decision_ok (options : PassOptions) (v : Verdict) :
    let outcome := (decision options v (.ok ())).mapError Fault.applyFailed
    (outcome = .ok (.requeue options.resync) ↔ .synced = v.type) ∧
      (outcome = .ok .awaitChange ↔ .terminal = v.type) ∧
      ((∃ fault, outcome = .error fault) ↔ .recoverable = v.type) := by
  cases v with
  | synced => simp [decision, Verdict.type, Except.mapError]
  | failed fault => cases ruled : fault.isTerminal <;> simp [decision, Verdict.type, ruled, Except.mapError]

theorem concludes_decision (options : PassOptions) (o : kind.Object)
    (result : Except Fault (Synced kind.Spec kind.Detail)) {conditions : List Condition} (answer : Except ApiFault Unit)
    (tell : o.Distinct → Condition.Tell conditions (verdict result)) :
    Concludes options o result conditions answer
      ((decision options (verdict result) answer).mapError .applyFailed) where
  again := by
    rintro distinct rfl
    exact (decision_ok options _).1.trans ((tell distinct).holds_iff (by decide)).symm
  waits := by
    rintro distinct rfl
    exact (decision_ok options _).2.1.trans ((tell distinct).holds_iff (by decide)).symm
  fails := by
    rintro distinct rfl
    exact (decision_ok options _).2.2.trans ((tell distinct).holds_iff (by decide)).symm
  single distinct := ⟨_, verdict_type_decisive _, fun _ decisive => (tell distinct).holds_iff decisive⟩
  unstored := by
    rintro cause rfl
    rfl
  retried := by
    rintro fault rfl recoverable
    cases answer <;> simp [decision, verdict, Verdict.blame, recoverable, Except.mapError]
  stored := by
    intro action acts
    cases answer with
    | ok => rfl
    | error => cases acts
  worthwhile := by
    intro fault failed
    cases h : decision options (verdict result) answer with
    | ok => rw [h] at failed; cases failed
    | error cause => rw [h] at failed; cases failed; rfl

theorem Records.tell {stored : Status kind.Detail} (records : Records options clock o result stored)
    (distinct : o.Distinct) : Condition.Tell stored.conditions (verdict result) := by
  cases result with
  | error fault =>
    rw [records.failed fault rfl]
    exact Condition.tell_afterFault distinct fault
  | ok synced =>
    obtain ⟨identity, -, stores⟩ := records.synced synced rfl
    rw [stores]
    exact Condition.tell_afterSync distinct synced.referenced

theorem told_settled (options : PassOptions) (clock : Clock) (o : kind.Object) (oracle : Oracle) (past : List Request) :
    ∃ stored, (settled options clock o ((kind.manager.sync o).toldBy oracle past).1).status = some stored ∧
      Records options clock o ((kind.manager.sync o).toldBy oracle past).1 stored := by
  obtain ⟨steps, run, -⟩ := Job.exists_run oracle past (kind.manager.sync o)
  refine records_settled options clock o _ fun synced succeeds => ?_
  rw [succeeds] at run
  exact run.yielded (sync_identified o)

/-- What an apply is told hinges on the one answer to the patch of the status. -/
theorem apply_told (options : PassOptions) (clock : Clock) (space : String) (o : kind.Object) (oracle : Oracle)
    (past : List Request) :
    ∃ stored front back, let request := kind.storing space { o with status := some stored }
      Records options clock o ((kind.manager.sync o).toldBy oracle past).1 stored ∧
      (kind.apply options clock space o).toldBy oracle past =
        (decision options (verdict ((kind.manager.sync o).toldBy oracle past).1) (oracle (past ++ front) request),
          past ++ front ++ request :: back) ∧
      ∀ other ∈ front ++ back, other.patches = false := by
  obtain ⟨stored, status, records⟩ := told_settled options clock o oracle past
  obtain ⟨asked, behind, unpatched⟩ := Job.toldBy_asks (asks_sync o) oracle past
  have hinges := hinges_conclude options clock space o ((kind.manager.sync o).toldBy oracle past).1
  unfold storing at hinges
  rw [name_settled, statusPatch_congr (b := { o with status := some stored }) status] at hinges
  obtain ⟨front, back, told, quiet⟩ := hinges oracle (past ++ asked)
  refine ⟨stored, asked ++ front, back, records, ?_, ?_⟩
  · rw [apply_eq, Job.toldBy_bind, Job.toldBy_attempt, behind, ← List.append_assoc]
    exact told
  · rw [List.append_assoc]
    exact List.forall_mem_append.mpr ⟨unpatched, quiet⟩

theorem pass_staying (options : PassOptions) (clock : Clock) (inSpace : o.metadata.space = some space)
    (claimed : kind.finalizer ∈ o.metadata.finalizers) (staying : o.metadata.deletion = none) :
    ∃ text, kind.pass options clock o =
      Job.debug text >>= fun _ => (kind.apply options clock space o).mapFault .applyFailed := by
  obtain ⟨index, found⟩ := Option.isSome_iff_exists.mp (List.isSome_idxOf?.mpr claimed)
  refine ⟨s!"reconciling {kind.name} {space}/{o.name}", ?_⟩
  unfold pass Object.spaceOf
  simp only [inSpace, found, staying, ofExcept_ok_bind]

/-- A pass over an object that stays patches nothing but the status, and that once. Where the patch is accepted, the
conditions that it tells decide when the object is looked at again. -/
theorem pass_concludes (options : PassOptions) (clock : Clock) (inSpace : o.metadata.space = some space)
    (claimed : kind.finalizer ∈ o.metadata.finalizers) (staying : o.metadata.deletion = none) (oracle : Oracle) :
    ∃ text result past patch stored back,
      ((kind.manager.sync o).toldBy oracle [Request.note .debug text]).1 = result ∧
      ((kind.pass options clock o).toldBy oracle []).2 =
        past ++ Request.patchStatus ⟨kind, space, o.name⟩ patch :: back ∧
      (∀ other ∈ past ++ back, other.patches = false) ∧
      kind.statusMember.read (patch.member? "status") = some (some stored) ∧
      Concludes options o result stored.conditions (oracle past (.patchStatus ⟨kind, space, o.name⟩ patch))
        ((kind.pass options clock o).toldBy oracle []).1 := by
  obtain ⟨text, eq⟩ := pass_staying options clock inSpace claimed staying
  obtain ⟨stored, front, back, records, told, quiet⟩ :=
    apply_told options clock space o oracle [Request.note .debug text]
  have passed : (kind.pass options clock o).toldBy oracle [] =
      (((kind.apply options clock space o).toldBy oracle [Request.note .debug text]).1.mapError .applyFailed,
        ((kind.apply options clock space o).toldBy oracle [Request.note .debug text]).2) := by
    rw [eq]
    exact Job.toldBy_mapFault .applyFailed _
  rw [told] at passed
  refine ⟨text, _, _, _, stored, back, rfl, congrArg Prod.snd passed, ?_,
    read_statusMember Json.Channel.direct_sound rfl, ?_⟩
  · exact List.forall_mem_cons.mpr ⟨rfl, quiet⟩
  · rw [passed]
    exact concludes_decision options o _ _ records.tell

/-- A group that was in sync when a pass looked at it last. -/
def refusedGroup : group.Object where
  metadata := ⟨some "ops", none, some "space", [group.finalizer], none⟩
  spec := ⟨"ops", none, [], [], ∅⟩
  status := some ⟨none, [⟨.synced, .yes, none, none, none⟩], default⟩

/-- An oracle by whom a name is taken although nothing goes by it. -/
def contrarian : Oracle
  | _, .iam (.getGroup _) => .ok none
  | _, .iam (.createGroup _) => .error (.iam "CreateGroup" (some "EntityAlreadyExists") "taken")
  | _, .iam _ => .error .malformedObject
  | _, .policy _ _ => .ok none
  | _, .role _ _ => .ok none
  | _, .patchStatus _ _ => .ok ()
  | _, .patchFinalizers _ _ => .ok ()
  | _, .note _ _ => ()

/-- A group whose name is taken is stored as stuck, and is not looked at before it changes. -/
theorem pass_concludes_refusedGroup :
    refusedGroup.Distinct ∧ ∃ (patch : Json) (stored : Status group.Detail),
      group.statusMember.read (patch.member? "status") = some (some stored) ∧
      Condition.holds .terminal stored.conditions = true ∧
      Condition.holds .synced stored.conditions = false ∧
      ((group.pass ⟨none, 600, 15⟩ (fun _ => .epoch) refusedGroup).toldBy contrarian []).1 = .ok .awaitChange := by
  have distinct : refusedGroup.Distinct := List.nodup_singleton _
  have waits : ((group.pass ⟨none, 600, 15⟩ (fun _ => .epoch) refusedGroup).toldBy contrarian []).1 =
      .ok .awaitChange := rfl
  have inSpace : refusedGroup.metadata.space = some "space" := rfl
  have claimed : group.finalizer ∈ refusedGroup.metadata.finalizers := by decide
  obtain ⟨text, result, past, patch, stored, back, -, -, -, written, concludes⟩ :=
    pass_concludes ⟨none, 600, 15⟩ (fun _ => .epoch) inSpace claimed rfl contrarian
  refine ⟨distinct, patch, stored, written, (concludes.waits distinct rfl).mp waits, ?_, waits⟩
  refine Bool.eq_false_iff.mpr fun synced => ?_
  have again := (concludes.again distinct rfl).mpr synced
  rw [waits] at again
  cases again

end Kind

end IamKeeper
