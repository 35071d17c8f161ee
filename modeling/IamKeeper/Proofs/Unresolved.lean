import IamKeeper.Proofs.Fixpoint

namespace IamKeeper

open Plan hiding bind_assoc

namespace Condition

variable {conditions : List Condition}

/-- What is told of the references is that they are unresolved. -/
def Unresolved (conditions : List Condition) : Prop :=
  ∃ message reason, First conditions .referencesResolved .no message reason

theorem not_unresolved_of_lacks (lacks : Lacks conditions .referencesResolved) : ¬Unresolved conditions := by
  rintro ⟨message, reason, since, first⟩
  rw [lacks] at first
  cases first

theorem not_unresolved_of_first {message reason : Option String}
    (resolved : First conditions .referencesResolved .yes message reason) : ¬Unresolved conditions := by
  rintro ⟨message', reason', since', first'⟩
  obtain ⟨since, first⟩ := resolved
  cases first.symm.trans first'

theorem not_unresolved_afterSync (clock : Clock) (referenced : Bool) (conditions : List Condition) :
    ¬Unresolved (afterSync clock referenced conditions) := by
  cases referenced with
  | true =>
    have resolved : First (afterSync clock true conditions) .referencesResolved .yes none none := by
      simp [afterSync, setBy, first_set]
    exact not_unresolved_of_first resolved
  | false => exact not_unresolved_of_lacks (by simp [afterSync, setBy, lacks_remove])

/-- A fault that lies in no reference changes nothing of what is told of the references. -/
theorem unresolved_afterFault (clock : Clock) (fault : Fault) (conditions : List Condition) :
    Unresolved (afterFault clock fault conditions) ↔ fault.isReference = true ∨ Unresolved conditions := by
  cases reference : fault.isReference with
  | true =>
    refine iff_of_true ⟨some fault.message, none, ?_⟩ (.inl rfl)
    cases terminal : fault.isTerminal <;> simp [afterFault, setBy, reference, terminal, first_set]
  | false => cases terminal : fault.isTerminal <;> simp [Unresolved, afterFault, setBy, reference, terminal]

end Condition

/-- A stored status that tells of unresolved references. -/
def Status.Unresolved {D : Type} (status : Option (Status D)) : Prop :=
  Condition.Unresolved ((status.map Status.conditions).getD [])

theorem unresolved_markFailed {S D : Type} [Inhabited D] (o : Object S D) (clock : Clock) (fault : Fault) :
    Status.Unresolved (o.markFailed clock fault).status ↔ fault.isReference = true ∨ Status.Unresolved o.status :=
  Condition.unresolved_afterFault clock fault o.conditions

/-- Steps in which every patch is accepted. -/
def Accepted {σ : Type} (steps : List (Step world σ)) : Prop :=
  ∀ step ∈ steps, step.request.patches = true → step.failed = false

namespace Kind

variable {kind : Kind} {s t : Option (Status kind.Detail)}

theorem status_of_statusPatch {a b : kind.Object} (same : kind.statusPatch a = kind.statusPatch b) :
    a.status = b.status := by
  have reads (o : kind.Object) : kind.statusMember.read ((kind.statusPatch o).member? "status") = some o.status :=
    read_statusMember Json.Channel.direct_sound rfl
  have written : some a.status = some b.status := by rw [← reads a, ← reads b, same]
  exact Option.some.inj written

theorem Stores.status_eq {o : kind.Object} (stores : kind.Stores (kind.statusPatch o) t) : t = o.status := by
  obtain ⟨written, same, rfl⟩ := stores
  exact status_of_statusPatch same

/-- Steps that patch a status in one way only, and whose patches are accepted, leave what that patch tells. -/
theorem run_accepted {α : Type} {p : Job α} {patch : Json}
    {steps : List (Step world (Option (Status kind.Detail)))} {outcome : Except Fault α}
    (run : Run kind.Ledger s p steps outcome t) (accepted : Accepted steps)
    (single : ∀ entry ∈ statusPatches steps, entry.2 = patch) :
    (statusPatches steps = [] ∧ t = s) ∨ kind.Stores patch t := by
  induction run with
  | done => exact .inl ⟨rfl, rfl⟩
  | @ask s mid t r next answer steps outcome answered rest ih =>
    obtain ⟨first, later⟩ := List.forall_mem_cons.mp accepted
    cases r with
    | patchStatus path written =>
      obtain ⟨same, others⟩ := List.forall_mem_cons.mp
        (show ∀ entry ∈ (path, written) :: statusPatches steps, entry.2 = patch from single)
      have kept : kind.Stores patch mid := by
        cases answer with
        | ok => exact (show written = patch from same) ▸ answered
        | error => exact nomatch first rfl
      rcases ih later others with ⟨-, rfl⟩ | stores
      · exact .inr kept
      · exact .inr stores
    | iam | policy | role | patchFinalizers | note =>
      cases (show mid = s from answered)
      exact ih later single

end Kind

namespace Turn

variable {kind : Kind} {s t : Option (Status kind.Detail)} {turns : List (Turn kind)}

def Syncs (turn : Turn kind) (result : Except Fault (Synced kind.Spec kind.Detail)) : Prop :=
  ∃ front rest mid, Run kind.Ledger turn.before (kind.manager.sync turn.object) front result mid ∧
    turn.steps = front ++ rest

def Blames (turn : Turn kind) : Prop :=
  ∃ fault, turn.Syncs (.error fault) ∧ fault.isReference = true

/-- A turn that fails, but not for a reference. -/
def FailsElsewhere (turn : Turn kind) : Prop :=
  ∃ fault, turn.Syncs (.error fault) ∧ fault.isReference = false

theorem Syncs.unique {turn : Turn kind} {result result' : Except Fault (Synced kind.Spec kind.Detail)}
    (h : turn.Syncs result) (h' : turn.Syncs result') : result = result' := by
  obtain ⟨front, rest, mid, run, same⟩ := h
  obtain ⟨front', rest', mid', run', same'⟩ := h'
  have prefixes : front <+: turn.steps ∧ front' <+: turn.steps :=
    ⟨⟨rest, same.symm⟩, ⟨rest', same'.symm⟩⟩
  rcases List.prefix_or_prefix_of_prefix prefixes.1 prefixes.2 with shorter | shorter
  · exact (run.eq_of_prefix run' shorter).2.1.symm
  · exact (run'.eq_of_prefix run shorter).2.1

theorem unresolved_apply {options : PassOptions} {clock : Clock} {space : String} {o : kind.Object}
    {steps : List (Step world (Option (Status kind.Detail)))} {outcome : Except Fault Action} (current : o.status = s)
    (run : Run kind.Ledger s (kind.apply options clock space o) steps outcome t) (accepted : Accepted steps)
    {turn : Turn kind} (this : turn = ⟨options, clock, space, o, s, steps, outcome, t⟩) :
    Status.Unresolved t ↔ turn.Blames ∨ turn.FailsElsewhere ∧ Status.Unresolved s := by
  obtain ⟨result, front, rest, mid, stored, hsync, split, records, patches⟩ := Kind.apply_accounted run
  have syncs : turn.Syncs result := this ▸ ⟨front, rest, mid, hsync, split⟩
  have after : t = some stored := by
    have single : ∀ entry ∈ statusPatches steps, entry.2 = kind.statusPatch { o with status := some stored } := by
      rw [patches]
      exact List.forall_mem_singleton.mpr rfl
    rcases Kind.run_accepted run accepted single with ⟨unpatched, -⟩ | stores
    · rw [patches] at unpatched
      cases unpatched
    · exact stores.status_eq
  subst after current
  cases result with
  | ok synced =>
    obtain ⟨identity, -, rfl⟩ := records.synced synced rfl
    refine iff_of_false (Condition.not_unresolved_afterSync clock synced.referenced o.conditions) ?_
    rintro (⟨fault, failed, -⟩ | ⟨⟨fault, failed, -⟩, -⟩) <;> cases syncs.unique failed
  | error fault =>
    cases records.failed fault rfl
    refine (unresolved_markFailed o clock fault).trans ?_
    have blames : turn.Blames ↔ fault.isReference = true := by
      constructor
      · rintro ⟨fault', failed, reference⟩
        cases syncs.unique failed
        exact reference
      · exact fun reference => ⟨fault, syncs, reference⟩
    rw [blames]
    cases reference : fault.isReference with
    | true => simp
    | false =>
      have elsewhere : turn.FailsElsewhere := ⟨fault, syncs, reference⟩
      simp only [elsewhere, true_and]

/-- The last blame is the first turn, or one after it. -/
theorem exists_last_cons {P Q : Turn kind → Prop} {first : Turn kind} {turns : List (Turn kind)} :
    (∃ front turn back, first :: turns = front ++ turn :: back ∧ P turn ∧ ∀ later ∈ back, Q later) ↔
      (P first ∧ ∀ later ∈ turns, Q later) ∨
        ∃ front turn back, turns = front ++ turn :: back ∧ P turn ∧ ∀ later ∈ back, Q later := by
  constructor
  · rintro ⟨_ | ⟨_, front⟩, turn, back, split, holds, rest⟩
    · cases split
      exact .inl ⟨holds, rest⟩
    · exact .inr ⟨front, turn, back, (List.cons.inj split).2, holds, rest⟩
  · rintro (⟨holds, rest⟩ | ⟨front, turn, back, rfl, holds, rest⟩)
    · exact ⟨[], first, turns, rfl, holds, rest⟩
    · exact ⟨first :: front, turn, back, rfl, holds, rest⟩

/-- After each pass the references are told to be unresolved if it failed for one, or if it failed for another reason
and found them told so. What a history leaves is therefore told by the last pass that succeeded or failed for a
reference, however long ago that was. -/
theorem History.unresolved_iff (history : History s turns t) (accepted : ∀ turn ∈ turns, Accepted turn.steps) :
    (∀ turn ∈ turns, Status.Unresolved turn.after ↔
      turn.Blames ∨ turn.FailsElsewhere ∧ Status.Unresolved turn.before) ∧
    (Status.Unresolved t ↔
      (∃ front turn back, turns = front ++ turn :: back ∧ turn.Blames ∧ ∀ later ∈ back, later.FailsElsewhere) ∨
        (∀ turn ∈ turns, turn.FailsElsewhere) ∧ Status.Unresolved s) := by
  induction history with
  | nil => simp
  | apply current run _ ih =>
    obtain ⟨first, later⟩ := List.forall_mem_cons.mp accepted
    obtain ⟨each, last⟩ := ih later
    have told := unresolved_apply current run first rfl
    refine ⟨List.forall_mem_cons.mpr ⟨told, each⟩, ?_⟩
    rw [last, told, exists_last_cons, List.forall_mem_cons]
    constructor
    · rintro (blamed | ⟨rest, blames | ⟨fails, unresolved⟩⟩)
      · exact .inl (.inr blamed)
      · exact .inl (.inl ⟨blames, rest⟩)
      · exact .inr ⟨⟨fails, rest⟩, unresolved⟩
    · rintro ((⟨blames, rest⟩ | blamed) | ⟨⟨fails, rest⟩, unresolved⟩)
      · exact .inr ⟨rest, .inl blames⟩
      · exact .inl blamed
      · exact .inr ⟨rest, .inr ⟨fails, unresolved⟩⟩

/-- A fault with which the sync of an object may end. -/
def MayFail (o : kind.Object) (fault : Fault) : Prop :=
  ∃ steps, Run kind.Ledger o.status (kind.manager.sync o) steps (.error fault) o.status

/-- A failure that is worth another try is stored, and the turn in which it is can go first in a history. -/
theorem exists_failing {o : kind.Object} {fault : Fault} (options : PassOptions) (clock : Clock) (space : String)
    (recoverable : fault.isTerminal = false) (fails : MayFail o fault) :
    ∃ turn : Turn kind, turn.object = o ∧ turn.Syncs (.error fault) ∧ Accepted turn.steps ∧
      turn.after = (o.markFailed clock fault).status ∧
      ∀ turns t, History turn.after turns t → History o.status (turn :: turns) t := by
  obtain ⟨front, sync⟩ := fails
  let marked := o.markFailed clock fault
  let patched : Step world (Option (Status kind.Detail)) :=
    ⟨o.status, Request.patchStatus ⟨kind, space, marked.name⟩ (kind.statusPatch marked), Except.ok (), marked.status⟩
  have conclude : Run kind.Ledger o.status (kind.conclude options clock space o (.error fault)) [patched]
      (.error fault) marked.status := by
    simp only [Kind.conclude, recoverable, Bool.false_eq_true, if_false]
    exact Job.run_ask (r := Request.patchStatus _ _) (Except.ok ()) ⟨marked, rfl, rfl⟩ .done
  have run : Run kind.Ledger o.status (kind.apply options clock space o) (front ++ [patched]) (.error fault)
      marked.status :=
    Kind.apply_eq .. ▸ (run_attempt.mpr ⟨_, sync, rfl⟩).bind conclude
  refine ⟨⟨options, clock, space, o, o.status, _, _, _⟩, rfl, ⟨front, [patched], o.status, sync, rfl⟩, ?_, rfl,
    fun turns t later => .apply rfl run later⟩
  intro step hs patches
  rcases List.mem_append.mp hs with hs | hs
  · have unpatched := sync.asked (Kind.asks_sync o) step hs
    rw [patches] at unpatched
    cases unpatched
  · cases List.mem_singleton.mp hs
    rfl

/-- A profile with the role of an object, or with none. -/
def tenant (roleRef : Option Reference) (status : Option (Status InstanceProfileDetail)) :
    Kind.instanceProfile.Object where
  metadata := ⟨some "web", none, some "space", [Kind.instanceProfile.finalizer], none⟩
  spec := ⟨"web", none, none, roleRef, []⟩
  status := status

def toRole : Reference :=
  ⟨some ⟨some "app", none⟩⟩

def roleMissing : Fault :=
  .referentMissing ⟨"Role", "space", "app"⟩

def profileThrottled : Fault :=
  .iam "GetInstanceProfile" (some "Throttling") "slow down"

def appRole : RoleObject where
  metadata := ⟨some "app", none, some "space", [], none⟩
  spec := ⟨"app", none, none, "", none, none, none, [], [], ∅, []⟩
  status := some ⟨none, [⟨.synced, .yes, none, none, none⟩], default⟩

variable (status : Option (Status InstanceProfileDetail))

theorem mayFail_missing : MayFail (tenant (some toRole) status) roleMissing :=
  ⟨_, Job.run_ask (r := Request.role "space" "app") (Except.ok none) rfl .done⟩

theorem mayFail_resolved : MayFail (tenant (some toRole) status) profileThrottled :=
  ⟨_, Job.run_ask (r := Request.role "space" "app") (Except.ok (some appRole)) rfl <|
    Job.run_ask (r := Request.iam (.getInstanceProfile "web")) (Except.error profileThrottled) rfl .done⟩

theorem mayFail_unreferenced : MayFail (tenant none status) profileThrottled :=
  ⟨_, Job.run_ask (r := Request.iam (.getInstanceProfile "web")) (Except.error profileThrottled) rfl .done⟩

/-- A role is missing at first. Once it is there IAM throttles, and the reference that was resolved goes on being told
of as unresolved. -/
theorem unresolved_iff_throttled :
    ∃ first second : Turn .instanceProfile, History none [first, second] second.after ∧
      (∀ turn ∈ [first, second], Accepted turn.steps) ∧ second.FailsElsewhere ∧ Status.Unresolved second.after := by
  obtain ⟨first, -, blames, accepted, after, starts⟩ :=
    exists_failing ⟨none, 600, 15⟩ (fun _ => .epoch) "space" rfl (mayFail_missing none)
  obtain ⟨second, -, fails, accepted', -, follows⟩ :=
    exists_failing ⟨none, 600, 15⟩ (fun _ => .epoch) "space" rfl (mayFail_resolved first.after)
  have history : History none [first, second] second.after := starts _ _ (follows _ _ .nil)
  have all : ∀ turn ∈ [first, second], Accepted turn.steps := by simp [accepted, accepted']
  have elsewhere : second.FailsElsewhere := ⟨_, fails, rfl⟩
  have told := (history.unresolved_iff all).2.mpr (.inl ⟨[], first, [second], rfl, ⟨_, blames, rfl⟩, by simpa⟩)
  exact ⟨first, second, history, all, elsewhere, told⟩

/-- A reference is taken out of an object, and still told of as unresolved after a pass that fails for IAM. -/
theorem unresolved_unreferenced :
    ∃ first second : Turn .instanceProfile, History none [first, second] second.after ∧
      (∀ turn ∈ [first, second], Accepted turn.steps) ∧ second.object.spec.roleRef = none ∧ ¬second.Blames ∧
      Status.Unresolved second.after := by
  obtain ⟨first, -, -, accepted, after, starts⟩ :=
    exists_failing ⟨none, 600, 15⟩ (fun _ => .epoch) "space" rfl (mayFail_missing none)
  obtain ⟨second, edited, fails, accepted', after', follows⟩ :=
    exists_failing ⟨none, 600, 15⟩ (fun _ => .epoch) "space" rfl (mayFail_unreferenced first.after)
  refine ⟨first, second, starts _ _ (follows _ _ .nil), by simp [accepted, accepted'], by rw [edited]; rfl, ?_, ?_⟩
  · rintro ⟨fault, failed, reference⟩
    cases failed.unique fails
    cases reference
  · have before : Status.Unresolved (tenant none first.after).status := by
      change Status.Unresolved first.after
      rw [after, unresolved_markFailed]
      exact .inl rfl
    rw [after', unresolved_markFailed]
    exact .inr before

end Turn

end IamKeeper
