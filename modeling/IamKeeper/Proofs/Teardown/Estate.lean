import IamKeeper.Proofs.Removal
import Mathlib.Logic.Function.Basic

namespace IamKeeper

open Iam
open Plan hiding bind_assoc

abbrev Estate : Type :=
  Owner → Option (List Tie)

namespace Estate

variable {s t u : Estate}

def Holds (s : Estate) (owner : Owner) (tie : Tie) : Prop :=
  ∃ ties, s owner = some ties ∧ tie ∈ ties

/-- Something that must be gone before still hangs on the entity that a call is to delete. -/
def Refuses (s : Estate) (call : Call) : Prop :=
  ∃ owner tie, call.deleted? = some owner ∧ tie.bond ∈ call.bonds ∧ s.Holds owner tie

def untie (s : Estate) (owner : Owner) (tie : Tie) : Estate :=
  Function.update s owner ((s owner).map fun ties => ties.filter (· ≠ tie))

/-- An entity is found exactly if it is there, and what is reported of it fits. -/
def Finds {α : Type} (s : Estate) (owner : Owner) (found : Option α) (fits : α → Prop) : Prop :=
  (found = none ↔ s owner = none) ∧ ∀ report, found = some report → fits report

/-- What a read tells. Listings tell their members in any order and number. -/
def Tells (s : Estate) : (call : Call) → call.Result → Prop
  | .getRole name, found => s.Finds (.principal (.role name)) found fun report => report.name = name
  | .getUser name, found => s.Finds (.principal (.user name)) found fun report => report.name = name
  | .getGroup name, found => s.Finds (.principal (.group name)) found fun report => report.name = name
  | .getPolicy arn, found => s.Finds (.policy arn) found fun report => report.arn = arn
  | .getInstanceProfile name, found =>
    s.Finds (.instanceProfile name) found fun report => report.name = name ∧
      ∀ role, role ∈ report.roles ↔ s.Holds (.instanceProfile name) ⟨.role, role⟩
  | .getOidcProvider arn, found => s.Finds (.oidcProvider arn) found fun _ => True
  | .getSamlProvider arn, found => s.Finds (.samlProvider arn) found fun _ => True
  | .listAttached p, arns => ∀ arn, arn ∈ arns ↔ s.Holds (.principal p) ⟨.attached, arn⟩
  | .listInline p, names => ∀ name, name ∈ names ↔ s.Holds (.principal p) ⟨.inline, name⟩
  | .listPolicyVersions arn, versions => ∀ id,
    (∃ version ∈ versions, version.isDefault = false ∧ version.id = id) ↔
      s.Holds (.policy arn) ⟨.version, id⟩
  | _, _ => True

/-- What a call that succeeds does. Calls that neither read nor take away are not followed. -/
structure Does (s : Estate) (call : Call) (result : call.Result) (t : Estate) : Prop where
  accepted : ¬ s.Refuses call
  reads : call.isRead = true → s.Tells call result ∧ t = s
  unties : ∀ owner tie, call.untied? = some (owner, tie) → t = s.untie owner tie
  deletes : ∀ owner, call.deleted? = some owner → t = Function.update s owner none

/-- The world in which calls do what they are named for, with documents told escaped, or fail without
effect. The deletion of a service-linked role counts as done when IAM has taken it on. -/
def Answers (s : Estate) : (r : Request) → r.Answer → Estate → Prop
  | .iam call, .ok result, t =>
    Replies.escaped (.iam call) (.ok result) ∧ s.Does call result t
  | _, _, t => t = s

/-- An instance profile holds one role at most, which has a name. -/
def Sound (s : Estate) : Prop :=
  ∀ profile role, s.Holds (.instanceProfile profile) ⟨.role, role⟩ →
    role ≠ "" ∧ ∀ other, s.Holds (.instanceProfile profile) ⟨.role, other⟩ → other = role

/-- Entities and what hangs on them may go, but nothing comes. -/
structure Fades (s t : Estate) : Prop where
  there : ∀ owner, s owner = none → t owner = none
  holds : ∀ owner tie, t.Holds owner tie → s.Holds owner tie

theorem Fades.refl (s : Estate) : s.Fades s :=
  ⟨fun _ => id, fun _ _ => id⟩

theorem Fades.trans (h : s.Fades t) (h' : t.Fades u) : s.Fades u :=
  ⟨fun owner gone => h'.there owner (h.there owner gone),
    fun owner tie held => h.holds owner tie (h'.holds owner tie held)⟩

theorem Sound.fades (sound : s.Sound) (fades : s.Fades t) : t.Sound := by
  intro profile role held
  obtain ⟨named, alone⟩ := sound profile role (fades.holds _ _ held)
  exact ⟨named, fun other h => alone other (fades.holds _ _ h)⟩

theorem holds_untie {owner owner' : Owner} {tie tie' : Tie} :
    (s.untie owner tie).Holds owner' tie' ↔
      s.Holds owner' tie' ∧ ¬ (owner' = owner ∧ tie' = tie) := by
  unfold Holds untie
  by_cases same : owner' = owner
  · subst same
    rw [Function.update_self]
    cases s owner' with
    | none => simp
    | some ties => simp
  · rw [Function.update_of_ne same]
    simp [same]

theorem untie_fades (s : Estate) (owner : Owner) (tie : Tie) : s.Fades (s.untie owner tie) := by
  refine ⟨fun other gone => ?_, fun other tie' held => (holds_untie.mp held).1⟩
  unfold untie
  by_cases same : other = owner
  · subst same
    simp [gone]
  · rw [Function.update_of_ne same]
    exact gone

theorem delete_fades (s : Estate) (owner : Owner) : s.Fades (Function.update s owner none) := by
  refine ⟨fun other gone => ?_, fun other tie held => ?_⟩
  · by_cases same : other = owner
    · subst same
      exact Function.update_self ..
    · rw [Function.update_of_ne same]
      exact gone
  · obtain ⟨ties, there, mem⟩ := held
    by_cases same : other = owner
    · subst same
      rw [Function.update_self] at there
      cases there
    · rw [Function.update_of_ne same] at there
      exact ⟨ties, there, mem⟩

theorem escaped_bound : Replies.escaped.Bound Answers := by
  intro s r answer t answered
  cases r with
  | iam call =>
    cases answer with
    | error fault => trivial
    | ok result => exact answered.1
  | _ => trivial

theorem Does.fades {call : Call} {result : call.Result} (does : s.Does call result t)
    (removes : call.Removes) : s.Fades t := by
  rcases removes with read | removal
  · obtain ⟨-, rfl⟩ := does.reads read
    exact .refl _
  · unfold Call.isRemoval at removal
    rcases (Bool.or_eq_true _ _).mp removal with untied | deleted
    · obtain ⟨⟨owner, tie⟩, untied⟩ := Option.isSome_iff_exists.mp untied
      rw [does.unties owner tie untied]
      exact untie_fades s owner tie
    · obtain ⟨owner, deleted⟩ := Option.isSome_iff_exists.mp deleted
      rw [does.deletes owner deleted]
      exact delete_fades s owner

theorem Answers.fades {r : Request} {answer : r.Answer} (answered : Answers s r answer t)
    (removes : r.Among Call.Removes) : s.Fades t := by
  cases r with
  | iam call =>
    cases answer with
    | error fault =>
      cases answered
      exact .refl _
    | ok result => exact answered.2.fades removes
  | policy | role | patchStatus | patchFinalizers => cases removes
  | note =>
    cases answered
    exact .refl _

variable {α : Type} {p : Job α} {steps : List (Step world Estate)} {outcome : Except Fault α}

theorem run_fades (run : Run Answers s p steps outcome t)
    (removes : ∀ step ∈ steps, step.request.Among Call.Removes) :
    s.Fades t ∧ ∀ step ∈ steps, s.Fades step.before ∧ step.after.Fades t := by
  induction run with
  | done => exact ⟨.refl _, by simp⟩
  | @ask s mid t r next answer steps outcome answered rest ih =>
    obtain ⟨now, later⟩ := List.forall_mem_cons.mp removes
    have first : s.Fades mid := Answers.fades answered now
    obtain ⟨last, each⟩ := ih later
    exact ⟨first.trans last, List.forall_mem_cons.mpr ⟨⟨.refl _, last⟩, fun step hs =>
      ⟨first.trans (each step hs).1, (each step hs).2⟩⟩⟩

theorem run_still (run : Run Answers s p steps outcome t)
    (reads : ∀ step ∈ steps, step.request.Among fun call => call.isRead = true) : t = s := by
  induction run with
  | done => rfl
  | @ask s mid t r next answer steps outcome answered rest ih =>
    obtain ⟨now, later⟩ := List.forall_mem_cons.mp reads
    rw [ih later]
    cases r with
    | iam call =>
      cases answer with
      | error fault => exact answered
      | ok result => exact (answered.2.reads now).2
    | note => exact answered
    | policy | role | patchStatus | patchFinalizers => cases now

def names (s : Estate) (owner : Owner) (bond : Bond) : List String :=
  ((s owner).getD []).filterMap fun tie => if tie.bond = bond then some tie.name else none

theorem mem_names {owner : Owner} {bond : Bond} {name : String} :
    name ∈ s.names owner bond ↔ s.Holds owner ⟨bond, name⟩ := by
  unfold names Holds
  cases s owner with
  | none => simp
  | some ties =>
    simp only [Option.getD_some, List.mem_filterMap, Option.some.injEq, exists_eq_left']
    constructor
    · intro h
      obtain ⟨⟨bond', name'⟩, mem, h⟩ := h
      split at h
      next same =>
        obtain rfl := same
        cases h
        exact mem
      next => cases h
    · intro mem
      exact ⟨_, mem, by simp⟩

theorem exists_found (s : Estate) (owner : Owner) {β : Type} (fits : β → Prop) (report : β)
    (h : fits report) :
    ∃ found, s.Finds owner found fits ∧ (found = none ∨ found = some report) := by
  cases there : s owner with
  | none => exact ⟨none, ⟨by simp [there], by simp⟩, .inl rfl⟩
  | some ties => exact ⟨some report, ⟨by simp [there], by simpa using h⟩, .inr rfl⟩

theorem escaped_of_nil {call : Call} {result : call.Result} (h : call.documents result = []) :
    Replies.escaped (.iam call) (.ok result) := by
  change ∀ encoded ∈ call.documents result, _
  rw [h]
  simp

theorem exists_told (s : Estate) {call : Call} (read : call.isRead = true) :
    ∃ result : call.Result, Replies.escaped (.iam call) (.ok result) ∧ s.Tells call result := by
  cases call with
  | getRole name =>
    obtain ⟨found, finds, either⟩ := s.exists_found (.principal (.role name))
      (fun report => report.name = name) { (default : RoleReport) with name } rfl
    refine ⟨found, escaped_of_nil ?_, finds⟩
    rcases either with rfl | rfl <;> rfl
  | getUser name =>
    obtain ⟨found, finds, -⟩ := s.exists_found (.principal (.user name))
      (fun report => report.name = name) { (default : UserReport) with name } rfl
    exact ⟨found, escaped_of_nil rfl, finds⟩
  | getGroup name =>
    obtain ⟨found, finds, -⟩ := s.exists_found (.principal (.group name))
      (fun report => report.name = name) { (default : GroupReport) with name } rfl
    exact ⟨found, escaped_of_nil rfl, finds⟩
  | getPolicy arn =>
    obtain ⟨found, finds, -⟩ := s.exists_found (.policy arn)
      (fun report => report.arn = arn) { (default : PolicyReport) with arn } rfl
    exact ⟨found, escaped_of_nil rfl, finds⟩
  | getInstanceProfile name =>
    obtain ⟨found, finds, -⟩ := s.exists_found (.instanceProfile name)
      (fun report => report.name = name ∧
        ∀ role, role ∈ report.roles ↔ s.Holds (.instanceProfile name) ⟨.role, role⟩)
      { (default : InstanceProfileReport) with
        name, roles := s.names (.instanceProfile name) .role } ⟨rfl, fun _ => mem_names⟩
    exact ⟨found, escaped_of_nil rfl, finds⟩
  | getOidcProvider arn =>
    obtain ⟨found, finds, -⟩ := s.exists_found (.oidcProvider arn)
      (fun _ => True) (default : OidcProviderReport) trivial
    exact ⟨found, escaped_of_nil rfl, finds⟩
  | getSamlProvider arn =>
    obtain ⟨found, finds, -⟩ := s.exists_found (.samlProvider arn)
      (fun _ => True) (default : SamlProviderReport) trivial
    exact ⟨found, escaped_of_nil rfl, finds⟩
  | listAttached p => exact ⟨s.names (.principal p) .attached, escaped_of_nil rfl, fun _ => mem_names⟩
  | listInline p => exact ⟨s.names (.principal p) .inline, escaped_of_nil rfl, fun _ => mem_names⟩
  | listPolicyVersions arn =>
    refine ⟨(s.names (.policy arn) .version).map fun id => ⟨id, none, false, none⟩, escaped_of_nil rfl,
      fun id => ?_⟩
    rw [← mem_names]
    simp
  | getInline p name =>
    refine ⟨"", fun encoded he => ?_, trivial⟩
    rw [List.mem_singleton.mp he]
    exact ⟨"", Text.Percent.Spells.nil⟩
  | getPolicyVersion arn id => exact ⟨default, escaped_of_nil rfl, trivial⟩
  | listTags target => exact ⟨[], escaped_of_nil rfl, trivial⟩
  | _ => cases read

theorem exists_result {call : Call} (removal : call.isRemoval = true) :
    ∃ result : call.Result, call.documents result = [] := by
  cases call <;> first | exact ⟨(), rfl⟩ | exact ⟨"", rfl⟩ | cases removal

theorem exists_does (s : Estate) {call : Call} (removes : call.Removes) (free : ¬ s.Refuses call) :
    ∃ (result : call.Result) (t : Estate),
      Replies.escaped (.iam call) (.ok result) ∧ s.Does call result t := by
  rcases removes with read | removal
  · obtain ⟨result, escaped, tells⟩ := s.exists_told read
    refine ⟨result, s, escaped, free, fun _ => ⟨tells, rfl⟩, fun owner tie untied => ?_,
      fun owner deleted => ?_⟩
    · rw [Call.untied?_read read] at untied
      cases untied
    · rw [Call.deleted?_read read] at deleted
      cases deleted
  · obtain ⟨result, untold⟩ := exists_result removal
    unfold Call.isRemoval at removal
    cases untied : call.untied? with
    | some part =>
      obtain ⟨owner, tie⟩ := part
      have alone := Call.deleted?_untied (Option.isSome_of_mem untied)
      refine ⟨result, s.untie owner tie, escaped_of_nil untold, free, fun read => ?_, fun _ _ same => ?_,
        fun _ deleted => ?_⟩
      · rw [Call.untied?_read read] at untied
        cases untied
      · cases untied.symm.trans same
        rfl
      · cases alone.symm.trans deleted
    | none =>
      cases deleted : call.deleted? with
      | none => simp [untied, deleted] at removal
      | some owner =>
        refine ⟨result, Function.update s owner none, escaped_of_nil untold, free, fun read => ?_,
          fun _ _ h => ?_, fun _ same => ?_⟩
        · rw [Call.deleted?_read read] at deleted
          cases deleted
        · cases untied.symm.trans h
        · cases deleted.symm.trans same
          rfl

/-- Removals have a run in which nothing fails but what is refused. -/
theorem exists_run {own : Fault → Prop}
    (h : Job.Heeds Replies.escaped (Request.Among Call.Removes) own p) (s : Estate) :
    ∃ steps outcome t, Run Answers s p steps outcome t ∧ ∀ step ∈ steps, step.failed = true →
      ∃ call, step.request = .iam call ∧ step.before.Refuses call := by
  induction p generalizing s with
  | done outcome => exact ⟨[], outcome, s, .done, by simp⟩
  | ask r next ih =>
    obtain ⟨removes, later⟩ := h
    cases r with
    | note level text =>
      have rest : Job.Heeds Replies.escaped (Request.Among Call.Removes) own (next ()) :=
        later () trivial
      obtain ⟨steps, outcome, t, run, fine⟩ := ih () rest s
      exact ⟨_, outcome, t, Job.run_ask (r := Request.note level text) () rfl run,
        List.forall_mem_cons.mpr ⟨nofun, fine⟩⟩
    | iam call =>
      -- A refused call fails and ends the plan; any other is given an answer with which it goes on.
      by_cases refused : s.Refuses call
      · obtain ⟨fault, ends⟩ : ∃ fault, next (Except.error .malformedObject) = .done (.error fault) :=
          later (Except.error .malformedObject) trivial
        have stops : Run Answers s (next (Except.error .malformedObject)) [] (.error fault) s := by
          rw [ends]
          exact .done
        refine ⟨_, .error fault, s, Job.run_ask (r := Request.iam call) (Except.error .malformedObject)
          rfl stops, List.forall_mem_cons.mpr ⟨fun _ => ⟨call, rfl, refused⟩, by simp⟩⟩
      · obtain ⟨result, mid, escaped, does⟩ := s.exists_does removes refused
        have rest : Job.Heeds Replies.escaped (Request.Among Call.Removes) own (next (.ok result)) :=
          later (Except.ok result) escaped
        obtain ⟨steps, outcome, t, run, fine⟩ := ih (Except.ok result) rest mid
        exact ⟨_, outcome, t, Job.run_ask (r := Request.iam call) (Except.ok result) ⟨escaped, does⟩ run,
          List.forall_mem_cons.mpr ⟨nofun, fine⟩⟩
    | policy | role | patchStatus | patchFinalizers => cases removes

end Estate

end IamKeeper
