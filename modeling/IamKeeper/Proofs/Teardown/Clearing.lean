import IamKeeper.Proofs.Teardown.Estate
import IamKeeper.Proofs.Tracking.Recorded

namespace IamKeeper

open Iam
open Plan hiding bind_assoc

namespace Estate

variable {s t : Estate} {owner : Owner} {bonds : List Bond}

def Unties (s : Estate) (owner : Owner) (call : Call) : Prop :=
  call.isRead = true ∨ ∃ tie, call.untied? = some (owner, tie) ∧ s.Holds owner tie

theorem Unties.removes {call : Call} (h : s.Unties owner call) : call.Removes := by
  rcases h with read | ⟨tie, untied, -⟩
  · exact .inl read
  · exact Call.Clears.removes (.inr ⟨tie, untied⟩)

theorem Unties.faded (fades : s.Fades t) {call : Call} (h : t.Unties owner call) :
    s.Unties owner call := by
  rcases h with read | ⟨tie, untied, held⟩
  · exact .inl read
  · exact .inr ⟨tie, untied, fades.holds _ _ held⟩

/-- A plan that takes nothing away but what hangs on an entity, and rids it of some bonds when it gets
through. -/
def Rids (s : Estate) (owner : Owner) (bonds : List Bond) (p : Job Unit) : Prop :=
  ∀ steps outcome t, Run Answers s p steps outcome t →
    (∀ step ∈ steps, step.request.Among (s.Unties owner)) ∧
      (outcome = .ok () → ∀ tie, tie.bond ∈ bonds → ¬ t.Holds owner tie)

theorem Rids.fades {p : Job Unit} {steps : List (Step world Estate)} {outcome : Except Fault Unit}
    (h : s.Rids owner bonds p) (run : Run Answers s p steps outcome t) : s.Fades t := by
  have unties := (h _ _ _ run).1
  exact (run_fades run fun step hs => (unties step hs).mono fun _ => Unties.removes).1

theorem rids_pure : s.Rids owner [] (pure ()) := by
  intro steps outcome t run
  obtain ⟨rfl, -, -⟩ := run_pure.mp run
  exact ⟨by simp, by simp⟩

theorem Rids.bind {p q : Job Unit} {more : List Bond} (hp : s.Rids owner bonds p)
    (hq : ∀ mid, s.Fades mid → mid.Rids owner more q) :
    s.Rids owner (bonds ++ more) (p >>= fun _ => q) := by
  intro steps outcome t run
  rcases run_bind.mp run with ⟨fault, hfirst, rfl⟩ | ⟨_, mid, first, second, hfirst, hsecond, rfl⟩
  · exact ⟨(hp _ _ _ hfirst).1, nofun⟩
  · have fades := hp.fades hfirst
    obtain ⟨unties, rid⟩ := hp _ _ _ hfirst
    obtain ⟨unties', rid'⟩ := hq mid fades _ _ _ hsecond
    have later := (hq mid fades).fades hsecond
    refine ⟨List.forall_mem_append.mpr ⟨unties, fun step hs =>
      (unties' step hs).mono fun _ => Unties.faded fades⟩, fun through tie mem held => ?_⟩
    rcases List.mem_append.mp mem with mem | mem
    · exact rid rfl tie mem (later.holds _ _ held)
    · exact rid' through tie mem held

theorem rids_listed (call : Call) {f : call.Result → Job Unit} (read : call.isRead = true)
    (h : ∀ result, s.Tells call result → s.Rids owner bonds (f result)) :
    s.Rids owner bonds (Job.iam call >>= f) := by
  intro steps outcome t run
  have asked (answer : Except Fault call.Result) (mid : Estate) :
      (⟨s, Request.iam call, answer, mid⟩ : Step world Estate).request.Among (s.Unties owner) :=
    .inl read
  rcases run_bind.mp run with ⟨fault, hcall, rfl⟩ | ⟨result, mid, _, rest, hcall, hrest, rfl⟩
  · obtain ⟨answer, -, -, rfl⟩ := run_ask_done.mp hcall
    exact ⟨by simpa using asked answer t, nofun⟩
  · obtain ⟨answer, answered, rfl, rfl⟩ := run_ask_done.mp hcall
    obtain ⟨tells, rfl⟩ := answered.2.reads read
    obtain ⟨unties, rid⟩ := h result tells _ _ _ hrest
    exact ⟨List.forall_mem_cons.mpr ⟨asked _ _, unties⟩, rid⟩

/-- A plan that takes at most one thing away from an entity. -/
def Takes {α : Type} (owner : Owner) (tie? : Option Tie) (p : Job α) : Prop :=
  ∀ s steps outcome t, Run Answers s p steps outcome t →
    (∀ step ∈ steps, step.request.Among fun call =>
      ∃ tie, tie? = some tie ∧ call.untied? = some (owner, tie)) ∧
      ∀ value, outcome = .ok value → ∀ tie, tie? = some tie → ¬ t.Holds owner tie

theorem takes_nothing : Takes owner none (pure () : Job Unit) := by
  intro s steps outcome t run
  obtain ⟨rfl, -, -⟩ := run_pure.mp run
  exact ⟨by simp, nofun⟩

theorem takes_noted {text : String} (call : Call) {tie : Tie}
    (untied : call.untied? = some (owner, tie)) :
    Takes owner (some tie) (Job.debug text >>= fun _ => Job.iam call) := by
  intro s steps outcome t run
  obtain ⟨_, mid, later, noted, hcall, rfl⟩ := run_ask.mp run
  obtain ⟨answer, answered, rfl, rfl⟩ := run_ask_done.mp hcall
  refine ⟨List.forall_mem_cons.mpr ⟨trivial, List.forall_mem_cons.mpr ⟨⟨tie, rfl, untied⟩, by simp⟩⟩,
    ?_⟩
  intro value through _ same
  cases same
  cases through
  rw [answered.2.unties owner tie untied, holds_untie]
  simp

theorem run_takes {β : Type} {f : β → Job Unit} {tie? : β → Option Tie}
    (takes : ∀ item, Takes owner (tie? item) (f item)) {items : List β}
    {steps : List (Step world Estate)} {outcome : Except Fault Unit}
    (run : Run Answers s (forEach f items) steps outcome t) :
    s.Fades t ∧
      (∀ step ∈ steps, step.request.Among fun call =>
        ∃ tie ∈ items.filterMap tie?, call.untied? = some (owner, tie)) ∧
      (outcome = .ok () → ∀ tie ∈ items.filterMap tie?, ¬ t.Holds owner tie) := by
  induction items generalizing s steps with
  | nil =>
    obtain ⟨rfl, -, rfl⟩ := run_pure.mp run
    exact ⟨.refl _, by simp, by simp⟩
  | cons item items ih =>
    have one {first : List (Step world Estate)} {result : Except Fault Unit} {mid : Estate}
        (hone : Run Answers s (f item) first result mid) :
        s.Fades mid ∧ ∀ step ∈ first, step.request.Among fun call =>
          ∃ tie ∈ (item :: items).filterMap tie?, call.untied? = some (owner, tie) := by
      obtain ⟨taken, -⟩ := takes item _ _ _ _ hone
      refine ⟨(run_fades hone fun step hs => (taken step hs).mono ?_).1, fun step hs =>
        (taken step hs).mono ?_⟩
      · intro call h
        obtain ⟨tie, -, untied⟩ := h
        exact Call.Clears.removes (.inr ⟨tie, untied⟩)
      · intro call h
        obtain ⟨tie, here, untied⟩ := h
        exact ⟨tie, List.mem_filterMap.mpr ⟨item, List.mem_cons_self .., here⟩, untied⟩
    rcases run_bind.mp run with ⟨fault, hone, rfl⟩ | ⟨_, mid, first, rest, hone, hrest, rfl⟩
    · exact ⟨(one hone).1, (one hone).2, nofun⟩
    · obtain ⟨fades, taken⟩ := one hone
      obtain ⟨later, taken', gone'⟩ := ih hrest
      have gone := (takes item _ _ _ _ hone).2 _ rfl
      -- What an earlier round took away stays away, since later ones bring nothing back.
      have more (tie : Tie) (h : tie ∈ items.filterMap tie?) :
          tie ∈ (item :: items).filterMap tie? := by
        obtain ⟨other, mem, same⟩ := List.mem_filterMap.mp h
        exact List.mem_filterMap.mpr ⟨other, List.mem_cons_of_mem _ mem, same⟩
      refine ⟨fades.trans later, List.forall_mem_append.mpr ⟨taken, fun step hs =>
        (taken' step hs).mono ?_⟩, fun through tie h held => ?_⟩
      · intro call h
        obtain ⟨tie, mem, untied⟩ := h
        exact ⟨tie, more tie mem, untied⟩
      · obtain ⟨other, mem, same⟩ := List.mem_filterMap.mp h
        rcases List.mem_cons.mp mem with rfl | mem
        · exact gone tie same (later.holds _ _ held)
        · exact gone' through tie (List.mem_filterMap.mpr ⟨other, mem, same⟩) held

/-- A loop over all that hangs on an entity by some bonds rids it of that. -/
theorem rids_forEach {β : Type} {f : β → Job Unit} (tie? : β → Option Tie)
    (takes : ∀ item, Takes owner (tie? item) (f item)) {items : List β}
    (held : ∀ tie ∈ items.filterMap tie?, s.Holds owner tie)
    (told : ∀ tie, tie.bond ∈ bonds → s.Holds owner tie → tie ∈ items.filterMap tie?) :
    s.Rids owner bonds (forEach f items) := by
  intro steps outcome t run
  obtain ⟨fades, taken, gone⟩ := run_takes takes run
  refine ⟨fun step hs => (taken step hs).mono ?_, fun through tie mem still => ?_⟩
  · intro call h
    obtain ⟨tie, mem, untied⟩ := h
    exact .inr ⟨tie, untied, held tie mem⟩
  · exact gone through tie (told tie mem (fades.holds _ _ still)) still

theorem rids_each {bond : Bond} {f : String → Job Unit} {names : List String}
    (takes : ∀ name, Takes owner (some ⟨bond, name⟩) (f name))
    (told : ∀ name, name ∈ names ↔ s.Holds owner ⟨bond, name⟩) :
    s.Rids owner [bond] (forEach f names) := by
  refine rids_forEach (fun name => some ⟨bond, name⟩) takes (fun tie mem => ?_)
    fun tie mem held => ?_
  · obtain ⟨name, listed, same⟩ := List.mem_filterMap.mp mem
    cases same
    exact (told name).mp listed
  · obtain ⟨bond', name⟩ := tie
    obtain rfl : bond' = bond := List.mem_singleton.mp mem
    exact List.mem_filterMap.mpr ⟨name, (told name).mpr held, rfl⟩

theorem rids_removeAllPolicies (s : Estate) (p : Principal) :
    s.Rids (.principal p) [.attached, .inline] (removeAllPolicies p) := by
  refine rids_listed (.listAttached p) rfl fun arns told => ?_
  have detached : s.Rids (.principal p) [.attached] (forEach (detach p) arns) :=
    rids_each (fun arn => takes_noted (.detach p arn) rfl) told
  refine detached.bind fun mid _ => ?_
  exact rids_listed (.listInline p) rfl fun names told =>
    rids_each (fun name => takes_noted (.deleteInline p name) rfl) told

theorem rids_deleteOtherVersions (s : Estate) (arn : String) :
    s.Rids (.policy arn) [.version] (deleteOtherVersions arn) := by
  have takes (version : PolicyVersion) : Takes (.policy arn)
      (if version.isDefault then none else some ⟨.version, version.id⟩)
      (deleteUnlessDefault arn version) := by
    unfold deleteUnlessDefault
    split
    · exact takes_nothing
    · exact takes_noted (.deletePolicyVersion arn version.id) rfl
  have listing : deleteOtherVersions arn = Job.iam (.listPolicyVersions arn) >>= fun versions =>
      forEach (deleteUnlessDefault arn) (byAge versions) := by
    unfold deleteOtherVersions policyVersions
    simp only [LawfulMonad.bind_assoc, pure_bind]
  rw [listing]
  refine rids_listed (.listPolicyVersions arn) rfl fun versions told => rids_forEach _ takes (fun tie mem => ?_)
    fun tie mem held => ?_
  · obtain ⟨version, listed, same⟩ := List.mem_filterMap.mp mem
    split at same
    next => cases same
    next other =>
      cases same
      exact (told version.id).mp
        ⟨version, List.mem_mergeSort.mp listed, Bool.not_eq_true _ ▸ other, rfl⟩
  · obtain ⟨bond, id⟩ := tie
    obtain rfl : bond = .version := List.mem_singleton.mp mem
    obtain ⟨version, listed, other, rfl⟩ := (told id).mpr held
    exact List.mem_filterMap.mpr ⟨version, List.mem_mergeSort.mpr listed, by simp [other]⟩

/-- Since a profile holds one role at most, taking out the one that was read leaves none. -/
theorem rids_syncRole (sound : s.Sound) {profile : String} {role : Option String}
    (shown : ∀ name, role = some name ↔ s.Holds (.instanceProfile profile) ⟨.role, name⟩) :
    s.Rids (.instanceProfile profile) [.role]
      (InstanceProfileManager.syncRole profile none role) := by
  cases role with
  | none =>
    intro steps outcome t run
    obtain ⟨rfl, -, rfl⟩ := run_pure.mp run
    refine ⟨by simp, fun _ tie mem held => ?_⟩
    obtain ⟨bond, name⟩ := tie
    obtain rfl : bond = .role := List.mem_singleton.mp mem
    cases (shown name).mpr held
  | some name =>
    have held := (shown name).mp rfl
    obtain ⟨named, -⟩ := sound profile name held
    -- A role without a name would be taken for none, which is why soundness asks for one.
    have eq : InstanceProfileManager.syncRole profile none (some name) =
        forEach (fun name => InstanceProfileManager.takeRole profile (some name)) [name] := by
      simp [InstanceProfileManager.syncRole, given, named, forEach, InstanceProfileManager.putRole,
        Option.filter]
    rw [eq]
    refine rids_each (fun name => takes_noted (.removeRole profile name) rfl) fun other => ?_
    rw [List.mem_singleton, ← shown, Option.some.injEq, eq_comm]

end Estate

namespace Kind

variable {kind : Kind} {s t : Estate} {key : String}

/-- The role of an instance profile is known when it is deleted; of the other kinds nothing need be. -/
def Shows : (kind : Kind) → Estate → String → kind.Object → Prop
  | instanceProfile, s, key, latest => ∀ role,
    latest.spec.role = some role ↔ s.Holds (.instanceProfile key) ⟨.role, role⟩
  | _, _, _, _ => True

theorem rids_clear (sound : s.Sound) {latest : kind.Object} (shown : kind.Shows s key latest) :
    s.Rids (kind.owner key) (kind.deletion key).bonds (kind.clear key latest) := by
  cases kind with
  | role | user | group => exact Estate.rids_removeAllPolicies s _
  | policy => exact Estate.rids_deleteOtherVersions s key
  | instanceProfile => exact Estate.rids_syncRole sound shown
  | oidcProvider | samlProvider | serviceLinkedRole => exact Estate.rids_pure

structure Told (kind : Kind) (s : Estate) (key : String) (found : Option kind.Object) : Prop where
  missing : found = none → s (kind.owner key) = none
  known : ∀ latest, found = some latest → kind.key? latest.spec latest.status = some key
  shows : ∀ latest, found = some latest → kind.Shows s key latest

theorem told_none {α : Type} {fits : α → Prop} (finds : s.Finds (kind.owner key) none fits) :
    kind.Told s key none where
  missing _ := finds.1.mp rfl
  known := by
    intro _ h
    cases h
  shows := by
    intro _ h
    cases h

theorem told_some {latest : kind.Object} (known : kind.key? latest.spec latest.status = some key)
    (shows : kind.Shows s key latest) : kind.Told s key (some latest) where
  missing := by
    intro h
    cases h
  known := by
    intro _ h
    cases h
    exact known
  shows := by
    intro _ h
    cases h
    exact shows

def Tells (kind : Kind) (s : Estate) (key : String) (p : Job (Option kind.Object)) : Prop :=
  ∃ rest : (kind.lookup key).Result → Job (Option kind.Object),
    p = Job.iam (kind.lookup key) >>= rest ∧
      ∀ found, s.Tells (kind.lookup key) found → (rest found).Yields (kind.Told s key)

theorem head?_roles (sound : s.Sound) {profile : String} {roles : List String}
    (told : ∀ role, role ∈ roles ↔ s.Holds (.instanceProfile profile) ⟨.role, role⟩) (role : String) :
    roles.head? = some role ↔ s.Holds (.instanceProfile profile) ⟨.role, role⟩ := by
  constructor
  · intro h
    exact (told role).mp (List.mem_of_head? h)
  · intro held
    cases roles with
    | nil => cases (told role).mpr held
    | cons first rest =>
      have only := (sound profile role held).2 first ((told first).mp (List.mem_cons_self ..))
      exact congrArg some only

theorem tells_readOne (sound : s.Sound) {o : kind.Object}
    (known : kind.key? o.spec o.status = some key) : kind.Tells s key (kind.manager.readOne o) := by
  cases kind with
  | role =>
    cases known
    refine ⟨_, rfl, fun found tells => ?_⟩
    cases found with
    | none => exact yields_pure (told_none tells)
    | some report =>
      exact yields_bind fun _ => yields_bind fun _ => yields_bind fun _ => yields_bind fun _ =>
        told_some (congrArg some (tells.2 _ rfl)) trivial
  | user =>
    cases known
    refine ⟨_, rfl, fun found tells => ?_⟩
    cases found with
    | none => exact yields_pure (told_none tells)
    | some report =>
      exact yields_bind fun _ => yields_bind fun _ => yields_bind fun _ =>
        told_some (congrArg some (tells.2 _ rfl)) trivial
  | group =>
    cases known
    refine ⟨_, rfl, fun found tells => ?_⟩
    cases found with
    | none => exact yields_pure (told_none tells)
    | some report =>
      exact yields_bind fun _ => yields_bind fun _ =>
        told_some (congrArg some (tells.2 _ rfl)) trivial
  | instanceProfile =>
    cases known
    refine ⟨_, rfl, fun found tells => ?_⟩
    cases found with
    | none => exact yields_pure (told_none tells)
    | some report =>
      obtain ⟨name, roles⟩ := tells.2 _ rfl
      exact yields_bind fun _ => told_some (congrArg some name) (head?_roles sound roles)
  | policy =>
    have arn : o.arn = some key := known
    change Kind.Tells .policy s key (PolicyManager.readOne o)
    unfold PolicyManager.readOne
    rw [arn]
    refine ⟨_, rfl, fun found tells => ?_⟩
    cases found with
    | none => exact yields_pure (told_none tells)
    | some report =>
      exact yields_bind fun _ => yields_bind fun _ => told_some (congrArg some (tells.2 _ rfl)) trivial
  | oidcProvider =>
    have arn : o.arn = some key := known
    change Kind.Tells .oidcProvider s key (OidcProviderManager.readOne o)
    unfold OidcProviderManager.readOne
    rw [arn]
    refine ⟨_, rfl, fun found tells => ?_⟩
    cases found with
    | none => exact yields_pure (told_none tells)
    | some report => exact yields_bind fun _ => told_some known trivial
  | samlProvider =>
    have arn : o.arn = some key := known
    change Kind.Tells .samlProvider s key (SamlProviderManager.readOne o)
    unfold SamlProviderManager.readOne
    rw [arn]
    refine ⟨_, rfl, fun found tells => ?_⟩
    cases found with
    | none => exact yields_pure (told_none tells)
    | some report =>
      exact yields_bind fun _ =>
        told_some ((@Kind.key?_withDetail .samlProvider nofun ..).trans known) trivial
  | serviceLinkedRole =>
    have name : ServiceLinkedRoleManager.roleName? o = some key := known
    change Kind.Tells .serviceLinkedRole s key (ServiceLinkedRoleManager.readOne o)
    unfold ServiceLinkedRoleManager.readOne
    rw [name]
    refine ⟨_, rfl, fun found tells => ?_⟩
    cases found with
    | none => exact yields_pure (told_none tells)
    | some report => exact yields_pure (told_some (congrArg some (tells.2 _ rfl)) trivial)

theorem run_readOne (sound : s.Sound) {o : kind.Object}
    (known : kind.key? o.spec o.status = some key) {steps : List (Step world Estate)}
    {found : Option kind.Object}
    (run : Run Estate.Answers s (kind.manager.readOne o) steps (.ok found) t) :
    kind.Told s key found := by
  obtain ⟨rest, eq, yields⟩ := tells_readOne sound known
  rw [eq] at run
  obtain ⟨result, mid, first, later, hcall, hrest, -⟩ := run_bind_ok.mp run
  obtain ⟨answer, answered, told, -⟩ := run_ask_done.mp hcall
  cases told
  have read : (kind.lookup key).isRead = true := by cases kind <;> rfl
  exact hrest.yielded (yields result (answered.2.reads read).1)

end Kind

end IamKeeper
