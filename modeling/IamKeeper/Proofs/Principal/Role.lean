import IamKeeper.Proofs.Delta
import IamKeeper.Proofs.Principal.Parts
import IamKeeper.Proofs.Resolution

namespace IamKeeper

open Iam Plan Manager

/-- A role as it is read. -/
structure RoleSpec.Sees (s latest : RoleSpec) (h : Holder) : Prop where
  name : latest.name = s.name
  path : latest.path = some h.path
  description : latest.description = h.description
  maxSession : latest.maxSession = some h.maxSession
  trust : latest.trust = h.trust
  boundary : latest.boundary = h.boundary
  lists : h.Lists latest.policies latest.inline
  tags : ∀ key, (Tag.table latest.tags).get? key = h.tags key

/-- A role is as it is asked for. What is not asked for stays as it was, or is as it is for a new role. -/
structure RoleSpec.Conforms (s : RoleSpec) (old : Option Holder) (h : Holder) : Prop where
  path : h.path = s.path.getD ((old.map Holder.path).getD "/")
  description : sameGiven (s.description.or (old.bind Holder.description)) h.description = true
  maxSession : h.maxSession = s.maxSession.getD ((old.map Holder.maxSession).getD 3600)
  trust : Document.equivalent s.trust h.trust = true
  boundary : given h.boundary = given s.boundary
  grants : h.Grants s.policies s.inline
  tags : ∀ key, h.tags key = (Tag.table s.tags).get? key

namespace RoleManager

variable {directory : Directory} {a b : Account} {h : Holder} {o latest observed : RoleObject}
  {steps : List (Step world Account)}

theorem wish_eq {s latest : RoleSpec} (seen : s.Sees latest h) :
    roleManager.lateInitialize s latest = { s with
      path := some (s.path.getD h.path)
      maxSession := some (s.maxSession.getD h.maxSession)
      description := s.description.or h.description } := by
  simp [roleManager, lateInitialize, seen.path, seen.maxSession, seen.description]

theorem inSync {s latest : RoleSpec} (seen : s.Sees latest h) :
    (roleManager.delta (roleManager.lateInitialize s latest) latest).isEmpty = true ↔
      s.Conforms (some h) h := by
  change (Kind.role.manager.delta (roleManager.lateInitialize s latest) latest).isEmpty = true ↔ _
  have fields : (∀ field ∈ Kind.role.differences (roleManager.lateInitialize s latest) latest,
      field.1 = false) ↔
      sameGiven (some (s.path.getD h.path)) (some h.path) = true ∧
      sameGiven (s.description.or h.description) h.description = true ∧
      Document.equivalent s.trust h.trust = true ∧
      s.maxSession.getD h.maxSession = h.maxSession ∧
      sameGiven s.boundary h.boundary = true ∧
      sameMembers s.policies latest.policies = true ∧
      sameInline s.inline latest.inline = true ∧ Tag.same s.tags latest.tags = true := by
    rw [wish_eq seen]
    simp [Kind.differences, seen.name, seen.path, seen.description, seen.maxSession, seen.trust,
      seen.boundary]
  rw [Kind.delta_eq, Delta.isEmpty_iff, fields, sameGiven_some, sameGiven_iff (x := s.boundary),
    Tag.same_iff]
  constructor
  · intro h
    obtain ⟨path, description, trust, maxSession, boundary, policies, inline, tags⟩ := h
    exact ⟨path, description, maxSession.symm, trust, boundary.symm,
      seen.lists.grants_iff.mp ⟨policies, inline⟩,
      fun key => ((tags key).trans (seen.tags key)).symm⟩
  · intro h
    obtain ⟨path, description, maxSession, trust, boundary, grants, tags⟩ := h
    obtain ⟨policies, inline⟩ := seen.lists.grants_iff.mpr grants
    exact ⟨path, description, trust, maxSession.symm, boundary.symm, policies, inline,
      fun key => (tags key).symm.trans (seen.tags key).symm⟩

theorem run_readOne {found : Option RoleObject}
    (run : Run (Account.Answers directory) a (readOne o) steps (.ok found) b) :
    Option.Rel (fun latest h => o.spec.Sees latest.spec h) found (a (.role o.spec.name)) := by
  obtain ⟨answer, mid, _, _, hget, hrest, -⟩ := run_bind_ok.mp run
  obtain ⟨rfl, told⟩ := Account.run_iam_ok hget
  generalize hold : mid (.role o.spec.name) = old at told
  cases told with
  | none =>
    obtain ⟨-, hv, -⟩ := run_pure.mp hrest
    cases hv
    exact .none
  | @some report h told =>
    obtain ⟨name, path, description, maxSession, boundary, encoded, trust, escapes⟩ := told
    obtain ⟨text, _, _, _, htrust, hrest, -⟩ := run_bind_ok.mp hrest
    simp only [trustOf, trust, Document.decode_of_escapes escapes] at htrust
    obtain ⟨-, hv, rfl⟩ := run_done.mp htrust
    cases hv
    rw [← name] at hold
    obtain ⟨policies, inline, _, lists, hrest⟩ := run_readPolicies hrest hold
    obtain ⟨tags, _, _, _, htags, hend, -⟩ := run_bind_ok.mp hrest
    obtain ⟨-, k, hk, tagged⟩ := Account.run_iam_ok htags
    cases hk.symm.trans hold
    obtain ⟨-, hv, -⟩ := run_pure.mp hend
    cases hv
    exact .some ⟨name, congrArg some path, description, maxSession, rfl, boundary, lists, tagged⟩

theorem run_create
    (run : Run (Account.Answers directory) a (create o) steps (.ok observed) b) :
    ∃ h, b = a.put (.role o.spec.name) h ∧ o.spec.Conforms none h := by
  obtain ⟨report, mid, _, _, hcreate, hrest, -⟩ := run_bind_ok.mp run
  obtain ⟨name, -, rfl⟩ := Account.run_iam_ok hcreate
  simp only [name] at hrest
  obtain ⟨attached, inlined, rfl, grants⟩ :=
    run_furnish hrest (Account.put_self ..) ⟨rfl, rfl⟩
  rw [Account.put_put]
  exact ⟨_, rfl, rfl, by simp [Holder.ofRole, sameGiven_refl], rfl, Document.equivalent_refl _,
    given_given _, grants, fun _ => rfl⟩

theorem run_retrust {α : Type} {out : α} {name document : String} {delta : Delta} {rest : Job α}
    (run : Run (Account.Answers directory) a (do
      whenDiffers delta "Spec.AssumeRolePolicyDocument" <| Job.iam (.updateTrust name document)
      rest) steps (.ok out) b) (there : a (.role name) = some h)
    (htrust : delta.differsAt "Spec.AssumeRolePolicyDocument" =
      !Document.equivalent document h.trust) :
    ∃ trust steps', Document.equivalent document trust = true ∧
      Run (Account.Answers directory) (a.put (.role name) { h with trust }) rest steps'
        (.ok out) b := by
  obtain ⟨_, mid, _, rest', hfirst, hrest, -⟩ := run_bind_ok.mp run
  rcases run_whenDiffers htrust hfirst with ⟨-, hfirst⟩ | ⟨same, rfl⟩
  · have hmid := (Account.run_iam_ok hfirst).eq there
    subst hmid
    exact ⟨document, rest', Document.equivalent_refl _, hrest⟩
  · refine ⟨h.trust, rest', by simpa using same, ?_⟩
    rw [Account.put_same there]
    exact hrest

/-- The description and the session duration are brought in line by one call, which leaves the description
alone when none is asked for. -/
theorem run_reterm {α : Type} {out : α} {name : String} {wish old : Option String}
    {maxSession : Int32} {delta : Delta} {rest : Job α} (run : Run (Account.Answers directory) a (do
      Plan.when (delta.differsAt "Spec.Description" || delta.differsAt "Spec.MaxSessionDuration") <|
        Job.iam (.updateRole name (wish.or old) (some maxSession))
      rest) steps (.ok out) b) (there : a (.role name) = some h)
    (kept : old = h.description)
    (hdescription : delta.differsAt "Spec.Description" =
      !sameGiven (wish.or old) old)
    (hsession : delta.differsAt "Spec.MaxSessionDuration" = decide (maxSession ≠ h.maxSession)) :
    ∃ description steps', sameGiven (wish.or old) description = true ∧
      Run (Account.Answers directory) (a.put (.role name) { h with description, maxSession }) rest
        steps' (.ok out) b := by
  subst kept
  obtain ⟨_, mid, _, rest', hfirst, hrest, -⟩ := run_bind_ok.mp run
  have either := run_when.mp hfirst
  split at either
  next =>
    have hmid := (Account.run_iam_ok either).eq there
    subst hmid
    have kept : (wish.or h.description <|> h.description) = wish.or h.description := by
      cases wish <;> simp
    rw [kept] at hrest
    exact ⟨_, rest', sameGiven_refl _, hrest⟩
  next neither =>
    obtain ⟨-, -, rfl⟩ := either
    rw [hdescription, hsession] at neither
    have same : sameGiven (wish.or h.description) h.description = true ∧
        maxSession = h.maxSession := by
      simpa using neither
    refine ⟨h.description, rest', same.1, ?_⟩
    rw [same.2, Account.put_same there]
    exact hrest

theorem run_update (there : a (.role o.spec.name) = some h) (seen : o.spec.Sees latest.spec h)
    (run : Run (Account.Answers directory) a
      (roleManager.update (roleManager.wish o latest) latest (roleManager.drift o latest)) steps
      (.ok observed) b) :
    ∃ k, b = a.put (.role o.spec.name) k ∧ o.spec.Conforms (some h) k := by
  rcases Manager.run_update run with ⟨_, -, -, outcome, -⟩ | ⟨allowed, run⟩
  · cases outcome
  have differs {differs : Bool} {path : String} (field : (differs, path) ∈
      Kind.role.differences (roleManager.wish o latest).spec latest.spec) :
      (roleManager.drift o latest).differsAt path = differs :=
    Kind.differsAt_of_mem field
  have wish : (roleManager.wish o latest).spec = _ := wish_eq seen
  generalize roleManager.drift o latest = delta at allowed run differs
  generalize roleManager.wish o latest = desired at run differs wish
  rw [wish] at differs
  have hpath : delta.differsAt "Spec.Path" =
      !sameGiven (some (o.spec.path.getD h.path)) (some h.path) :=
    differs (by simp [Kind.differences, seen.path])
  have hpolicies : delta.differsAt "Spec.Policies" =
      !sameMembers o.spec.policies latest.spec.policies :=
    differs (by simp [Kind.differences])
  have hinline : delta.differsAt "Spec.InlinePolicies" =
      !sameInline o.spec.inline latest.spec.inline :=
    differs (by simp [Kind.differences])
  have hboundary : delta.differsAt "Spec.PermissionsBoundary" =
      !sameGiven o.spec.boundary latest.spec.boundary :=
    differs (by simp [Kind.differences])
  have htags : delta.differsAt "Spec.Tags" = !Tag.same o.spec.tags latest.spec.tags :=
    differs (by simp [Kind.differences])
  have htrust : delta.differsAt "Spec.AssumeRolePolicyDocument" =
      !Document.equivalent o.spec.trust h.trust :=
    differs (by simp [Kind.differences, seen.trust])
  have hdescription : delta.differsAt "Spec.Description" =
      !sameGiven (o.spec.description.or h.description) h.description :=
    differs (by simp [Kind.differences, seen.description])
  have hsession : delta.differsAt "Spec.MaxSessionDuration" =
      decide (o.spec.maxSession.getD h.maxSession ≠ h.maxSession) :=
    differs (by simp [Kind.differences, seen.maxSession])
  have path : h.path = o.spec.path.getD h.path := by
    have same := Delta.checkImmutable_eq_ok.mp allowed "Spec.Path" (by simp [roleManager])
    rw [hpath] at same
    exact sameGiven_some.mp (by simpa using same)
  obtain ⟨metadata, spec, status⟩ := desired
  cases wish
  change Run _ _ (RoleManager.change _ latest delta) _ _ _ at run
  unfold change at run
  rw [seen.name] at run
  obtain ⟨attached, inlined, _, grants, run⟩ := run_regrant run there seen.lists hpolicies hinline
  obtain ⟨bound, _, boundary, run⟩ :=
    run_rebind run (Account.put_self ..) rfl seen.boundary seen.tags hboundary htags
  obtain ⟨trust, _, trusted, run⟩ := run_retrust run (Account.put_self ..) htrust
  obtain ⟨description, _, described, run⟩ :=
    run_reterm run (Account.put_self ..) rfl hdescription hsession
  cases run_noteUpdate run
  simp only [Account.put_put]
  exact ⟨_, rfl, path, described, rfl, trusted, boundary, ⟨grants.attached, grants.inline⟩,
    fun _ => rfl⟩

theorem asks_readOne (o : RoleObject) : (readOne o).Asks Request.Reads := by
  refine Asks.bind ⟨rfl, fun _ => trivial⟩ fun found => ?_
  cases found with
  | none => exact trivial
  | some report =>
    exact Asks.bind trivial fun _ => Asks.bind ⟨rfl, fun _ => trivial⟩ fun _ =>
      (reads_inlinePolicies _).bind fun _ => Asks.bind ⟨rfl, fun _ => trivial⟩ fun _ => trivial

theorem getsThrough_readOne (o : RoleObject) : Account.GetsThrough directory (readOne o) := by
  refine (Account.getsThrough_iam _).bind fun {a b steps found} run => ?_
  obtain ⟨-, told⟩ := Account.run_iam_ok run
  cases found with
  | none => exact Account.getsThrough_pure _
  | some report =>
    generalize a (.role o.spec.name) = holder at told
    cases told with
    | some told =>
      obtain ⟨-, -, -, -, -, encoded, trust, escapes⟩ := told
      simp only [trustOf, trust, Document.decode_of_escapes escapes]
      exact (Account.getsThrough_pure _).bind fun _ => (Account.getsThrough_iam _).bind fun _ =>
        (getsThrough_inlinePolicies _).bind fun _ => (Account.getsThrough_iam _).bind fun _ =>
          Account.getsThrough_pure _

theorem conforms_again {s : RoleSpec} {old : Option Holder} (conforms : s.Conforms old h) :
    s.Conforms (some h) h := by
  obtain ⟨path, description, maxSession, trust, boundary, grants, tags⟩ := conforms
  refine ⟨?_, ?_, ?_, trust, boundary, grants, tags⟩
  · cases hs : s.path with
    | none => rfl
    | some wanted => simpa [hs] using path
  · cases hs : s.description with
    | none => simp [sameGiven_refl]
    | some wanted => simpa [hs] using description
  · cases hs : s.maxSession with
    | none => rfl
    | some wanted => simpa [hs] using maxSession

theorem convergent (directory : Directory) :
    Convergent directory roleManager (fun s => .role s.name) RoleSpec.Sees RoleSpec.Conforms where
  lookups := Kind.role.asks_wanted
  resolve_status := Kind.role.resolve_status
  reads := asks_readOne
  getsThrough := getsThrough_readOne
  found := run_readOne
  inSync := inSync
  create := run_create
  update := run_update
  again := conforms_again

end RoleManager

end IamKeeper
