import IamKeeper.Proofs.Delta
import IamKeeper.Proofs.Tracking.Sync

namespace IamKeeper

open Iam
open Plan hiding bind_assoc

namespace Kind

variable {kind : Kind} {name : String} {s t : Site kind} {e : Entity} {o : kind.Object}
  {steps : List (Step world (Site kind))}
  {outcome : Except Fault (Synced kind.Spec kind.Detail)}

def namePath : Kind → String
  | oidcProvider => "Spec.URL"
  | _ => "Spec.Name"

theorem namePath_immutable {spec : kind.Spec} (given : kind.nameIn? spec = some name) :
    kind.namePath ∈ kind.manager.immutable := by
  cases kind with
  | serviceLinkedRole => cases given
  | _ => exact List.mem_cons_self ..

theorem nameIn?_wish (desired latest : kind.Object) :
    kind.nameIn? (kind.manager.wish desired latest).spec = kind.nameIn? desired.spec := by
  cases kind <;> rfl

theorem nameIn?_isSome {a : kind.Spec} (given : kind.nameIn? a = some name) (b : kind.Spec) :
    ∃ other, kind.nameIn? b = some other := by
  cases kind with
  | serviceLinkedRole => cases given
  | _ => exact ⟨_, rfl⟩

/-- The delta of two specs has the path of the name exactly when they give different names. -/
theorem differsAt_namePath {a b : kind.Spec} {other : String}
    (ha : kind.nameIn? a = some name) (hb : kind.nameIn? b = some other) :
    (kind.manager.delta a b).differsAt kind.namePath = decide (name ≠ other) := by
  cases kind with
  | serviceLinkedRole => cases ha
  | oidcProvider =>
    cases ha
    cases hb
    rw [differsAt_of_mem (List.mem_cons_self ..)]
    simp [String.ofList_inj]
  | _ =>
    cases ha
    cases hb
    exact differsAt_of_mem (List.mem_cons_self ..)

theorem differsAt_drift {desired latest : kind.Object} {other : String}
    (wanted : kind.nameIn? desired.spec = some name) (there : kind.nameIn? latest.spec = some other) :
    (kind.manager.drift desired latest).differsAt kind.namePath = decide (name ≠ other) :=
  differsAt_namePath ((nameIn?_wish ..).trans wanted) there

/-- Where the entity is found under another name, nothing is done. -/
theorem run_settle_renamed {resolved : Resolved kind.Spec kind.Detail} {latest : kind.Object}
    {other : String} (wanted : kind.nameIn? resolved.object.spec = some name)
    (there : kind.nameIn? latest.spec = some other) (renamed : name ≠ other)
    (run : Run Site.Answers s (kind.manager.settle o resolved (some latest)) steps outcome t) :
    steps = [] ∧ ∃ fields, outcome = .error (.immutableFields fields) ∧ kind.namePath ∈ fields := by
  have differs : (kind.manager.drift resolved.object latest).differsAt kind.namePath = true := by
    rw [differsAt_drift wanted there]
    exact decide_eq_true renamed
  cases h : (kind.manager.drift resolved.object latest).checkImmutable kind.manager.immutable with
  | ok _ =>
    have same := Delta.checkImmutable_eq_ok.mp h _ (namePath_immutable wanted)
    rw [differs] at same
    cases same
  | error fault =>
    obtain ⟨rfl, rfl, -⟩ := Manager.run_settle_refused h run
    refine ⟨rfl, _, congrArg _ (Delta.checkImmutable_eq_error h), ?_⟩
    exact Delta.mem_violations.mpr ⟨namePath_immutable wanted, differs⟩

theorem key?_recorded (recorded : kind.isNamed = false) (given : kind.nameIn? o.spec = some name)
    (arn : o.arn = some e.arn) : kind.key? o.spec o.status = some (kind.keyOf e) := by
  cases kind with
  | policy | oidcProvider | samlProvider => exact arn
  | serviceLinkedRole => cases given
  | role | group | user | instanceProfile => cases recorded

/-- When the spec of an object gives another name than that of its entity, a kind that is known by its ARN
refuses the change, unless it fails to read the entity, and calls nothing but reads. A kind that is known by
its name does not notice: it looks for an entity of the new name, and takes over the one that it finds or
creates one beside the first. -/
theorem recorded_refuses_named_misses_rename (there : s.entity = some e) (arn : o.arn = some e.arn)
    (given : kind.nameIn? o.spec = some name) (renamed : name ≠ e.name)
    (run : Run Site.Answers s (kind.manager.sync o) steps outcome t) :
    (kind.isNamed = false →
      t = s ∧ (∀ step ∈ steps, step.request.creates = false) ∧
        ((∃ fault, outcome = .error fault ∧
            Run Site.Answers s (kind.manager.look o) steps (.error fault) s) ∨
          ∃ fields, outcome = .error (.immutableFields fields) ∧ kind.namePath ∈ fields)) ∧
    (kind.isNamed = true →
      t.entity = some e ∧
        ((∃ fault, outcome = .error fault ∧
            Run Site.Answers s (kind.manager.look o) steps (.error fault) s) ∨
          (∃ resolved latest first rest, steps = first ++ rest ∧
            Run Site.Answers s (kind.manager.look o) first (.ok (resolved, some latest)) s ∧
            kind.nameIn? latest.spec = some name ∧
            (kind.manager.drift resolved.object latest).differsAt kind.namePath = false) ∨
          ∃ spec, kind.nameIn? spec = some name ∧
            ∃ step ∈ steps, step.request = Request.iam (kind.creation spec))) := by
  rw [Manager.sync_eq_look] at run
  rcases run_bind.mp run with ⟨fault, hlook, rfl⟩ | ⟨looked, mid, first, rest, hlook, hsettle, rfl⟩
  · obtain ⟨rfl, seeks, -⟩ := run_look hlook
    have idle (step) (hs : step ∈ steps) : step.request.creates = false :=
      (seeks step hs).1.spares.creates
    exact ⟨fun _ => ⟨rfl, idle, .inl ⟨fault, rfl, hlook⟩⟩, fun _ => ⟨there, .inl ⟨fault, rfl, hlook⟩⟩⟩
  obtain ⟨resolved, found⟩ := looked
  obtain ⟨rfl, seeks, told⟩ := run_look hlook
  obtain ⟨wanted, tells⟩ := told resolved found rfl
  rw [given] at wanted
  constructor
  · intro recorded
    have known := key?_recorded recorded given arn
    cases found with
    | none => exact absurd known (tells.missing rfl e there)
    | some latest =>
      obtain ⟨other, hother⟩ := nameIn?_isSome given latest.spec
      have same := tells.name latest rfl e there known other hother
      subst same
      obtain ⟨rfl, refused⟩ := run_settle_renamed wanted hother renamed hsettle
      obtain ⟨rfl, -⟩ := run_settle_some hsettle
      rw [List.append_nil]
      exact ⟨rfl, fun step hs => (seeks step hs).1.spares.creates, .inr refused⟩
  · intro named
    -- What is found or missing here goes by the new name, and says nothing of `e`.
    cases found with
    | none =>
      obtain ⟨answer, later, rfl, -, h⟩ := run_settle_none hsettle
      refine ⟨?_, .inr (.inr ⟨resolved.object.spec, wanted, _,
        List.mem_append_right _ (List.mem_cons_self ..), rfl⟩)⟩
      rcases h with ⟨rfl, -⟩ | ⟨e', gained, -⟩
      · exact there
      · rw [gained, there]
        rfl
    | some latest =>
      have key := tells.key latest rfl
      rw [key?_eq_nameIn? named, key?_eq_nameIn? named, given] at key
      obtain ⟨rfl, -⟩ := run_settle_some hsettle
      refine ⟨there, .inr (.inl ⟨resolved, latest, first, rest, rfl, hlook, key, ?_⟩)⟩
      rw [differsAt_drift wanted key]
      simp

end Kind

/-- A SAML provider whose spec gives another name than the provider that was created for it. -/
def renamedProvider : SamlProviderManager.ProviderObject where
  metadata := ⟨some "app", none, some "space", [], none⟩
  spec := ⟨"new", "document", []⟩
  status := some ⟨some (.ofArn "arn:saml-provider/old"), [], default⟩

theorem renamedProvider_refused :
    ∃ (s t : Site .samlProvider) (steps : List (Step world (Site .samlProvider))),
      s.entity = some ⟨"arn:saml-provider/old", "old"⟩ ∧
      Run Site.Answers s (Kind.samlProvider.manager.sync renamedProvider) steps
        (.error (.immutableFields ["Spec.Name"])) t ∧
      t = s ∧ ∀ step ∈ steps, step.request.creates = false := by
  let s : Site .samlProvider :=
    ⟨renamedProvider.status, some ⟨"arn:saml-provider/old", "old"⟩⟩
  have found : s.Does (.getSamlProvider "arn:saml-provider/old") (some default) s :=
    ⟨rfl, fun _ _ => trivial, by rintro _ ⟨⟩ -; exact ⟨_, rfl, by decide⟩⟩
  have run : ∃ steps, Run Site.Answers s (Kind.samlProvider.manager.sync renamedProvider) steps
      (.error (.immutableFields ["Spec.Name"])) s :=
    ⟨_, Site.run_ask_iam _ _ found <|
      Site.run_ask_iam (.listTags (.samlProvider "arn:saml-provider/old")) [] rfl .done⟩
  obtain ⟨steps, run⟩ := run
  obtain ⟨refused, -⟩ :=
    Kind.recorded_refuses_named_misses_rename (e := ⟨"arn:saml-provider/old", "old"⟩) rfl rfl rfl (by decide) run
  obtain ⟨same, idle, -⟩ := refused rfl
  exact ⟨s, s, steps, rfl, run, same, idle⟩

/-- A role whose spec gives another name than the role that was created for it. -/
def renamedRole : RoleObject where
  metadata := ⟨some "app", none, some "space", [], none⟩
  spec := ⟨"new", none, none, "", none, none, none, [], [], ∅, []⟩
  status := some ⟨some (.ofArn "arn:old"), [], default⟩

/-- Under its new name a second role is created, and its ARN takes the place of the first one in what is to
be recorded. -/
theorem renamedRole_duplicated :
    ∃ (s t : Site .role) (steps : List (Step world (Site .role)))
      (synced : Synced RoleSpec RoleDetail),
      s.entity = some ⟨"arn:old", "old"⟩ ∧ renamedRole.arn = some "arn:old" ∧
      renamedRole.spec.name ≠ "old" ∧
      Run Site.Answers s (Kind.role.manager.sync renamedRole) steps (.ok synced) t ∧
      (∃ step ∈ steps, step.request.creates = true) ∧ synced.object.arn = some "arn:new" ∧
      t.entity = some ⟨"arn:old", "old"⟩ := by
  let s : Site .role := ⟨renamedRole.status, some ⟨"arn:old", "old"⟩⟩
  have missing : s.Does (.getRole "new") none s :=
    ⟨rfl, by rintro _ ⟨⟩, by rintro _ ⟨⟩ same; exact absurd same (by decide)⟩
  have created : s.Does (.createRole renamedRole.spec)
      { (default : RoleReport) with arn := "arn:new", name := "new" } s := rfl
  exact ⟨s, s, _, _, rfl, rfl, by decide,
    Site.run_ask_iam _ _ missing <| Site.run_ask_iam _ _ created <| Site.run_ask_note .done,
    ⟨_, List.mem_cons_of_mem _ (List.mem_cons_self ..), rfl⟩, rfl, rfl⟩

end IamKeeper
