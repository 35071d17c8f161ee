import IamKeeper.Proofs.Calls
import IamKeeper.Proofs.Policy.Drift

namespace IamKeeper

open Iam
open Plan hiding bind_assoc
open Library (Answers creations)
open Manager (whenDiffers)

namespace PolicyManager

variable {l t : Library} {arn : String} {p : ManagedPolicy} {o latest : PolicyObject}
  {steps : List (Step world Library)}

theorem arn_withVersion (o : PolicyObject) (version : String) : (withVersion o version).arn = o.arn := by
  obtain ⟨metadata, spec, status⟩ := o
  cases status <;> rfl

theorem told_observe (told : p.Told arn latest) (desired : PolicyObject) :
    p.Told arn (desired.observe latest) := by
  obtain ⟨metadata, spec, status⟩ := latest
  cases status with
  | none => exact ⟨told.arn, told.version⟩
  | some status => exact ⟨told.arn, told.version⟩

/-- What a change leaves of a policy: a default version with the document, the tags, and the rest as it was. -/
structure Revises (p : ManagedPolicy) (document : String) (tags : String → Option String) (arn : String)
    (observed : PolicyObject) (q : ManagedPolicy) : Prop where
  sound : q.versions.Sound
  told : q.Told arn observed
  document : ∀ id, q.Defaults id → Document.equivalent document (q.documents id) = true
  tags : q.tags = tags
  name : q.name = p.name
  path : q.path = p.path

/-- So many versions are created for a document: one if it is another than the default one. -/
def Needed (document : String) (p : ManagedPolicy) (count : Nat) : Prop :=
  ∀ id, p.Defaults id → count = if Document.equivalent document (p.documents id) then 0 else 1

theorem run_changeDocument {updated observed : PolicyObject} {delta : Delta} (there : l arn = some p)
    (sound : p.versions.Sound) (told : p.Told arn updated)
    (differs : ∀ id, p.Defaults id → delta.differsAt "Spec.PolicyDocument" =
      !Document.equivalent updated.spec.document (p.documents id))
    (run : Run Answers l (changeDocument arn updated delta) steps (.ok observed) t) :
    (∃ q, t = l.put arn q ∧ Revises p updated.spec.document p.tags arn observed q) ∧
      Needed updated.spec.document p (creations steps) := by
  obtain ⟨id, defaults, version⟩ := told.version
  have compared := differs id defaults
  have only {q : ManagedPolicy} (sound : q.versions.Sound) {id id' : String} (h : q.Defaults id)
      (h' : q.Defaults id') : q.documents id' = q.documents id := by rw [h'.unique sound h]
  unfold changeDocument at run
  cases same : Document.equivalent updated.spec.document (p.documents id) with
  | true =>
    rw [same] at compared
    simp only [compared, Bool.not_true, Bool.false_eq_true, if_false] at run
    obtain ⟨rfl, h, rfl⟩ := run_pure.mp run
    cases h
    refine ⟨⟨p, (Library.put_same there).symm, sound, told, fun id' defaults' => ?_, rfl, rfl, rfl⟩,
      fun id' defaults' => ?_⟩
    · rw [only sound defaults defaults', same]
    · rw [only sound defaults defaults', same]
      rfl
  | false =>
    rw [same] at compared
    simp only [compared, Bool.not_false, if_true] at run
    obtain ⟨version, mid, first, second, hupdate, hdone, rfl⟩ := run_bind_ok.mp run
    obtain ⟨rfl, h, rfl⟩ := run_pure.mp hdone
    cases h
    obtain ⟨⟨q, rfl, updates⟩, once⟩ := Library.run_updateDocument there sound hupdate
    have known : (withVersion updated version).arn = some arn := (arn_withVersion ..).trans told.arn
    rw [List.append_nil, once]
    refine ⟨⟨q, rfl, updates.sound, ⟨known, version, updates.defaults, rfl⟩, fun id' defaults' => ?_,
      updates.tags, updates.name, updates.path⟩, fun id' defaults' => ?_⟩
    · rw [only updates.sound updates.defaults defaults', updates.document]
      exact Document.equivalent_refl _
    · rw [only sound defaults defaults', same]
      rfl

theorem creations_retag {target : TagTarget} {condition : Bool} {desired latest : List Tag}
    {outcome : Except Fault Unit}
    (run : Run Answers l (Plan.when condition (syncTags target desired latest)) steps outcome t) :
    creations steps = 0 := by
  refine Library.creations_eq_zero fun step hs creating => ?_
  obtain ⟨arn, document, asDefault, same⟩ := creating
  have among := run.asked (asks_when (agrees_syncTags target desired latest).heeds.asks) step hs
  rw [same] at among
  have served : "Spec.Tags" ∈ ["Spec.PolicyDocument"] := among
  exact absurd served (by decide)

theorem run_changeTags {q : ManagedPolicy} {delta : Delta} {desired latest : List Tag}
    (seen : ∀ key, (Tag.table latest).get? key = q.tags key)
    (differs : delta.differsAt "Spec.Tags" = !Tag.same desired latest)
    (run : Run Answers (l.put arn q)
      (whenDiffers delta "Spec.Tags" (syncTags (.policy arn) desired latest)) steps (.ok ()) t) :
    t = l.put arn { q with tags := (Tag.table desired).get? } ∧ creations steps = 0 :=
  ⟨(Library.tagging l arn q).run_retag run seen differs, creations_retag run⟩

theorem run_change {desired observed : PolicyObject} {delta : Delta} (there : l arn = some p)
    (sound : p.versions.Sound) (seen : Sees p arn latest)
    (document : delta.differsAt "Spec.PolicyDocument" =
      !Document.equivalent desired.spec.document latest.spec.document)
    (tags : delta.differsAt "Spec.Tags" = !Tag.same desired.spec.tags latest.spec.tags)
    (run : Run Answers l (change desired latest delta) steps (.ok observed) t) :
    (∃ q, t = l.put arn q ∧
      Revises p desired.spec.document (Tag.table desired.spec.tags).get? arn observed q) ∧
      Needed desired.spec.document p (creations steps) := by
  unfold change at run
  simp only [seen.told.arn] at run
  obtain ⟨updated, mid, first, _, hdocument, hrest, rfl⟩ := run_bind_ok.mp run
  obtain ⟨_, mid', second, _, htags, hrest', rfl⟩ := run_bind_ok.mp hrest
  obtain ⟨_, noted, h, rfl⟩ := run_ask_done.mp hrest'
  cases noted
  cases h
  -- The delta compares with the document that was read, which is that of the default version.
  have compared (id : String) (defaults : p.Defaults id) : delta.differsAt "Spec.PolicyDocument" =
      !Document.equivalent (desired.observe latest).spec.document (p.documents id) := by
    obtain ⟨id', defaults', version⟩ := seen.told.version
    rw [document, seen.document id' version, defaults.unique sound defaults']
    rfl
  obtain ⟨⟨q, rfl, revises⟩, count⟩ :=
    run_changeDocument there sound (told_observe seen.told desired) compared hdocument
  have tagged (key : String) : (Tag.table latest.spec.tags).get? key = q.tags key := by
    rw [revises.tags]
    exact seen.tags key
  obtain ⟨rfl, idle⟩ := run_changeTags tagged tags htags
  refine ⟨⟨_, rfl, ?_⟩, ?_⟩
  · exact {
      sound := revises.sound
      told := ⟨revises.told.arn, revises.told.version⟩
      document := revises.document
      tags := rfl
      name := revises.name
      path := revises.path }
  · rw [Library.creations_append, Library.creations_append, idle]
    exact count

/-- A policy is as a spec asks for, an object tells of it, and nothing else has changed. -/
structure Settles (spec : PolicySpec) (l : Library) (arn : String) (observed : PolicyObject)
    (p : ManagedPolicy) (t : Library) : Prop where
  only : t = l.put arn p
  sound : p.versions.Sound
  conforms : p.Conforms spec
  told : p.Told arn observed

theorem run_update {observed : PolicyObject} (there : l arn = some p) (sound : p.versions.Sound)
    (seen : Sees p arn latest) (run : Run Answers l
      (policyManager.update (policyManager.wish o latest) latest (policyManager.drift o latest)) steps
      (.ok observed) t) :
    (∃ q, Settles o.spec l arn observed q t) ∧ Needed o.spec.document p (creations steps) := by
  rcases Manager.run_update run with ⟨_, -, -, h, -⟩ | ⟨fixed, run⟩
  · cases h
  have fixed := Delta.checkImmutable_eq_ok.mp fixed
  have document : (policyManager.drift o latest).differsAt "Spec.PolicyDocument" =
      !Document.equivalent (policyManager.wish o latest).spec.document latest.spec.document :=
    drift_document o latest
  have tags : (policyManager.drift o latest).differsAt "Spec.Tags" =
      !Tag.same (policyManager.wish o latest).spec.tags latest.spec.tags := drift_tags o latest
  -- The name and the path cannot change, so an update that gets through found them as they are asked for.
  obtain ⟨⟨q, only, revises⟩, count⟩ := run_change there sound seen document tags run
  refine ⟨⟨q, only, revises.sound, ?_, revises.told⟩, count⟩
  exact {
    name := revises.name.trans (seen.name_iff.mp (fixed _ (by decide)))
    path := by
      rw [revises.path]
      exact seen.path_iff.mp (fixed _ (by decide))
    document := revises.document
    tags := congrFun revises.tags }

theorem conforms_ofSpec {spec : PolicySpec} {v : PolicyVersion} {documents : String → String}
    (document : documents v.id = spec.document) : (ManagedPolicy.ofSpec spec v documents).Conforms spec where
  name := rfl
  path := by
    unfold ManagedPolicy.ofSpec
    cases spec.path <;> exact sameGiven_iff.mpr rfl
  document id defaults := by
    obtain ⟨w, hw, -, rfl⟩ := defaults
    have same : (ManagedPolicy.ofSpec spec v documents).documents w.id = spec.document := by
      rw [List.mem_singleton.mp hw]
      exact document
    rw [same]
    exact Document.equivalent_refl _
  tags _ := rfl

theorem run_create {observed : PolicyObject} (run : Run Answers l (create o) steps (.ok observed) t) :
    creations steps = 0 ∧ ∃ arn p, l arn = none ∧ Settles o.spec l arn observed p t := by
  rcases Job.run_call run with ⟨_, -, -, h⟩ | ⟨report, mid, later, answered, hrest, rfl⟩
  · cases h
  obtain ⟨_, noted, h, rfl⟩ := run_ask_done.mp hrest
  cases noted
  cases h
  obtain ⟨absent, v, documents, isDefault, version, document, rfl⟩ := answered
  have sound : Shelf.Sound [v] := by
    refine ⟨?_, List.nodup_singleton _, ?_⟩
    · exact Nat.le_of_ble_eq_true rfl
    · simp [isDefault]
  have told : (ManagedPolicy.ofSpec o.spec v documents).Told report.arn (record o report) :=
    ⟨rfl, v.id, ⟨v, List.mem_singleton_self _, isDefault, rfl⟩, version⟩
  exact ⟨rfl, report.arn, _, absent, rfl, sound, conforms_ofSpec document, told⟩

theorem run_settle {synced : Synced PolicySpec PolicyDetail} (there : l arn = some p)
    (sound : p.versions.Sound) (seen : Sees p arn latest)
    (run : Run Answers l (policyManager.settle o ⟨o, false⟩ (some latest)) steps (.ok synced) t) :
    synced.created = false ∧ (∃ q, Settles o.spec l arn synced.object q t) ∧
      Needed o.spec.document p (creations steps) := by
  simp only [Manager.settle] at run
  split at run
  next inSync =>
    obtain ⟨_, noted, h, rfl⟩ := run_ask_done.mp run
    cases noted
    cases h
    have same := Delta.differsAt_of_isEmpty inSync
    have conforms := (seen.conforms_iff sound).mp fun path _ => .inr (same path)
    refine ⟨rfl, ⟨p, (Library.put_same there).symm, sound, conforms, seen.told⟩, fun id defaults => ?_⟩
    rw [conforms.document id defaults]
    rfl
  next =>
    obtain ⟨observed, mid, first, second, hupdate, hdone, rfl⟩ := run_bind_ok.mp run
    obtain ⟨rfl, h, rfl⟩ := run_pure.mp hdone
    cases h
    rw [List.append_nil]
    exact ⟨rfl, run_update there sound seen hupdate⟩

theorem sync_eq (o : PolicyObject) :
    policyManager.sync o = readOne o >>= policyManager.settle o ⟨o, false⟩ := rfl

/-- A sync that gets through settles the policy. One that finds it creates a version only for a document that
differs, and one that does not creates the policy. -/
theorem run_sync {synced : Synced PolicySpec PolicyDetail} (sound : l.Sound)
    (run : Run Answers l (policyManager.sync o) steps (.ok synced) t) :
    ∃ arn p, Settles o.spec l arn synced.object p t ∧
      ((∃ old, o.arn = some arn ∧ l arn = some old ∧ synced.created = false ∧
          Needed o.spec.document old (creations steps)) ∨
        o.arn.bind l = none ∧ l arn = none ∧ synced.created = true ∧ creations steps = 0) := by
  rw [sync_eq] at run
  obtain ⟨found, mid, first, second, hread, hsettle, rfl⟩ := run_bind_ok.mp run
  obtain ⟨rfl, reads⟩ := Library.run_reads (@Kind.asks_readOne .policy o) hread
  have idle : creations first = 0 :=
    Library.creations_eq_zero fun step hs creating => creating.not_reads (reads step hs)
  rw [Library.creations_append, idle, Nat.zero_add]
  rcases run_readOne hread with ⟨_, h, -⟩ | ⟨_, h, saw⟩
  · cases h
  cases h
  generalize hp : o.arn.bind mid = there at saw
  cases saw with
  | none =>
    obtain ⟨observed, _, third, _, hcreate, hdone, rfl⟩ := run_bind_ok.mp hsettle
    obtain ⟨rfl, h, rfl⟩ := run_pure.mp hdone
    cases h
    obtain ⟨none, arn, p, absent, settles⟩ := run_create hcreate
    rw [List.append_nil]
    exact ⟨arn, p, settles, .inr ⟨rfl, absent, rfl, none⟩⟩
  | @some latest p saw =>
    obtain ⟨arn, known, there⟩ := Option.bind_eq_some_iff.mp hp
    obtain ⟨kept, ⟨q, settles⟩, count⟩ := run_settle there (sound arn p there) (saw arn known) hsettle
    exact ⟨arn, q, settles, .inl ⟨p, known, there, kept, count⟩⟩

/-- A sync among several. -/
structure Resync where
  steps : List (Step world Library)
  outcome : Except Fault (Synced PolicySpec PolicyDetail)

/-- A sync of a settled policy: it makes no call that changes anything. It finds the policy as it was, unless a
request of it fails or IAM tells another description than the one asked for. -/
structure Resync.Idle (spec : PolicySpec) (arn : String) (p : ManagedPolicy) (pass : Resync) : Prop where
  reads : ∀ step ∈ pass.steps, step.request.Reads
  ends : (∃ synced, pass.outcome = .ok synced ∧ synced.created = false ∧ p.Told arn synced.object) ∨
    (∃ step ∈ pass.steps, step.failed = true) ∨
    spec.description.isSome ∧ pass.outcome = .error (.immutableFields ["Spec.Description"])

theorem run_resync {outcome : Except Fault (Synced PolicySpec PolicyDetail)} (there : l arn = some p)
    (sound : p.versions.Sound) (conforms : p.Conforms o.spec) (known : o.arn = some arn)
    (run : Run Answers l (policyManager.sync o) steps outcome t) :
    t = l ∧ Resync.Idle o.spec arn p ⟨steps, outcome⟩ := by
  have reads := @Kind.asks_readOne .policy o
  rw [sync_eq] at run
  rcases run_bind.mp run with ⟨fault, hread, rfl⟩ | ⟨found, mid, first, second, hread, hsettle, rfl⟩
  · obtain ⟨still, asked⟩ := Library.run_reads reads hread
    rcases run_readOne hread with ⟨_, -, failed⟩ | ⟨_, h, -⟩
    · exact ⟨still, asked, .inr (.inl failed)⟩
    · cases h
  obtain ⟨rfl, asked⟩ := Library.run_reads reads hread
  rcases run_readOne hread with ⟨_, h, -⟩ | ⟨_, h, saw⟩
  · cases h
  cases h
  rw [known, Option.bind_some, there] at saw
  cases saw with
  | @some latest _ saw =>
    have seen := saw arn rfl
    -- Either way the sync ends without an update: it is in sync, or the description is refused.
    rcases seen.settled sound conforms with inSync | ⟨described, refused⟩
    · simp only [Manager.settle, inSync, if_true] at hsettle
      obtain ⟨_, noted, rfl, rfl⟩ := run_ask_done.mp hsettle
      cases noted
      refine ⟨rfl, List.forall_mem_append.mpr ⟨asked, ?_⟩, .inl ⟨_, rfl, rfl, seen.told⟩⟩
      exact List.forall_mem_singleton.mpr rfl
    · obtain ⟨rfl, rfl, rfl⟩ := Manager.run_settle_refused refused hsettle
      rw [List.append_nil]
      exact ⟨rfl, asked, .inr (.inr ⟨described, rfl⟩)⟩

/-- Syncs one after another, each of an object that asks for `spec` and has recorded `arn`. -/
inductive Repeats (spec : PolicySpec) (arn : String) : Library → List Resync → Library → Prop
  | nil {l : Library} : Repeats spec arn l [] l
  | cons {l mid t : Library} {o : PolicyObject} {steps : List (Step world Library)}
      {outcome : Except Fault (Synced PolicySpec PolicyDetail)} {passes : List Resync}
      (asks : o.spec = spec) (known : o.arn = some arn)
      (run : Run Answers l (policyManager.sync o) steps outcome mid)
      (rest : Repeats spec arn mid passes t) :
      Repeats spec arn l (⟨steps, outcome⟩ :: passes) t

/-- However often a settled policy is synced, nothing changes. -/
theorem Repeats.idle {spec : PolicySpec} {passes : List Resync} (repeats : Repeats spec arn l passes t)
    (there : l arn = some p) (sound : p.versions.Sound) (conforms : p.Conforms spec) :
    t = l ∧ ∀ pass ∈ passes, pass.Idle spec arn p := by
  induction repeats with
  | nil => exact ⟨rfl, fun _ h => nomatch h⟩
  | cons asks known run rest ih =>
    subst asks
    obtain ⟨rfl, idle⟩ := run_resync there sound conforms known run
    obtain ⟨rfl, later⟩ := ih there
    exact ⟨rfl, List.forall_mem_cons.mpr ⟨idle, later⟩⟩

/-- A sync that gets through leaves the policy as it is asked for, and tells its ARN and its default version. If it
found the policy, it created one version where the default document was not the one asked for, and none
elsewhere. However often the same wishes are synced afterwards, no call changes anything. -/
theorem policy_converges (l t : Library) (o : PolicyObject) (sound : l.Sound)
    (steps : List (Step world Library)) (synced : Synced PolicySpec PolicyDetail)
    (run : Run Answers l (policyManager.sync o) steps (.ok synced) t) :
    ∃ arn p, Settles o.spec l arn synced.object p t ∧
      ((∃ old, o.arn = some arn ∧ l arn = some old ∧ synced.created = false ∧
          Needed o.spec.document old (creations steps)) ∨
        o.arn.bind l = none ∧ l arn = none ∧ synced.created = true ∧ creations steps = 0) ∧
      ∀ passes u, Repeats o.spec arn t passes u → u = t ∧ ∀ pass ∈ passes, pass.Idle o.spec arn p := by
  obtain ⟨arn, p, settles, change⟩ := run_sync sound run
  refine ⟨arn, p, settles, change, fun passes u repeats => ?_⟩
  have there : t arn = some p := by
    rw [settles.only]
    exact Library.put_self ..
  exact repeats.idle there settles.sound settles.conforms

section Outdated

/-- A policy that asks for another document than its default version has. -/
def outdated : PolicyObject where
  metadata := ⟨some "app", none, some "space", [], none⟩
  spec := ⟨"app", none, none, "new", []⟩
  status := some ⟨some (Identity.ofArn "arn:app"), [], default⟩

def outdatedReport : PolicyReport :=
  { (default : PolicyReport) with
    arn := "arn:app", name := some "app", path := some defaultPath, defaultVersion := some "v1" }

/-- The policy as it is read. -/
def outdatedFound : PolicyObject :=
  record { outdated with spec := ⟨"app", some defaultPath, none, "old", []⟩ } outdatedReport

/-- A version as it is listed, of no known age. -/
def outdatedVersion (id : String) (isDefault : Bool) : PolicyVersion :=
  ⟨id, none, isDefault, none⟩

/-- The library in which it is the only policy. -/
def outdatedBefore : Library :=
  Library.put (fun _ => none) "arn:app"
    ⟨"app", defaultPath, [outdatedVersion "v1" true], fun _ => "old", fun _ => none⟩

/-- The library after its document has changed. -/
def outdatedAfter : Library :=
  Library.put (fun _ => none) "arn:app"
    ⟨"app", defaultPath, [outdatedVersion "v2" true, outdatedVersion "v1" false],
      Function.update (fun _ => "old") "v2" "new", fun _ => none⟩

theorem get_outdatedBefore : outdatedBefore "arn:app" =
    some ⟨"app", defaultPath, [outdatedVersion "v1" true], fun _ => "old", fun _ => none⟩ :=
  Library.put_self ..

theorem run_read_outdated :
    ∃ steps, Run Answers outdatedBefore (readOne outdated) steps (.ok (some outdatedFound))
      outdatedBefore := by
  have found : outdatedBefore.Does (.getPolicy "arn:app") (some outdatedReport) outdatedBefore := by
    refine ⟨rfl, ?_⟩
    rw [get_outdatedBefore]
    exact .some ⟨rfl, rfl, rfl, "v1", ⟨_, List.mem_singleton_self _, rfl, rfl⟩, rfl⟩
  have escapes : Text.Percent.Escapes "old" "old" :=
    .plain (by decide) (by decide) (.plain (by decide) (by decide) (.plain (by decide) (by decide) .nil))
  have told : outdatedBefore.Does (.getPolicyVersion "arn:app" "v1") ⟨"v1", some "old", true, none⟩
      outdatedBefore :=
    ⟨rfl, _, "old", get_outdatedBefore, rfl, escapes⟩
  have tags : outdatedBefore.Does (.listTags (.policy "arn:app")) [] outdatedBefore :=
    ⟨rfl, _, get_outdatedBefore, fun _ => rfl⟩
  exact ⟨_, Job.run_ask (r := Request.iam (.getPolicy "arn:app")) (Except.ok (some _)) found <|
    Job.run_ask (r := Request.iam (.getPolicyVersion "arn:app" "v1")) (Except.ok _) told <|
    Job.run_ask (r := Request.iam (.listTags (.policy "arn:app"))) (Except.ok _) tags .done⟩

theorem run_update_outdated :
    ∃ steps, Run Answers outdatedBefore (updateDocument "arn:app" "new") steps (.ok "v2")
      outdatedAfter := by
  have listing : outdatedBefore.Does (.listPolicyVersions "arn:app") [outdatedVersion "v1" true]
      outdatedBefore :=
    ⟨rfl, _, get_outdatedBefore, rfl, fun _ => .refl _⟩
  have creation : outdatedBefore.Does (.createPolicyVersion "arn:app" "new" true)
      (outdatedVersion "v2" true) outdatedAfter := by
    refine ⟨_, _, get_outdatedBefore, ?_, (Library.put_put ..).symm⟩
    simp only [Shelf.Does, if_true]
    exact ⟨by decide, by decide, outdatedVersion "v2" true, rfl, rfl, .refl _⟩
  have few : (byAge [outdatedVersion "v1" true]).length < versionLimit := by
    rw [(byAge_perm _).length_eq]
    decide
  have room : ∃ steps, Run Answers outdatedBefore (makeRoom "arn:app") steps (.ok ())
      outdatedBefore := by
    refine ⟨[_], Job.run_ask (r := Request.iam (.listPolicyVersions "arn:app")) (Except.ok _) listing ?_⟩
    change Run _ _ (if (byAge [outdatedVersion "v1" true]).length < versionLimit then _ else _) _ _ _
    rw [if_pos few]
    exact .done
  obtain ⟨steps, room⟩ := room
  exact ⟨_, room.bind <|
    Job.run_ask (r := Request.iam (.createPolicyVersion "arn:app" "new" true)) (Except.ok _) creation <|
    Job.run_ask (r := Request.note _ _) () rfl .done⟩

theorem run_sync_outdated :
    ∃ steps synced, Run Answers outdatedBefore (policyManager.sync outdated) steps (.ok synced)
      outdatedAfter := by
  obtain ⟨first, read⟩ := run_read_outdated
  obtain ⟨second, update⟩ := run_update_outdated
  have drifted : (policyManager.drift outdated outdatedFound).isEmpty = false := by decide
  have fixed : (policyManager.drift outdated outdatedFound).checkImmutable policyManager.immutable =
      .ok () := rfl
  have document : (policyManager.drift outdated outdatedFound).differsAt "Spec.PolicyDocument" = true := by
    decide
  have changed : Run Answers outdatedBefore
      (changeDocument "arn:app" ((policyManager.wish outdated outdatedFound).observe outdatedFound)
        (policyManager.drift outdated outdatedFound)) (second ++ [])
      (.ok (withVersion ((policyManager.wish outdated outdatedFound).observe outdatedFound) "v2"))
      outdatedAfter := by
    unfold changeDocument
    rw [if_pos document]
    exact update.bind .done
  have settle : ∃ steps synced,
      Run Answers outdatedBefore (policyManager.settle outdated ⟨outdated, false⟩ (some outdatedFound)) steps
        (.ok synced) outdatedAfter := by
    rw [Manager.settle_changes outdated drifted fixed]
    exact ⟨_, _, (changed.bind (Job.run_ask (r := Request.note _ _) () rfl .done)).bind .done⟩
  obtain ⟨third, synced, settle⟩ := settle
  exact ⟨_, synced, read.bind settle⟩

/-- The document becomes that of a new version, and this is the only one that is created. -/
theorem policy_converges_outdated :
    ∃ steps synced p,
      Run Answers outdatedBefore (policyManager.sync outdated) steps (.ok synced) outdatedAfter ∧
      Settles outdated.spec outdatedBefore "arn:app" synced.object p outdatedAfter ∧
      creations steps = 1 := by
  have sound : outdatedBefore.Sound :=
    Library.Sound.put (fun _ _ h => nomatch h) ⟨by decide, by decide, by decide⟩
  obtain ⟨steps, synced, run⟩ := run_sync_outdated
  obtain ⟨arn, p, settles, found | absent, -⟩ :=
    policy_converges outdatedBefore outdatedAfter outdated sound steps synced run
  · obtain ⟨old, known, here, -, count⟩ := found
    cases known
    cases here.symm.trans get_outdatedBefore
    exact ⟨steps, synced, p, run, settles, count "v1" ⟨_, List.mem_singleton_self _, rfl, rfl⟩⟩
  · exact nomatch get_outdatedBefore.symm.trans absent.1

end Outdated

end PolicyManager

end IamKeeper
