import IamKeeper.Manager.Policy
import IamKeeper.Proofs.Rotation
import IamKeeper.Proofs.Update.Hooks

namespace IamKeeper

open Iam
open Plan hiding bind_assoc
open Text.Percent (Escapes)

/-- What IAM keeps of a managed policy. The documents are told from each other by the ids of the versions. -/
structure ManagedPolicy where
  name : String
  path : String
  versions : Shelf
  documents : String → String
  tags : String → Option String

namespace ManagedPolicy

/-- A new policy has one version. -/
def ofSpec (spec : PolicySpec) (version : PolicyVersion) (documents : String → String) : ManagedPolicy where
  name := spec.name
  path := spec.path.getD defaultPath
  versions := [version]
  documents := documents
  tags := (Tag.table spec.tags).get?

variable {p : ManagedPolicy}

/-- The default version has an id. -/
def Defaults (p : ManagedPolicy) (id : String) : Prop :=
  ∃ v ∈ p.versions, v.isDefault = true ∧ v.id = id

theorem Defaults.unique (sound : p.versions.Sound) {a b : String} (h : p.Defaults a)
    (h' : p.Defaults b) : a = b := by
  obtain ⟨v, hv, vDefault, rfl⟩ := h
  obtain ⟨w, hw, wDefault, rfl⟩ := h'
  have one : (p.versions.filter PolicyVersion.isDefault).length = 1 := by
    rw [← List.countP_eq_length_filter]
    exact sound.oneDefault
  obtain ⟨only, alone⟩ := List.length_eq_one_iff.mp one
  have is (u : PolicyVersion) (hu : u ∈ p.versions) (uDefault : u.isDefault = true) : u = only := by
    have mem := List.mem_filter.mpr ⟨hu, uDefault⟩
    rw [alone] at mem
    exact List.mem_singleton.mp mem
  rw [is v hv vDefault, is w hw wDefault]

end ManagedPolicy

/-- The policies by their ARNs. -/
abbrev Library : Type :=
  String → Option ManagedPolicy

namespace Library

variable {l t : Library} {arn : String} {p : ManagedPolicy}

def put (l : Library) (arn : String) (p : ManagedPolicy) : Library :=
  Function.update l arn (some p)

@[simp]
theorem put_self (l : Library) (arn : String) (p : ManagedPolicy) : l.put arn p arn = some p :=
  Function.update_self ..

@[simp]
theorem put_put (l : Library) (arn : String) (p q : ManagedPolicy) :
    (l.put arn p).put arn q = l.put arn q :=
  Function.update_idem ..

theorem put_same (there : l arn = some p) : l.put arn p = l := by
  unfold put
  rw [← there]
  exact Function.update_eq_self ..

/-- Every policy has one default version, and no more versions than the limit. -/
def Sound (l : Library) : Prop :=
  ∀ arn p, l arn = some p → p.versions.Sound

theorem Sound.put (sound : l.Sound) (versions : p.versions.Sound) : (l.put arn p).Sound := by
  intro arn' p' there
  by_cases same : arn' = arn
  · subst same
    rw [put_self] at there
    cases there
    exact versions
  · unfold Library.put at there
    rw [Function.update_of_ne same] at there
    exact sound arn' p' there

/-- A policy that is there changes, and nothing else does. -/
def Changes (l : Library) (arn : String) (change : ManagedPolicy → ManagedPolicy) (t : Library) : Prop :=
  ∃ p, l arn = some p ∧ t = l.put arn (change p)

theorem Changes.eq {change : ManagedPolicy → ManagedPolicy} (changed : l.Changes arn change t)
    (there : l arn = some p) : t = l.put arn (change p) := by
  obtain ⟨q, hq, rfl⟩ := changed
  cases hq.symm.trans there
  rfl

/-- What a call that succeeds does, and what it tells. A report tells the name, the path and the id of the default
version, and nothing is said of the description in it; documents are told escaped, and listings in any order. -/
def Does (l : Library) : (call : Call) → call.Result → Library → Prop
  | .createPolicy spec, report, t =>
    l report.arn = none ∧ ∃ v documents, v.isDefault = true ∧ report.defaultVersion = some v.id ∧
      documents v.id = spec.document ∧ t = l.put report.arn (.ofSpec spec v documents)
  | .getPolicy arn, found, t =>
    t = l ∧ Option.Rel
      (fun report p => report.arn = arn ∧ report.name = some p.name ∧ report.path = some p.path ∧
        ∃ id, p.Defaults id ∧ report.defaultVersion = some id)
      found (l arn)
  | .getPolicyVersion arn id, version, t =>
    t = l ∧ ∃ p encoded, l arn = some p ∧ version.document = some encoded ∧
      Escapes encoded (p.documents id)
  | .listPolicyVersions arn, versions, t =>
    t = l ∧ ∃ p, l arn = some p ∧ p.versions.Does arn (.listPolicyVersions arn) versions p.versions
  | .createPolicyVersion arn document asDefault, version, t =>
    ∃ versions p, l arn = some p ∧
      p.versions.Does arn (.createPolicyVersion arn document asDefault) version versions ∧
      t = l.put arn { p with
        versions, documents := Function.update p.documents version.id document }
  | .deletePolicyVersion arn id, _, t =>
    l.Changes arn (fun p => { p with versions := p.versions.drop id }) t
  | .deletePolicy arn, _, t => t = Function.update l arn none
  | .listTags (.policy arn), tags, t =>
    t = l ∧ ∃ p, l arn = some p ∧ ∀ key, (Tag.table tags).get? key = p.tags key
  | .tag (.policy arn) tags, _, t =>
    l.Changes arn (fun p => { p with
      tags := fun key => ((Tag.table tags).get? key).or (p.tags key) }) t
  | .untag (.policy arn) keys, _, t =>
    l.Changes arn (fun p => { p with tags := fun key => if key ∈ keys then none else p.tags key }) t
  | _, _, t => t = l

/-- The world in which calls succeed as they are named, or fail without effect. -/
def Answers (l : Library) : (r : Request) → r.Answer → Library → Prop
  | .iam call, .ok result, t => l.Does call result t
  | _, _, t => t = l

theorem Answers.still {r : Request} {answer : r.Answer} (h : Answers l r answer t) (reads : r.Reads) :
    t = l := by
  cases r with
  | iam call =>
    cases answer with
    | error fault => exact h
    | ok result =>
      have isRead : call.isRead = true := by simpa [Request.Reads, Request.isMutation] using reads
      cases call with
      | listTags target =>
        cases target with
        | policy arn => exact h.1
        | _ => exact h
      | getPolicy | getPolicyVersion | listPolicyVersions => exact h.1
      | getRole | getUser | getGroup | listAttached | listInline | getInline | getInstanceProfile
      | getOidcProvider | getSamlProvider => exact h
      | _ => cases isRead
  | policy | role | patchStatus | patchFinalizers | note => exact h

theorem run_reads {α : Type} {plan : Job α} {steps : List (Step world Library)}
    {outcome : Except Fault α} (reads : plan.Asks Request.Reads)
    (run : Run Answers l plan steps outcome t) : t = l ∧ ∀ step ∈ steps, step.request.Reads := by
  have still (l : Library) (r : Request) (answer : r.Answer) (t : Library) (h : r.Reads)
      (answered : Answers l r answer t) : t = l := answered.still h
  exact ⟨run.state_eq reads still, run.asked reads⟩

theorem tagging (l : Library) (arn : String) (p : ManagedPolicy) :
    Tagging Answers (.policy arn) fun tags => l.put arn { p with tags } where
  tag tags new t answered := by
    have does : (l.put arn { p with tags }).Does (.tag (.policy arn) new) () t := answered
    rw [Changes.eq does (put_self ..), put_put]
  untag tags keys t answered := by
    have does : (l.put arn { p with tags }).Does (.untag (.policy arn) keys) () t := answered
    rw [Changes.eq does (put_self ..), put_put]
  note _ _ _ _ answered := answered

/-- How many versions are created. -/
def creations (steps : List (Step world Library)) : Nat :=
  steps.countP fun step => creates step.request step.answer

theorem creations_append (first second : List (Step world Library)) :
    creations (first ++ second) = creations first + creations second :=
  List.countP_append ..

/-- Whether a request asks for a new version. -/
def Creating (r : Request) : Prop :=
  ∃ arn document asDefault, r = .iam (.createPolicyVersion arn document asDefault)

theorem Creating.not_reads {r : Request} (creating : Creating r) : ¬ r.Reads := by
  obtain ⟨arn, document, asDefault, rfl⟩ := creating
  intro reads
  cases reads

theorem creating_of_creates {r : Request} {answer : r.Answer} (created : creates r answer = true) :
    Creating r := by
  unfold creates at created
  split at created
  next arn document asDefault _ => exact ⟨arn, document, asDefault, rfl⟩
  next => cases created

theorem creations_eq_zero {steps : List (Step world Library)}
    (idle : ∀ step ∈ steps, ¬ Creating step.request) : creations steps = 0 := by
  unfold creations
  rw [List.countP_eq_zero]
  exact fun step hs created => idle step hs (creating_of_creates created)

theorem asks_makeRoom (arn : String) : (makeRoom arn).Asks (¬ Creating ·) := by
  have idle {r : Request} (other : ∀ arn document asDefault,
      r ≠ .iam (.createPolicyVersion arn document asDefault)) : ¬ Creating r := by
    intro h
    obtain ⟨arn, document, asDefault, same⟩ := h
    exact other _ _ _ same
  refine Asks.bind (Asks.bind ⟨idle nofun, fun _ => trivial⟩ fun _ => trivial) fun versions =>
    asks_ite trivial ?_
  cases expendable? versions with
  | none => trivial
  | some version => exact Asks.bind ⟨idle nofun, fun _ => trivial⟩ fun _ => ⟨idle nofun, fun _ => trivial⟩

/-- Making room gives up a version at most, and never the default one. -/
theorem run_makeRoom {steps : List (Step world Library)} (there : l arn = some p)
    (sound : p.versions.Sound) (run : Run Answers l (makeRoom arn) steps (.ok ()) t) :
    ∃ versions, t = l.put arn { p with versions } ∧ versions.Sound := by
  obtain ⟨aged, mid, _, _, hlist, hrest, -⟩ := run_bind_ok.mp run
  obtain ⟨listed, _, _, _, hcall, hdone, -⟩ := run_bind_ok.mp hlist
  obtain ⟨-, same, rfl⟩ := run_pure.mp hdone
  obtain ⟨answer, answered, same', -⟩ := run_ask_done.mp hcall
  subst same'
  obtain ⟨rfl, q, hq, -, perm⟩ := answered
  cases hq.symm.trans there
  cases same
  have unchanged : mid = mid.put arn { p with versions := p.versions } := (put_same there).symm
  split at hrest
  next =>
    obtain ⟨-, -, rfl⟩ := run_pure.mp hrest
    exact ⟨_, unchanged, sound⟩
  next =>
    cases found : expendable? (byAge listed) with
    | none =>
      rw [found] at hrest
      obtain ⟨-, -, rfl⟩ := run_pure.mp hrest
      exact ⟨_, unchanged, sound⟩
    | some version =>
      rw [found] at hrest
      have listed : version ∈ p.versions :=
        (perm rfl).mem_iff.mp ((byAge_perm _).mem_iff.mp (List.mem_of_find?_eq_some found))
      have other : version.isDefault = false := by simpa using List.find?_some found
      obtain ⟨_, _, _, _, hdelete, hnote, -⟩ := run_bind_ok.mp hrest
      obtain ⟨_, answered, same, -⟩ := run_ask_done.mp hdelete
      obtain ⟨_, noted, -, -⟩ := run_ask_done.mp hnote
      subst same
      cases noted
      exact ⟨_, Changes.eq answered there, sound.drop listed other⟩

/-- What a document update leaves of a policy: a new default version with the document, and the rest as it was. -/
structure Updates (p : ManagedPolicy) (document id : String) (q : ManagedPolicy) : Prop where
  sound : q.versions.Sound
  defaults : q.Defaults id
  document : q.documents id = document
  name : q.name = p.name
  path : q.path = p.path
  tags : q.tags = p.tags

/-- A document update that gets through creates one version, the new default. -/
theorem run_updateDocument {steps : List (Step world Library)} {document id : String}
    (there : l arn = some p) (sound : p.versions.Sound)
    (run : Run Answers l (updateDocument arn document) steps (.ok id) t) :
    (∃ q, t = l.put arn q ∧ Updates p document id q) ∧ creations steps = 1 := by
  obtain ⟨_, mid, first, second, hroom, hcreate, rfl⟩ := run_bind_ok.mp run
  have idle : creations first = 0 := creations_eq_zero (hroom.asked (asks_makeRoom arn))
  obtain ⟨versions, rfl, sound⟩ := run_makeRoom there sound hroom
  rcases Job.run_call hcreate with ⟨_, -, -, h⟩ | ⟨version, _, later, answered, hrest, rfl⟩
  · cases h
  obtain ⟨_, noted, outcome, rfl⟩ := run_ask_done.mp hrest
  cases noted
  cases outcome
  obtain ⟨versions', q, hq, pushed, rfl⟩ := answered
  cases hq.symm.trans (put_self ..)
  simp only [Shelf.Does, if_true] at pushed
  obtain ⟨room, fresh, v, same, isDefault, perm⟩ := pushed
  refine ⟨⟨_, put_put .., ?_⟩, ?_⟩
  · exact {
      sound := sound.push room (same ▸ fresh) isDefault perm
      defaults := ⟨v, perm.mem_iff.mpr (List.mem_cons_self ..), isDefault, same⟩
      document := Function.update_self ..
      name := rfl
      path := rfl
      tags := rfl }
  · rw [creations_append, idle]
    rfl

end Library

end IamKeeper
