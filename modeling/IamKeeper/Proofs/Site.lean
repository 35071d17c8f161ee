import IamKeeper.Manager.Kinds
import IamKeeper.Proofs.Failure

namespace IamKeeper

open Iam
open OidcProviderManager (issuer)

/-- What an entity is told from others by. The name of an OIDC provider is its issuer. -/
structure Entity where
  arn : String
  name : String

namespace Kind

/-- Whether the entities of a kind are known by a name in the spec; those of the other kinds are known by
what the status records. -/
def isNamed : Kind → Bool
  | role | group | user | instanceProfile => true
  | policy | oidcProvider | samlProvider | serviceLinkedRole => false

def keyOf : Kind → Entity → String
  | policy | oidcProvider | samlProvider => Entity.arn
  | role | group | user | instanceProfile | serviceLinkedRole => Entity.name

/-- What the entity of an object is known by, as its spec and its status tell. -/
def key? : (kind : Kind) → kind.Spec → Option (Status kind.Detail) → Option String
  | role, spec, _ => some spec.name
  | group, spec, _ => some spec.name
  | user, spec, _ => some spec.name
  | instanceProfile, spec, _ => some spec.name
  | policy, _, status => (status.bind Status.identity).bind Identity.arn
  | oidcProvider, _, status => (status.bind Status.identity).bind Identity.arn
  | samlProvider, _, status => (status.bind Status.identity).bind Identity.arn
  | serviceLinkedRole, _, status => (status.map Status.detail).bind ServiceLinkedRoleDetail.name

/-- The name that a spec gives its entity. IAM itself picks those of service-linked roles. -/
def nameIn? : (kind : Kind) → kind.Spec → Option String
  | role, spec => some spec.name
  | group, spec => some spec.name
  | user, spec => some spec.name
  | instanceProfile, spec => some spec.name
  | policy, spec => some spec.name
  | oidcProvider, spec => some (String.ofList (issuer spec.url))
  | samlProvider, spec => some spec.name
  | serviceLinkedRole, _ => none

def lookup : Kind → String → Call
  | role, key | serviceLinkedRole, key => .getRole key
  | group, key => .getGroup key
  | user, key => .getUser key
  | instanceProfile, key => .getInstanceProfile key
  | policy, key => .getPolicy key
  | oidcProvider, key => .getOidcProvider key
  | samlProvider, key => .getSamlProvider key

def creation : (kind : Kind) → kind.Spec → Call
  | role, spec => .createRole spec
  | group, spec => .createGroup spec
  | user, spec => .createUser spec
  | instanceProfile, spec => .createInstanceProfile spec
  | policy, spec => .createPolicy spec
  | oidcProvider, spec => .createOidcProvider spec
  | samlProvider, spec => .createSamlProvider spec
  | serviceLinkedRole, spec => .createServiceLinkedRole spec

variable {kind : Kind}

/-- Only the status of a kind that is not named tells a key. -/
theorem key?_named (named : kind.isNamed = true) (spec : kind.Spec)
    (a b : Option (Status kind.Detail)) : kind.key? spec a = kind.key? spec b := by
  cases kind <;> first | rfl | cases named

theorem key?_unnamed (unnamed : kind.isNamed = false) (a b : kind.Spec)
    (status : Option (Status kind.Detail)) : kind.key? a status = kind.key? b status := by
  cases kind <;> first | rfl | cases unnamed

end Kind

def Iam.Call.isLookup : Call → Bool
  | .getRole _ | .getGroup _ | .getUser _ | .getInstanceProfile _ | .getPolicy _
  | .getOidcProvider _ | .getSamlProvider _ => true
  | _ => false

def Iam.Call.isDelete : Call → Bool
  | .deleteRole _ | .deleteGroup _ | .deleteUser _ | .deleteInstanceProfile _ | .deletePolicy _
  | .deleteOidcProvider _ | .deleteSamlProvider _ | .deleteServiceLinkedRole _ => true
  | _ => false

/-- The stored status of an object of a kind, and the entity that is there for it. -/
structure Site (kind : Kind) where
  status : Option (Status kind.Detail)
  entity : Option Entity

namespace Site

variable {kind : Kind}

/-- What the stored status and a spec tell leads to the entity, if there is one. -/
def Held (s : Site kind) (spec : kind.Spec) : Prop :=
  ∀ e, s.entity = some e → kind.key? spec s.status = some (kind.keyOf e)

/-- An entity comes into being; beside one that is there it is not followed. -/
def Gains (s : Site kind) (e : Entity) (t : Site kind) : Prop :=
  t = { s with entity := s.entity.or (some e) }

/-- The entity goes if it has a key. -/
def Loses (s : Site kind) (keyOf : Entity → String) (key : String) (t : Site kind) : Prop :=
  t = { s with entity := s.entity.filter fun e => keyOf e ≠ key }

/-- Whatever has a key is looked up: what is found fits that key, and it is the entity, with a word on it,
when the entity has that key. -/
def Finds {α : Type} (s : Site kind) (keyOf : Entity → String) (key : String) (found : Option α)
    (fits : α → Prop) (tells : α → Entity → Prop) (t : Site kind) : Prop :=
  t = s ∧ (∀ report, found = some report → fits report) ∧
    ∀ e, s.entity = some e → keyOf e = key → ∃ report, found = some report ∧ tells report e

/-- What a call that succeeds does. The deletion of a service-linked role counts as done when IAM has taken
it on. -/
def Does (s : Site kind) : (call : Call) → call.Result → Site kind → Prop
  | .createRole spec, report, t => s.Gains ⟨report.arn, spec.name⟩ t
  | .createGroup spec, report, t => s.Gains ⟨report.arn, spec.name⟩ t
  | .createUser spec, report, t => s.Gains ⟨report.arn, spec.name⟩ t
  | .createInstanceProfile spec, report, t => s.Gains ⟨report.arn, spec.name⟩ t
  | .createPolicy spec, report, t => s.Gains ⟨report.arn, spec.name⟩ t
  | .createOidcProvider spec, arn, t => s.Gains ⟨arn, String.ofList (issuer spec.url)⟩ t
  | .createSamlProvider spec, arn, t =>
    SamlProviderManager.nameOf? arn = some spec.name ∧ s.Gains ⟨arn, spec.name⟩ t
  | .createServiceLinkedRole _, report, t => s.Gains ⟨report.arn, report.name⟩ t
  | .getRole name, found, t =>
    s.Finds Entity.name name found (fun report => report.name = name) (fun _ _ => True) t
  | .getGroup name, found, t =>
    s.Finds Entity.name name found (fun report => report.name = name) (fun _ _ => True) t
  | .getUser name, found, t =>
    s.Finds Entity.name name found (fun report => report.name = name) (fun _ _ => True) t
  | .getInstanceProfile name, found, t =>
    s.Finds Entity.name name found (fun report => report.name = name) (fun _ _ => True) t
  | .getPolicy arn, found, t =>
    s.Finds Entity.arn arn found (fun report => report.arn = arn)
      (fun report e => report.name = some e.name) t
  | .getOidcProvider arn, found, t =>
    s.Finds Entity.arn arn found (fun _ => True)
      (fun report e => ∃ url, report.url = some url ∧ String.ofList (issuer url) = e.name) t
  | .getSamlProvider arn, found, t =>
    s.Finds Entity.arn arn found (fun _ => True)
      (fun _ e => SamlProviderManager.nameOf? arn = some e.name) t
  | .deleteRole name, _, t => s.Loses Entity.name name t
  | .deleteGroup name, _, t => s.Loses Entity.name name t
  | .deleteUser name, _, t => s.Loses Entity.name name t
  | .deleteInstanceProfile name, _, t => s.Loses Entity.name name t
  | .deletePolicy arn, _, t => s.Loses Entity.arn arn t
  | .deleteOidcProvider arn, _, t => s.Loses Entity.arn arn t
  | .deleteSamlProvider arn, _, t => s.Loses Entity.arn arn t
  | .deleteServiceLinkedRole name, _, t => s.Loses Entity.name name t
  | _, _, t => t = s

/-- The world in which calls do what they are named for, a status is stored as it is sent, and whatever
fails has no effect. -/
def Answers (s : Site kind) : (r : Request) → r.Answer → Site kind → Prop
  | .iam call, .ok result, t => s.Does call result t
  | .patchStatus _ patch, .ok _, t =>
    ∃ o : kind.Object, kind.statusPatch o = patch ∧ t = { s with status := o.status }
  | _, _, t => t = s

end Site

namespace Request

/-- Whether a request looks an entity up, creates it or deletes it, stores a status, or drops a
finalizer. -/
def concerns : Request → Bool
  | .iam call => call.isLookup || call.isCreate || call.isDelete
  | .patchStatus _ _ => true
  | .patchFinalizers _ (.drop _ _) => true
  | _ => false

def Quiet (r : Request) : Prop :=
  r.concerns = false

def creates : Request → Bool
  | .iam call => call.isCreate
  | _ => false

def stores : Request → Bool
  | .patchStatus _ _ => true
  | _ => false

def releases : Request → Bool
  | .patchFinalizers _ (.drop _ _) => true
  | _ => false

def looks : Request → Bool
  | .iam call => call.isLookup
  | _ => false

def destroys : Request → Bool
  | .iam call => call.isDelete
  | _ => false

/-- A request that neither creates an entity nor stores a status. -/
structure Spares (r : Request) : Prop where
  creates : r.creates = false
  stores : r.stores = false

theorem Quiet.parts {r : Request} (quiet : r.Quiet) :
    r.Spares ∧ r.releases = false ∧ r.looks = false := by
  cases r with
  | iam call =>
    have h : ((call.isLookup || call.isCreate) || call.isDelete) = false := quiet
    simp only [Bool.or_eq_false_iff] at h
    exact ⟨⟨h.1.2, rfl⟩, rfl, h.1.1⟩
  | patchStatus => cases quiet
  | patchFinalizers path patch => cases patch <;> first | exact ⟨⟨rfl, rfl⟩, rfl, rfl⟩ | cases quiet
  | _ => exact ⟨⟨rfl, rfl⟩, rfl, rfl⟩

theorem Quiet.spares {r : Request} (quiet : r.Quiet) : r.Spares :=
  quiet.parts.1

end Request

namespace Site

open Plan

variable {kind : Kind} {s t : Site kind} {steps : List (Step world (Site kind))}

theorem Finds.not_none {α : Type} {keyOf : Entity → String} {key : String} {fits : α → Prop}
    {tells : α → Entity → Prop} (h : s.Finds keyOf key none fits tells t) {e : Entity}
    (there : s.entity = some e) : keyOf e ≠ key := by
  intro same
  obtain ⟨_, found, -⟩ := h.2.2 e there same
  cases found

theorem Answers.quiet {r : Request} {answer : r.Answer} (h : Answers s r answer t)
    (quiet : r.Quiet) : t = s := by
  cases r with
  | iam call =>
    cases answer with
    | error fault => exact h
    | ok result => cases call <;> first | exact h | cases quiet
  | patchStatus => cases quiet
  | policy | role | patchFinalizers | note => exact h

theorem Answers.lookup {key : String} {answer : (Request.iam (kind.lookup key)).Answer}
    (h : Answers s (.iam (kind.lookup key)) answer t) : t = s := by
  cases kind <;> cases answer <;> first | exact h | exact h.1

/-- What creates no entity leaves the one that is there, or takes it away. -/
theorem Answers.entity {r : Request} {answer : r.Answer} (h : Answers s r answer t)
    (creates : r.creates = false) : t.entity = s.entity ∨ t.entity = none := by
  have lost {keyOf : Entity → String} {key : String} (h : s.Loses keyOf key t) :
      t.entity = s.entity ∨ t.entity = none := by
    rw [h]
    cases s.entity with
    | none => exact .inl rfl
    | some e =>
      by_cases hk : keyOf e = key
      · exact .inr (by simp [hk])
      · exact .inl (by simp [hk])
  cases r with
  | iam call =>
    cases answer with
    | error fault =>
      cases h
      exact .inl rfl
    | ok result =>
      cases call with
      | deleteRole | deleteGroup | deleteUser | deleteInstanceProfile | deletePolicy
      | deleteOidcProvider | deleteSamlProvider | deleteServiceLinkedRole => exact lost h
      | getRole | getGroup | getUser | getInstanceProfile | getPolicy | getOidcProvider
      | getSamlProvider =>
        cases h.1
        exact .inl rfl
      | _ => first | (cases h; exact .inl rfl) | cases creates
  | patchStatus path patch =>
    cases answer with
    | error fault =>
      cases h
      exact .inl rfl
    | ok _ =>
      obtain ⟨o, -, rfl⟩ := h
      exact .inl rfl
  | policy | role | patchFinalizers | note =>
    cases h
    exact .inl rfl

theorem Answers.status {r : Request} {answer : r.Answer} (h : Answers s r answer t)
    (stores : r.stores = false) : t.status = s.status := by
  cases r with
  | iam call =>
    cases answer with
    | error fault =>
      cases h
      rfl
    | ok result =>
      cases call with
      | getRole | getGroup | getUser | getInstanceProfile | getPolicy | getOidcProvider
      | getSamlProvider =>
        cases h.1
        rfl
      | createSamlProvider =>
        cases h.2
        rfl
      | _ =>
        cases h
        rfl
  | patchStatus => cases stores
  | policy | role | patchFinalizers | note =>
    cases h
    rfl

theorem run_call {α : Type} {call : Call} {rest : call.Result → Job α} {outcome : Except Fault α}
    (run : Run Answers s (Job.iam call >>= rest) steps outcome t) :
    (∃ fault, steps = [⟨s, Request.iam call, Except.error fault, s⟩] ∧ outcome = .error fault ∧
      t = s) ∨
    ∃ result mid later, s.Does call result mid ∧ Run Answers mid (rest result) later outcome t ∧
      steps = ⟨s, Request.iam call, Except.ok result, mid⟩ :: later := by
  rcases Job.run_call run with ⟨fault, answered, rfl, rfl⟩ | ⟨result, mid, later, does, hrest, rfl⟩
  · cases answered
    exact .inl ⟨fault, rfl, rfl, rfl⟩
  · exact .inr ⟨result, mid, later, does, hrest, rfl⟩

theorem run_quiet {α : Type} {p : Job α} {outcome : Except Fault α} (quiet : p.Asks Request.Quiet)
    (run : Run Answers s p steps outcome t) :
    t = s ∧ ∀ step ∈ steps, step.request.Quiet ∧ step.before = s ∧ step.after = s := by
  have still (s : Site kind) (r : Request) (answer : r.Answer) (t : Site kind) (h : r.Quiet)
      (answered : s.Answers r answer t) : t = s := answered.quiet h
  have asked := run.asked quiet
  have alone := run.steps_eq quiet still
  exact ⟨run.state_eq quiet still, fun step hs => ⟨asked step hs, alone step hs⟩⟩

theorem run_noted {α : Type} {level : Level} {text : String} {p : Job α} {outcome : Except Fault α}
    (run : Run Answers s (Job.note level text >>= fun _ => p) steps outcome t) :
    ∃ later, steps = ⟨s, Request.note level text, (), s⟩ :: later ∧
      Run Answers s p later outcome t := by
  obtain ⟨_, mid, later, answered, rest, rfl⟩ := run_ask.mp run
  cases answered
  exact ⟨later, rfl, rest⟩

theorem run_ask_iam {α : Type} (call : Call) (result : call.Result) {mid : Site kind}
    {next : Except Fault call.Result → Job α} {outcome : Except Fault α}
    (does : s.Does call result mid) (rest : Run Answers mid (next (.ok result)) steps outcome t) :
    Run Answers s (.ask (Request.iam call) next)
      (⟨s, Request.iam call, Except.ok result, mid⟩ :: steps) outcome t :=
  Run.ask (I := world) does rest

theorem run_ask {α : Type} {r : Request} {mid : Site kind} {next : r.Answer → Job α}
    {outcome : Except Fault α} (answer : r.Answer) (answered : s.Answers r answer mid)
    (rest : Run Answers mid (next answer) steps outcome t) :
    Run Answers s (.ask r next) (⟨s, r, answer, mid⟩ :: steps) outcome t :=
  Run.ask (I := world) answered rest

theorem run_ask_note {α : Type} {level : Level} {text : String} {next : Unit → Job α}
    {outcome : Except Fault α} (rest : Run Answers s (next ()) steps outcome t) :
    Run Answers s (.ask (Request.note level text) next)
      (⟨s, Request.note level text, (), s⟩ :: steps) outcome t :=
  Run.ask (I := world) (r := Request.note level text) (a := ()) rfl rest

end Site

end IamKeeper
