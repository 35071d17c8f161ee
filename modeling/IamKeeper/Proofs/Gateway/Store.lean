import IamKeeper.Proofs.Account
import IamKeeper.Proofs.Reading
import IamKeeper.Proofs.Settling
import IamKeeper.Proofs.Tagging
import IamKeeper.Proofs.Tracking.Sync

namespace IamKeeper

open Iam Plan

/-- The kinds whose entities are gateways. -/
inductive GatewayKind where
  | instanceProfile
  | oidcProvider
  | samlProvider
deriving DecidableEq

namespace Gateway

/-- An instance profile holds at most one role, by its name. -/
structure Profile where
  path : String
  role : Option String
  named : given role = role

/-- The profile with another role in it. -/
def Profile.hold (p : Profile) (role : Option String) : Profile :=
  ⟨p.path, given role, given_given role⟩

structure OidcForm where
  url : String
  clientIds : Set String
  thumbprints : Set String

structure SamlForm where
  name : String
  document : String

end Gateway

namespace GatewayKind

@[reducible]
def kind : GatewayKind → Kind
  | instanceProfile => .instanceProfile
  | oidcProvider => .oidcProvider
  | samlProvider => .samlProvider

/-- What IAM keeps of a gateway beside its tags. -/
@[reducible]
def Form : GatewayKind → Type
  | instanceProfile => Gateway.Profile
  | oidcProvider => Gateway.OidcForm
  | samlProvider => Gateway.SamlForm

end GatewayKind

structure Gateway (k : GatewayKind) where
  form : k.Form
  tags : String → Option String

namespace Gateway

/-- A new instance profile holds no role. -/
def ofProfile (spec : InstanceProfileSpec) : Gateway .instanceProfile where
  form := ⟨spec.path.getD defaultPath, none, rfl⟩
  tags := (Tag.table spec.tags).get?

def ofOidc (spec : OidcProviderSpec) : Gateway .oidcProvider where
  form := ⟨spec.url, {id | id ∈ spec.clientIds}, {print | print ∈ spec.thumbprints}⟩
  tags := (Tag.table spec.tags).get?

def ofSaml (spec : SamlProviderSpec) : Gateway .samlProvider where
  form := ⟨spec.name, spec.document⟩
  tags := (Tag.table spec.tags).get?

/-- A URL as it is reported: a scheme in front is left out. -/
def reported (url : String) : String :=
  String.ofList ((Text.afterFront? "https://".toList url.toList).getD url.toList)

/-- The ARN of a SAML provider ends with its name, which is free of colons and slashes. -/
def Names (arn name : String) : Prop :=
  (∃ front : String, arn = front ++ ":saml-provider/" ++ name) ∧ ':' ∉ name.toList ∧ '/' ∉ name.toList

end Gateway

def Iam.TagTarget.gateway? : TagTarget → Option (GatewayKind × String)
  | .instanceProfile name => some (.instanceProfile, name)
  | .oidcProvider arn => some (.oidcProvider, arn)
  | .samlProvider arn => some (.samlProvider, arn)
  | _ => none

/-- What the cluster answers when a role object is looked up. -/
abbrev RoleDirectory : Type :=
  String → String → Except Fault (Option RoleObject)

/-- The gateways by their keys: instance profiles by their names, and providers by their ARNs. -/
abbrev Gateways : Type :=
  (k : GatewayKind) → String → Option (Gateway k)

namespace Gateways

variable {g t : Gateways} {k : GatewayKind} {key : String} {e : Gateway k}

def put (g : Gateways) (k : GatewayKind) (key : String) (e : Gateway k) : Gateways :=
  Function.update g k (Function.update (g k) key (some e))

@[simp]
theorem put_self (g : Gateways) (k : GatewayKind) (key : String) (e : Gateway k) :
    g.put k key e k key = some e := by
  simp [put]

@[simp]
theorem put_put (g : Gateways) (k : GatewayKind) (key : String) (e f : Gateway k) :
    (g.put k key e).put k key f = g.put k key f := by
  simp [put]

theorem put_same (there : g k key = some e) : g.put k key e = g := by
  unfold put
  rw [← there, Function.update_eq_self, Function.update_eq_self]

def drop (g : Gateways) (k : GatewayKind) (key : String) : Gateways :=
  Function.update g k (Function.update (g k) key none)

/-- The gateways of a kind as they are kept. -/
def kept (k : GatewayKind) : Keeping Gateways String (Gateway k) where
  get g := g k
  put g := g.put k
  get_put g := g.put_self k
  put_get := put_same

/-- A gateway that is missing comes into being, and nothing else changes. -/
def Gains (g : Gateways) (k : GatewayKind) (key : String) (e : Gateway k) (t : Gateways) : Prop :=
  g k key = none ∧ t = g.put k key e

/-- A gateway that is there, and as it must be for it, changes, and nothing else does. -/
def Changes (g : Gateways) (k : GatewayKind) (key : String) (fit : Gateway k → Prop)
    (change : Gateway k → Gateway k) (t : Gateways) : Prop :=
  ∃ e, g k key = some e ∧ fit e ∧ t = g.put k key (change e)

theorem Changes.eq {fit : Gateway k → Prop} {change : Gateway k → Gateway k}
    (changed : g.Changes k key fit change t) (there : g k key = some e) :
    fit e ∧ t = g.put k key (change e) := by
  obtain ⟨f, hf, fits, rfl⟩ := changed
  cases there.symm.trans hf
  exact ⟨fits, rfl⟩

/-- Whether a gateway is there is told, with a property of it, and nothing changes. -/
def Finds {α : Type} (g : Gateways) (k : GatewayKind) (key : String) (found : Option α)
    (property : α → Gateway k → Prop) (t : Gateways) : Prop :=
  t = g ∧ Option.Rel property found (g k key)

/-- What a call that succeeds does, and what it tells. A role is put into a profile that holds none, and taken out
of one that holds it; client ids and thumbprints are told in any order and number. -/
def Does (g : Gateways) : (call : Call) → call.Result → Gateways → Prop
  | .createInstanceProfile spec, report, t =>
    report.name = spec.name ∧ g.Gains .instanceProfile spec.name (.ofProfile spec) t
  | .getInstanceProfile name, found, t =>
    g.Finds .instanceProfile name found
      (fun report e => report.name = name ∧ report.path = e.form.path ∧
        report.roles = e.form.role.toList) t
  | .addRole profile role, _, t =>
    g.Changes .instanceProfile profile (fun e => e.form.role = none ∧ role ≠ "")
      (fun e => { e with form := e.form.hold (some role) }) t
  | .removeRole profile role, _, t =>
    g.Changes .instanceProfile profile (fun e => e.form.role = some role)
      (fun e => { e with form := e.form.hold none }) t
  | .deleteInstanceProfile name, _, t => t = g.drop .instanceProfile name
  | .createOidcProvider spec, arn, t => g.Gains .oidcProvider arn (.ofOidc spec) t
  | .getOidcProvider arn, found, t =>
    g.Finds .oidcProvider arn found
      (fun report e => report.url = some (Gateway.reported e.form.url) ∧
        (∀ id, id ∈ report.clientIds ↔ id ∈ e.form.clientIds) ∧
        ∀ print, print ∈ report.thumbprints ↔ print ∈ e.form.thumbprints) t
  | .updateThumbprints arn thumbprints, _, t =>
    g.Changes .oidcProvider arn (fun _ => True)
      (fun e => { e with form := { e.form with thumbprints := {print | print ∈ thumbprints} } }) t
  | .addClientId arn id, _, t =>
    g.Changes .oidcProvider arn (fun _ => True)
      (fun e => { e with form := { e.form with clientIds := insert id e.form.clientIds } }) t
  | .removeClientId arn id, _, t =>
    g.Changes .oidcProvider arn (fun _ => True)
      (fun e => { e with form := { e.form with clientIds := e.form.clientIds \ {id} } }) t
  | .deleteOidcProvider arn, _, t => t = g.drop .oidcProvider arn
  | .createSamlProvider spec, arn, t =>
    Gateway.Names arn spec.name ∧ g.Gains .samlProvider arn (.ofSaml spec) t
  | .getSamlProvider arn, found, t =>
    g.Finds .samlProvider arn found
      (fun report e => Gateway.Names arn e.form.name ∧ report.document = some e.form.document) t
  | .updateSamlProvider arn document, _, t =>
    g.Changes .samlProvider arn (fun _ => True)
      (fun e => { e with form := { e.form with document } }) t
  | .deleteSamlProvider arn, _, t => t = g.drop .samlProvider arn
  | .listTags target, tags, t =>
    match target.gateway? with
    | some (k, key) => t = g ∧ ∃ e, g k key = some e ∧ ∀ key, (Tag.table tags).get? key = e.tags key
    | none => t = g
  | .tag target tags, _, t =>
    match target.gateway? with
    | some (k, key) =>
      g.Changes k key (fun _ => True)
        (fun e => { e with tags := fun key => ((Tag.table tags).get? key).or (e.tags key) }) t
    | none => t = g
  | .untag target keys, _, t =>
    match target.gateway? with
    | some (k, key) =>
      g.Changes k key (fun _ => True)
        (fun e => { e with tags := fun key => if key ∈ keys then none else e.tags key }) t
    | none => t = g
  | _, _, t => t = g

/-- The world in which calls succeed as they are named, or fail without effect. -/
def Answers (directory : RoleDirectory) (g : Gateways) : (r : Request) → r.Answer → Gateways → Prop
  | .iam call, .ok result, t => g.Does call result t
  | .role space name, answer, t => answer = directory space name ∧ t = g
  | _, _, t => t = g

variable {directory : RoleDirectory} {steps : List (Step world Gateways)}

theorem Answers.still {r : Request} {answer : r.Answer} (h : Answers directory g r answer t)
    (reads : r.Reads) : t = g := by
  cases r with
  | iam call =>
    cases answer with
    | error fault => exact h
    | ok result =>
      have isRead : call.isRead = true := by simpa [Request.Reads, Request.isMutation] using reads
      cases call with
      | listTags target =>
        change (match target.gateway? with
          | some (k, key) => t = g ∧ _
          | none => t = g) at h
        cases hg : target.gateway? with
        | none => simpa [hg] using h
        | some place =>
          rw [hg] at h
          exact h.1
      | getInstanceProfile | getOidcProvider | getSamlProvider => exact h.1
      | getRole | getUser | getGroup | listAttached | listInline | getInline | getPolicy
      | getPolicyVersion | listPolicyVersions => exact h
      | _ => cases isRead
  | role space name => exact h.2
  | policy | patchStatus | patchFinalizers | note => exact h

theorem tagging {target : TagTarget} (carried : target.gateway? = some (k, key)) (g : Gateways)
    (e : Gateway k) : Tagging (Answers directory) target fun tags => g.put k key { e with tags } where
  tag tags new t answered := by
    have does : (g.put k key { e with tags }).Does (.tag target new) () t := answered
    simp only [Does, carried] at does
    rw [(does.eq (put_self ..)).2, put_put]
  untag tags keys t answered := by
    have does : (g.put k key { e with tags }).Does (.untag target keys) () t := answered
    simp only [Does, carried] at does
    rw [(does.eq (put_self ..)).2, put_put]
  note _ _ _ _ answered := answered

theorem run_iam_ok {call : Call} {result : call.Result}
    (run : Run (Answers directory) g (Job.iam call) steps (.ok result) t) : g.Does call result t :=
  Job.run_iam_ok run

theorem run_note {level : Level} {text : String} {outcome : Except Fault Unit}
    (run : Run (Answers directory) g (Job.note level text) steps outcome t) : t = g :=
  (Job.run_note run).1

theorem run_noted_iam {text : String} (call : Call) {result : call.Result}
    (run : Run (Answers directory) g (do Job.debug text; Job.iam call) steps (.ok result) t) :
    g.Does call result t :=
  Job.run_noted_iam (fun _ _ _ _ noted => noted) run

/-- A read fails only with a request. -/
theorem blames {fault : Fault} {o : k.kind.Object}
    (run : Run (Answers directory) g (k.kind.manager.readOne o) steps (.error fault) t) :
    ∃ step ∈ steps, step.failed = true := by
  have reads : Reads Replies.all (fun _ => False) (k.kind.manager.readOne o) := by
    cases k with
    | instanceProfile => exact InstanceProfileManager.reads o
    | oidcProvider => exact OidcProviderManager.reads o
    | samlProvider => exact SamlProviderManager.reads o
  exact (reads.blames (Replies.all_bound _) run).resolve_left id

/-- Nothing is read of a gateway whose key is not known. -/
theorem blind {o : k.kind.Object} {found : Option k.kind.Object}
    (unknown : k.kind.key? o.spec o.status = none)
    (run : Run (Answers directory) g (k.kind.manager.readOne o) steps (.ok found) t) : found = none := by
  rw [(k.kind.tracks.read o).blind unknown] at run
  exact Except.ok.inj (run_pure.mp run).2.1

/-- A change keeps the key. -/
theorem tells {desired latest observed : k.kind.Object} {delta : Delta} {spec : k.kind.Spec}
    (known : k.kind.key? spec latest.status = some key)
    (run : Run (Answers directory) g (k.kind.manager.update desired latest delta) steps (.ok observed) t) :
    k.kind.key? spec observed.status = some key :=
  (run.yielded (Kind.update_keeps desired latest delta) spec).trans known

end Gateways

end IamKeeper
