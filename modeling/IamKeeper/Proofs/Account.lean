import IamKeeper.Proofs.Entries
import IamKeeper.Proofs.Failure
import IamKeeper.Proofs.Percent
import Mathlib.Data.Set.Insert
import Mathlib.Logic.Function.Basic

namespace IamKeeper

open Iam
open Text.Percent (Escapes)

/-- What IAM keeps of a principal. Groups have no boundary and no tags; only roles have a trust policy, a
description and a session duration. -/
structure Holder where
  path : String
  attached : Set String
  inline : String → Option String
  boundary : Option String
  tags : String → Option String
  trust : String
  description : Option String
  maxSession : Int32

namespace Holder

def bare (path : Option String) : Holder where
  path := path.getD "/"
  attached := ∅
  inline := fun _ => none
  boundary := none
  tags := fun _ => none
  trust := ""
  description := none
  maxSession := 3600

def ofRole (spec : RoleSpec) : Holder :=
  { bare spec.path with
    boundary := given spec.boundary
    tags := (Tag.table spec.tags).get?
    trust := spec.trust
    description := spec.description
    maxSession := spec.maxSession.getD 3600 }

def ofUser (spec : UserSpec) : Holder :=
  { bare spec.path with
    boundary := given spec.boundary
    tags := (Tag.table spec.tags).get? }

def ofGroup (spec : GroupSpec) : Holder :=
  bare spec.path

end Holder

def Iam.TagTarget.principal? : TagTarget → Option Principal
  | .role name => some (.role name)
  | .user name => some (.user name)
  | _ => none

abbrev Account : Type :=
  Principal → Option Holder

namespace Account

variable {a b : Account} {p : Principal} {h : Holder}

def put (a : Account) (p : Principal) (h : Holder) : Account :=
  Function.update a p (some h)

@[simp]
theorem put_self (a : Account) (p : Principal) (h : Holder) : a.put p h p = some h :=
  Function.update_self ..

@[simp]
theorem put_put (a : Account) (p : Principal) (h k : Holder) : (a.put p h).put p k = a.put p k :=
  Function.update_idem ..

theorem put_same (there : a p = some h) : a.put p h = a := by
  unfold put
  rw [← there]
  exact Function.update_eq_self ..

/-- A principal that is there changes, and nothing else does. -/
def Changes (a : Account) (p : Principal) (change : Holder → Holder) (b : Account) : Prop :=
  ∃ h, a p = some h ∧ b = a.put p (change h)

/-- A principal that is missing comes into being, and nothing else changes. -/
def Gains (a : Account) (p : Principal) (h : Holder) (b : Account) : Prop :=
  a p = none ∧ b = a.put p h

/-- A principal that is there has a property, and nothing changes. -/
def Shows (a : Account) (p : Principal) (property : Holder → Prop) (b : Account) : Prop :=
  b = a ∧ ∃ h, a p = some h ∧ property h

/-- Whether a principal is there is told, with a property of it, and nothing changes. -/
def Finds {α : Type} (a : Account) (p : Principal) (found : Option α)
    (property : α → Holder → Prop) (b : Account) : Prop :=
  b = a ∧ Option.Rel property found (a p)

theorem Changes.eq {change : Holder → Holder} (changed : a.Changes p change b)
    (there : a p = some h) : b = a.put p (change h) := by
  obtain ⟨k, hk, rfl⟩ := changed
  cases there.symm.trans hk
  rfl

/-- What a call that succeeds does, and what it tells. Documents are told escaped; listings tell their
members in any order and number. -/
def Does (a : Account) : (call : Call) → call.Result → Account → Prop
  | .createRole spec, report, b =>
    report.name = spec.name ∧ a.Gains (.role spec.name) (.ofRole spec) b
  | .createUser spec, report, b =>
    report.name = spec.name ∧ a.Gains (.user spec.name) (.ofUser spec) b
  | .createGroup spec, report, b =>
    report.name = spec.name ∧ a.Gains (.group spec.name) (.ofGroup spec) b
  | .getRole name, found, b =>
    a.Finds (.role name) found
      (fun report h => report.name = name ∧ report.path = h.path ∧
        report.description = h.description ∧ report.maxSession = some h.maxSession ∧
        report.boundary = h.boundary ∧
        ∃ encoded, report.trust = some encoded ∧ Escapes encoded h.trust) b
  | .getUser name, found, b =>
    a.Finds (.user name) found
      (fun report h => report.name = name ∧ report.path = h.path ∧
        report.boundary = h.boundary) b
  | .getGroup name, found, b =>
    a.Finds (.group name) found (fun report h => report.name = name ∧ report.path = h.path) b
  | .updateRole name description maxSession, _, b =>
    a.Changes (.role name)
      (fun h => { h with
        description := description <|> h.description
        maxSession := maxSession.getD h.maxSession }) b
  | .updateTrust name document, _, b =>
    a.Changes (.role name) (fun h => { h with trust := document }) b
  | .updateUser name path, _, b => a.Changes (.user name) (fun h => { h with path }) b
  | .updateGroup name path, _, b => a.Changes (.group name) (fun h => { h with path }) b
  | .deleteRole name, _, b => b = Function.update a (.role name) none
  | .deleteUser name, _, b => b = Function.update a (.user name) none
  | .deleteGroup name, _, b => b = Function.update a (.group name) none
  | .putBoundary p policy, _, b => a.Changes p (fun h => { h with boundary := some policy }) b
  | .deleteBoundary p, _, b => a.Changes p (fun h => { h with boundary := none }) b
  | .listAttached p, arns, b => a.Shows p (fun h => ∀ arn, arn ∈ arns ↔ arn ∈ h.attached) b
  | .attach p policy, _, b =>
    a.Changes p (fun h => { h with attached := insert policy h.attached }) b
  | .detach p policy, _, b =>
    a.Changes p (fun h => { h with attached := h.attached \ {policy} }) b
  | .listInline p, names, b => a.Shows p (fun h => ∀ n, n ∈ names ↔ (h.inline n).isSome) b
  | .getInline p policy, encoded, b =>
    a.Shows p (fun h => ∃ document, h.inline policy = some document ∧ Escapes encoded document) b
  | .putInline p policy document, _, b =>
    a.Changes p (fun h => { h with inline := Function.update h.inline policy (some document) }) b
  | .deleteInline p policy, _, b =>
    a.Changes p (fun h => { h with inline := Function.update h.inline policy none }) b
  | .listTags target, tags, b =>
    match target.principal? with
    | some p => a.Shows p (fun h => ∀ key, (Tag.table tags).get? key = h.tags key) b
    | none => b = a
  | .tag target tags, _, b =>
    match target.principal? with
    | some p =>
      a.Changes p (fun h => { h with
        tags := fun key => ((Tag.table tags).get? key).or (h.tags key) }) b
    | none => b = a
  | .untag target keys, _, b =>
    match target.principal? with
    | some p =>
      a.Changes p (fun h => { h with
        tags := fun key => if key ∈ keys then none else h.tags key }) b
    | none => b = a
  | _, _, b => b = a

end Account

/-- What the cluster answers when a policy object is looked up. -/
abbrev Directory : Type :=
  String → String → Except Fault (Option PolicyObject)

/-- The world in which calls succeed as they are named, or fail without effect. -/
def Account.Answers (directory : Directory) (a : Account) :
    (r : Request) → r.Answer → Account → Prop
  | .iam call, .ok result, b => a.Does call result b
  | .policy space name, answer, b => answer = directory space name ∧ b = a
  | _, _, b => b = a

/-- Whether a request can change what IAM keeps. -/
def Request.isMutation : Request → Bool
  | .iam call => !call.isRead
  | _ => false

def Request.Reads (r : Request) : Prop :=
  r.isMutation = false

/-- A request for an object that a reference may lead to. -/
def Request.LooksUp : Request → Prop
  | .policy _ _ => True
  | _ => False

namespace Account

open Plan

variable {directory : Directory} {a b : Account} {steps : List (Step world Account)}

theorem Answers.still {r : Request} {answer : r.Answer} (h : Answers directory a r answer b)
    (reads : r.Reads) : b = a := by
  cases r with
  | iam call =>
    cases answer with
    | error fault => exact h
    | ok result =>
      have isRead : call.isRead = true := by simpa [Request.Reads, Request.isMutation] using reads
      cases call with
      | listTags target =>
        change (match target.principal? with
          | some p => a.Shows p _ b
          | none => b = a) at h
        cases hp : target.principal? with
        | none => simpa [hp] using h
        | some p =>
          rw [hp] at h
          exact h.1
      | getRole | getUser | getGroup | listAttached | listInline | getInline => exact h.1
      | getPolicy | getPolicyVersion | listPolicyVersions | getInstanceProfile | getOidcProvider
      | getSamlProvider => exact h
      | _ => cases isRead
  | policy space name => exact h.2
  | role | patchStatus | patchFinalizers | note => exact h

theorem run_iam_ok {call : Call} {result : call.Result}
    (run : Run (Answers directory) a (Job.iam call) steps (.ok result) b) : a.Does call result b :=
  Job.run_iam_ok run

theorem run_note {level : Level} {text : String} {outcome : Except Fault Unit}
    (run : Run (Answers directory) a (Job.note level text) steps outcome b) :
    b = a ∧ outcome = .ok () :=
  Job.run_note run

theorem run_ask_iam {α : Type} (call : Call) (result : call.Result) {mid : Account}
    {next : Except Fault call.Result → Job α} {outcome : Except Fault α}
    (does : a.Does call result mid)
    (rest : Run (Answers directory) mid (next (.ok result)) steps outcome b) :
    Run (Answers directory) a (.ask (Request.iam call) next)
      (⟨a, Request.iam call, Except.ok result, mid⟩ :: steps) outcome b :=
  Run.ask (I := world) does rest

theorem run_ask_note {α : Type} {level : Level} {text : String} {next : Unit → Job α}
    {outcome : Except Fault α} (rest : Run (Answers directory) a (next ()) steps outcome b) :
    Run (Answers directory) a (.ask (Request.note level text) next)
      (⟨a, Request.note level text, (), a⟩ :: steps) outcome b :=
  Run.ask (I := world) (r := Request.note level text) (a := ()) rfl rest

end Account

end IamKeeper
