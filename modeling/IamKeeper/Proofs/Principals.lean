import IamKeeper.Proofs.Principal.Group
import IamKeeper.Proofs.Principal.Role
import IamKeeper.Proofs.Principal.User

namespace IamKeeper

open Iam Plan

inductive PrincipalKind where
  | role
  | user
  | group

namespace PrincipalKind

@[reducible]
def kind : PrincipalKind → Kind
  | role => .role
  | user => .user
  | group => .group

@[reducible]
def principal : (k : PrincipalKind) → k.kind.Spec → Principal
  | role, s => .role s.name
  | user, s => .user s.name
  | group, s => .group s.name

/-- A holder that was `old` before is as a spec asks for. -/
@[reducible]
def Conforms : (k : PrincipalKind) → k.kind.Spec → Option Holder → Holder → Prop
  | role => RoleSpec.Conforms
  | user => UserSpec.Conforms
  | group => GroupSpec.Conforms

end PrincipalKind

/-- A sync that gets through leaves the principal as the resolved spec asks for, and every other principal
alone. From then on no sync of the same spec makes a call that changes anything, and each gets through
unless a request of it fails. -/
theorem sync_converges (k : PrincipalKind) {directory : Directory} {a b : Account}
    {o : k.kind.Object} {steps : List (Step world Account)} {synced : Synced k.kind.Spec k.kind.Detail}
    (run : Run (Account.Answers directory) a (k.kind.manager.sync o) steps (.ok synced) b) :
    ∃ resolved lookups,
      Run (Account.Answers directory) a (k.kind.manager.resolve o) lookups (.ok resolved) a ∧
      ∃ h, b = a.put (k.principal resolved.object.spec) h ∧
        k.Conforms resolved.object.spec (a (k.principal resolved.object.spec)) h ∧
        ∀ status again outcome d,
          Run (Account.Answers directory) b (k.kind.manager.sync { o with status }) again outcome d →
            d = b ∧ (∀ step ∈ again, step.request.Reads) ∧
              ((∃ synced, outcome = .ok synced) ∨ ∃ step ∈ again, step.failed) := by
  cases k with
  | role => exact (RoleManager.convergent directory).sync run
  | user => exact (UserManager.convergent directory).sync run
  | group => exact (GroupManager.convergent directory).sync run

def crew : Kind.group.Object where
  metadata := ⟨some "crew", none, some "space", [], none⟩
  spec := ⟨"crew", none, ["arn:new"], [], ∅⟩
  status := none

/-- The account in which the group has some policies, and nothing else is there. -/
def crewWith (policies : Set String) : Account :=
  Account.put (fun _ => none) (.group "crew") { Holder.bare none with attached := policies }

/-- A group that has another policy than the one asked for is brought in line. -/
theorem crew_converges :
    ∃ steps synced b h,
      Run (Account.Answers fun _ _ => .ok none) (crewWith {"arn:old"})
        (Kind.group.manager.sync crew) steps (.ok synced) b ∧
      b = (crewWith {"arn:old"}).put (.group "crew") h ∧
      crew.spec.Conforms (crewWith {"arn:old"} (.group "crew")) h := by
  have there (policies : Set String) : crewWith policies (.group "crew") =
      some { Holder.bare none with attached := policies } :=
    Account.put_self ..
  have found : (crewWith {"arn:old"}).Does (.getGroup "crew")
      (some ⟨"arn:crew", "id", "crew", "/", none⟩) (crewWith {"arn:old"}) :=
    ⟨rfl, by rw [there]; exact .some ⟨rfl, rfl⟩⟩
  have attached : (crewWith {"arn:old"}).Does (.listAttached (.group "crew")) ["arn:old"]
      (crewWith {"arn:old"}) :=
    ⟨rfl, _, there _, by simp⟩
  have inline : (crewWith {"arn:old"}).Does (.listInline (.group "crew")) []
      (crewWith {"arn:old"}) :=
    ⟨rfl, _, there _, by simp [Holder.bare]⟩
  have attach (policies : Set String) : (crewWith policies).Does
      (.attach (.group "crew") "arn:new") () (crewWith (insert "arn:new" policies)) :=
    ⟨_, there _, (Account.put_put ..).symm⟩
  have detach (policies : Set String) : (crewWith policies).Does
      (.detach (.group "crew") "arn:old") () (crewWith (policies \ {"arn:old"})) :=
    ⟨_, there _, (Account.put_put ..).symm⟩
  have run : ∃ steps synced, Run (Account.Answers fun _ _ => .ok none) (crewWith {"arn:old"})
      (Kind.group.manager.sync crew) steps (.ok synced)
      (crewWith (insert "arn:new" {"arn:old"} \ {"arn:old"})) :=
    ⟨_, _, Account.run_ask_iam _ _ found <| Account.run_ask_iam _ _ attached <|
      Account.run_ask_iam _ _ inline <| Account.run_ask_note <|
      Account.run_ask_iam _ _ (attach _) <| Account.run_ask_note <|
      Account.run_ask_iam _ _ (detach _) <| Account.run_ask_note .done⟩
  obtain ⟨steps, synced, run⟩ := run
  obtain ⟨resolved, _, hresolve, h, hb, conforms, -⟩ := sync_converges .group run
  obtain ⟨-, hv, -⟩ := run_pure.mp hresolve
  cases hv
  exact ⟨steps, synced, _, h, run, hb, conforms⟩

end IamKeeper
