import IamKeeper.Proofs.Resumption.Inline
import IamKeeper.Proofs.Resumption.Members
import IamKeeper.Proofs.Resumption.Tags

namespace IamKeeper

open Plan

/-- However a hook is broken off, it loses nothing that is wanted and takes nothing away too early, and it can be taken
up again from what it left and brought to its end. -/
theorem interruptible_hooks :
    (∀ p desired, Interruptible (fun s arn => arn ∈ s.attached p) (fun latest arn => arn ∈ latest)
      (fun kept => ∀ arn, kept arn ↔ arn ∈ desired) (Iam.syncAttached p desired) fun latest s steps _ =>
        MembersKept (·.attached p) (.attach p) (.detach p) desired latest s steps) ∧
    (∀ provider desired, Interruptible (fun s id => id ∈ s.clientIds provider) (fun latest id => id ∈ latest)
      (fun kept => ∀ id, kept id ↔ id ∈ desired) (OidcProviderManager.syncClientIds provider desired)
      fun latest s steps _ =>
        MembersKept (·.clientIds provider) (.addClientId provider) (.removeClientId provider) desired latest s steps) ∧
    (∀ p desired, Interruptible (·.inline p) Table.get?
      (fun kept => ∀ name, Iam.SameDocument (desired.get? name) (kept name)) (Iam.syncInline p desired)
      fun latest _ steps _ => InlineKept p desired latest steps) ∧
    ∀ target desired, Interruptible (·.tags target) Tag.last? (· = Tag.last? desired) (Iam.syncTags target desired)
      fun _ _ steps t => TagsKept target desired steps t :=
  ⟨fun p desired => (Membership.attached p).interruptible desired,
    fun provider desired => (Membership.clientIds provider).interruptible desired,
    InlineKept.interruptible, TagsKept.interruptible⟩

/-- A store in which two policies are attached to a group. -/
def crowded : Store where
  attached p := if p = .group "ops" then {"arn:a", "arn:b"} else ∅
  clientIds _ := ∅
  inline _ _ := none
  tags _ _ := none

/-- A policy was attached, and another could not be detached; a second run detaches it. -/
theorem interruptible_hooks_crowded : ∃ steps, let left := crowded.after (.attach (.group "ops") "arn:c")
    Run Store.Answers crowded (Iam.syncAttached (.group "ops") ["arn:b", "arn:c"] ["arn:a", "arn:b"]) steps
      (.error .malformedObject) left ∧
    MembersKept (·.attached (.group "ops")) (.attach (.group "ops")) (.detach (.group "ops")) ["arn:b", "arn:c"]
      ["arn:a", "arn:b"] crowded steps ∧
    ∃ goal, (∀ arn, arn ∈ goal.attached (.group "ops") ↔ arn ∈ ["arn:b", "arn:c"]) ∧
      crowded.Leads (Iam.syncAttached (.group "ops") ["arn:b", "arn:c"] ["arn:a", "arn:b"]) goal ∧
      left.Leads (Iam.syncAttached (.group "ops") ["arn:b", "arn:c"] ["arn:a", "arn:b", "arn:c"]) goal := by
  have missing : Iam.difference ["arn:b", "arn:c"] ["arn:a", "arn:b"] = ["arn:c"] := by decide
  have surplus : Iam.difference ["arn:a", "arn:b"] ["arn:b", "arn:c"] = ["arn:a"] := by decide
  have safe := interruptible_hooks.1 (.group "ops") ["arn:b", "arn:c"]
  have read : (fun arn => arn ∈ ["arn:a", "arn:b"]) = fun arn => arn ∈ crowded.attached (.group "ops") := by
    funext arn
    simp [crowded]
  have run : ∃ steps, Run Store.Answers crowded
      (Iam.syncAttached (.group "ops") ["arn:b", "arn:c"] ["arn:a", "arn:b"]) steps (.error .malformedObject)
      (crowded.after (.attach (.group "ops") "arn:c")) := by
    have noted (s : Store) (text : String) : s.Answers (Request.note .debug text) () s := rfl
    have attached : crowded.Answers (Request.iam (.attach (.group "ops") "arn:c")) (.ok ()) _ := rfl
    have refused (s : Store) :
        s.Answers (Request.iam (.detach (.group "ops") "arn:a")) (.error .malformedObject) s := rfl
    unfold Iam.syncAttached
    rw [missing, surplus]
    exact ⟨_, .ask (noted _ _) (.ask attached (.ask (noted _ _) (.ask (refused _) .done)))⟩
  obtain ⟨steps, run⟩ := run
  obtain ⟨goal, inLine, leads, again⟩ := safe.resumes read
  refine ⟨steps, run, safe.keeps read run, goal, inLine, leads, again run ?_⟩
  funext arn
  simp [crowded, Store.after, or_comm, or_left_comm]

end IamKeeper
