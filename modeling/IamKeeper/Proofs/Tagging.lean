import IamKeeper.Iam.Tags
import IamKeeper.Proofs.Entries
import IamKeeper.Proofs.Sync

namespace IamKeeper.Iam

open Plan

/-- The states of a world in which a target has some tags and everything else is the same. -/
structure Tagging {σ : Type} (W : World world σ) (target : TagTarget)
    (tagged : (String → Option String) → σ) : Prop where
  tag : ∀ tags new t, W (tagged tags) (Request.iam (.tag target new)) (Except.ok ()) t →
    t = tagged fun key => ((Tag.table new).get? key).or (tags key)
  untag : ∀ tags keys t, W (tagged tags) (Request.iam (.untag target keys)) (Except.ok ()) t →
    t = tagged fun key => if key ∈ keys then none else tags key
  note : ∀ tags level text t, W (tagged tags) (Request.note level text) () t → t = tagged tags

namespace Tagging

variable {σ : Type} {W : World world σ} {target : TagTarget} {tagged : (String → Option String) → σ}
  {tags : String → Option String} {t : σ} {steps : List (Step world σ)}

theorem run_noted (h : Tagging W target tagged) {text : String} {p : Job Unit}
    (run : Run W (tagged tags) (Job.debug text >>= fun _ => p) steps (.ok ()) t) :
    ∃ rest, Run W (tagged tags) p rest (.ok ()) t := by
  obtain ⟨_, mid, rest, noted, hrest, -⟩ := run_ask.mp run
  cases h.note _ _ _ _ noted
  exact ⟨rest, hrest⟩

theorem run_removeTags (h : Tagging W target tagged) {keys : List String}
    (run : Run W (tagged tags) (removeTags target keys) steps (.ok ()) t) :
    t = tagged fun key => if key ∈ keys then none else tags key := by
  unfold removeTags at run
  split at run
  next none =>
    obtain ⟨-, -, rfl⟩ := run_pure.mp run
    simp [List.isEmpty_iff.mp none]
  next =>
    obtain ⟨rest, run⟩ := h.run_noted run
    obtain ⟨answer, answered, same, -⟩ := run_ask_done.mp run
    subst same
    exact h.untag _ _ _ answered

theorem run_setTags (h : Tagging W target tagged) {new : List Tag}
    (run : Run W (tagged tags) (setTags target new) steps (.ok ()) t) :
    t = tagged fun key => ((Tag.table new).get? key).or (tags key) := by
  unfold setTags at run
  split at run
  next none =>
    obtain ⟨-, -, rfl⟩ := run_pure.mp run
    rw [List.isEmpty_iff.mp none]
    rfl
  next =>
    obtain ⟨rest, run⟩ := h.run_noted run
    obtain ⟨answer, answered, same, -⟩ := run_ask_done.mp run
    subst same
    exact h.tag _ _ _ answered

/-- The tags are the desired ones, of which the last counts for each key. -/
theorem run_syncTags (h : Tagging W target tagged) {desired latest : List Tag}
    (run : Run W (tagged tags) (syncTags target desired latest) steps (.ok ()) t)
    (seen : ∀ key, (Tag.table latest).get? key = tags key) :
    t = tagged (Tag.table desired).get? := by
  obtain ⟨_, mid, first, second, hremove, hset, -⟩ := run_bind_ok.mp run
  have removed := h.run_removeTags hremove
  subst removed
  rw [h.run_setTags hset]
  congr 1
  funext key
  simpa only [seen] using TagDelta.get?_between latest desired key

/-- Tags that differ are brought in line, and those that do not are left. -/
theorem run_retag (h : Tagging W target tagged) {delta : Delta} {desired latest : List Tag}
    (run : Run W (tagged tags) (Manager.whenDiffers delta "Spec.Tags" <| syncTags target desired latest)
      steps (.ok ()) t)
    (seen : ∀ key, (Tag.table latest).get? key = tags key)
    (differs : delta.differsAt "Spec.Tags" = !Tag.same desired latest) :
    t = tagged (Tag.table desired).get? := by
  rcases Manager.run_whenDiffers differs run with ⟨-, run⟩ | ⟨same, rfl⟩
  · exact h.run_syncTags run seen
  · have same := Tag.same_iff.mp (by simpa using same)
    congr 1
    funext key
    exact (seen key).symm.trans (same key).symm

end Tagging

end IamKeeper.Iam
