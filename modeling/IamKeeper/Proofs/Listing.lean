import IamKeeper.Proofs.Entries
import IamKeeper.Proofs.Sync
import Mathlib.Data.Set.Insert

namespace IamKeeper.Iam

open Plan

/-- The states of a world in which something has some members and everything else is the same. -/
structure Listing {σ : Type} (W : World world σ) (add remove : String → Job Unit)
    (listed : Set String → σ) : Prop where
  add : ∀ {members item steps t}, Run W (listed members) (add item) steps (.ok ()) t →
    t = listed (insert item members)
  remove : ∀ {members item steps t}, Run W (listed members) (remove item) steps (.ok ()) t →
    t = listed (members \ {item})

theorem foldl_insert (items : List String) (members : Set String) :
    items.foldl (fun members item => insert item members) members =
      {item | item ∈ items ∨ item ∈ members} := by
  induction items generalizing members with
  | nil => simp
  | cons item items ih =>
    rw [List.foldl_cons, ih]
    ext x
    simp only [Set.mem_ofPred_eq, Set.mem_insert_iff, List.mem_cons]
    tauto

theorem foldl_sdiff (items : List String) (members : Set String) :
    items.foldl (fun members item => members \ {item}) members =
      {item | item ∈ members ∧ item ∉ items} := by
  induction items generalizing members with
  | nil => simp
  | cons item items ih =>
    rw [List.foldl_cons, ih]
    ext x
    simp only [Set.mem_ofPred_eq, Set.mem_sdiff, Set.mem_singleton_iff, List.mem_cons]
    tauto

theorem members_of_same {desired latest : List String} {members : Set String}
    (same : sameMembers desired latest = true) (seen : ∀ item, item ∈ latest ↔ item ∈ members) :
    {item | item ∈ desired} = members := by
  ext item
  exact (sameMembers_iff.mp same item).trans (seen item)

namespace Listing

variable {σ : Type} {W : World world σ} {add remove : String → Job Unit} {listed : Set String → σ}
  {desired latest : List String} {members : Set String} {t : σ} {steps : List (Step world σ)}

/-- The members are the desired ones, whatever they were before. -/
theorem run_sync (h : Listing W add remove listed)
    (run : Run W (listed members) (do
      forEach add (difference desired latest)
      forEach remove (difference latest desired)) steps (.ok ()) t)
    (seen : ∀ item, item ∈ latest ↔ item ∈ members) : t = listed {item | item ∈ desired} := by
  obtain ⟨_, mid, first, second, hadd, hremove, -⟩ := run_bind_ok.mp run
  cases run_forEach listed (fun members item => insert item members) h.add hadd
  rw [run_forEach listed (fun members item => members \ {item}) h.remove hremove, foldl_insert, foldl_sdiff]
  congr 1
  ext item
  simp only [Set.mem_ofPred_eq, mem_difference, seen]
  tauto

/-- Members that differ are brought in line, and those that do not are left. -/
theorem run_realign (h : Listing W add remove listed) {delta : Delta} {path : String}
    (run : Run W (listed members) (Manager.whenDiffers delta path do
      forEach add (difference desired latest)
      forEach remove (difference latest desired)) steps (.ok ()) t)
    (seen : ∀ item, item ∈ latest ↔ item ∈ members)
    (differs : delta.differsAt path = !sameMembers desired latest) : t = listed {item | item ∈ desired} := by
  rcases Manager.run_whenDiffers differs run with ⟨-, run⟩ | ⟨same, rfl⟩
  · exact h.run_sync run seen
  · rw [members_of_same (by simpa using same) seen]

end Listing

end IamKeeper.Iam
