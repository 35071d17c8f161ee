import IamKeeper.Iam.Tags
import IamKeeper.Proofs.Resumption.Basic

namespace IamKeeper

open Iam (Call TagTarget)
open Function (update)
open Step

def Compartment.tags (target : TagTarget) : Compartment (Option String) where
  contents s := s.tags target
  place s kept := { s with tags := update s.tags target kept }
  contents_place s kept := by simp
  place_contents s := by simp
  place_place s kept kept' := by simp

/-- What tags that are brought in line keep to: there is one call to remove keys and then one to set tags, at most, no
wanted key is removed, and no unwanted key is left once tags are to be set. -/
structure TagsKept (target : TagTarget) (desired : List Tag) (steps : List (Step world Store)) (t : Store) : Prop where
  few : ∃ keys new, (called steps).Sublist [.untag target keys, .tag target new] ∧
    ∀ key ∈ keys, Tag.last? desired key = none
  clean : ∀ new, .tag target new ∈ called steps → ∀ key, Tag.last? desired key = none → t.tags target key = none

namespace TagsKept

open TagDelta (between between_apply mem_between_remove)

variable {target : TagTarget} {desired latest tags : List Tag} {keys : List String} {key : String} {call : Call}

def untagCalls (target : TagTarget) (keys : List String) : List Call :=
  if keys.isEmpty then [] else [.untag target keys]

def tagCalls (target : TagTarget) (tags : List Tag) : List Call :=
  if tags.isEmpty then [] else [.tag target tags]

theorem performs_removeTags (target : TagTarget) (keys : List String) :
    Performs (untagCalls target keys) (Iam.removeTags target keys) := by
  unfold untagCalls Iam.removeTags
  split
  · exact .done
  · exact .note (.call ⟨()⟩ (fun _ => rfl) fun _ => .done)

theorem performs_setTags (target : TagTarget) (tags : List Tag) :
    Performs (tagCalls target tags) (Iam.setTags target tags) := by
  unfold tagCalls Iam.setTags
  split
  · exact .done
  · exact .note (.call ⟨()⟩ (fun _ => rfl) fun _ => .done)

theorem mem_untagCalls : call ∈ untagCalls target keys ↔ keys ≠ [] ∧ call = .untag target keys := by
  unfold untagCalls
  split <;> simp_all

theorem mem_tagCalls : call ∈ tagCalls target tags ↔ tags ≠ [] ∧ call = .tag target tags := by
  unfold tagCalls
  split <;> simp_all

theorem untagCalls_sublist (target : TagTarget) (keys : List String) :
    (untagCalls target keys).Sublist [.untag target keys] := by
  unfold untagCalls
  split <;> simp

theorem tagCalls_sublist (target : TagTarget) (tags : List Tag) :
    (tagCalls target tags).Sublist [.tag target tags] := by
  unfold tagCalls
  split <;> simp

theorem last?_eq_none : Tag.last? tags key = none ↔ key ∉ tags.map Tag.key := by
  unfold Tag.last?
  simp

/-- A tag that is set has the value that is wanted. -/
theorem last?_set (set : key ∈ (between latest desired).set.map Tag.key) :
    ∃ value, Tag.last? (between latest desired).set key = some value ∧ Tag.last? desired key = some value := by
  obtain ⟨value, told⟩ := Option.ne_none_iff_exists'.mp (mt last?_eq_none.mp (not_not.mpr set))
  have reaches := congrFun (between_apply latest desired) key
  unfold TagDelta.apply at reaches
  rw [told] at reaches
  exact ⟨value, told, reaches.symm⟩

/-- What is neither removed nor set is as it is wanted already. -/
theorem last?_untouched (kept : key ∉ (between latest desired).remove)
    (unset : key ∉ (between latest desired).set.map Tag.key) : Tag.last? desired key = Tag.last? latest key := by
  have reaches := congrFun (between_apply latest desired) key
  unfold TagDelta.apply at reaches
  rw [last?_eq_none.mpr unset, if_neg kept] at reaches
  exact reaches.symm

def calls (target : TagTarget) (delta : TagDelta) : List Call :=
  untagCalls target delta.remove ++ tagCalls target delta.set

theorem sets (there : call ∈ calls target (between latest desired)) (s : Store) :
    s.after call = (Compartment.tags target).place s fun key =>
      if key ∈ call.keys then Tag.last? desired key else s.tags target key := by
  rcases List.mem_append.mp there with there | there
  · obtain ⟨-, rfl⟩ := mem_untagCalls.mp there
    refine congrArg ((Compartment.tags target).place s) (funext fun key => ?_)
    by_cases removed : key ∈ (between latest desired).remove
    · simp [Call.keys, removed, (mem_between_remove.mp removed).2]
    · simp [Call.keys, removed]
  · obtain ⟨-, rfl⟩ := mem_tagCalls.mp there
    refine congrArg ((Compartment.tags target).place s) (funext fun key => ?_)
    by_cases set : key ∈ (between latest desired).set.map Tag.key
    · obtain ⟨value, told, wanted⟩ := last?_set set
      rw [told, wanted]
      exact (if_pos set).symm
    · rw [last?_eq_none.mpr set]
      exact (if_neg set).symm

theorem untag_mem (removed : key ∈ keys) : .untag target keys ∈ untagCalls target keys :=
  mem_untagCalls.mpr ⟨List.ne_nil_of_mem removed, rfl⟩

theorem covers (differs : Tag.last? desired key ≠ Tag.last? latest key) :
    ∃ call ∈ calls target (between latest desired), key ∈ call.keys := by
  by_cases removed : key ∈ (between latest desired).remove
  · exact ⟨_, List.mem_append_left _ (untag_mem removed), removed⟩
  · by_cases set : key ∈ (between latest desired).set.map Tag.key
    · have some : (between latest desired).set ≠ [] := fun none => by simp [none] at set
      exact ⟨_, List.mem_append_right _ (mem_tagCalls.mpr ⟨some, rfl⟩), set⟩
    · exact absurd (last?_untouched removed set) differs

def hook (target : TagTarget) (desired : List Tag) : Hook (List Tag) (Option String) where
  part := .tags target
  told := Tag.last?
  aim key _ := Tag.last? desired key
  calls latest := calls target (between latest desired)
  job := Iam.syncTags target desired
  performs _ := (performs_removeTags _ _).bind (performs_setTags _ _)
  sets _ _ := sets
  covers _ _ := covers
  settled _ _ := rfl

theorem kept {s t : Store} {steps : List (Step world Store)} (read : Tag.last? latest = s.tags target)
    (trail : Trail ((hook target desired).calls latest) s steps t) : TagsKept target desired steps t where
  few := by
    refine ⟨(between latest desired).remove, (between latest desired).set, ?_,
      fun key removed => (mem_between_remove.mp removed).2⟩
    exact trail.called_prefix.sublist.trans ((untagCalls_sublist _ _).append (tagCalls_sublist _ _))
  clean := by
    intro new made key unwanted
    obtain ⟨step, there, makes⟩ := List.mem_filterMap.mp made
    obtain ⟨front, rest, rfl⟩ := List.append_of_mem there
    have late : Call.tag target new ∉ untagCalls target (between latest desired).remove :=
      fun early => nomatch (mem_untagCalls.mp early).2
    have untagged : untagCalls target (between latest desired).remove ⊆ carriedOut (front ++ step :: rest) := by
      refine List.Subset.trans (trail.earlier_carriedOut (Request.call?_eq_some.mp makes) late) ?_
      unfold carriedOut
      rw [List.filterMap_append]
      exact List.subset_append_left _ _
    rw [trail.end_eq]
    refine ((hook target desired).contents_foldl trail.carriedOut_prefix.subset s key).trans ?_
    split
    · exact unwanted
    · rename_i untouched
      -- A key that nothing has touched was not there, or else it is one of those that were removed.
      change s.tags target key = none
      by_contra left
      rw [← read] at left
      have removed := mem_between_remove.mpr ⟨Option.isSome_iff_ne_none.mpr left, unwanted⟩
      exact untouched (List.mem_flatMap.mpr ⟨_, untagged (untag_mem removed), removed⟩)

theorem interruptible (target : TagTarget) (desired : List Tag) : Interruptible (·.tags target) Tag.last?
    (· = Tag.last? desired) (Iam.syncTags target desired) fun _ _ steps t => TagsKept target desired steps t :=
  (hook target desired).interruptible (fun _ => rfl) kept

end TagsKept

end IamKeeper
