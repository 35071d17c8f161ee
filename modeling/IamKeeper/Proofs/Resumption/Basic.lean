import IamKeeper.Proofs.Interruption

namespace IamKeeper

open Iam (Call)
open Plan
open Step

/-- The keys under which a call changes something. -/
def Iam.Call.keys : Call → List String
  | attach _ arn | detach _ arn => [arn]
  | addClientId _ id | removeClientId _ id => [id]
  | putInline _ name _ | deleteInline _ name => [name]
  | tag _ tags => tags.map Tag.key
  | untag _ keys => keys
  | _ => []

/-- A part of a store, by what it keeps under each key. -/
structure Compartment (V : Type) where
  contents : Store → String → V
  place : Store → (String → V) → Store
  contents_place (s : Store) (kept : String → V) : contents (place s kept) = kept
  place_contents (s : Store) : place s (contents s) = s
  place_place (s : Store) (kept kept' : String → V) : place (place s kept) kept' = place s kept'

/-- A hook that brings what is under a key to what is wanted there. `told latest`: what was read. -/
structure Hook (L V : Type) where
  part : Compartment V
  told : L → String → V
  aim : String → V → V
  calls : L → List Call
  job : L → Job Unit
  performs (latest : L) : Performs (calls latest) (job latest)
  sets (latest : L) : ∀ call ∈ calls latest, ∀ s : Store, s.after call = part.place s fun key =>
    if key ∈ call.keys then aim key (told latest key) else part.contents s key
  covers (latest : L) (key : String) (differs : aim key (told latest key) ≠ told latest key) :
    ∃ call ∈ calls latest, key ∈ call.keys
  settled (key : String) (value : V) : aim key (aim key value) = aim key value

/-- A hook that holds to some promise wherever a failure ends it, and that can be run again. Undisturbed, it brings the
contents of a store in line; and whatever a run of it has left, a run on what is read then leads where the first would
have led. -/
structure Interruptible {L V : Type} (contents : Store → String → V) (told : L → String → V)
    (InLine : (String → V) → Prop) (job : L → Job Unit)
    (Promise : L → Store → List (Step world Store) → Store → Prop) : Prop where
  keeps {latest : L} {s t : Store} {steps : List (Step world Store)} {outcome : Except Fault Unit}
    (read : told latest = contents s) (run : Run Store.Answers s (job latest) steps outcome t) :
    Promise latest s steps t
  resumes {latest : L} {s : Store} (read : told latest = contents s) :
    ∃ goal, InLine (contents goal) ∧ s.Leads (job latest) goal ∧
      ∀ {latest' : L} {t : Store} {steps : List (Step world Store)} {outcome : Except Fault Unit},
        Run Store.Answers s (job latest) steps outcome t → told latest' = contents t → t.Leads (job latest') goal

namespace Hook

variable {L V : Type} (hook : Hook L V) {latest latest' : L} {s t : Store} {made : List Call}

/-- What a hook leads to. -/
def goal (s : Store) : Store :=
  hook.part.place s fun key => hook.aim key (hook.part.contents s key)

theorem foldl_after (within : made ⊆ hook.calls latest) (s : Store) :
    made.foldl Store.after s = hook.part.place s fun key =>
      if key ∈ made.flatMap Call.keys then hook.aim key (hook.told latest key) else hook.part.contents s key := by
  induction made generalizing s with
  | nil => exact (hook.part.place_contents s).symm
  | cons call made ih =>
    obtain ⟨here, rest⟩ := List.cons_subset.mp within
    rw [List.foldl_cons, ih rest, hook.sets latest call here, hook.part.place_place]
    congr 1
    funext key
    simp only [hook.part.contents_place, List.flatMap_cons, List.mem_append]
    by_cases now : key ∈ call.keys
    · simp [now]
    · simp [now]

theorem contents_foldl (within : made ⊆ hook.calls latest) (s : Store) (key : String) :
    hook.part.contents (made.foldl Store.after s) key =
      if key ∈ made.flatMap Call.keys then hook.aim key (hook.told latest key) else hook.part.contents s key := by
  rw [hook.foldl_after within, hook.part.contents_place]

/-- On the way, there is under each key what was there or what is wanted. -/
theorem halfway (within : made ⊆ hook.calls latest) (read : hook.told latest = hook.part.contents s) (key : String) :
    hook.part.contents (made.foldl Store.after s) key = hook.part.contents s key ∨
      hook.part.contents (made.foldl Store.after s) key = hook.aim key (hook.part.contents s key) := by
  rw [hook.contents_foldl within, read]
  split
  · exact .inr rfl
  · exact .inl rfl

theorem goal_foldl (within : made ⊆ hook.calls latest) (read : hook.told latest = hook.part.contents s) :
    hook.goal (made.foldl Store.after s) = hook.goal s := by
  have aims (key : String) : hook.aim key (hook.part.contents (made.foldl Store.after s) key) =
      hook.aim key (hook.part.contents s key) := by
    rcases hook.halfway within read key with same | done
    · rw [same]
    · rw [done, hook.settled]
  unfold goal
  rw [funext aims, hook.foldl_after within, hook.part.place_place]

theorem foldl_calls (read : hook.told latest = hook.part.contents s) :
    (hook.calls latest).foldl Store.after s = hook.goal s := by
  rw [hook.foldl_after (List.Subset.refl _), read]
  unfold goal
  congr 1
  funext key
  split
  · rfl
  · rename_i untouched
    by_contra differs
    rw [← read] at differs
    obtain ⟨call, there, touches⟩ := hook.covers latest key (Ne.symm differs)
    exact untouched (List.mem_flatMap.mpr ⟨call, there, touches⟩)

theorem leads (read : hook.told latest = hook.part.contents s) : s.Leads (hook.job latest) (hook.goal s) := by
  rw [← hook.foldl_calls read]
  exact (hook.performs latest).leads s

/-- From wherever a hook was left off, it leads where it would have led. -/
theorem leads_again {steps : List (Step world Store)} {outcome : Except Fault Unit}
    (read : hook.told latest = hook.part.contents s) (run : Run Store.Answers s (hook.job latest) steps outcome t)
    (read' : hook.told latest' = hook.part.contents t) : t.Leads (hook.job latest') (hook.goal s) := by
  have trail := (hook.performs latest).trail run
  rw [← hook.goal_foldl trail.carriedOut_prefix.subset read, ← trail.end_eq]
  exact hook.leads read'

theorem interruptible {InLine : (String → V) → Prop} {Promise : L → Store → List (Step world Store) → Store → Prop}
    (aims : ∀ kept : String → V, InLine fun key => hook.aim key (kept key))
    (keeps : ∀ {latest s steps t}, hook.told latest = hook.part.contents s → Trail (hook.calls latest) s steps t →
      Promise latest s steps t) : Interruptible hook.part.contents hook.told InLine hook.job Promise where
  keeps read run := keeps read ((hook.performs _).trail run)
  resumes {latest s} read := by
    refine ⟨hook.goal s, ?_, hook.leads read, hook.leads_again read⟩
    unfold goal
    rw [hook.part.contents_place]
    exact aims _

end Hook

end IamKeeper
