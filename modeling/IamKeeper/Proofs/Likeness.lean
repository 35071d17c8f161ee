import IamKeeper.Proofs.Calls
import IamKeeper.Proofs.References
import Mathlib.Data.List.Forall2

namespace IamKeeper

open Plan hiding bind_assoc

namespace Job

variable {α β γ δ : Type} {S : Request → Request → Prop} {V : α → β → Prop} {U : γ → δ → Prop}

/-- Two outcomes with one fault or with like values. -/
inductive Ends (V : α → β → Prop) : Except Fault α → Except Fault β → Prop
  | ok {a : α} {b : β} (like : V a b) : Ends V (.ok a) (.ok b)
  | error (fault : Fault) : Ends V (.error fault) (.error fault)

/-- Two jobs with requests that are alike by `S`, and with values that are alike by `V`. -/
inductive Alike (S : Request → Request → Prop) (V : α → β → Prop) : Job α → Job β → Prop
  | done {x : Except Fault α} {y : Except Fault β} (ends : Ends V x y) : Alike S V (.done x) (.done y)
  | ask {r r' : Request} {f : r.Answer → Job α} {g : r'.Answer → Job β} (same : S r r')
      (next : ∀ answer answer', HEq answer answer' → Alike S V (f answer) (g answer')) :
      Alike S V (.ask r f) (.ask r' g)

namespace Alike

theorem pure {a : α} {b : β} (like : V a b) : Alike S V (pure a) (pure b) :=
  .done (.ok like)

theorem bind {p : Job γ} {q : Job δ} {f : γ → Job α} {g : δ → Job β} (first : Alike S U p q)
    (second : ∀ c d, U c d → Alike S V (f c) (g d)) : Alike S V (p >>= f) (q >>= g) := by
  induction first with
  | done ends =>
    cases ends with
    | ok like => exact second _ _ like
    | error fault => exact .done (.error fault)
  | ask same _ ih => exact .ask same ih

/-- Two jobs with one first part. -/
theorem on [Std.Refl S] (p : Job γ) {f : γ → Job α} {g : γ → Job β} (h : ∀ c, Alike S V (f c) (g c)) :
    Alike S V (p >>= f) (p >>= g) := by
  induction p with
  | done outcome =>
    cases outcome with
    | ok c => exact h c
    | error fault => exact .done (.error fault)
  | ask r next ih =>
    have same : S r r := ‹Std.Refl S›.refl r
    refine .ask same fun answer answer' told => ?_
    cases told
    exact ih answer

theorem ite {c : Prop} [Decidable c] {p q : Job α} {p' q' : Job β} (yes : Alike S V p p')
    (no : Alike S V q q') : Alike S V (if c then p else q) (if c then p' else q') := by
  split
  · exact yes
  · exact no

theorem lookup (kind : Kind) {key key' : String} (same : S (.iam (kind.lookup key)) (.iam (kind.lookup key')))
    {f : (kind.lookup key).Result → Job α} {g : (kind.lookup key').Result → Job β}
    (next : ∀ found found', HEq found found' → Alike S V (f found) (g found')) :
    Alike S V (Job.iam (kind.lookup key) >>= f) (Job.iam (kind.lookup key') >>= g) := by
  refine .ask same fun answer answer' told => ?_
  cases kind <;>
  · cases told
    cases answer with
    | ok found => exact next found found .rfl
    | error fault => exact .done (.error fault)

end Alike

end Job

/-- Two oracles that answer alike what is asked alike, except for patches. -/
def Oracle.Agrees (S : Request → Request → Prop) (oracle oracle' : Oracle) : Prop :=
  ∀ past past' r r', List.Forall₂ S past past' → S r r' → r.patches = false →
    HEq (oracle past r) (oracle' past' r')

/-- Oracles that agree bring like jobs without patches to like ends, by like requests. -/
theorem Job.Alike.toldBy {α β : Type} {S : Request → Request → Prop} {V : α → β → Prop} {p : Job α} {q : Job β}
    {oracle oracle' : Oracle} {past past' : List Request} (alike : Alike S V p q)
    (agree : oracle.Agrees S oracle') (unpatched : p.Asks (Request.patches · = false))
    (before : List.Forall₂ S past past') :
    Ends V (p.toldBy oracle past).1 (q.toldBy oracle' past').1 ∧
      List.Forall₂ S (p.toldBy oracle past).2 (q.toldBy oracle' past').2 := by
  induction alike generalizing past past' with
  | done ends => exact ⟨ends, before⟩
  | ask same _ ih =>
    have told := agree _ _ _ _ before same unpatched.1
    have later := List.rel_append before (List.Forall₂.cons same .nil)
    exact ih _ _ told (unpatched.2 _) later

end IamKeeper
