import IamKeeper.Proofs.Run
import IamKeeper.Proofs.TagDelta
import Mathlib.Data.Set.Insert
import Mathlib.Logic.Function.Basic

namespace IamKeeper

open Iam (Call Principal TagTarget)
open Plan

/-- What calls attach, put and tag, by what it belongs to. -/
structure Store where
  attached : Principal → Set String
  clientIds : String → Set String
  inline : Principal → String → Option String
  tags : TagTarget → String → Option String

namespace Store

open Function (update)

/-- What a call that succeeds leaves. -/
def after (s : Store) : Call → Store
  | .attach p arn => { s with attached := update s.attached p (insert arn (s.attached p)) }
  | .detach p arn => { s with attached := update s.attached p (s.attached p \ {arn}) }
  | .addClientId arn id => { s with clientIds := update s.clientIds arn (insert id (s.clientIds arn)) }
  | .removeClientId arn id => { s with clientIds := update s.clientIds arn (s.clientIds arn \ {id}) }
  | .putInline p name document =>
    { s with inline := update s.inline p (update (s.inline p) name (some document)) }
  | .deleteInline p name => { s with inline := update s.inline p (update (s.inline p) name none) }
  | .tag target tags =>
    { s with tags := update s.tags target fun key => (Tag.last? tags key).or (s.tags target key) }
  | .untag target keys =>
    { s with tags := update s.tags target fun key => if key ∈ keys then none else s.tags target key }
  | _ => s

/-- The world in which a call succeeds, or fails without effect. -/
def Answers (s : Store) : (r : Request) → r.Answer → Store → Prop
  | .iam call, .ok _, t => t = s.after call
  | _, _, t => t = s

/-- The same world where no call fails. -/
def Smooth (s : Store) : (r : Request) → r.Answer → Store → Prop
  | .iam call, .ok _, t => t = s.after call
  | .iam _, .error _, _ => False
  | _, _, t => t = s

/-- Without a failure, a job leads from one store to another. -/
def Leads (s : Store) (p : Job Unit) (goal : Store) : Prop :=
  (∃ steps, Run Smooth s p steps (.ok ()) goal) ∧
    ∀ steps outcome t, Run Smooth s p steps outcome t → outcome = .ok () ∧ t = goal

end Store

/-- A job that makes some calls in order, with notes between them, and ends with the fault of the first that fails. -/
inductive Performs : List Call → Job Unit → Prop
  | done : Performs [] (.done (.ok ()))
  | note {calls : List Call} {level : Level} {text : String} {next : Unit → Job Unit}
      (rest : Performs calls (next ())) : Performs calls (.ask (Request.note level text) next)
  | call {call : Call} {calls : List Call} {next : (Request.iam call).Answer → Job Unit}
      (answerable : Nonempty call.Result) (fails : ∀ fault, next (.error fault) = .done (.error fault))
      (rest : ∀ result, Performs calls (next (.ok result))) : Performs (call :: calls) (.ask (Request.iam call) next)

/-- Steps that follow some calls, until one fails or for as long as the steps last. -/
inductive Trail : List Call → Store → List (Step world Store) → Store → Prop
  | stop {calls : List Call} {s : Store} : Trail calls s [] s
  | note {calls : List Call} {s t : Store} {steps : List (Step world Store)} {level : Level} {text : String}
      (rest : Trail calls s steps t) : Trail calls s (⟨s, Request.note level text, (), s⟩ :: steps) t
  | call {call : Call} {calls : List Call} {s t : Store} {steps : List (Step world Store)} {result : call.Result}
      (rest : Trail calls (s.after call) steps t) :
      Trail (call :: calls) s (⟨s, Request.iam call, Except.ok result, s.after call⟩ :: steps) t
  | fail {call : Call} {calls : List Call} {s : Store} {fault : Fault} :
      Trail (call :: calls) s [⟨s, Request.iam call, Except.error fault, s⟩] s

namespace Performs

variable {calls calls' : List Call} {p q : Job Unit} {s t : Store} {steps : List (Step world Store)}
  {outcome : Except Fault Unit}

theorem bind (hp : Performs calls p) (hq : Performs calls' q) : Performs (calls ++ calls') (p >>= fun _ => q) := by
  induction hp with
  | done => exact hq
  | note _ ih => exact .note ih
  | call answerable fails _ ih =>
    refine .call answerable (fun fault => ?_) ih
    rw [fails fault]
    rfl

theorem forEach {α : Type} {f : α → Job Unit} {call : α → Call} (performs : ∀ item, Performs [call item] (f item))
    (items : List α) : Performs (items.map call) (Plan.forEach f items) := by
  induction items with
  | nil => exact .done
  | cons item items ih => exact (performs item).bind ih

theorem trail (h : Performs calls p) (run : Run Store.Answers s p steps outcome t) : Trail calls s steps t := by
  induction h generalizing s steps with
  | done =>
    obtain ⟨rfl, -, rfl⟩ := run_done.mp run
    exact .stop
  | note _ ih =>
    obtain ⟨_, mid, rest, rfl, hrest, rfl⟩ := run_ask.mp run
    exact .note (ih hrest)
  | @call call calls next _ fails _ ih =>
    obtain ⟨answer, mid, rest, answered, hrest, rfl⟩ := run_ask.mp run
    cases answer with
    | ok result =>
      cases answered
      exact .call (ih result hrest)
    | error fault =>
      cases answered
      rw [fails fault] at hrest
      obtain ⟨rfl, -, rfl⟩ := run_done.mp hrest
      exact .fail

theorem leads (h : Performs calls p) (s : Store) : s.Leads p (calls.foldl Store.after s) := by
  induction h generalizing s with
  | done =>
    refine ⟨⟨_, .done⟩, fun steps outcome t run => ?_⟩
    obtain ⟨-, rfl, rfl⟩ := run_done.mp run
    exact ⟨rfl, rfl⟩
  | @note _ level text next _ ih =>
    obtain ⟨⟨steps, there⟩, only⟩ := ih s
    have noted : s.Smooth (Request.note level text) () s := rfl
    refine ⟨⟨_, .ask noted there⟩, fun steps outcome t run => ?_⟩
    obtain ⟨_, mid, rest, rfl, hrest, -⟩ := run_ask.mp run
    exact only _ _ _ hrest
  | @call call calls next answerable fails _ ih =>
    obtain ⟨result⟩ := answerable
    obtain ⟨⟨steps, there⟩, -⟩ := ih result (s.after call)
    have answered : s.Smooth (Request.iam call) (.ok result) (s.after call) := rfl
    refine ⟨⟨_, .ask answered there⟩, fun steps outcome t run => ?_⟩
    obtain ⟨answer, mid, rest, answered, hrest, -⟩ := run_ask.mp run
    cases answer with
    | ok result =>
      cases answered
      exact (ih result _).2 _ _ _ hrest
    | error fault => cases answered

end Performs

def Request.call? : Request → Option Call
  | .iam call => some call
  | _ => none

theorem Request.call?_eq_some {r : Request} {call : Call} : r.call? = some call ↔ r = .iam call := by
  cases r <;> simp [call?]

namespace Step

/-- The call that a step carried out. -/
def done? : Step world Store → Option Call
  | ⟨_, .iam call, .ok _, _⟩ => some call
  | _ => none

/-- The calls that were made in some steps, those that failed included. -/
def called (steps : List (Step world Store)) : List Call :=
  steps.filterMap fun step => step.request.call?

def carriedOut (steps : List (Step world Store)) : List Call :=
  steps.filterMap done?

/-- The states that some steps go through. -/
def states (s : Store) (steps : List (Step world Store)) : List Store :=
  s :: steps.map after

end Step

open Step

namespace Trail

variable {calls : List Call} {s t : Store} {steps : List (Step world Store)}

theorem called_prefix (trail : Trail calls s steps t) : called steps <+: calls := by
  induction trail with
  | stop => exact List.nil_prefix
  | note _ ih => exact ih
  | @call call calls s t steps result _ ih =>
    change call :: called steps <+: call :: calls
    exact (List.prefix_cons_inj call).mpr ih
  | @fail call calls => exact List.prefix_append [call] calls

/-- Every state on the way is left by a front part of the calls. -/
theorem states_left (trail : Trail calls s steps t) :
    ∀ u ∈ states s steps, ∃ made, made <+: calls ∧ u = made.foldl Store.after s := by
  induction trail with
  | stop => simpa [states] using ⟨[], List.nil_prefix, rfl⟩
  | note _ ih => simpa [states] using ih
  | @call call calls s t steps result _ ih =>
    intro u hu
    rcases List.mem_cons.mp hu with rfl | hu
    · exact ⟨[], List.nil_prefix, rfl⟩
    · obtain ⟨made, front, rfl⟩ := ih u hu
      exact ⟨call :: made, (List.prefix_cons_inj call).mpr front, rfl⟩
  | fail => simpa [states] using ⟨[], List.nil_prefix, rfl⟩

/-- What is left at the end is what was carried out. -/
theorem end_eq (trail : Trail calls s steps t) : t = (carriedOut steps).foldl Store.after s := by
  induction trail with
  | stop => rfl
  | note _ ih => exact ih
  | call _ ih => exact ih
  | fail => rfl

theorem carriedOut_prefix (trail : Trail calls s steps t) : carriedOut steps <+: calls := by
  induction trail with
  | stop => exact List.nil_prefix
  | note _ ih => exact ih
  | @call call calls s t steps result _ ih =>
    change call :: carriedOut steps <+: call :: calls
    exact (List.prefix_cons_inj call).mpr ih
  | fail => exact List.nil_prefix

/-- Before a call is made, all that come before it were carried out. -/
theorem carriedOut_before {front rest : List (Step world Store)} {step : Step world Store} {call : Call}
    (trail : Trail calls s (front ++ step :: rest) t) (made : step.request = .iam call) :
    carriedOut front ++ [call] <+: calls := by
  induction front generalizing calls s with
  | nil =>
    cases trail with
    | note => cases made
    | call | fail =>
      cases made
      exact List.prefix_append [call] _
  | cons first front ih =>
    rw [List.cons_append] at trail
    generalize more : front ++ step :: rest = steps at trail
    cases trail with
    | note trail =>
      subst more
      exact ih trail
    | @call done calls _ _ _ _ trail =>
      subst more
      change done :: (carriedOut front ++ [call]) <+: done :: calls
      exact (List.prefix_cons_inj done).mpr (ih trail)
    | fail => cases List.append_eq_nil_iff.mp more |>.2

/-- Before one of the later calls is made, all of the earlier ones were carried out. -/
theorem earlier_carriedOut {earlier later : List Call} {front rest : List (Step world Store)} {step : Step world Store}
    {call : Call} (trail : Trail (earlier ++ later) s (front ++ step :: rest) t) (made : step.request = .iam call)
    (late : call ∉ earlier) : earlier ⊆ carriedOut front := by
  have front := trail.carriedOut_before made
  rcases List.prefix_or_prefix_of_prefix front (List.prefix_append earlier later) with within | beyond
  · exact absurd (within.subset (by simp)) late
  · rcases List.prefix_concat_iff.mp beyond with same | before
    · exact absurd (same ▸ by simp) late
    · exact before.subset

end Trail

end IamKeeper
