import IamKeeper.Proofs.Run

namespace IamKeeper

open Plan hiding bind_assoc

def Request.isFailure : (r : Request) → r.Answer → Bool
  | .iam _, .error _ | .policy _ _, .error _ | .role _ _, .error _ | .patchStatus _ _, .error _
  | .patchFinalizers _ _, .error _ => true
  | _, _ => false

/-- Whether a request changes an object in the cluster. -/
def Request.patches : Request → Bool
  | .patchStatus _ _ | .patchFinalizers _ _ => true
  | _ => false

def Step.failed {σ : Type} (step : Step world σ) : Bool :=
  step.request.isFailure step.answer

/-- A call with a property, or a note. -/
def Request.Among (P : Iam.Call → Prop) : Request → Prop
  | .iam call => P call
  | .note _ _ => True
  | _ => False

theorem Request.Among.mono {P Q : Iam.Call → Prop} (weaker : ∀ call, P call → Q call) (r : Request)
    (h : r.Among P) : r.Among Q := by
  cases r with
  | iam call => exact weaker call h
  | note => trivial
  | policy | role | patchStatus | patchFinalizers => exact h

theorem Request.Among.unpatched {P : Iam.Call → Prop} {r : Request} (h : r.Among P) :
    r.patches = false := by
  cases r with
  | iam | note => rfl
  | policy | role | patchStatus | patchFinalizers => cases h

/-- A set of answers that requests may have. -/
abbrev Replies : Type :=
  (r : Request) → r.Answer → Prop

namespace Replies

def all : Replies :=
  fun _ _ => True

/-- A world that gives no other answers. -/
def Bound {σ : Type} (A : Replies) (W : World world σ) : Prop :=
  ∀ s r answer t, W s r answer t → A r answer

theorem all_bound {σ : Type} (W : World world σ) : all.Bound W :=
  fun _ _ _ _ _ => trivial

end Replies

namespace Job

variable {α β : Type}

theorem run_ask {σ : Type} {W : World world σ} {s mid t : σ} {r : Request} {next : r.Answer → Job α}
    {steps : List (Step world σ)} {outcome : Except Fault α} (answer : r.Answer)
    (answered : W s r answer mid) (rest : Run W mid (next answer) steps outcome t) :
    Run W s (.ask r next) (⟨s, r, answer, mid⟩ :: steps) outcome t :=
  Run.ask (I := world) answered rest

section

variable {σ : Type} {W : World world σ} {s t : σ} {steps : List (Step world σ)}

theorem run_iam_ok {call : Iam.Call} {result : call.Result} (run : Run W s (iam call) steps (.ok result) t) :
    W s (Request.iam call) (Except.ok result) t := by
  obtain ⟨answer, answered, outcome, -⟩ := run_ask_done.mp run
  cases outcome
  exact answered

theorem run_note {level : Level} {text : String} {outcome : Except Fault Unit}
    (run : Run W s (note level text) steps outcome t) :
    W s (Request.note level text) () t ∧ outcome = .ok () := by
  obtain ⟨answer, answered, outcome, -⟩ := run_ask_done.mp run
  exact ⟨answered, outcome⟩

/-- A call that is noted first, in a world that notes leave alone. -/
theorem run_noted_iam (still : ∀ s level text t, W s (Request.note level text) () t → t = s)
    {text : String} {call : Iam.Call} {result : call.Result}
    (run : Run W s (do debug text; iam call) steps (.ok result) t) :
    W s (Request.iam call) (Except.ok result) t := by
  obtain ⟨_, mid, first, second, hnote, hcall, -⟩ := run_bind_ok.mp run
  cases still _ _ _ _ (run_note hnote).1
  exact run_iam_ok hcall

end

/-- A plan that begins with a call fails with it, or goes on with its result. -/
theorem run_call {σ : Type} {W : World world σ} {s t : σ} {call : Iam.Call}
    {rest : call.Result → Job α} {steps : List (Step world σ)} {outcome : Except Fault α}
    (run : Run W s (iam call >>= rest) steps outcome t) :
    (∃ fault, W s (Request.iam call) (Except.error fault) t ∧
      steps = [⟨s, Request.iam call, Except.error fault, t⟩] ∧ outcome = .error fault) ∨
    ∃ result mid later, W s (Request.iam call) (Except.ok result) mid ∧
      Run W mid (rest result) later outcome t ∧
      steps = ⟨s, Request.iam call, Except.ok result, mid⟩ :: later := by
  obtain ⟨answer, mid, later, answered, hrest, rfl⟩ := Plan.run_ask.mp run
  cases answer with
  | error fault =>
    obtain ⟨rfl, rfl, rfl⟩ := run_done.mp hrest
    exact .inl ⟨fault, answered, rfl, rfl⟩
  | ok result => exact .inr ⟨result, mid, later, answered, hrest, rfl⟩

/-- Every request of a job has a property, and one that fails ends it. Beside that the job fails with faults
of its own only, as long as the answers are among `A`. -/
def Heeds (A : Replies) (P : Request → Prop) (own : Fault → Prop) : Job α → Prop
  | .done (.ok _) => True
  | .done (.error fault) => own fault
  | .ask r next =>
    P r ∧ ∀ answer, A r answer →
      if Request.isFailure r answer then ∃ fault, next answer = .done (.error fault)
      else Heeds A P own (next answer)

namespace Heeds

variable {A : Replies} {P : Request → Prop} {own : Fault → Prop}

theorem pure (value : α) : Heeds A P own (Pure.pure value : Job α) := trivial

theorem iam_bind (call : Iam.Call) {f : call.Result → Job α} (h : P (.iam call))
    (hf : ∀ result, A (.iam call) (.ok result) → Heeds A P own (f result)) :
    Heeds A P own (iam call >>= f) := by
  refine ⟨h, fun answer reply => ?_⟩
  cases answer with
  | error fault => exact ⟨fault, rfl⟩
  | ok result => exact hf result reply

theorem iam (call : Iam.Call) (h : P (.iam call)) : Heeds A P own (iam call) := by
  refine ⟨h, fun answer _ => ?_⟩
  cases answer with
  | error fault => exact ⟨fault, rfl⟩
  | ok result => trivial

theorem note {level : Level} {text : String} (h : P (.note level text)) :
    Heeds A P own (note level text) :=
  ⟨h, fun _ _ => trivial⟩

theorem ofExcept {outcome : Except Fault α} (h : ∀ fault, outcome = .error fault → own fault) :
    Heeds A P own (Plan.ofExcept outcome : Job α) := by
  cases outcome with
  | ok value => trivial
  | error fault => exact h fault rfl

theorem bind {p : Job α} {f : α → Job β} (hp : Heeds A P own p)
    (hf : ∀ value, Heeds A P own (f value)) : Heeds A P own (p >>= f) := by
  induction p with
  | done outcome =>
    cases outcome with
    | ok value => exact hf value
    | error fault => exact hp
  | ask r next ih =>
    refine ⟨hp.1, fun answer reply => ?_⟩
    have rest := hp.2 answer reply
    split at rest
    next failed =>
      obtain ⟨fault, h⟩ := rest
      rw [if_pos failed]
      exact ⟨fault, congrArg (Plan.bind · f) h⟩
    next succeeded =>
      rw [if_neg succeeded]
      exact ih answer rest

theorem ite {c : Prop} [Decidable c] {p q : Job α} (hp : Heeds A P own p)
    (hq : Heeds A P own q) : Heeds A P own (if c then p else q) := by
  split
  · exact hp
  · exact hq

theorem forEach {f : β → Job Unit} (h : ∀ item, Heeds A P own (f item)) (items : List β) :
    Heeds A P own (Plan.forEach f items) := by
  induction items with
  | nil => trivial
  | cons item items ih => exact (h item).bind fun _ => ih

theorem collect {f : β → Job α} (h : ∀ item, Heeds A P own (f item)) (items : List β) :
    Heeds A P own (Plan.collect f items) := by
  induction items with
  | nil => trivial
  | cons item items ih => exact (h item).bind fun _ => ih.bind fun _ => trivial

theorem mono {Q : Request → Prop} {own' : Fault → Prop} (weaker : ∀ r, P r → Q r)
    (less : ∀ fault, own fault → own' fault) {p : Job α} (h : Heeds A P own p) :
    Heeds A Q own' p := by
  induction p with
  | done outcome =>
    cases outcome with
    | ok value => trivial
    | error fault => exact less fault h
  | ask r next ih =>
    refine ⟨weaker r h.1, fun answer reply => ?_⟩
    have rest := h.2 answer reply
    split at rest
    next failed =>
      rw [if_pos failed]
      exact rest
    next succeeded =>
      rw [if_neg succeeded]
      exact ih answer rest

theorem asks {p : Job α} (h : Heeds Replies.all P own p) : p.Asks P := by
  induction p with
  | done => trivial
  | ask r next ih =>
    refine ⟨h.1, fun answer => ?_⟩
    have rest := h.2 answer trivial
    split at rest
    next =>
      obtain ⟨fault, eq⟩ := rest
      rw [eq]
      trivial
    next => exact ih answer rest

section Run

variable {σ : Type} {W : World world σ} {s t : σ} {steps : List (Step world σ)} {p : Job α}
  {outcome : Except Fault α}

theorem asked (h : Heeds A P own p) (bound : A.Bound W) (run : Run W s p steps outcome t) :
    ∀ step ∈ steps, P step.request := by
  induction run with
  | done => simp
  | @ask s mid t r next answer steps outcome answered rest ih =>
    refine List.forall_mem_cons.mpr ⟨h.1, ?_⟩
    have later := h.2 answer (bound _ _ _ _ answered)
    split at later
    next =>
      obtain ⟨fault, eq⟩ := later
      rw [eq] at rest
      obtain ⟨rfl, -⟩ := run_done.mp rest
      simp
    next => exact ih later

/-- A run meets with no failure, or its last step is the only one that fails, and the run fails with it. -/
theorem ends (h : Heeds A P own p) (bound : A.Bound W) (run : Run W s p steps outcome t) :
    ((∀ step ∈ steps, step.failed = false) ∧ ∀ fault, outcome = .error fault → own fault) ∨
    ∃ front last fault, steps = front ++ [last] ∧ (∀ step ∈ front, step.failed = false) ∧
      last.failed = true ∧ outcome = .error fault := by
  induction run with
  | @done s outcome =>
    refine .inl ⟨by simp, fun fault hf => ?_⟩
    subst hf
    exact h
  | @ask s mid t r next answer steps outcome answered rest ih =>
    have later := h.2 answer (bound _ _ _ _ answered)
    split at later
    next failed =>
      obtain ⟨fault, eq⟩ := later
      rw [eq] at rest
      obtain ⟨rfl, rfl, rfl⟩ := run_done.mp rest
      exact .inr ⟨[], _, fault, rfl, by simp, failed, rfl⟩
    next succeeded =>
      have fine : (⟨s, r, answer, mid⟩ : Step world σ).failed = false :=
        eq_false_of_ne_true succeeded
      rcases ih later with ⟨smooth, owned⟩ | ⟨front, last, fault, rfl, smooth, failed, rfl⟩
      · exact .inl ⟨List.forall_mem_cons.mpr ⟨fine, smooth⟩, owned⟩
      · exact .inr ⟨_ :: front, last, fault, rfl, List.forall_mem_cons.mpr ⟨fine, smooth⟩, failed, rfl⟩

theorem smooth (h : Heeds A P own p) (bound : A.Bound W) {value : α}
    (run : Run W s p steps (.ok value) t) : ∀ step ∈ steps, step.failed = false := by
  rcases h.ends bound run with ⟨smooth, -⟩ | ⟨_, _, _, -, -, -, failed⟩
  · exact smooth
  · cases failed

theorem blames (h : Heeds A P own p) (bound : A.Bound W) {fault : Fault}
    (run : Run W s p steps (.error fault) t) :
    own fault ∨ ∃ step ∈ steps, step.failed = true := by
  rcases h.ends bound run with ⟨-, owned⟩ | ⟨front, last, _, rfl, -, failed, -⟩
  · exact .inl (owned fault rfl)
  · exact .inr ⟨last, List.mem_append_right _ (List.mem_singleton_self _), failed⟩

/-- Whatever another step follows has not failed. -/
theorem uninterrupted (h : Heeds A P own p) (bound : A.Bound W) (run : Run W s p steps outcome t) :
    steps.Pairwise fun earlier _ => earlier.failed = false := by
  rcases h.ends bound run with ⟨smooth, -⟩ | ⟨front, last, _, rfl, smooth, -⟩
  · exact List.pairwise_of_forall_mem_list fun earlier he _ _ => smooth earlier he
  · refine List.pairwise_append.mpr ⟨?_, List.pairwise_singleton .., fun earlier he _ _ => smooth earlier he⟩
    exact List.pairwise_of_forall_mem_list fun earlier he _ _ => smooth earlier he

end Run

end Heeds

end Job

end IamKeeper
