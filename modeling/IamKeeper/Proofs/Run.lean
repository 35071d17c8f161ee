import IamKeeper.Job

namespace IamKeeper

/-- `W s r a t`: in state `s` the world may answer `r` by `a`, which leaves it in state `t`. -/
abbrev World (I : Interface) (σ : Type) : Type :=
  σ → (r : I.Request) → I.Answer r → σ → Prop

/-- An answered request, between the states before and after it. -/
structure Step (I : Interface) (σ : Type) where
  before : σ
  request : I.Request
  answer : I.Answer request
  after : σ

namespace Plan

variable {I : Interface} {σ ε ζ α β : Type} {W : World I σ} {s t : σ}

instance : LawfulMonad (Plan I ε) :=
  LawfulMonad.mk' _ bind_pure (fun _ _ => rfl) bind_assoc

theorem ofExcept_ok_bind (value : α) (f : α → Plan I ε β) :
    (ofExcept (.ok value) >>= f) = f value := rfl

/-- A plan that starts in one state of a world comes to an outcome in another. -/
inductive Run (W : World I σ) : σ → Plan I ε α → List (Step I σ) → Except ε α → σ → Prop
  | done {s : σ} {outcome : Except ε α} : Run W s (done outcome) [] outcome s
  | ask {s mid t : σ} {r : I.Request} {next : I.Answer r → Plan I ε α} {a : I.Answer r}
      {steps : List (Step I σ)} {outcome : Except ε α} (answered : W s r a mid)
      (rest : Run W mid (next a) steps outcome t) :
      Run W s (ask r next) (⟨s, r, a, mid⟩ :: steps) outcome t

theorem run_done {result outcome : Except ε α} {steps : List (Step I σ)} :
    Run W s (done result) steps outcome t ↔ steps = [] ∧ outcome = result ∧ t = s := by
  constructor
  · intro h
    cases h
    exact ⟨rfl, rfl, rfl⟩
  · intro h
    obtain ⟨rfl, rfl, rfl⟩ := h
    exact .done

theorem run_pure {value : α} {outcome : Except ε α} {steps : List (Step I σ)} :
    Run W s (pure value : Plan I ε α) steps outcome t ↔
      steps = [] ∧ outcome = .ok value ∧ t = s :=
  run_done

theorem run_ask {r : I.Request} {next : I.Answer r → Plan I ε α} {outcome : Except ε α}
    {steps : List (Step I σ)} :
    Run W s (ask r next) steps outcome t ↔
      ∃ a mid rest, W s r a mid ∧ Run W mid (next a) rest outcome t ∧
        steps = ⟨s, r, a, mid⟩ :: rest := by
  constructor
  · intro h
    cases h with
    | ask answered rest => exact ⟨_, _, _, answered, rest, rfl⟩
  · intro h
    obtain ⟨a, mid, rest, answered, h, rfl⟩ := h
    exact .ask answered h

theorem run_ask_done {r : I.Request} {f : I.Answer r → Except ε α} {outcome : Except ε α}
    {steps : List (Step I σ)} :
    Run W s (ask r fun a => done (f a)) steps outcome t ↔
      ∃ a, W s r a t ∧ outcome = f a ∧ steps = [⟨s, r, a, t⟩] := by
  simp only [run_ask, run_done]
  constructor
  · intro h
    obtain ⟨a, mid, rest, answered, ⟨rfl, rfl, rfl⟩, rfl⟩ := h
    exact ⟨a, answered, rfl, rfl⟩
  · intro h
    obtain ⟨a, answered, rfl, rfl⟩ := h
    exact ⟨a, t, [], answered, ⟨rfl, rfl, rfl⟩, rfl⟩

theorem Run.bind {p : Plan I ε α} {f : α → Plan I ε β} {value : α} {outcome : Except ε β}
    {mid : σ} {first second : List (Step I σ)} (hp : Run W s p first (.ok value) mid)
    (hf : Run W mid (f value) second outcome t) :
    Run W s (p >>= f) (first ++ second) outcome t := by
  generalize hv : (Except.ok value : Except ε α) = result at hp
  induction hp with
  | done => subst hv; exact hf
  | ask answered _ ih => exact .ask answered (ih hf hv)

theorem Run.bind_error {p : Plan I ε α} (f : α → Plan I ε β) {fault : ε}
    {steps : List (Step I σ)} (hp : Run W s p steps (.error fault) t) :
    Run W s (p >>= f) steps (.error fault) t := by
  generalize hv : (Except.error fault : Except ε α) = result at hp
  induction hp with
  | done => subst hv; exact .done
  | ask answered _ ih => exact .ask answered (ih hv)

/-- A sequence fails in its first part, or gets through it and runs its second part. -/
theorem run_bind {p : Plan I ε α} {f : α → Plan I ε β} {outcome : Except ε β}
    {steps : List (Step I σ)} :
    Run W s (p >>= f) steps outcome t ↔
      (∃ fault, Run W s p steps (.error fault) t ∧ outcome = .error fault) ∨
      ∃ value mid first second, Run W s p first (.ok value) mid ∧
        Run W mid (f value) second outcome t ∧ steps = first ++ second := by
  constructor
  · intro h
    induction p generalizing s steps with
    | done result =>
      cases result with
      | error fault =>
        obtain ⟨rfl, rfl, rfl⟩ := run_done.mp h
        exact .inl ⟨fault, .done, rfl⟩
      | ok value => exact .inr ⟨value, s, [], steps, .done, h, rfl⟩
    | ask r next ih =>
      obtain ⟨a, mid, rest, answered, hrest, rfl⟩ := run_ask.mp h
      rcases ih a hrest with ⟨fault, hp, rfl⟩ | ⟨value, mid', first, second, hp, hf, rfl⟩
      · exact .inl ⟨fault, .ask answered hp, rfl⟩
      · exact .inr ⟨value, mid', _, second, .ask answered hp, hf, rfl⟩
  · intro h
    rcases h with ⟨fault, hp, rfl⟩ | ⟨value, mid, first, second, hp, hf, rfl⟩
    · exact hp.bind_error f
    · exact hp.bind hf

theorem run_bind_ok {p : Plan I ε α} {f : α → Plan I ε β} {value : β}
    {steps : List (Step I σ)} :
    Run W s (p >>= f) steps (.ok value) t ↔
      ∃ x mid first second, Run W s p first (.ok x) mid ∧
        Run W mid (f x) second (.ok value) t ∧ steps = first ++ second := by
  rw [run_bind]
  constructor
  · intro h
    rcases h with ⟨fault, -, h⟩ | h
    · cases h
    · exact h
  · exact .inr

theorem run_when {condition : Bool} {p : Plan I ε Unit} {outcome : Except ε Unit}
    {steps : List (Step I σ)} :
    Run W s (Plan.when condition p) steps outcome t ↔
      if condition then Run W s p steps outcome t
      else steps = [] ∧ outcome = .ok () ∧ t = s := by
  unfold Plan.when
  split
  · rfl
  · exact run_pure

/-- A loop each round of which leads from one state of a family to another. -/
theorem run_forEach {ι : Type} {f : β → Plan I ε Unit} (state : ι → σ) (change : ι → β → ι)
    (round : ∀ {i item steps t}, Run W (state i) (f item) steps (.ok ()) t → t = state (change i item))
    {items : List β} {i : ι} {steps : List (Step I σ)}
    (run : Run W (state i) (forEach f items) steps (.ok ()) t) : t = state (items.foldl change i) := by
  induction items generalizing i steps with
  | nil => exact (run_pure.mp run).2.2
  | cons item items ih =>
    obtain ⟨_, mid, first, second, hone, hrest, -⟩ := run_bind_ok.mp run
    cases round hone
    exact ih hrest

theorem run_attempt {p : Plan I ε α} {outcome : Except ζ (Except ε α)}
    {steps : List (Step I σ)} :
    Run W s (p.attempt : Plan I ζ (Except ε α)) steps outcome t ↔
      ∃ result, Run W s p steps result t ∧ outcome = .ok result := by
  induction p generalizing s steps with
  | done result =>
    simp only [attempt, run_done]
    constructor
    · intro h
      obtain ⟨rfl, rfl, rfl⟩ := h
      exact ⟨result, ⟨rfl, rfl, rfl⟩, rfl⟩
    · intro h
      obtain ⟨_, ⟨rfl, rfl, rfl⟩, rfl⟩ := h
      exact ⟨rfl, rfl, rfl⟩
  | ask r next ih =>
    simp only [attempt, run_ask, ih]
    constructor
    · intro h
      obtain ⟨a, mid, rest, answered, ⟨result, h, rfl⟩, rfl⟩ := h
      exact ⟨result, ⟨a, mid, rest, answered, h, rfl⟩, rfl⟩
    · intro h
      obtain ⟨result, ⟨a, mid, rest, answered, h, rfl⟩, rfl⟩ := h
      exact ⟨a, mid, rest, answered, ⟨result, h, rfl⟩, rfl⟩

theorem run_mapFault {p : Plan I ε α} {f : ε → ζ} {outcome : Except ζ α}
    {steps : List (Step I σ)} :
    Run W s (p.mapFault f) steps outcome t ↔
      ∃ result, Run W s p steps result t ∧ outcome = result.mapError f := by
  induction p generalizing s steps with
  | done result =>
    have eq : (done result : Plan I ε α).mapFault f = done (result.mapError f) := by
      cases result <;> rfl
    rw [eq]
    simp only [run_done]
    constructor
    · intro h
      obtain ⟨rfl, rfl, rfl⟩ := h
      exact ⟨result, ⟨rfl, rfl, rfl⟩, rfl⟩
    · intro h
      obtain ⟨_, ⟨rfl, rfl, rfl⟩, rfl⟩ := h
      exact ⟨rfl, rfl, rfl⟩
  | ask r next ih =>
    simp only [mapFault, run_ask, ih]
    constructor
    · intro h
      obtain ⟨a, mid, rest, answered, ⟨result, h, rfl⟩, rfl⟩ := h
      exact ⟨result, ⟨a, mid, rest, answered, h, rfl⟩, rfl⟩
    · intro h
      obtain ⟨result, ⟨a, mid, rest, answered, h, rfl⟩, rfl⟩ := h
      exact ⟨a, mid, rest, answered, ⟨result, h, rfl⟩, rfl⟩

theorem Run.answered {p : Plan I ε α} {steps : List (Step I σ)} {outcome : Except ε α}
    (h : Run W s p steps outcome t) :
    ∀ step ∈ steps, W step.before step.request step.answer step.after := by
  induction h with
  | done => simp
  | ask answered _ ih =>
    intro step hs
    rcases List.mem_cons.mp hs with rfl | hs
    · exact answered
    · exact ih step hs

/-- Two runs of a plan that begin with the same answers are one, if the first of them is at its end. -/
theorem Run.eq_of_prefix {p : Plan I ε α} {front steps : List (Step I σ)} {mid : σ}
    {outcome outcome' : Except ε α} (h : Run W s p front outcome mid)
    (h' : Run W s p steps outcome' t) (same : front <+: steps) :
    steps = front ∧ outcome' = outcome ∧ t = mid := by
  induction h generalizing steps with
  | done => exact run_done.mp h'
  | ask answered _ ih =>
    obtain ⟨a', mid', rest', -, hrest, rfl⟩ := run_ask.mp h'
    obtain ⟨head, tail⟩ := List.cons_prefix_cons.mp same
    cases head
    obtain ⟨rfl, ends⟩ := ih hrest tail
    exact ⟨rfl, ends⟩

/-- Every request that a plan can come to has a property. -/
def Asks (P : I.Request → Prop) : Plan I ε α → Prop
  | done _ => True
  | ask r next => P r ∧ ∀ a, (next a).Asks P

section Asks

variable {P : I.Request → Prop}

theorem Asks.mono {Q : I.Request → Prop} (weaker : ∀ r, P r → Q r) {p : Plan I ε α}
    (h : p.Asks P) : p.Asks Q := by
  induction p with
  | done => trivial
  | ask r next ih => exact ⟨weaker r h.1, fun a => ih a (h.2 a)⟩

theorem Asks.bind {p : Plan I ε α} {f : α → Plan I ε β} (hp : p.Asks P)
    (hf : ∀ value, (f value).Asks P) : (p >>= f).Asks P := by
  induction p with
  | done result =>
    cases result with
    | error fault => trivial
    | ok value => exact hf value
  | ask r next ih => exact ⟨hp.1, fun a => ih a (hp.2 a)⟩

theorem asks_when {condition : Bool} {p : Plan I ε Unit} (h : p.Asks P) :
    (Plan.when condition p).Asks P := by
  unfold Plan.when
  split
  · exact h
  · trivial

theorem asks_ite {c : Prop} [Decidable c] {p q : Plan I ε α} (hp : p.Asks P) (hq : q.Asks P) :
    (if c then p else q).Asks P := by
  split
  · exact hp
  · exact hq

theorem asks_forEach {f : β → Plan I ε Unit} (items : List β) (h : ∀ item, (f item).Asks P) :
    (forEach f items).Asks P := by
  induction items with
  | nil => trivial
  | cons item items ih => exact (h item).bind fun _ => ih

theorem asks_collect {f : β → Plan I ε α} (items : List β) (h : ∀ item ∈ items, (f item).Asks P) :
    (collect f items).Asks P := by
  induction items with
  | nil => trivial
  | cons item items ih =>
    obtain ⟨first, rest⟩ := List.forall_mem_cons.mp h
    exact first.bind fun _ => (ih rest).bind fun _ => trivial

theorem Asks.attempt {p : Plan I ε α} (h : p.Asks P) :
    (p.attempt : Plan I ζ (Except ε α)).Asks P := by
  induction p with
  | done => trivial
  | ask r next ih => exact ⟨h.1, fun a => ih a (h.2 a)⟩

theorem Run.asked {p : Plan I ε α} {steps : List (Step I σ)} {outcome : Except ε α}
    (h : Run W s p steps outcome t) (hp : p.Asks P) : ∀ step ∈ steps, P step.request := by
  induction h with
  | done => simp
  | ask answered _ ih =>
    intro step hs
    rcases List.mem_cons.mp hs with rfl | hs
    · exact hp.1
    · exact ih (hp.2 _) step hs

/-- A plan whose requests leave the state alone ends where it starts. -/
theorem Run.state_eq {p : Plan I ε α} {steps : List (Step I σ)} {outcome : Except ε α}
    (h : Run W s p steps outcome t) (hp : p.Asks P)
    (still : ∀ s r a t, P r → W s r a t → t = s) : t = s := by
  induction h with
  | done => rfl
  | ask answered _ ih =>
    rw [ih (hp.2 _)]
    exact still _ _ _ _ hp.1 answered

theorem Run.steps_eq {p : Plan I ε α} {steps : List (Step I σ)} {outcome : Except ε α}
    (h : Run W s p steps outcome t) (hp : p.Asks P)
    (still : ∀ s r a t, P r → W s r a t → t = s) :
    ∀ step ∈ steps, step.before = s ∧ step.after = s := by
  induction h with
  | done => simp
  | ask answered _ ih =>
    have same := still _ _ _ _ hp.1 answered
    intro step hs
    rcases List.mem_cons.mp hs with rfl | hs
    · exact ⟨rfl, same⟩
    · have rest := ih (hp.2 _) step hs
      rw [same] at rest
      exact rest

/-- Where equal requests have equal answers, all runs of a plan come to one outcome. -/
theorem Run.outcome_unique {s' t' : σ} {p : Plan I ε α} {steps steps' : List (Step I σ)}
    {outcome outcome' : Except ε α} (h : Run W s p steps outcome t)
    (h' : Run W s' p steps' outcome' t') (hp : p.Asks P)
    (fixed : ∀ s r a t s' a' t', P r → W s r a t → W s' r a' t' → a = a') : outcome = outcome' := by
  induction h generalizing s' steps' with
  | done => exact (run_done.mp h').2.1.symm
  | ask answered _ ih =>
    obtain ⟨a', mid', rest', answered', hrest, -⟩ := run_ask.mp h'
    have same := fixed _ _ _ _ _ _ _ hp.1 answered answered'
    subst same
    exact ih hrest (hp.2 _)

end Asks

/-- Every value that a plan can come to has a property. -/
def Yields (Q : α → Prop) : Plan I ε α → Prop
  | done (.ok value) => Q value
  | done (.error _) => True
  | ask _ next => ∀ a, (next a).Yields Q

section Yields

variable {Q : β → Prop}

theorem Yields.mono {P : β → Prop} {p : Plan I ε β} (h : p.Yields P) (weaker : ∀ value, P value → Q value) :
    p.Yields Q := by
  induction p with
  | done result =>
    cases result with
    | error fault => trivial
    | ok value => exact weaker value h
  | ask r next ih => exact fun a => ih a (h a)

theorem yields_of_forall {p : Plan I ε β} (h : ∀ value, Q value) : p.Yields Q := by
  induction p with
  | done result =>
    cases result with
    | error fault => trivial
    | ok value => exact h value
  | ask r next ih => exact ih

theorem yields_pure {value : β} (h : Q value) : (pure value : Plan I ε β).Yields Q := h

theorem yields_bind {p : Plan I ε α} {f : α → Plan I ε β} (h : ∀ value, (f value).Yields Q) :
    (p >>= f).Yields Q := by
  induction p with
  | done result =>
    cases result with
    | error fault => trivial
    | ok value => exact h value
  | ask r next ih => exact ih

theorem Yields.bind {P : α → Prop} {p : Plan I ε α} {f : α → Plan I ε β} (hp : p.Yields P)
    (hf : ∀ value, P value → (f value).Yields Q) : (p >>= f).Yields Q := by
  induction p with
  | done result =>
    cases result with
    | error fault => trivial
    | ok value => exact hf value hp
  | ask r next ih => exact fun a => ih a (hp a)

/-- What the first part of a sequence can come to bounds what the second part asks. -/
theorem Yields.asks {P : α → Prop} {R : I.Request → Prop} {p : Plan I ε α} {f : α → Plan I ε β}
    (hy : p.Yields P) (hp : p.Asks R) (hf : ∀ value, P value → (f value).Asks R) :
    (p >>= f).Asks R := by
  induction p with
  | done result =>
    cases result with
    | error fault => trivial
    | ok value => exact hf value hy
  | ask r next ih => exact ⟨hp.1, fun a => ih a (hy a) (hp.2 a)⟩

theorem yields_ite {c : Prop} [Decidable c] {p q : Plan I ε β} (hp : p.Yields Q)
    (hq : q.Yields Q) : (if c then p else q).Yields Q := by
  split
  · exact hp
  · exact hq

theorem Run.yielded {p : Plan I ε β} {steps : List (Step I σ)} {value : β}
    (h : Run W s p steps (.ok value) t) (hp : p.Yields Q) : Q value := by
  generalize hv : (Except.ok value : Except ε β) = outcome at h
  induction h with
  | done => subst hv; exact hp
  | ask _ _ ih => exact ih (hp _) hv

end Yields

end Plan

end IamKeeper
