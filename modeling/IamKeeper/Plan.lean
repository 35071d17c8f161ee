namespace IamKeeper

/-- What can be asked for, and what the answer to each request is. -/
structure Interface where
  Request : Type
  Answer : Request → Type

/-- A computation of an `α` that may fail with an `ε`. -/
inductive Plan (I : Interface) (ε α : Type) : Type where
  | done (outcome : Except ε α)
  | ask (request : I.Request) (next : I.Answer request → Plan I ε α)

namespace Plan

variable {I J : Interface} {ε ζ α β γ : Type}

/-- Goes on with the value of a plan, unless that fails. -/
def bind : Plan I ε α → (α → Plan I ε β) → Plan I ε β
  | done (.ok value), next => next value
  | done (.error fault), _ => done (.error fault)
  | ask request rest, next => ask request fun answer => (rest answer).bind next

instance : Monad (Plan I ε) where
  pure value := done (.ok value)
  bind := bind

def fail (fault : ε) : Plan I ε α :=
  done (.error fault)

def request (r : I.Request) : Plan I ε (I.Answer r) :=
  ask r pure

def ofExcept (outcome : Except ε α) : Plan I ε α :=
  done outcome

def attempt : Plan I ε α → Plan I ζ (Except ε α)
  | done outcome => done (.ok outcome)
  | ask r rest => ask r fun answer => (rest answer).attempt

def mapFault (f : ε → ζ) : Plan I ε α → Plan I ζ α
  | done (.ok value) => done (.ok value)
  | done (.error fault) => done (.error (f fault))
  | ask r rest => ask r fun answer => (rest answer).mapFault f

def when (condition : Bool) (plan : Plan I ε Unit) : Plan I ε Unit :=
  if condition then plan else pure ()

/-- Runs a plan for each item in order, until one fails. -/
def forEach (f : β → Plan I ε Unit) : List β → Plan I ε Unit
  | [] => pure ()
  | item :: items => do
    f item
    forEach f items

/-- Collects the values of a plan for each item in order, until one fails. -/
def collect (f : β → Plan I ε α) : List β → Plan I ε (List α)
  | [] => pure []
  | item :: items => do
    let value ← f item
    let values ← collect f items
    return value :: values

/-- Answers each request of a plan by a plan over another interface. -/
def interpret (answer : (r : I.Request) → Plan J ζ (I.Answer r)) :
    Plan I ε α → Plan J ζ (Except ε α)
  | done outcome => done (.ok outcome)
  | ask r rest => (answer r).bind fun a => (rest a).interpret answer

/-- Runs a plan with the answers of a handler. -/
def run {m : Type → Type} [Monad m] (handle : (r : I.Request) → m (I.Answer r)) :
    Plan I ε α → m (Except ε α)
  | done outcome => pure outcome
  | ask r rest => do
    let answer ← handle r
    (rest answer).run handle

@[simp]
theorem done_ok_bind (value : α) (next : α → Plan I ε β) :
    (done (.ok value)).bind next = next value := rfl

@[simp]
theorem done_error_bind (fault : ε) (next : α → Plan I ε β) :
    (done (.error fault)).bind next = done (.error fault) := rfl

@[simp]
theorem ask_bind (r : I.Request) (rest : I.Answer r → Plan I ε α) (next : α → Plan I ε β) :
    (ask r rest).bind next = ask r fun answer => (rest answer).bind next := rfl

theorem bind_pure (p : Plan I ε α) : p.bind (fun value => done (.ok value)) = p := by
  induction p with
  | done outcome => cases outcome <;> rfl
  | ask r rest ih => exact congrArg (ask r) (funext ih)

theorem bind_assoc (p : Plan I ε α) (f : α → Plan I ε β) (g : β → Plan I ε γ) :
    (p.bind f).bind g = p.bind fun value => (f value).bind g := by
  induction p with
  | done outcome => cases outcome <;> rfl
  | ask r rest ih => exact congrArg (ask r) (funext ih)

end Plan

end IamKeeper
