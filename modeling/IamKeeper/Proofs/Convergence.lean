import IamKeeper.Proofs.Account
import IamKeeper.Proofs.Settling

namespace IamKeeper

open Plan

/-- A plan that fails has met with a failure. -/
def Account.GetsThrough {α : Type} (directory : Directory) (p : Job α) : Prop :=
  ∀ (a b : Account) (steps : List (Step world Account)) (fault : Fault),
    Run (Account.Answers directory) a p steps (.error fault) b → ∃ step ∈ steps, step.failed

namespace Account

variable {directory : Directory} {α β : Type}

theorem getsThrough_pure (value : α) : GetsThrough directory (pure value : Job α) := by
  intro a b steps fault run
  cases (run_pure.mp run).2.1

theorem getsThrough_iam (call : Iam.Call) : GetsThrough directory (Job.iam call) := by
  intro a b steps fault run
  obtain ⟨answer, -, rfl, rfl⟩ := run_ask_done.mp run
  exact ⟨_, List.mem_singleton_self _, rfl⟩

theorem GetsThrough.bind {p : Job α} {f : α → Job β} (hp : GetsThrough directory p)
    (hf : ∀ {a b steps value}, Run (Answers directory) a p steps (.ok value) b →
      GetsThrough directory (f value)) : GetsThrough directory (p >>= f) := by
  intro a b steps fault run
  rcases run_bind.mp run with ⟨_, hfirst, -⟩ | ⟨value, mid, first, second, hfirst, hsecond, rfl⟩
  · exact hp _ _ _ _ hfirst
  · obtain ⟨step, hs, failed⟩ := hf hfirst _ _ _ _ hsecond
    exact ⟨step, List.mem_append_right _ hs, failed⟩

theorem getsThrough_collect {f : β → Job α} (h : ∀ item, GetsThrough directory (f item))
    (items : List β) : GetsThrough directory (collect f items) := by
  induction items with
  | nil => exact getsThrough_pure []
  | cons item items ih =>
    exact (h item).bind fun _ => ih.bind fun _ => getsThrough_pure _

theorem lookups_unique {p : Job α} {a b a' b' : Account} {steps steps' : List (Step world Account)}
    {outcome outcome' : Except Fault α} (lookups : p.Asks Request.LooksUp)
    (run : Run (Answers directory) a p steps outcome b)
    (run' : Run (Answers directory) a' p steps' outcome' b') : outcome = outcome' := by
  refine run.outcome_unique run' lookups fun s r x t s' x' t' hl h h' => ?_
  cases r with
  | policy space name => exact h.1.trans h'.1.symm
  | _ => cases hl

/-- The principals as they are kept. -/
def kept : Keeping Account Iam.Principal Holder where
  get a := a
  put := put
  get_put := put_self
  put_get := put_same

end Account

/-- What a manager must do for its syncs to converge. `Sees s latest h`: for a spec `s`, a holder `h` reads
as `latest`. `Conforms s old h`: a holder `h` that was `old` before is as `s` asks for. -/
structure Convergent {S D : Type} (directory : Directory) (m : Manager S D)
    (principal : S → Iam.Principal) (Sees : S → S → Holder → Prop)
    (Conforms : S → Option Holder → Holder → Prop) : Prop where
  lookups (o : Object S D) : (m.resolve o).Asks Request.LooksUp
  /-- The status takes no part in resolving references. -/
  resolve_status (o : Object S D) (status : Option (Status D)) :
    m.resolve { o with status } =
      m.resolve o >>= fun r => pure ⟨{ r.object with status }, r.referenced⟩
  reads (o : Object S D) : (m.readOne o).Asks Request.Reads
  getsThrough (o : Object S D) : Account.GetsThrough directory (m.readOne o)
  found {a b : Account} {o : Object S D} {steps : List (Step world Account)}
    {found : Option (Object S D)}
    (run : Run (Account.Answers directory) a (m.readOne o) steps (.ok found) b) :
    Option.Rel (fun latest h => Sees o.spec latest.spec h) found (a (principal o.spec))
  /-- No field differs exactly when the holder is as it is asked for. -/
  inSync {s latest : S} {h : Holder} (seen : Sees s latest h) :
    (m.delta (m.lateInitialize s latest) latest).isEmpty = true ↔ Conforms s (some h) h
  create {a b : Account} {o observed : Object S D} {steps : List (Step world Account)}
    (run : Run (Account.Answers directory) a (m.create o) steps (.ok observed) b) :
    ∃ h, b = a.put (principal o.spec) h ∧ Conforms o.spec none h
  update {a b : Account} {o latest observed : Object S D} {steps : List (Step world Account)}
    {h : Holder} (there : a (principal o.spec) = some h) (seen : Sees o.spec latest.spec h)
    (run : Run (Account.Answers directory) a
      (m.update (m.wish o latest) latest (m.drift o latest)) steps (.ok observed) b) :
    ∃ k, b = a.put (principal o.spec) k ∧ Conforms o.spec (some h) k
  again {s : S} {old : Option Holder} {h : Holder} (conforms : Conforms s old h) :
    Conforms s (some h) h

namespace Convergent

variable {S D : Type} {directory : Directory} {m : Manager S D} {principal : S → Iam.Principal}
  {Sees : S → S → Holder → Prop} {Conforms : S → Option Holder → Holder → Prop}
  {a b : Account} {o : Object S D} {steps : List (Step world Account)}

/-- The principals that converge come to rest, each known by what its spec names. -/
theorem settling (c : Convergent directory m principal Sees Conforms) :
    Settling (Account.Answers directory) Account.kept m (fun s _ => some (principal s)) (fun _ => True)
      (fun s p latest h => principal s = p ∧ Sees s latest.spec h)
      (fun s p old h => principal s = p ∧ Conforms s old h) where
  still reads answered := answered.still reads
  lookups o := (c.lookups o).mono fun _ looks => Request.Refers.reads (Request.LooksUp.refers looks)
  resolved := Account.lookups_unique (c.lookups _)
  resolve_status := c.resolve_status
  fine _ _ := trivial
  reads := c.reads
  blames run := c.getsThrough _ _ _ _ _ run
  blind := nofun
  found := by
    intro a _ o p _ found known run
    cases known
    have seen := c.found run
    change Option.Rel _ found (a (principal o.spec))
    generalize a (principal o.spec) = old at seen ⊢
    cases seen with
    | none => exact .none
    | some seen => exact .some ⟨rfl, seen⟩
  tells seen := congrArg some seen.1
  inSync seen := (c.inSync seen.2).trans (and_iff_right seen.1).symm
  create _ missing run := by
    obtain ⟨h, only, conforms⟩ := c.create run
    exact ⟨_, h, missing, only, ⟨rfl, conforms⟩, rfl⟩
  update there seen run := by
    obtain ⟨rfl, seen⟩ := seen
    obtain ⟨k, only, conforms⟩ := c.update there seen run
    exact ⟨k, only, ⟨rfl, conforms⟩, rfl⟩
  again conforms := ⟨conforms.1, c.again conforms.2⟩

/-- A sync that gets through leaves the principal as it is asked for, and nothing else changed. Every
later sync of the same wishes makes no call that changes anything, and gets through unless a request of it
fails. -/
theorem sync (c : Convergent directory m principal Sees Conforms) {synced : Synced S D}
    (run : Run (Account.Answers directory) a (m.sync o) steps (.ok synced) b) :
    ∃ resolved lookups, Run (Account.Answers directory) a (m.resolve o) lookups (.ok resolved) a ∧
      ∃ h, b = a.put (principal resolved.object.spec) h ∧
        Conforms resolved.object.spec (a (principal resolved.object.spec)) h ∧
        ∀ status again outcome d,
          Run (Account.Answers directory) b (m.sync { o with status }) again outcome d →
            d = b ∧ (∀ step ∈ again, step.request.Reads) ∧
              ((∃ synced, outcome = .ok synced) ∨ ∃ step ∈ again, step.failed) := by
  obtain ⟨resolved, lookups, hresolve, p, h, leaves, idle⟩ := c.settling.sync trivial run
  obtain ⟨rfl, conforms⟩ := leaves.conforms
  refine ⟨resolved, lookups, hresolve, h, leaves.only, conforms, ?_⟩
  intro status again outcome d hagain
  obtain ⟨still, reads, through⟩ := idle status rfl again outcome d hagain
  exact ⟨still, reads, through⟩

end Convergent

end IamKeeper
