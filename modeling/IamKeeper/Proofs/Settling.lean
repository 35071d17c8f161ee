import IamKeeper.Proofs.Resolution
import IamKeeper.Proofs.Sync

namespace IamKeeper

open Plan

/-- Where the states of a world keep entities. -/
structure Keeping (σ K E : Type) where
  get : σ → K → Option E
  put : σ → K → E → σ
  get_put (s : σ) (key : K) (e : E) : get (put s key e) key = some e
  put_get {s : σ} {key : K} {e : E} : get s key = some e → put s key e = s

/-- A run that changes nothing, and gets through unless a request of it fails. -/
structure Idles {σ α : Type} (s : σ) (steps : List (Step world σ)) (outcome : Except Fault α) (t : σ) :
    Prop where
  still : t = s
  reads : ∀ step ∈ steps, step.request.Reads
  through : (∃ value, outcome = .ok value) ∨ ∃ step ∈ steps, step.failed = true

/-- What a manager must do to bring the entities of a world to rest. `key? s status`: what an object tells of
the key of its entity. `Fine s`: a spec that it can be done for. `Sees s key latest e`: for a spec `s`, the entity
`e` with a key reads as `latest`. `Conforms s key old e`: the entity `e` with a key that was `old` before is as `s`
asks for. -/
structure Settling {σ K E S D : Type} (W : World world σ) (kept : Keeping σ K E) (m : Manager S D)
    (key? : S → Option (Status D) → Option K) (Fine : S → Prop)
    (Sees : S → K → Object S D → E → Prop) (Conforms : S → K → Option E → E → Prop) : Prop where
  still {s t : σ} {r : Request} {answer : r.Answer} (reads : r.Reads) (answered : W s r answer t) : t = s
  lookups (o : Object S D) : (m.resolve o).Asks Request.Reads
  /-- References lead to the same values in every state. -/
  resolved {s t s' t' : σ} {o : Object S D} {steps steps' : List (Step world σ)}
    {outcome outcome' : Except Fault (Resolved S D)} (run : Run W s (m.resolve o) steps outcome t)
    (run' : Run W s' (m.resolve o) steps' outcome' t') : outcome = outcome'
  resolve_status (o : Object S D) (status : Option (Status D)) :
    m.resolve { o with status } =
      m.resolve o >>= fun r => pure ⟨{ r.object with status }, r.referenced⟩
  fine {s t : σ} {o : Object S D} {steps : List (Step world σ)} {resolved : Resolved S D}
    (run : Run W s (m.resolve o) steps (.ok resolved) t) (fine : Fine o.spec) : Fine resolved.object.spec
  reads (o : Object S D) : (m.readOne o).Asks Request.Reads
  blames {s t : σ} {o : Object S D} {steps : List (Step world σ)} {fault : Fault}
    (run : Run W s (m.readOne o) steps (.error fault) t) : ∃ step ∈ steps, step.failed = true
  blind {s t : σ} {o : Object S D} {steps : List (Step world σ)} {found : Option (Object S D)}
    (unknown : key? o.spec o.status = none) (run : Run W s (m.readOne o) steps (.ok found) t) :
    found = none
  found {s t : σ} {o : Object S D} {key : K} {steps : List (Step world σ)} {found : Option (Object S D)}
    (known : key? o.spec o.status = some key) (run : Run W s (m.readOne o) steps (.ok found) t) :
    Option.Rel (Sees o.spec key) found (kept.get s key)
  tells {s : S} {key : K} {latest : Object S D} {e : E} (seen : Sees s key latest e) :
    key? s latest.status = some key
  /-- No field differs exactly when the entity is as it is asked for. -/
  inSync {s : S} {key : K} {latest : Object S D} {e : E} (seen : Sees s key latest e) :
    (m.delta (m.lateInitialize s latest.spec) latest.spec).isEmpty = true ↔ Conforms s key (some e) e
  create {s t : σ} {o observed : Object S D} {steps : List (Step world σ)} (fine : Fine o.spec)
    (missing : (key? o.spec o.status).bind (kept.get s) = none)
    (run : Run W s (m.create o) steps (.ok observed) t) :
    ∃ key e, kept.get s key = none ∧ t = kept.put s key e ∧ Conforms o.spec key none e ∧
      key? o.spec observed.status = some key
  update {s t : σ} {o latest observed : Object S D} {steps : List (Step world σ)} {key : K} {e : E}
    (there : kept.get s key = some e) (seen : Sees o.spec key latest e)
    (run : Run W s (m.update (m.wish o latest) latest (m.drift o latest)) steps (.ok observed) t) :
    ∃ f, t = kept.put s key f ∧ Conforms o.spec key (some e) f ∧ key? o.spec observed.status = some key
  again {s : S} {key : K} {old : Option E} {e : E} (conforms : Conforms s key old e) :
    Conforms s key (some e) e

namespace Settling

variable {σ K E S D : Type} {W : World world σ} {kept : Keeping σ K E} {m : Manager S D}
  {key? : S → Option (Status D) → Option K} {Fine : S → Prop} {Sees : S → K → Object S D → E → Prop}
  {Conforms : S → K → Option E → E → Prop} {s t : σ} {o : Object S D} {steps : List (Step world σ)}

theorem run_reads (c : Settling W kept m key? Fine Sees Conforms) {α : Type} {p : Job α}
    {outcome : Except Fault α} (reads : p.Asks Request.Reads) (run : Run W s p steps outcome t) :
    t = s ∧ ∀ step ∈ steps, step.request.Reads :=
  ⟨run.state_eq reads fun _ _ _ _ => c.still, run.asked reads⟩

/-- What a sync leaves: the entity with a key, which it found or created, and nothing else changed. -/
structure Leaves (kept : Keeping σ K E) (key? : S → Option (Status D) → Option K)
    (Conforms : S → K → Option E → E → Prop) (s : σ) (o : Object S D) (synced : Synced S D) (t : σ)
    (key : K) (e : E) : Prop where
  only : t = kept.put s key e
  conforms : Conforms o.spec key (kept.get s key) e
  tells : key? o.spec synced.object.status = some key
  found : synced.created = false → key? o.spec o.status = some key ∧ (kept.get s key).isSome = true
  created : synced.created = true →
    (key? o.spec o.status).bind (kept.get s) = none ∧ kept.get s key = none

theorem settles (c : Settling W kept m key? Fine Sees Conforms) {resolved : Resolved S D}
    {synced : Synced S D} (fine : Fine resolved.object.spec)
    (run : Run W s (m.readOne resolved.object >>= m.settle o resolved) steps (.ok synced) t) :
    ∃ key e, Leaves kept key? Conforms s resolved.object synced t key e := by
  obtain ⟨found, mid, first, second, hread, hsettle, -⟩ := run_bind_ok.mp run
  obtain ⟨rfl, -⟩ := c.run_reads (c.reads _) hread
  cases found with
  | none =>
    obtain ⟨observed, _, _, _, hcreate, hend, -⟩ := run_bind_ok.mp hsettle
    obtain ⟨-, h, rfl⟩ := run_pure.mp hend
    cases h
    have missing :
        (key? resolved.object.spec resolved.object.status).bind (kept.get mid) = none := by
      cases known : key? resolved.object.spec resolved.object.status with
      | none => rfl
      | some old =>
        have seen := c.found known hread
        rw [Option.bind_some]
        generalize kept.get mid old = there at seen
        cases seen
        rfl
    obtain ⟨key, e, absent, only, conforms, tells⟩ := c.create fine missing hcreate
    exact ⟨key, e, only, absent.symm ▸ conforms, tells, nofun, fun _ => ⟨missing, absent⟩⟩
  | some latest =>
    have known : ∃ key, key? resolved.object.spec resolved.object.status = some key :=
      Option.ne_none_iff_exists'.mp fun unknown => nomatch c.blind unknown hread
    obtain ⟨key, known⟩ := known
    have seen := c.found known hread
    generalize hold : kept.get mid key = old at seen
    cases seen with
    | @some latest e seen =>
      have there : (kept.get mid key).isSome = true := by
        rw [hold]
        rfl
      simp only [Manager.settle] at hsettle
      split at hsettle
      next inSync =>
        obtain ⟨_, _, _, _, hnote, hend, -⟩ := run_bind_ok.mp hsettle
        have note : (Job.debug s!"{o.name} is in sync").Asks Request.Reads := ⟨rfl, fun _ => trivial⟩
        obtain ⟨rfl, -⟩ := c.run_reads note hnote
        obtain ⟨-, h, rfl⟩ := run_pure.mp hend
        cases h
        have conforms := (c.inSync seen).mp inSync
        exact ⟨key, e, (kept.put_get hold).symm, hold ▸ conforms, c.tells seen, fun _ => ⟨known, there⟩,
          nofun⟩
      next =>
        obtain ⟨observed, _, _, _, hupdate, hend, -⟩ := run_bind_ok.mp hsettle
        obtain ⟨-, h, rfl⟩ := run_pure.mp hend
        cases h
        obtain ⟨f, only, conforms, tells⟩ := c.update hold seen hupdate
        exact ⟨key, f, only, hold ▸ conforms, tells, fun _ => ⟨known, there⟩, nofun⟩

theorem settled (c : Settling W kept m key? Fine Sees Conforms) {r : Resolved S D} {key : K} {e : E}
    {outcome : Except Fault (Synced S D)}
    (known : key? r.object.spec r.object.status = some key) (there : kept.get s key = some e)
    (conforms : Conforms r.object.spec key (some e) e)
    (run : Run W s (m.readOne r.object >>= m.settle o r) steps outcome t) :
    Idles s steps outcome t := by
  rcases run_bind.mp run with ⟨fault, hread, -⟩ | ⟨found, mid, first, second, hread, hsettle, rfl⟩
  · obtain ⟨still, reads⟩ := c.run_reads (c.reads _) hread
    exact ⟨still, reads, .inr (c.blames hread)⟩
  · have seen := c.found known hread
    obtain ⟨rfl, first_reads⟩ := c.run_reads (c.reads _) hread
    rw [there] at seen
    cases seen with
    | @some latest _ seen =>
      rw [Manager.settle_inSync o ((c.inSync seen).mpr conforms)] at hsettle
      have note : (Job.debug s!"{o.name} is in sync" >>= fun _ =>
          pure ⟨latest, r.referenced, false⟩ : Job (Synced S D)).Asks Request.Reads :=
        ⟨rfl, fun _ => trivial⟩
      obtain ⟨still, second_reads⟩ := c.run_reads note hsettle
      obtain ⟨_, _, _, -, hend, -⟩ := run_ask.mp hsettle
      exact ⟨still, List.forall_mem_append.mpr ⟨first_reads, second_reads⟩,
        .inl ⟨_, (run_done.mp hend).2.1⟩⟩

/-- A sync that gets through leaves the entity as it is asked for, and nothing else changed. From then on no sync
of the same wishes with a status that tells the key makes a call that changes anything, and each gets through
unless a request of it fails. -/
theorem sync (c : Settling W kept m key? Fine Sees Conforms) {synced : Synced S D} (fine : Fine o.spec)
    (run : Run W s (m.sync o) steps (.ok synced) t) :
    ∃ resolved lookups, Run W s (m.resolve o) lookups (.ok resolved) s ∧
      ∃ key e, Leaves kept key? Conforms s resolved.object synced t key e ∧
        ∀ status, key? resolved.object.spec status = some key → ∀ again outcome u,
          Run W t (m.sync { o with status }) again outcome u → Idles t again outcome u := by
  rw [Manager.sync_eq] at run
  obtain ⟨resolved, mid, lookups, rest, hresolve, hrest, -⟩ := run_bind_ok.mp run
  obtain ⟨rfl, -⟩ := c.run_reads (c.lookups o) hresolve
  obtain ⟨key, e, leaves⟩ := c.settles (c.fine hresolve fine) hrest
  refine ⟨resolved, lookups, hresolve, key, e, leaves, fun status known again outcome u hagain => ?_⟩
  have there : kept.get t key = some e := by
    rw [leaves.only]
    exact kept.get_put ..
  rw [Manager.sync_eq, c.resolve_status] at hagain
  rcases run_bind.mp hagain with ⟨fault, hfirst, -⟩ | ⟨_, _, first, second, hfirst, hsecond, rfl⟩
  · rcases run_bind.mp hfirst with ⟨_, hresolve', -⟩ | ⟨_, _, _, _, _, hend, -⟩
    · cases c.resolved hresolve hresolve'
    · cases (run_pure.mp hend).2.1
  · obtain ⟨_, _, third, fourth, hresolve', hend, rfl⟩ := run_bind_ok.mp hfirst
    cases c.resolved hresolve hresolve'
    obtain ⟨rfl, h, rfl⟩ := run_pure.mp hend
    cases h
    obtain ⟨rfl, looked⟩ := c.run_reads (c.lookups o) hresolve'
    obtain ⟨still, reads, through⟩ := c.settled
      (r := ⟨{ resolved.object with status }, resolved.referenced⟩) known there
      (c.again leaves.conforms) hsecond
    rw [List.append_nil]
    exact ⟨still, List.forall_mem_append.mpr ⟨looked, reads⟩,
      through.imp_right fun ⟨step, hs, failed⟩ => ⟨step, List.mem_append_right _ hs, failed⟩⟩

end Settling

end IamKeeper
