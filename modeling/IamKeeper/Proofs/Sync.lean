import IamKeeper.Proofs.Delta
import IamKeeper.Proofs.Run
import IamKeeper.Reconcile.Sync

namespace IamKeeper.Manager

open Plan hiding bind_assoc

variable {S D : Type} (m : Manager S D)

/-- What an object asks for once the entity is known. -/
def wish (desired latest : Object S D) : Object S D :=
  { desired with spec := m.lateInitialize desired.spec latest.spec }

/-- The fields in which an entity has drifted from what is asked for. -/
def drift (desired latest : Object S D) : Delta :=
  m.delta (m.wish desired latest).spec latest.spec

/-- What a sync does once it knows whether there is an entity. -/
def settle (o : Object S D) (resolved : Resolved S D) : Option (Object S D) → Job (Synced S D)
  | none => do
    let observed ← m.create resolved.object
    return ⟨observed, resolved.referenced, true⟩
  | some latest =>
    if (m.drift resolved.object latest).isEmpty then do
      Job.debug s!"{o.name} is in sync"
      return ⟨latest, resolved.referenced, false⟩
    else do
      let observed ← m.update (m.wish resolved.object latest) latest
        (m.drift resolved.object latest)
      return ⟨observed, resolved.referenced, false⟩

theorem sync_eq (o : Object S D) :
    m.sync o = m.resolve o >>= fun resolved =>
      m.readOne resolved.object >>= m.settle o resolved := rfl

/-- What a sync does first: it resolves references, and reads the entity. -/
def look (o : Object S D) : Job (Resolved S D × Option (Object S D)) := do
  let resolved ← m.resolve o
  let found ← m.readOne resolved.object
  return (resolved, found)

theorem sync_eq_look (o : Object S D) :
    m.sync o = m.look o >>= fun looked => m.settle o looked.1 looked.2 := by
  unfold look
  rw [sync_eq]
  simp only [bind_assoc, pure_bind]

variable {m} {σ : Type} {W : World world σ} {s t : σ} {latest : Object S D}
  {steps : List (Step world σ)}

theorem run_whenDiffers {delta : Delta} {path : String} {step : Job Unit} {differs : Bool}
    (hd : delta.differsAt path = differs)
    (run : Run W s (whenDiffers delta path step) steps (.ok ()) t) :
    differs = true ∧ Run W s step steps (.ok ()) t ∨ differs = false ∧ t = s := by
  have cases := run_when.mp run
  rw [hd] at cases
  cases differs with
  | true => exact .inl ⟨rfl, cases⟩
  | false => exact .inr ⟨rfl, cases.2.2⟩

theorem run_update {desired : Object S D} {delta : Delta} {outcome : Except Fault (Object S D)}
    (run : Run W s (m.update desired latest delta) steps outcome t) :
    (∃ fault, delta.checkImmutable m.immutable = .error fault ∧ steps = [] ∧
      outcome = .error fault ∧ t = s) ∨
    delta.checkImmutable m.immutable = .ok () ∧
      Run W s (m.change desired latest delta) steps outcome t := by
  unfold update at run
  cases hc : delta.checkImmutable m.immutable with
  | error fault =>
    rw [hc] at run
    obtain ⟨rfl, rfl, rfl⟩ := run_done.mp run
    exact .inl ⟨fault, rfl, rfl, rfl, rfl⟩
  | ok _ =>
    rw [hc] at run
    exact .inr ⟨rfl, run⟩

theorem settle_inSync (o : Object S D) {resolved : Resolved S D}
    (inSync : (m.drift resolved.object latest).isEmpty = true) :
    m.settle o resolved (some latest) =
      Job.debug s!"{o.name} is in sync" >>= fun _ => pure ⟨latest, resolved.referenced, false⟩ :=
  if_pos inSync

/-- Where the entity is found, none is created. -/
theorem settle_found (o : Object S D) (resolved : Resolved S D) :
    (m.settle o resolved (some latest)).Yields (·.created = false) :=
  yields_ite (yields_bind fun _ => yields_pure rfl) (yields_bind fun _ => yields_pure rfl)

theorem settle_drifted (o : Object S D) {resolved : Resolved S D}
    (drifted : (m.drift resolved.object latest).isEmpty = false) :
    m.settle o resolved (some latest) =
      m.update (m.wish resolved.object latest) latest (m.drift resolved.object latest) >>=
        fun observed => pure ⟨observed, resolved.referenced, false⟩ :=
  if_neg (Bool.eq_false_iff.mp drifted)

/-- A drift in a field that may not change is refused, and nothing is done. -/
theorem settle_refused (o : Object S D) {resolved : Resolved S D} {fault : Fault}
    (refused : (m.drift resolved.object latest).checkImmutable m.immutable = .error fault) :
    m.settle o resolved (some latest) = Job.fail fault := by
  have drifted : (m.drift resolved.object latest).isEmpty = false := by
    refine Bool.eq_false_iff.mpr fun empty => ?_
    have fine := Delta.checkImmutable_eq_ok.mpr fun path (_ : path ∈ m.immutable) =>
      Delta.differsAt_of_isEmpty empty path
    rw [refused] at fine
    cases fine
  rw [settle_drifted o drifted, update, refused]
  rfl

/-- A drift in other fields is changed. -/
theorem settle_changes (o : Object S D) {resolved : Resolved S D}
    (drifted : (m.drift resolved.object latest).isEmpty = false)
    (fixed : (m.drift resolved.object latest).checkImmutable m.immutable = .ok ()) :
    m.settle o resolved (some latest) =
      m.change (m.wish resolved.object latest) latest (m.drift resolved.object latest) >>=
        fun observed => pure ⟨observed, resolved.referenced, false⟩ := by
  rw [settle_drifted o drifted, update, fixed]
  rfl

theorem run_settle_refused {o : Object S D} {resolved : Resolved S D} {fault : Fault}
    {outcome : Except Fault (Synced S D)}
    (refused : (m.drift resolved.object latest).checkImmutable m.immutable = .error fault)
    (run : Run W s (m.settle o resolved (some latest)) steps outcome t) :
    steps = [] ∧ outcome = .error fault ∧ t = s := by
  rw [settle_refused o refused] at run
  exact run_done.mp run

end IamKeeper.Manager
