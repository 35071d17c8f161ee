import IamKeeper.Reconcile.Outcome
import IamKeeper.Reconcile.Sync

namespace IamKeeper

/-- What holds for all passes. Times are in seconds. -/
structure PassOptions where
  /-- The region that is recorded with the identity of an entity. -/
  region : Option String
  /-- When to look again after a pass that succeeded. -/
  resync : Nat
  /-- When to try again after a pass that failed. -/
  retry : Nat
deriving Repr, DecidableEq

inductive Action where
  | awaitChange
  | requeue (seconds : Nat)
deriving Repr, DecidableEq

/-- Fails as `fault` words it when a request came to nothing. -/
def Job.accepted (fault : ApiFault → Fault) : Except ApiFault Unit → Job Unit
  | .ok () => pure ()
  | .error cause => Job.fail (fault cause)

/-- The name of an object that must have one. -/
def Object.nameOf {S D : Type} (o : Object S D) : Except Fault String :=
  match o.metadata.name with
  | some name => .ok name
  | none => .error .unnamedObject

/-- The object with what a sync observed. -/
def Object.recordSync {S D : Type} [Inhabited D] (o : Object S D) (region : Option String)
    (clock : Clock) (synced : Synced S D) : Object S D :=
  let observed := o.observe synced.object
  let observed :=
    match observed.arn, region with
    | some _, some region => observed.withRegion region
    | _, _ => observed
  observed.markSynced clock synced.referenced

namespace Kind

variable (kind : Kind)

def storeStatus (space : String) (o : kind.Object) : Job Unit := do
  let answer ← Plan.request (I := world)
    (Request.patchStatus ⟨kind, space, o.name⟩ (kind.statusPatch o))
  Job.accepted .api answer

def storeFinalizers (space name : String) (fault : ApiFault → Fault) (patch : FinalizerPatch) :
    Job Unit := do
  let answer ← Plan.request (I := world) (Request.patchFinalizers ⟨kind, space, name⟩ patch)
  Job.accepted fault answer

/-- Brings the entity of an object in line, and stores the outcome. A terminal fault waits for a
change of the object; any other fails the pass, whether or not it could be stored. -/
def apply (options : PassOptions) (clock : Clock) (space : String) (o : kind.Object) :
    Job Action := do
  match ← (kind.manager.sync o).attempt with
  | .ok synced =>
    Plan.when synced.created <| Job.info s!"created {kind.name} for {o.name}"
    kind.storeStatus space (o.recordSync options.region clock synced)
    return .requeue options.resync
  | .error fault =>
    if fault.isTerminal then
      Job.warn s!"{kind.name} {o.name} needs attention: {fault.message}"
      kind.storeStatus space (o.markFailed clock fault)
      return .awaitChange
    else
      match ← (kind.storeStatus space (o.markFailed clock fault)).attempt with
      | .ok () => Job.fail fault
      | .error refusal =>
        Job.warn s!"failed to record error on {o.name}: {refusal.message}"
        Job.fail fault

def cleanup (o : kind.Object) : Job Action := do
  kind.manager.remove o
  Job.info s!"cleaned up {kind.name} {o.name}"
  return .awaitChange

def addFinalizer (present : List String) : FinalizerPatch :=
  if present.isEmpty then .start kind.finalizer else .append present kind.finalizer

def pass (options : PassOptions) (clock : Clock) (o : kind.Object) : Job Action := do
  let space ← Plan.ofExcept o.spaceOf
  Job.debug s!"reconciling {kind.name} {space}/{o.name}"
  match o.metadata.finalizers.idxOf? kind.finalizer, o.metadata.deletion with
  | some _, none => (kind.apply options clock space o).mapFault .applyFailed
  | some index, some _ =>
    let name ← Plan.ofExcept o.nameOf
    let action ← (kind.cleanup o).mapFault .cleanupFailed
    kind.storeFinalizers space name .finalizerNotRemoved (.drop index kind.finalizer)
    return action
  | none, none =>
    let name ← Plan.ofExcept o.nameOf
    kind.storeFinalizers space name .finalizerNotAdded (kind.addFinalizer o.metadata.finalizers)
    return .awaitChange
  | none, some _ => return .awaitChange

def afterFault (options : PassOptions) (o : kind.Object) (fault : Fault) : Job Action := do
  Job.warn s!"reconcile of {o.name} failed: {fault.message}"
  return .requeue options.retry

end Kind

end IamKeeper
