import IamKeeper.Manager.Kinds

namespace IamKeeper

/-- What a sync gives: the object as observed, whether it had references, and whether the entity was
created for it. -/
structure Synced (S D : Type) where
  object : Object S D
  referenced : Bool
  created : Bool

namespace Manager

variable {S D : Type}

/-- Creates the entity of an object, or changes it in the fields that differ. -/
def sync (m : Manager S D) (o : Object S D) : Job (Synced S D) := do
  let ⟨desired, referenced⟩ ← m.resolve o
  match ← m.readOne desired with
  | none =>
    let observed ← m.create desired
    return ⟨observed, referenced, true⟩
  | some latest =>
    let desired := { desired with spec := m.lateInitialize desired.spec latest.spec }
    let delta := m.delta desired.spec latest.spec
    if delta.isEmpty then
      Job.debug s!"{o.name} is in sync"
      return ⟨latest, referenced, false⟩
    else
      let observed ← m.update desired latest delta
      return ⟨observed, referenced, false⟩

def remove (m : Manager S D) (o : Object S D) : Job Unit := do
  match ← m.readOne o with
  | some latest => m.delete latest
  | none => Job.debug s!"{o.name} is already gone from IAM"

end Manager

end IamKeeper
