import IamKeeper.Delta
import IamKeeper.Resolution

namespace IamKeeper

/-- The manager of the objects with wishes in `S` and details in `D`. An object that a manager gives
is a copy of the desired one: what it asks for is what IAM reports, and its status holds what was
observed. -/
structure Manager (S D : Type) where
  resolve : Object S D → Job (Resolved S D)
  /-- Fills in what the user left open by what the entity has. -/
  lateInitialize : (desired latest : S) → S
  /-- The fields in which two specs differ. -/
  delta : (desired latest : S) → Delta
  immutable : List String
  /-- Reads the entity; none when there is no such entity. -/
  readOne : Object S D → Job (Option (Object S D))
  create : Object S D → Job (Object S D)
  /-- Changes the fields of a delta that are not immutable. -/
  change : (desired latest : Object S D) → Delta → Job (Object S D)
  delete : Object S D → Job Unit

namespace Manager

variable {S D : Type}

/-- Changes the fields of a delta; a delta with an immutable path is refused before any call. -/
def update (m : Manager S D) (desired latest : Object S D) (delta : Delta) : Job (Object S D) := do
  Plan.ofExcept (delta.checkImmutable m.immutable)
  m.change desired latest delta

def keepDesired (desired _latest : S) : S :=
  desired

def noteUpdate (what : String) (delta : Delta) : Job Unit :=
  Job.info s!"updated {what}: {Text.quotedList delta.paths}"

def whenDiffers (delta : Delta) (path : String) (step : Job Unit) : Job Unit :=
  Plan.when (delta.differsAt path) step

end Manager

def defaultPath : String := "/"

end IamKeeper
