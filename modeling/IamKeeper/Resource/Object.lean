import IamKeeper.Condition
import IamKeeper.Identity
import IamKeeper.Resource.Metadata

namespace IamKeeper

open Json (Codec Member Record)

/-- What was observed: the identity of the entity, the conditions, and the details of its kind. -/
structure Status (D : Type) where
  identity : Option Identity
  conditions : List Condition
  detail : D
deriving DecidableEq, Inhabited

/-- An object of a kind with wishes in `S` and details in `D`. -/
structure Object (S D : Type) where
  metadata : Metadata
  spec : S
  status : Option (Status D)
deriving DecidableEq

namespace Status

variable {D : Type}

/-- The members that all kinds share, in front of those of the details. -/
def record (detail : Record D D) : Record (Status D) (Status D) where
  value := id
  members s :=
    (shared.members s) ++ detail.members s.detail
  fromMembers members := do
    let make ← shared.fromMembers members
    let d ← detail.fromMembers members
    return make d
  fromItems items := do
    let (make, items) ← shared.fromItems items
    let (d, items) ← detail.fromItems items
    return (make d, items)
  properties := shared.properties ++ detail.properties
  needed := shared.needed ++ detail.needed
where
  shared : Record (Status D) (D → Status D) :=
    (Record.start Status.mk)
      |>.field (.nullable "ackResourceMetadata" Status.identity Identity.codec)
      |>.field (.defaulted "conditions" Status.conditions (.list Condition.codec) [])

end Status

namespace Object

variable {S D : Type}

def name (o : Object S D) : String :=
  o.metadata.anyName

def conditions (o : Object S D) : List Condition :=
  (o.status.map Status.conditions).getD []

def identity (o : Object S D) : Option Identity :=
  o.status.bind Status.identity

def arn (o : Object S D) : Option String :=
  o.identity.bind Identity.arn

def detail? (o : Object S D) : Option D :=
  o.status.map Status.detail

section

variable [Inhabited D]

def statusOrEmpty (o : Object S D) : Status D :=
  o.status.getD default

def withConditions (o : Object S D) (conditions : List Condition) : Object S D :=
  { o with status := some { o.statusOrEmpty with conditions } }

def withIdentity (o : Object S D) (identity : Identity) : Object S D :=
  { o with status := some { o.statusOrEmpty with identity := some identity } }

def withDetail (o : Object S D) (detail : D) : Object S D :=
  { o with status := some { o.statusOrEmpty with detail } }

def withRegion (o : Object S D) (region : String) : Object S D :=
  o.withIdentity { o.identity.getD default with region := some region }

/-- Takes over what was observed of `other`; the conditions stay. -/
def observe (o other : Object S D) : Object S D :=
  { o with status := other.status }.withConditions o.conditions

end

def statusPatch (o : Object S D) (codec : Codec (Status D)) : Json :=
  .object [("status", codec.nullable.encode o.status)]

/-- An object of a kind, without the name of the kind and of its version. -/
def record (spec : Codec S) (status : Codec (Status D)) : Record (Object S D) (Object S D) :=
  (Record.start Object.mk)
    |>.field (.required "metadata" Object.metadata Metadata.codec)
    |>.field (.required "spec" Object.spec spec)
    |>.field (.optional "status" Object.status status)

end Object

end IamKeeper
