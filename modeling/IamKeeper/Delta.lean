import IamKeeper.Entries
import IamKeeper.Fault
import IamKeeper.Text.Split

namespace IamKeeper

structure Delta where
  differences : Table Unit
deriving DecidableEq

namespace Delta

def empty : Delta :=
  ⟨∅⟩

instance : EmptyCollection Delta := ⟨empty⟩

def add (d : Delta) (path : String) : Delta :=
  ⟨d.differences.insert path ()⟩

def addIf (d : Delta) (differs : Bool) (path : String) : Delta :=
  if differs then d.add path else d

def paths (d : Delta) : List String :=
  d.differences.keys

def isEmpty (d : Delta) : Bool :=
  d.differences.isEmpty

/-- Whether `inner` is `outer` or a field below it. -/
def covers (outer inner : String) : Bool :=
  match Text.afterFront? outer.toList inner.toList with
  | none => false
  | some rest => rest.isEmpty || rest.head? = some '.'

def differsAt (d : Delta) (path : String) : Bool :=
  d.paths.any (covers path)

def violations (d : Delta) (immutable : List String) : List String :=
  immutable.filter d.differsAt

def checkImmutable (d : Delta) (immutable : List String) : Except Fault Unit :=
  let changed := d.violations immutable
  if changed.isEmpty then .ok () else .error (.immutableFields changed)

end Delta

end IamKeeper
