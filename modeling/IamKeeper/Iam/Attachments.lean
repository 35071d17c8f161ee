import IamKeeper.Document
import IamKeeper.Job

namespace IamKeeper.Iam

open Job (iam debug)

/-- The members of `a` that are not in `b`, each once, in order. -/
def difference (a b : List String) : List String :=
  (distinct a).filter fun item => !b.contains item

/-- The same members, in whatever order and number. -/
def sameMembers (a b : List String) : Bool :=
  distinct a = distinct b

def attach (principal : Principal) (arn : String) : Job Unit := do
  debug s!"attaching policy {arn} to {principal.text}"
  iam (.attach principal arn)

def detach (principal : Principal) (arn : String) : Job Unit := do
  debug s!"detaching policy {arn} from {principal.text}"
  iam (.detach principal arn)

/-- Attaches the policies that are only desired, then detaches those that are only there. -/
def syncAttached (principal : Principal) (desired latest : List String) : Job Unit := do
  Plan.forEach (attach principal) (difference desired latest)
  Plan.forEach (detach principal) (difference latest desired)

def readInline (principal : Principal) (name : String) : Job (String × String) := do
  let encoded ← iam (.getInline principal name)
  let document ← Plan.ofExcept (Document.decode encoded)
  return (name, document)

def inlinePolicies (principal : Principal) : Job (Table String) := do
  let names ← iam (.listInline principal)
  let documents ← Plan.collect (readInline principal) names
  return Table.ofList documents

def putInline (principal : Principal) (name document : String) : Job Unit := do
  debug s!"putting inline policy {name} on {principal.text}"
  iam (.putInline principal name document)

def deleteInline (principal : Principal) (name : String) : Job Unit := do
  debug s!"deleting inline policy {name} from {principal.text}"
  iam (.deleteInline principal name)

/-- Whether the document under a name in `latest` grants what `document` does. -/
def isCurrent (latest : Table String) (name document : String) : Bool :=
  match latest.get? name with
  | some current => Document.equivalent current document
  | none => false

/-- The desired inline policies that are not there yet, or with another meaning. -/
def staleInline (desired latest : Table String) : List (String × String) :=
  desired.entries.filter fun entry => !isCurrent latest entry.1 entry.2

def obsoleteInline (desired latest : Table String) : List String :=
  latest.keys.filter fun name => !desired.contains name

/-- Puts every inline policy that is new or has changed, then deletes those no longer desired. -/
def syncInline (principal : Principal) (desired latest : Table String) : Job Unit := do
  Plan.forEach (fun entry => putInline principal entry.1 entry.2) (staleInline desired latest)
  Plan.forEach (deleteInline principal) (obsoleteInline desired latest)

/-- The same names, with documents of the same meaning. -/
def sameInline (a b : Table String) : Bool :=
  a.size = b.size && a.entries.all fun entry =>
    match b.get? entry.1 with
    | some other => Document.equivalent entry.2 other
    | none => false

/-- A text that is there and not empty. -/
def given (text : Option String) : Option String :=
  text.filter fun s => !s.isEmpty

/-- The same text, where an empty one counts as absent. -/
def sameGiven (a b : Option String) : Bool :=
  a.getD "" = b.getD ""

/-- Sets the permissions boundary, or removes it when none is desired. -/
def syncBoundary (principal : Principal) (desired latest : Option String) : Job Unit :=
  match given desired, given latest with
  | none, none => pure ()
  | none, some _ => do
    debug s!"deleting permissions boundary of {principal.text}"
    iam (.deleteBoundary principal)
  | some desired, latest =>
    if latest = some desired then pure ()
    else do
      debug s!"setting permissions boundary of {principal.text} to {desired}"
      iam (.putBoundary principal desired)

/-- Detaches every policy and deletes every inline policy, so that the principal can be deleted. -/
def removeAllPolicies (principal : Principal) : Job Unit := do
  let arns ← iam (.listAttached principal)
  Plan.forEach (detach principal) arns
  let names ← iam (.listInline principal)
  Plan.forEach (deleteInline principal) names

end IamKeeper.Iam
