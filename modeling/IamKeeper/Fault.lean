import IamKeeper.Text.Quoted
import IamKeeper.Text.Utf8

namespace IamKeeper

structure ApiRefusal where
  code : Nat
  reason : String
  message : String
deriving Repr, DecidableEq

/-- The wording of a refusal; the answer of the server follows it in full. -/
def ApiRefusal.text (r : ApiRefusal) : String :=
  s!"ApiError: {r.message}: {r.reason} (ErrorResponse \x7b status: \"Failure\", message: " ++
    Text.quoted r.message ++ ", reason: " ++ Text.quoted r.reason ++
    s!", code: {r.code} \x7d)"

/-- Why a request to the API server came to nothing. -/
inductive ApiFault where
  | refused (refusal : ApiRefusal)
  /-- The answer is no object of the kind asked for. -/
  | unreadable
  /-- The request is not sent, because its target is no path. -/
  | unsendable
deriving Repr, DecidableEq

def ApiFault.text : ApiFault → String
  | refused refusal => refusal.text
  | unreadable => "Error deserializing response"
  | unsendable => "Failed to build request: failed to build request: invalid uri character"

/-- The object that a reference points at, as it is called in messages. -/
structure Referent where
  kind : String
  space : String
  name : String
deriving Repr, DecidableEq

def Referent.text (r : Referent) : String :=
  s!"referenced {r.kind} {r.space}/{r.name}"

inductive Fault where
  /-- A request to the API server came to nothing. -/
  | api (cause : ApiFault)
  | iam (operation : String) (code : Option String) (message : String)
  /-- The answer to an IAM operation lacks its result. -/
  | missingResult (operation result : String)
  | immutableFields (fields : List String)
  /-- Only the user can help, for a reason told in words. -/
  | terminal (message : String)
  /-- A field and the reference for it are both given. -/
  | fieldAndReference (field reference : String)
  | emptyReference (field : String)
  | referentMissing (referent : Referent)
  | referentNotSynced (referent : Referent)
  | referentTerminal (referent : Referent)
  | referentLacks (referent : Referent) (field : String)
  /-- The object of this name belongs to no namespace. -/
  | noNamespace (name : String)
  /-- A document of IAM is not a text. -/
  | undecodable (defect : Text.Utf8.Defect)
  /-- What should be an object is none. -/
  | malformedObject
  | applyFailed (cause : Fault)
  | cleanupFailed (cause : Fault)
  | finalizerNotAdded (cause : ApiFault)
  | finalizerNotRemoved (cause : ApiFault)
  | unnamedObject
deriving Repr, DecidableEq

namespace Fault

def message : Fault → String
  | api cause => "Kube error: " ++ cause.text
  | iam operation _ message => s!"IAM {operation} failed: {message}"
  | missingResult operation result => s!"IAM {operation} response is missing {result}"
  | immutableFields fields =>
    "Immutable Spec fields have been modified: " ++ ",".intercalate fields
  | terminal message => message
  | fieldAndReference field reference =>
    s!"{field} and {reference} are mutually exclusive, supply only one of them"
  | emptyReference field => s!"provided resource reference is nil or empty: {field}"
  | referentMissing referent => referent.text ++ " does not exist"
  | referentNotSynced referent => referent.text ++ " is not yet synced"
  | referentTerminal referent => referent.text ++ " has a terminal condition"
  | referentLacks referent field => referent.text ++ s!" has no value for {field}"
  | noNamespace name => s!"object {name} has no namespace"
  | undecodable defect => "Policy document decode error: " ++ defect.message
  | malformedObject => "Serialization error"
  | applyFailed cause => "Finalizer error: failed to apply object: " ++ cause.message
  | cleanupFailed cause => "Finalizer error: failed to clean up object: " ++ cause.message
  | finalizerNotAdded cause => "Finalizer error: failed to add finalizer: " ++ cause.text
  | finalizerNotRemoved cause => "Finalizer error: failed to remove finalizer: " ++ cause.text
  | unnamedObject => "Finalizer error: object has no name"

/-- The codes of IAM that no other try will mend. -/
def terminalCodes : List String :=
  ["ValidationError", "MalformedPolicyDocument", "InvalidInput", "EntityAlreadyExists",
    "LimitExceeded"]

/-- Whether only a change of the object can help. -/
def isTerminal : Fault → Bool
  | immutableFields _ | terminal _ | fieldAndReference _ _ | referentTerminal _ => true
  | iam _ (some code) _ => terminalCodes.contains code
  | _ => false

def code? : Fault → Option String
  | iam _ code _ => code
  | _ => none

def isNotFound (fault : Fault) : Bool :=
  fault.code? = some "NoSuchEntity"

def isReference : Fault → Bool
  | fieldAndReference _ _ | emptyReference _ | referentMissing _ | referentNotSynced _
  | referentTerminal _ | referentLacks _ _ => true
  | _ => false

end Fault

end IamKeeper
