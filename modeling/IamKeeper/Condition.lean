import IamKeeper.Json.Codec

namespace IamKeeper

open Time (Instant)
open Json (Codec Member Record)

inductive ConditionType where
  | synced
  | terminal
  | recoverable
  | referencesResolved
deriving Repr, DecidableEq

inductive ConditionStatus where
  | yes
  | no
  | unknown
deriving Repr, DecidableEq

def ConditionType.name : ConditionType → String
  | .synced => "ACK.ResourceSynced"
  | .terminal => "ACK.Terminal"
  | .recoverable => "ACK.Recoverable"
  | .referencesResolved => "ACK.ReferencesResolved"

def ConditionType.all : List ConditionType :=
  [.synced, .terminal, .recoverable, .referencesResolved]

def ConditionType.codec : Codec ConditionType :=
  .choice (all.map fun type => (type.name, type)) name

def ConditionStatus.name : ConditionStatus → String
  | .yes => "True"
  | .no => "False"
  | .unknown => "Unknown"

def ConditionStatus.all : List ConditionStatus :=
  [.yes, .no, .unknown]

def ConditionStatus.codec : Codec ConditionStatus :=
  .choice (all.map fun status => (status.name, status)) name

/-- A statement about an object. `since` is when it came to have its status. -/
structure Condition where
  type : ConditionType
  status : ConditionStatus
  message : Option String
  reason : Option String
  since : Option Instant
deriving DecidableEq

namespace Condition

def codec : Codec Condition :=
  ((Record.start Condition.mk)
    |>.field (.required "type" Condition.type ConditionType.codec)
    |>.field (.required "status" Condition.status ConditionStatus.codec)
    |>.field (.optional "message" Condition.message .string)
    |>.field (.optional "reason" Condition.reason .string)
    |>.field (.optional "lastTransitionTime" Condition.since .instant)).codec

/-- Sets the condition of a type: in its place if there is one, else at the end. The time moves only
when the status changes. -/
def set (now : Instant) (type : ConditionType) (status : ConditionStatus)
    (message reason : Option String) : List Condition → List Condition
  | [] => [⟨type, status, message, reason, some now⟩]
  | c :: rest =>
    if c.type = type then
      ⟨type, status, message, reason, if c.status = status then c.since else some now⟩ :: rest
    else c :: set now type status message reason rest

def remove (type : ConditionType) (conditions : List Condition) : List Condition :=
  conditions.filter fun c => c.type ≠ type

def holds (type : ConditionType) (conditions : List Condition) : Bool :=
  conditions.any fun c => c.type = type && c.status = .yes

end Condition

end IamKeeper
