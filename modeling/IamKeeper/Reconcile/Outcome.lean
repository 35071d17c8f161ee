import IamKeeper.Condition
import IamKeeper.Fault
import IamKeeper.Resource.Object

namespace IamKeeper

open Time (Instant)

/-- What the clock reads when a condition is set. -/
abbrev Clock : Type :=
  ConditionType → Instant

namespace Condition

def setBy (clock : Clock) (type : ConditionType) (status : ConditionStatus)
    (message reason : Option String) : List Condition → List Condition :=
  set (clock type) type status message reason

def afterSync (clock : Clock) (referenced : Bool) (conditions : List Condition) :
    List Condition :=
  (if referenced then setBy clock .referencesResolved .yes none none conditions
    else remove .referencesResolved conditions)
    |> remove .terminal
    |> remove .recoverable
    |> setBy clock .synced .yes none none

def afterFault (clock : Clock) (fault : Fault) (conditions : List Condition) : List Condition :=
  let message := some fault.message
  let conditions :=
    if fault.isReference then setBy clock .referencesResolved .no message none conditions
    else conditions
  let conditions :=
    if fault.isTerminal then
      setBy clock .terminal .yes message none (remove .recoverable conditions)
    else
      setBy clock .recoverable .yes message fault.code? (remove .terminal conditions)
  setBy clock .synced .no none none conditions

end Condition

namespace Object

variable {S D : Type} [Inhabited D]

def markSynced (o : Object S D) (clock : Clock) (referenced : Bool) : Object S D :=
  o.withConditions (Condition.afterSync clock referenced o.conditions)

def markFailed (o : Object S D) (clock : Clock) (fault : Fault) : Object S D :=
  o.withConditions (Condition.afterFault clock fault o.conditions)

end Object

end IamKeeper
