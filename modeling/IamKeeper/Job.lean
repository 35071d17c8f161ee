import IamKeeper.Cluster
import IamKeeper.Iam.Call
import IamKeeper.Plan

namespace IamKeeper

inductive Level where
  | debug
  | info
  | warning
deriving Repr, DecidableEq

inductive Request where
  | iam (call : Iam.Call)
  | policy (space name : String)
  | role (space name : String)
  | patchStatus (path : ObjectPath) (patch : Json)
  | patchFinalizers (path : ObjectPath) (patch : FinalizerPatch)
  | note (level : Level) (text : String)
deriving DecidableEq

@[reducible]
def Request.Answer : Request → Type
  | iam call => Except Fault call.Result
  | policy _ _ => Except Fault (Option PolicyObject)
  | role _ _ => Except Fault (Option RoleObject)
  | patchStatus _ _ => Except ApiFault Unit
  | patchFinalizers _ _ => Except ApiFault Unit
  | note _ _ => Unit

def world : Interface :=
  ⟨Request, Request.Answer⟩

abbrev Job (α : Type) : Type :=
  Plan world Fault α

namespace Job

def iam (call : Iam.Call) : Job call.Result :=
  .ask (Request.iam call) .done

/-- Looks up a policy object; none when there is no such object. -/
def policy (space name : String) : Job (Option PolicyObject) :=
  .ask (Request.policy space name) .done

/-- Looks up a role object; none when there is no such object. -/
def role (space name : String) : Job (Option RoleObject) :=
  .ask (Request.role space name) .done

def note (level : Level) (text : String) : Job Unit :=
  .ask (Request.note level text) fun _ => .done (.ok ())

def debug (text : String) : Job Unit :=
  note .debug text

def info (text : String) : Job Unit :=
  note .info text

def warn (text : String) : Job Unit :=
  note .warning text

def fail {α : Type} (fault : Fault) : Job α :=
  .done (.error fault)

end Job

end IamKeeper
