import IamKeeper.Fault
import IamKeeper.Resource.Kind

namespace IamKeeper

structure ObjectPath where
  kind : Kind
  space : String
  name : String
deriving Repr, DecidableEq

def ObjectPath.base : String :=
  s!"/apis/{apiGroup}/{apiVersion}/namespaces"

def ObjectPath.text (p : ObjectPath) : String :=
  s!"{base}/{p.space}/{p.kind.plural}/{p.name}"

def ObjectPath.statusText (p : ObjectPath) : String :=
  p.text ++ "/status"

/-- A change of the finalizers, with what is expected of them before. -/
inductive FinalizerPatch where
  /-- The first finalizer, where there is none. -/
  | start (finalizer : String)
  /-- One more finalizer behind the present ones. -/
  | append (present : List String) (finalizer : String)
  | drop (index : Nat) (finalizer : String)
deriving Repr, DecidableEq

namespace FinalizerPatch

def pointer : String := "/metadata/finalizers"

def step (operation path : String) (value : List (String × Json)) : Json :=
  Json.ofMembers ([("op", .string operation), ("path", .string path)] ++ value)

def body : FinalizerPatch → Json
  | start finalizer =>
    .array [step "test" pointer [("value", .null)],
      step "add" pointer [("value", Json.strings [finalizer])]]
  | append present finalizer =>
    .array [step "test" pointer [("value", Json.strings present)],
      step "add" (pointer ++ "/-") [("value", .string finalizer)]]
  | drop index finalizer =>
    let place := s!"{pointer}/{index}"
    .array [step "test" place [("value", .string finalizer)], step "remove" place []]

def apply : FinalizerPatch → List String → List String
  | start finalizer, _ => [finalizer]
  | append _ finalizer, finalizers => finalizers ++ [finalizer]
  | drop index _, finalizers => finalizers.eraseIdx index

end FinalizerPatch

def isPathChar (c : Char) : Bool :=
  c = '!' || c = '"' || ('$' ≤ c && c ≤ ';') || c = '=' || ('@' ≤ c && c ≤ '_') ||
    ('a' ≤ c && c ≤ '~')

def isQueryChar (c : Char) : Bool :=
  c = '!' || ('$' ≤ c && c ≤ ';') || c = '=' || ('?' ≤ c && c ≤ '~')

/-- Whether a text can follow the path of a target: a query, a fragment, or both. -/
def isTargetEnd : List Char → Bool
  | '?' :: query => (query.takeWhile (· ≠ '#')).all isQueryChar
  | '#' :: _ | [] => true
  | _ => false

/-- The path of a target, unless something else than a query or a fragment follows it. -/
def sentPath? (target : String) : Option String :=
  let path := target.toList.takeWhile isPathChar
  if isTargetEnd (target.toList.drop path.length) then some (String.ofList path) else none

/-- Asks the API server at the path of a target, if it has one. -/
def sendTo {m : Type → Type} [Monad m] {α : Type} (target : String)
    (ask : String → m (Except ApiFault α)) : m (Except ApiFault α) :=
  match sentPath? target with
  | some path => ask path
  | none => pure (.error .unsendable)

/-- Whether the code does not mark an answer as an error. -/
def ApiRefusal.isUnmarked (r : ApiRefusal) : Bool :=
  (100 ≤ r.code && r.code < 400) || (600 ≤ r.code && r.code < 1000)

/-- What a refusal comes to: an unmarked one is taken for an object, and is none. -/
def ApiFault.ofRefusal (r : ApiRefusal) : ApiFault :=
  if r.isUnmarked then .unreadable else .refused r

/-- What the answer to a read tells: an object, that there is none, or a fault. -/
def Kind.readAnswer (kind : Kind) :
    Except ApiRefusal Json → Except ApiFault (Option kind.Object)
  | .ok v =>
    match kind.decode v with
    | some o => .ok (some o)
    | none => .error .unreadable
  | .error refusal =>
    match ApiFault.ofRefusal refusal with
    | .refused refusal =>
      if refusal.reason = "NotFound" then .ok none else .error (.refused refusal)
    | cause => .error cause

end IamKeeper
