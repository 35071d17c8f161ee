import IamKeeper.Reconcile.Pass
import IamKeeper.Text.Digits
import IamKeeper.Text.Split

namespace IamKeeper

inductive Flag where
  | watchNamespace
  | awsRegion
  | kubeContext
  | resyncPeriod
  | errorRequeue
deriving Repr, DecidableEq

namespace Flag

def all : List Flag :=
  [watchNamespace, awsRegion, kubeContext, resyncPeriod, errorRequeue]

def name : Flag → String
  | watchNamespace => "watch-namespace"
  | awsRegion => "aws-region"
  | kubeContext => "kube-context"
  | resyncPeriod => "resync-period-seconds"
  | errorRequeue => "error-requeue-seconds"

def variableName : Flag → String
  | watchNamespace => "WATCH_NAMESPACE"
  | awsRegion => "AWS_REGION"
  | kubeContext => "KUBE_CTX"
  | resyncPeriod => "RESYNC_PERIOD_SECONDS"
  | errorRequeue => "ERROR_REQUEUE_SECONDS"

def isPeriod : Flag → Bool
  | resyncPeriod | errorRequeue => true
  | _ => false

end Flag

inductive UsageStop where
  | help
  | version
  | unknownArgument (argument : String)
  | missingValue (flag : Flag)
  | badPeriod (flag : Flag) (text : String)
  | repeated (flag : Flag)
  /-- A value for a flag that takes none. -/
  | unwantedValue (argument : String)
deriving Repr, DecidableEq

def UsageStop.message : UsageStop → String
  | help =>
    "Reconciles IAM custom resources against AWS IAM\n\nOptions:\n" ++
      String.join (Flag.all.map fun flag => s!"  --{flag.name} <value>\n") ++ "  --help\n  --version"
  | version => "0.1.0"
  | unknownArgument argument => s!"unexpected argument {argument}"
  | missingValue flag => s!"a value is required for --{flag.name}"
  | badPeriod flag text => s!"invalid value {text} for --{flag.name}"
  | repeated flag => s!"--{flag.name} cannot be used multiple times"
  | unwantedValue argument => s!"unexpected value in {argument}"

/-- Whether the user got what was asked for. -/
def UsageStop.isRequest : UsageStop → Bool
  | help | version => true
  | _ => false

structure Settings where
  /-- The namespace whose objects are watched; all when there is none. -/
  watched : Option String
  region : Option String
  context : Option String
  resync : Nat
  retry : Nat
deriving Repr, DecidableEq

namespace Settings

/-- What an argument is on its own. -/
inductive Argument where
  | flag (flag : Flag) (value : Option String)
  | help
  | version
  | unwantedValue
  | unknown
  | lastFlag
  | value
deriving Repr, DecidableEq

/-- Reads a name behind two dashes with what follows an equals sign. -/
def Argument.ofLong (name : String) (attached : Option String) : Argument :=
  match Flag.all.find? (·.name = name) with
  | some known => flag known attached
  | none =>
    if name = "help" then if attached.isSome then unwantedValue else help
    else if name = "version" then if attached.isSome then unwantedValue else version
    else unknown

def Argument.of (text : String) : Argument :=
  match text.toList with
  | ['-', '-'] => lastFlag
  | '-' :: '-' :: body =>
    match Text.splitAt '=' body with
    | [] | [_] => ofLong (String.ofList body) none
    | name :: _ :: _ =>
      ofLong (String.ofList name) (some (String.ofList (body.drop (name.length + 1))))
  | '-' :: c :: _ => if c = 'h' then help else if c = 'V' then version else unknown
  | _ => value

/-- A number of seconds below `2 ^ 64`. -/
def period? (text : String) : Option Nat :=
  (Text.natural? text.toList).filter (· < UInt64.size)

/-- The flags that were read, and the one that may still get its value. -/
structure Progress where
  given : List (Flag × String)
  pending : Option (Flag × Option String)
deriving Repr, DecidableEq

def Progress.value? (p : Progress) (flag : Flag) : Option String :=
  p.given.lookup flag

def checkValue (flag : Flag) (value : String) : Except UsageStop Unit :=
  if flag.isPeriod && (period? value).isNone then .error (.badPeriod flag value) else .ok ()

def Progress.give (p : Progress) (flag : Flag) (value : String) : Except UsageStop Progress :=
  if (p.value? flag).isSome then .error (.repeated flag)
  else (checkValue flag value).map fun _ => { p with given := (flag, value) :: p.given }

def Progress.settle (p : Progress) : Except UsageStop Progress :=
  match p.pending with
  | none => .ok p
  | some (flag, none) => .error (.missingValue flag)
  | some (flag, some value) => ({ p with pending := none }).give flag value

/-- Reads arguments. An unknown argument counts before a fault in the flag in front of it. -/
def readArguments : Progress → List String → Except UsageStop Progress
  | p, [] => p.settle
  | p, text :: rest =>
    match Argument.of text with
    | .flag flag none => do
      let p ← p.settle
      readArguments { p with pending := some (flag, none) } rest
    | .flag flag (some value) => do
      let p ← p.settle
      let p ← p.give flag value
      readArguments p rest
    | .help => do
      let _ ← p.settle
      .error .help
    | .version => do
      let _ ← p.settle
      .error .version
    | .unwantedValue => .error (.unwantedValue text)
    | .unknown => .error (.unknownArgument text)
    | .lastFlag =>
      match rest with
      | [] => p.settle
      | next :: _ => .error (.unknownArgument next)
    | .value =>
      match p.pending with
      | some (flag, none) =>
        readArguments { p with pending := some (flag, some text) } rest
      | _ => .error (.unknownArgument text)

/-- The value of a flag: what was given, else what its variable holds. -/
def valueOf (p : Progress) (environment : String → Option String) (flag : Flag) :
    Except UsageStop (Option String) :=
  match p.value? flag with
  | some value => .ok (some value)
  | none =>
    match environment flag.variableName with
    | some value => (checkValue flag value).map fun _ => some value
    | none => .ok none

def periodOf (value : Option String) (default : Nat) : Nat :=
  (value.bind period?).getD default

def read (arguments : List String) (environment : String → Option String) :
    Except UsageStop Settings := do
  let p ← readArguments ⟨[], none⟩ arguments
  let watched ← valueOf p environment .watchNamespace
  let region ← valueOf p environment .awsRegion
  let context ← valueOf p environment .kubeContext
  let resync ← valueOf p environment .resyncPeriod
  let retry ← valueOf p environment .errorRequeue
  return ⟨watched, region, context, periodOf resync 600, periodOf retry 15⟩

def summary (s : Settings) : String :=
  "watching " ++ s.watched.getD "all namespaces" ++ " in region " ++ s.region.getD "<unset>"

def passOptions (s : Settings) : PassOptions :=
  ⟨s.region, s.resync, s.retry⟩

end Settings

end IamKeeper
