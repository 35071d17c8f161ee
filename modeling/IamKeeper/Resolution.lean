import IamKeeper.Job

namespace IamKeeper

open Job (fail)

namespace Reference

/-- The namespace and name that a reference leads to; `space` is the one of the referencing object. -/
def locate (r : Reference) (space field : String) : Except Fault (String × String) :=
  match r.target with
  | none => .error (.emptyReference field)
  | some target =>
    match target.name.filter (!·.isEmpty) with
    | none => .error (.emptyReference field)
    | some name => .ok ((target.space.filter (!·.isEmpty)).getD space, name)

/-- The object that a reference leads to, if it can be used. -/
def usable {S D : Type} (referent : Referent) : Option (Object S D) → Except Fault (Object S D)
  | none => .error (.referentMissing referent)
  | some o =>
    if Condition.holds .terminal o.conditions then .error (.referentTerminal referent)
    else if Condition.holds .synced o.conditions then .ok o
    else .error (.referentNotSynced referent)

/-- The value of a field of the object that a reference leads to; an empty one is none. -/
def present (referent : Referent) (field : String) (value : Option String) :
    Except Fault String :=
  match value.filter (!·.isEmpty) with
  | some value => .ok value
  | none => .error (.referentLacks referent field)

def policyArn (r : Reference) (space field : String) : Job String := do
  let (space, name) ← Plan.ofExcept (r.locate space field)
  let found ← Job.policy space name
  let referent : Referent := ⟨"Policy", space, name⟩
  let policy ← Plan.ofExcept (usable referent found)
  Plan.ofExcept (present referent "Status.ACKResourceMetadata.ARN" policy.arn)

def roleName (r : Reference) (space field : String) : Job String := do
  let (space, name) ← Plan.ofExcept (r.locate space field)
  let found ← Job.role space name
  let referent : Referent := ⟨"Role", space, name⟩
  let role ← Plan.ofExcept (usable referent found)
  Plan.ofExcept (present referent "Spec.Name" (some role.spec.name))

end Reference

/-- Refuses a field that is given together with the reference for it. -/
def checkExclusive (given referenced : Bool) (field reference : String) : Except Fault Unit :=
  if given && referenced then .error (.fieldAndReference field reference) else .ok ()

def Object.spaceOf {S D : Type} (o : Object S D) : Except Fault String :=
  match o.metadata.space with
  | some space => .ok space
  | none => .error (.noNamespace o.name)

/-- An object with the values of its references filled in, and whether it had any. -/
structure Resolved (S D : Type) where
  object : Object S D
  referenced : Bool

namespace Resolution

/-- The boundary of an object, taken from the reference if there is one. -/
def boundary (space : String) (given : Option String) : Option Reference → Job (Option String)
  | none => pure given
  | some r => do
    let arn ← r.policyArn space "PermissionsBoundaryRef"
    return some arn

/-- The policies of an object, taken from the references if there are any. -/
def policies (space : String) (given : List String) (refs : List Reference) : Job (List String) :=
  if refs.isEmpty then pure given
  else Plan.collect (fun r => r.policyArn space "PolicyRefs") refs

def checkBoundary (given : Option String) (ref : Option Reference) : Except Fault Unit :=
  checkExclusive given.isSome ref.isSome "PermissionsBoundary" "PermissionsBoundaryRef"

def checkPolicies (given : List String) (refs : List Reference) : Except Fault Unit :=
  checkExclusive (!given.isEmpty) (!refs.isEmpty) "Policies" "PolicyRefs"

/-- An object of a kind without references. -/
def none {S D : Type} (o : Object S D) : Job (Resolved S D) :=
  pure ⟨o, false⟩

end Resolution

def RoleSpec.resolve (o : Object RoleSpec RoleDetail) : Job (Resolved RoleSpec RoleDetail) := do
  let spec := o.spec
  Plan.ofExcept (Resolution.checkBoundary spec.boundary spec.boundaryRef)
  Plan.ofExcept (Resolution.checkPolicies spec.policies spec.policyRefs)
  if spec.boundaryRef.isNone && spec.policyRefs.isEmpty then Resolution.none o
  else
    let space ← Plan.ofExcept o.spaceOf
    let boundary ← Resolution.boundary space spec.boundary spec.boundaryRef
    let policies ← Resolution.policies space spec.policies spec.policyRefs
    return ⟨{ o with spec := { spec with boundary, policies } }, true⟩

def UserSpec.resolve (o : Object UserSpec UserDetail) : Job (Resolved UserSpec UserDetail) := do
  let spec := o.spec
  Plan.ofExcept (Resolution.checkBoundary spec.boundary spec.boundaryRef)
  Plan.ofExcept (Resolution.checkPolicies spec.policies spec.policyRefs)
  if spec.boundaryRef.isNone && spec.policyRefs.isEmpty then Resolution.none o
  else
    let space ← Plan.ofExcept o.spaceOf
    let boundary ← Resolution.boundary space spec.boundary spec.boundaryRef
    let policies ← Resolution.policies space spec.policies spec.policyRefs
    return ⟨{ o with spec := { spec with boundary, policies } }, true⟩

def GroupSpec.resolve (o : Object GroupSpec GroupDetail) :
    Job (Resolved GroupSpec GroupDetail) := do
  let spec := o.spec
  Plan.ofExcept (Resolution.checkPolicies spec.policies spec.policyRefs)
  if spec.policyRefs.isEmpty then Resolution.none o
  else
    let space ← Plan.ofExcept o.spaceOf
    let policies ← Resolution.policies space spec.policies spec.policyRefs
    return ⟨{ o with spec := { spec with policies } }, true⟩

def InstanceProfileSpec.resolve (o : Object InstanceProfileSpec InstanceProfileDetail) :
    Job (Resolved InstanceProfileSpec InstanceProfileDetail) := do
  let spec := o.spec
  Plan.ofExcept (checkExclusive spec.role.isSome spec.roleRef.isSome "Role" "RoleRef")
  match spec.roleRef with
  | none => Resolution.none o
  | some ref =>
    let space ← Plan.ofExcept o.spaceOf
    let role ← ref.roleName space "RoleRef"
    return ⟨{ o with spec := { spec with role := some role } }, true⟩

end IamKeeper
