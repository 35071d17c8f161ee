import IamKeeper.Manager.Kinds
import IamKeeper.Proofs.Run

namespace IamKeeper

open Plan hiding bind_assoc

/-- Whatever answers requests. What it answers may depend on the requests before. -/
abbrev Oracle : Type :=
  List Request → (r : Request) → r.Answer

def Oracle.handle (oracle : Oracle) (r : Request) : StateM (List Request) r.Answer :=
  fun past => (oracle past r, past ++ [r])

/-- What a job comes to with an oracle that has been asked `past`, and all that the oracle has been asked then. -/
def Job.toldBy {α : Type} (p : Job α) (oracle : Oracle) (past : List Request) :
    Except Fault α × List Request :=
  p.run oracle.handle past

/-- What is taken from the object that a reference leads to. -/
inductive Wanted where
  | policyArn
  | roleName
deriving Repr, DecidableEq

/-- What a lookup tells of an object: its conditions, and what is wanted from it. -/
structure Finding where
  conditions : List Condition
  value : Option String

namespace Wanted

def request : Wanted → String → String → Request
  | policyArn => .policy
  | roleName => .role

def kindName : Wanted → String
  | policyArn => "Policy"
  | roleName => "Role"

/-- Where the value stands in the object. -/
def source : Wanted → String
  | policyArn => "Status.ACKResourceMetadata.ARN"
  | roleName => "Spec.Name"

def look (wanted : Wanted) (place : String × String) : Job (Option Finding) :=
  match wanted with
  | policyArn => do
    let found ← Job.policy place.1 place.2
    return found.map fun o => ⟨o.conditions, o.arn⟩
  | roleName => do
    let found ← Job.role place.1 place.2
    return found.map fun o => ⟨o.conditions, some o.spec.name⟩

end Wanted

/-- A reference of an object, and the field that it stands in. -/
structure Pointer where
  wanted : Wanted
  reference : Reference
  field : String
deriving Repr, DecidableEq

namespace Pointer

/-- The namespace and name that a reference leads to, if it names anything. -/
def place? (p : Pointer) (space : String) : Option (String × String) := do
  let target ← p.reference.target
  let name ← target.name
  if name = "" then none
  else
    match target.space with
    | none => some (space, name)
    | some own => some (if own = "" then space else own, name)

def lookup? (p : Pointer) (space : String) : Option Request :=
  (p.place? space).map fun place => p.wanted.request place.1 place.2

def lookups (space : String) (pointers : List Pointer) : List Request :=
  pointers.flatMap fun p => (p.lookup? space).toList

def take (p : Pointer) (space : String) : Job String :=
  match p.wanted with
  | .policyArn => p.reference.policyArn space p.field
  | .roleName => p.reference.roleName space p.field

def boundary (ref : Option Reference) : List Pointer :=
  ref.toList.map (⟨.policyArn, ·, "PermissionsBoundaryRef"⟩)

def policies (refs : List Reference) : List Pointer :=
  refs.map (⟨.policyArn, ·, "PolicyRefs"⟩)

def role (ref : Option Reference) : List Pointer :=
  ref.toList.map (⟨.roleName, ·, "RoleRef"⟩)

end Pointer

def conflict (given referenced : Bool) (field reference : String) : List (String × String) :=
  if given && referenced then [(field, reference)] else []

namespace Kind

/-- The references of an object, in the order in which they are looked up. -/
def pointers : (kind : Kind) → kind.Spec → List Pointer
  | role, spec => Pointer.boundary spec.boundaryRef ++ Pointer.policies spec.policyRefs
  | user, spec => Pointer.boundary spec.boundaryRef ++ Pointer.policies spec.policyRefs
  | group, spec => Pointer.policies spec.policyRefs
  | instanceProfile, spec => Pointer.role spec.roleRef
  | policy, _ | oidcProvider, _ | samlProvider, _ | serviceLinkedRole, _ => []

/-- The fields of an object that are given together with the reference for them. -/
def conflicts : (kind : Kind) → kind.Spec → List (String × String)
  | role, spec =>
    conflict spec.boundary.isSome spec.boundaryRef.isSome "PermissionsBoundary"
        "PermissionsBoundaryRef" ++
      conflict (!spec.policies.isEmpty) (!spec.policyRefs.isEmpty) "Policies" "PolicyRefs"
  | user, spec =>
    conflict spec.boundary.isSome spec.boundaryRef.isSome "PermissionsBoundary"
        "PermissionsBoundaryRef" ++
      conflict (!spec.policies.isEmpty) (!spec.policyRefs.isEmpty) "Policies" "PolicyRefs"
  | group, spec => conflict (!spec.policies.isEmpty) (!spec.policyRefs.isEmpty) "Policies" "PolicyRefs"
  | instanceProfile, spec => conflict spec.role.isSome spec.roleRef.isSome "Role" "RoleRef"
  | policy, _ | oidcProvider, _ | samlProvider, _ | serviceLinkedRole, _ => []

def filledField (given : Option String) (ref : Option Reference) (values : List String) : Option String :=
  if ref.isSome then values.head? else given

def filledList (given : List String) (refs : List Reference) (values : List String) : List String :=
  if refs.isEmpty then given else values

/-- A spec with the values of its references, which come in the order of the references. -/
def filled : (kind : Kind) → kind.Spec → List String → kind.Spec
  | role, spec, values =>
    { spec with
      boundary := filledField spec.boundary spec.boundaryRef values
      policies := filledList spec.policies spec.policyRefs (values.drop spec.boundaryRef.toList.length) }
  | user, spec, values =>
    { spec with
      boundary := filledField spec.boundary spec.boundaryRef values
      policies := filledList spec.policies spec.policyRefs (values.drop spec.boundaryRef.toList.length) }
  | group, spec, values => { spec with policies := filledList spec.policies spec.policyRefs values }
  | instanceProfile, spec, values => { spec with role := filledField spec.role spec.roleRef values }
  | policy, spec, _ => spec
  | oidcProvider, spec, _ => spec
  | samlProvider, spec, _ => spec
  | serviceLinkedRole, spec, _ => spec

end Kind

namespace Oracle

variable (oracle : Oracle) (past : List Request) (space : String)

def find (wanted : Wanted) (place : String × String) : Except Fault (Option Finding) :=
  match wanted with
  | .policyArn =>
    (oracle past (.policy place.1 place.2)).map (·.map fun o => ⟨o.conditions, o.arn⟩)
  | .roleName =>
    (oracle past (.role place.1 place.2)).map (·.map fun o => ⟨o.conditions, some o.spec.name⟩)

/-- A reference leads to a value: that of an object which is in sync and not stuck. -/
def Leads (p : Pointer) (value : String) : Prop :=
  ∃ place finding, p.place? space = some place ∧ oracle.find past p.wanted place = .ok (some finding) ∧
    Condition.holds .terminal finding.conditions = false ∧
    Condition.holds .synced finding.conditions = true ∧ finding.value = some value ∧ value ≠ ""

/-- Why a reference leads to no value. -/
inductive Fails (p : Pointer) : Fault → Prop
  | nameless (nowhere : p.place? space = none) : Fails p (.emptyReference p.field)
  | unread {place : String × String} {fault : Fault} (somewhere : p.place? space = some place)
      (answer : oracle.find past p.wanted place = .error fault) : Fails p fault
  | missing {place : String × String} (somewhere : p.place? space = some place)
      (answer : oracle.find past p.wanted place = .ok none) :
      Fails p (.referentMissing ⟨p.wanted.kindName, place.1, place.2⟩)
  | terminal {place : String × String} {finding : Finding} (somewhere : p.place? space = some place)
      (answer : oracle.find past p.wanted place = .ok (some finding))
      (stuck : Condition.holds .terminal finding.conditions = true) :
      Fails p (.referentTerminal ⟨p.wanted.kindName, place.1, place.2⟩)
  | notSynced {place : String × String} {finding : Finding} (somewhere : p.place? space = some place)
      (answer : oracle.find past p.wanted place = .ok (some finding))
      (free : Condition.holds .terminal finding.conditions = false)
      (behind : Condition.holds .synced finding.conditions = false) :
      Fails p (.referentNotSynced ⟨p.wanted.kindName, place.1, place.2⟩)
  | lacks {place : String × String} {finding : Finding} (somewhere : p.place? space = some place)
      (answer : oracle.find past p.wanted place = .ok (some finding))
      (free : Condition.holds .terminal finding.conditions = false)
      (current : Condition.holds .synced finding.conditions = true)
      (empty : ∀ value, finding.value = some value → value = "") :
      Fails p (.referentLacks ⟨p.wanted.kindName, place.1, place.2⟩ p.wanted.source)

/-- References that lead to values one after the other, each looked up after the ones before it. -/
def LeadsAll (past : List Request) : List Pointer → List String → Prop
  | [], [] => True
  | p :: ps, value :: values =>
    oracle.Leads past space p value ∧ LeadsAll (past ++ (p.lookup? space).toList) ps values
  | _, _ => False

variable {kind : Kind} (o : kind.Object)

/-- The references of an object lead to values; where there is one, the object has a namespace. -/
def Meets (values : List String) : Prop :=
  (kind.pointers o.spec ≠ [] → o.metadata.space.isSome = true) ∧
    oracle.LeadsAll (o.metadata.space.getD "") [] (kind.pointers o.spec) values

/-- How the references of an object are resolved: with which outcome, and after which lookups. -/
inductive Course : Except Fault (Resolved kind.Spec kind.Detail) → List Request → Prop
  | conflict {field reference : String} {more : List (String × String)}
      (both : kind.conflicts o.spec = (field, reference) :: more) :
      Course (.error (.fieldAndReference field reference)) []
  | homeless (exclusive : kind.conflicts o.spec = []) (refers : kind.pointers o.spec ≠ [])
      (nowhere : o.metadata.space = none) : Course (.error (.noNamespace o.name)) []
  | broken {space : String} {front rest : List Pointer} {p : Pointer} {values : List String}
      {fault : Fault} (exclusive : kind.conflicts o.spec = []) (home : o.metadata.space = some space)
      (parts : kind.pointers o.spec = front ++ p :: rest)
      (leads : oracle.LeadsAll space [] front values)
      (fails : oracle.Fails (Pointer.lookups space front) space p fault) :
      Course (.error fault) (Pointer.lookups space (front ++ [p]))
  | whole {values : List String} (exclusive : kind.conflicts o.spec = [])
      (meets : oracle.Meets o values) :
      Course (.ok ⟨{ o with spec := kind.filled o.spec values }, !(kind.pointers o.spec).isEmpty⟩)
        (Pointer.lookups (o.metadata.space.getD "") (kind.pointers o.spec))

end Oracle

namespace Job

variable {α β : Type} {oracle : Oracle} {past : List Request}

theorem toldBy_bind (p : Job α) (f : α → Job β) :
    (p >>= f).toldBy oracle past =
      match p.toldBy oracle past with
      | (.ok value, later) => (f value).toldBy oracle later
      | (.error fault, later) => (.error fault, later) := by
  induction p generalizing past with
  | done outcome => cases outcome <;> rfl
  | ask r next ih => exact ih (oracle past r)

@[simp]
theorem toldBy_pure (value : α) : (pure value : Job α).toldBy oracle past = (.ok value, past) := rfl

@[simp]
theorem toldBy_fail (fault : Fault) :
    (fail fault : Job α).toldBy oracle past = (.error fault, past) := rfl

theorem toldBy_policy (space name : String) :
    (policy space name).toldBy oracle past =
      (oracle past (.policy space name), past ++ [Request.policy space name]) := rfl

theorem toldBy_role (space name : String) :
    (role space name).toldBy oracle past =
      (oracle past (.role space name), past ++ [Request.role space name]) := rfl

end Job

namespace Pointer

variable (p : Pointer) (space : String)

def judge (p : Pointer) (place : String × String) : Option Finding → Except Fault String
  | none => .error (.referentMissing ⟨p.wanted.kindName, place.1, place.2⟩)
  | some finding =>
    if Condition.holds .terminal finding.conditions then
      .error (.referentTerminal ⟨p.wanted.kindName, place.1, place.2⟩)
    else if Condition.holds .synced finding.conditions then
      Reference.present ⟨p.wanted.kindName, place.1, place.2⟩ p.wanted.source finding.value
    else .error (.referentNotSynced ⟨p.wanted.kindName, place.1, place.2⟩)

theorem locate_eq :
    p.reference.locate space p.field =
      match p.place? space with
      | some place => .ok place
      | none => .error (.emptyReference p.field) := by
  obtain ⟨wanted, ⟨target⟩, field⟩ := p
  rcases target with _ | ⟨_ | name, own⟩
  · rfl
  · rfl
  · by_cases named : name = ""
    · subst named
      rfl
    · have kept : (some name).filter (!·.isEmpty) = some name := by
        simp [Option.filter_some, named]
      simp only [Reference.locate, kept]
      cases own with
      | none => simp [place?, named]
      | some own =>
        by_cases here : own = "" <;> simp [place?, named, here, Option.filter]

theorem judge_eq {S D : Type} (place : String × String) (value : Object S D → Option String)
    (found : Option (Object S D)) :
    (Plan.ofExcept (Reference.usable ⟨p.wanted.kindName, place.1, place.2⟩ found) >>= fun o =>
        Plan.ofExcept (Reference.present ⟨p.wanted.kindName, place.1, place.2⟩ p.wanted.source (value o)) :
        Job String) =
      Plan.ofExcept (p.judge place (found.map fun o => ⟨o.conditions, value o⟩)) := by
  cases found with
  | none => rfl
  | some o =>
    simp only [Reference.usable, judge, Option.map_some]
    split
    · rfl
    · split <;> rfl

/-- A reference that names nothing is refused; any other is looked up, and judged by what is found. -/
theorem take_eq :
    p.take space =
      match p.place? space with
      | none => Job.fail (.emptyReference p.field)
      | some place => p.wanted.look place >>= fun found => Plan.ofExcept (p.judge place found) := by
  have located := p.locate_eq space
  obtain ⟨wanted, reference, field⟩ := p
  cases wanted with
  | policyArn =>
    change reference.policyArn space field = _
    unfold Reference.policyArn
    rw [located]
    cases Pointer.place? ⟨.policyArn, reference, field⟩ space with
    | none => rfl
    | some place =>
      have judged := congrArg (Job.policy place.1 place.2 >>= ·) <| funext fun found =>
        judge_eq ⟨.policyArn, reference, field⟩ place (fun o : PolicyObject => o.arn) found
      refine Eq.trans judged ?_
      simp only [Wanted.look, bind_assoc, pure_bind]
  | roleName =>
    change reference.roleName space field = _
    unfold Reference.roleName
    rw [located]
    cases Pointer.place? ⟨.roleName, reference, field⟩ space with
    | none => rfl
    | some place =>
      have judged := congrArg (Job.role place.1 place.2 >>= ·) <| funext fun found =>
        judge_eq ⟨.roleName, reference, field⟩ place (fun o : RoleObject => some o.spec.name) found
      refine Eq.trans judged ?_
      simp only [Wanted.look, bind_assoc, pure_bind]

end Pointer

namespace Oracle

variable {oracle : Oracle} {past : List Request} {space : String} {p : Pointer}

theorem toldBy_look (wanted : Wanted) (place : String × String) :
    (wanted.look place).toldBy oracle past =
      (oracle.find past wanted place, past ++ [wanted.request place.1 place.2]) := by
  cases wanted with
  | policyArn =>
    change Job.toldBy (Job.policy place.1 place.2 >>= _) oracle past = _
    rw [Job.toldBy_bind, Job.toldBy_policy]
    simp only [find]
    cases oracle past (.policy place.1 place.2) <;> rfl
  | roleName =>
    change Job.toldBy (Job.role place.1 place.2 >>= _) oracle past = _
    rw [Job.toldBy_bind, Job.toldBy_role]
    simp only [find]
    cases oracle past (.role place.1 place.2) <;> rfl

def Judged (oracle : Oracle) (past : List Request) (space : String) (p : Pointer) :
    Except Fault String → Prop
  | .ok value => oracle.Leads past space p value
  | .error fault => oracle.Fails past space p fault

theorem judged_find {place : String × String} (somewhere : p.place? space = some place) :
    oracle.Judged past space p (oracle.find past p.wanted place >>= p.judge place) := by
  rcases answer : oracle.find past p.wanted place with fault | _ | finding
  · exact Fails.unread somewhere answer
  · exact Fails.missing somewhere answer
  · change oracle.Judged past space p (p.judge place (some finding))
    simp only [Pointer.judge]
    split
    next stuck => exact Fails.terminal somewhere answer stuck
    next free =>
      have free := Bool.eq_false_iff.mpr free
      split
      next current =>
        unfold Reference.present
        split
        next value given =>
          obtain ⟨given, filled⟩ := Option.filter_eq_some_iff.mp given
          exact ⟨place, finding, somewhere, answer, free, current, given, by simpa using filled⟩
        next empty =>
          refine Fails.lacks somewhere answer free current fun value given => ?_
          simpa [given, Option.filter_some] using empty
      next behind => exact Fails.notSynced somewhere answer free (Bool.eq_false_iff.mpr behind)

/-- A reference leads to a value, or fails; either way it has been looked up if it names anything. -/
theorem toldBy_take (oracle : Oracle) (past : List Request) (space : String) (p : Pointer) :
    ∃ outcome, (p.take space).toldBy oracle past = (outcome, past ++ (p.lookup? space).toList) ∧
      oracle.Judged past space p outcome := by
  rw [p.take_eq]
  unfold Pointer.lookup?
  cases place : p.place? space with
  | none => exact ⟨.error _, by simp, .nameless place⟩
  | some place' =>
    refine ⟨oracle.find past p.wanted place' >>= p.judge place', ?_, judged_find place⟩
    simp only [Job.toldBy_bind, toldBy_look]
    cases oracle.find past p.wanted place' <;> rfl

theorem Leads.not_fails {value : String} {fault : Fault} (leads : oracle.Leads past space p value) :
    ¬oracle.Fails past space p fault := by
  obtain ⟨place, finding, somewhere, answer, free, current, given, filled⟩ := leads
  intro fails
  cases fails with
  | nameless nowhere => simp [nowhere] at somewhere
  | unread somewhere' answer' =>
    cases somewhere.symm.trans somewhere'
    cases answer.symm.trans answer'
  | missing somewhere' answer' =>
    cases somewhere.symm.trans somewhere'
    cases answer.symm.trans answer'
  | terminal somewhere' answer' stuck =>
    cases somewhere.symm.trans somewhere'
    cases answer.symm.trans answer'
    cases free.symm.trans stuck
  | notSynced somewhere' answer' _ behind =>
    cases somewhere.symm.trans somewhere'
    cases answer.symm.trans answer'
    cases current.symm.trans behind
  | lacks somewhere' answer' _ _ empty =>
    cases somewhere.symm.trans somewhere'
    cases answer.symm.trans answer'
    exact filled (empty value given)

theorem LeadsAll.cons {ps : List Pointer} {values : List String}
    (leads : oracle.LeadsAll space past (p :: ps) values) :
    ∃ value rest, values = value :: rest ∧ oracle.Leads past space p value ∧
      oracle.LeadsAll space (past ++ (p.lookup? space).toList) ps rest := by
  cases values with
  | nil => cases leads
  | cons value rest => exact ⟨value, rest, rfl, leads⟩

theorem LeadsAll.not_fails {front rest : List Pointer} {values values' : List String} {fault : Fault}
    (all : oracle.LeadsAll space past (front ++ p :: rest) values)
    (leads : oracle.LeadsAll space past front values') :
    ¬oracle.Fails (past ++ Pointer.lookups space front) space p fault := by
  induction front generalizing past values values' with
  | nil =>
    obtain ⟨value, _, -, lead, -⟩ := all.cons
    simpa [Pointer.lookups] using lead.not_fails
  | cons first front ih =>
    obtain ⟨_, _, -, -, later⟩ := all.cons
    obtain ⟨_, _, -, -, later'⟩ := leads.cons
    simpa [Pointer.lookups] using ih later later'

/-- References are looked up one after the other, up to the first that fails. -/
theorem toldBy_collect (oracle : Oracle) (space : String) (pointers : List Pointer) (past : List Request) :
    (∃ values, oracle.LeadsAll space past pointers values ∧
      Job.toldBy (Plan.collect (·.take space) pointers) oracle past =
        (.ok values, past ++ Pointer.lookups space pointers)) ∨
    ∃ front p rest values fault, pointers = front ++ p :: rest ∧
      oracle.LeadsAll space past front values ∧
      oracle.Fails (past ++ Pointer.lookups space front) space p fault ∧
      Job.toldBy (Plan.collect (·.take space) pointers) oracle past =
        (.error fault, past ++ Pointer.lookups space (front ++ [p])) := by
  induction pointers generalizing past with
  | nil => exact .inl ⟨[], trivial, by simp [Plan.collect, Pointer.lookups]⟩
  | cons p ps ih =>
    obtain ⟨outcome, first, judged⟩ := toldBy_take oracle past space p
    simp only [Plan.collect, Job.toldBy_bind, first]
    cases outcome with
    | error fault =>
      have fails : oracle.Fails past space p fault := judged
      exact .inr ⟨[], p, ps, [], fault, rfl, trivial, by simpa [Pointer.lookups] using fails,
        by simp [Pointer.lookups]⟩
    | ok value =>
      -- The rest is looked up after this one, so its course is that of the tail with a longer past.
      rcases ih (past ++ (p.lookup? space).toList) with
        ⟨values, leads, met⟩ | ⟨front, q, rest, values, fault, rfl, leads, fails, met⟩
      · exact .inl ⟨value :: values, ⟨judged, leads⟩, by simp [met, Pointer.lookups]⟩
      · exact .inr ⟨p :: front, q, rest, value :: values, fault, rfl, ⟨judged, leads⟩,
          by simpa [Pointer.lookups] using fails, by simp [met, Pointer.lookups]⟩

end Oracle

/-- Collecting the values of two lists is collecting those of one. -/
theorem collect_append {I : Interface} {ε α β γ : Type} (f : β → Plan I ε α) (xs ys : List β)
    (next : List α → List α → Plan I ε γ) :
    (collect f xs >>= fun first => collect f ys >>= next first) =
      collect f (xs ++ ys) >>= fun values =>
        next (values.take xs.length) (values.drop xs.length) := by
  induction xs generalizing next with
  | nil => simp [collect]
  | cons x xs ih =>
    simp only [List.cons_append, collect, bind_assoc, pure_bind, List.length_cons,
      List.take_succ_cons, List.drop_succ_cons]
    exact congrArg (f x >>= ·) (funext fun value => ih fun first second => next (value :: first) second)

namespace Resolution

/-- Goes on with a plan unless a field and the reference for it are both given. -/
def refuse {α : Type} (conflicts : List (String × String)) (p : Job α) : Job α :=
  match conflicts with
  | (field, reference) :: _ => Job.fail (.fieldAndReference field reference)
  | [] => p

theorem refuse_append {α : Type} (xs ys : List (String × String)) (p : Job α) :
    refuse (xs ++ ys) p = refuse xs (refuse ys p) := by
  cases xs <;> rfl

theorem checkExclusive_bind {α : Type} (given referenced : Bool) (field reference : String)
    (p : Job α) :
    (Plan.ofExcept (checkExclusive given referenced field reference) >>= fun _ => p) =
      refuse (conflict given referenced field reference) p := by
  cases given <;> cases referenced <;> rfl

open Kind (filledField filledList)

theorem boundary_eq (space : String) (given : Option String) (ref : Option Reference) :
    boundary space given ref =
      Plan.collect (·.take space) (Pointer.boundary ref) >>= fun values =>
        pure (filledField given ref values) := by
  cases ref with
  | none => rfl
  | some r => simp [boundary, Pointer.boundary, Plan.collect, Pointer.take, filledField]

theorem collect_policies (space : String) (refs : List Reference) :
    Plan.collect (·.take space) (Pointer.policies refs) =
      Plan.collect (fun r => r.policyArn space "PolicyRefs") refs := by
  induction refs with
  | nil => rfl
  | cons r refs ih =>
    simp only [Pointer.policies, List.map_cons, Plan.collect] at ih ⊢
    rw [ih]
    rfl

theorem policies_eq (space : String) (given : List String) (refs : List Reference) :
    policies space given refs =
      Plan.collect (·.take space) (Pointer.policies refs) >>= fun values =>
        pure (filledList given refs values) := by
  unfold policies filledList
  rw [collect_policies]
  cases refs with
  | nil => rfl
  | cons r refs => simp

theorem boundary_policies_eq {α : Type} (space : String) (given : Option String) (ref : Option Reference)
    (givens : List String) (refs : List Reference) (next : Option String → List String → Job α) :
    (boundary space given ref >>= fun first => policies space givens refs >>= next first) =
      Plan.collect (·.take space) (Pointer.boundary ref ++ Pointer.policies refs) >>= fun values =>
        next (filledField given ref values)
          (filledList givens refs (values.drop ref.toList.length)) := by
  have length : (Pointer.boundary ref).length = ref.toList.length := List.length_map _
  have front (values : List String) :
      filledField given ref (values.take ref.toList.length) = filledField given ref values := by
    cases ref <;> cases values <;> rfl
  simp only [boundary_eq, policies_eq, bind_assoc, pure_bind]
  rw [collect_append]
  simp only [length, front]

theorem isEmpty_pointers (ref : Option Reference) (refs : List Reference) :
    (Pointer.boundary ref ++ Pointer.policies refs).isEmpty = (ref.isNone && refs.isEmpty) := by
  cases ref <;> cases refs <;> rfl

end Resolution

namespace Oracle.Course

variable {kind : Kind} {oracle : Oracle} {o : kind.Object} {lookups : List Request}

theorem of_ok {resolved : Resolved kind.Spec kind.Detail}
    (course : oracle.Course o (.ok resolved) lookups) :
    kind.conflicts o.spec = [] ∧ ∃ values, oracle.Meets o values ∧
      resolved = ⟨{ o with spec := kind.filled o.spec values }, !(kind.pointers o.spec).isEmpty⟩ := by
  cases course with
  | whole exclusive meets => exact ⟨exclusive, _, meets, rfl⟩

/-- An object whose resolution fails is in conflict, or its references do not lead to values. -/
theorem of_error {fault : Fault} (course : oracle.Course o (.error fault) lookups)
    (exclusive : kind.conflicts o.spec = []) (values : List String) : ¬oracle.Meets o values := by
  rintro ⟨settled, all⟩
  cases course with
  | conflict both => simp [exclusive] at both
  | homeless _ refers nowhere =>
    have there := settled refers
    simp [nowhere] at there
  | broken _ home parts leads fails =>
    rw [home, parts] at all
    exact all.not_fails leads fails

end Oracle.Course

namespace Kind

open Resolution (refuse)

variable {kind : Kind}

/-- What a kind does with an object that refers to others and is in conflict with none of them. -/
def takeAll (kind : Kind) (o : kind.Object) : Job (Resolved kind.Spec kind.Detail) :=
  match o.metadata.space with
  | none => Job.fail (.noNamespace o.name)
  | some space => do
    let values ← Plan.collect (·.take space) (kind.pointers o.spec)
    return ⟨{ o with spec := kind.filled o.spec values }, true⟩

/-- All kinds resolve references in one way. -/
theorem resolve_eq (o : kind.Object) :
    kind.manager.resolve o = refuse (kind.conflicts o.spec)
      (if (kind.pointers o.spec).isEmpty then pure ⟨o, false⟩ else kind.takeAll o) := by
  cases kind with
  | role =>
    -- Both conflicts are looked for before the first lookup.
    change RoleSpec.resolve o = _
    unfold RoleSpec.resolve
    simp only [Resolution.checkBoundary, Resolution.checkPolicies, Resolution.checkExclusive_bind]
    rw [← Resolution.refuse_append, ← Resolution.isEmpty_pointers]
    refine congrArg (refuse _) (ite_congr rfl (fun _ => rfl) fun _ => ?_)
    unfold takeAll Object.spaceOf
    cases o.metadata.space with
    | none => rfl
    | some space => exact Resolution.boundary_policies_eq ..
  | user =>
    change UserSpec.resolve o = _
    unfold UserSpec.resolve
    simp only [Resolution.checkBoundary, Resolution.checkPolicies, Resolution.checkExclusive_bind]
    rw [← Resolution.refuse_append, ← Resolution.isEmpty_pointers]
    refine congrArg (refuse _) (ite_congr rfl (fun _ => rfl) fun _ => ?_)
    unfold takeAll Object.spaceOf
    cases o.metadata.space with
    | none => rfl
    | some space => exact Resolution.boundary_policies_eq ..
  | group =>
    change GroupSpec.resolve o = _
    unfold GroupSpec.resolve
    simp only [Resolution.checkPolicies, Resolution.checkExclusive_bind]
    refine congrArg (refuse _) (ite_congr ?_ (fun _ => rfl) fun _ => ?_)
    · change (o.spec.policyRefs.isEmpty = true) = ((Pointer.policies o.spec.policyRefs).isEmpty = true)
      simp [Pointer.policies]
    unfold takeAll Object.spaceOf
    cases o.metadata.space with
    | none => rfl
    | some space =>
      rw [Plan.ofExcept_ok_bind, Resolution.policies_eq]
      simp only [bind_assoc, pure_bind]
      rfl
  | instanceProfile =>
    change InstanceProfileSpec.resolve o = _
    unfold InstanceProfileSpec.resolve
    simp only [Resolution.checkExclusive_bind]
    refine congrArg (refuse _) ?_
    obtain ⟨metadata, ⟨name, path, role, roleRef, tags⟩, status⟩ := o
    obtain ⟨ownName, generateName, space, finalizers, deletion⟩ := metadata
    cases roleRef with
    | none => rfl
    | some ref =>
      cases space with
      | none => rfl
      | some space =>
        rw [if_neg (by simp [pointers, Pointer.role])]
        change (ref.roleName space "RoleRef" >>= _) = _
        simp [takeAll, pointers, Pointer.role, Plan.collect, Pointer.take, filled, filledField]
  | policy | oidcProvider | samlProvider | serviceLinkedRole => rfl

theorem filled_unreferenced {spec : kind.Spec} (none : kind.pointers spec = []) (values : List String) :
    kind.filled spec values = spec := by
  have alone (ref : Option Reference) (refs : List Reference)
      (none : Pointer.boundary ref ++ Pointer.policies refs = []) : ref = .none ∧ refs = [] := by
    simpa [Pointer.boundary, Pointer.policies] using none
  cases kind with
  | role =>
    obtain ⟨name, path, description, trust, maxSession, boundary, ref, policies, refs, inline, tags⟩ := spec
    obtain ⟨rfl, rfl⟩ := alone ref refs none
    rfl
  | user =>
    obtain ⟨name, path, boundary, ref, policies, refs, inline, tags⟩ := spec
    obtain ⟨rfl, rfl⟩ := alone ref refs none
    rfl
  | group =>
    obtain ⟨name, path, policies, refs, inline⟩ := spec
    obtain rfl : refs = [] := List.map_eq_nil_iff.mp none
    rfl
  | instanceProfile =>
    obtain ⟨name, path, role, ref, tags⟩ := spec
    obtain rfl : ref = .none := by simpa [pointers, Pointer.role] using none
    rfl
  | policy | oidcProvider | samlProvider | serviceLinkedRole => rfl

theorem resolve_course (oracle : Oracle) (o : kind.Object) :
    oracle.Course o ((kind.manager.resolve o).toldBy oracle []).1
      ((kind.manager.resolve o).toldBy oracle []).2 := by
  rw [resolve_eq]
  cases both : kind.conflicts o.spec with
  | cons entry more => exact .conflict both
  | nil =>
    by_cases refers : kind.pointers o.spec = []
    · have meets : oracle.Meets o [] := ⟨(absurd refers ·), by rw [refers]; trivial⟩
      have whole : oracle.Course o _ _ := .whole both meets
      rw [filled_unreferenced refers, refers] at whole
      simpa [refuse, refers, Pointer.lookups] using whole
    · have there : (kind.pointers o.spec).isEmpty = false := by simpa using refers
      simp only [refuse, there, Bool.false_eq_true, if_false]
      unfold takeAll
      cases home : o.metadata.space with
      | none => exact .homeless both refers home
      | some space =>
        simp only [Job.toldBy_bind]
        rcases oracle.toldBy_collect space (kind.pointers o.spec) [] with
          ⟨values, leads, met⟩ | ⟨front, p, rest, values, fault, parts, leads, fails, met⟩
        · have meets : oracle.Meets o values := ⟨fun _ => by simp [home], by simpa [home] using leads⟩
          have whole : oracle.Course o _ _ := .whole both meets
          simpa [met, there, home] using whole
        · have broken : oracle.Course o _ _ := .broken both home parts leads (by simpa using fails)
          simpa [met] using broken

/-- References are resolved as they course through an oracle, and only when all of them lead to values. -/
theorem resolve_exact (kind : Kind) (oracle : Oracle) (o : kind.Object) :
    let met := (kind.manager.resolve o).toldBy oracle []
    oracle.Course o met.1 met.2 ∧
    ((∃ resolved, met.1 = .ok resolved) ↔
      kind.conflicts o.spec = [] ∧ ∃ values, oracle.Meets o values) ∧
    ∀ resolved, met.1 = .ok resolved →
      (resolved.referenced = true ↔ kind.pointers o.spec ≠ []) ∧
      ∃ values, oracle.Meets o values ∧
        resolved.object = { o with spec := kind.filled o.spec values } := by
  intro met
  have course : oracle.Course o met.1 met.2 := resolve_course oracle o
  refine ⟨course, ?_, ?_⟩
  · constructor
    · rintro ⟨resolved, ok⟩
      rw [ok] at course
      obtain ⟨exclusive, values, meets, -⟩ := course.of_ok
      exact ⟨exclusive, values, meets⟩
    · rintro ⟨exclusive, values, meets⟩
      cases outcome : met.1 with
      | ok resolved => exact ⟨resolved, rfl⟩
      | error fault =>
        rw [outcome] at course
        exact absurd meets (course.of_error exclusive values)
  · intro resolved ok
    rw [ok] at course
    obtain ⟨-, values, meets, rfl⟩ := course.of_ok
    exact ⟨by simp, values, meets, rfl⟩

/-- A role whose boundary lies in another namespace, and one of its policies beside it. -/
def borrower : RoleObject where
  metadata := ⟨some "app", none, some "team", [], none⟩
  spec := ⟨"app", none, none, "\x7b\x7d", none, none, some ⟨some ⟨some "cap", some "shared"⟩⟩, [],
    [⟨some ⟨some "logs", some ""⟩⟩], ∅, []⟩
  status := none

/-- An oracle to whom every policy is in sync, and has its place for an ARN. -/
def shelf : Oracle
  | _, .policy space name =>
    .ok (some ⟨default, ⟨name, none, none, "\x7b\x7d", []⟩,
      some ⟨some (Identity.ofArn (space ++ "/" ++ name)), [⟨.synced, .yes, none, none, none⟩], default⟩⟩)
  | _, .role _ _ => .ok none
  | _, .iam _ => .error .malformedObject
  | _, .patchStatus _ _ => .ok ()
  | _, .patchFinalizers _ _ => .ok ()
  | _, .note _ _ => ()

theorem resolve_exact_borrower :
    let met := (role.manager.resolve borrower).toldBy shelf []
    met.2 = [.policy "shared" "cap", .policy "team" "logs"] ∧
    ∃ resolved values, met.1 = .ok resolved ∧ resolved.referenced = true ∧
      shelf.Meets borrower values ∧ resolved.object.spec = role.filled borrower.spec values ∧
      resolved.object.spec.boundary = some "shared/cap" ∧
      resolved.object.spec.policies = ["team/logs"] := by
  intro met
  obtain ⟨resolved, ok⟩ : ∃ resolved, met.1 = .ok resolved := ⟨_, rfl⟩
  obtain ⟨-, -, fills⟩ := resolve_exact role shelf borrower
  obtain ⟨referenced, values, meets, object⟩ := fills resolved ok
  refine ⟨rfl, resolved, values, ok, referenced.mpr (by decide), meets, ?_, ?_, ?_⟩
  · rw [object]
  · cases ok
    rfl
  · cases ok
    rfl

end Kind

end IamKeeper
