import IamKeeper.Proofs.StatusKey
import IamKeeper.Proofs.Sync

namespace IamKeeper

open Iam
open Plan hiding bind_assoc

namespace Text

theorem splitAt_of_notMem {separator : Char} {s : List Char} (h : separator ∉ s) :
    splitAt separator s = [s] := by
  rw [splitAt_eq_splitOn]
  exact List.splitOn_eq_singleton h

theorem splitAt_append {separator : Char} (front : List Char) {piece : List Char}
    (last : separator ∉ piece) :
    splitAt separator (front ++ separator :: piece) = splitAt separator front ++ [piece] := by
  rw [splitAt_eq_splitOn, splitAt_eq_splitOn, List.splitOn_append_cons_self, List.splitOn_eq_singleton last]

theorem eq_append_last {c : Char} {s : List Char} (h : c ∈ s) :
    ∃ front piece, s = front ++ c :: piece ∧ c ∉ piece := by
  obtain ⟨front, piece, eq, first⟩ := List.eq_append_cons_of_mem (List.mem_reverse.mpr h)
  refine ⟨piece.reverse, front.reverse, ?_, fun hm => first (List.mem_reverse.mp hm)⟩
  have flipped := congrArg List.reverse eq
  simpa using flipped

theorem dropTrailing_append {p : Char → Bool} {s : List Char} {c : Char} (trailing : p c = true)
    (clean : ∀ d ∈ s, p d = false) : dropTrailing p (s ++ [c]) = s := by
  have kept : s.reverse.dropWhile p = s.reverse := by
    cases hs : s.reverse with
    | nil => rfl
    | cons d rest =>
      have hd : d ∈ s := List.mem_reverse.mp (hs ▸ List.mem_cons_self ..)
      exact List.dropWhile_cons_of_neg (by simp [clean d hd])
  unfold dropTrailing
  rw [List.reverse_append, List.reverse_singleton, List.singleton_append,
    List.dropWhile_cons_of_pos trailing, kept, List.reverse_reverse]

end Text

namespace ServiceLinkedRoleManager

theorem getD_filled (s : List Char) : (filled s).getD "" = String.ofList s := by
  cases s <;> rfl

/-- The suffix that is read from a name is what stands behind its last underscore. -/
theorem suffixOf?_last {name : String} {front piece : List Char} (eq : name.toList = front ++ '_' :: piece)
    (last : '_' ∉ piece) : (suffixOf? name).getD "" = String.ofList piece := by
  unfold suffixOf?
  rw [eq, Text.splitAt_append front last, List.reverse_append]
  cases hs : (Text.splitAt '_' front).reverse with
  | nil => exact absurd (List.reverse_eq_nil_iff.mp hs) (Text.splitAt_ne_nil '_' front)
  | cons head rest => exact getD_filled piece

theorem suffixOf?_none {name : String} (plain : '_' ∉ name.toList) : suffixOf? name = none := by
  unfold suffixOf?
  rw [Text.splitAt_of_notMem plain]
  rfl

def pathOf (service : String) : String :=
  "/aws-service-role/" ++ service ++ "/"

/-- A service that makes up one part of a path. -/
structure IsPart (service : String) : Prop where
  nonempty : service ≠ ""
  whole : '/' ∉ service.toList

theorem serviceOf?_pathOf {service : String} (part : IsPart service) :
    serviceOf? (pathOf service) = some service := by
  have path : (pathOf service).toList = pathFront ++ (service.toList ++ ['/']) := by
    have slash : "/".toList = ['/'] := rfl
    unfold pathOf pathFront
    rw [String.toList_append, String.toList_append, List.append_assoc, slash]
  have clean : ∀ c ∈ service.toList, decide (c = '/') = false := by
    intro c hc
    refine decide_eq_false fun same => ?_
    subst same
    exact part.whole hc
  unfold serviceOf?
  rw [Text.afterFront?_eq_some.mpr path]
  change filled (Text.dropTrailing (· = '/') (service.toList ++ ['/'])) = some service
  rw [Text.dropTrailing_append rfl clean]
  cases h : service.toList with
  | nil => exact absurd (String.toList_eq_nil_iff.mp h) part.nonempty
  | cons c s =>
    have eq := congrArg String.ofList h
    rw [String.ofList_toList] at eq
    exact congrArg some eq.symm

/-- What the name of a role is without a suffix. -/
def plainName (part : String) : String :=
  "AWSServiceRoleFor" ++ part

/-- The names that IAM gives a role, by its part of the name for the service and by the suffix that is asked for. -/
inductive Names (part : String) : Option String → String → Prop
  | plain {suffix : Option String} (unasked : suffix.getD "" = "") : Names part suffix (plainName part)
  | suffixed (suffix : String) : Names part (some suffix) (plainName part ++ "_" ++ suffix)

/-- The last underscore of a name stands in front of its suffix. One at the very end of a name counts as none. -/
def Legible (part : String) (suffix : Option String) (name : String) : Prop :=
  if name = plainName part then '_' ∈ part.toList → part.toList.getLast? = some '_'
  else '_' ∉ (suffix.getD "").toList

instance (part : String) (suffix : Option String) (name : String) : Decidable (Legible part suffix name) :=
  inferInstanceAs (Decidable (ite _ _ _))

theorem suffixOf?_plainName (part : String) :
    (suffixOf? (plainName part)).getD "" = "" ↔ ('_' ∈ part.toList → part.toList.getLast? = some '_') := by
  have chars : (plainName part).toList = "AWSServiceRoleFor".toList ++ part.toList := String.toList_append
  by_cases h : '_' ∈ part.toList
  · obtain ⟨front, piece, eq, last⟩ := Text.eq_append_last h
    rw [eq, ← List.append_assoc] at chars
    rw [suffixOf?_last chars last, eq]
    rcases List.eq_nil_or_concat piece with rfl | ⟨rest, c, rfl⟩
    · simp
    · -- Behind the last underscore, another character ends the name.
      have other : c ≠ '_' := fun same => last (by simp [same])
      rw [List.concat_eq_append, ← List.cons_append, ← List.append_assoc, List.getLast?_concat]
      simp [other]
  · have plain : '_' ∉ (plainName part).toList := by
      rw [chars, List.mem_append, not_or]
      exact ⟨by decide, h⟩
    rw [suffixOf?_none plain]
    exact ⟨fun _ there => absurd there h, fun _ => rfl⟩

theorem suffixOf?_suffixed (part suffix : String) :
    (suffixOf? (plainName part ++ "_" ++ suffix)).getD "" = suffix ↔ '_' ∉ suffix.toList := by
  have chars : (plainName part ++ "_" ++ suffix).toList = (plainName part).toList ++ '_' :: suffix.toList := by
    simp
  constructor
  · intro same h
    obtain ⟨front, piece, eq, last⟩ := Text.eq_append_last h
    rw [eq, ← List.cons_append, ← List.append_assoc] at chars
    rw [suffixOf?_last chars last] at same
    have length := congrArg List.length eq
    rw [← same, String.toList_ofList] at length
    simp at length
    omega
  · intro plain
    rw [suffixOf?_last chars plain, String.ofList_toList]

/-- The suffix that was asked for is read from the name exactly when the name is legible. -/
theorem sameGiven_suffixOf? {part name : String} {suffix : Option String} (names : Names part suffix name) :
    sameGiven suffix (suffixOf? name) = true ↔ Legible part suffix name := by
  unfold sameGiven Legible
  rw [decide_eq_true_iff]
  cases names with
  | plain unasked =>
    rw [if_pos rfl, unasked, ← suffixOf?_plainName]
    exact eq_comm
  | suffixed suffix =>
    have other : plainName part ++ "_" ++ suffix ≠ plainName part := by
      intro same
      have length := congrArg (·.toList.length) same
      simp at length
    rw [if_neg other, Option.getD_some, ← suffixOf?_suffixed part]
    exact eq_comm

/-- What IAM makes of a wish for a service-linked role. A description that is not asked for is up to IAM. -/
structure Makes (part : String) (spec : ServiceLinkedRoleSpec) (report : RoleReport) : Prop where
  name : Names part spec.suffix report.name
  path : report.path = pathOf spec.service
  description : ∀ wanted, spec.description = some wanted → sameGiven (some wanted) report.description = true

/-- What a later report of a role has in common with an earlier one. -/
structure Reports (report again : RoleReport) : Prop where
  name : again.name = report.name
  path : again.path = report.path
  description : again.description = report.description

theorem Makes.reported {part : String} {spec : ServiceLinkedRoleSpec} {report again : RoleReport}
    (makes : Makes part spec report) (reports : Reports report again) : Makes part spec again := by
  refine ⟨?_, ?_, ?_⟩
  · rw [reports.name]
    exact makes.name
  · rw [reports.path]
    exact makes.path
  · rw [reports.description]
    exact makes.description

/-- IAM with the role that it made last, which it reports as it is. A call that fails leaves it alone. -/
def Linking (part : String) : World world (Option RoleReport) := fun s r answer t =>
  match r, answer with
  | .iam (.createServiceLinkedRole spec), .ok report => Makes part spec report ∧ t = some report
  | .iam (.getRole name), .ok found =>
    t = s ∧ ∀ report, s = some report → name = report.name → ∃ again, found = some again ∧ Reports report again
  | _, _ => t = s

section Created

variable {part : String} {o : LinkedRoleObject} {s t u : Option RoleReport}
  {steps : List (Step world (Option RoleReport))}

theorem run_create {observed : LinkedRoleObject}
    (run : Run (Linking part) s (create o) steps (.ok observed) t) :
    ∃ report, t = some report ∧ Makes part o.spec report ∧ observed = record o report := by
  obtain ⟨answer, mid, rest, answered, later, -⟩ := run_ask.mp run
  cases answer with
  | error fault => cases (run_done.mp later).2.1
  | ok report =>
    obtain ⟨makes, rfl⟩ := answered
    obtain ⟨_, _, _, noted, last, -⟩ := run_ask.mp later
    obtain ⟨-, same, rfl⟩ := run_done.mp last
    cases noted
    exact ⟨report, rfl, makes, Except.ok.inj same⟩

theorem run_sync_created {synced : Synced ServiceLinkedRoleSpec ServiceLinkedRoleDetail}
    (run : Run (Linking part) s (serviceLinkedRoleManager.sync o) steps (.ok synced) t)
    (created : synced.created = true) :
    ∃ report, t = some report ∧ Makes part o.spec report ∧ synced.object = record o report := by
  rw [Manager.sync_eq] at run
  obtain ⟨resolved, _, _, _, resolve, rest, -⟩ := run_bind_ok.mp run
  obtain ⟨-, same, -⟩ := run_pure.mp resolve
  cases same
  obtain ⟨found, _, _, _, -, settles, -⟩ := run_bind_ok.mp rest
  cases found with
  | none =>
    obtain ⟨observed, _, _, _, creates, last, -⟩ := run_bind_ok.mp settles
    obtain ⟨-, same, rfl⟩ := run_pure.mp last
    cases same
    exact run_create creates
  | some latest =>
    have present := settles.yielded (Manager.settle_found ..)
    rw [created] at present
    cases present

/-- The object as it is read back from a report. -/
def readBack (o : LinkedRoleObject) (report : RoleReport) : LinkedRoleObject :=
  record { o with spec := ⟨(serviceOf? report.path).getD o.spec.service, suffixOf? report.name,
    report.description⟩ } report

theorem run_readOne {report : RoleReport} {outcome : Except Fault (Option LinkedRoleObject)}
    (known : roleName? o = some report.name)
    (run : Run (Linking part) (some report) (readOne o) steps outcome t) :
    t = some report ∧ ((∃ fault, outcome = .error fault) ∨
      ∃ again, Reports report again ∧ outcome = .ok (some (readBack o again))) := by
  unfold readOne at run
  rw [known] at run
  obtain ⟨answer, mid, rest, answered, later, -⟩ := run_ask.mp run
  cases answer with
  | error fault =>
    obtain ⟨-, rfl, rfl⟩ := run_done.mp later
    exact ⟨answered, .inl ⟨fault, rfl⟩⟩
  | ok found =>
    obtain ⟨rfl, finds⟩ := answered
    obtain ⟨again, rfl, reports⟩ := finds report rfl rfl
    obtain ⟨-, rfl, rfl⟩ := run_done.mp later
    exact ⟨rfl, .inr ⟨again, reports, rfl⟩⟩

section Drift

variable {report : RoleReport}

theorem service_kept (whole : IsPart o.spec.service) (makes : Makes part o.spec report) :
    (serviceLinkedRoleManager.drift o (readBack o report)).differsAt "Spec.AWSServiceName" = false := by
  have field : (decide (o.spec.service ≠ (serviceOf? report.path).getD o.spec.service), "Spec.AWSServiceName") ∈
      Kind.serviceLinkedRole.differences (serviceLinkedRoleManager.wish o (readBack o report)).spec
        (readBack o report).spec := List.mem_cons_self ..
  rw [makes.path, serviceOf?_pathOf whole, Option.getD_some, decide_eq_false (not_not_intro rfl)] at field
  exact Kind.differsAt_of_mem field

theorem description_kept (makes : Makes part o.spec report) :
    (serviceLinkedRoleManager.drift o (readBack o report)).differsAt "Spec.Description" = false := by
  have field : (!sameGiven (o.spec.description <|> report.description) report.description, "Spec.Description") ∈
      Kind.serviceLinkedRole.differences (serviceLinkedRoleManager.wish o (readBack o report)).spec
        (readBack o report).spec := List.mem_cons_of_mem _ (List.mem_cons_of_mem _ (List.mem_cons_self ..))
  have same : sameGiven (o.spec.description <|> report.description) report.description = true := by
    cases given : o.spec.description with
    | none => exact decide_eq_true rfl
    | some wanted => exact makes.description wanted given
  rw [same] at field
  exact Kind.differsAt_of_mem field

theorem suffix_kept_iff (makes : Makes part o.spec report) :
    (serviceLinkedRoleManager.drift o (readBack o report)).differsAt "Spec.CustomSuffix" = false ↔
      Legible part o.spec.suffix report.name := by
  have field : (!sameGiven o.spec.suffix (suffixOf? report.name), "Spec.CustomSuffix") ∈
      Kind.serviceLinkedRole.differences (serviceLinkedRoleManager.wish o (readBack o report)).spec
        (readBack o report).spec := List.mem_cons_of_mem _ (List.mem_cons_self ..)
  rw [← sameGiven_suffixOf? makes.name, ← Bool.not_eq_false']
  exact iff_of_eq (congrArg (· = false) (Kind.differsAt_of_mem field))

theorem drift_legible (whole : IsPart o.spec.service) (makes : Makes part o.spec report)
    (legible : Legible part o.spec.suffix report.name) :
    (serviceLinkedRoleManager.drift o (readBack o report)).isEmpty = true := by
  refine (@Kind.isEmpty_delta_iff .serviceLinkedRole _ _).mpr fun path compared => ?_
  rcases List.mem_cons.mp compared with rfl | compared
  · exact service_kept whole makes
  rcases List.mem_cons.mp compared with rfl | compared
  · exact (suffix_kept_iff makes).mpr legible
  · obtain rfl := List.mem_singleton.mp compared
    exact description_kept makes

theorem drift_illegible (whole : IsPart o.spec.service) (makes : Makes part o.spec report)
    (illegible : ¬ Legible part o.spec.suffix report.name) :
    (serviceLinkedRoleManager.drift o (readBack o report)).checkImmutable serviceLinkedRoleManager.immutable =
      .error (.immutableFields ["Spec.CustomSuffix"]) := by
  have changed := mt (suffix_kept_iff makes).mp illegible
  rw [Bool.not_eq_false] at changed
  have violated : (serviceLinkedRoleManager.drift o (readBack o report)).violations
      serviceLinkedRoleManager.immutable = ["Spec.CustomSuffix"] := by
    change List.filter _ ["Spec.AWSServiceName", "Spec.CustomSuffix"] = _
    rw [List.filter_cons_of_neg (by rw [service_kept whole makes]; decide), List.filter_cons_of_pos changed]
    rfl
  unfold Delta.checkImmutable
  rw [violated]
  rfl

theorem settle_legible (whole : IsPart o.spec.service) (makes : Makes part o.spec report)
    (legible : Legible part o.spec.suffix report.name) :
    serviceLinkedRoleManager.settle o ⟨o, false⟩ (some (readBack o report)) =
      Job.debug s!"{o.name} is in sync" >>= fun _ => pure ⟨readBack o report, false, false⟩ :=
  Manager.settle_inSync o (drift_legible whole makes legible)

theorem settle_illegible (whole : IsPart o.spec.service) (makes : Makes part o.spec report)
    (illegible : ¬ Legible part o.spec.suffix report.name) :
    serviceLinkedRoleManager.settle o ⟨o, false⟩ (some (readBack o report)) =
      Job.fail (.immutableFields ["Spec.CustomSuffix"]) :=
  Manager.settle_refused o (drift_illegible whole makes illegible)

end Drift

/-- A role that IAM made as the object asks for reads so if its name is legible, and otherwise stops the sync. -/
theorem run_sync_made {report : RoleReport}
    {outcome : Except Fault (Synced ServiceLinkedRoleSpec ServiceLinkedRoleDetail)}
    (known : roleName? o = some report.name) (whole : IsPart o.spec.service) (makes : Makes part o.spec report)
    (run : Run (Linking part) (some report) (serviceLinkedRoleManager.sync o) steps outcome t) :
    t = some report ∧ ((∃ fault, outcome = .error fault ∧
        Run (Linking part) (some report) (readOne o) steps (.error fault) t) ∨
      if Legible part o.spec.suffix report.name then
        ∃ latest, outcome = .ok ⟨latest, false, false⟩ ∧ (serviceLinkedRoleManager.drift o latest).isEmpty = true
      else outcome = .error (.immutableFields ["Spec.CustomSuffix"])) := by
  rw [Manager.sync_eq] at run
  rcases run_bind.mp run with ⟨_, resolve, -⟩ | ⟨resolved, _, _, _, resolve, rest, rfl⟩
  · cases (run_pure.mp resolve).2.1
  obtain ⟨rfl, same, rfl⟩ := run_pure.mp resolve
  cases same
  rcases run_bind.mp rest with ⟨fault, read, rfl⟩ | ⟨found, mid, first, second, read, settles, rfl⟩
  · exact ⟨(run_readOne known read).1, .inl ⟨fault, rfl, read⟩⟩
  obtain ⟨rfl, ⟨_, fails⟩ | ⟨again, reports, found⟩⟩ := run_readOne known read
  · cases fails
  cases found
  have remade := makes.reported reports
  rw [← reports.name]
  split
  next legible =>
    rw [settle_legible whole remade legible] at settles
    obtain ⟨_, _, _, noted, last, -⟩ := run_ask.mp settles
    obtain ⟨-, rfl, rfl⟩ := run_done.mp last
    exact ⟨noted, .inr ⟨_, rfl, drift_legible whole remade legible⟩⟩
  next illegible =>
    rw [settle_illegible whole remade illegible] at settles
    obtain ⟨-, rfl, rfl⟩ := run_done.mp settles
    exact ⟨rfl, .inr rfl⟩

theorem roleName?_recordSync (o : LinkedRoleObject) (report : RoleReport) (region : Option String) (clock : Clock)
    (referenced created : Bool) :
    roleName? { o with status := (o.recordSync region clock ⟨record o report, referenced, created⟩).status } =
      some report.name :=
  @Kind.key?_recordSync .serviceLinkedRole o.spec o region clock ⟨record o report, referenced, created⟩

/-- After a pass that created a role for an object, the next sync of the object with the status that the pass stores
finds the role as it is asked for, unless it cannot read it. But where the name is not legible, it takes the suffix for
changed, and is refused for good. -/
theorem resync_created {region : Option String} {clock : Clock} {later : List (Step world (Option RoleReport))}
    {synced : Synced ServiceLinkedRoleSpec ServiceLinkedRoleDetail}
    {outcome : Except Fault (Synced ServiceLinkedRoleSpec ServiceLinkedRoleDetail)}
    (whole : IsPart o.spec.service)
    (run : Run (Linking part) s (serviceLinkedRoleManager.sync o) steps (.ok synced) t)
    (created : synced.created = true)
    (again : Run (Linking part) t
      (serviceLinkedRoleManager.sync { o with status := (o.recordSync region clock synced).status }) later outcome u) :
    ∃ report, t = some report ∧ Makes part o.spec report ∧ u = t ∧
      ((∃ fault, outcome = .error fault ∧ Run (Linking part) t
          (readOne { o with status := (o.recordSync region clock synced).status }) later (.error fault) u) ∨
        if Legible part o.spec.suffix report.name then
          ∃ latest, outcome = .ok ⟨latest, false, false⟩ ∧ (serviceLinkedRoleManager.drift o latest).isEmpty = true
        else outcome = .error (.immutableFields ["Spec.CustomSuffix"])) := by
  obtain ⟨report, rfl, makes, observed⟩ := run_sync_created run created
  obtain ⟨object, referenced, new⟩ := synced
  cases observed
  obtain ⟨still, ends⟩ := run_sync_made (roleName?_recordSync o report region clock referenced new) whole makes again
  exact ⟨report, rfl, makes, still, ends⟩

section Runs

variable {report : RoleReport}

theorem run_sync_new (new : roleName? o = none) (makes : Makes part o.spec report) :
    ∃ steps, Run (Linking part) s (serviceLinkedRoleManager.sync o) steps (.ok ⟨record o report, false, true⟩)
      (some report) := by
  have unknown : readOne o = pure none := by
    unfold readOne
    rw [new]
  have read : Run (Linking part) s (serviceLinkedRoleManager.readOne o) [] (.ok none) s := by
    rw [show serviceLinkedRoleManager.readOne o = pure none from unknown]
    exact .done
  have makes' : Linking part s (Request.iam (.createServiceLinkedRole o.spec)) (Except.ok report) (some report) :=
    ⟨makes, rfl⟩
  have creates : ∃ steps, Run (Linking part) s (serviceLinkedRoleManager.settle o ⟨o, false⟩ none) steps
      (.ok ⟨record o report, false, true⟩) (some report) :=
    ⟨_, Job.run_ask _ makes' (Job.run_ask () rfl .done)⟩
  obtain ⟨steps, creates⟩ := creates
  rw [Manager.sync_eq]
  exact ⟨_, read.bind creates⟩

/-- A role whose name is known is read back, and settled as it is read. -/
theorem run_sync_known (known : roleName? o = some report.name)
    {outcome : Except Fault (Synced ServiceLinkedRoleSpec ServiceLinkedRoleDetail)}
    (settles : Run (Linking part) (some report)
      (serviceLinkedRoleManager.settle o ⟨o, false⟩ (some (readBack o report))) steps outcome (some report)) :
    ∃ later, Run (Linking part) (some report) (serviceLinkedRoleManager.sync o) later outcome (some report) := by
  have told : (Linking part) (some report) (Request.iam (.getRole report.name)) (Except.ok (some report))
      (some report) := by
    refine ⟨rfl, fun held there _ => ⟨report, rfl, ?_⟩⟩
    cases there
    exact ⟨rfl, rfl, rfl⟩
  have read : ∃ first, Run (Linking part) (some report) (readOne o) first (.ok (some (readBack o report)))
      (some report) := by
    unfold readOne
    rw [known]
    exact ⟨_, Job.run_ask _ told .done⟩
  obtain ⟨first, read⟩ := read
  rw [Manager.sync_eq]
  exact ⟨_, read.bind settles⟩

theorem run_sync_legible (known : roleName? o = some report.name) (whole : IsPart o.spec.service)
    (makes : Makes part o.spec report) (legible : Legible part o.spec.suffix report.name) :
    ∃ later, Run (Linking part) (some report) (serviceLinkedRoleManager.sync o) later
      (.ok ⟨readBack o report, false, false⟩) (some report) := by
  have settles : ∃ steps, Run (Linking part) (some report)
      (serviceLinkedRoleManager.settle o ⟨o, false⟩ (some (readBack o report))) steps
      (.ok ⟨readBack o report, false, false⟩) (some report) := by
    rw [settle_legible whole makes legible]
    exact ⟨_, Job.run_ask () rfl .done⟩
  obtain ⟨steps, settles⟩ := settles
  exact run_sync_known known settles

theorem run_sync_illegible (known : roleName? o = some report.name) (whole : IsPart o.spec.service)
    (makes : Makes part o.spec report) (illegible : ¬ Legible part o.spec.suffix report.name) :
    ∃ later, Run (Linking part) (some report) (serviceLinkedRoleManager.sync o) later
      (.error (.immutableFields ["Spec.CustomSuffix"])) (some report) := by
  have settles : Run (Linking part) (some report)
      (serviceLinkedRoleManager.settle o ⟨o, false⟩ (some (readBack o report))) []
      (.error (.immutableFields ["Spec.CustomSuffix"])) (some report) := by
    rw [settle_illegible whole makes illegible]
    exact .done
  exact run_sync_known known settles

end Runs

end Created

def linkedTo (service : String) (suffix : Option String) : LinkedRoleObject where
  metadata := ⟨some "linked", none, some "space", [], none⟩
  spec := ⟨service, suffix, none⟩
  status := none

def reported (service name : String) : RoleReport :=
  { (default : RoleReport) with name, path := pathOf service }

theorem makes_reported {part service name : String} {suffix : Option String} (names : Names part suffix name) :
    Makes part (linkedTo service suffix).spec (reported service name) :=
  ⟨names, rfl, fun _ given => nomatch given⟩

/-- The role of a service whose name ends in the suffix that was asked for stays in sync. -/
theorem resync_created_beanstalk :
    let o := linkedTo "elasticbeanstalk.amazonaws.com" (some "web")
    ∃ (t : Option RoleReport) (steps later : List (Step world (Option RoleReport)))
      (synced : Synced ServiceLinkedRoleSpec ServiceLinkedRoleDetail) (latest : LinkedRoleObject),
      IsPart o.spec.service ∧
      Run (Linking "ElasticBeanstalk") none (serviceLinkedRoleManager.sync o) steps (.ok synced) t ∧
      synced.created = true ∧
      Run (Linking "ElasticBeanstalk") t (serviceLinkedRoleManager.sync
        { o with status := (o.recordSync none (fun _ => .epoch) synced).status }) later
        (.ok ⟨latest, false, false⟩) t ∧
      (serviceLinkedRoleManager.drift o latest).isEmpty = true := by
  intro o
  have whole : IsPart o.spec.service := ⟨by decide, by decide⟩
  have makes : Makes "ElasticBeanstalk" o.spec
      (reported "elasticbeanstalk.amazonaws.com" (plainName "ElasticBeanstalk" ++ "_" ++ "web")) :=
    makes_reported (.suffixed "web")
  obtain ⟨steps, run⟩ := run_sync_new (s := none) (o := o) rfl makes
  obtain ⟨later, again⟩ := run_sync_legible
    (roleName?_recordSync o _ none (fun _ => .epoch) false true) whole makes (by decide)
  obtain ⟨report, made, -, -, ⟨_, fails, -⟩ | ends⟩ := resync_created whole run rfl again
  · cases fails
  cases made
  rw [if_pos (by decide)] at ends
  obtain ⟨latest, found, inSync⟩ := ends
  cases found
  exact ⟨_, steps, later, _, _, whole, run, rfl, again, inSync⟩

/-- The role of a service whose part of the name has an underscore is created, and then refused for a suffix that was
never asked for. -/
theorem created_illegible :
    let o := linkedTo "dynamodb.application-autoscaling.amazonaws.com" none
    ∃ (t : Option RoleReport) (steps later : List (Step world (Option RoleReport)))
      (synced : Synced ServiceLinkedRoleSpec ServiceLinkedRoleDetail),
      IsPart o.spec.service ∧
      Run (Linking "ApplicationAutoScaling_DynamoDBTable") none (serviceLinkedRoleManager.sync o) steps (.ok synced) t ∧
      synced.created = true ∧
      Run (Linking "ApplicationAutoScaling_DynamoDBTable") t (serviceLinkedRoleManager.sync
        { o with status := (o.recordSync none (fun _ => .epoch) synced).status }) later
        (.error (.immutableFields ["Spec.CustomSuffix"])) t := by
  intro o
  have whole : IsPart o.spec.service := ⟨by decide, by decide⟩
  have makes : Makes "ApplicationAutoScaling_DynamoDBTable" o.spec
      (reported "dynamodb.application-autoscaling.amazonaws.com" (plainName "ApplicationAutoScaling_DynamoDBTable")) :=
    makes_reported (.plain rfl)
  obtain ⟨steps, run⟩ := run_sync_new (s := none) (o := o) rfl makes
  obtain ⟨later, again⟩ := run_sync_illegible
    (roleName?_recordSync o _ none (fun _ => .epoch) false true) whole makes (by decide)
  exact ⟨_, steps, later, _, whole, run, rfl, again⟩

end ServiceLinkedRoleManager

end IamKeeper
