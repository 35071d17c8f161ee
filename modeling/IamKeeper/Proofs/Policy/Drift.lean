import IamKeeper.Proofs.Delta
import IamKeeper.Proofs.Policy.Library
import IamKeeper.Proofs.Sync

namespace IamKeeper

open Iam
open Plan hiding bind_assoc
open Library (Answers)

/-- A policy is as a spec asks for. -/
structure ManagedPolicy.Conforms (spec : PolicySpec) (p : ManagedPolicy) : Prop where
  name : p.name = spec.name
  path : sameGiven (spec.path <|> some p.path) (some p.path) = true
  document : ∀ id, p.Defaults id → Document.equivalent spec.document (p.documents id) = true
  tags : ∀ key, p.tags key = (Tag.table spec.tags).get? key

/-- What an object tells of the policy behind it: its ARN and its default version. -/
structure ManagedPolicy.Told (p : ManagedPolicy) (arn : String) (observed : PolicyObject) : Prop where
  arn : observed.arn = some arn
  version : ∃ id, p.Defaults id ∧ observed.detail?.bind PolicyDetail.defaultVersion = some id

namespace PolicyManager

variable {l t : Library} {arn : String} {p : ManagedPolicy} {o latest : PolicyObject}
  {steps : List (Step world Library)}

/-- How a policy is read. -/
structure Sees (p : ManagedPolicy) (arn : String) (latest : PolicyObject) : Prop where
  told : p.Told arn latest
  name : latest.spec.name = p.name
  path : latest.spec.path = some p.path
  document : ∀ id, latest.detail?.bind PolicyDetail.defaultVersion = some id →
    latest.spec.document = p.documents id
  tags : ∀ key, (Tag.table latest.spec.tags).get? key = p.tags key

theorem run_readDocument {desired : PolicySpec} {report : PolicyReport} {id : String}
    {outcome : Except Fault String} (there : l report.arn = some p)
    (known : report.defaultVersion = some id)
    (run : Run Answers l (readDocument desired report) steps outcome t) :
    (∃ fault, outcome = .error fault ∧ ∃ step ∈ steps, step.failed = true) ∨
      t = l ∧ outcome = .ok (p.documents id) := by
  unfold readDocument at run
  rw [known] at run
  rcases Job.run_call run with ⟨fault, -, rfl, rfl⟩ | ⟨version, mid, later, answered, hrest, -⟩
  · exact .inl ⟨fault, rfl, _, List.mem_singleton_self _, rfl⟩
  obtain ⟨rfl, q, encoded, hq, told, escapes⟩ := answered
  cases hq.symm.trans there
  simp only [told, Document.decode_of_escapes escapes] at hrest
  obtain ⟨-, rfl, rfl⟩ := run_done.mp hrest
  exact .inr ⟨rfl, rfl⟩

theorem run_readOne {outcome : Except Fault (Option PolicyObject)}
    (run : Run Answers l (readOne o) steps outcome t) :
    (∃ fault, outcome = .error fault ∧ ∃ step ∈ steps, step.failed = true) ∨
      ∃ found, outcome = .ok found ∧
        Option.Rel (fun latest p => ∀ arn, o.arn = some arn → Sees p arn latest) found
          (o.arn.bind l) := by
  unfold readOne at run
  cases known : o.arn with
  | none =>
    rw [known] at run
    exact .inr ⟨none, (run_pure.mp run).2.1, .none⟩
  | some arn =>
    rw [known] at run
    rcases Job.run_call run with ⟨fault, -, rfl, rfl⟩ | ⟨found, mid, later, answered, hrest, rfl⟩
    · exact .inl ⟨fault, rfl, _, List.mem_singleton_self _, rfl⟩
    obtain ⟨rfl, reported⟩ := answered
    change Option.Rel _ found (mid arn) at reported
    generalize hp : mid arn = there at reported
    cases reported with
    | none =>
      refine .inr ⟨none, (run_pure.mp hrest).2.1, ?_⟩
      rw [Option.bind_some, hp]
      exact .none
    | @some report p reported =>
      obtain ⟨rfl, name, path, id, defaults, version⟩ := reported
      rcases run_bind.mp hrest with ⟨fault, hdocument, rfl⟩ |
        ⟨document, mid', first, second, hdocument, hrest, rfl⟩
      · rcases run_readDocument hp version hdocument with ⟨_, -, step, hs, failed⟩ | ⟨-, h⟩
        · exact .inl ⟨fault, rfl, step, List.mem_cons_of_mem _ hs, failed⟩
        · cases h
      rcases run_readDocument hp version hdocument with ⟨_, h, -⟩ | ⟨rfl, h⟩
      · cases h
      cases h
      rcases Job.run_call hrest with ⟨fault, -, rfl, rfl⟩ | ⟨tags, mid'', later, answered, hdone, rfl⟩
      · exact .inl ⟨fault, rfl, _, List.mem_cons_of_mem _ <| List.mem_append_right _ <|
          List.mem_singleton_self _, rfl⟩
      obtain ⟨rfl, q, hq, tagged⟩ := answered
      cases hq.symm.trans hp
      refine .inr ⟨_, (run_pure.mp hdone).2.1, ?_⟩
      rw [Option.bind_some, hp]
      refine .some fun arn same => ?_
      cases same
      exact {
        told := ⟨rfl, id, defaults, version⟩
        name := by rw [name]; rfl
        path := path
        document := fun id' same => by
          have here : report.defaultVersion = some id' := same
          rw [version] at here
          cases here
          rfl
        tags := tagged }

section Drift

/-- The fields in which a policy has drifted from what is asked for. -/
theorem drift_at {differs : Bool} {path : String}
    (field : (differs, path) ∈ Kind.policy.differences (lateInitialize o.spec latest.spec) latest.spec) :
    (policyManager.drift o latest).differsAt path = differs :=
  @Kind.differsAt_of_mem .policy _ _ _ _ field

variable (o latest)

theorem drift_name : (policyManager.drift o latest).differsAt "Spec.Name" =
    decide (o.spec.name ≠ latest.spec.name) :=
  drift_at (by simp [Kind.differences, lateInitialize])

theorem drift_path : (policyManager.drift o latest).differsAt "Spec.Path" =
    !sameGiven (o.spec.path <|> latest.spec.path <|> some defaultPath) latest.spec.path :=
  drift_at (by simp [Kind.differences, lateInitialize])

theorem drift_description : (policyManager.drift o latest).differsAt "Spec.Description" =
    !sameGiven (o.spec.description <|> latest.spec.description) latest.spec.description :=
  drift_at (by simp [Kind.differences, lateInitialize])

theorem drift_document : (policyManager.drift o latest).differsAt "Spec.PolicyDocument" =
    !Document.equivalent o.spec.document latest.spec.document :=
  drift_at (by simp [Kind.differences, lateInitialize])

theorem drift_tags : (policyManager.drift o latest).differsAt "Spec.Tags" =
    !Tag.same o.spec.tags latest.spec.tags :=
  drift_at (by simp [Kind.differences, lateInitialize])

variable {o latest}

theorem Sees.name_iff (seen : Sees p arn latest) :
    (policyManager.drift o latest).differsAt "Spec.Name" = false ↔ p.name = o.spec.name := by
  rw [drift_name, seen.name, decide_eq_false_iff_not, not_not, eq_comm]

theorem Sees.path_iff (seen : Sees p arn latest) :
    (policyManager.drift o latest).differsAt "Spec.Path" = false ↔
      sameGiven (o.spec.path <|> some p.path) (some p.path) = true := by
  rw [drift_path, seen.path, Bool.not_eq_false']
  cases o.spec.path <;> rfl

theorem Sees.document_iff (seen : Sees p arn latest) (sound : p.versions.Sound) :
    (policyManager.drift o latest).differsAt "Spec.PolicyDocument" = false ↔
      ∀ id, p.Defaults id → Document.equivalent o.spec.document (p.documents id) = true := by
  obtain ⟨id, defaults, version⟩ := seen.told.version
  rw [drift_document, seen.document id version, Bool.not_eq_false']
  refine ⟨fun same id' defaults' => ?_, fun same => same id defaults⟩
  rw [defaults'.unique sound defaults]
  exact same

theorem Sees.tags_iff (seen : Sees p arn latest) :
    (policyManager.drift o latest).differsAt "Spec.Tags" = false ↔
      ∀ key, p.tags key = (Tag.table o.spec.tags).get? key := by
  rw [drift_tags, Bool.not_eq_false', Tag.same_iff]
  exact forall_congr' fun key => by rw [seen.tags key, eq_comm]

-- What a report tells of the description is left open, so nothing follows for it either way.
/-- Nothing but the description has drifted exactly when the policy is as it is asked for. -/
theorem Sees.conforms_iff (seen : Sees p arn latest) (sound : p.versions.Sound) :
    (∀ path ∈ Kind.policy.paths, path = "Spec.Description" ∨
      (policyManager.drift o latest).differsAt path = false) ↔ p.Conforms o.spec := by
  have fields : (∀ path ∈ Kind.policy.paths, path = "Spec.Description" ∨
      (policyManager.drift o latest).differsAt path = false) ↔
      (policyManager.drift o latest).differsAt "Spec.Name" = false ∧
      (policyManager.drift o latest).differsAt "Spec.Path" = false ∧
      (policyManager.drift o latest).differsAt "Spec.PolicyDocument" = false ∧
      (policyManager.drift o latest).differsAt "Spec.Tags" = false := by
    simp [Kind.paths]
  rw [fields, seen.name_iff, seen.path_iff, seen.document_iff sound, seen.tags_iff]
  constructor
  · intro h
    obtain ⟨name, path, document, tags⟩ := h
    exact ⟨name, path, document, tags⟩
  · intro h
    exact ⟨h.name, h.path, h.document, h.tags⟩

/-- A policy that is as it is asked for is in sync, but for a description that IAM tells otherwise. -/
theorem Sees.settled (seen : Sees p arn latest) (sound : p.versions.Sound) (conforms : p.Conforms o.spec) :
    (policyManager.drift o latest).isEmpty = true ∨
      o.spec.description.isSome ∧ (policyManager.drift o latest).checkImmutable policyManager.immutable =
        .error (.immutableFields ["Spec.Description"]) := by
  have others := (seen.conforms_iff sound).mpr conforms
  cases described : (policyManager.drift o latest).differsAt "Spec.Description" with
  | false =>
    refine .inl ((@Kind.isEmpty_delta_iff .policy _ _).mpr fun path compared => ?_)
    rcases others path compared with rfl | same
    · exact described
    · exact same
  | true =>
    have name := (others "Spec.Name" (by decide)).resolve_left (by decide)
    have path := (others "Spec.Path" (by decide)).resolve_left (by decide)
    have violated : (policyManager.drift o latest).violations policyManager.immutable =
        ["Spec.Description"] := by
      change ["Spec.Name", "Spec.Path", "Spec.Description"].filter _ = _
      simp [name, path, described]
    refine .inr ⟨?_, ?_⟩
    · rw [drift_description] at described
      cases given : o.spec.description with
      | none => simp [given, sameGiven] at described
      | some _ => rfl
    · unfold Delta.checkImmutable
      rw [violated]
      rfl

end Drift

end PolicyManager

end IamKeeper
