import IamKeeper.Manager.Kinds
import IamKeeper.Proofs.Entries
import Mathlib.Data.List.Nodup

namespace IamKeeper

namespace Delta

/-- The delta of compared fields, each with whether it differs. -/
def ofFields (fields : List (Bool × String)) : Delta :=
  fields.foldl (fun delta field => delta.addIf field.1 field.2) Delta.empty

theorem mem_paths {delta : Delta} {path : String} :
    path ∈ delta.paths ↔ delta.differences.get? path = some () := by
  unfold paths
  rw [Table.mem_keys]
  constructor
  · intro h
    obtain ⟨⟨⟩, h⟩ := h
    exact h
  · intro h
    exact ⟨(), h⟩

theorem mem_paths_addIf {delta : Delta} {differs : Bool} {path new : String} :
    path ∈ (delta.addIf differs new).paths ↔ (differs = true ∧ path = new) ∨ path ∈ delta.paths := by
  rw [mem_paths, mem_paths]
  unfold addIf
  cases differs with
  | false => simp
  | true =>
    simp only [if_true, add, Table.get?_insert]
    by_cases h : new = path
    · simp [h]
    · simp [h, Ne.symm h]

theorem mem_paths_ofFields {fields : List (Bool × String)} {path : String} :
    path ∈ (ofFields fields).paths ↔ (true, path) ∈ fields := by
  have from_any (start : Delta) :
      path ∈ (fields.foldl (fun delta field => delta.addIf field.1 field.2) start).paths ↔
        (true, path) ∈ fields ∨ path ∈ start.paths := by
    induction fields generalizing start with
    | nil => simp
    | cons field fields ih =>
      rw [List.foldl_cons, ih, mem_paths_addIf, List.mem_cons]
      obtain ⟨differs, new⟩ := field
      simp only [Prod.mk.injEq]
      constructor
      · intro h
        rcases h with h | ⟨rfl, rfl⟩ | h
        · exact .inl (.inr h)
        · exact .inl (.inl ⟨rfl, rfl⟩)
        · exact .inr h
      · intro h
        rcases h with (⟨rfl, rfl⟩ | h) | h
        · exact .inr (.inl ⟨rfl, rfl⟩)
        · exact .inl h
        · exact .inr (.inr h)
  have empty : path ∉ Delta.empty.paths := by rw [mem_paths]; exact fun h => nomatch h
  unfold ofFields
  rw [from_any]
  exact or_iff_left empty

theorem isEmpty_iff {fields : List (Bool × String)} :
    (ofFields fields).isEmpty = true ↔ ∀ field ∈ fields, field.1 = false := by
  have size : (ofFields fields).isEmpty = true ↔ (ofFields fields).paths = [] := by
    unfold isEmpty paths Table.isEmpty Table.keys
    rw [List.isEmpty_iff, List.map_eq_nil_iff]
  rw [size, List.eq_nil_iff_forall_not_mem]
  constructor
  · rintro h ⟨differs, path⟩ hf
    cases differs with
    | false => rfl
    | true => exact absurd (mem_paths_ofFields.mpr hf) (h path)
  · intro h path hp
    exact nomatch h _ (mem_paths_ofFields.mp hp)

theorem differsAt_of_isEmpty {delta : Delta} (empty : delta.isEmpty = true) (path : String) :
    delta.differsAt path = false := by
  unfold isEmpty Table.isEmpty at empty
  unfold differsAt paths Table.keys
  rw [List.isEmpty_iff.mp empty]
  rfl

/-- No path of the list lies below another one. -/
def Flat (paths : List String) : Prop :=
  paths.Nodup ∧ ∀ p ∈ paths, ∀ q ∈ paths, covers p q = true → p = q

instance (paths : List String) : Decidable (Flat paths) :=
  inferInstanceAs (Decidable (_ ∧ _))

theorem covers_self (path : String) : covers path path = true := by
  have h : Text.afterFront? path.toList path.toList = some [] :=
    Text.afterFront?_eq_some.mpr (List.append_nil _).symm
  unfold covers
  rw [h]
  rfl

theorem differsAt_of_mem {fields : List (Bool × String)} (flat : Flat (fields.map Prod.snd))
    {differs : Bool} {path : String} (h : (differs, path) ∈ fields) :
    (ofFields fields).differsAt path = differs := by
  have hp : path ∈ fields.map Prod.snd := List.mem_map.mpr ⟨_, h, rfl⟩
  unfold differsAt
  cases differs with
  | true => exact List.any_eq_true.mpr ⟨path, mem_paths_ofFields.mpr h, covers_self path⟩
  | false =>
    rw [List.any_eq_false]
    intro q hq covered
    have hf := mem_paths_ofFields.mp hq
    have eq : path = q := flat.2 path hp q (List.mem_map.mpr ⟨_, hf, rfl⟩) covered
    subst eq
    have same := List.inj_on_of_nodup_map flat.1 h hf rfl
    exact nomatch same

theorem checkImmutable_eq_ok {delta : Delta} {immutable : List String} :
    delta.checkImmutable immutable = .ok () ↔ ∀ path ∈ immutable, delta.differsAt path = false := by
  have none : (delta.violations immutable).isEmpty = true ↔
      ∀ path ∈ immutable, delta.differsAt path = false := by
    unfold violations
    rw [List.isEmpty_iff, List.filter_eq_nil_iff]
    simp
  unfold checkImmutable
  rw [← none]
  cases h : (delta.violations immutable).isEmpty with
  | true => simp [h]
  | false => simp [h]

theorem checkImmutable_eq_error {delta : Delta} {immutable : List String} {fault : Fault}
    (h : delta.checkImmutable immutable = .error fault) :
    fault = .immutableFields (delta.violations immutable) := by
  unfold checkImmutable at h
  cases hv : (delta.violations immutable).isEmpty with
  | true => simp [hv] at h
  | false => simpa [hv] using h.symm

theorem mem_violations {delta : Delta} {immutable : List String} {path : String} :
    path ∈ delta.violations immutable ↔ path ∈ immutable ∧ delta.differsAt path = true :=
  List.mem_filter

end Delta

namespace Kind

open Iam

/-- The fields that the delta of a kind compares, each with whether it differs. -/
def differences : (kind : Kind) → (a b : kind.Spec) → List (Bool × String)
  | .role, a, b => [
    (a.name ≠ b.name, "Spec.Name"),
    (!sameGiven a.path b.path, "Spec.Path"),
    (!sameGiven a.description b.description, "Spec.Description"),
    (!Document.equivalent a.trust b.trust, "Spec.AssumeRolePolicyDocument"),
    (a.maxSession ≠ b.maxSession, "Spec.MaxSessionDuration"),
    (!sameGiven a.boundary b.boundary, "Spec.PermissionsBoundary"),
    (!sameMembers a.policies b.policies, "Spec.Policies"),
    (!sameInline a.inline b.inline, "Spec.InlinePolicies"),
    (!Tag.same a.tags b.tags, "Spec.Tags")]
  | .policy, a, b => [
    (a.name ≠ b.name, "Spec.Name"),
    (!sameGiven a.path b.path, "Spec.Path"),
    (!sameGiven a.description b.description, "Spec.Description"),
    (!Document.equivalent a.document b.document, "Spec.PolicyDocument"),
    (!Tag.same a.tags b.tags, "Spec.Tags")]
  | .group, a, b => [
    (a.name ≠ b.name, "Spec.Name"),
    (!sameGiven a.path b.path, "Spec.Path"),
    (!sameMembers a.policies b.policies, "Spec.Policies"),
    (!sameInline a.inline b.inline, "Spec.InlinePolicies")]
  | .user, a, b => [
    (a.name ≠ b.name, "Spec.Name"),
    (!sameGiven a.path b.path, "Spec.Path"),
    (!sameGiven a.boundary b.boundary, "Spec.PermissionsBoundary"),
    (!sameMembers a.policies b.policies, "Spec.Policies"),
    (!sameInline a.inline b.inline, "Spec.InlinePolicies"),
    (!Tag.same a.tags b.tags, "Spec.Tags")]
  | .instanceProfile, a, b => [
    (a.name ≠ b.name, "Spec.Name"),
    (!sameGiven a.path b.path, "Spec.Path"),
    (!sameGiven a.role b.role, "Spec.Role"),
    (!Tag.same a.tags b.tags, "Spec.Tags")]
  | .oidcProvider, a, b => [
    (OidcProviderManager.issuer a.url ≠ OidcProviderManager.issuer b.url, "Spec.URL"),
    (!sameMembers a.clientIds b.clientIds, "Spec.ClientIDs"),
    (!sameMembers a.thumbprints b.thumbprints, "Spec.Thumbprints"),
    (!Tag.same a.tags b.tags, "Spec.Tags")]
  | .samlProvider, a, b => [
    (a.name ≠ b.name, "Spec.Name"),
    (Text.trim a.document ≠ Text.trim b.document, "Spec.SAMLMetadataDocument"),
    (!Tag.same a.tags b.tags, "Spec.Tags")]
  | .serviceLinkedRole, a, b => [
    (a.service ≠ b.service, "Spec.AWSServiceName"),
    (!sameGiven a.suffix b.suffix, "Spec.CustomSuffix"),
    (!sameGiven a.description b.description, "Spec.Description")]

def paths : Kind → List String
  | .role => ["Spec.Name", "Spec.Path", "Spec.Description", "Spec.AssumeRolePolicyDocument",
    "Spec.MaxSessionDuration", "Spec.PermissionsBoundary", "Spec.Policies", "Spec.InlinePolicies",
    "Spec.Tags"]
  | .policy => ["Spec.Name", "Spec.Path", "Spec.Description", "Spec.PolicyDocument", "Spec.Tags"]
  | .group => ["Spec.Name", "Spec.Path", "Spec.Policies", "Spec.InlinePolicies"]
  | .user => ["Spec.Name", "Spec.Path", "Spec.PermissionsBoundary", "Spec.Policies",
    "Spec.InlinePolicies", "Spec.Tags"]
  | .instanceProfile => ["Spec.Name", "Spec.Path", "Spec.Role", "Spec.Tags"]
  | .oidcProvider => ["Spec.URL", "Spec.ClientIDs", "Spec.Thumbprints", "Spec.Tags"]
  | .samlProvider => ["Spec.Name", "Spec.SAMLMetadataDocument", "Spec.Tags"]
  | .serviceLinkedRole => ["Spec.AWSServiceName", "Spec.CustomSuffix", "Spec.Description"]

theorem delta_eq (kind : Kind) (a b : kind.Spec) :
    kind.manager.delta a b = Delta.ofFields (kind.differences a b) := by
  cases kind <;> rfl

theorem differences_paths (kind : Kind) (a b : kind.Spec) :
    (kind.differences a b).map Prod.snd = kind.paths := by
  cases kind <;> rfl

theorem paths_flat (kind : Kind) : Delta.Flat kind.paths := by
  cases kind <;> decide

theorem differsAt_of_mem {kind : Kind} {a b : kind.Spec} {differs : Bool} {path : String}
    (h : (differs, path) ∈ kind.differences a b) :
    (kind.manager.delta a b).differsAt path = differs := by
  rw [delta_eq]
  apply Delta.differsAt_of_mem _ h
  rw [differences_paths]
  exact kind.paths_flat

theorem isEmpty_delta_iff {kind : Kind} {a b : kind.Spec} :
    (kind.manager.delta a b).isEmpty = true ↔
      ∀ path ∈ kind.paths, (kind.manager.delta a b).differsAt path = false := by
  constructor
  · intro empty path _
    exact Delta.differsAt_of_isEmpty empty path
  · intro same
    rw [delta_eq, Delta.isEmpty_iff]
    rintro ⟨differs, path⟩ hf
    have compared : path ∈ kind.paths := by
      rw [← kind.differences_paths a b]
      exact List.mem_map.mpr ⟨_, hf, rfl⟩
    exact (differsAt_of_mem hf).symm.trans (same path compared)

end Kind

end IamKeeper
