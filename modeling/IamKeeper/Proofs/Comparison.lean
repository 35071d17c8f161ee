import IamKeeper.Proofs.Delta
import IamKeeper.Proofs.TagDelta

namespace IamKeeper

namespace Tag

/-- Among tags with distinct keys the last one of a key is the only one. -/
theorem last?_eq_some_iff {tags : List Tag} (distinct : (tags.map key).Nodup) {k v : String} :
    last? tags k = some v ↔ ⟨k, v⟩ ∈ tags := by
  unfold last?
  constructor
  · intro h
    obtain ⟨tag, found, rfl⟩ := Option.map_eq_some_iff.mp h
    have same : tag.key = k := by simpa using List.find?_some found
    subst same
    exact List.mem_reverse.mp (List.mem_of_find?_eq_some found)
  · intro mem
    obtain ⟨tag, found⟩ : ∃ tag, tags.reverse.find? (fun tag => tag.key = k) = some tag := by
      apply Option.isSome_iff_exists.mp
      rw [List.find?_isSome]
      exact ⟨⟨k, v⟩, List.mem_reverse.mpr mem, by simp⟩
    have same : tag.key = k := by simpa using List.find?_some found
    have only : tag = ⟨k, v⟩ :=
      List.inj_on_of_nodup_map distinct (List.mem_reverse.mp (List.mem_of_find?_eq_some found)) mem same
    rw [found, only]
    rfl

theorem last?_perm {tags tags' : List Tag} (perm : tags.Perm tags') (distinct : (tags.map key).Nodup) :
    last? tags = last? tags' := by
  have distinct' : (tags'.map key).Nodup := (perm.map key).nodup_iff.mp distinct
  funext k
  apply Option.ext
  intro v
  rw [last?_eq_some_iff distinct, last?_eq_some_iff distinct', perm.mem_iff]

/-- Lists of tags that make no difference: they say the same of each key, or have distinct keys and are one list in two
orders. -/
inductive Alike : List Tag → List Tag → Prop
  | said {a b : List Tag} (same : last? a = last? b) : Alike a b
  | reordered {a b : List Tag} (perm : a.Perm b) (distinct : (a.map key).Nodup) : Alike a b

theorem Alike.same {a b : List Tag} (alike : Alike a b) (c : List Tag) : Tag.same a c = Tag.same b c := by
  have said : last? a = last? b := by
    cases alike with
    | said same => exact same
    | reordered perm distinct => exact last?_perm perm distinct
  unfold Tag.same
  rw [TagDelta.table_eq_of_last? said]

end Tag

namespace Iam

/-- Lists that make no difference: they have the same items, in whatever order and number. -/
def AlikeItems (a b : List String) : Prop :=
  ∀ item, item ∈ a ↔ item ∈ b

/-- Optional texts that make no difference: an absent one is like an empty one. -/
def AlikeText (a b : Option String) : Prop :=
  given a = given b

theorem AlikeItems.sameMembers {a b : List String} (alike : AlikeItems a b) (c : List String) :
    sameMembers a c = sameMembers b c := by
  unfold Iam.sameMembers
  rw [distinct_eq_iff.mpr alike]

theorem AlikeText.sameGiven {a b : Option String} (alike : AlikeText a b) (c : Option String) :
    sameGiven a c = sameGiven b c := by
  unfold AlikeText at alike
  rw [Bool.eq_iff_iff, sameGiven_iff, sameGiven_iff, alike]

theorem sameMembers_comm (a b : List String) : sameMembers a b = sameMembers b a :=
  decide_eq_decide.mpr eq_comm

theorem sameGiven_comm (a b : Option String) : sameGiven a b = sameGiven b a :=
  decide_eq_decide.mpr eq_comm

theorem SameDocument.symm {a b : Option String} (same : SameDocument a b) : SameDocument b a := by
  cases same with
  | none => exact .none
  | some h => exact .some (Document.equivalent_comm _ _ ▸ h)

/-- The second table is looked up for the names of the first, and yet neither is preferred. -/
theorem sameInline_comm (a b : Table String) : sameInline a b = sameInline b a := by
  rw [Bool.eq_iff_iff, sameInline_iff, sameInline_iff]
  exact ⟨fun same name => (same name).symm, fun same name => (same name).symm⟩

end Iam

namespace Kind

open Iam
open OidcProviderManager (issuer)

/-- Two specs of which a delta can tell no difference, compared with any third one. Of the references nothing is
compared, nor of what else stands in an object. -/
def Indistinct : (kind : Kind) → (s t : kind.Spec) → Prop
  | .role, s, t => s.name = t.name ∧ AlikeText s.path t.path ∧ AlikeText s.description t.description ∧
    s.trust = t.trust ∧ s.maxSession = t.maxSession ∧ AlikeText s.boundary t.boundary ∧
    AlikeItems s.policies t.policies ∧ s.inline = t.inline ∧ Tag.Alike s.tags t.tags
  | .policy, s, t => s.name = t.name ∧ AlikeText s.path t.path ∧ AlikeText s.description t.description ∧
    s.document = t.document ∧ Tag.Alike s.tags t.tags
  | .group, s, t => s.name = t.name ∧ AlikeText s.path t.path ∧ AlikeItems s.policies t.policies ∧
    s.inline = t.inline
  | .user, s, t => s.name = t.name ∧ AlikeText s.path t.path ∧ AlikeText s.boundary t.boundary ∧
    AlikeItems s.policies t.policies ∧ s.inline = t.inline ∧ Tag.Alike s.tags t.tags
  | .instanceProfile, s, t => s.name = t.name ∧ AlikeText s.path t.path ∧ AlikeText s.role t.role ∧
    Tag.Alike s.tags t.tags
  | .oidcProvider, s, t => issuer s.url = issuer t.url ∧ AlikeItems s.clientIds t.clientIds ∧
    AlikeItems s.thumbprints t.thumbprints ∧ Tag.Alike s.tags t.tags
  | .samlProvider, s, t => s.name = t.name ∧ Text.trim s.document = Text.trim t.document ∧ Tag.Alike s.tags t.tags
  | .serviceLinkedRole, s, t => s.service = t.service ∧ AlikeText s.suffix t.suffix ∧
    AlikeText s.description t.description

variable {kind : Kind}

theorem differences_self (s : kind.Spec) : ∀ field ∈ kind.differences s s, field.1 = false := by
  cases kind <;>
    simp [differences, sameGiven_refl, Document.equivalent_refl, sameMembers, Tag.same, sameInline_iff,
      SameDocument.refl]

theorem differences_comm (s t : kind.Spec) : kind.differences s t = kind.differences t s := by
  cases kind <;>
    simp only [differences, ne_comm, sameGiven_comm, Document.equivalent_comm, sameMembers_comm, sameInline_comm,
      Tag.same_comm]

theorem Indistinct.differences {s t : kind.Spec} (alike : kind.Indistinct s t) (u : kind.Spec) :
    kind.differences s u = kind.differences t u := by
  cases kind with
  | role =>
    obtain ⟨name, path, description, trust, maxSession, boundary, policies, inline, tags⟩ := alike
    simp only [Kind.differences, name, path.sameGiven, description.sameGiven, trust, maxSession, boundary.sameGiven,
      policies.sameMembers, inline, tags.same]
  | policy =>
    obtain ⟨name, path, description, document, tags⟩ := alike
    simp only [Kind.differences, name, path.sameGiven, description.sameGiven, document, tags.same]
  | group =>
    obtain ⟨name, path, policies, inline⟩ := alike
    simp only [Kind.differences, name, path.sameGiven, policies.sameMembers, inline]
  | user =>
    obtain ⟨name, path, boundary, policies, inline, tags⟩ := alike
    simp only [Kind.differences, name, path.sameGiven, boundary.sameGiven, policies.sameMembers, inline, tags.same]
  | instanceProfile =>
    obtain ⟨name, path, role, tags⟩ := alike
    simp only [Kind.differences, name, path.sameGiven, role.sameGiven, tags.same]
  | oidcProvider =>
    obtain ⟨url, clientIds, thumbprints, tags⟩ := alike
    simp only [Kind.differences, url, clientIds.sameMembers, thumbprints.sameMembers, tags.same]
  | samlProvider =>
    obtain ⟨name, document, tags⟩ := alike
    simp only [Kind.differences, name, document, tags.same]
  | serviceLinkedRole =>
    obtain ⟨service, suffix, description⟩ := alike
    simp only [Kind.differences, service, suffix.sameGiven, description.sameGiven]

theorem delta_comm (s t : kind.Spec) : kind.manager.delta s t = kind.manager.delta t s := by
  rw [delta_eq, delta_eq, differences_comm]

theorem Indistinct.delta {s t : kind.Spec} (alike : kind.Indistinct s t) (u : kind.Spec) :
    kind.manager.delta s u = kind.manager.delta t u := by
  rw [delta_eq, delta_eq, alike.differences]

/-- An object does not differ from itself, differs from another one as that one does from it, and may be exchanged for
one with an indistinct spec on either side. -/
theorem delta_laws (kind : Kind) (a b : kind.Object) :
    (kind.manager.delta a.spec a.spec).isEmpty = true ∧
    kind.manager.delta a.spec b.spec = kind.manager.delta b.spec a.spec ∧
    ∀ a' b' : kind.Object, kind.Indistinct a.spec a'.spec → kind.Indistinct b.spec b'.spec →
      kind.manager.delta a.spec b.spec = kind.manager.delta a'.spec b'.spec := by
  refine ⟨?_, delta_comm _ _, fun a' b' ha hb => ?_⟩
  · rw [delta_eq, Delta.isEmpty_iff]
    exact differences_self a.spec
  · calc kind.manager.delta a.spec b.spec
      _ = kind.manager.delta a'.spec b.spec := ha.delta _
      _ = kind.manager.delta b.spec a'.spec := delta_comm _ _
      _ = kind.manager.delta b'.spec a'.spec := hb.delta _
      _ = kind.manager.delta a'.spec b'.spec := delta_comm _ _

def writtenRole : RoleObject where
  metadata := ⟨some "app", none, some "space", [], none⟩
  spec := ⟨"app", none, some "", "", none, none, none, ["arn:one", "arn:two"], [], ∅,
    [⟨"a", "1"⟩, ⟨"b", "2"⟩]⟩
  status := none

/-- The same role with its lists in another order, and one of them with a repetition. -/
def rewrittenRole : RoleObject where
  metadata := ⟨some "app", none, some "space", [], none⟩
  spec := ⟨"app", some "", none, "", none, none, none, ["arn:two", "arn:one", "arn:two"], [], ∅,
    [⟨"b", "2"⟩, ⟨"a", "1"⟩]⟩
  status := some ⟨some (.ofArn "arn:app"), [], default⟩

/-- However the role is written, it differs from one without policies in the same field. -/
theorem delta_laws_rewritten :
    let bare : RoleObject := { writtenRole with spec := { writtenRole.spec with policies := [] } }
    Kind.role.Indistinct writtenRole.spec rewrittenRole.spec ∧ Kind.role.Indistinct bare.spec bare.spec ∧
      (Kind.role.manager.delta rewrittenRole.spec bare.spec).paths = ["Spec.Policies"] := by
  intro bare
  have policies : AlikeItems writtenRole.spec.policies rewrittenRole.spec.policies := by
    intro item
    simp only [writtenRole, rewrittenRole, List.mem_cons, List.not_mem_nil, or_false]
    tauto
  have alike : Kind.role.Indistinct writtenRole.spec rewrittenRole.spec :=
    ⟨rfl, rfl, rfl, rfl, rfl, rfl, policies, rfl, .reordered (.swap ..) (by decide)⟩
  have self : Kind.role.Indistinct bare.spec bare.spec :=
    ⟨rfl, rfl, rfl, rfl, rfl, rfl, fun _ => .rfl, rfl, .said rfl⟩
  obtain ⟨-, -, same⟩ := delta_laws .role writtenRole bare
  rw [← same rewrittenRole bare alike self]
  exact ⟨alike, self, by decide⟩

end Kind

end IamKeeper
