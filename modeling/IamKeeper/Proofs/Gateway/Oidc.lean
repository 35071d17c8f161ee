import IamKeeper.Proofs.Calls
import IamKeeper.Proofs.Gateway.Store
import IamKeeper.Proofs.Listing

namespace IamKeeper

open Iam Plan Manager
open Gateways (Answers)
open OidcProviderManager (issuer scheme)

/-- The URL names its scheme once at most. -/
def OidcProviderSpec.Plain (s : OidcProviderSpec) : Prop :=
  ¬ scheme <+: (Gateway.reported s.url).toList

/-- An OIDC provider as it is read. -/
structure OidcProviderSpec.Sees (key : String) (latest : Kind.oidcProvider.Object)
    (e : Gateway .oidcProvider) : Prop where
  arn : latest.arn = some key
  url : latest.spec.url = Gateway.reported e.form.url
  clientIds : ∀ id, id ∈ latest.spec.clientIds ↔ id ∈ e.form.clientIds
  thumbprints : ∀ print, print ∈ latest.spec.thumbprints ↔ print ∈ e.form.thumbprints
  tags : ∀ key, (Tag.table latest.spec.tags).get? key = e.tags key

/-- An OIDC provider is as it is asked for. -/
structure OidcProviderSpec.Conforms (s : OidcProviderSpec) (e : Gateway .oidcProvider) : Prop where
  url : issuer (Gateway.reported e.form.url) = issuer s.url
  clientIds : ∀ id, id ∈ e.form.clientIds ↔ id ∈ s.clientIds
  thumbprints : ∀ print, print ∈ e.form.thumbprints ↔ print ∈ s.thumbprints
  tags : ∀ key, e.tags key = (Tag.table s.tags).get? key

/-- What is reported of a plain URL has the issuer of the URL. -/
theorem OidcProviderSpec.Plain.issuer_reported {s : OidcProviderSpec} (plain : s.Plain) :
    issuer (Gateway.reported s.url) = issuer s.url := by
  have bare : Text.afterFront? scheme (Gateway.reported s.url).toList = none := by
    cases h : Text.afterFront? scheme (Gateway.reported s.url).toList with
    | none => rfl
    | some rest => exact absurd ⟨rest, (Text.afterFront?_eq_some.mp h).symm⟩ plain
  have reported : (Gateway.reported s.url).toList =
      (Text.afterFront? scheme s.url.toList).getD s.url.toList := by
    simp [Gateway.reported, scheme]
  rw [reported] at bare
  simp only [issuer, reported, bare, Option.getD_none]

namespace OidcProviderManager

variable {directory : RoleDirectory} {g t : Gateways} {key : String} {e : Gateway .oidcProvider}
  {o latest observed : ProviderObject} {steps : List (Step world Gateways)}

/-- The provider with other client ids. -/
def serving (e : Gateway .oidcProvider) (clientIds : Set String) : Gateway .oidcProvider :=
  { e with form := { e.form with clientIds } }

/-- The provider with other thumbprints. -/
def trusting (e : Gateway .oidcProvider) (thumbprints : Set String) : Gateway .oidcProvider :=
  { e with form := { e.form with thumbprints } }

theorem listing (g : Gateways) (key : String) (e : Gateway .oidcProvider) :
    Listing (Answers directory) (addClientId key) (removeClientId key) fun clientIds =>
      g.put .oidcProvider key (serving e clientIds) where
  add run := by
    rw [((Gateways.run_noted_iam (.addClientId key _) run).eq (Gateways.put_self ..)).2, Gateways.put_put]
    rfl
  remove run := by
    rw [((Gateways.run_noted_iam (.removeClientId key _) run).eq (Gateways.put_self ..)).2, Gateways.put_put]
    rfl

theorem run_readOne {found : Option ProviderObject} (known : o.arn = some key)
    (run : Run (Answers directory) g (readOne o) steps (.ok found) t) :
    Option.Rel (OidcProviderSpec.Sees key) found (g .oidcProvider key) := by
  unfold readOne at run
  simp only [known] at run
  obtain ⟨answer, mid, _, _, hget, hrest, -⟩ := run_bind_ok.mp run
  obtain ⟨rfl, told⟩ := Gateways.run_iam_ok hget
  generalize hold : mid .oidcProvider key = old at told
  cases told with
  | none =>
    obtain ⟨-, h, -⟩ := run_pure.mp hrest
    cases h
    exact .none
  | @some report e told =>
    obtain ⟨url, clientIds, thumbprints⟩ := told
    obtain ⟨tags, _, _, _, htags, hend, -⟩ := run_bind_ok.mp hrest
    obtain ⟨-, f, hf, tagged⟩ := Gateways.run_iam_ok htags
    cases hf.symm.trans hold
    obtain ⟨-, h, -⟩ := run_pure.mp hend
    cases h
    refine .some ⟨known, ?_, clientIds, thumbprints, tagged⟩
    change report.url.getD o.spec.url = _
    rw [url]
    rfl

theorem inSync {s : OidcProviderSpec} (seen : OidcProviderSpec.Sees key latest e) :
    (oidcProviderManager.delta (oidcProviderManager.lateInitialize s latest.spec)
      latest.spec).isEmpty = true ↔ s.Conforms e := by
  change (Kind.oidcProvider.manager.delta s latest.spec).isEmpty = true ↔ _
  have fields : (∀ field ∈ Kind.oidcProvider.differences s latest.spec, field.1 = false) ↔
      issuer s.url = issuer (Gateway.reported e.form.url) ∧
      sameMembers s.clientIds latest.spec.clientIds = true ∧
      sameMembers s.thumbprints latest.spec.thumbprints = true ∧
      Tag.same s.tags latest.spec.tags = true := by
    simp [Kind.differences, seen.url]
  rw [Kind.delta_eq, Delta.isEmpty_iff, fields, sameMembers_iff, sameMembers_iff, Tag.same_iff]
  constructor
  · intro h
    obtain ⟨url, clientIds, thumbprints, tags⟩ := h
    exact ⟨url.symm, fun id => ((clientIds id).trans (seen.clientIds id)).symm,
      fun print => ((thumbprints print).trans (seen.thumbprints print)).symm,
      fun key => ((tags key).trans (seen.tags key)).symm⟩
  · intro h
    obtain ⟨url, clientIds, thumbprints, tags⟩ := h
    exact ⟨url.symm, fun id => (clientIds id).symm.trans (seen.clientIds id).symm,
      fun print => (thumbprints print).symm.trans (seen.thumbprints print).symm,
      fun key => (tags key).symm.trans (seen.tags key).symm⟩

theorem run_create (plain : o.spec.Plain)
    (run : Run (Answers directory) g (create o) steps (.ok observed) t) :
    ∃ key e, g .oidcProvider key = none ∧ t = g.put .oidcProvider key e ∧ o.spec.Conforms e ∧
      observed.arn = some key := by
  obtain ⟨arn, mid, _, _, hcreate, hrest, -⟩ := run_bind_ok.mp run
  obtain ⟨absent, rfl⟩ := Gateways.run_iam_ok hcreate
  obtain ⟨_, mid, _, _, hnote, hend, -⟩ := run_bind_ok.mp hrest
  cases Gateways.run_note hnote
  obtain ⟨-, h, rfl⟩ := run_pure.mp hend
  cases h
  exact ⟨arn, _, absent, rfl, ⟨plain.issuer_reported, fun _ => Iff.rfl, fun _ => Iff.rfl, fun _ => rfl⟩, rfl⟩

theorem run_replace {delta : Delta} {desired : List String} (there : g .oidcProvider key = some e)
    (seen : ∀ print, print ∈ latest.spec.thumbprints ↔ print ∈ e.form.thumbprints)
    (differs : delta.differsAt "Spec.Thumbprints" = !sameMembers desired latest.spec.thumbprints)
    (run : Run (Answers directory) g
      (whenDiffers delta "Spec.Thumbprints" <| Job.iam (.updateThumbprints key desired)) steps (.ok ()) t) :
    t = g.put .oidcProvider key (trusting e {print | print ∈ desired}) := by
  rcases run_whenDiffers differs run with ⟨-, run⟩ | ⟨same, rfl⟩
  · exact ((Gateways.run_iam_ok run).eq there).2
  · rw [members_of_same (by simpa using same) seen]
    exact (Gateways.put_same there).symm

theorem run_update (there : g .oidcProvider key = some e) (seen : OidcProviderSpec.Sees key latest e)
    (run : Run (Answers directory) g
      (oidcProviderManager.update (oidcProviderManager.wish o latest) latest
        (oidcProviderManager.drift o latest)) steps (.ok observed) t) :
    ∃ f, t = g.put .oidcProvider key f ∧ o.spec.Conforms f := by
  rcases Manager.run_update run with ⟨_, -, -, outcome, -⟩ | ⟨allowed, run⟩
  · cases outcome
  have differs {d : Bool} {path : String} (field : (d, path) ∈
      Kind.oidcProvider.differences o.spec latest.spec) :
      (oidcProviderManager.drift o latest).differsAt path = d :=
    Kind.differsAt_of_mem field
  have hurl : (oidcProviderManager.drift o latest).differsAt "Spec.URL" =
      decide (issuer o.spec.url ≠ issuer latest.spec.url) :=
    differs (by simp [Kind.differences])
  have hprints : (oidcProviderManager.drift o latest).differsAt "Spec.Thumbprints" =
      !sameMembers o.spec.thumbprints latest.spec.thumbprints :=
    differs (by simp [Kind.differences])
  have hids : (oidcProviderManager.drift o latest).differsAt "Spec.ClientIDs" =
      !sameMembers o.spec.clientIds latest.spec.clientIds :=
    differs (by simp [Kind.differences])
  have htags : (oidcProviderManager.drift o latest).differsAt "Spec.Tags" =
      !Tag.same o.spec.tags latest.spec.tags :=
    differs (by simp [Kind.differences])
  have url : issuer (Gateway.reported e.form.url) = issuer o.spec.url := by
    have same := Delta.checkImmutable_eq_ok.mp allowed "Spec.URL" (by simp [oidcProviderManager])
    rw [hurl, seen.url] at same
    exact (by simpa using same : issuer o.spec.url = _).symm
  change Run _ _ (change o latest _) _ _ _ at run
  unfold change at run
  simp only [seen.arn] at run
  obtain ⟨_, _, _, _, hreplace, run, -⟩ := run_bind_ok.mp run
  cases run_replace there seen.thumbprints hprints hreplace
  obtain ⟨_, _, _, _, hserve, run, -⟩ := run_bind_ok.mp run
  cases (listing g key (trusting e {print | print ∈ o.spec.thumbprints})).run_realign hserve
    seen.clientIds hids
  obtain ⟨_, _, _, _, htag, run, -⟩ := run_bind_ok.mp run
  cases (Gateways.tagging rfl g (serving (trusting e _) _)).run_retag htag seen.tags htags
  obtain ⟨_, _, _, _, hnote, hend, -⟩ := run_bind_ok.mp run
  cases Gateways.run_note hnote
  cases (run_pure.mp hend).2.2
  exact ⟨_, rfl, ⟨url, fun _ => Iff.rfl, fun _ => Iff.rfl, fun _ => rfl⟩⟩

theorem settling (directory : RoleDirectory) :
    Settling (Answers directory) (Gateways.kept .oidcProvider) oidcProviderManager
      Kind.oidcProvider.key? OidcProviderSpec.Plain (fun _ => OidcProviderSpec.Sees)
      (fun s _ _ => s.Conforms) where
  still reads answered := answered.still reads
  lookups _ := trivial
  resolved run run' := (run_pure.mp run).2.1.trans (run_pure.mp run').2.1.symm
  resolve_status _ _ := rfl
  fine run plain := by
    obtain ⟨-, h, -⟩ := run_pure.mp run
    cases h
    exact plain
  reads := @Kind.asks_readOne .oidcProvider
  blames := Gateways.blames (k := .oidcProvider)
  blind := Gateways.blind (k := .oidcProvider)
  found known run := run_readOne known run
  tells seen := seen.arn
  inSync := inSync
  create plain _ run := run_create plain run
  update there seen run := by
    obtain ⟨f, only, conforms⟩ := run_update there seen run
    exact ⟨f, only, conforms, Gateways.tells (k := .oidcProvider) seen.arn run⟩
  again := id

end OidcProviderManager

end IamKeeper
