import IamKeeper.Proofs.Calls
import IamKeeper.Proofs.Gateway.Store

namespace IamKeeper

open Iam Plan Manager
open Gateways (Answers)

/-- A SAML provider as it is read. -/
structure SamlProviderSpec.Sees (key : String) (latest : Kind.samlProvider.Object)
    (e : Gateway .samlProvider) : Prop where
  arn : latest.arn = some key
  name : latest.spec.name = e.form.name
  document : latest.spec.document = e.form.document
  tags : ∀ key, (Tag.table latest.spec.tags).get? key = e.tags key

/-- A SAML provider is as it is asked for. -/
structure SamlProviderSpec.Conforms (s : SamlProviderSpec) (e : Gateway .samlProvider) : Prop where
  name : e.form.name = s.name
  document : Text.trim e.form.document = Text.trim s.document
  tags : ∀ key, e.tags key = (Tag.table s.tags).get? key

namespace SamlProviderManager

theorem afterLast?_eq_none {c : Char} {part s : List Char} (absent : c ∉ s) :
    afterLast? (c :: part) s = none := by
  have front {s : List Char} (absent : c ∉ s) : Text.afterFront? (c :: part) s = none := by
    cases h : Text.afterFront? (c :: part) s with
    | none => rfl
    | some rest =>
      rw [Text.afterFront?_eq_some.mp h] at absent
      exact absurd (List.mem_cons_self ..) absent
  induction s with
  | nil => exact front absent
  | cons d s ih =>
    unfold afterLast?
    rw [ih fun h => absent (List.mem_cons_of_mem _ h)]
    exact front absent

/-- Where the first character of a part stands nowhere behind it, the part occurs there for the last time. -/
theorem afterLast?_append {c : Char} {part rest : List Char} (absent : c ∉ part ++ rest)
    (front : List Char) : afterLast? (c :: part) (front ++ c :: part ++ rest) = some rest := by
  induction front with
  | nil =>
    change afterLast? (c :: part) (c :: (part ++ rest)) = some rest
    unfold afterLast?
    rw [afterLast?_eq_none absent]
    exact Text.afterFront?_eq_some.mpr rfl
  | cons d front ih =>
    rw [List.cons_append, List.cons_append]
    unfold afterLast?
    rw [ih]

/-- The name that an ARN ends with is what is read off it. -/
theorem nameOf?_of_names {arn name : String} (names : Gateway.Names arn name) : nameOf? arn = some name := by
  obtain ⟨⟨front, rfl⟩, colon, -⟩ := names
  have absent : ':' ∉ "saml-provider/".toList ++ name.toList := by
    rw [List.mem_append, not_or]
    exact ⟨by decide, colon⟩
  have text : (front ++ ":saml-provider/" ++ name).toList =
      front.toList ++ ':' :: "saml-provider/".toList ++ name.toList := by
    simp
  unfold nameOf?
  rw [text]
  change (afterLast? (':' :: "saml-provider/".toList) _).map String.ofList = some name
  rw [afterLast?_append absent]
  exact congrArg some (String.ofList_toList ..)

variable {directory : RoleDirectory} {g t : Gateways} {key : String} {e : Gateway .samlProvider}
  {o latest observed : ProviderObject} {steps : List (Step world Gateways)}

theorem run_readOne {found : Option ProviderObject} (known : o.arn = some key)
    (run : Run (Answers directory) g (readOne o) steps (.ok found) t) :
    Option.Rel (SamlProviderSpec.Sees key) found (g .samlProvider key) := by
  unfold readOne at run
  simp only [known] at run
  obtain ⟨answer, mid, _, _, hget, hrest, -⟩ := run_bind_ok.mp run
  obtain ⟨rfl, told⟩ := Gateways.run_iam_ok hget
  generalize hold : mid .samlProvider key = old at told
  cases told with
  | none =>
    obtain ⟨-, h, -⟩ := run_pure.mp hrest
    cases h
    exact .none
  | @some report e told =>
    obtain ⟨names, document⟩ := told
    obtain ⟨tags, _, _, _, htags, hend, -⟩ := run_bind_ok.mp hrest
    obtain ⟨-, f, hf, tagged⟩ := Gateways.run_iam_ok htags
    cases hf.symm.trans hold
    obtain ⟨-, h, -⟩ := run_pure.mp hend
    cases h
    refine .some ⟨?_, ?_, ?_, tagged⟩
    · exact (@Kind.key?_withDetail .samlProvider nofun o.spec _ _).trans known
    · change (nameOf? key).getD o.spec.name = e.form.name
      rw [nameOf?_of_names names]
      rfl
    · change report.document.getD o.spec.document = e.form.document
      rw [document]
      rfl

theorem inSync {s : SamlProviderSpec} (seen : SamlProviderSpec.Sees key latest e) :
    (samlProviderManager.delta (samlProviderManager.lateInitialize s latest.spec)
      latest.spec).isEmpty = true ↔ s.Conforms e := by
  change (Kind.samlProvider.manager.delta s latest.spec).isEmpty = true ↔ _
  have fields : (∀ field ∈ Kind.samlProvider.differences s latest.spec, field.1 = false) ↔
      s.name = e.form.name ∧ Text.trim s.document = Text.trim e.form.document ∧
      Tag.same s.tags latest.spec.tags = true := by
    simp [Kind.differences, seen.name, seen.document]
  rw [Kind.delta_eq, Delta.isEmpty_iff, fields, Tag.same_iff]
  constructor
  · intro h
    obtain ⟨name, document, tags⟩ := h
    exact ⟨name.symm, document.symm, fun key => ((tags key).trans (seen.tags key)).symm⟩
  · intro h
    obtain ⟨name, document, tags⟩ := h
    exact ⟨name.symm, document.symm, fun key => (tags key).symm.trans (seen.tags key).symm⟩

theorem run_create (run : Run (Answers directory) g (create o) steps (.ok observed) t) :
    ∃ key e, g .samlProvider key = none ∧ t = g.put .samlProvider key e ∧ o.spec.Conforms e ∧
      observed.arn = some key := by
  obtain ⟨arn, mid, _, _, hcreate, hrest, -⟩ := run_bind_ok.mp run
  obtain ⟨-, absent, rfl⟩ := Gateways.run_iam_ok hcreate
  obtain ⟨_, mid, _, _, hnote, hend, -⟩ := run_bind_ok.mp hrest
  cases Gateways.run_note hnote
  obtain ⟨-, h, rfl⟩ := run_pure.mp hend
  cases h
  exact ⟨arn, _, absent, rfl, ⟨rfl, rfl, fun _ => rfl⟩, rfl⟩

/-- The provider with another document. -/
def describing (e : Gateway .samlProvider) (document : String) : Gateway .samlProvider :=
  { e with form := { e.form with document } }

theorem run_describe {delta : Delta} {desired : String} (there : g .samlProvider key = some e)
    (differs : delta.differsAt "Spec.SAMLMetadataDocument" =
      decide (Text.trim desired ≠ Text.trim e.form.document))
    (run : Run (Answers directory) g
      (whenDiffers delta "Spec.SAMLMetadataDocument" <| Job.iam (.updateSamlProvider key desired)) steps
      (.ok ()) t) :
    ∃ document, Text.trim document = Text.trim desired ∧
      t = g.put .samlProvider key (describing e document) := by
  rcases run_whenDiffers differs run with ⟨-, run⟩ | ⟨same, rfl⟩
  · exact ⟨desired, rfl, ((Gateways.run_iam_ok run).eq there).2⟩
  · have same : Text.trim desired = Text.trim e.form.document := by simpa using same
    exact ⟨e.form.document, same.symm, (Gateways.put_same there).symm⟩

theorem run_update (there : g .samlProvider key = some e) (seen : SamlProviderSpec.Sees key latest e)
    (run : Run (Answers directory) g
      (samlProviderManager.update (samlProviderManager.wish o latest) latest
        (samlProviderManager.drift o latest)) steps (.ok observed) t) :
    ∃ f, t = g.put .samlProvider key f ∧ o.spec.Conforms f := by
  rcases Manager.run_update run with ⟨_, -, -, outcome, -⟩ | ⟨allowed, run⟩
  · cases outcome
  have differs {d : Bool} {path : String} (field : (d, path) ∈
      Kind.samlProvider.differences o.spec latest.spec) :
      (samlProviderManager.drift o latest).differsAt path = d :=
    Kind.differsAt_of_mem field
  have hname : (samlProviderManager.drift o latest).differsAt "Spec.Name" =
      decide (o.spec.name ≠ e.form.name) :=
    differs (by simp [Kind.differences, seen.name])
  have hdocument : (samlProviderManager.drift o latest).differsAt "Spec.SAMLMetadataDocument" =
      decide (Text.trim o.spec.document ≠ Text.trim e.form.document) :=
    differs (by simp [Kind.differences, seen.document])
  have htags : (samlProviderManager.drift o latest).differsAt "Spec.Tags" =
      !Tag.same o.spec.tags latest.spec.tags :=
    differs (by simp [Kind.differences])
  have name : e.form.name = o.spec.name := by
    have same := Delta.checkImmutable_eq_ok.mp allowed "Spec.Name" (by simp [samlProviderManager])
    rw [hname] at same
    exact (by simpa using same : o.spec.name = e.form.name).symm
  change Run _ _ (change o latest _) _ _ _ at run
  unfold change at run
  simp only [seen.arn] at run
  obtain ⟨_, _, _, _, hdescribe, run, -⟩ := run_bind_ok.mp run
  obtain ⟨document, same, rfl⟩ := run_describe there hdocument hdescribe
  obtain ⟨_, _, _, _, htag, run, -⟩ := run_bind_ok.mp run
  cases (Gateways.tagging rfl g (describing e document)).run_retag htag seen.tags htags
  obtain ⟨_, _, _, _, hnote, hend, -⟩ := run_bind_ok.mp run
  cases Gateways.run_note hnote
  cases (run_pure.mp hend).2.2
  exact ⟨_, rfl, ⟨name, same, fun _ => rfl⟩⟩

theorem settling (directory : RoleDirectory) :
    Settling (Answers directory) (Gateways.kept .samlProvider) samlProviderManager
      Kind.samlProvider.key? (fun _ => True) (fun _ => SamlProviderSpec.Sees)
      (fun s _ _ => s.Conforms) where
  still reads answered := answered.still reads
  lookups _ := trivial
  resolved run run' := (run_pure.mp run).2.1.trans (run_pure.mp run').2.1.symm
  resolve_status _ _ := rfl
  fine _ _ := trivial
  reads := @Kind.asks_readOne .samlProvider
  blames := Gateways.blames (k := .samlProvider)
  blind := Gateways.blind (k := .samlProvider)
  found known run := run_readOne known run
  tells seen := seen.arn
  inSync := inSync
  create _ _ run := run_create run
  update there seen run := by
    obtain ⟨f, only, conforms⟩ := run_update there seen run
    exact ⟨f, only, conforms, Gateways.tells (k := .samlProvider) seen.arn run⟩
  again := id

end SamlProviderManager

end IamKeeper
