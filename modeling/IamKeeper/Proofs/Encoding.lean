import IamKeeper.Proofs.StatusPatch

namespace IamKeeper

open Json (Channel Codec Member Record)
open Json.Channel (direct_sound)
open Json.Codec (conveys_instant conveys_int32 conveys_string)
open Json.Member (conveys_defaulted conveys_nullable conveys_omittable conveys_optional conveys_required)
open Json.Record (conveys_start)

theorem Tag.lossless_codec : Tag.codec.Lossless := by
  refine Codec.Conveys.lossless (Record.Conveys.codec ?_ direct_sound fun _ => rfl)
  exact (conveys_start Tag.mk)
    |>.field (conveys_required Tag.key (conveys_string direct_sound)) (by decide)
    |>.field (conveys_defaulted Tag.value "" (conveys_string direct_sound)) (by decide)

variable {C : Channel}

theorem ReferenceTarget.conveys_codec (sound : C.Sound) : ReferenceTarget.codec.Conveys C := by
  refine Record.Conveys.codec ?_ sound fun _ => rfl
  exact (conveys_start ReferenceTarget.mk)
    |>.field (conveys_nullable ReferenceTarget.name sound (conveys_string sound)) (by decide)
    |>.field (conveys_nullable ReferenceTarget.space sound (conveys_string sound)).described (by decide)

theorem Reference.conveys_codec (sound : C.Sound) : Reference.codec.Conveys C := by
  refine Record.Conveys.codec ?_ sound fun _ => rfl
  exact (conveys_start Reference.mk)
    |>.field (conveys_nullable Reference.target sound (ReferenceTarget.conveys_codec sound)) (by decide)

section

variable {R α : Type} {name : String}

theorem conveys_listMember (get : R → List α) {codec : Codec α} (lossless : codec.Lossless) :
    (listMember name get codec).Conveys .direct :=
  conveys_omittable get [] List.isEmpty lossless.list fun _ => List.isEmpty_iff.mp

theorem conveys_tableMember (get : R → Table String) : (tableMember name get).Conveys .direct := by
  refine conveys_omittable get ∅ Table.isEmpty (Codec.Lossless.table fun _ => rfl) fun t empty => ?_
  obtain ⟨entries, ascending⟩ := t
  cases List.isEmpty_iff.mp empty
  rfl

end

namespace Metadata

theorem lossless_finalizersCodec : finalizersCodec.Lossless := by
  intro finalizers
  have list := (conveys_string direct_sound).lossless.list finalizers
  change ((Codec.list .string).decode ((Codec.list .string).encode finalizers) |>.map some |>.map (·.getD [])) = _
  rw [list]
  rfl

theorem conveys_record : record.Conveys .direct := by
  have text := conveys_string direct_sound
  exact (conveys_start Metadata.mk)
    |>.field (conveys_optional Metadata.name text) (by decide)
    |>.field (conveys_optional Metadata.generateName text) (by decide)
    |>.field (conveys_optional Metadata.space text) (by decide)
    |>.field (conveys_omittable Metadata.finalizers [] List.isEmpty lossless_finalizersCodec
      fun _ => List.isEmpty_iff.mp) (by decide)
    |>.field (conveys_optional Metadata.deletion (conveys_instant direct_sound)) (by decide)

theorem Form.members_of_absent {forms : List (String × Form)} {members : List (String × Json)}
    (absent : ∀ form ∈ forms, Entries.get? form.1 members = none) : Form.members forms (.object members) = true := by
  refine List.all_eq_true.mpr fun form hf => ?_
  simp only [absent form hf]

/-- What is kept of the metadata is written without what is not kept. -/
theorem conveys_codec : codec.Conveys .direct := by
  intro metadata found written
  refine ⟨_, written, nofun, ?_⟩
  have told (name : String) : Entries.get? name (Entries.ofList (record.members metadata)) =
      Entries.get? name (record.members metadata) :=
    Entries.get?_ofList (conveys_record.members_nodup metadata) name
  have rest : restForm (.object (Entries.ofList (record.members metadata))) = true := by
    refine Form.members_of_absent fun form hf => ?_
    rw [told]
    refine conveys_record.get?_eq_none ?_ metadata
    revert form
    decide
  change (if restForm (.object (Entries.ofList (record.members metadata))) = true then
    record.fromMembers (Entries.ofList (record.members metadata)) else none) = some metadata
  rw [if_pos rest]
  exact conveys_record.reads metadata _ fun name _ => told name

end Metadata

namespace Kind

theorem conveys_specCodec (kind : Kind) : kind.specCodec.Conveys .direct := by
  have text := conveys_string direct_sound
  have number := conveys_int32 direct_sound
  have reference := Reference.conveys_codec direct_sound
  cases kind
  all_goals refine Record.Conveys.codec ?_ direct_sound fun _ => rfl
  case role =>
    exact (conveys_start RoleSpec.mk)
      |>.field (conveys_required RoleSpec.name text).described (by decide)
      |>.field (conveys_optional RoleSpec.path text).described (by decide)
      |>.field (conveys_optional RoleSpec.description text) (by decide)
      |>.field (conveys_required RoleSpec.trust text).described (by decide)
      |>.field (conveys_optional RoleSpec.maxSession number).described (by decide)
      |>.field (conveys_optional RoleSpec.boundary text).described (by decide)
      |>.field (conveys_optional RoleSpec.boundaryRef reference) (by decide)
      |>.field (conveys_listMember RoleSpec.policies text.lossless).described (by decide)
      |>.field (conveys_listMember RoleSpec.policyRefs reference.lossless) (by decide)
      |>.field (conveys_tableMember RoleSpec.inline).described (by decide)
      |>.field (conveys_listMember RoleSpec.tags Tag.lossless_codec) (by decide)
  case policy =>
    exact (conveys_start PolicySpec.mk)
      |>.field (conveys_required PolicySpec.name text).described (by decide)
      |>.field (conveys_optional PolicySpec.path text).described (by decide)
      |>.field (conveys_optional PolicySpec.description text).described (by decide)
      |>.field (conveys_required PolicySpec.document text).described (by decide)
      |>.field (conveys_listMember PolicySpec.tags Tag.lossless_codec) (by decide)
  case group =>
    exact (conveys_start GroupSpec.mk)
      |>.field (conveys_required GroupSpec.name text) (by decide)
      |>.field (conveys_optional GroupSpec.path text) (by decide)
      |>.field (conveys_listMember GroupSpec.policies text.lossless) (by decide)
      |>.field (conveys_listMember GroupSpec.policyRefs reference.lossless) (by decide)
      |>.field (conveys_tableMember GroupSpec.inline) (by decide)
  case user =>
    exact (conveys_start UserSpec.mk)
      |>.field (conveys_required UserSpec.name text) (by decide)
      |>.field (conveys_optional UserSpec.path text) (by decide)
      |>.field (conveys_optional UserSpec.boundary text) (by decide)
      |>.field (conveys_optional UserSpec.boundaryRef reference) (by decide)
      |>.field (conveys_listMember UserSpec.policies text.lossless) (by decide)
      |>.field (conveys_listMember UserSpec.policyRefs reference.lossless) (by decide)
      |>.field (conveys_tableMember UserSpec.inline) (by decide)
      |>.field (conveys_listMember UserSpec.tags Tag.lossless_codec) (by decide)
  case instanceProfile =>
    exact (conveys_start InstanceProfileSpec.mk)
      |>.field (conveys_required InstanceProfileSpec.name text).described (by decide)
      |>.field (conveys_optional InstanceProfileSpec.path text).described (by decide)
      |>.field (conveys_optional InstanceProfileSpec.role text).described (by decide)
      |>.field (conveys_optional InstanceProfileSpec.roleRef reference) (by decide)
      |>.field (conveys_listMember InstanceProfileSpec.tags Tag.lossless_codec) (by decide)
  case oidcProvider =>
    exact (conveys_start OidcProviderSpec.mk)
      |>.field (conveys_required OidcProviderSpec.url text).described (by decide)
      |>.field (conveys_listMember OidcProviderSpec.clientIds text.lossless).described (by decide)
      |>.field (conveys_listMember OidcProviderSpec.thumbprints text.lossless).described (by decide)
      |>.field (conveys_listMember OidcProviderSpec.tags Tag.lossless_codec) (by decide)
  case samlProvider =>
    exact (conveys_start SamlProviderSpec.mk)
      |>.field (conveys_required SamlProviderSpec.name text).described (by decide)
      |>.field (conveys_required SamlProviderSpec.document text).described (by decide)
      |>.field (conveys_listMember SamlProviderSpec.tags Tag.lossless_codec) (by decide)
  case serviceLinkedRole =>
    exact (conveys_start ServiceLinkedRoleSpec.mk)
      |>.field (conveys_required ServiceLinkedRoleSpec.service text).described (by decide)
      |>.field (conveys_optional ServiceLinkedRoleSpec.suffix text).described (by decide)
      |>.field (conveys_optional ServiceLinkedRoleSpec.description text) (by decide)

theorem conveys_objectRecord (kind : Kind) : kind.objectRecord.Conveys .direct :=
  (conveys_start Object.mk)
    |>.field (conveys_required Object.metadata Metadata.conveys_codec) List.not_mem_nil
    |>.field (conveys_required Object.spec kind.conveys_specCodec) (show "spec" ∉ ["metadata"] by decide)
    |>.field (conveys_optional Object.status (kind.conveys_statusCodec direct_sound))
      (show "status" ∉ ["metadata", "spec"] by decide)

theorem decode_encode (kind : Kind) (o : kind.Object) : kind.decode (kind.encode o) = some o := by
  refine kind.conveys_objectRecord.reads o _ fun name hn => ?_
  have apart : ∀ name ∈ ["metadata", "spec", "status"], "kind" ≠ name ∧ "apiVersion" ≠ name := by decide
  obtain ⟨kindApart, versionApart⟩ := apart name hn
  change Entries.get? name (Entries.insert "kind" _
    (Entries.insert "apiVersion" _ (Entries.ofList (kind.objectRecord.members o)))) = _
  rw [Entries.get?_insert, if_neg kindApart, Entries.get?_insert, if_neg versionApart]
  exact Entries.get?_ofList (kind.conveys_objectRecord.members_nodup o) name

/-- An object that is written is read as it was, so that different specs and different statuses are written
differently. What was read of a document, which may be written in many ways, is read again when it is written anew. -/
theorem encode_faithful (kind : Kind) :
    (∀ o : kind.Object, kind.decode (kind.encode o) = some o) ∧
    Function.Injective kind.specCodec.encode ∧ Function.Injective kind.statusCodec.encode ∧
    ∀ v : Json, ((kind.decode v).bind fun o => kind.decode (kind.encode o)) = kind.decode v := by
  refine ⟨kind.decode_encode, kind.conveys_specCodec.lossless.encode_injective,
    (kind.conveys_statusCodec direct_sound).lossless.encode_injective, fun v => ?_⟩
  cases kind.decode v with
  | none => rfl
  | some o => exact kind.decode_encode o

end Kind

end IamKeeper
