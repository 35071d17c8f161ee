import IamKeeper.Proofs.Json.Codec
import IamKeeper.Resource.Kind

namespace IamKeeper

open Json (Channel Codec Member Record)
open Json.Codec (conveys_bool conveys_instant conveys_int32 conveys_list conveys_string)
open Json.Member (conveys_defaulted conveys_nullable conveys_optional conveys_required)
open Json.Record (conveys_start)

variable {C : Channel}

theorem ConditionType.conveys_codec (sound : C.Sound) : ConditionType.codec.Conveys C :=
  Codec.Lossless.conveys (fun type => by cases type <;> rfl) sound fun _ => trivial

theorem ConditionStatus.conveys_codec (sound : C.Sound) : ConditionStatus.codec.Conveys C :=
  Codec.Lossless.conveys (fun status => by cases status <;> rfl) sound fun _ => trivial

theorem Condition.lossless_codec : Condition.codec.Lossless := by
  have sound := Channel.direct_sound
  refine Codec.Conveys.lossless (Record.Conveys.codec ?_ sound fun _ => rfl)
  exact (conveys_start Condition.mk)
    |>.field (conveys_required Condition.type (ConditionType.conveys_codec sound)) (by decide)
    |>.field (conveys_required Condition.status (ConditionStatus.conveys_codec sound)) (by decide)
    |>.field (conveys_optional Condition.message (conveys_string sound)) (by decide)
    |>.field (conveys_optional Condition.reason (conveys_string sound)) (by decide)
    |>.field (conveys_optional Condition.since (conveys_instant sound)) (by decide)

theorem Identity.conveys_codec (sound : C.Sound) : Identity.codec.Conveys C := by
  refine Record.Conveys.codec ?_ sound fun _ => rfl
  exact (conveys_start Identity.mk)
    |>.field (conveys_nullable Identity.arn sound (conveys_string sound)) (by decide)
    |>.field (conveys_nullable Identity.account sound (conveys_string sound)) (by decide)
    |>.field (conveys_nullable Identity.region sound (conveys_string sound)) (by decide)

theorem LastUsed.conveys_codec (sound : C.Sound) : LastUsed.codec.Conveys C := by
  refine Record.Conveys.codec ?_ sound fun _ => rfl
  exact (conveys_start LastUsed.mk)
    |>.field (conveys_nullable LastUsed.date sound (conveys_instant sound)) (by decide)
    |>.field (conveys_nullable LastUsed.region sound (conveys_string sound)) (by decide)

namespace Status

variable {D : Type}

theorem conveys_shared (sound : C.Sound) : (record.shared (D := D)).Conveys C :=
  (conveys_start Status.mk)
    |>.field (conveys_nullable Status.identity sound (Identity.conveys_codec sound)) List.not_mem_nil
    |>.field (conveys_defaulted Status.conditions [] (conveys_list Condition.lossless_codec sound))
      (show "conditions" ∉ ["ackResourceMetadata"] by decide)

/-- The details go through a channel beside the members that all kinds share. -/
theorem conveys_record {detail : Record D D} (conveys : detail.Conveys C) (sound : C.Sound)
    (whole : ∀ d, detail.value d = d) (apart : ∀ name ∈ (record.shared (D := D)).names, name ∉ detail.names) :
    (record detail).Conveys C := by
  have shared : (record.shared (D := D)).Conveys C := conveys_shared sound
  have names : (record detail).names = (record.shared (D := D)).names ++ detail.names := List.map_append
  refine ⟨?_, fun s => ?_, fun s members through => ?_⟩
  · rw [names, List.nodup_append]
    exact ⟨shared.distinct, conveys.distinct, fun a ha b hb same => apart a ha (same ▸ hb)⟩
  · rw [names]
    change ((record.shared.members s ++ detail.members s.detail).map Prod.fst).Sublist _
    rw [List.map_append]
    exact (shared.within s).append (conveys.within s.detail)
  · rw [names] at through
    have told (name : String) (h : name ∈ record.shared.names ++ detail.names) :
        C (Entries.get? name members) (Entries.get? name (record.shared.members s ++ detail.members s.detail)) :=
      through name h
    have front : record.shared.fromMembers members = some (Status.mk (D := D) s.identity s.conditions) := by
      refine shared.reads s members fun name hn => ?_
      have own := told name (List.mem_append_left _ hn)
      rw [Entries.get?_append, conveys.get?_eq_none (apart name hn), Option.or_none] at own
      exact own
    have rest : detail.fromMembers members = some s.detail := by
      refine (conveys.reads s.detail members fun name hn => ?_).trans (congrArg some (whole s.detail))
      have own := told name (List.mem_append_right _ hn)
      have other : name ∉ (record.shared (D := D)).names := fun shared => apart name shared hn
      rw [Entries.get?_append, shared.get?_eq_none other, Option.none_or] at own
      exact own
    change (do let make ← record.shared.fromMembers members; let d ← detail.fromMembers members; return make d) = _
    rw [front, rest]
    rfl

end Status

namespace Kind

theorem conveys_detailRecord (kind : Kind) (sound : C.Sound) : kind.detailRecord.Conveys C := by
  have text := conveys_string sound
  have time := conveys_instant sound
  have number := conveys_int32 sound
  have use := LastUsed.conveys_codec sound
  cases kind with
  | role =>
    exact (conveys_start RoleDetail.mk)
      |>.field (conveys_nullable RoleDetail.id sound text) (by decide)
      |>.field (conveys_nullable RoleDetail.created sound time) (by decide)
      |>.field (conveys_nullable RoleDetail.lastUsed sound use) (by decide)
  | policy =>
    exact (conveys_start PolicyDetail.mk)
      |>.field (conveys_nullable PolicyDetail.id sound text) (by decide)
      |>.field (conveys_nullable PolicyDetail.defaultVersion sound text) (by decide)
      |>.field (conveys_nullable PolicyDetail.attachments sound number) (by decide)
      |>.field (conveys_nullable PolicyDetail.boundaryUses sound number) (by decide)
      |>.field (conveys_nullable PolicyDetail.attachable sound (conveys_bool sound)) (by decide)
      |>.field (conveys_nullable PolicyDetail.created sound time) (by decide)
      |>.field (conveys_nullable PolicyDetail.updated sound time) (by decide)
  | group =>
    exact (conveys_start GroupDetail.mk)
      |>.field (conveys_nullable GroupDetail.id sound text) (by decide)
      |>.field (conveys_nullable GroupDetail.created sound time) (by decide)
  | user =>
    exact (conveys_start UserDetail.mk)
      |>.field (conveys_nullable UserDetail.id sound text) (by decide)
      |>.field (conveys_nullable UserDetail.created sound time) (by decide)
      |>.field (conveys_nullable UserDetail.passwordLastUsed sound time) (by decide)
  | instanceProfile =>
    exact (conveys_start InstanceProfileDetail.mk)
      |>.field (conveys_nullable InstanceProfileDetail.id sound text) (by decide)
      |>.field (conveys_nullable InstanceProfileDetail.created sound time) (by decide)
  | oidcProvider => exact conveys_start _
  | samlProvider =>
    exact (conveys_start SamlProviderDetail.mk)
      |>.field (conveys_nullable SamlProviderDetail.created sound time) (by decide)
      |>.field (conveys_nullable SamlProviderDetail.validUntil sound time) (by decide)
  | serviceLinkedRole =>
    exact (conveys_start ServiceLinkedRoleDetail.mk)
      |>.field (conveys_nullable ServiceLinkedRoleDetail.name sound text) (by decide)
      |>.field (conveys_nullable ServiceLinkedRoleDetail.id sound text) (by decide)
      |>.field (conveys_nullable ServiceLinkedRoleDetail.created sound time) (by decide)
      |>.field (conveys_nullable ServiceLinkedRoleDetail.maxSession sound number) (by decide)
      |>.field (conveys_nullable ServiceLinkedRoleDetail.lastUsed sound use) (by decide)

theorem value_detailRecord (kind : Kind) (detail : kind.Detail) : kind.detailRecord.value detail = detail := by
  cases kind <;> rfl

/-- A status that is written, as a whole or as a patch, is read as it was. -/
theorem conveys_statusCodec (kind : Kind) (sound : C.Sound) : kind.statusCodec.Conveys C := by
  have apart : ∀ name ∈ (Status.record.shared (D := kind.Detail)).names, name ∉ kind.detailRecord.names := by
    cases kind <;> decide
  exact (Status.conveys_record (kind.conveys_detailRecord sound) sound kind.value_detailRecord apart).codec sound
    fun _ => rfl

variable {kind : Kind} {members : List (String × Json)}

def statusMember (kind : Kind) : Member kind.Object (Option (Status kind.Detail)) :=
  .optional "status" Object.status kind.statusCodec

theorem read_statusMember (sound : C.Sound) {found : Option Json} {status : Option (Status kind.Detail)}
    (through : C found (some (kind.statusCodec.nullable.encode status))) :
    kind.statusMember.read found = some status := by
  have conveys : (Member.nullable (R := kind.Object) "status" Object.status kind.statusCodec).Conveys C :=
    conveys_nullable Object.status sound (kind.conveys_statusCodec sound)
  exact conveys status found through

theorem decode_object {o : kind.Object} : kind.decode (.object members) = some o ↔
    (Entries.get? "metadata" members).bind Metadata.codec.decode = some o.metadata ∧
    (Entries.get? "spec" members).bind kind.specCodec.decode = some o.spec ∧
    kind.statusMember.read (Entries.get? "status" members) = some o.status := by
  have required {α : Type} {name : String} {get : kind.Object → α} {codec : Codec α} (found : Option Json) :
      (Member.required name get codec).read found = found.bind codec.decode := by
    cases found <;> rfl
  change ((((Record.start Object.mk).field _).field _).field kind.statusMember).fromMembers members = some o ↔ _
  simp only [Record.fromMembers_field, required]
  constructor
  · rintro ⟨_, status, ⟨_, spec, ⟨_, metadata, made, hm, rfl⟩, hs, rfl⟩, ht, rfl⟩
    cases made
    exact ⟨hm, hs, ht⟩
  · rintro ⟨hm, hs, ht⟩
    exact ⟨_, _, ⟨_, _, ⟨_, _, rfl, hm, rfl⟩, hs, rfl⟩, ht, rfl⟩

/-- The patch of a status puts it in the place of the stored one, of which nothing is left that a status can hold, and
leaves the other members as they are stored. -/
theorem decode_mergePatch (kind : Kind) {stored : List (String × Json)} {before : kind.Object} (o : kind.Object)
    (reads : kind.decode (.object stored) = some before) :
    kind.decode ((Json.object stored).mergePatch (kind.statusPatch o)) = some { before with status := o.status } ∧
      ∀ name, name ≠ "status" →
        ((Json.object stored).mergePatch (kind.statusPatch o)).member? name = (Json.object stored).member? name := by
  obtain ⟨written, hw⟩ : ∃ written, written = kind.statusCodec.nullable.encode o.status := ⟨_, rfl⟩
  have merged : (Json.object stored).mergePatch (kind.statusPatch o) =
      .object (Json.mergeMembers stored [("status", written)]) := by
    rw [hw]
    unfold statusPatch Object.statusPatch
    rw [Json.mergePatch]
    rfl
  have told (name : String) : Entries.get? name (Json.mergeMembers stored [("status", written)]) =
      Json.overlay (Entries.get? name stored) (Entries.get? name [("status", written)]) :=
    Json.get?_mergeMembers (by simp) stored name
  have kept (name : String) (other : name ≠ "status") :
      Entries.get? name (Json.mergeMembers stored [("status", written)]) = Entries.get? name stored := by
    rw [told, Entries.get?, if_neg other.symm]
    rfl
  have replaced : kind.statusMember.read
      (Entries.get? "status" (Json.mergeMembers stored [("status", written)])) = some o.status := by
    refine read_statusMember Channel.patch_sound ⟨Entries.get? "status" stored, ?_⟩
    rw [told, Entries.get?, if_pos rfl, hw]
  obtain ⟨metadata, spec, -⟩ := decode_object.mp reads
  rw [merged]
  refine ⟨decode_object.mpr ⟨?_, ?_, replaced⟩, kept⟩
  · rw [kept "metadata" (by decide)]
    exact metadata
  · rw [kept "spec" (by decide)]
    exact spec

/-- A group with a status that knows more than this program does. -/
def storedGroup : List (String × Json) :=
  [("metadata", .object [("name", .string "crew")]),
    ("spec", .object [("name", .string "crew")]),
    ("status", .object [("ackResourceMetadata", .object [("arn", .string "arn:old")]), ("groupID", .string "AGPA"),
      ("members", .int 3)])]

def forgottenGroup : group.Object where
  metadata := default
  spec := ⟨"crew", none, [], [], ∅⟩
  status := some ⟨none, [⟨.synced, .no, none, none, none⟩], ⟨none, none⟩⟩

theorem decode_mergePatch_group :
    ∃ before, group.decode (.object storedGroup) = some before ∧
      before.arn = some "arn:old" ∧
      group.decode ((Json.object storedGroup).mergePatch (group.statusPatch forgottenGroup)) =
        some { before with status := forgottenGroup.status } ∧
      ((Json.object storedGroup).mergePatch (group.statusPatch forgottenGroup)).member? "spec" =
        some (.object [("name", .string "crew")]) := by
  obtain ⟨before, reads⟩ : ∃ before, group.decode (.object storedGroup) = some before := ⟨_, rfl⟩
  have arn : (group.decode (.object storedGroup)).bind Object.arn = some "arn:old" := rfl
  rw [reads] at arn
  obtain ⟨replaced, kept⟩ := decode_mergePatch group forgottenGroup reads
  exact ⟨before, reads, arn, replaced, (kept "spec" (by decide)).trans rfl⟩

end Kind

end IamKeeper
