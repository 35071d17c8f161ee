import IamKeeper.Proofs.Entries
import IamKeeper.Proofs.Site
import IamKeeper.Reconcile.Pass

namespace IamKeeper.Kind

open Json (Codec)

variable {kind : Kind}

theorem key?_withConditions (spec : kind.Spec) (o : kind.Object) (conditions : List Condition) :
    kind.key? spec (o.withConditions conditions).status = kind.key? spec o.status := by
  obtain ⟨metadata, ospec, status⟩ := o
  cases status <;> cases kind <;> rfl

theorem key?_observe (spec : kind.Spec) (o other : kind.Object) :
    kind.key? spec (o.observe other).status = kind.key? spec other.status :=
  key?_withConditions spec { o with status := other.status } o.conditions

/-- Only service-linked roles have their keys among the details. -/
theorem key?_withDetail (h : kind ≠ .serviceLinkedRole) (spec : kind.Spec) (o : kind.Object)
    (detail : kind.Detail) : kind.key? spec (o.withDetail detail).status = kind.key? spec o.status := by
  obtain ⟨metadata, ospec, status⟩ := o
  cases kind with
  | serviceLinkedRole => exact absurd rfl h
  | role | group | user | instanceProfile => rfl
  | policy | oidcProvider | samlProvider => cases status <;> rfl

theorem key?_withRegion (spec : kind.Spec) (o : kind.Object) (region : String) :
    kind.key? spec (o.withRegion region).status = kind.key? spec o.status := by
  obtain ⟨metadata, ospec, status⟩ := o
  rcases status with _ | ⟨_ | identity, conditions, detail⟩ <;> cases kind <;> rfl

theorem key?_recordSync (spec : kind.Spec) (o : kind.Object) (region : Option String)
    (clock : Clock) (synced : Synced kind.Spec kind.Detail) :
    kind.key? spec (o.recordSync region clock synced).status =
      kind.key? spec synced.object.status := by
  unfold Object.recordSync Object.markSynced
  rw [key?_withConditions]
  split
  · rw [key?_withRegion, key?_observe]
  · exact key?_observe ..

theorem key?_markFailed (spec : kind.Spec) (o : kind.Object) (clock : Clock) (fault : Fault) :
    kind.key? spec (o.markFailed clock fault).status = kind.key? spec o.status :=
  key?_withConditions ..

/-- The key in a status as it is written. -/
def keyIn? (kind : Kind) (status : Json) : Option String :=
  match kind with
  | serviceLinkedRole => (status.member? "roleName").bind Codec.string.decode
  | _ =>
    ((status.member? "ackResourceMetadata").bind (Json.member? "arn")).bind Codec.string.decode

/-- A member stays as it is written when no later one has its name. -/
theorem member?_ofMembers {name : String} {v : Json} (front : List (String × Json))
    {rest : List (String × Json)} (last : name ∉ rest.map Prod.fst) :
    (Json.ofMembers (front ++ (name, v) :: rest)).member? name = some v := by
  have kept (entries : List (String × Json)) (h : Entries.get? name entries = some v) :
      Entries.get? name (Entries.insertAll entries rest) = some v := by
    induction rest generalizing entries with
    | nil => exact h
    | cons member rest ih =>
      rw [List.map_cons, List.mem_cons, not_or] at last
      apply ih last.2
      rw [Entries.get?_insert, if_neg (Ne.symm last.1)]
      exact h
  have written : Entries.ofList (front ++ (name, v) :: rest) =
      Entries.insertAll (Entries.insert name v (Entries.ofList front)) rest :=
    List.foldl_append
  unfold Json.ofMembers Json.member?
  rw [written]
  apply kept
  rw [Entries.get?_insert, if_pos rfl]

theorem arn_written (identity : Option Identity) :
    ((Identity.codec.nullable.encode identity).member? "arn").bind Codec.string.decode =
      identity.bind Identity.arn := by
  cases identity with
  | none => rfl
  | some identity =>
    have h : (Identity.codec.encode identity).member? "arn" =
        some (Codec.string.nullable.encode identity.arn) :=
      member?_ofMembers [] (show "arn" ∉ ["ownerAccountID", "region"] by decide)
    change ((Identity.codec.encode identity).member? "arn").bind _ = identity.arn
    rw [h]
    cases identity.arn <;> rfl

/-- The ARN of a status, where no detail is written under the name of the identity. -/
theorem arn_of_status (status : Status kind.Detail) (names : List String)
    (written : (kind.detailRecord.members status.detail).map Prod.fst = names)
    (other : "ackResourceMetadata" ∉ "conditions" :: names) :
    (((kind.statusCodec.encode status).member? "ackResourceMetadata").bind
      (Json.member? "arn")).bind Codec.string.decode = status.identity.bind Identity.arn := by
  have h : (kind.statusCodec.encode status).member? "ackResourceMetadata" =
      some (Identity.codec.nullable.encode status.identity) := by
    subst written
    exact member?_ofMembers [] other
  rw [h]
  exact arn_written status.identity

theorem roleName_of_status (status : Status ServiceLinkedRoleDetail) :
    ((serviceLinkedRole.statusCodec.encode status).member? "roleName").bind Codec.string.decode =
      status.detail.name := by
  have h : (serviceLinkedRole.statusCodec.encode status).member? "roleName" =
      some (Codec.string.nullable.encode status.detail.name) :=
    member?_ofMembers [_, _]
      (show "roleName" ∉ ["roleID", "createDate", "maxSessionDuration", "roleLastUsed"] by decide)
  rw [h]
  cases status.detail.name <;> rfl

/-- The ARN in a status as it is written. -/
def arnIn? (status : Json) : Option String :=
  ((status.member? "ackResourceMetadata").bind (Json.member? "arn")).bind Codec.string.decode

theorem arnIn?_encode (status : Status kind.Detail) :
    arnIn? (kind.statusCodec.encode status) = status.identity.bind Identity.arn := by
  cases kind with
  | role => exact arn_of_status status ["roleID", "createDate", "roleLastUsed"] rfl (by decide)
  | policy =>
    exact arn_of_status status ["policyID", "defaultVersionID", "attachmentCount",
      "permissionsBoundaryUsageCount", "isAttachable", "createDate", "updateDate"] rfl (by decide)
  | group => exact arn_of_status status ["groupID", "createDate"] rfl (by decide)
  | user => exact arn_of_status status ["userID", "createDate", "passwordLastUsed"] rfl (by decide)
  | instanceProfile =>
    exact arn_of_status status ["instanceProfileID", "createDate"] rfl (by decide)
  | oidcProvider => exact arn_of_status status [] rfl (by decide)
  | samlProvider => exact arn_of_status status ["createDate", "validUntil"] rfl (by decide)
  | serviceLinkedRole =>
    exact arn_of_status status ["roleName", "roleID", "createDate", "maxSessionDuration",
      "roleLastUsed"] rfl (by decide)

theorem keyIn?_encode (recorded : kind.isNamed = false) (spec : kind.Spec)
    (status : Status kind.Detail) :
    kind.keyIn? (kind.statusCodec.encode status) = kind.key? spec (some status) := by
  cases kind with
  | policy | oidcProvider | samlProvider => exact arnIn?_encode status
  | serviceLinkedRole => exact roleName_of_status status
  | role | group | user | instanceProfile => cases recorded

/-- The patch that stores a status tells the ARN in it. -/
theorem arnIn?_statusPatch (o : kind.Object) :
    ((kind.statusPatch o).member? "status").bind arnIn? = o.arn := by
  obtain ⟨metadata, spec, status⟩ := o
  cases status with
  | none => rfl
  | some status =>
    have written : (kind.statusPatch ⟨metadata, spec, some status⟩).member? "status" =
        some (kind.statusCodec.encode status) := rfl
    rw [written]
    exact arnIn?_encode status

theorem arn_of_statusPatch {a b : kind.Object} (same : kind.statusPatch a = kind.statusPatch b) :
    a.arn = b.arn := by
  rw [← arnIn?_statusPatch a, same, arnIn?_statusPatch]

/-- The patch that stores a status tells the key in it. -/
theorem keyIn?_statusPatch (recorded : kind.isNamed = false) (o : kind.Object) :
    ((kind.statusPatch o).member? "status").bind kind.keyIn? = kind.key? o.spec o.status := by
  obtain ⟨metadata, spec, status⟩ := o
  cases status with
  | none => cases kind <;> first | rfl | cases recorded
  | some status =>
    have written : (kind.statusPatch ⟨metadata, spec, some status⟩).member? "status" =
        some (kind.statusCodec.encode status) := rfl
    rw [written]
    exact keyIn?_encode recorded spec status

/-- Statuses that are stored by one patch tell one key. -/
theorem key?_of_statusPatch {a b : kind.Object} (same : kind.statusPatch a = kind.statusPatch b)
    (spec : kind.Spec) : kind.key? spec a.status = kind.key? spec b.status := by
  cases h : kind.isNamed with
  | true => exact key?_named h spec _ _
  | false =>
    -- Statuses that differ may be written alike, but not those with different keys.
    calc kind.key? spec a.status
      _ = ((kind.statusPatch a).member? "status").bind kind.keyIn? := by
        rw [keyIn?_statusPatch h, key?_unnamed h spec a.spec]
      _ = kind.key? spec b.status := by
        rw [same, keyIn?_statusPatch h, key?_unnamed h spec b.spec]

end IamKeeper.Kind
