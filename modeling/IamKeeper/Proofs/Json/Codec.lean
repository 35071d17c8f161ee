import IamKeeper.Json.Codec
import IamKeeper.Proofs.Instant
import IamKeeper.Proofs.Json.Merge

namespace IamKeeper.Json

open Time (Instant)

/-- What may be found under a name, by what was written under it. -/
abbrev Channel : Type :=
  (found written : Option Json) → Prop

/-- A document that a merge patch puts in place as a whole. -/
def Plain : Json → Prop
  | .null | .object _ => False
  | _ => True

namespace Channel

def direct : Channel := fun found written => found = written

/-- What is written is a patch, and what is found is what the patch leaves. -/
def patch : Channel := fun found written => ∃ old, found = overlay old written

structure Sound (C : Channel) : Prop where
  null {found : Option Json} (through : C found (some .null)) : found = none ∨ found = some .null
  plain {found : Option Json} {v : Json} (plain : v.Plain) (through : C found (some v)) : found = some v
  object {found : Option Json} {written : List (String × Json)} (distinct : (written.map Prod.fst).Nodup)
    (through : C found (some (.object written))) :
    ∃ members, found = some (.object members) ∧
      ∀ name, C (Entries.get? name members) (Entries.get? name written)

theorem direct_sound : Sound direct where
  null through := .inr through
  plain _ through := through
  object _ through := ⟨_, through, fun _ => rfl⟩

theorem patch_sound : Sound patch where
  null := by
    rintro found ⟨old, rfl⟩
    exact .inl rfl
  plain := by
    rintro found v plain ⟨old, rfl⟩
    cases v with
    | null => cases plain
    | object => cases plain
    | _ => rfl
  object := by
    rintro found written distinct ⟨old, rfl⟩
    refine ⟨mergeMembers (membersOf (old.getD .null)) written, rfl, fun name => ?_⟩
    exact ⟨_, get?_mergeMembers distinct _ name⟩

end Channel

variable {C : Channel} {R α β : Type}

namespace Codec

/-- Every value is read as it was written. -/
def Lossless (codec : Codec α) : Prop :=
  ∀ value, codec.decode (codec.encode value) = some value

/-- Every value that is written into a channel is read as it was. No value is written as null. -/
def Conveys (C : Channel) (codec : Codec α) : Prop :=
  ∀ value found, C found (some (codec.encode value)) →
    ∃ v, found = some v ∧ v ≠ .null ∧ codec.decode v = some value

theorem Conveys.lossless {codec : Codec α} (conveys : codec.Conveys .direct) : codec.Lossless := by
  intro value
  obtain ⟨v, same, -, decoded⟩ := conveys value _ rfl
  cases same
  exact decoded

theorem Lossless.conveys {codec : Codec α} (lossless : codec.Lossless) (sound : C.Sound)
    (plain : ∀ value, (codec.encode value).Plain) : codec.Conveys C := by
  intro value found through
  have kept := sound.plain (plain value) through
  refine ⟨_, kept, fun null => ?_, lossless value⟩
  have absurd := plain value
  rw [null] at absurd
  exact absurd

theorem conveys_string (sound : C.Sound) : string.Conveys C :=
  Lossless.conveys (fun _ => rfl) sound fun _ => trivial

theorem conveys_bool (sound : C.Sound) : bool.Conveys C :=
  Lossless.conveys (fun _ => rfl) sound fun _ => trivial

theorem lossless_int32 : int32.Lossless := by
  intro n
  have bounds : Int32.minValue.toInt ≤ n.toInt ∧ n.toInt ≤ Int32.maxValue.toInt :=
    ⟨n.minValue_le_toInt, n.toInt_le⟩
  change (if Int32.minValue.toInt ≤ n.toInt ∧ n.toInt ≤ Int32.maxValue.toInt then
    some (Int32.ofInt n.toInt) else none) = some n
  rw [if_pos bounds, Int32.ofInt_toInt]

theorem conveys_int32 (sound : C.Sound) : int32.Conveys C :=
  lossless_int32.conveys sound fun _ => trivial

theorem conveys_instant (sound : C.Sound) : instant.Conveys C :=
  Lossless.conveys Instant.read?_write sound fun _ => trivial

theorem Lossless.list {codec : Codec α} (lossless : codec.Lossless) : (list codec).Lossless := by
  intro values
  change codec.decodeItems (values.map codec.encode) = some values
  induction values with
  | nil => rfl
  | cons value values ih =>
    rw [List.map_cons, decodeItems, lossless value, ih]
    rfl

theorem conveys_list {codec : Codec α} (lossless : codec.Lossless) (sound : C.Sound) : (list codec).Conveys C :=
  lossless.list.conveys sound fun _ => trivial

theorem Lossless.table {codec : Codec α} (lossless : codec.Lossless) : (table codec).Lossless := by
  have read (entries : List (String × α)) :
      codec.decodeEntries (entries.map fun entry => (entry.1, codec.encode entry.2)) = some entries := by
    induction entries with
    | nil => rfl
    | cons entry entries ih =>
      rw [List.map_cons, decodeEntries, lossless entry.2, ih]
      rfl
  intro t
  change (codec.decodeEntries (t.entries.map _)).map Table.ofList = some t
  rw [read, Option.map_some]
  exact congrArg some (Table.ext_get? (Table.get?_ofList_ascending t.ascending))

/-- Different values are written differently. -/
theorem Lossless.encode_injective {codec : Codec α} (lossless : codec.Lossless) :
    Function.Injective codec.encode := by
  intro a b same
  have read := lossless a
  rw [same, lossless b] at read
  exact (Option.some.inj read).symm

end Codec

namespace Member

def written (member : Member R α) (value : α) : Option Json :=
  if member.omitted value then none else some (member.codec.encode value)

def read (member : Member R α) : Option Json → Option α
  | some v => member.codec.decode v
  | none => member.absent

def Conveys (C : Channel) (member : Member R α) : Prop :=
  ∀ value found, C found (member.written value) → member.read found = some value

variable {name : String} {codec : Codec α}

theorem conveys_required (get : R → α) (conveys : codec.Conveys C) : (required name get codec).Conveys C := by
  intro value found through
  obtain ⟨v, rfl, -, decoded⟩ := conveys value found through
  exact decoded

theorem conveys_defaulted (get : R → α) (default : α) (conveys : codec.Conveys C) :
    (defaulted name get codec default).Conveys C := by
  intro value found through
  obtain ⟨v, rfl, -, decoded⟩ := conveys value found through
  exact decoded

theorem decode_nullable {v : Json} (there : v ≠ .null) : codec.nullable.decode v = (codec.decode v).map some := by
  cases v with
  | null => exact absurd rfl there
  | _ => rfl

/-- An absent value may be taken out or stay as null. -/
theorem conveys_nullable (get : R → Option α) (sound : C.Sound) (conveys : codec.Conveys C) :
    (nullable name get codec).Conveys C := by
  intro value found through
  cases value with
  | none => rcases sound.null through with rfl | rfl <;> rfl
  | some value =>
    obtain ⟨v, rfl, there, decoded⟩ := conveys value found through
    change codec.nullable.decode v = some (some value)
    rw [decode_nullable there, decoded]
    rfl

theorem conveys_optional (get : R → Option α) (conveys : codec.Conveys .direct) :
    (optional name get codec).Conveys .direct := by
  intro value found through
  cases value with
  | none =>
    cases through
    rfl
  | some value =>
    obtain ⟨v, rfl, there, decoded⟩ := conveys value found through
    change codec.nullable.decode v = some (some value)
    rw [decode_nullable there, decoded]
    rfl

/-- A value that is left out is the one that an absent member means. -/
theorem conveys_omittable (get : R → α) (default : α) (omitted : α → Bool) (lossless : codec.Lossless)
    (spared : ∀ value, omitted value = true → value = default) :
    (omittable name get codec default omitted).Conveys .direct := by
  intro value found through
  have same : found = if omitted value then none else some (codec.encode value) := through
  split at same
  case isTrue absent =>
    rw [same, spared value absent]
    rfl
  case isFalse =>
    rw [same]
    exact lossless value

theorem Conveys.described {member : Member R α} {description : String} (conveys : member.Conveys C) :
    (member.described description).Conveys C :=
  conveys

end Member

namespace Record

def names (r : Record R β) : List String :=
  r.properties.map Prod.fst

/-- Whatever goes through a channel under the names of a record is read as it was. -/
structure Conveys (C : Channel) (r : Record R β) : Prop where
  distinct : r.names.Nodup
  within (record : R) : ((r.members record).map Prod.fst).Sublist r.names
  reads (record : R) (members : List (String × Json))
    (through : ∀ name ∈ r.names, C (Entries.get? name members) (Entries.get? name (r.members record))) :
    r.fromMembers members = some (r.value record)

theorem conveys_start (make : β) : (start make : Record R β).Conveys C where
  distinct := List.nodup_nil
  within _ := List.nil_sublist _
  reads _ _ _ := rfl

theorem fromMembers_field {r : Record R (α → β)} {member : Member R α} {members : List (String × Json)} {result : β} :
    (r.field member).fromMembers members = some result ↔
      ∃ make value, r.fromMembers members = some make ∧
        member.read (Entries.get? member.name members) = some value ∧ make value = result := by
  have read : readMember member members = member.read (Entries.get? member.name members) := by
    unfold readMember Member.read
    rfl
  change (do let make ← r.fromMembers members; let value ← readMember member members; return make value) = _ ↔ _
  rw [read]
  simp [Option.bind_eq_some_iff]

theorem Conveys.get?_eq_none {r : Record R β} (conveys : r.Conveys C) {name : String} (other : name ∉ r.names)
    (record : R) : Entries.get? name (r.members record) = none :=
  Entries.get?_eq_none fun entry he same =>
    other ((conveys.within record).subset (List.mem_map.mpr ⟨entry, he, same⟩))

/-- A member goes through a channel on its own, whatever members stand in front of it. -/
theorem Conveys.field {r : Record R (α → β)} {member : Member R α} (front : r.Conveys C)
    (conveys : member.Conveys C) (fresh : member.name ∉ r.names) : (r.field member).Conveys C := by
  have names : (r.field member).names = r.names ++ [member.name] := List.map_append
  have last (record : R) : Entries.get? member.name
      (if member.omitted (member.get record) then []
        else [(member.name, member.codec.encode (member.get record))]) = member.written (member.get record) := by
    unfold Member.written
    split
    · rfl
    · exact if_pos rfl
  have others {name : String} (other : name ≠ member.name) (record : R) : Entries.get? name
      (if member.omitted (member.get record) then []
        else [(member.name, member.codec.encode (member.get record))]) = none := by
    split
    · rfl
    · exact if_neg other.symm
  refine ⟨?_, fun record => ?_, fun record members through => ?_⟩
  · rw [names, List.nodup_append]
    refine ⟨front.distinct, List.pairwise_singleton .., ?_⟩
    rintro a ha b hb rfl
    obtain rfl := List.mem_singleton.mp hb
    exact fresh ha
  · rw [names]
    change ((r.members record ++ _).map Prod.fst).Sublist _
    rw [List.map_append]
    refine (front.within record).append ?_
    split
    · exact List.nil_sublist _
    · exact List.Sublist.refl _
  · rw [names] at through
    have before : r.fromMembers members = some (r.value record) := by
      refine front.reads record members fun name hn => ?_
      have other : name ≠ member.name := fun same => fresh (same ▸ hn)
      have told := through name (List.mem_append_left _ hn)
      change C _ (Entries.get? name (r.members record ++ _)) at told
      rw [Entries.get?_append, others other, Option.or_none] at told
      exact told
    have own : member.read (Entries.get? member.name members) = some (member.get record) := by
      have told := through member.name (List.mem_append_right _ (List.mem_singleton_self _))
      change C _ (Entries.get? member.name (r.members record ++ _)) at told
      rw [Entries.get?_append, front.get?_eq_none fresh, Option.none_or, last] at told
      exact conveys _ _ told
    exact fromMembers_field.mpr ⟨_, _, before, own, rfl⟩

theorem Conveys.members_nodup {r : Record R β} (conveys : r.Conveys C) (record : R) :
    ((r.members record).map Prod.fst).Nodup :=
  conveys.distinct.sublist (conveys.within record)

/-- A record whose members go through a channel goes through it as a whole. -/
theorem Conveys.codec {r : Record R R} (conveys : r.Conveys C) (sound : C.Sound)
    (whole : ∀ record, r.value record = record) : r.codec.Conveys C := by
  intro record found through
  have ascending : Entries.Ascending (Entries.ofList (r.members record)) :=
    Entries.Ascending.insertAll List.Pairwise.nil _
  obtain ⟨members, rfl, told⟩ := sound.object ascending.nodup through
  refine ⟨_, rfl, nofun, ?_⟩
  refine (conveys.reads record members fun name _ => ?_).trans (congrArg some (whole record))
  have there := told name
  rw [Entries.get?_ofList (conveys.members_nodup record)] at there
  exact there

end Record

end IamKeeper.Json
