import IamKeeper.Iam.Query.Client
import IamKeeper.Proofs.Entries
import Mathlib.Data.List.Nodup
import Mathlib.Data.List.TakeWhile

namespace IamKeeper.Iam.Query

/-- The entities that are created with tags. -/
inductive Creation where
  | role (spec : RoleSpec)
  | user (spec : UserSpec)
  | policy (spec : PolicySpec)
  | instanceProfile (spec : InstanceProfileSpec)
  | oidcProvider (spec : OidcProviderSpec)
  | samlProvider (spec : SamlProviderSpec)

namespace Creation

def call : Creation → Call
  | role spec => .createRole spec
  | user spec => .createUser spec
  | policy spec => .createPolicy spec
  | instanceProfile spec => .createInstanceProfile spec
  | oidcProvider spec => .createOidcProvider spec
  | samlProvider spec => .createSamlProvider spec

def tags : Creation → List Tag
  | role spec => spec.tags
  | user spec => spec.tags
  | policy spec => spec.tags
  | instanceProfile spec => spec.tags
  | oidcProvider spec => spec.tags
  | samlProvider spec => spec.tags

/-- The boundary of what is created; only principals have one. -/
def boundary : Creation → Option String
  | role spec => spec.boundary
  | user spec => spec.boundary
  | _ => none

end Creation

/-- The name of an item of a list, or of a part of one. -/
def itemName (name : String) (index : Nat) (part : String) : String :=
  s!"{name}.member.{index + 1}" ++ part

namespace Form

/-- The value that is sent under a name. -/
def field? (form : Form) (name : String) : Option String :=
  Entries.get? name form.parameters

/-- The tag that is sent at a place, counted from 0. -/
def tag? (form : Form) (index : Nat) : Option Tag := do
  let key ← form.field? (itemName "Tags" index ".Key")
  let value ← form.field? (itemName "Tags" index ".Value")
  return ⟨key, value⟩

/-- The tags that are sent, in their order. -/
def Carries (form : Form) (tags : List Tag) : Prop :=
  ∀ index, form.tag? index = tags[index]?

/-- A form that asks for what a change of tags leads to: every key once, with the last of its values. -/
def AsksTags (form : Form) (tags : List Tag) : Prop :=
  ∃ carried, form.Carries carried ∧ carried.Perm (TagDelta.between [] tags).set

/-- A form that asks for the boundary that a change of it leads to. -/
def AsksBoundary (form : Form) (boundary : Option String) : Prop :=
  form.field? "PermissionsBoundary" = given boundary

theorem Carries.unique {form : Form} {tags tags' : List Tag} (h : form.Carries tags) (h' : form.Carries tags') :
    tags = tags' :=
  List.ext_getElem? fun index => (h index).symm.trans (h' index)

end Form

/-- The name of a parameter up to its first full stop. -/
def heading (name : String) : List Char :=
  name.toList.takeWhile (· ≠ '.')

/-- Parameters of different names, under headings that are known. -/
structure Laid (headings : List (List Char)) (fields : List (String × String)) : Prop where
  headed : ∀ field ∈ fields, heading field.1 ∈ headings
  nodup : (fields.map Prod.fst).Nodup

theorem Laid.append {headings headings' : List (List Char)} {fields fields' : List (String × String)}
    (h : Laid headings fields) (h' : Laid headings' fields') (apart : ∀ x ∈ headings, x ∉ headings') :
    Laid (headings ++ headings') (fields ++ fields') := by
  constructor
  · intro field hf
    rcases List.mem_append.mp hf with hf | hf
    · exact List.mem_append_left _ (h.headed field hf)
    · exact List.mem_append_right _ (h'.headed field hf)
  · rw [List.map_append]
    refine List.nodup_append.mpr ⟨h.nodup, h'.nodup, fun name hn name' hn' same => ?_⟩
    subst same
    obtain ⟨field, hf, rfl⟩ := List.mem_map.mp hn
    obtain ⟨field', hf', same⟩ := List.mem_map.mp hn'
    have there := h'.headed field' hf'
    rw [same] at there
    exact apart _ (h.headed field hf) there

theorem Laid.get?_eq_none {headings : List (List Char)} {fields : List (String × String)}
    (laid : Laid headings fields) {name : String} (other : heading name ∉ headings) :
    Entries.get? name fields = none :=
  Entries.get?_eq_none fun field hf same => other (same ▸ laid.headed field hf)

theorem laid_field (name value : String) : Laid [heading name] [(name, value)] :=
  ⟨by simp, by simp⟩

theorem laid_optionalField (name : String) (value : Option String) :
    Laid [heading name] (optionalField name value) := by
  cases value with
  | none => exact ⟨by simp [optionalField], by simp [optionalField]⟩
  | some value => exact laid_field name value

theorem toList_itemName (name : String) (index : Nat) (part : String) :
    (itemName name index part).toList =
      name.toList ++ (".member.".toList ++ (Nat.toDigits 10 (index + 1) ++ part.toList)) := by
  simp [itemName, toString, Nat.repr]

theorem heading_itemName {name : String} (plain : '.' ∉ name.toList) (index : Nat) (part : String) :
    heading (itemName name index part) = name.toList := by
  unfold heading
  rw [toList_itemName, List.takeWhile_append_of_pos]
  · simp
  · intro c hc
    simpa using fun same : c = '.' => plain (same ▸ hc)

/-- A number is told from what follows it, if that is no digit. -/
theorem toDigits_append_inj {m n : Nat} {rest rest' : List Char} (ends : ∀ c ∈ rest.head?, c.isDigit = false)
    (ends' : ∀ c ∈ rest'.head?, c.isDigit = false)
    (same : Nat.toDigits 10 m ++ rest = Nat.toDigits 10 n ++ rest') : m = n ∧ rest = rest' := by
  have front {k : Nat} {l : List Char} (h : ∀ c ∈ l.head?, c.isDigit = false) :
      (Nat.toDigits 10 k ++ l).takeWhile Char.isDigit = Nat.toDigits 10 k := by
    rw [List.takeWhile_append_of_pos fun c hc => Nat.isDigit_of_mem_toDigits (by decide) (by decide) hc]
    cases l with
    | nil => simp
    | cons c l => simp [h c rfl]
  have digits : Nat.toDigits 10 m = Nat.toDigits 10 n := by rw [← front ends, same, front ends']
  refine ⟨?_, List.append_cancel_left (digits ▸ same)⟩
  rw [← Nat.ofDigitChars_ten_toDigits (n := m), digits, Nat.ofDigitChars_ten_toDigits]

theorem itemName_inj {name : String} {i j : Nat} {part part' : String}
    (ends : ∀ c ∈ part.toList.head?, c.isDigit = false) (ends' : ∀ c ∈ part'.toList.head?, c.isDigit = false)
    (same : itemName name i part = itemName name j part') : i = j ∧ part = part' := by
  have texts := congrArg String.toList same
  rw [toList_itemName, toList_itemName] at texts
  obtain ⟨numbers, parts⟩ :=
    toDigits_append_inj ends ends' (List.append_cancel_left (List.append_cancel_left texts))
  exact ⟨Nat.succ.inj numbers, String.toList_injective parts⟩

theorem laid_listFields (name : String) (plain : '.' ∉ name.toList) (items : List String) :
    Laid [name.toList] (listFields name items) := by
  unfold listFields
  split
  · have whole : heading name = name.toList :=
      List.takeWhile_eq_self_iff.mpr fun c hc => by simpa using fun same : c = '.' => plain (same ▸ hc)
    exact whole ▸ laid_field name ""
  · have named (index : Nat) (item : String) :
        (s!"{name}.member.{index + 1}", item) = (itemName name index "", item) := by
      simp [itemName]
    simp only [named]
    constructor
    · intro field hf
      obtain ⟨index, hi, rfl⟩ := List.mem_mapIdx.mp hf
      simp [heading_itemName plain]
    · refine List.pairwise_map.mpr (List.pairwise_iff_getElem.mpr fun i j hi hj lt same => ?_)
      simp only [List.getElem_mapIdx] at same
      exact absurd (itemName_inj (by simp) (by simp) same).1 (Nat.ne_of_lt lt)

/-- The two parameters of a tag. -/
def tagField (index : Nat) (tag : Tag) : List (String × String) :=
  [(itemName "Tags" index ".Key", tag.key), (itemName "Tags" index ".Value", tag.value)]

theorem tagFields_eq (tags : List Tag) : tagFields tags = (tags.mapIdx tagField).flatten := rfl

theorem mem_tagFields {tags : List Tag} {field : String × String} :
    field ∈ tagFields tags ↔ ∃ index tag, tags[index]? = some tag ∧ field ∈ tagField index tag := by
  simp only [tagFields_eq, List.mem_flatten, List.mem_mapIdx, List.getElem?_eq_some_iff]
  constructor
  · rintro ⟨_, ⟨index, hi, rfl⟩, hf⟩
    exact ⟨index, _, ⟨hi, rfl⟩, hf⟩
  · rintro ⟨index, _, ⟨hi, rfl⟩, hf⟩
    exact ⟨_, ⟨index, hi, rfl⟩, hf⟩

theorem name_of_mem_tagField {index : Nat} {tag : Tag} {field : String × String} (hf : field ∈ tagField index tag) :
    ∃ part, (part = ".Key" ∨ part = ".Value") ∧ field.1 = itemName "Tags" index part := by
  rcases List.mem_pair.mp hf with rfl | rfl
  · exact ⟨".Key", .inl rfl, rfl⟩
  · exact ⟨".Value", .inr rfl, rfl⟩

theorem tagPart_inj {i j : Nat} {part part' : String} (hp : part = ".Key" ∨ part = ".Value")
    (hp' : part' = ".Key" ∨ part' = ".Value") (same : itemName "Tags" i part = itemName "Tags" j part') :
    i = j ∧ part = part' := by
  have ends {part : String} (hp : part = ".Key" ∨ part = ".Value") : ∀ c ∈ part.toList.head?, c.isDigit = false := by
    rcases hp with rfl | rfl <;> simp
  exact itemName_inj (ends hp) (ends hp') same

theorem laid_tagFields (tags : List Tag) : Laid ["Tags".toList] (tagFields tags) := by
  constructor
  · intro field hf
    obtain ⟨index, tag, -, hf⟩ := mem_tagFields.mp hf
    obtain ⟨part, -, named⟩ := name_of_mem_tagField hf
    rw [named]
    exact List.mem_singleton.mpr (heading_itemName (by decide) index part)
  · refine List.pairwise_map.mpr (List.pairwise_flatten.mpr ⟨fun pair hp => ?_, ?_⟩)
    · obtain ⟨index, hi, rfl⟩ := List.mem_mapIdx.mp hp
      refine List.pairwise_pair.mpr fun same => ?_
      exact absurd (tagPart_inj (.inl rfl) (.inr rfl) same).2 (by decide)
    · refine List.pairwise_iff_getElem.mpr fun i j hi hj lt field hf field' hf' same => ?_
      rw [List.getElem_mapIdx] at hf hf'
      obtain ⟨part, hp, named⟩ := name_of_mem_tagField hf
      obtain ⟨part', hp', named'⟩ := name_of_mem_tagField hf'
      rw [named, named'] at same
      exact absurd (tagPart_inj hp hp' same).1 (Nat.ne_of_lt lt)

theorem Laid.get?_eq_some {headings : List (List Char)} {fields : List (String × String)}
    (laid : Laid headings fields) {name value : String} :
    Entries.get? name fields = some value ↔ (name, value) ∈ fields :=
  Entries.get?_eq_some_iff_of_nodup laid.nodup

section

variable {form : Form} {front : List (String × String)} {headings : List (List Char)} {tags : List Tag}

theorem laid_tagged (laid : Laid headings front) (apart : "Tags".toList ∉ headings) (tags : List Tag) :
    Laid (headings ++ ["Tags".toList]) (front ++ tagFields tags) :=
  laid.append (laid_tagFields tags) fun _ there same => apart (List.mem_singleton.mp same ▸ there)

/-- What is sent of the tag at a place is the part of that name. -/
theorem field?_tag (laid : Laid headings front) (apart : "Tags".toList ∉ headings)
    (split : form.parameters = front ++ tagFields tags) (index : Nat) {part : String} {get : Tag → String}
    (hp : part = ".Key" ∧ get = Tag.key ∨ part = ".Value" ∧ get = Tag.value) :
    form.field? (itemName "Tags" index part) = tags[index]?.map get := by
  have isPart : part = ".Key" ∨ part = ".Value" := hp.imp And.left And.left
  have told (tag : Tag) (value : String) :
      (itemName "Tags" index part, value) ∈ tagField index tag ↔ get tag = value := by
    have differ : itemName "Tags" index ".Key" ≠ itemName "Tags" index ".Value" := fun same =>
      absurd (tagPart_inj (.inl rfl) (.inr rfl) same).2 (by decide)
    rcases hp with ⟨rfl, rfl⟩ | ⟨rfl, rfl⟩
    · simp [tagField, differ, eq_comm (a := value)]
    · simp [tagField, differ.symm, eq_comm (a := value)]
  refine Option.ext fun value => ?_
  rw [Form.field?, split, (laid_tagged laid apart tags).get?_eq_some, List.mem_append, mem_tagFields,
    Option.map_eq_some_iff]
  constructor
  · rintro (other | ⟨index', tag, there, hf⟩)
    · have headed := laid.headed _ other
      rw [heading_itemName (by decide)] at headed
      exact absurd headed apart
    · obtain ⟨part', hp', same⟩ := name_of_mem_tagField hf
      obtain ⟨rfl, -⟩ := tagPart_inj isPart hp' same
      exact ⟨tag, there, (told tag value).mp hf⟩
  · rintro ⟨tag, there, same⟩
    exact .inr ⟨index, tag, there, (told tag value).mpr same⟩

/-- Behind parameters of other names, tags are sent as they are listed. -/
theorem carries_tagFields (laid : Laid headings front) (apart : "Tags".toList ∉ headings)
    (split : form.parameters = front ++ tagFields tags) : form.Carries tags := by
  intro index
  unfold Form.tag?
  rw [field?_tag laid apart split index (.inl ⟨rfl, rfl⟩), field?_tag laid apart split index (.inr ⟨rfl, rfl⟩)]
  cases tags[index]? <;> rfl

end

/-- Tags are those that setting them leads to, if no key comes twice. -/
theorem perm_set_iff {tags : List Tag} :
    tags.Perm (TagDelta.between [] tags).set ↔ (tags.map Tag.key).Nodup := by
  have entries : (TagDelta.between [] tags).set = (Tag.table tags).entries.map fun entry => ⟨entry.1, entry.2⟩ := by
    simp [TagDelta.between, Tag.table, Table.get?, Table.ofList, Entries.ofList, Entries.insertAll, Entries.get?]
  have keys : ((TagDelta.between [] tags).set.map Tag.key).Nodup := by
    rw [entries, List.map_map]
    exact (Tag.table tags).ascending.nodup
  constructor
  · exact fun same => (same.map Tag.key).nodup_iff.mpr keys
  · intro distinct
    have pairs : ((tags.map fun tag => (tag.key, tag.value)).map Prod.fst).Nodup := by
      rw [List.map_map]
      exact distinct
    apply (List.perm_ext_iff_of_nodup (List.Nodup.of_map _ distinct) (List.Nodup.of_map _ keys)).mpr
    rintro ⟨key, value⟩
    have told : (⟨key, value⟩ : Tag) ∈ (TagDelta.between [] tags).set ↔ (Tag.table tags).get? key = some value := by
      rw [entries, Table.get?_eq_some]
      simp
    have listed : (Tag.table tags).get? key = some value ↔ (⟨key, value⟩ : Tag) ∈ tags := by
      rw [show (Tag.table tags).get? key = Entries.get? key (tags.map fun tag => (tag.key, tag.value)) from
        Entries.get?_ofList pairs key, Entries.get?_eq_some_iff_of_nodup pairs]
      refine List.mem_map_of_injective (a := (⟨key, value⟩ : Tag)) fun tag tag' same => ?_
      cases tag
      cases tag'
      cases same
      rfl
    exact (told.trans listed).symm

/-- Behind parameters of other names, a value is found under its own. -/
theorem Laid.get?_optionalField {headings : List (List Char)} {before : List (String × String)}
    (laid : Laid headings before) {name : String} (other : heading name ∉ headings) (value : Option String) :
    Entries.get? name (before ++ optionalField name value) = value := by
  rw [Entries.get?_append, laid.get?_eq_none other]
  cases value <;> simp [optionalField, Entries.get?]

/-- Every request for a new entity ends with its tags, and tells nothing of them before. -/
theorem send_call (c : Creation) (limit : Nat) : ∃ form next headings front,
    send limit c.call = .ask form next ∧ form.parameters = front ++ tagFields c.tags ∧ Laid headings front ∧
      "Tags".toList ∉ headings ∧ Entries.get? "PermissionsBoundary" front = c.boundary := by
  cases c with
  | role spec =>
    have before := ((((laid_field "RoleName" spec.name).append (laid_optionalField "Path" spec.path) (by decide)).append
      (laid_optionalField "Description" spec.description) (by decide)).append
      (laid_field "AssumeRolePolicyDocument" spec.trust) (by decide)).append
      (laid_optionalField "MaxSessionDuration" (spec.maxSession.map fun n => toString n.toInt)) (by decide)
    exact ⟨_, _, _, _, rfl, rfl, before.append (laid_optionalField "PermissionsBoundary" spec.boundary) (by decide),
      by decide, before.get?_optionalField (by decide) spec.boundary⟩
  | user spec =>
    have before := (laid_field "UserName" spec.name).append (laid_optionalField "Path" spec.path) (by decide)
    exact ⟨_, _, _, _, rfl, rfl, before.append (laid_optionalField "PermissionsBoundary" spec.boundary) (by decide),
      by decide, before.get?_optionalField (by decide) spec.boundary⟩
  | policy spec =>
    have before :=
      (((laid_field "PolicyName" spec.name).append (laid_optionalField "Path" spec.path) (by decide)).append
      (laid_optionalField "Description" spec.description) (by decide)).append
      (laid_field "PolicyDocument" spec.document) (by decide)
    exact ⟨_, _, _, _, rfl, rfl, before, by decide, before.get?_eq_none (by decide)⟩
  | instanceProfile spec =>
    have before :=
      (laid_field "InstanceProfileName" spec.name).append (laid_optionalField "Path" spec.path) (by decide)
    exact ⟨_, _, _, _, rfl, rfl, before, by decide, before.get?_eq_none (by decide)⟩
  | oidcProvider spec =>
    have before := ((laid_field "Url" spec.url).append (laid_listFields "ClientIDList" (by decide) spec.clientIds)
      (by decide)).append (laid_listFields "ThumbprintList" (by decide) spec.thumbprints) (by decide)
    exact ⟨_, _, _, _, rfl, rfl, before, by decide, before.get?_eq_none (by decide)⟩
  | samlProvider spec =>
    have before := (laid_field "Name" spec.name).append (laid_field "SAMLMetadataDocument" spec.document) (by decide)
    exact ⟨_, _, _, _, rfl, rfl, before, by decide, before.get?_eq_none (by decide)⟩

/-- The request for a new entity carries the tags and the boundary as they are written. It asks for the same as a
change does just where no key of a tag comes twice, and just where no boundary is empty. -/
theorem send_creation (c : Creation) (limit : Nat) : ∃ form next, send limit c.call = .ask form next ∧
    (form.parameters.map Prod.fst).Nodup ∧ form.Carries c.tags ∧ form.field? "PermissionsBoundary" = c.boundary ∧
    (form.AsksTags c.tags ↔ (c.tags.map Tag.key).Nodup) ∧ (form.AsksBoundary c.boundary ↔ c.boundary ≠ some "") := by
  obtain ⟨form, next, headings, front, sent, split, laid, apart, bounded⟩ := send_call c limit
  have whole := laid_tagged laid apart c.tags
  have carries := carries_tagFields laid apart split
  have boundary : form.field? "PermissionsBoundary" = c.boundary := by
    unfold Form.field?
    rw [split, Entries.get?_append, bounded, (laid_tagFields c.tags).get?_eq_none (by decide), Option.or_none]
  refine ⟨form, next, sent, split ▸ whole.nodup, carries, boundary, ?_, ?_⟩
  · rw [← perm_set_iff]
    constructor
    · rintro ⟨carried, sent, same⟩
      exact sent.unique carries ▸ same
    · exact fun same => ⟨c.tags, carries, same⟩
  · unfold Form.AsksBoundary
    rw [boundary]
    cases c.boundary with
    | none => simp [given]
    | some text => by_cases empty : text = "" <;> simp [given, Option.filter, empty]

/-- A role with two tags of one key and an empty boundary. -/
def ambiguousRole : RoleSpec :=
  ⟨"app", none, none, "{}", none, some "", none, [], [], ∅, [⟨"team", "a"⟩, ⟨"team", "b"⟩]⟩

/-- A change would leave the last of two tags of one key, and no boundary. The request for a new role asks for both
tags, and for an empty boundary. -/
theorem send_ambiguousRole : ∃ form next, send 1 (.createRole ambiguousRole) = .ask form next ∧
    (TagDelta.between [] ambiguousRole.tags).set = [⟨"team", "b"⟩] ∧
    form.Carries [⟨"team", "a"⟩, ⟨"team", "b"⟩] ∧ ¬form.AsksTags ambiguousRole.tags ∧
    given ambiguousRole.boundary = none ∧ form.field? "PermissionsBoundary" = some "" := by
  obtain ⟨form, next, headings, front, sent, split, laid, apart, bounded⟩ := send_call (.role ambiguousRole) 1
  have carries : form.Carries ambiguousRole.tags := carries_tagFields laid apart split
  refine ⟨form, next, sent, by decide, carries, ?_, by decide, ?_⟩
  · rintro ⟨carried, sent, same⟩
    have both := same.length_eq
    rw [sent.unique carries] at both
    exact absurd both (by decide)
  · unfold Form.field?
    rw [split, Entries.get?_append, bounded]
    rfl

end IamKeeper.Iam.Query
