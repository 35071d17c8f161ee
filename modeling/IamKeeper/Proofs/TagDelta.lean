import IamKeeper.Proofs.Update.Hooks
import Mathlib.Data.List.Induction

namespace IamKeeper

/-- What a list of tags says of a key: the value of the last tag that has it. -/
def Tag.last? (tags : List Tag) (key : String) : Option String :=
  (tags.reverse.find? fun tag => tag.key = key).map Tag.value

theorem Tag.get?_table (tags : List Tag) (key : String) : (Tag.table tags).get? key = Tag.last? tags key := by
  induction tags using List.reverseRecOn with
  | nil => rfl
  | append_singleton tags tag ih =>
    have later : Tag.table (tags ++ [tag]) = (Tag.table tags).insert tag.key tag.value := by
      simp [Tag.table, Table.ofList, Table.insert, Entries.ofList, Entries.insertAll]
    rw [later, Table.get?_insert, ih]
    by_cases same : tag.key = key <;> simp [last?, same]

theorem Tag.same_comm (a b : List Tag) : Tag.same a b = Tag.same b a :=
  decide_eq_decide.mpr eq_comm

namespace TagDelta

/-- What is said of a key once the removed keys are gone and the new tags are set. -/
def apply (delta : TagDelta) (tags : String → Option String) (key : String) : Option String :=
  (Tag.last? delta.set key).or (if key ∈ delta.remove then none else tags key)

/-- What leads from some tags to others by as little as possible, in order. -/
structure Exact (delta : TagDelta) (latest desired : String → Option String) : Prop where
  reaches : delta.apply latest = desired
  set_ascending : (delta.set.map Tag.key).Pairwise (· < ·)
  remove_ascending : delta.remove.Pairwise (· < ·)
  disjoint : ∀ tag ∈ delta.set, tag.key ∉ delta.remove
  -- Not only do its parts fail to do what it does: whatever does as much has all of it.
  minimal : ∀ other : TagDelta, other.apply latest = desired →
    delta.set ⊆ other.set ∧ delta.remove ⊆ other.remove
  changed : ∀ key old new, latest key = some old → desired key = some new → old ≠ new →
    ⟨key, new⟩ ∈ delta.set ∧ key ∉ delta.remove

variable {latest desired : List Tag}

theorem mem_between_set {tag : Tag} : tag ∈ (between latest desired).set ↔
    Tag.last? desired tag.key = some tag.value ∧ Tag.last? latest tag.key ≠ some tag.value := by
  simp only [← Tag.get?_table, Table.get?_eq_some (t := Tag.table desired)]
  unfold between
  constructor
  · intro h
    obtain ⟨entry, he, rfl⟩ := List.mem_map.mp h
    simpa using List.mem_filter.mp he
  · rintro ⟨wanted, stale⟩
    exact List.mem_map.mpr ⟨(tag.key, tag.value), List.mem_filter.mpr ⟨wanted, by simpa using stale⟩, rfl⟩

theorem mem_between_remove {key : String} : key ∈ (between latest desired).remove ↔
    (Tag.last? latest key).isSome ∧ Tag.last? desired key = none := by
  rw [mem_remove, Tag.get?_table, Tag.get?_table]

theorem between_set_ascending (latest desired : List Tag) :
    ((between latest desired).set.map Tag.key).Pairwise (· < ·) := by
  unfold between
  rw [List.map_map]
  exact List.pairwise_map.mpr ((Tag.table desired).ascending.filter _)

theorem between_remove_ascending (latest desired : List Tag) : (between latest desired).remove.Pairwise (· < ·) := by
  have ascending : (Tag.table latest).keys.Pairwise (· < ·) := List.pairwise_map.mpr (Tag.table latest).ascending
  exact ascending.filter _

theorem between_apply (latest desired : List Tag) :
    (between latest desired).apply (Tag.last? latest) = Tag.last? desired := by
  funext key
  unfold apply
  rw [← Tag.get?_table, ← Tag.get?_table, ← Tag.get?_table]
  exact get?_between latest desired key

/-- Nothing but setting a tag brings it about, and nothing but removing a key takes it away. -/
theorem between_minimal {other : TagDelta} (reaches : other.apply (Tag.last? latest) = Tag.last? desired) :
    (between latest desired).set ⊆ other.set ∧ (between latest desired).remove ⊆ other.remove := by
  refine ⟨fun tag there => ?_, fun key there => ?_⟩
  · obtain ⟨wanted, stale⟩ := mem_between_set.mp there
    have told : other.apply (Tag.last? latest) tag.key = some tag.value := by rw [reaches, wanted]
    rcases Option.or_eq_some_iff.mp told with set | ⟨-, kept⟩
    · obtain ⟨last, found, value⟩ := Option.map_eq_some_iff.mp set
      have key : last.key = tag.key := by simpa using List.find?_some found
      have same : last = tag := by
        cases last
        cases tag
        exact congrArg₂ Tag.mk key value
      exact same ▸ List.mem_reverse.mp (List.mem_of_find?_eq_some found)
    · split at kept
      · cases kept
      · exact absurd kept stale
  · obtain ⟨present, unwanted⟩ := mem_between_remove.mp there
    have told : other.apply (Tag.last? latest) key = none := by rw [reaches, unwanted]
    by_contra left
    have absent := (Option.or_eq_none_iff.mp told).2
    rw [if_neg left] at absent
    rw [absent] at present
    cases present

theorem exact_between (latest desired : List Tag) :
    (between latest desired).Exact (Tag.last? latest) (Tag.last? desired) where
  reaches := between_apply latest desired
  set_ascending := between_set_ascending latest desired
  remove_ascending := between_remove_ascending latest desired
  disjoint := by
    intro tag set removed
    have wanted := (mem_between_set.mp set).1
    rw [(mem_between_remove.mp removed).2] at wanted
    cases wanted
  minimal _ := between_minimal
  changed := by
    intro key old new was wanted differs
    refine ⟨mem_between_set.mpr ⟨wanted, ?_⟩, fun removed => ?_⟩
    · rw [was]
      exact fun same => differs (Option.some.inj same)
    · rw [(mem_between_remove.mp removed).2] at wanted
      cases wanted

theorem table_eq_of_last? {tags tags' : List Tag} (same : Tag.last? tags = Tag.last? tags') :
    Tag.table tags = Tag.table tags' :=
  Table.ext_get? fun key => by rw [Tag.get?_table, Tag.get?_table, same]

/-- The difference between two lists of tags is as little as leads from one to the other. There is none just where they
say the same of every key, and nothing but what they say of keys tells in it. -/
theorem between_least (latest desired : List Tag) :
    (between latest desired).Exact (Tag.last? latest) (Tag.last? desired) ∧
    ((between latest desired).set = [] ∧ (between latest desired).remove = [] ↔ Tag.same latest desired = true) ∧
    ∀ latest' desired' : List Tag, Tag.last? latest' = Tag.last? latest → Tag.last? desired' = Tag.last? desired →
      between latest' desired' = between latest desired := by
  refine ⟨exact_between latest desired, ?_, fun latest' desired' said wanted => ?_⟩
  · rw [Tag.same_comm, ← between_eq_empty_iff]
    cases between latest desired
    simp
  · unfold between
    rw [table_eq_of_last? said, table_eq_of_last? wanted]

def worn : List Tag :=
  [⟨"stage", "test"⟩, ⟨"team", "one"⟩, ⟨"stage", "live"⟩, ⟨"owner", "ann"⟩]

def fresh : List Tag :=
  [⟨"team", "two"⟩, ⟨"cost", "low"⟩, ⟨"stage", "live"⟩]

/-- A tag that was overwritten in the list already is not set again. -/
theorem between_least_worn : (between worn fresh).Exact (Tag.last? worn) (Tag.last? fresh) ∧
    between worn fresh = ⟨[⟨"cost", "low"⟩, ⟨"team", "two"⟩], ["owner"]⟩ :=
  ⟨(between_least worn fresh).1, by decide⟩

end TagDelta

end IamKeeper
