import IamKeeper.Iam.Attachments
import IamKeeper.Iam.Tags
import Mathlib.Data.List.Perm.Subperm

namespace IamKeeper

namespace Entries

variable {α : Type}

theorem mem_of_get? {key : String} {value : α} {entries : List (String × α)}
    (h : get? key entries = some value) : (key, value) ∈ entries := by
  induction entries with
  | nil => simp [get?] at h
  | cons head rest ih =>
    obtain ⟨k, v⟩ := head
    by_cases hk : k = key
    · subst hk
      have hv : v = value := by simpa [get?] using h
      simp [hv]
    · exact List.mem_cons_of_mem _ (ih (by simpa [get?, hk] using h))

theorem get?_eq_some_iff_of_nodup {key : String} {value : α} {entries : List (String × α)}
    (distinct : (entries.map Prod.fst).Nodup) : get? key entries = some value ↔ (key, value) ∈ entries := by
  refine ⟨mem_of_get?, fun h => ?_⟩
  induction entries with
  | nil => cases h
  | cons head rest ih =>
    obtain ⟨fresh, distinct⟩ := List.nodup_cons.mp distinct
    rcases List.mem_cons.mp h with rfl | h
    · simp [get?]
    · have other : head.1 ≠ key := fun same => fresh (List.mem_map.mpr ⟨_, h, same.symm⟩)
      simpa [get?, other] using ih distinct h

theorem Ascending.nodup {entries : List (String × α)} (h : Ascending entries) :
    (entries.map Prod.fst).Nodup :=
  List.pairwise_map.mpr (h.imp fun lt => String.ne_of_lt lt)

theorem get?_eq_some_iff {key : String} {value : α} {entries : List (String × α)}
    (ascending : Ascending entries) :
    get? key entries = some value ↔ (key, value) ∈ entries :=
  get?_eq_some_iff_of_nodup ascending.nodup

theorem get?_append (key : String) (front back : List (String × α)) :
    get? key (front ++ back) = (get? key front).or (get? key back) := by
  induction front with
  | nil => rfl
  | cons head rest ih => by_cases same : head.1 = key <;> simp [get?, same, ih]

theorem get?_insertAll_map (f : String → α) (names : List String) (entries : List (String × α))
    (key : String) :
    get? key (insertAll entries (names.map fun name => (name, f name))) =
      if key ∈ names then some (f key) else get? key entries := by
  induction names generalizing entries with
  | nil => simp [insertAll]
  | cons name names ih =>
    have step := ih (Entries.insert name (f name) entries)
    simp only [insertAll, List.map_cons, List.foldl_cons] at step ⊢
    rw [step, get?_insert]
    by_cases hn : key = name
    · subst hn
      simp
    · simp [hn, Ne.symm hn]

theorem get?_insertAll {new : List (String × α)} (distinct : (new.map Prod.fst).Nodup)
    (entries : List (String × α)) (key : String) :
    get? key (insertAll entries new) = (get? key new).or (get? key entries) := by
  induction new generalizing entries with
  | nil => simp [insertAll, get?]
  | cons head rest ih =>
    obtain ⟨k, v⟩ := head
    have hr := List.nodup_cons.mp distinct
    have step := ih hr.2 (Entries.insert k v entries)
    simp only [insertAll, List.foldl_cons] at step ⊢
    rw [step, get?_insert]
    by_cases hk : k = key
    · subst hk
      have absent : get? k rest = none :=
        get?_eq_none fun entry he same => hr.1 (List.mem_map.mpr ⟨entry, he, same⟩)
      simp [get?, absent]
    · simp [get?, hk]

theorem get?_ofList {entries : List (String × α)} (distinct : (entries.map Prod.fst).Nodup) (key : String) :
    get? key (ofList entries) = get? key entries := by
  unfold ofList
  rw [get?_insertAll distinct]
  exact Option.or_none

theorem get?_filter {p : String × α → Bool} {entries : List (String × α)}
    (ascending : Ascending entries) (key : String) :
    get? key (entries.filter p) = (get? key entries).filter fun value => p (key, value) := by
  apply Option.ext
  intro value
  rw [get?_eq_some_iff (ascending.filter p), List.mem_filter, Option.filter_eq_some_iff,
    get?_eq_some_iff ascending]

end Entries

namespace Table

variable {α : Type}

theorem get?_eq_some {t : Table α} {key : String} {value : α} :
    t.get? key = some value ↔ (key, value) ∈ t.entries :=
  Entries.get?_eq_some_iff t.ascending

theorem mem_keys {t : Table α} {key : String} : key ∈ t.keys ↔ ∃ value, t.get? key = some value := by
  unfold keys
  constructor
  · intro h
    obtain ⟨⟨k, value⟩, he, rfl⟩ := List.mem_map.mp h
    exact ⟨value, get?_eq_some.mpr he⟩
  · intro h
    obtain ⟨value, h⟩ := h
    exact List.mem_map.mpr ⟨(key, value), get?_eq_some.mp h, rfl⟩

theorem keys_nodup (t : Table α) : t.keys.Nodup :=
  t.ascending.nodup

theorem get?_ofList_map (f : String → α) (names : List String) (key : String) :
    (ofList (names.map fun name => (name, f name))).get? key =
      if key ∈ names then some (f key) else none :=
  Entries.get?_insertAll_map f names [] key

theorem get?_ofList_ascending {entries : List (String × α)} (ascending : Entries.Ascending entries)
    (key : String) : (ofList entries).get? key = Entries.get? key entries :=
  Entries.get?_ofList ascending.nodup key

end Table

theorem get?_distinct (items : List String) (key : String) :
    (Table.ofList (items.map fun item => (item, ()))).get? key =
      if key ∈ items then some () else none :=
  Table.get?_ofList_map (fun _ => ()) items key

theorem mem_distinct {items : List String} {item : String} :
    item ∈ distinct items ↔ item ∈ items := by
  unfold distinct
  rw [Table.mem_keys, get?_distinct]
  simp

theorem distinct_eq_iff {a b : List String} :
    distinct a = distinct b ↔ ∀ item, item ∈ a ↔ item ∈ b := by
  constructor
  · intro h item
    rw [← mem_distinct, h, mem_distinct]
  · intro h
    unfold distinct
    congr 1
    apply Table.ext_get?
    intro key
    rw [get?_distinct, get?_distinct]
    exact if_congr (h key) rfl rfl

namespace Iam

theorem sameMembers_iff {a b : List String} :
    sameMembers a b = true ↔ ∀ item, item ∈ a ↔ item ∈ b := by
  unfold sameMembers
  rw [decide_eq_true_eq, distinct_eq_iff]

theorem mem_difference {a b : List String} {item : String} :
    item ∈ difference a b ↔ item ∈ a ∧ item ∉ b := by
  unfold difference
  rw [List.mem_filter, mem_distinct]
  simp

theorem given_given (text : Option String) : given (given text) = given text := by
  unfold given
  rw [Option.filter_filter]
  simp

theorem sameGiven_iff {x y : Option String} : sameGiven x y = true ↔ given x = given y := by
  have given_eq (text : Option String) :
      given text = if text.getD "" = "" then none else some (text.getD "") := by
    cases text with
    | none => rfl
    | some s => by_cases hs : s = "" <;> simp [given, Option.filter, hs]
  unfold sameGiven
  rw [decide_eq_true_eq, given_eq, given_eq]
  constructor
  · intro h
    rw [h]
  · intro h
    by_cases hx : x.getD "" = "" <;> by_cases hy : y.getD "" = "" <;> simp_all

theorem sameGiven_refl (text : Option String) : sameGiven text text = true := by
  simp [sameGiven]

theorem sameGiven_some {x y : String} : sameGiven (some x) (some y) = true ↔ y = x := by
  simp [sameGiven, eq_comm]

end Iam

namespace Document

theorem equivalent_refl (a : String) : equivalent a a = true := by
  unfold equivalent
  cases Json.read? a <;> simp

theorem equivalent_comm (a b : String) : equivalent a b = equivalent b a := by
  unfold equivalent
  cases Json.read? a <;> cases Json.read? b <;> exact decide_eq_decide.mpr eq_comm

end Document

namespace Iam

/-- The documents of two tables under one name: both absent, or equivalent. -/
def SameDocument (a b : Option String) : Prop :=
  Option.Rel (fun x y => Document.equivalent x y = true) a b

theorem SameDocument.isSome {a b : Option String} (h : SameDocument a b) :
    a.isSome = b.isSome := by
  cases h <;> rfl

theorem SameDocument.refl (a : Option String) : SameDocument a a := by
  cases a with
  | none => exact .none
  | some text => exact .some (Document.equivalent_refl text)

/-- Tables of one size, of which the second has an equivalent document for each of the first, have the
same names. -/
theorem sameInline_iff {a b : Table String} :
    sameInline a b = true ↔ ∀ name, SameDocument (a.get? name) (b.get? name) := by
  unfold sameInline
  rw [Bool.and_eq_true, decide_eq_true_eq, List.all_eq_true]
  have sized (t : Table String) : t.size = t.keys.length := by
    simp [Table.size, Table.keys]
  constructor
  · rintro ⟨size, all⟩ name
    have found {k doc : String} (h : a.get? k = some doc) :
        ∃ other, b.get? k = some other ∧ Document.equivalent doc other = true := by
      have := all (k, doc) (Table.get?_eq_some.mp h)
      cases hb : b.get? k with
      | none => simp [hb] at this
      | some other => exact ⟨other, rfl, by simpa [hb] using this⟩
    have subset : a.keys ⊆ b.keys := by
      intro k hk
      obtain ⟨doc, h⟩ := Table.mem_keys.mp hk
      obtain ⟨other, hb, -⟩ := found h
      exact Table.mem_keys.mpr ⟨other, hb⟩
    -- Counting is what rules out further names in `b`.
    have perm : a.keys.Perm b.keys := by
      apply (List.subperm_of_subset a.keys_nodup subset).perm_of_length_le
      have ha := sized a
      have hb := sized b
      omega
    cases ha : a.get? name with
    | some doc =>
      obtain ⟨other, hb, equivalent⟩ := found ha
      rw [hb]
      exact .some equivalent
    | none =>
      cases hb : b.get? name with
      | none => exact .none
      | some other =>
        have hk := perm.mem_iff.mpr (Table.mem_keys.mpr ⟨other, hb⟩)
        obtain ⟨doc, h⟩ := Table.mem_keys.mp hk
        rw [ha] at h
        cases h
  · intro same
    refine ⟨?_, ?_⟩
    · have mem (k : String) : k ∈ a.keys ↔ k ∈ b.keys := by
        rw [Table.mem_keys, Table.mem_keys, ← Option.isSome_iff_exists,
          ← Option.isSome_iff_exists, (same k).isSome]
      rw [sized, sized]
      exact ((List.perm_ext_iff_of_nodup a.keys_nodup b.keys_nodup).mpr mem).length_eq
    · rintro ⟨k, doc⟩ he
      have h := same k
      rw [Table.get?_eq_some.mpr he] at h
      cases hb : b.get? k with
      | none => rw [hb] at h; cases h
      | some other =>
        rw [hb] at h
        cases h with
        | some h => simpa [hb] using h

end Iam

theorem Tag.table_map (entries : List (String × String)) :
    Tag.table (entries.map fun entry => ⟨entry.1, entry.2⟩) = Table.ofList entries := by
  unfold Tag.table
  rw [List.map_map]
  exact congrArg Table.ofList (List.map_id entries)

theorem Tag.same_iff {a b : List Tag} :
    Tag.same a b = true ↔ ∀ key, (Tag.table a).get? key = (Tag.table b).get? key := by
  unfold Tag.same
  rw [decide_eq_true_eq]
  exact ⟨fun h key => by rw [h], Table.ext_get?⟩

namespace TagDelta

theorem mem_remove {latest desired : List Tag} {key : String} :
    key ∈ (between latest desired).remove ↔
      ((Tag.table latest).get? key).isSome ∧ (Tag.table desired).get? key = none := by
  unfold between
  rw [List.mem_filter, Table.mem_keys, ← Option.isSome_iff_exists]
  simp [Table.contains]

theorem get?_set (latest desired : List Tag) (key : String) :
    (Tag.table (between latest desired).set).get? key =
      ((Tag.table desired).get? key).filter fun value =>
        (Tag.table latest).get? key ≠ some value := by
  have ascending := (Tag.table desired).ascending
  unfold between
  rw [Tag.table_map, Table.get?_ofList_ascending (ascending.filter _), Entries.get?_filter ascending]
  rfl

/-- Removing the keys and setting the tags of a difference leads to the desired tags. -/
theorem get?_between (latest desired : List Tag) (key : String) :
    ((Tag.table (between latest desired).set).get? key).or
        (if key ∈ (between latest desired).remove then none else (Tag.table latest).get? key) =
      (Tag.table desired).get? key := by
  rw [get?_set]
  cases hd : (Tag.table desired).get? key with
  | none =>
    cases hl : (Tag.table latest).get? key with
    | none => simp
    | some value => simp [mem_remove, hd, hl]
  | some value =>
    have hk : key ∉ (between latest desired).remove := by simp [mem_remove, hd]
    by_cases hl : (Tag.table latest).get? key = some value
    · simp [hk, hl, Option.filter]
    · simp [hl, Option.filter]

end TagDelta

end IamKeeper
