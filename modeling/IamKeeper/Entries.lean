namespace IamKeeper

namespace Entries

variable {α β : Type}

def get? (key : String) : List (String × α) → Option α
  | [] => none
  | (k, value) :: rest => if k = key then some value else get? key rest

def insert (key : String) (value : α) : List (String × α) → List (String × α)
  | [] => [(key, value)]
  | (k, v) :: rest =>
    if key < k then (key, value) :: (k, v) :: rest
    else if key = k then (key, value) :: rest
    else (k, v) :: insert key value rest

/-- Sets the values one after the other, so that the last value of a key stays. -/
def insertAll (entries new : List (String × α)) : List (String × α) :=
  new.foldl (fun entries entry => insert entry.1 entry.2 entries) entries

/-- The entries of a list, of which the last for each key counts. -/
def ofList (entries : List (String × α)) : List (String × α) :=
  insertAll [] entries

def erase (key : String) (entries : List (String × α)) : List (String × α) :=
  entries.filter fun entry => entry.1 ≠ key

def Ascending (entries : List (String × α)) : Prop :=
  entries.Pairwise fun a b => a.1 < b.1

theorem insert_keys {key : String} {value : α} {entries : List (String × α)} {entry : String × α}
    (h : entry ∈ insert key value entries) : entry.1 = key ∨ entry ∈ entries := by
  induction entries with
  | nil => simp_all [insert]
  | cons head rest ih =>
    obtain ⟨k, v⟩ := head
    simp only [insert] at h
    split at h
    · rcases List.mem_cons.mp h with rfl | h
      · exact Or.inl rfl
      · exact Or.inr h
    · split at h
      · rcases List.mem_cons.mp h with rfl | h
        · exact Or.inl rfl
        · exact Or.inr (List.mem_cons_of_mem _ h)
      · rcases List.mem_cons.mp h with rfl | h
        · exact Or.inr (List.mem_cons_self ..)
        · exact (ih h).imp_right (List.mem_cons_of_mem _)

theorem lt_of_not_lt_of_ne {a b : String} (h : ¬ a < b) (hn : a ≠ b) : b < a := by
  by_cases hb : b < a
  · exact hb
  · exact absurd (String.le_antisymm (String.not_lt.mp hb) (String.not_lt.mp h)) hn

theorem Ascending.insert {entries : List (String × α)} (h : Ascending entries) (key : String)
    (value : α) : Ascending (Entries.insert key value entries) := by
  induction entries with
  | nil => simp [Entries.insert, Ascending]
  | cons head rest ih =>
    obtain ⟨k, v⟩ := head
    have hr := List.pairwise_cons.mp h
    simp only [Entries.insert]
    split
    · rename_i hk
      refine List.pairwise_cons.mpr ⟨fun entry he => ?_, h⟩
      rcases List.mem_cons.mp he with rfl | he
      · exact hk
      · exact String.lt_trans hk (hr.1 entry he)
    · split
      · rename_i hk
        subst hk
        exact List.pairwise_cons.mpr ⟨hr.1, hr.2⟩
      · rename_i hk hn
        refine List.pairwise_cons.mpr ⟨fun entry he => ?_, ih hr.2⟩
        rcases insert_keys he with he | he
        · simpa [he] using lt_of_not_lt_of_ne hk hn
        · exact hr.1 entry he

theorem Ascending.insertAll {entries : List (String × α)} (h : Ascending entries)
    (new : List (String × α)) : Ascending (Entries.insertAll entries new) := by
  induction new generalizing entries with
  | nil => exact h
  | cons entry new ih => exact ih (h.insert entry.1 entry.2)

theorem Ascending.erase {entries : List (String × α)} (h : Ascending entries) (key : String) :
    Ascending (Entries.erase key entries) :=
  List.Pairwise.filter _ h

theorem get?_insert (key : String) (value : α) (entries : List (String × α)) (k : String) :
    get? k (insert key value entries) = if key = k then some value else get? k entries := by
  induction entries with
  | nil => simp [insert, get?]
  | cons head rest ih =>
    obtain ⟨j, v⟩ := head
    simp only [insert]
    split
    · simp [get?]
    · split
      · rename_i hj
        subst hj
        by_cases hk : key = k <;> simp [get?, hk]
      · rename_i hn
        by_cases hj : j = k
        · subst hj
          simp [get?, hn]
        · simp [get?, hj, ih]

theorem get?_eq_none {key : String} {entries : List (String × α)}
    (h : ∀ entry ∈ entries, entry.1 ≠ key) : get? key entries = none := by
  induction entries with
  | nil => rfl
  | cons head rest ih =>
    simp [get?, h head (List.mem_cons_self ..),
      ih fun entry he => h entry (List.mem_cons_of_mem _ he)]

/-- A key before the first one has no value. -/
theorem get?_cons_of_lt {key : String} {head : String × α} {rest : List (String × α)}
    (h : Ascending (head :: rest)) (hk : key < head.1) : get? key (head :: rest) = none := by
  refine get?_eq_none fun entry he => ?_
  rcases List.mem_cons.mp he with rfl | he
  · exact (String.ne_of_lt hk).symm
  · exact (String.ne_of_lt (String.lt_trans hk ((List.pairwise_cons.mp h).1 entry he))).symm

theorem Ascending.ext_get? {xs ys : List (String × α)} (hx : Ascending xs) (hy : Ascending ys)
    (h : ∀ key, get? key xs = get? key ys) : xs = ys := by
  induction xs generalizing ys with
  | nil =>
    cases ys with
    | nil => rfl
    | cons y ys => simpa [get?] using h y.1
  | cons x xs ih =>
    cases ys with
    | nil => simpa [get?] using h x.1
    | cons y ys =>
      have hxy : x.1 = y.1 := by
        by_cases lt : x.1 < y.1
        · have hk := h x.1
          rw [get?_cons_of_lt hy lt] at hk
          simp [get?] at hk
        · by_cases gt : y.1 < x.1
          · have hk := h y.1
            rw [get?_cons_of_lt hx gt] at hk
            simp [get?] at hk
          · exact String.le_antisymm (String.not_lt.mp gt) (String.not_lt.mp lt)
      have hv : x.2 = y.2 := by simpa [get?, hxy] using h x.1
      have rest : xs = ys := by
        refine ih (List.pairwise_cons.mp hx).2 (List.pairwise_cons.mp hy).2 fun key => ?_
        by_cases hk : x.1 = key
        · subst hk
          have above {z : String × α} {zs : List (String × α)} (hz : Ascending (z :: zs)) :
              get? z.1 zs = none :=
            get?_eq_none fun entry he =>
              (String.ne_of_lt ((List.pairwise_cons.mp hz).1 entry he)).symm
          rw [above hx, hxy, above hy]
        · simpa [get?, hk, hxy ▸ hk] using h key
      rw [rest, show x = y from Prod.ext hxy hv]

end Entries

structure Table (α : Type) where
  entries : List (String × α)
  ascending : Entries.Ascending entries
deriving DecidableEq

namespace Table

variable {α : Type}

def empty : Table α :=
  ⟨[], List.Pairwise.nil⟩

instance : EmptyCollection (Table α) := ⟨empty⟩

instance : Inhabited (Table α) := ⟨empty⟩

def get? (t : Table α) (key : String) : Option α :=
  Entries.get? key t.entries

def insert (t : Table α) (key : String) (value : α) : Table α :=
  ⟨Entries.insert key value t.entries, t.ascending.insert key value⟩

def ofList (entries : List (String × α)) : Table α :=
  ⟨Entries.ofList entries, Entries.Ascending.insertAll List.Pairwise.nil entries⟩

def keys (t : Table α) : List String :=
  t.entries.map (·.1)

def contains (t : Table α) (key : String) : Bool :=
  (t.get? key).isSome

def size (t : Table α) : Nat :=
  t.entries.length

def isEmpty (t : Table α) : Bool :=
  t.entries.isEmpty

@[simp]
theorem get?_empty (key : String) : (∅ : Table α).get? key = none := rfl

theorem get?_insert (t : Table α) (key : String) (value : α) (k : String) :
    (t.insert key value).get? k = if key = k then some value else t.get? k :=
  Entries.get?_insert key value t.entries k

/-- Tables with the same values are the same. -/
theorem ext_get? {s t : Table α} (h : ∀ key, s.get? key = t.get? key) : s = t := by
  obtain ⟨xs, hx⟩ := s
  obtain ⟨ys, hy⟩ := t
  cases hx.ext_get? hy h
  rfl

end Table

/-- The members of a list of texts, each once, in ascending order. -/
def distinct (items : List String) : List String :=
  (Table.ofList (items.map fun item => (item, ()))).keys

end IamKeeper
