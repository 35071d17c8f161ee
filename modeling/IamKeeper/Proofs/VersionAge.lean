import IamKeeper.Iam.Versions
import Mathlib.Data.List.Nodup

namespace IamKeeper

namespace Time

theorem Date.lt_iff {a b : Date} : a.lt b = true ↔
    a.year < b.year ∨ a.year = b.year ∧ (a.month < b.month ∨ a.month = b.month ∧ a.day < b.day) := by
  simp [Date.lt]

theorem Date.eq_iff {a b : Date} :
    a = b ↔ a.year = b.year ∧ a.month = b.month ∧ a.day = b.day := by
  cases a
  cases b
  simp

theorem Instant.lt_iff {a b : Instant} : a.lt b = true ↔
    a.date.lt b.date = true ∨ a.date = b.date ∧
      (a.second < b.second ∨ a.second = b.second ∧ a.nanosecond < b.nanosecond) := by
  simp [Instant.lt]

theorem Instant.lt_asymm {a b : Instant} (h : a.lt b = true) : b.lt a = false := by
  rw [← Bool.not_eq_true, lt_iff, Date.lt_iff, Date.eq_iff]
  rw [lt_iff, Date.lt_iff, Date.eq_iff] at h
  omega

/-- What lies before a point in time lies before all that is not before that point. -/
theorem Instant.lt_of_lt_of_not_lt {a b c : Instant} (h : a.lt b = true) (h' : c.lt b = false) :
    a.lt c = true := by
  rw [← Bool.not_eq_true, lt_iff, Date.lt_iff, Date.eq_iff] at h'
  rw [lt_iff, Date.lt_iff, Date.eq_iff] at h ⊢
  omega

end Time

namespace Iam

open Time (Instant)

theorem notLater_total (a b : Option Instant) : (notLater a b || notLater b a) = true := by
  cases a with
  | none => rfl
  | some x =>
    cases b with
    | none => rfl
    | some y =>
      cases h : y.lt x with
      | false => simp [notLater, h]
      | true => simp [notLater, Instant.lt_asymm h]

theorem notLater_trans {a b c : Option Instant} (hab : notLater a b = true)
    (hbc : notLater b c = true) : notLater a c = true := by
  cases a with
  | none => rfl
  | some x =>
    cases b with
    | none => cases hab
    | some y =>
      cases c with
      | none => cases hbc
      | some z =>
        simp only [notLater, Bool.not_eq_true'] at hab hbc ⊢
        cases h : z.lt x with
        | false => rfl
        | true => exact absurd (Instant.lt_of_lt_of_not_lt h hab) (by simp [hbc])

/-- An unknown time is before any other. -/
inductive Before : Option Instant → Option Instant → Prop
  | unknown {y : Instant} : Before none (some y)
  | known {x y : Instant} (lt : x.lt y = true) : Before (some x) (some y)

theorem notLater_iff {a b : Option Instant} : notLater a b = true ↔ ¬ Before b a := by
  cases a with
  | none => exact iff_of_true rfl nofun
  | some x =>
    cases b with
    | none => exact iff_of_false Bool.false_ne_true fun h => h .unknown
    | some y =>
      simp only [notLater, Bool.not_eq_true', ← Bool.not_eq_true]
      exact not_congr ⟨.known, fun | .known lt => lt⟩

/-- The version that a listing gives up first: no other one that is not the default is older, and none
that is listed before it is as old. -/
structure Expendable (versions : List PolicyVersion) (v : PolicyVersion) : Prop where
  notDefault : v.isDefault = false
  oldest : ∃ front back, versions = front ++ v :: back ∧
    (∀ w ∈ front, w.isDefault = false → Before v.created w.created) ∧
    ∀ w ∈ back, w.isDefault = false → ¬ Before w.created v.created

theorem Expendable.mem {versions : List PolicyVersion} {v : PolicyVersion}
    (h : Expendable versions v) : v ∈ versions := by
  obtain ⟨front, back, rfl, -, -⟩ := h.oldest
  simp

theorem byAge_perm (versions : List PolicyVersion) : (byAge versions).Perm versions :=
  List.mergeSort_perm ..

/-- Among several versions of which one is the default, there is an expendable one. -/
theorem exists_expendable {versions : List PolicyVersion}
    (oneDefault : versions.countP PolicyVersion.isDefault = 1) (many : 1 < versions.length) :
    ∃ v, expendable? (byAge versions) = some v := by
  rw [← Option.ne_none_iff_exists']
  intro absent
  have all : (byAge versions).countP PolicyVersion.isDefault = (byAge versions).length := by
    rw [List.countP_eq_length]
    intro w hw
    simpa using List.find?_eq_none.mp absent w hw
  rw [(byAge_perm versions).countP_eq, (byAge_perm versions).length_eq] at all
  omega

theorem mem_front_of_pair {α : Type} {front back : List α} {x y : α}
    (distinct : (front ++ y :: back).Nodup) (h : [x, y].Sublist (front ++ y :: back)) :
    x ∈ front := by
  have alone : y ∉ back := (List.nodup_cons.mp distinct.of_append_right).1
  obtain ⟨first, second, split, hfirst, hsecond⟩ := List.sublist_append_iff.mp h
  cases first with
  | nil =>
    rw [List.nil_append] at split
    rw [← split] at hsecond
    have tail : [y].Sublist back := by
      cases hsecond with
      | cons _ rest => exact (List.sublist_cons_self x [y]).trans rest
      | cons_cons _ rest => exact rest
    exact absurd (List.singleton_sublist.mp tail) alone
  | cons z first =>
    obtain ⟨rfl, -⟩ := List.cons.inj split
    exact hfirst.subset (List.mem_cons_self ..)

/-- Sorting by age keeps the order of the listing among versions of one age, so that the first one that is
not the default is expendable. -/
theorem expendable_of_byAge {versions : List PolicyVersion} {v : PolicyVersion}
    (distinct : versions.Nodup) (h : expendable? (byAge versions) = some v) :
    Expendable versions v := by
  obtain ⟨notDefault, older, younger, sorted, defaults⟩ := List.find?_eq_some_iff_append.mp h
  have notDefault : v.isDefault = false := by simpa using notDefault
  have trans (a b c : PolicyVersion) (hab : notLater a.created b.created = true)
      (hbc : notLater b.created c.created = true) : notLater a.created c.created = true :=
    notLater_trans hab hbc
  have total (a b : PolicyVersion) :
      (notLater a.created b.created || notLater b.created a.created) = true :=
    notLater_total ..
  have perm := byAge_perm versions
  have ascending := List.pairwise_mergeSort trans total versions
  change (byAge versions).Pairwise _ at ascending
  rw [sorted] at perm ascending
  have nodup := perm.nodup_iff.mpr distinct
  have behind := (List.pairwise_cons.mp (List.pairwise_append.mp ascending).2.1).1
  obtain ⟨front, back, listed⟩ := List.append_of_mem (perm.mem_iff.mp (by simp : v ∈ older ++ v :: younger))
  refine ⟨notDefault, front, back, listed, ?_, ?_⟩
  · intro w hw other
    by_contra younger
    have early : notLater w.created v.created = true := notLater_iff.mpr younger
    -- a version as old as `v` that is listed before it stays before it
    have pair : [w, v].Sublist versions := by
      rw [listed]
      exact (List.singleton_sublist.mpr hw).append (List.singleton_sublist.mpr (by simp))
    have pair := List.pair_sublist_mergeSort trans total early pair
    change [w, v].Sublist (byAge versions) at pair
    rw [sorted] at pair
    have isDefault := defaults w (mem_front_of_pair nodup pair)
    simp [other] at isDefault
  · intro w hw other
    rw [← notLater_iff]
    have hs : w ∈ older ++ v :: younger := perm.mem_iff.mpr (by simp [listed, hw])
    rcases List.mem_append.mp hs with hs | hs
    · have isDefault := defaults w hs
      simp [other] at isDefault
    · rcases List.mem_cons.mp hs with rfl | hs
      · simpa using notLater_total w.created w.created
      · exact behind w hs

end Iam

end IamKeeper
