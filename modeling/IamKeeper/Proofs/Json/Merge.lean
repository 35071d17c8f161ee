import IamKeeper.Proofs.Entries

namespace IamKeeper

namespace Entries

variable {α : Type}

theorem get?_erase (key : String) (entries : List (String × α)) (k : String) :
    get? k (erase key entries) = if key = k then none else get? k entries := by
  induction entries with
  | nil => simp [erase, get?]
  | cons head rest ih =>
    obtain ⟨j, v⟩ := head
    unfold erase at ih ⊢
    by_cases hj : j = key
    · subst hj
      rw [List.filter_cons_of_neg (by simp), ih]
      by_cases hk : j = k <;> simp [get?, hk]
    · rw [List.filter_cons_of_pos (by simp [hj])]
      by_cases hk : j = k
      · simp [get?, hk, show key ≠ k from fun same => hj (hk.trans same.symm)]
      · simpa [get?, hk] using ih

end Entries

namespace Json

/-- The members of an object; no other document has any. -/
def membersOf : Json → List (String × Json)
  | .object members => members
  | _ => []

mutual

def mergePatch : Json → Json → Json
  | target, .object patch => .object (mergeMembers (membersOf target) patch)
  | _, v => v

def mergeMembers : List (String × Json) → List (String × Json) → List (String × Json)
  | members, [] => members
  | members, (name, v) :: patch =>
    let merged := mergePatch ((Entries.get? name members).getD .null) v
    mergeMembers (if v = .null then Entries.erase name members else Entries.insert name merged members) patch

end

/-- What a patch leaves under a name, by what stood there and by what the patch has there. -/
def overlay (old patch : Option Json) : Option Json :=
  match patch with
  | none => old
  | some v => if v = .null then none else some (mergePatch (old.getD .null) v)

theorem get?_mergeMembers {patch : List (String × Json)} (distinct : (patch.map Prod.fst).Nodup)
    (members : List (String × Json)) (name : String) :
    Entries.get? name (mergeMembers members patch) =
      overlay (Entries.get? name members) (Entries.get? name patch) := by
  induction patch generalizing members with
  | nil => rw [mergeMembers]; rfl
  | cons head patch ih =>
    obtain ⟨n, v⟩ := head
    rw [List.map_cons, List.nodup_cons] at distinct
    rw [mergeMembers, ih distinct.2]
    by_cases same : n = name
    · subst same
      have last : Entries.get? n patch = none :=
        Entries.get?_eq_none fun entry he eq => distinct.1 (List.mem_map.mpr ⟨entry, he, eq⟩)
      by_cases null : v = .null
      · simp [last, overlay, null, Entries.get?, Entries.get?_erase]
      · simp [last, overlay, null, Entries.get?, Entries.get?_insert]
    · have kept : Entries.get? name
          (if v = .null then Entries.erase n members
            else Entries.insert n (mergePatch ((Entries.get? n members).getD .null) v) members) =
          Entries.get? name members := by
        split
        · rw [Entries.get?_erase, if_neg same]
        · rw [Entries.get?_insert, if_neg same]
      rw [kept]
      simp [Entries.get?, same]

end Json

end IamKeeper
