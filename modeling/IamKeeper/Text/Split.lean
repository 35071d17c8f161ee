namespace IamKeeper.Text

/-- The rest of `s` behind the leading text `front`, when `s` starts with it. -/
def afterFront? : List Char → List Char → Option (List Char)
  | [], s => some s
  | _ :: _, [] => none
  | c :: front, d :: s => if c = d then afterFront? front s else none

theorem afterFront?_eq_some {front s rest : List Char} :
    afterFront? front s = some rest ↔ s = front ++ rest := by
  induction front generalizing s with
  | nil => simp [afterFront?]
  | cons c front ih =>
    cases s with
    | nil => simp [afterFront?]
    | cons d s =>
      by_cases h : c = d
      · subst h
        simp [afterFront?, ih]
      · simp [afterFront?, h, Ne.symm h]

/-- The pieces of `s` between the separators, at least one. -/
def splitAt (separator : Char) : List Char → List (List Char)
  | [] => [[]]
  | c :: s =>
    if c = separator then [] :: splitAt separator s
    else
      match splitAt separator s with
      | [] => [[c]]
      | piece :: pieces => (c :: piece) :: pieces

theorem splitAt_eq_splitOn (separator : Char) (s : List Char) : splitAt separator s = s.splitOn separator := by
  induction s with
  | nil => rfl
  | cons c s ih =>
    rw [List.splitOn_cons_eq_if_modifyHead, splitAt, ih]
    by_cases h : c = separator
    · simp [h]
    · cases hs : s.splitOn separator with
      | nil => exact (List.splitOn_ne_nil _ _ hs).elim
      | cons piece pieces => simp [h]

theorem splitAt_ne_nil (separator : Char) (s : List Char) : splitAt separator s ≠ [] := by
  rw [splitAt_eq_splitOn]
  exact List.splitOn_ne_nil _ _

end IamKeeper.Text
