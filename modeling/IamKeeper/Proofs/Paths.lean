import IamKeeper.Proofs.Delta

namespace IamKeeper

namespace Text

theorem intercalate_append_cons (separator : Char) {front : List (List Char)} (there : front ≠ [])
    (piece : List Char) (back : List (List Char)) :
    [separator].intercalate (front ++ piece :: back) =
      [separator].intercalate front ++ separator :: [separator].intercalate (piece :: back) := by
  induction front with
  | nil => exact absurd rfl there
  | cons head rest ih =>
    cases rest with
    | nil => simp
    | cons next rest =>
      rw [List.cons_append, List.cons_append, List.intercalate_cons_cons, ← List.cons_append, ih nofun]
      simp

/-- The pieces of one text lead those of another when the first text is all of the other, or what stands in front of a
separator there. -/
theorem splitOn_prefix_iff {separator : Char} {front s : List Char} :
    front.splitOn separator <+: s.splitOn separator ↔ s = front ∨ ∃ rest, s = front ++ separator :: rest := by
  constructor
  · rintro ⟨more, pieces⟩
    -- A text is what its pieces make with the separators between them.
    have whole : s = [separator].intercalate (front.splitOn separator ++ more) := by
      rw [pieces, List.intercalate_splitOn]
    cases more with
    | nil =>
      rw [List.append_nil, List.intercalate_splitOn] at whole
      exact .inl whole
    | cons piece more =>
      rw [intercalate_append_cons separator (List.splitOn_ne_nil _ _), List.intercalate_splitOn] at whole
      exact .inr ⟨_, whole⟩
  · rintro (rfl | ⟨rest, rfl⟩)
    · exact List.prefix_rfl
    · rw [List.splitOn_append_cons_self]
      exact List.prefix_append ..

end Text

namespace Delta

/-- The delta of the paths that were recorded, one after the other. -/
def ofPaths (recorded : List String) : Delta :=
  recorded.foldl add ∅

/-- What stands between the full stops of a path. -/
def components (path : String) : List (List Char) :=
  path.toList.splitOn '.'

/-- A path that was recorded, or one with such a path below it. -/
def Touches (recorded : List String) (path : String) : Prop :=
  ∃ inner ∈ recorded, components path <+: components inner

instance (recorded : List String) (path : String) : Decidable (Touches recorded path) :=
  inferInstanceAs (Decidable (∃ _ ∈ recorded, _))

theorem mem_paths_ofPaths {recorded : List String} {path : String} : path ∈ (ofPaths recorded).paths ↔ path ∈ recorded := by
  have fields : ofPaths recorded = ofFields (recorded.map (true, ·)) := by
    unfold ofPaths ofFields
    rw [List.foldl_map]
    rfl
  rw [fields, mem_paths_ofFields]
  simp

theorem covers_iff {outer inner : String} : covers outer inner = true ↔ components outer <+: components inner := by
  unfold components
  rw [Text.splitOn_prefix_iff]
  unfold covers
  constructor
  · intro covered
    cases found : Text.afterFront? outer.toList inner.toList with
    | none => simp [found] at covered
    | some rest =>
      have split := Text.afterFront?_eq_some.mp found
      cases rest with
      | nil => exact .inl (split.trans (List.append_nil _))
      | cons c rest =>
        have stop : c = '.' := by simpa [found] using covered
        exact .inr ⟨rest, stop ▸ split⟩
  · rintro (same | ⟨rest, split⟩)
    · have found : Text.afterFront? outer.toList inner.toList = some [] :=
        Text.afterFront?_eq_some.mpr (same.trans (List.append_nil _).symm)
      simp [found]
    · have found : Text.afterFront? outer.toList inner.toList = some ('.' :: rest) :=
        Text.afterFront?_eq_some.mpr split
      simp [found]

section

variable {recorded : List String} {path : String}

theorem differsAt_ofPaths : (ofPaths recorded).differsAt path = true ↔ Touches recorded path := by
  unfold differsAt Touches
  simp only [List.any_eq_true, mem_paths_ofPaths, covers_iff]

theorem Touches.append (touches : Touches recorded path) (more : List String) : Touches (recorded ++ more) path := by
  obtain ⟨inner, there, leads⟩ := touches
  exact ⟨inner, List.mem_append_left _ there, leads⟩

end

theorem checkImmutable_ofPaths (recorded immutable : List String) :
    (ofPaths recorded).checkImmutable immutable =
      if ∃ path ∈ immutable, Touches recorded path then
        .error (.immutableFields (immutable.filter fun path => Touches recorded path))
      else .ok () := by
  have named : (ofPaths recorded).violations immutable = immutable.filter fun path => Touches recorded path := by
    refine List.filter_congr fun path _ => ?_
    rw [Bool.eq_iff_iff, differsAt_ofPaths, decide_eq_true_eq]
  unfold checkImmutable
  rw [named]
  by_cases touches : ∃ path ∈ immutable, Touches recorded path
  · simp [touches]
  · simp [touches]

/-- A delta differs exactly at the paths whose components lead those of a recorded path. A check of immutable paths
fails when it differs at one of them, and names those at which it does, as they are given. Further paths only add to
either. -/
theorem componentwise (recorded : List String) :
    (∀ path, (ofPaths recorded).differsAt path = true ↔ Touches recorded path) ∧
    (∀ immutable, (ofPaths recorded).checkImmutable immutable =
      if ∃ path ∈ immutable, (ofPaths recorded).differsAt path = true then
        .error (.immutableFields (immutable.filter fun path => Touches recorded path))
      else .ok ()) ∧
    (∀ fields, (Fault.immutableFields fields).message =
      "Immutable Spec fields have been modified: " ++ ",".intercalate fields) ∧
    ∀ more,
      (∀ path, (ofPaths recorded).differsAt path = true → (ofPaths (recorded ++ more)).differsAt path = true) ∧
      ∀ immutable fields, (ofPaths recorded).checkImmutable immutable = .error (.immutableFields fields) →
        ∃ fields', (ofPaths (recorded ++ more)).checkImmutable immutable = .error (.immutableFields fields') ∧
          fields.Sublist fields' := by
  refine ⟨fun path => differsAt_ofPaths, fun immutable => ?_, fun _ => rfl, fun more => ⟨fun path differs => ?_, ?_⟩⟩
  · simp only [checkImmutable_ofPaths, differsAt_ofPaths]
  · exact differsAt_ofPaths.mpr ((differsAt_ofPaths.mp differs).append more)
  · intro immutable fields failed
    rw [checkImmutable_ofPaths] at failed
    split at failed
    next touched =>
      cases failed
      obtain ⟨path, there, touches⟩ := touched
      refine ⟨_, (checkImmutable_ofPaths ..).trans (if_pos ⟨path, there, touches.append more⟩), ?_⟩
      refine List.monotone_filter_right immutable fun path touches => ?_
      simpa using (of_decide_eq_true touches).append more
    next => cases failed

/-- An empty component counts, and a text that only begins like a path does not. -/
theorem componentwise_nested :
    let recorded := ["Spec.RoleLastUsed.Region", "Spec.Tags", ".a"]
    let immutable := ["Spec.RoleLastUsed", "Spec.Tag", "", "Spec.Tags.Key", "Spec.RoleLastUsed"]
    (ofPaths recorded).checkImmutable immutable =
        .error (.immutableFields ["Spec.RoleLastUsed", "", "Spec.RoleLastUsed"]) ∧
      ∃ fields, (ofPaths (recorded ++ ["Spec.Tag"])).checkImmutable immutable = .error (.immutableFields fields) ∧
        ["Spec.RoleLastUsed", "", "Spec.RoleLastUsed"].Sublist fields := by
  intro recorded immutable
  obtain ⟨-, checked, -, grows⟩ := componentwise recorded
  have failed : (ofPaths recorded).checkImmutable immutable =
      .error (.immutableFields ["Spec.RoleLastUsed", "", "Spec.RoleLastUsed"]) := (checked immutable).trans (by decide)
  exact ⟨failed, (grows ["Spec.Tag"]).2 immutable _ failed⟩

end Delta

end IamKeeper
