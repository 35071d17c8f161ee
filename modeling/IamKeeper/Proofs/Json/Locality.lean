import IamKeeper.Proofs.Json.Front

namespace IamKeeper.Json

open Text (isBlank)

variable {α β : Type}

/-- Blanks between the parts of a document. -/
def Gap (gap : List Char) : Prop :=
  ∀ c ∈ gap, isSpace c = true

theorem exists_gap (s : List Char) : ∃ gap, Gap gap ∧ s = gap ++ skipSpace s :=
  ⟨_, fun _ => List.mem_takeWhile_imp, List.takeWhile_append_dropWhile.symm⟩

theorem Gap.skip {gap : List Char} (blank : Gap gap) (t : List Char) : skipSpace (gap ++ t) = skipSpace t :=
  List.dropWhile_append_of_pos blank

theorem skipSpace_self {s : List Char} (shown : Lacks isSpace s) : skipSpace s = s := by
  cases s with
  | nil => rfl
  | cons c s => exact List.dropWhile_cons_of_neg (by simp [shown c rfl])

theorem lacks_skipSpace (s : List Char) : Lacks isSpace (skipSpace s) :=
  lacks_dropWhile isSpace s

theorem goesOn_of_isSpace {c : Char} (space : isSpace c = true) : goesOn c = false := by
  rcases (by simpa [isSpace, or_assoc] using space : c = ' ' ∨ c = '\t' ∨ c = '\n' ∨ c = '\r') with
    rfl | rfl | rfl | rfl <;> decide

/-- No number goes on in a gap, nor behind it unless the next part is a number. -/
theorem Gap.lacks {gap t : List Char} (blank : Gap gap) (next : Lacks goesOn t) : Lacks goesOn (gap ++ t) :=
  .append (fun c first => goesOn_of_isSpace (blank c (List.mem_of_head? first))) next

/-- What the three readers take with some fuel they take with other fuel too, whatever stands behind it. -/
structure FrontedBy (fuel fuel' : Nat) : Prop where
  value (depth : Nat) (s : List Char) : Fronted (readValue fuel depth) (readValue fuel' depth) s
  items (depth : Nat) (s : List Char) : Fronted (readItems fuel depth) (readItems fuel' depth) s
  members (depth : Nat) (s : List Char) : Fronted (readMembers fuel depth) (readMembers fuel' depth) s

theorem Fronted.skip {read read' : Reader α} {s : List Char}
    (skips : ∀ s, read (skipSpace s) = read s) (skips' : ∀ s, read' (skipSpace s) = read' s)
    (fronted : Fronted read read' (skipSpace s)) : Fronted read read' s := by
  obtain ⟨gap, blank, split⟩ := exists_gap s
  have passes {read : Reader α} (skips : ∀ s, read (skipSpace s) = read s)
      (t : List Char) : read (gap ++ t) = (read t).map fun found => (id found.1, found.2) := by
    rw [← skips, blank.skip, skips]
    exact (map_id_found _).symm
  rw [split]
  exact fronted.behind gap (passes skips _) fun t _ => passes skips' t

theorem readValue_skip (fuel depth : Nat) (s : List Char) :
    readValue fuel depth (skipSpace s) = readValue fuel depth s := by
  cases fuel with
  | zero => rfl
  | succ fuel =>
    unfold readValue
    rw [skipSpace_self (lacks_skipSpace s)]

section Value

variable {fuel depth : Nat} {t : List Char}

theorem skipSpace_behind {c : Char} (shown : isSpace c = false) (s : List Char) : skipSpace (c :: s) = c :: s :=
  skipSpace_self (by rintro c ⟨⟩; exact shown)

theorem Gap.skip_self {gap : List Char} (blank : Gap gap) (shown : Lacks isSpace t) : skipSpace (gap ++ t) = t :=
  (blank.skip t).trans (skipSpace_self shown)

theorem readValue_list {gap : List Char} (blank : Gap gap) (shown : Lacks isSpace t) (filled : t.head? ≠ some ']') :
    readValue (fuel + 1) (depth + 1) ('[' :: gap ++ t) =
      (readItems fuel depth t).map fun found => (.array found.1, found.2) := by
  unfold readValue
  rw [List.cons_append, skipSpace_behind rfl]
  simp only [blank.skip_self shown]
  split
  · exact absurd rfl filled
  · rfl

theorem readValue_object {gap : List Char} (blank : Gap gap) (shown : Lacks isSpace t)
    (filled : t.head? ≠ some '\x7d') : readValue (fuel + 1) (depth + 1) ('\x7b' :: gap ++ t) =
      (readMembers fuel depth t).map fun found => (ofMembers found.1, found.2) := by
  unfold readValue
  rw [List.cons_append, skipSpace_behind rfl]
  simp only [blank.skip_self shown]
  split
  · exact absurd rfl filled
  · rfl

theorem readValue_emptyList {gap : List Char} (blank : Gap gap) (rest : List Char) :
    readValue (fuel + 1) (depth + 1) ('[' :: gap ++ ']' :: rest) = some (.array [], rest) := by
  unfold readValue
  rw [List.cons_append, skipSpace_behind rfl]
  simp only [blank.skip_self (t := ']' :: rest) (by rintro c ⟨⟩; rfl)]

theorem readValue_emptyObject {gap : List Char} (blank : Gap gap) (rest : List Char) :
    readValue (fuel + 1) (depth + 1) ('\x7b' :: gap ++ '\x7d' :: rest) = some (.object [], rest) := by
  unfold readValue
  rw [List.cons_append, skipSpace_behind rfl]
  simp only [blank.skip_self (t := '\x7d' :: rest) (by rintro c ⟨⟩; rfl)]

theorem readValue_number {c : Char} (shown : isSpace c = false)
    (other : c ∉ ['"', 'n', 't', 'f', '[', '\x7b']) : readValue (fuel + 1) depth (c :: t) = readNumber (c :: t) := by
  unfold readValue
  rw [skipSpace_behind shown]
  split <;> simp_all

end Value

variable {fuel fuel' : Nat}

/-- What stands between two marks: nothing but blanks, or what another reader takes. -/
structure Encloses (inner : Reader α) (outer : Reader β) (f : α → β) (empty : β) (first last : Char) : Prop where
  closed (gap rest : List Char) (blank : Gap gap) : outer (first :: gap ++ last :: rest) = some (empty, rest)
  filled (gap t : List Char) (blank : Gap gap) (shown : Lacks isSpace t) (filled : t.head? ≠ some last) :
    outer (first :: gap ++ t) = (inner t).map fun found => (f found.1, found.2)

theorem Fronted.enclosed {inner inner' : Reader α} {outer outer' : Reader β} {f : α → β} {empty : β}
    {first last : Char}
    (encloses : Encloses inner outer f empty first last) (encloses' : Encloses inner' outer' f empty first last)
    (shown : isBlank last = false) (fronted : ∀ t, Fronted inner inner' t) (t : List Char) :
    Fronted outer outer' (first :: t) := by
  obtain ⟨gap, blank, split⟩ := exists_gap t
  have shown := lacks_skipSpace t
  rw [split]
  generalize skipSpace t = t at shown
  -- One character tells whether anything is enclosed, and it is in the front in either case.
  by_cases closed : t.head? = some last
  · obtain ⟨rest, rfl⟩ : ∃ rest, t = last :: rest := List.head?_eq_some_iff.mp closed
    intro value rest' h
    cases (encloses.closed gap rest blank).symm.trans h
    refine ⟨first :: gap ++ [last], by simp, (solid_singleton ‹_›).behind _, fun rest _ => ?_⟩
    rw [List.append_assoc]
    exact encloses'.closed gap rest blank
  · refine (fronted t).behind (first :: gap) (encloses.filled gap t blank shown closed) fun u same => ?_
    exact encloses'.filled gap u blank (fun c first => shown c (same ▸ first)) (same ▸ closed)

theorem encloses_items (fuel depth : Nat) :
    Encloses (readItems fuel depth) (readValue (fuel + 1) (depth + 1)) .array (.array []) '[' ']' where
  closed _ rest blank := readValue_emptyList blank rest
  filled _ _ := readValue_list

theorem encloses_members (fuel depth : Nat) :
    Encloses (readMembers fuel depth) (readValue (fuel + 1) (depth + 1)) ofMembers (.object []) '\x7b' '\x7d' where
  closed _ rest blank := readValue_emptyObject blank rest
  filled _ _ := readValue_object

theorem FrontedBy.succ_value (by_fuel : FrontedBy fuel fuel') (depth : Nat) (s : List Char) :
    Fronted (readValue (fuel + 1) depth) (readValue (fuel' + 1) depth) s := by
  refine .skip (readValue_skip _ _) (readValue_skip _ _) ?_
  have shown := lacks_skipSpace s
  generalize skipSpace s = s at shown
  cases s with
  | nil => exact fronted_nothing rfl
  | cons c t =>
    have begins {u : List Char} (same : u.head? = (c :: t).head?) : ∃ v, u = c :: v := List.head?_eq_some_iff.mp same
    by_cases other : c ∈ ['"', 'n', 't', 'f', '[', '\x7b']
    · simp only [List.mem_cons, List.not_mem_nil, or_false] at other
      rcases other with rfl | rfl | rfl | rfl | rfl | rfl
      · exact (readString_fronted t).behind (f := fun s => .string (String.ofList s)) ['"'] rfl fun _ _ => rfl
      · exact (fronted_word ⟨'l', rfl, rfl⟩ .null _).of_head rfl fun u same => by
          obtain ⟨v, rfl⟩ := begins same
          rfl
      · exact (fronted_word ⟨'e', rfl, rfl⟩ (.bool true) _).of_head rfl fun u same => by
          obtain ⟨v, rfl⟩ := begins same
          rfl
      · exact (fronted_word ⟨'e', rfl, rfl⟩ (.bool false) _).of_head rfl fun u same => by
          obtain ⟨v, rfl⟩ := begins same
          rfl
      · cases depth with
        | zero => exact fronted_nothing rfl
        | succ depth =>
          exact .enclosed (encloses_items fuel depth) (encloses_items fuel' depth) rfl (by_fuel.items depth) t
      · cases depth with
        | zero => exact fronted_nothing rfl
        | succ depth =>
          exact .enclosed (encloses_members fuel depth) (encloses_members fuel' depth) rfl (by_fuel.members depth) t
    · refine (readNumber_fronted (c :: t)).of_head (readValue_number (shown c rfl) other) fun u same => ?_
      obtain ⟨v, rfl⟩ := begins same
      exact readValue_number (shown c rfl) other

/-- Reads one part or more with a comma between two, up to and with the mark behind the last. -/
def readSeries (one : Reader α) (more : Reader (List α)) (last : Char) (s : List Char) :
    Option (List α × List Char) :=
  match one s with
  | none => none
  | some (part, rest) =>
    match skipSpace rest with
    | [] => none
    | c :: rest =>
      if c = ',' then (more rest).map fun found => (part :: found.1, found.2)
      else if c = last then some ([part], rest)
      else none

/-- The readers say by two patterns which mark ends a part; this is the same by two tests. -/
theorem readItems_succ (fuel depth : Nat) (s : List Char) :
    readItems (fuel + 1) depth s = readSeries (readValue fuel depth) (readItems fuel depth) ']' s := by
  unfold readItems readSeries
  cases readValue fuel depth s with
  | none => rfl
  | some found =>
    dsimp only
    cases skipSpace found.2 with
    | nil => rfl
    | cons c rest =>
      dsimp only
      split <;> simp_all

/-- Passes over a mark and the blanks in front of it. -/
def readMark (mark : Char) (s : List Char) : Option (List Char) :=
  match skipSpace s with
  | [] => none
  | c :: rest => if c = mark then some rest else none

theorem Gap.readMark {gap : List Char} (blank : Gap gap) (mark : Char) (shown : isSpace mark = false)
    (rest : List Char) : readMark mark (gap ++ mark :: rest) = some rest := by
  have skip : skipSpace (gap ++ mark :: rest) = mark :: rest := blank.skip_self (by rintro c ⟨⟩; exact shown)
  simp [Json.readMark, skip]

theorem readMark_some {mark : Char} {s rest : List Char} (h : readMark mark s = some rest) :
    ∃ gap, Gap gap ∧ s = gap ++ mark :: rest := by
  obtain ⟨gap, blank, split⟩ := exists_gap s
  refine ⟨gap, blank, split.trans ?_⟩
  unfold readMark at h
  split at h
  · cases h
  next c rest' front =>
    rw [front]
    split at h
    next same => rw [same, Option.some.inj h]
    · cases h

/-- Reads a name and the value behind it. -/
def readMember (fuel depth : Nat) (s : List Char) : Option ((String × Json) × List Char) := do
  let rest ← readMark '"' s
  let (name, rest) ← readString rest
  let rest ← readMark ':' rest
  let (value, rest) ← readValue fuel depth rest
  return ((String.ofList name, value), rest)

theorem readMembers_succ (fuel depth : Nat) (s : List Char) :
    readMembers (fuel + 1) depth s = readSeries (readMember fuel depth) (readMembers fuel depth) '\x7d' s := by
  unfold readMembers readSeries readMember readMark
  cases skipSpace s with
  | nil => rfl
  | cons c t =>
    by_cases quote : c = '"'
    · subst quote
      simp only [if_true, Option.bind_eq_bind, Option.bind_some]
      cases readString t with
      | none => rfl
      | some found =>
        simp only [Option.bind_some]
        cases skipSpace found.2 with
        | nil => rfl
        | cons c t =>
          by_cases colon : c = ':'
          · subst colon
            simp only [if_true, Option.bind_some]
            cases readValue fuel depth t with
            | none => rfl
            | some value =>
              simp only [Option.bind_some, Option.pure_def]
              cases skipSpace value.2 with
              | nil => rfl
              | cons c rest =>
                dsimp only
                split <;> simp_all
          · simp [colon]
    · simp [quote]

section Series

variable {one one' : Reader α} {more more' : Reader (List α)}
  {last : Char} {s gap u : List Char} {part : α}

theorem readSeries_more (first : one s = some (part, gap ++ ',' :: u)) (blank : Gap gap) :
    readSeries one more last s = (more u).map fun found => (part :: found.1, found.2) := by
  have skip : skipSpace (gap ++ ',' :: u) = ',' :: u := blank.skip_self (by rintro c ⟨⟩; rfl)
  simp [readSeries, first, skip]

theorem readSeries_last (first : one s = some (part, gap ++ last :: u)) (blank : Gap gap)
    (shown : isSpace last = false) (other : last ≠ ',') : readSeries one more last s = some ([part], u) := by
  have skip : skipSpace (gap ++ last :: u) = last :: u := blank.skip_self (by rintro c ⟨⟩; exact shown)
  simp [readSeries, first, skip, other]

/-- A part, a gap and a mark, and then more or the end. -/
theorem readSeries_some {parts : List α} {rest : List Char} (h : readSeries one more last s = some (parts, rest)) :
    ∃ part gap, Gap gap ∧ ((∃ u others, one s = some (part, gap ++ ',' :: u) ∧ more u = some (others, rest) ∧
        parts = part :: others) ∨
      one s = some (part, gap ++ last :: rest) ∧ last ≠ ',' ∧ parts = [part]) := by
  unfold readSeries at h
  split at h
  · cases h
  next part t hpart =>
    obtain ⟨gap, blank, split⟩ := exists_gap t
    refine ⟨part, gap, blank, ?_⟩
    split at h
    · cases h
    next c u front =>
      rw [front] at split
      subst split
      split at h
      next comma =>
        subst comma
        obtain ⟨⟨others, _⟩, hmore, same⟩ := Option.map_eq_some_iff.mp h
        cases same
        exact .inl ⟨u, others, hpart, hmore, rfl⟩
      next other =>
        split at h
        next closed =>
          subst closed
          cases h
          exact .inr ⟨hpart, other, rfl⟩
        · cases h

theorem Fronted.series (shown : isBlank last = false) (stops : goesOn last = false) (spaced : isSpace last = false)
    (first : ∀ s, Fronted one one' s) (others : ∀ s, Fronted more more' s) (s : List Char) :
    Fronted (readSeries one more last) (readSeries one' more' last) s := by
  intro parts rest h
  obtain ⟨part, gap, blank, ⟨u, found, hpart, hmore, rfl⟩ | ⟨hpart, other, rfl⟩⟩ := readSeries_some h
  · obtain ⟨front, rfl, -, reads⟩ := first s _ _ hpart
    obtain ⟨front', rfl, solid, reads'⟩ := others u _ _ hmore
    refine ⟨front ++ gap ++ ',' :: front', by simp, (solid.behind [',']).behind _, fun rest follows => ?_⟩
    have ends : Lacks goesOn (gap ++ ',' :: (front' ++ rest)) := blank.lacks (by rintro c ⟨⟩; rfl)
    have text : front ++ gap ++ ',' :: front' ++ rest = front ++ (gap ++ ',' :: (front' ++ rest)) := by simp
    rw [text, readSeries_more (reads _ ends) blank, reads' rest follows]
    rfl
  · obtain ⟨front, rfl, -, reads⟩ := first s _ _ hpart
    refine ⟨front ++ gap ++ [last], by simp, (solid_singleton shown).behind _, fun rest _ => ?_⟩
    have ends : Lacks goesOn (gap ++ last :: rest) := blank.lacks (by rintro c ⟨⟩; exact stops)
    have text : front ++ gap ++ [last] ++ rest = front ++ (gap ++ last :: rest) := by simp
    rw [text, readSeries_last (reads _ ends) blank spaced other]

end Series

theorem readMember_fronted {fuel fuel' depth : Nat}
    (value : ∀ s, Fronted (readValue fuel depth) (readValue fuel' depth) s) (s : List Char) :
    Fronted (readMember fuel depth) (readMember fuel' depth) s := by
  intro member rest h
  obtain ⟨t, hquote, h⟩ := Option.bind_eq_some_iff.mp h
  obtain ⟨⟨name, u⟩, hname, h⟩ := Option.bind_eq_some_iff.mp h
  obtain ⟨v, hcolon, h⟩ := Option.bind_eq_some_iff.mp h
  obtain ⟨⟨found, rest⟩, hvalue, h⟩ := Option.bind_eq_some_iff.mp h
  cases h
  obtain ⟨gap, blank, rfl⟩ := readMark_some hquote
  obtain ⟨front, rfl, -, reads⟩ := readString_fronted t _ _ hname
  obtain ⟨gap', blank', rfl⟩ := readMark_some hcolon
  obtain ⟨front', rfl, solid, reads'⟩ := value v _ _ hvalue
  refine ⟨gap ++ '"' :: front ++ gap' ++ ':' :: front', by simp, (solid.behind [':']).behind _,
    fun rest follows => ?_⟩
  have ends : Lacks goesOn (gap' ++ ':' :: (front' ++ rest)) := blank'.lacks (by rintro c ⟨⟩; rfl)
  have text : gap ++ '"' :: front ++ gap' ++ ':' :: front' ++ rest =
      gap ++ '"' :: (front ++ (gap' ++ ':' :: (front' ++ rest))) := by simp
  rw [text]
  simp [readMember, blank.readMark '"' rfl, reads _ ends, blank'.readMark ':' rfl, reads' _ follows]

/-- By induction on the fuel: every reader calls the others with less. -/
theorem frontedBy (fuel fuel' : Nat) (enough : fuel ≤ fuel') : FrontedBy fuel fuel' := by
  induction fuel generalizing fuel' with
  | zero =>
    exact ⟨fun _ _ => fronted_nothing rfl, fun _ _ => fronted_nothing rfl, fun _ _ => fronted_nothing rfl⟩
  | succ fuel ih =>
    obtain ⟨fuel', rfl⟩ := Nat.exists_eq_succ_of_ne_zero (by omega : fuel' ≠ 0)
    have less := ih fuel' (by omega)
    refine ⟨less.succ_value, fun depth s => ?_, fun depth s => ?_⟩
    · simp only [funext (readItems_succ _ depth)]
      exact .series rfl rfl rfl (less.value depth) (less.items depth) s
    · simp only [funext (readMembers_succ _ depth)]
      exact .series rfl rfl rfl (readMember_fronted (less.value depth)) (less.members depth) s

theorem isBlank_of_isSpace {c : Char} (space : isSpace c = true) : isBlank c = true := by
  rcases (by simpa [isSpace, or_assoc] using space : c = ' ' ∨ c = '\t' ∨ c = '\n' ∨ c = '\r') with
    rfl | rfl | rfl | rfl <;> decide

theorem readNumber_shown {c : Char} {s : List Char} (blank : isBlank c = true) : readNumber (c :: s) = none := by
  have sign : c ≠ '-' := by
    rintro rfl
    cases blank
  have digit : ¬ c.isDigit = true := fun digit => absurd blank (by simp [Text.not_isBlank_of_isDigit digit])
  have plain : readNumberText (c :: s) = readUnsigned false (c :: s) := readNumberText_plain (by simpa using sign)
  have none : takeDigits (c :: s) = ([], c :: s) := by simp [takeDigits, digit]
  simp [readNumber, plain, readUnsigned, none]

/-- Only the blanks between the parts of a document may stand in front of one. -/
theorem readValue_shown {fuel depth : Nat} {s rest : List Char} {value : Json}
    (h : readValue fuel depth s = some (value, rest)) : Lacks isBlank (skipSpace s) := by
  rw [← readValue_skip] at h
  have shown := lacks_skipSpace s
  generalize skipSpace s = s at h shown
  rintro c first
  obtain ⟨t, rfl⟩ : ∃ t, s = c :: t := List.head?_eq_some_iff.mp first
  by_contra blank
  have blank : isBlank c = true := by simpa using blank
  cases fuel with
  | zero => cases h
  | succ fuel =>
    have other : c ∉ ['"', 'n', 't', 'f', '[', '\x7b'] := fun mem => by
      simp only [List.mem_cons, List.not_mem_nil, or_false] at mem
      rcases mem with rfl | rfl | rfl | rfl | rfl | rfl <;> cases blank
    rw [readValue_number (shown c rfl) other, readNumber_shown blank] at h
    cases h

theorem dropTrailing_front {front rest : List Char} (solid : Solid front) (blank : ∀ c ∈ rest, isBlank c = true) :
    Text.dropTrailing isBlank (front ++ rest) = front := by
  obtain ⟨c, last, shown⟩ := solid
  obtain ⟨init, rfl⟩ := List.getLast?_eq_some_iff.mp last
  simp only [Text.dropTrailing, List.reverse_append]
  rw [List.dropWhile_append_of_pos (by simpa using blank)]
  simp [shown]

/-- A document and nothing but blanks behind it. -/
theorem gap_of_read? {text : String} {value : Json} (h : read? text = some value) : ∃ rest, Gap rest ∧
    readValue (2 * text.toList.length + 2) greatestDepth text.toList = some (value, rest) := by
  simp only [read?] at h
  split at h
  next found rest hread =>
    split at h
    next ended =>
      cases h
      obtain ⟨gap, blank, split⟩ := exists_gap rest
      rw [List.isEmpty_iff.mp ended, List.append_nil] at split
      exact ⟨rest, split ▸ blank, hread⟩
    · cases h
  · cases h

theorem trimStart_gap {gap t : List Char} (blank : Gap gap) (shown : Lacks isBlank t) :
    Text.trimStart (gap ++ t) = t := by
  unfold Text.trimStart
  rw [List.dropWhile_append_of_pos fun c mem => isBlank_of_isSpace (blank c mem)]
  cases t with
  | nil => rfl
  | cons c t => exact Text.trimStart_cons (shown c rfl)

/-- A text is a document by what stands between the blanks at its ends, even though more characters are blanks there
than between the parts of a document. -/
theorem readValue_trim {text : String} {value : Json} {fuel : Nat} (h : read? text = some value)
    (enough : 2 * text.toList.length + 2 ≤ fuel) :
    readValue fuel greatestDepth (Text.trim text).toList = some (value, []) := by
  obtain ⟨rest, behind, hread⟩ := gap_of_read? h
  obtain ⟨gap, before, split⟩ := exists_gap text.toList
  have start : Text.trimStart text.toList = skipSpace text.toList := by
    conv_lhs => rw [split]
    exact trimStart_gap before (readValue_shown hread)
  rw [← readValue_skip] at hread
  obtain ⟨front, core, solid, reads⟩ := (frontedBy _ fuel enough).value _ _ _ _ hread
  have trimmed : (Text.trim text).toList = front := by
    rw [Text.trim, String.toList_ofList, start, core,
      dropTrailing_front solid fun c mem => isBlank_of_isSpace (behind c mem)]
  have whole := reads [] nofun
  rwa [List.append_nil, ← trimmed] at whole

/-- Texts that are documents are the same document when they differ only by blanks at their ends. -/
theorem read?_eq_of_trim {s t : String} {v w : Json} (hs : read? s = some v) (ht : read? t = some w)
    (same : Text.trim s = Text.trim t) : v = w := by
  have hv := readValue_trim hs (le_max_left _ (2 * t.toList.length + 2))
  have hw := readValue_trim ht (le_max_right (2 * s.toList.length + 2) _)
  rw [same] at hv
  cases hv.symm.trans hw
  rfl

end IamKeeper.Json
