import IamKeeper.Json.Reader
import IamKeeper.Proofs.Document.Quotation
import IamKeeper.Proofs.Instant
import Mathlib.Data.List.TakeWhile

namespace IamKeeper.Json

open Text (isBlank)

variable {α β : Type}

/-- Takes a value from the front of a text, and gives what stands behind it. -/
abbrev Reader (α : Type) : Type :=
  List Char → Option (α × List Char)

/-- A text that is not empty and does not end with a blank. -/
def Solid (s : List Char) : Prop :=
  ∃ c ∈ s.getLast?, isBlank c = false

theorem Solid.behind {s : List Char} (solid : Solid s) (front : List Char) : Solid (front ++ s) := by
  obtain ⟨c, last, shown⟩ := solid
  refine ⟨c, ?_, shown⟩
  rw [List.getLast?_append, Option.mem_def.mp last]
  rfl

theorem Solid.append {s t : List Char} (solid : Solid s) (part : t = [] ∨ Solid t) : Solid (s ++ t) := by
  rcases part with rfl | part
  · rwa [List.append_nil]
  · exact part.behind s

theorem Solid.head?_append {front : List Char} (solid : Solid front) (rest : List Char) :
    (front ++ rest).head? = front.head? := by
  obtain ⟨c, last, -⟩ := solid
  cases front with
  | nil => cases last
  | cons => rfl

theorem solid_singleton {c : Char} (shown : isBlank c = false) : Solid [c] :=
  ⟨c, rfl, shown⟩

/-- The text does not begin with a character of a class. -/
def Lacks (p : Char → Bool) (s : List Char) : Prop :=
  ∀ c ∈ s.head?, p c = false

theorem lacks_or {p q : Char → Bool} {s : List Char} :
    Lacks (fun c => p c || q c) s ↔ Lacks p s ∧ Lacks q s := by
  simp only [Lacks, Bool.or_eq_false_iff]
  exact ⟨fun h => ⟨fun c hc => (h c hc).1, fun c hc => (h c hc).2⟩, fun h c hc => ⟨h.1 c hc, h.2 c hc⟩⟩

theorem Lacks.append {p : Char → Bool} {front rest : List Char} (first : ∀ c ∈ front.head?, p c = false)
    (lacks : Lacks p rest) : Lacks p (front ++ rest) := by
  cases front with
  | nil => exact lacks
  | cons c front => exact first

def isPoint (c : Char) : Bool := c = '.'

def isMark (c : Char) : Bool := c = 'e' || c = 'E'

/-- The characters by which a number may go on. -/
def goesOn (c : Char) : Bool := c.isDigit || isPoint c || isMark c

/-- A front of texts that `read` takes for a value, unless a number goes on behind it. -/
structure Front (read : Reader α) (front : List Char) (value : α) : Prop where
  solid : Solid front
  read : ∀ rest, Lacks goesOn rest → read (front ++ rest) = some (value, rest)

/-- What `read` takes from a text is a front for `read'`. -/
def Fronted (read read' : Reader α) (s : List Char) : Prop :=
  ∀ value rest, read s = some (value, rest) → ∃ front, s = front ++ rest ∧ Front read' front value

/-- A reader that passes over some characters and goes on as another one. -/
theorem Fronted.behind {read read' : Reader α} {outer outer' : Reader β} {f : α → β} {s : List Char}
    (before : List Char) (fronted : Fronted read read' s)
    (leads : outer (before ++ s) = (read s).map fun found => (f found.1, found.2))
    (leads' : ∀ t, t.head? = s.head? → outer' (before ++ t) = (read' t).map fun found => (f found.1, found.2)) :
    Fronted outer outer' (before ++ s) := by
  intro value rest h
  rw [leads] at h
  obtain ⟨⟨found, _⟩, hread, same⟩ := Option.map_eq_some_iff.mp h
  cases same
  obtain ⟨front, split, solid, reads⟩ := fronted _ _ hread
  refine ⟨before ++ front, ?_, solid.behind before, fun rest' follows => ?_⟩
  · rw [split, List.append_assoc]
  · have first : (front ++ rest').head? = s.head? := by
      rw [split, solid.head?_append, solid.head?_append]
    rw [List.append_assoc, leads' _ first, reads rest' follows, Option.map_some]

theorem map_id_found (found : Option (α × List Char)) : (found.map fun found => (id found.1, found.2)) = found :=
  congrFun Option.map_id found

theorem Fronted.of_head {read read' inner inner' : Reader α} {s : List Char}
    (fronted : Fronted inner inner' s) (same : read s = inner s)
    (same' : ∀ t, t.head? = s.head? → read' t = inner' t) : Fronted read read' s :=
  fronted.behind (f := id) [] (same.trans (map_id_found _).symm) fun t first =>
    (same' t first).trans (map_id_found _).symm

theorem fronted_nothing {read read' : Reader α} {s : List Char} (h : read s = none) :
    Fronted read read' s := by
  intro value rest found
  rw [h] at found
  cases found

theorem readString_unit {a b c d : Char} {unit : Nat} (hex : hexUnit? a b c d = some unit)
    (high : ¬ isHighSurrogate unit = true) (low : ¬ isLowSurrogate unit = true) (rest : List Char) :
    readString (['\\', 'u', a, b, c, d] ++ rest) =
      (readString rest).map fun found => (Char.ofNat unit :: found.1, found.2) := by
  simp [readString, hex, high, low]

theorem readString_pair {a b c d e f g h : Char} {unit low : Nat} (hex : hexUnit? a b c d = some unit)
    (high : isHighSurrogate unit = true) (hex' : hexUnit? e f g h = some low) (pair : isLowSurrogate low = true)
    (rest : List Char) : readString (['\\', 'u', a, b, c, d, '\\', 'u', e, f, g, h] ++ rest) =
      (readString rest).map fun found => (pairedChar unit low :: found.1, found.2) := by
  simp [readString, hex, high, hex', pair]

theorem readString_short {c shown : Char} (escape : escapeOf? c = some shown) (rest : List Char) :
    readString (['\\', c] ++ rest) = (readString rest).map fun found => (shown :: found.1, found.2) := by
  have short : c ≠ 'u' := by
    rintro rfl
    cases escape
  simp [readString, escape, short]

theorem readString_fronted (s : List Char) : Fronted readString readString s := by
  fun_induction readString s with
  | case2 rest =>
    rintro value rest' h
    cases h
    exact ⟨['"'], rfl, solid_singleton (by decide), fun _ _ => rfl⟩
  | case5 a b c d unit hex high e f g h rest low hex' pair ih =>
    exact ih.behind ['\\', 'u', a, b, c, d, '\\', 'u', e, f, g, h] (readString_pair hex high hex' pair _)
      fun t _ => readString_pair hex high hex' pair t
  | case9 a b c d rest unit hex high low ih =>
    exact ih.behind ['\\', 'u', a, b, c, d] (readString_unit hex high low _) fun t _ => readString_unit hex high low t
  | case11 c rest _ shown escape ih =>
    exact ih.behind ['\\', c] (readString_short escape _) fun t _ => readString_short escape t
  | case13 c rest mark _ _ shown ih =>
    obtain ⟨shown, backslash⟩ := not_or.mp shown
    exact ih.behind [c] (readString_plain mark backslash shown _) fun t _ => readString_plain mark backslash shown t
  | _ => exact fronted_nothing (by simp_all [readString])

theorem fronted_word {word : List Char} (solid : Solid word) (value : Json) (s : List Char) :
    Fronted (readWord word value) (readWord word value) s := by
  have reads (rest : List Char) : readWord word value (word ++ rest) = some (value, rest) := by
    unfold readWord
    rw [if_pos (List.isPrefixOf_iff_prefix.mpr (List.prefix_append ..)), List.drop_left]
  intro found rest h
  by_cases starts : word <+: s
  · obtain ⟨behind, rfl⟩ := starts
    cases (reads behind).symm.trans h
    exact ⟨word, rfl, solid, fun rest _ => reads rest⟩
  · unfold readWord at h
    rw [if_neg (by rwa [List.isPrefixOf_iff_prefix])] at h
    cases h

theorem lacks_dropWhile (p : Char → Bool) (s : List Char) : Lacks p (s.dropWhile p) := by
  intro c first
  have h := List.head?_dropWhile_not p s
  rw [Option.mem_def.mp first] at h
  exact h

/-- Digits are taken as far as they go, and alike whatever follows them. -/
theorem takeDigits_front {s rest : List Char} {values : List Nat} (h : takeDigits s = (values, rest)) :
    ∃ digits, s = digits ++ rest ∧ (values ≠ [] → Solid digits) ∧
      ∀ rest, Lacks Char.isDigit rest → takeDigits (digits ++ rest) = (values, rest) := by
  cases h
  have all (c) (hc : c ∈ s.takeWhile Char.isDigit) : c.isDigit = true := List.mem_takeWhile_imp hc
  refine ⟨_, List.takeWhile_append_dropWhile.symm, fun some => ?_, fun rest lacks => ?_⟩
  · cases last : (s.takeWhile Char.isDigit).getLast? with
    | none => exact absurd (congrArg (List.map _) (List.getLast?_eq_none_iff.mp last)) some
    | some c => exact ⟨c, last, Text.not_isBlank_of_isDigit (all c (List.mem_of_getLast? last))⟩
  · have none : rest.takeWhile Char.isDigit = [] ∧ rest.dropWhile Char.isDigit = rest := by
      cases rest with
      | nil => exact ⟨rfl, rfl⟩
      | cons c rest => simp [lacks c rfl]
    unfold takeDigits
    rw [List.takeWhile_append_of_pos all, List.dropWhile_append_of_pos all, none.1, none.2, List.append_nil]

/-- A part of a number that may be left out. It begins with a character of one class, and does not end before one of
the other. -/
structure Part (begins ends : Char → Bool) (read : Reader α) (front : List Char) (value : α) : Prop where
  solid : front = [] ∨ Solid front
  begins : ∀ c ∈ front.head?, begins c = true
  read : ∀ rest, Lacks ends rest → read (front ++ rest) = some (value, rest)

theorem readFraction_part {s rest : List Char} {fraction : Option (List Nat)}
    (h : readFraction s = some (fraction, rest)) :
    ∃ front, s = front ++ rest ∧
      Part isPoint (fun c => c.isDigit || isPoint c) readFraction front fraction := by
  unfold readFraction at h
  split at h
  next t =>
    split at h
    · cases h
    next values t' some read =>
      cases h
      obtain ⟨digits, rfl, solid, reads⟩ := takeDigits_front read
      refine ⟨'.' :: digits, rfl, .inr ((solid some).behind ['.']), fun c first => ?_, fun rest lacks => ?_⟩
      · cases first
        rfl
      · have taken := reads rest (lacks_or.mp lacks).1
        simp [readFraction, taken]
  next none =>
    cases h
    refine ⟨[], rfl, .inl rfl, nofun, fun rest lacks => ?_⟩
    cases rest with
    | nil => rfl
    | cons c rest =>
      have point : c ≠ '.' := by simpa [isPoint] using (lacks_or.mp lacks).2 c rfl
      simp [readFraction, point]

theorem readExponentDigits_part {negative : Bool} {s rest : List Char} {exponent : Option (Bool × List Nat)}
    (h : readExponentDigits negative s = some (exponent, rest)) :
    ∃ digits, s = digits ++ rest ∧ Solid digits ∧
      ∀ rest, Lacks Char.isDigit rest → readExponentDigits negative (digits ++ rest) = some (exponent, rest) := by
  unfold readExponentDigits at h
  split at h
  · cases h
  next values t' some read =>
    cases h
    obtain ⟨digits, rfl, solid, reads⟩ := takeDigits_front read
    refine ⟨digits, rfl, solid some, fun rest lacks => ?_⟩
    simp [readExponentDigits, reads rest lacks]

/-- An exponent is its digits behind a mark and perhaps a sign. -/
theorem readExponent_eq {mark : Char} (marks : isMark mark = true) (s : List Char) :
    ∃ negative sign t, s = sign ++ t ∧
      ∀ t', t'.head? = t.head? → readExponent (mark :: sign ++ t') = readExponentDigits negative t' := by
  have marks : mark = 'e' ∨ mark = 'E' := by simpa [isMark] using marks
  by_cases plus : ∃ t, s = '+' :: t
  · obtain ⟨t, rfl⟩ := plus
    exact ⟨false, ['+'], t, rfl, fun t' _ => by simp [readExponent, marks]⟩
  by_cases minus : ∃ t, s = '-' :: t
  · obtain ⟨t, rfl⟩ := minus
    exact ⟨true, ['-'], t, rfl, fun t' _ => by simp [readExponent, marks]⟩
  refine ⟨false, [], s, rfl, fun t' same => ?_⟩
  have unsigned (c : Char) (t : List Char) (h : t' = c :: t) : c ≠ '+' ∧ c ≠ '-' := by
    subst h
    cases s with
    | nil => cases same
    | cons d s =>
      cases same
      exact ⟨fun h => plus ⟨s, by rw [h]⟩, fun h => minus ⟨s, by rw [h]⟩⟩
  simp only [List.cons_append, List.nil_append, readExponent, if_pos marks]
  split
  · exact absurd rfl (unsigned _ _ rfl).1
  · exact absurd rfl (unsigned _ _ rfl).2
  · rfl

theorem readExponent_none {s : List Char} (lacks : Lacks isMark s) : readExponent s = some (none, s) := by
  cases s with
  | nil => rfl
  | cons c s =>
    have none : ¬ (c = 'e' ∨ c = 'E') := by simpa [isMark] using lacks c rfl
    exact if_neg none

theorem readExponent_part {s rest : List Char} {exponent : Option (Bool × List Nat)}
    (h : readExponent s = some (exponent, rest)) :
    ∃ front, s = front ++ rest ∧
      Part isMark (fun c => c.isDigit || isMark c) readExponent front exponent := by
  by_cases lacks : Lacks isMark s
  · cases (readExponent_none lacks).symm.trans h
    exact ⟨[], rfl, .inl rfl, nofun, fun rest lacks => readExponent_none (lacks_or.mp lacks).2⟩
  · obtain ⟨mark, t, rfl, marks⟩ : ∃ mark t, s = mark :: t ∧ isMark mark = true := by
      cases s with
      | nil => exact absurd nofun lacks
      | cons mark t =>
        refine ⟨mark, t, rfl, Bool.not_eq_false _ ▸ fun none => lacks ?_⟩
        rintro c ⟨⟩
        exact none
    obtain ⟨negative, sign, t, rfl, eq⟩ := readExponent_eq marks t
    rw [← List.cons_append, eq t rfl] at h
    obtain ⟨digits, rfl, solid, reads⟩ := readExponentDigits_part h
    refine ⟨mark :: sign ++ digits, by simp, .inr (solid.behind _), ?_, fun rest lacks => ?_⟩
    · rintro c ⟨⟩
      exact marks
    · rw [List.append_assoc, eq]
      · exact reads rest (lacks_or.mp lacks).1
      · rw [solid.head?_append, solid.head?_append]

/-- Reads a number behind its sign. -/
def readUnsigned (negative : Bool) (s : List Char) : Option (NumberText × List Char) :=
  match takeDigits s with
  | ([], _) => none
  | (0 :: _ :: _, _) => none
  | (whole, rest) => do
    let (fraction, rest) ← readFraction rest
    let (exponent, rest) ← readExponent rest
    return (⟨negative, whole, fraction, exponent⟩, rest)

theorem readNumberText_minus (s : List Char) : readNumberText ('-' :: s) = readUnsigned true s := rfl

theorem readNumberText_plain {s : List Char} (plain : s.head? ≠ some '-') :
    readNumberText s = readUnsigned false s := by
  unfold readNumberText readUnsigned
  split
  next sign =>
    split at sign
    · exact absurd rfl plain
    · cases sign
      rfl

theorem readUnsigned_fronted (negative : Bool) (s : List Char) :
    Fronted (readUnsigned negative) (readUnsigned negative) s := by
  intro text rest h
  unfold readUnsigned at h
  split at h
  · cases h
  · cases h
  next whole t none zero taken =>
    obtain ⟨⟨fraction, u⟩, hfraction, h⟩ := Option.bind_eq_some_iff.mp h
    obtain ⟨⟨exponent, v⟩, hexponent, h⟩ := Option.bind_eq_some_iff.mp h
    cases h
    obtain ⟨digits, rfl, solid, digits_read⟩ := takeDigits_front taken
    obtain ⟨part, rfl, partly⟩ := readFraction_part hfraction
    obtain ⟨last, rfl, lastly⟩ := readExponent_part hexponent
    refine ⟨digits ++ part ++ last, by simp, ((solid none).append partly.solid).append lastly.solid,
      fun rest follows => ?_⟩
    -- Either part may be empty, so what follows the digits may be the fraction, the exponent or the rest.
    obtain ⟨lacks, noMark⟩ := lacks_or.mp follows
    obtain ⟨noDigit, noPoint⟩ := lacks_or.mp lacks
    have marked (c) (h : isMark c = true) : c.isDigit = false ∧ isPoint c = false := by
      rcases (by simpa [isMark] using h : c = 'e' ∨ c = 'E') with rfl | rfl <;> decide
    have pointed (c) (h : isPoint c = true) : c.isDigit = false := by
      cases (by simpa [isPoint] using h : c = '.')
      rfl
    have noDigit' : Lacks Char.isDigit (last ++ rest) :=
      .append (fun c first => (marked c (lastly.begins c first)).1) noDigit
    have noPoint' : Lacks isPoint (last ++ rest) :=
      .append (fun c first => (marked c (lastly.begins c first)).2) noPoint
    have hlast := lastly.read rest (lacks_or.mpr ⟨noDigit, noMark⟩)
    have hpart := partly.read (last ++ rest) (lacks_or.mpr ⟨noDigit', noPoint'⟩)
    have hdigits := digits_read (part ++ (last ++ rest))
      (.append (fun c first => pointed c (partly.begins c first)) noDigit')
    rw [List.append_assoc, List.append_assoc]
    unfold readUnsigned
    rw [hdigits]
    split
    next h => exact absurd (congrArg Prod.fst h) none
    next h => exact absurd (congrArg Prod.fst h) (zero _ _)
    next h =>
      cases h
      simp [hpart, hlast]

theorem readNumberText_fronted (s : List Char) : Fronted readNumberText readNumberText s := by
  by_cases minus : s.head? = some '-'
  · obtain ⟨t, rfl⟩ : ∃ t, s = '-' :: t := List.head?_eq_some_iff.mp minus
    have leads (t : List Char) : readNumberText (['-'] ++ t) =
        (readUnsigned true t).map fun found => (id found.1, found.2) :=
      (readNumberText_minus t).trans (map_id_found _).symm
    exact (readUnsigned_fronted true t).behind ['-'] (leads t) fun t _ => leads t
  · exact (readUnsigned_fronted false s).of_head (readNumberText_plain minus) fun t same =>
      readNumberText_plain (same ▸ minus)

theorem readNumber_fronted (s : List Char) : Fronted readNumber readNumber s := by
  intro value rest h
  obtain ⟨⟨text, t⟩, htext, h⟩ := Option.bind_eq_some_iff.mp h
  obtain ⟨number, hnumber, h⟩ := Option.bind_eq_some_iff.mp h
  cases h
  obtain ⟨front, split, solid, reads⟩ := readNumberText_fronted s _ _ htext
  refine ⟨front, split, solid, fun rest follows => ?_⟩
  simp [readNumber, reads rest follows, hnumber]

end IamKeeper.Json
