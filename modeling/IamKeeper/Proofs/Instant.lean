import IamKeeper.Time.Instant
import Mathlib.Algebra.Group.Nat.Defs

namespace IamKeeper

open Text (trimStart isBlank ofDigits)

namespace Text

theorem ofDigits_eq (digits : List Char) : ofDigits digits = Nat.ofDigitChars 10 digits 0 := by
  unfold ofDigits Nat.ofDigitChars
  simp only [Nat.mul_comm 10]

theorem not_isBlank_of_isDigit {c : Char} (digit : c.isDigit = true) : isBlank c = false := by
  simp only [Char.isDigit, Bool.and_eq_true, decide_eq_true_eq] at digit
  have low : 48 ≤ c.toNat := UInt32.le_iff_toNat_le.mp digit.1
  have high : c.toNat ≤ 57 := UInt32.le_iff_toNat_le.mp digit.2
  simp only [isBlank, Bool.or_eq_false_iff, Bool.and_eq_false_iff, decide_eq_false_iff_not, beq_eq_false_iff_ne]
  omega

theorem trimStart_cons {c : Char} {s : List Char} (visible : isBlank c = false) : trimStart (c :: s) = c :: s :=
  List.dropWhile_cons_of_neg (by simp [visible])

end Text

namespace Time.Instant

section Digits

variable {width n : Nat} {rest : List Char}

theorem isDigit_of_mem_padded {c : Char} (h : c ∈ padded width n) : c.isDigit = true := by
  rcases List.mem_append.mp h with h | h
  · rw [List.eq_of_mem_replicate h]
    rfl
  · exact Nat.isDigit_of_mem_toDigits (by decide) (by decide) h

theorem length_padded (positive : 0 < width) (fits : n < 10 ^ width) : (padded width n).length = width := by
  have short := (Nat.length_toDigits_le_iff (b := 10) (by decide) positive).mpr fits
  simp only [padded, List.length_append, List.length_replicate]
  omega

theorem padded_eq_cons (width n : Nat) : ∃ c s, padded width n = c :: s ∧ c.isDigit = true := by
  cases h : padded width n with
  | nil => simp [padded] at h
  | cons c s => exact ⟨c, s, rfl, isDigit_of_mem_padded (h ▸ List.mem_cons_self ..)⟩

theorem ofDigits_padded (width n : Nat) : ofDigits (padded width n) = n := by
  rw [Text.ofDigits_eq, padded, Nat.ofDigitChars_append, Nat.ofDigitChars_replicate_zero, Nat.mul_zero,
    Nat.ofDigitChars_ten_toDigits]

theorem takeWhile_padded (stop : ∀ c ∈ rest.head?, c.isDigit = false) :
    (padded width n ++ rest).takeWhile Char.isDigit = padded width n := by
  have ends : rest.takeWhile Char.isDigit = [] := by
    cases rest with
    | nil => rfl
    | cons c s => exact List.takeWhile_cons_of_neg (by simp [stop c rfl])
  rw [List.takeWhile_append_of_pos fun c => isDigit_of_mem_padded, ends, List.append_nil]

/-- A number is read up to the width, or up to what is no digit. -/
theorem readDigits_padded {most : Nat} (short : (padded width n).length ≤ most)
    (stop : (padded width n).length = most ∨ ∀ c ∈ rest.head?, c.isDigit = false) :
    readDigits most (padded width n ++ rest) = some (n, rest) := by
  have taken : ((padded width n ++ rest).take most).takeWhile Char.isDigit = padded width n := by
    rw [List.take_append, List.take_of_length_le short]
    refine takeWhile_padded fun c hc => ?_
    rcases stop with full | stop
    · rw [full, Nat.sub_self] at hc
      cases hc
    · cases rest with
      | nil => simp at hc
      | cons d s =>
        have same : d = c := by
          cases hk : most - (padded width n).length with
          | zero => simp [hk] at hc
          | succ k => simpa [hk] using hc
        exact stop c (by simp [same])
  obtain ⟨c, s, eq, -⟩ := padded_eq_cons width n
  unfold readDigits
  rw [taken]
  rw [eq]
  simp only
  rw [← eq, ofDigits_padded, List.drop_left]

theorem readPair_padded (fits : n < 100) : readPair (padded 2 n ++ rest) = some (n, rest) := by
  have length : (padded 2 n).length = 2 := length_padded (by decide) fits
  obtain ⟨c, s, eq, digit⟩ := padded_eq_cons 2 n
  have kept : trimStart (padded 2 n ++ rest) = padded 2 n ++ rest := by
    rw [eq]
    exact Text.trimStart_cons (Text.not_isBlank_of_isDigit digit)
  unfold readPair
  rw [kept]
  exact readDigits_padded (Nat.le_of_eq length) (.inl length)

end Digits

theorem readMark_cons {mark : Char} (visible : isBlank mark = false) (rest : List Char) :
    readMark mark (mark :: rest) = some rest := by
  unfold readMark
  rw [Text.trimStart_cons visible]
  exact if_pos rfl

/-- The year ends at the mark behind it. -/
theorem readYear_writeYear (year : Int) (rest : List Char) :
    readYear (writeYear year ++ '-' :: rest) = some (year, '-' :: rest) := by
  have stop : ∀ c ∈ ('-' :: rest).head?, c.isDigit = false := by
    rintro c ⟨⟩
    rfl
  have signed : readDigits (padded 4 year.natAbs ++ '-' :: rest).length (padded 4 year.natAbs ++ '-' :: rest) =
      some (year.natAbs, '-' :: rest) := by
    refine readDigits_padded ?_ (.inr stop)
    simp
  unfold writeYear
  split
  next plain =>
    have fits : year.toNat < 10 ^ 4 := by omega
    obtain ⟨c, s, eq, digit⟩ := padded_eq_cons 4 year.toNat
    have read : readDigits 4 (padded 4 year.toNat ++ '-' :: rest) = some (year.toNat, '-' :: rest) :=
      readDigits_padded (Nat.le_of_eq (length_padded (by decide) fits)) (.inr stop)
    have whole : (year.toNat : Int) = year := Int.toNat_of_nonneg plain.1
    unfold readYear
    rw [eq] at read ⊢
    rw [List.cons_append, Text.trimStart_cons (Text.not_isBlank_of_isDigit digit)]
    split
    next same =>
      cases same
      cases digit
    next same =>
      cases same
      cases digit
    next =>
      rw [List.cons_append] at read
      simp only [read, Option.map_some, whole]
  next =>
    unfold readYear
    by_cases negative : year < 0
    · rw [if_pos negative, List.cons_append, Text.trimStart_cons rfl]
      simp only [signed, Option.map_some]
      rw [show -(year.natAbs : Int) = year by omega]
    · rw [if_neg negative, List.cons_append, Text.trimStart_cons rfl]
      simp only [signed, Option.map_some]
      rw [show (year.natAbs : Int) = year by omega]

theorem readFraction_padded {width n : Nat} (positive : 0 < width) (small : width ≤ 9) (fits : n < 10 ^ width) :
    readFraction ('.' :: padded width n ++ ['Z']) = some (n * 10 ^ (9 - width), ['Z']) := by
  have length := length_padded positive fits
  have taken : (padded width n ++ ['Z']).takeWhile Char.isDigit = padded width n := by
    refine takeWhile_padded ?_
    rintro c ⟨⟩
    rfl
  obtain ⟨c, s, eq, -⟩ := padded_eq_cons width n
  change readFraction ('.' :: (padded width n ++ ['Z'])) = _
  unfold readFraction
  simp only [taken]
  rw [eq]
  simp only
  have all : (padded width n).length ≤ 9 := by omega
  rw [← eq, List.take_of_length_le all, ofDigits_padded, List.drop_left, length]
  rfl

theorem readFraction_writeFraction {nanosecond : Nat} (fits : nanosecond < nanosecondsPerSecond) :
    readFraction (writeFraction nanosecond ++ ['Z']) = some (nanosecond, ['Z']) := by
  unfold nanosecondsPerSecond at fits
  unfold writeFraction
  split
  next none =>
    rw [none]
    rfl
  split
  next whole =>
    have back : nanosecond / 1000000 * 10 ^ (9 - 3) = nanosecond :=
      Nat.div_mul_cancel (Nat.dvd_of_mod_eq_zero whole)
    rw [readFraction_padded (by decide) (by decide) (by omega), back]
  split
  next whole =>
    have back : nanosecond / 1000 * 10 ^ (9 - 6) = nanosecond :=
      Nat.div_mul_cancel (Nat.dvd_of_mod_eq_zero whole)
    rw [readFraction_padded (by decide) (by decide) (by omega), back]
  next =>
    rw [readFraction_padded (by decide) (by decide) (by omega)]
    exact congrArg (fun n => some (n, ['Z'])) (Nat.mul_one nanosecond)

/-- A leap second is written as second 60. -/
theorem timeOfDay?_written (i : Instant) :
    timeOfDay? (i.second / 3600) (i.second / 60 % 60)
        (i.second % 60 + i.nanosecond / nanosecondsPerSecond) (i.nanosecond % nanosecondsPerSecond) =
      some (i.second, i.nanosecond) := by
  obtain ⟨date, second, nanosecond, day, below, leap⟩ := i
  unfold secondsPerDay at day
  unfold nanosecondsPerSecond at below leap
  unfold timeOfDay? nanosecondsPerSecond
  simp only
  rw [if_pos (by omega)]
  by_cases late : 1000000000 ≤ nanosecond
  · have last := leap late
    rw [if_pos (by omega)]
    exact congrArg some (Prod.ext (by dsimp only; omega) (by dsimp only; omega))
  · rw [if_neg (by omega)]
    exact congrArg some (Prod.ext (by dsimp only; omega) (by dsimp only; omega))

theorem shift?_zero (i : Instant) : shift? i.date i.second 0 = some (i.date, i.second) := by
  have day : (i.second : Int) < secondsPerDay := Int.ofNat_lt.mpr i.valid.1
  have start : (0 : Int) ≤ i.second := Int.natCast_nonneg _
  unfold shift?
  simp only [Int.sub_zero, Int.ediv_eq_zero_of_lt start day, Int.emod_eq_of_lt start day, Int.toNat_natCast]
  rfl

theorem readSeparator_mark (rest : List Char) : readSeparator ('T' :: rest) = some rest := by
  unfold readSeparator
  exact if_pos (.inl rfl)

theorem read?_write (i : Instant) : read? i.write = some i := by
  have month : i.date.month < 100 := by
    have := i.date.valid
    omega
  have day : i.date.day < 100 := by
    have bound : daysInMonth i.date.year i.date.month ≤ 31 := by
      unfold daysInMonth
      split <;> split <;> omega
    have := i.date.valid
    omega
  have fine := i.valid
  unfold secondsPerDay at fine
  have hour : i.second / 3600 < 100 := by omega
  have minute : i.second / 60 % 60 < 100 := by omega
  have leap : i.nanosecond / nanosecondsPerSecond < 2 := Nat.div_lt_of_lt_mul (by rw [Nat.mul_comm]; exact fine.2.1)
  have second : i.second % 60 + i.nanosecond / nanosecondsPerSecond < 100 := by omega
  have dash : isBlank '-' = false := rfl
  have colon : isBlank ':' = false := rfl
  have universal : readOffset (trimStart ['Z']) = some (0, []) := rfl
  have fraction : i.nanosecond % nanosecondsPerSecond < nanosecondsPerSecond := Nat.mod_lt _ (by decide)
  unfold read? write
  rw [String.toList_ofList]
  simp only [List.append_assoc, List.cons_append]
  unfold readChars
  -- The text is read from the front, one part after the other.
  refine Option.bind_eq_some_iff.mpr ⟨_, readYear_writeYear .., ?_⟩
  refine Option.bind_eq_some_iff.mpr ⟨_, readMark_cons dash .., ?_⟩
  refine Option.bind_eq_some_iff.mpr ⟨_, readPair_padded month .., ?_⟩
  refine Option.bind_eq_some_iff.mpr ⟨_, readMark_cons dash .., ?_⟩
  refine Option.bind_eq_some_iff.mpr ⟨_, readPair_padded day .., ?_⟩
  refine Option.bind_eq_some_iff.mpr ⟨_, readSeparator_mark .., ?_⟩
  refine Option.bind_eq_some_iff.mpr ⟨_, readPair_padded hour .., ?_⟩
  refine Option.bind_eq_some_iff.mpr ⟨_, readMark_cons colon .., ?_⟩
  refine Option.bind_eq_some_iff.mpr ⟨_, readPair_padded minute .., ?_⟩
  refine Option.bind_eq_some_iff.mpr ⟨_, readMark_cons colon .., ?_⟩
  refine Option.bind_eq_some_iff.mpr ⟨_, readPair_padded second .., ?_⟩
  refine Option.bind_eq_some_iff.mpr ⟨_, readFraction_writeFraction fraction, ?_⟩
  refine Option.bind_eq_some_iff.mpr ⟨_, universal, ?_⟩
  refine (if_pos ⟨rfl, by decide⟩).trans ?_
  refine Option.bind_eq_some_iff.mpr ⟨_, Date.of?_self .., ?_⟩
  refine Option.bind_eq_some_iff.mpr ⟨_, timeOfDay?_written .., ?_⟩
  refine Option.bind_eq_some_iff.mpr ⟨_, shift?_zero .., ?_⟩
  exact of?_self ..

end Time.Instant

end IamKeeper
