import IamKeeper.Json.Reader
import IamKeeper.Json.Writer
import Mathlib.Tactic.IntervalCases

namespace IamKeeper.Json

theorem fourDigits_control {n : Nat} (control : n < 0x20) :
    ∃ a b c d, fourDigits n = [a, b, c, d] ∧ hexUnit? a b c d = some n := by
  interval_cases n <;> exact ⟨_, _, _, _, rfl, rfl⟩

theorem readString_plain {c : Char} (mark : c ≠ '"') (backslash : c ≠ '\\') (shown : ¬ c.toNat < 0x20)
    (rest : List Char) :
    readString (c :: rest) = (readString rest).map fun (s, rest) => (c :: s, rest) := by
  rw [readString.eq_def]
  split <;> simp_all

theorem readString_escapedChar (c : Char) (rest : List Char) :
    readString (escapedChar c ++ rest) = (readString rest).map fun (s, rest) => (c :: s, rest) := by
  unfold escapedChar
  -- Seven characters have a short escape of their own.
  iterate 7
    split
    next h => subst h; rfl
  split
  next control =>
    obtain ⟨a, b, c', d, digits, hex⟩ := fourDigits_control control
    have high : isHighSurrogate c.toNat = false := by simp [isHighSurrogate]; omega
    have low : isLowSurrogate c.toNat = false := by simp [isLowSurrogate]; omega
    rw [digits]
    simp [readString, hex, high, low, Char.ofNat_toNat]
  next mark backslash _ _ _ _ _ shown => exact readString_plain mark backslash shown rest

/-- An escaped text reads back, up to the mark behind it. -/
theorem readString_escaped (s rest : List Char) :
    readString (s.flatMap escapedChar ++ '"' :: rest) = some (s, rest) := by
  induction s with
  | nil => rfl
  | cons c s ih => rw [List.flatMap_cons, List.append_assoc, readString_escapedChar, ih, Option.map_some]

theorem writeString_injective {a b : String} (h : writeString a = writeString b) : a = b := by
  have read (s : String) : readString (writeString s).tail = some (s.toList, []) :=
    readString_escaped s.toList []
  have same := read a
  rw [h, read b] at same
  exact String.toList_inj.mp (by simpa using same.symm)

theorem compact_string_injective {a b : String} (h : (string a).compact = (string b).compact) :
    a = b := by
  have same := congrArg String.toList h
  simp only [compact, write, String.toList_ofList] at same
  exact writeString_injective same

end IamKeeper.Json
