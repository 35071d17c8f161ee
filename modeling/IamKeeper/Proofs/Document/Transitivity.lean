import IamKeeper.Proofs.Entries
import IamKeeper.Proofs.Json.Locality

namespace IamKeeper.Document

def IsDocument (text : String) : Prop :=
  ∃ v, Json.read? text = some v

theorem equivalent_of_read {a b : String} {v w : Json} (ha : Json.read? a = some v) (hb : Json.read? b = some w) :
    equivalent a b = true ↔ canonical v = canonical w := by
  simp [equivalent, ha, hb]

/-- Where one of two texts is no document, the characters decide. -/
theorem equivalent_of_text {a b : String} (text : ¬ (IsDocument a ∧ IsDocument b)) :
    equivalent a b = true ↔ Text.trim a = Text.trim b := by
  unfold equivalent
  split
  next v w ha hb => exact absurd ⟨⟨v, ha⟩, ⟨w, hb⟩⟩ text
  next => rw [decide_eq_true_iff]

/-- A document between another one and a text that is none: it is compared with the one by what it says, with the other
by its characters. -/
def Straddles (a b c : String) : Prop :=
  IsDocument b ∧ ¬ (IsDocument a ↔ IsDocument c)

theorem equivalent_of_straddles {a b c : String} (straddles : Straddles a b c) :
    equivalent a c = true ↔ Text.trim a = Text.trim c :=
  equivalent_of_text fun both => straddles.2 (iff_of_true both.1 both.2)

/-- A chain that does not change at a document holds together. When its middle is no document, all three have the same
characters, and so its ends are the same document if they are documents. -/
theorem equivalent_trans {a b c : String} (first : equivalent a b = true) (second : equivalent b c = true)
    (straddles : ¬ Straddles a b c) : equivalent a c = true := by
  by_cases hb : IsDocument b
  · have alike : IsDocument a ↔ IsDocument c := by
      by_contra other
      exact straddles ⟨hb, other⟩
    by_cases ha : IsDocument a
    · obtain ⟨u, hu⟩ := ha
      obtain ⟨v, hv⟩ := hb
      obtain ⟨w, hw⟩ := alike.mp ⟨u, hu⟩
      rw [equivalent_of_read hu hv] at first
      rw [equivalent_of_read hv hw] at second
      exact (equivalent_of_read hu hw).mpr (first.trans second)
    · have hc : ¬ IsDocument c := fun hc => ha (alike.mpr hc)
      rw [equivalent_of_text fun both => ha both.1] at first
      rw [equivalent_of_text fun both => hc both.2] at second
      exact (equivalent_of_text fun both => ha both.1).mpr (first.trans second)
  · rw [equivalent_of_text fun both => hb both.2] at first
    rw [equivalent_of_text fun both => hb both.1] at second
    have same := first.trans second
    by_cases documents : IsDocument a ∧ IsDocument c
    · obtain ⟨⟨u, hu⟩, w, hw⟩ := documents
      rw [equivalent_of_read hu hw, Json.read?_eq_of_trim hu hw same]
    · exact (equivalent_of_text documents).mpr same

/-- Equivalence is reflexive and symmetric on all texts. Along two equivalences it goes on, except that over a document
with just one document beside it the characters of the outer texts decide. -/
theorem equivalent_laws : (∀ a, equivalent a a = true) ∧
    (∀ a b, equivalent a b = true → equivalent b a = true) ∧
    ∀ a b c, equivalent a b = true → equivalent b c = true →
      (equivalent a c = true ↔ (Straddles a b c → Text.trim a = Text.trim c)) := by
  refine ⟨equivalent_refl, fun a b h => equivalent_comm a b ▸ h, fun a b c first second => ?_⟩
  by_cases straddles : Straddles a b c
  · simp only [straddles, true_imp_iff]
    exact equivalent_of_straddles straddles
  · simp only [straddles, false_imp_iff, iff_true]
    exact equivalent_trans first second straddles

/-- Over a text that is no document: the outer ones are the same document. -/
theorem equivalent_laws_over_text : equivalent "\x7b\x7d" "\u00a0\x7b\x7d" = true ∧
    equivalent "\u00a0\x7b\x7d" " \x7b\x7d\n" = true ∧ (equivalent "\x7b\x7d" " \x7b\x7d\n" = true ↔
      (Straddles "\x7b\x7d" "\u00a0\x7b\x7d" " \x7b\x7d\n" →
        Text.trim "\x7b\x7d" = Text.trim " \x7b\x7d\n")) :=
  ⟨by decide, by decide, equivalent_laws.2.2 _ _ _ (by decide) (by decide)⟩

theorem equivalent_not_trans : equivalent "\x7b \x7d" "\x7b\x7d" = true ∧
    equivalent "\x7b\x7d" "\u00a0\x7b\x7d" = true ∧ equivalent "\x7b \x7d" "\u00a0\x7b\x7d" ≠ true := by
  decide

end IamKeeper.Document
