import RouterCalldata.Command.Fixture
import RouterCalldata.Proofs.Record.TextForm

/-!
# Letter case

Texts are compared up to letter case by putting both in lower case, and only the letters of ASCII
are put in lower case here.  Other letters have two cases too, and two of them even have lower-case
forms with ASCII letters in them: that of the Kelvin sign is `k`, and that of the capital `I` with a
dot is `i` with a dot above it.

The texts of records are made of hex digits and of the letter of a mark.  So a text with a character
outside ASCII is the text of no record, and it does not become one in lower case, whatever is made
of such characters.

## Main definitions

* `IsRecordText`, `IsAscii`: texts of the characters that records are written in, and of ASCII;
* `FoldsCase`: what is relied on of a function that puts texts in lower case.

## Main results

* `foldsCase_lowerCase`: it holds of the function that changes the letters of ASCII only;
* `FoldsCase.fold_eq_self`, `FoldsCase.eq_fold_iff`: all such functions agree on whether a text is
  the text of a record up to letter case;
* `TextForm.Holds.isRecordText`: the texts of fields are texts of records.
-/

namespace RouterCalldata

/-! ## Texts of records -/

/-- The hex digits and the letter of a mark. -/
def recordChars : List Char := 'x' :: hexDigits

/-- The text has no other characters than those that records are written in. -/
def IsRecordText (text : String) : Prop := ∀ c ∈ text.toList, c ∈ recordChars

theorem mem_hexDigits_of_isDigit {c : Char} (h : c.isDigit) : c ∈ hexDigits := by
  have hsmall : c.toNat < 58 := by
    rw [Char.isDigit, Bool.and_eq_true, decide_eq_true_eq, decide_eq_true_eq] at h
    exact Nat.lt_succ_of_le h.2
  have hall : ∀ n < 58, (Char.ofNat n).isDigit → Char.ofNat n ∈ hexDigits := by decide
  rw [← Char.ofNat_toNat c] at h ⊢
  exact hall c.toNat hsmall h

/-- **The texts of fields are texts of records**, be they numerals or hex. -/
theorem TextForm.Holds.isRecordText {form : TextForm} {text : String} (h : form.Holds text) :
    IsRecordText text := by
  intro c hc
  cases form with
  | numeral bits => exact List.mem_cons_of_mem _ (mem_hexDigits_of_isDigit (h.isDigit c hc))
  | hex bytes =>
    obtain ⟨digits, -, hdigits, rfl⟩ := h
    rw [String.toList_append, List.mem_append] at hc
    rcases hc with hmark | hdigit
    · have hmark : c = '0' ∨ c = 'x' := by simpa using hmark
      rcases hmark with rfl | rfl
      · decide
      · decide
    · rw [String.toList_ofList] at hdigit
      exact List.mem_cons_of_mem _ (hdigits c hdigit)

/-! ## Lower case -/

/-- The text has no character outside ASCII. -/
def IsAscii (text : String) : Prop := ∀ c ∈ text.toList, c.toNat < 128

/-- **What is relied on of a function that puts texts in lower case.**  In a text of ASCII it
changes the capital letters.  Of any other text it makes no text of a record, since
there is no character outside ASCII whose lower-case form is made of the characters of
records alone. -/
structure FoldsCase (fold : String → String) : Prop where
  ascii : ∀ text, IsAscii text → fold text = lowerCase text
  other : ∀ text, ¬ IsAscii text → ¬ IsRecordText (fold text)

theorem IsRecordText.isAscii {text : String} (h : IsRecordText text) : IsAscii text := by
  intro c hc
  have hall : recordChars.all fun c => decide (c.toNat < 128) := by decide
  exact of_decide_eq_true (List.all_eq_true.mp hall c (h c hc))

theorem toLower_eq_self_of_ge {c : Char} (h : 128 ≤ c.toNat) : c.toLower = c := by
  apply dif_neg
  rintro ⟨-, hupper⟩
  have hle : c.toNat ≤ 90 := hupper
  omega

/-- Changing the letters of ASCII leaves all other characters as they are. -/
theorem foldsCase_lowerCase : FoldsCase lowerCase where
  ascii text _ := rfl
  other text hother hrecord := by
    apply hother
    intro c hc
    by_contra hge
    have hmem : c ∈ (lowerCase text).toList := by
      rw [lowerCase, String.toList_map, List.mem_map]
      exact ⟨c, hc, toLower_eq_self_of_ge (Nat.not_lt.mp hge)⟩
    exact hge (hrecord.isAscii c hmem)

namespace FoldsCase

variable {fold : String → String} (hfold : FoldsCase fold) {text : String}

include hfold

/-- The text of a record is in lower case. -/
theorem fold_eq_self (h : IsRecordText text) : fold text = text := by
  have hall : recordChars.all fun c => decide (c.toLower = c) := by decide
  have hlower : ∀ c ∈ text.toList, c.toLower = c := fun c hc =>
    of_decide_eq_true (List.all_eq_true.mp hall c (h c hc))
  rw [hfold.ascii text h.isAscii, lowerCase, ← String.toList_inj, String.toList_map]
  exact (List.map_congr_left hlower).trans (List.map_id' _)

/-- **All ways to put texts in lower case agree on the texts of records.** -/
theorem eq_fold_iff (h : IsRecordText text) {want : String} :
    text = fold want ↔ text = lowerCase want := by
  by_cases hascii : IsAscii want
  · rw [hfold.ascii want hascii]
  · have hne {fold : String → String} (hfold : FoldsCase fold) : text ≠ fold want := by
      rintro rfl
      exact hfold.other want hascii h
    exact iff_of_false (hne hfold) (hne foldsCase_lowerCase)

end FoldsCase

end RouterCalldata
