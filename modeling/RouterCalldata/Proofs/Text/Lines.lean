import Mathlib.Data.List.TakeWhile
import RouterCalldata.Command.BatchFile
import RouterCalldata.Proofs.Text.Utf8

/-!
# Lines of a text

A file is cut into lines before it is known to be a text, at the bytes that encode a line feed.  In
a UTF-8 text no other character has such a byte in its encoding, so that cutting the bytes is
cutting the text, and each line of a text is a text.

## Main definitions

* `Text.lines`: the lines of a text without their ends.

## Main results

* `textOfUtf8?_utf8`: the text that its own bytes encode;
* `splitLines_utf8`: the lines of a text's bytes are the bytes of its lines;
* `Text.lines_unlines`: lines that are written are the lines that are found;
* `Text.trimChars_eq_nil_iff`: which texts are blank.
-/

namespace RouterCalldata

/-! ## Lines of characters -/

namespace Text

/-- The characters passed in a line, last first, without the carriage return in front of its
end. -/
def withoutReturn : List Char → List Char
  | '\r' :: rest => rest
  | seen => seen

/-- The lines of a text, `seen` being the characters passed in the first one, last first. -/
def linesFrom (seen : List Char) : List Char → List String
  | [] => if seen.isEmpty then [] else [String.ofList seen.reverse]
  | c :: rest =>
      if c = '\n' then String.ofList (withoutReturn seen).reverse :: linesFrom [] rest
      else linesFrom (c :: seen) rest

/-- **The lines of a text without their ends.**  A line ends with a line feed or with both a
carriage return and a line feed; what follows the last end is a line unless it is empty. -/
def lines (s : String) : List String := linesFrom [] s.toList

theorem linesFrom_append {l : List Char} (h : '\n' ∉ l) (seen rest : List Char) :
    linesFrom seen (l ++ rest) = linesFrom (l.reverse ++ seen) rest := by
  induction l generalizing seen with
  | nil => rfl
  | cons c l ih =>
    rw [List.mem_cons, not_or] at h
    rw [List.cons_append, linesFrom, if_neg (Ne.symm h.1), ih h.2]
    simp

theorem withoutReturn_eq_self {l : List Char} (h : l.getLast? ≠ some '\r') :
    withoutReturn l.reverse = l.reverse := by
  rw [← List.head?_reverse] at h
  unfold withoutReturn
  split
  · next heq =>
    rw [heq] at h
    exact absurd rfl h
  · rfl

/-- **Lines that are written are the lines that are found**, if none of them holds a line end. -/
theorem lines_unlines {ls : List String}
    (h : ∀ l ∈ ls, '\n' ∉ l.toList ∧ l.toList.getLast? ≠ some '\r') : lines (unlines ls) = ls := by
  induction ls with
  | nil => rfl
  | cons l rest ih =>
    obtain ⟨hnewline, hreturn⟩ := h l List.mem_cons_self
    have hrest := ih fun l hl => h l (List.mem_cons_of_mem _ hl)
    have htext : (unlines (l :: rest)).toList = l.toList ++ '\n' :: (unlines rest).toList := by
      simp [unlines]
    unfold lines at hrest ⊢
    rw [htext, linesFrom_append hnewline, List.append_nil, linesFrom, if_pos rfl, hrest,
      withoutReturn_eq_self hreturn]
    simp

/-! ## Blank texts -/

/-- Only a text of blanks is empty without the blanks around it. -/
theorem trimChars_eq_nil_iff {cs : List Char} :
    trimChars cs = [] ↔ ∀ c ∈ cs, isBlank c = true := by
  unfold trimChars
  rw [List.reverse_eq_nil_iff, List.dropWhile_eq_nil_iff]
  constructor
  · intro h
    by_contra hall
    have hne : cs.dropWhile isBlank ≠ [] := by
      intro hnil
      exact hall (List.dropWhile_eq_nil_iff.mp hnil)
    have hhead := List.head_dropWhile_not isBlank hne
    rw [h _ (List.mem_reverse.mpr (List.head_mem hne))] at hhead
    exact absurd hhead (by simp)
  · intro h c hc
    exact h c (List.dropWhile_subset _ (List.mem_reverse.mp hc))

theorem trim_eq_empty_iff {s : String} : trim s = "" ↔ trimChars s.toList = [] :=
  String.ofList_eq_empty_iff

end Text

/-! ## Bytes of a text -/

theorem textOfUtf8?_utf8 (s : String) : textOfUtf8? (Hex.utf8 s.toList) = some s := by
  have hbytes : (⟨(Hex.utf8 s.toList).toArray⟩ : ByteArray) = s.toByteArray := by
    rw [← String.utf8Encode_toList]
    apply ByteArray.ext
    exact List.data_toByteArray.symm
  unfold textOfUtf8? String.fromUTF8?
  rw [hbytes, dif_pos s.isValidUTF8]
  rfl

theorem utf8_of_textOfUtf8? {bs : Bytes} {s : String} (h : textOfUtf8? bs = some s) :
    bs = Hex.utf8 s.toList := by
  unfold textOfUtf8? String.fromUTF8? at h
  split at h
  · next hvalid =>
    have hs : s.toByteArray = ⟨bs.toArray⟩ := by
      rw [← Option.some.inj h]
      rfl
    rw [← String.utf8Encode_toList] at hs
    have hdata := congrArg (fun b : ByteArray => b.data.toList) hs
    simp only [List.utf8Encode, List.data_toByteArray, List.toList_toArray] at hdata
    exact hdata.symm
  · exact absurd h (by simp)

/-! ## Lines of bytes -/

theorem splitLinesFrom_append {bs : Bytes} (h : 10 ∉ bs) (seen rest : Bytes) :
    splitLinesFrom seen (bs ++ rest) = splitLinesFrom (bs.reverse ++ seen) rest := by
  induction bs generalizing seen with
  | nil => rfl
  | cons b bs ih =>
    rw [List.mem_cons, not_or] at h
    rw [List.cons_append, splitLinesFrom, if_neg (Ne.symm h.1), ih h.2]
    simp

theorem dropReturn_eq_self {seen : Bytes} (h : seen.head? ≠ some 13) : dropReturn seen = seen := by
  unfold dropReturn
  split
  · exact absurd rfl h
  · rfl

/-- A carriage return is the last byte exactly where it is the last character. -/
theorem dropReturn_utf8 (seen : List Char) :
    dropReturn (Hex.utf8 seen.reverse).reverse =
      (Hex.utf8 (Text.withoutReturn seen).reverse).reverse := by
  cases seen with
  | nil => rfl
  | cons c rest =>
    rw [List.reverse_cons, utf8_append, utf8_singleton, List.reverse_append]
    by_cases hc : c = '\r'
    · subst hc
      rfl
    · have hlast : 13 ∉ String.utf8EncodeChar c := not_mem_utf8EncodeChar (c := '\r') (by decide) hc
      have hself : Text.withoutReturn (c :: rest) = c :: rest := by
        unfold Text.withoutReturn
        split
        · next heq => exact absurd (List.cons.inj heq).1 hc
        · rfl
      rw [hself, List.reverse_cons, utf8_append, utf8_singleton, List.reverse_append]
      obtain ⟨b, bs, hbytes⟩ : ∃ b bs, (String.utf8EncodeChar c).reverse = b :: bs := by
        apply List.exists_cons_of_ne_nil
        simp
      apply dropReturn_eq_self
      rw [hbytes]
      intro hhead
      obtain rfl : b = 13 := Option.some.inj hhead
      apply hlast
      rw [← List.mem_reverse, hbytes]
      exact List.mem_cons_self

theorem splitLinesFrom_utf8 (seen cs : List Char) :
    splitLinesFrom (Hex.utf8 seen.reverse).reverse (Hex.utf8 cs) =
      (Text.linesFrom seen cs).map fun l => Hex.utf8 l.toList := by
  -- The induction is on the characters, each of which is a run of bytes without a line feed or is
  -- the line feed itself.
  induction cs generalizing seen with
  | nil =>
    cases seen with
    | nil => rfl
    | cons c rest =>
      have hne : (Hex.utf8 (c :: rest).reverse).reverse ≠ [] := by
        simp [utf8_append, utf8_singleton]
      show splitLinesFrom _ [] = _
      rw [splitLinesFrom, if_neg (by simpa using hne)]
      simp [Text.linesFrom]
  | cons c rest ih =>
    rw [utf8_cons]
    by_cases hc : c = '\n'
    · subst hc
      have hrest : splitLinesFrom [] (Hex.utf8 rest) = _ := ih []
      show (dropReturn _).reverse :: splitLinesFrom [] (Hex.utf8 rest) = _
      rw [dropReturn_utf8, hrest]
      simp [Text.linesFrom]
    · have hfeed : 10 ∉ String.utf8EncodeChar c := not_mem_utf8EncodeChar (c := '\n') (by decide) hc
      have hseen := ih (c :: seen)
      rw [List.reverse_cons, utf8_append, utf8_singleton, List.reverse_append] at hseen
      rw [splitLinesFrom_append hfeed, hseen]
      simp [Text.linesFrom, hc]

/-- **The lines of a text's bytes are the bytes of its lines.** -/
theorem splitLines_utf8 (s : String) :
    splitLines (Hex.utf8 s.toList) = (Text.lines s).map fun l => Hex.utf8 l.toList :=
  splitLinesFrom_utf8 [] s.toList

end RouterCalldata
