import RouterCalldata.Proofs.Text.Lines

/-!
# What is left of a text without the blanks around it

Trimming is done by two passes, one of them over the text that the other one leaves.  What it gives
can be told without them: a text falls into blanks, a core and blanks, and the core neither starts
nor ends with a blank.  A text falls apart in this way with one core only, even if it is all blank
and the blanks can be divided in many ways.

## Main definitions

* `Text.IsTrimmed`: the core of a text.

## Main results

* `Text.isTrimmed_iff`: trimming gives the core.
-/

namespace RouterCalldata.Text

/-- **The core of a text**: what stands between blanks, with no blank at either end of it. -/
structure IsTrimmed (text core : List Char) : Prop where
  parts : ∃ front back, text = front ++ core ++ back ∧ (∀ c ∈ front, isBlank c = true) ∧
    ∀ c ∈ back, isBlank c = true
  start : ∀ c, core.head? = some c → isBlank c = false
  stop : ∀ c, core.getLast? = some c → isBlank c = false

variable {text core front rest : List Char}

theorem dropWhile_append_eq (hfront : ∀ c ∈ front, isBlank c = true)
    (hrest : ∀ c, rest.head? = some c → isBlank c = false) :
    (front ++ rest).dropWhile isBlank = rest := by
  rw [List.dropWhile_append_of_pos hfront]
  cases rest with
  | nil => rfl
  | cons c rest => exact List.dropWhile_cons_of_neg (by rw [hrest c rfl]; decide)

/-- What is left behind the blanks in front does not start with a blank. -/
theorem isBlank_of_head?_dropWhile {c : Char} (h : (text.dropWhile isBlank).head? = some c) :
    isBlank c = false := by
  have hne : text.dropWhile isBlank ≠ [] := by
    intro hnil
    rw [hnil] at h
    cases h
  have hhead := List.head_dropWhile_not isBlank hne
  rw [List.head?_eq_some_head hne] at h
  rwa [Option.some.inj h] at hhead

/-- What is left behind the blanks in front is the trimmed text and blanks. -/
theorem trimChars_append (text : List Char) :
    trimChars text ++ ((text.dropWhile isBlank).reverse.takeWhile isBlank).reverse =
      text.dropWhile isBlank := by
  rw [trimChars, ← List.reverse_append, List.takeWhile_append_dropWhile, List.reverse_reverse]

theorem isTrimmed_trimChars (text : List Char) : IsTrimmed text (trimChars text) where
  parts := by
    refine ⟨text.takeWhile isBlank, ((text.dropWhile isBlank).reverse.takeWhile isBlank).reverse,
      ?_, fun c hc => List.mem_takeWhile_imp hc,
      fun c hc => List.mem_takeWhile_imp (List.mem_reverse.mp hc)⟩
    rw [List.append_assoc, trimChars_append, List.takeWhile_append_dropWhile]
  start := by
    intro c hc
    apply isBlank_of_head?_dropWhile
    rw [← trimChars_append, List.head?_append, hc, Option.some_or]
  stop := by
    intro c hc
    rw [trimChars, List.getLast?_reverse] at hc
    exact isBlank_of_head?_dropWhile hc

/-- **Trimming gives the core**, and there is only one. -/
theorem isTrimmed_iff : IsTrimmed text core ↔ core = trimChars text := by
  constructor
  · rintro ⟨⟨front, back, rfl, hfront, hback⟩, hstart, hstop⟩
    cases core with
    | nil =>
      symm
      rw [trimChars_eq_nil_iff]
      intro c hc
      rw [List.append_nil, List.mem_append] at hc
      exact hc.elim (hfront c) (hback c)
    | cons first core =>
      have hfirst : ∀ c, (first :: core ++ back).head? = some c → isBlank c = false := hstart
      have hback' : ∀ c ∈ back.reverse, isBlank c = true := fun c hc =>
        hback c (List.mem_reverse.mp hc)
      rw [trimChars, List.append_assoc, dropWhile_append_eq hfront hfirst, List.reverse_append,
        dropWhile_append_eq hback' (by rwa [List.head?_reverse]), List.reverse_reverse]
  · rintro rfl
    exact isTrimmed_trimChars text

end RouterCalldata.Text
