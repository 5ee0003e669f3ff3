import Mathlib.Data.List.TakeWhile
import RouterCalldata.Document.Json.Reader
import RouterCalldata.Document.Json.Writer
import RouterCalldata.Proofs.Record.TextForm

/-!
# The tokens of a JSON text

The scanner notices the end of a word or of a number only when it sees what comes next, so that a
text cannot be said to leave it idle.  What can be said is that it goes on as if it were idle,
whenever a character comes next that no word and no number holds.  In what is written, a comma, a
bracket, a blank or a line end follows every value, and these are such characters.

## Main definitions

* `Scanner.Settled`: the scanner goes on as if it were idle behind some tokens;
* `Passes`, `Spells`: a text leaves the scanner idle, or settled;
* `entries`: entries with separators between them, of characters or of tokens.

## Main results

* `passes_quoted`, `spells_repr`: texts and whole numbers;
* `spells_entries`, `passes_array`, `passes_object`: entries between brackets.
-/

namespace RouterCalldata

namespace Json

/-! ## Texts and tokens -/

/-- Whether a character can neither go on with a word nor with a number. -/
def endsToken (c : Char) : Bool := !c.isAlpha && !continuesNumber c

/-- The scanner has passed the tokens, the last of which may have to be seen to end: it may stop,
and whatever ends a token is read as it is where the scanner is idle. -/
structure Scanner.Settled (s : Scanner) (passed : List Token) : Prop where
  finish_eq : s.finish = some passed
  step_eq : ∀ c, endsToken c = true → s.step c = start passed c

/-- Reading the text where a token may start passes the tokens and leaves the scanner idle. -/
def Passes (text : List Char) (tokens : List Token) : Prop :=
  ∀ passed, text.foldlM Scanner.step ⟨passed, .idle⟩ = some ⟨tokens.reverse ++ passed, .idle⟩

/-- Reading the text where a token may start passes the tokens, of which the last one may have to be
seen to end. -/
def Spells (text : List Char) (tokens : List Token) : Prop :=
  ∀ passed, ∃ s, text.foldlM Scanner.step ⟨passed, .idle⟩ = some s ∧
    s.Settled (tokens.reverse ++ passed)

variable {a b : List Char} {ta tb : List Token}

theorem settled_idle (passed : List Token) : Scanner.Settled ⟨passed, .idle⟩ passed where
  finish_eq := rfl
  step_eq _ _ := rfl

theorem Passes.spells (h : Passes a ta) : Spells a ta := by
  intro passed
  exact ⟨_, h passed, settled_idle _⟩

theorem passes_nil : Passes [] [] := fun _ => rfl

theorem Passes.append (ha : Passes a ta) (hb : Passes b tb) : Passes (a ++ b) (ta ++ tb) := by
  intro passed
  rw [List.foldlM_append, ha]
  simp [hb (ta.reverse ++ passed)]

theorem Passes.append_spells (ha : Passes a ta) (hb : Spells b tb) :
    Spells (a ++ b) (ta ++ tb) := by
  intro passed
  obtain ⟨s, hs, hsettled⟩ := hb (ta.reverse ++ passed)
  refine ⟨s, ?_, by simpa using hsettled⟩
  rw [List.foldlM_append, ha]
  exact hs

/-- From where the scanner is settled, what ends a token is read as from where it is idle. -/
theorem Scanner.Settled.foldlM_eq {s : Scanner} {passed : List Token} (h : s.Settled passed)
    {c : Char} (hc : endsToken c = true) (rest : List Char) :
    (c :: rest).foldlM Scanner.step s = (c :: rest).foldlM Scanner.step ⟨passed, .idle⟩ := by
  rw [List.foldlM_cons, List.foldlM_cons, h.step_eq c hc]
  rfl

theorem Spells.append_passes (ha : Spells a ta) {c : Char} (hb : Passes (c :: b) tb)
    (hc : endsToken c = true) : Passes (a ++ c :: b) (ta ++ tb) := by
  intro passed
  obtain ⟨s, hs, hsettled⟩ := ha passed
  rw [List.foldlM_append, hs]
  show (c :: b).foldlM Scanner.step s = _
  rw [hsettled.foldlM_eq hc, hb]
  simp

theorem Spells.append (ha : Spells a ta) {c : Char} (hb : Spells (c :: b) tb)
    (hc : endsToken c = true) : Spells (a ++ c :: b) (ta ++ tb) := by
  intro passed
  obtain ⟨s, hs, hsettled⟩ := ha passed
  obtain ⟨s', hs', hsettled'⟩ := hb (ta.reverse ++ passed)
  refine ⟨s', ?_, by simpa using hsettled'⟩
  rw [List.foldlM_append, hs]
  show (c :: b).foldlM Scanner.step s = _
  rw [hsettled.foldlM_eq hc, hs']

/-- The tokens of a text that the scanner may stop behind. -/
theorem Spells.tokens?_eq (h : Spells a ta) : tokens? a = some ta := by
  obtain ⟨s, hs, hsettled⟩ := h []
  unfold tokens?
  rw [hs]
  simp [hsettled.finish_eq]

/-! ## Blanks and marks -/

theorem passes_blanks {cs : List Char} (h : ∀ c ∈ cs, c = ' ' ∨ c = '\n') : Passes cs [] := by
  intro passed
  induction cs with
  | nil => rfl
  | cons c rest ih =>
    have hc : Scanner.step ⟨passed, .idle⟩ c = some ⟨passed, .idle⟩ := by
      rcases h c List.mem_cons_self with rfl | rfl <;> rfl
    rw [List.foldlM_cons, hc]
    exact ih fun c hc => h c (List.mem_cons_of_mem _ hc)

/-! ## Quoted texts -/

theorem charValue?_digit {n : Nat} (h : n < 16) : Hex.charValue? (Hex.digit n) = some n := by
  have hdigits : ∀ n < 16, Hex.charValue? (Hex.digit n) = some n := by decide
  exact hdigits n h

/-- Four digits name a control character. -/
theorem foldlM_unitDigits {c : Char} (h : c.toNat < 0x20) (passed : List Token)
    (seen : List Piece) : (unitDigits c).foldlM Scanner.step ⟨passed, .unit seen []⟩ =
      some ⟨passed, .text (.char c :: seen)⟩ := by
  have hhigh := charValue?_digit (n := c.toNat / 16) (by omega)
  have hlow := charValue?_digit (n := c.toNat % 16) (by omega)
  have hzero : Hex.charValue? '0' = some 0 := rfl
  have hpiece : Piece.ofUnit c.toNat = .char c := by
    rw [Piece.ofUnit, if_neg (by omega), Char.ofNat_toNat]
  simp [unitDigits, Scanner.step, hzero, hhigh, hlow, Nat.mul_comm 16, Nat.div_add_mod', hpiece]

/-- A character of a text, escaped or not, is read as itself. -/
theorem foldlM_escape (c : Char) (passed : List Token) (seen : List Piece) :
    (escape c).foldlM Scanner.step ⟨passed, .text seen⟩ =
      some ⟨passed, .text (.char c :: seen)⟩ := by
  have hctrl {n : Nat} (h : c.toNat = n) : c = Char.ofNat n := by
    rw [← h, Char.ofNat_toNat]
  unfold escape
  split_ifs with hquote hslash hnewline hreturn htab h8 h12 hlow
  · rw [hquote]
    rfl
  · rw [hslash]
    rfl
  · rw [hnewline]
    rfl
  · rw [hreturn]
    rfl
  · rw [htab]
    rfl
  · rw [hctrl h8]
    rfl
  · rw [hctrl h12]
    rfl
  · exact foldlM_unitDigits hlow passed seen
  · simp [Scanner.step, hquote, hslash, hlow]

theorem foldlM_flatMap_escape (cs : List Char) (passed : List Token) (seen : List Piece) :
    (cs.flatMap escape).foldlM Scanner.step ⟨passed, .text seen⟩ =
      some ⟨passed, .text ((cs.map Piece.char).reverse ++ seen)⟩ := by
  induction cs generalizing seen with
  | nil => rfl
  | cons c rest ih =>
    rw [List.flatMap_cons, List.foldlM_append, foldlM_escape]
    show (rest.flatMap escape).foldlM Scanner.step _ = _
    rw [ih]
    simp

theorem joinHalves_map_char (cs : List Char) : joinHalves (cs.map Piece.char) = some cs := by
  induction cs with
  | nil => rfl
  | cons c rest ih => simp [joinHalves, ih]

/-- **A quoted text is one token, the text.** -/
theorem passes_quoted (s : String) : Passes (quoted s).toList [.text (some s)] := by
  intro passed
  have htext : (quoted s).toList = '"' :: (s.toList.flatMap escape ++ ['"']) := by
    simp [quoted]
  have htoken : textToken (s.toList.map Piece.char).reverse = .text (some s) := by
    simp [textToken, joinHalves_map_char]
  rw [htext, List.foldlM_cons]
  show (s.toList.flatMap escape ++ ['"']).foldlM Scanner.step ⟨passed, .text []⟩ = _
  rw [List.foldlM_append, foldlM_flatMap_escape, List.append_nil]
  show some (Scanner.mk (textToken _ :: passed) .idle) = _
  rw [htoken]
  rfl

/-! ## Words -/

theorem settled_word {seen : List Char} {d : Document} (h : word? seen.reverse = some d)
    (passed : List Token) : Scanner.Settled ⟨passed, .word seen⟩ (.scalar d :: passed) where
  finish_eq := by simp [Scanner.finish, h]
  step_eq c hc := by
    have halpha : c.isAlpha = false := by
      simp only [endsToken, Bool.and_eq_true, Bool.not_eq_true'] at hc
      exact hc.1
    simp [Scanner.step, halpha, h]

theorem spells_null : Spells ['n', 'u', 'l', 'l'] [.scalar .null] := fun passed =>
  ⟨⟨passed, .word ['l', 'l', 'u', 'n']⟩, rfl, settled_word rfl passed⟩

theorem spells_true : Spells ['t', 'r', 'u', 'e'] [.scalar (.bool true)] := fun passed =>
  ⟨⟨passed, .word ['e', 'u', 'r', 't']⟩, rfl, settled_word rfl passed⟩

theorem spells_false : Spells ['f', 'a', 'l', 's', 'e'] [.scalar (.bool false)] := fun passed =>
  ⟨⟨passed, .word ['e', 's', 'l', 'a', 'f']⟩, rfl, settled_word rfl passed⟩

/-! ## Whole numbers -/

theorem settled_number {seen : List Char} {d : Document} (h : number? seen.reverse = some d)
    (passed : List Token) : Scanner.Settled ⟨passed, .number seen⟩ (.scalar d :: passed) where
  finish_eq := by simp [Scanner.finish, h]
  step_eq c hc := by
    have hcont : continuesNumber c = false := by
      simp only [endsToken, Bool.and_eq_true, Bool.not_eq_true'] at hc
      exact hc.2
    simp [Scanner.step, hcont, h]

theorem start_of_isDigit {c : Char} (h : c.isDigit = true) (passed : List Token) :
    start passed c = some ⟨passed, .number [c]⟩ := by
  have hne (c' : Char) (hc' : c'.isDigit = false) : c ≠ c' := by
    rintro rfl
    simp [h] at hc'
  unfold start
  simp [hne, h]

theorem foldlM_digits {cs : List Char} (h : ∀ c ∈ cs, c.isDigit = true) (passed : List Token)
    (seen : List Char) : cs.foldlM Scanner.step ⟨passed, .number seen⟩ =
      some ⟨passed, .number (cs.reverse ++ seen)⟩ := by
  induction cs generalizing seen with
  | nil => rfl
  | cons c rest ih =>
    have hc := h c List.mem_cons_self
    have hstep : Scanner.step ⟨passed, .number seen⟩ c = some ⟨passed, .number (c :: seen)⟩ := by
      simp [Scanner.step, continuesNumber, hc]
    rw [List.foldlM_cons, hstep]
    show rest.foldlM Scanner.step _ = _
    rw [ih fun c hc => h c (List.mem_cons_of_mem _ hc)]
    simp

/-- Digits of a number of 64 bits are all taken up, as the number never gets smaller. -/
theorem append_eq_of_lt {cs : List Char} {n : Nat} (h : Nat.ofDigitChars 10 cs n < Nat.pow 2 64) :
    Literal.append n cs = (Nat.ofDigitChars 10 cs n, []) := by
  induction cs generalizing n with
  | nil => rfl
  | cons c rest ih =>
    rw [Nat.ofDigitChars_cons] at h ⊢
    have hgrows : 10 * n + Literal.digit c ≤
        Nat.ofDigitChars 10 rest (10 * n + (c.toNat - '0'.toNat)) := by
      rw [Nat.ofDigitChars_eq_ofDigitChars_zero]
      have hpow : 1 ≤ 10 ^ rest.length := Nat.one_le_pow _ _ (by omega)
      exact Nat.le_add_right_of_le (Nat.le_mul_of_pos_left _ hpow)
    rw [Literal.append, if_pos (Nat.lt_of_le_of_lt hgrows h)]
    exact ih h

/-- Digits that are not padded are a literal of nothing else. -/
theorem ofChars?_digits {cs : List Char} (hne : cs ≠ []) (hdigits : ∀ c ∈ cs, c.isDigit = true)
    (hhead : cs.head? = some '0' → cs = ['0']) :
    Literal.ofChars? cs =
      some { minus := false, whole := cs, fraction := none, exponent := none } := by
  have hspan : Literal.spanDigits cs = (cs, []) := by
    unfold Literal.spanDigits
    rw [List.takeWhile_eq_self_iff.mpr hdigits, List.dropWhile_eq_nil_iff.mpr hdigits]
  have hplain : ¬ (cs = [] ∨ (cs.length ≠ 1 ∧ cs.head? = some '0')) := by
    rintro (hnil | ⟨hlength, hzero⟩)
    · exact hne hnil
    · rw [hhead hzero] at hlength
      exact hlength rfl
  unfold Literal.ofChars?
  split
  next minus cs' heq =>
  split at heq
  · exact absurd (hdigits '-' List.mem_cons_self) (by decide)
  · obtain ⟨rfl, rfl⟩ := heq
    simp only [hspan, if_neg hplain]
    rfl

theorem number?_digits {cs : List Char} (hne : cs ≠ []) (hdigits : ∀ c ∈ cs, c.isDigit = true)
    (hhead : cs.head? = some '0' → cs = ['0'])
    (hvalue : Nat.ofDigitChars 10 cs 0 < Nat.pow 2 64) :
    number? cs = some (.number (.nat (Nat.ofDigitChars 10 cs 0))) := by
  unfold number?
  rw [ofChars?_digits hne hdigits hhead]
  simp [Literal.value?, append_eq_of_lt hvalue]

theorem spells_digits {cs : List Char} {d : Document} (hne : cs ≠ [])
    (hdigits : ∀ c ∈ cs, c.isDigit = true) (hnumber : number? cs = some d) :
    Spells cs [.scalar d] := by
  obtain ⟨c, rest, rfl⟩ := List.exists_cons_of_ne_nil hne
  intro passed
  refine ⟨⟨passed, .number (rest.reverse ++ [c])⟩, ?_, ?_⟩
  · rw [List.foldlM_cons]
    show (start passed c).bind (fun s => rest.foldlM Scanner.step s) = _
    rw [start_of_isDigit (hdigits c List.mem_cons_self)]
    exact foldlM_digits (fun c' hc' => hdigits c' (List.mem_cons_of_mem _ hc')) passed [c]
  · apply settled_number
    simpa using hnumber

/-- **A whole number of 64 bits is one token, the number.** -/
theorem spells_repr {n : Nat} (h : n < Nat.pow 2 64) :
    Spells (Nat.repr n).toList [.scalar (.number (.nat n))] := by
  have hform := isNumeral_repr h
  have hne : (Nat.repr n).toList ≠ [] := by
    intro hnil
    exact hform.ne_empty (String.toList_eq_nil_iff.mp hnil)
  have hhead (hzero : (Nat.repr n).toList.head? = some '0') : (Nat.repr n).toList = ['0'] := by
    rw [hform.eq_zero_of_head hzero]
    rfl
  have hvalue : Nat.ofDigitChars 10 (Nat.repr n).toList 0 = n := by
    rw [Nat.repr, String.toList_ofList, Nat.ofDigitChars_toDigits (by decide) (by decide)]
  have hnumber := number?_digits hne hform.isDigit hhead (by rwa [hvalue])
  rw [hvalue] at hnumber
  exact spells_digits hne hform.isDigit hnumber

/-! ## Entries between brackets -/

/-- The entries of an array or of an object, `mark` standing in front of the first one and a
separator in front of each of the others. -/
def entries {σ α : Type} (separator : σ) (mark : List σ) (write : α → List σ) : List α → List σ
  | [] => []
  | x :: rest => mark ++ write x ++ entries separator [separator] write rest

theorem passes_comma : Passes [','] [.comma] := fun _ => rfl

section Entries

variable {α : Type} {text : α → List Char} {tokensOf : α → List Token} {xs : List α}

theorem spells_entries_comma (h : ∀ x ∈ xs, Spells (text x) (tokensOf x)) :
    Spells (entries ',' [','] text xs) (entries .comma [.comma] tokensOf xs) := by
  induction xs with
  | nil => exact passes_nil.spells
  | cons x rest ih =>
    have hx := passes_comma.append_spells (h x List.mem_cons_self)
    have hrest := ih fun y hy => h y (List.mem_cons_of_mem _ hy)
    cases rest with
    | nil => simpa [entries] using hx
    | cons y rest => exact hx.append hrest rfl

theorem spells_entries (h : ∀ x ∈ xs, Spells (text x) (tokensOf x)) :
    Spells (entries ',' [] text xs) (entries .comma [] tokensOf xs) := by
  cases xs with
  | nil => exact passes_nil.spells
  | cons x rest =>
    have hx := h x List.mem_cons_self
    have hrest := spells_entries_comma fun y hy => h y (List.mem_cons_of_mem _ hy)
    cases rest with
    | nil => simpa [entries] using hx
    | cons y rest => exact hx.append hrest rfl

end Entries

/-- Between brackets, blanks may stand in front of the closing one. -/
theorem passes_enclosed {opening closing : Char} {topening tclosing : Token} {body gap : List Char}
    {tbody : List Token} (hopening : Passes [opening] [topening])
    (hclosing : Passes [closing] [tclosing]) (hends : endsToken closing = true)
    (hgap : ∀ c ∈ gap, c = ' ' ∨ c = '\n') (hbody : Spells body tbody) :
    Passes (opening :: body ++ (gap ++ [closing])) (topening :: tbody ++ [tclosing]) := by
  have hend := (passes_blanks hgap).append hclosing
  have hall : Passes (body ++ (gap ++ [closing])) (tbody ++ [tclosing]) := by
    cases gap with
    | nil => exact hbody.append_passes hclosing hends
    | cons c rest =>
      apply hbody.append_passes hend
      rcases hgap c List.mem_cons_self with rfl | rfl <;> rfl
  exact hopening.append hall

theorem passes_array {body gap : List Char} {tbody : List Token}
    (hgap : ∀ c ∈ gap, c = ' ' ∨ c = '\n') (h : Spells body tbody) :
    Passes ('[' :: body ++ (gap ++ [']'])) (.openArray :: tbody ++ [.closeArray]) :=
  passes_enclosed (fun _ => rfl) (fun _ => rfl) rfl hgap h

theorem passes_object {body gap : List Char} {tbody : List Token}
    (hgap : ∀ c ∈ gap, c = ' ' ∨ c = '\n') (h : Spells body tbody) :
    Passes ('\x7b' :: body ++ (gap ++ ['\x7d'])) (.openObject :: tbody ++ [.closeObject]) :=
  passes_enclosed (fun _ => rfl) (fun _ => rfl) rfl hgap h

end Json

end RouterCalldata
