import RouterCalldata.Bytes.Hex
import RouterCalldata.Document.Yaml.Glyph

/-!
# Scalars over several lines

A scalar is plain or stands in single or double quotes.  It may go on over
several lines, and then the blanks around a line end are no part of it: a single
line end becomes a blank, and of several the first one is left out.

A plain scalar ends in front of a comment, of a colon that ends a word, and of a
line that is not indented enough.

## Main definitions

* `Gap`: what stands between two words, and the text it becomes;
* `Draft`: a scalar that is being read;
* `plainFrom?`, `singleQuoted?`, `doubleQuoted?`: the scalar at the front of a
  text, and what follows it.

## Main results

* `length_le_of_plainFrom?`, `length_le_of_singleQuoted?`,
  `length_le_of_doubleQuoted?`: what follows is no longer than the text.
-/

namespace RouterCalldata.Yaml

/-! ## Gaps -/

/-- What stands between two words of a scalar. -/
inductive Gap
  /-- Blanks on one line, last first. -/
  | blanks (seen : List Char)
  /-- Line ends: the first one, unless it is escaped, and the others, last
  first. -/
  | breaks (first : Option Char) (others : List Char)
  deriving DecidableEq, Repr

namespace Gap

/-- A gap with one more blank or line end. -/
def add (gap : Gap) (c : Char) : Gap :=
  match gap, isBreak c with
  | blanks _, true => breaks (some c) []
  | blanks seen, false => blanks (c :: seen)
  | breaks first others, true => breaks first (c :: others)
  | breaks first others, false => breaks first others

/-- Whether a line ends in the gap. -/
def isBroken : Gap → Bool
  | blanks _ => false
  | breaks .. => true

/-- Whether there is no gap at all. -/
def isEmpty : Gap → Bool
  | blanks [] => true
  | _ => false

/-- The text that a gap becomes, last character first. -/
def folded : Gap → List Char
  | blanks seen => seen
  | breaks none others => others
  | breaks (some '\n') [] => [' ']
  | breaks (some '\n') others => others
  | breaks (some c) others => others ++ [c]

end Gap

/-- A scalar that is being read: its text, last character first, and the gap
behind it. -/
structure Draft where
  text : List Char
  gap : Gap
  deriving DecidableEq, Repr

namespace Draft

/-- Nothing has been read. -/
def empty : Draft := ⟨[], .blanks []⟩

/-- Adds a blank or a line end. -/
def space (d : Draft) (c : Char) : Draft := { d with gap := d.gap.add c }

/-- Joins the gap to the text. -/
def joined (d : Draft) : List Char := d.gap.folded ++ d.text

/-- Adds a character. -/
def push (d : Draft) (c : Char) : Draft := ⟨c :: d.joined, .blanks []⟩

/-- The text in front of the gap. -/
def word (d : Draft) : String := String.ofList d.text.reverse

/-- The text with the gap. -/
def whole (d : Draft) : String := String.ofList d.joined.reverse

end Draft

/-! ## Plain scalars -/

/-- Whether a plain scalar with a gap behind it ends in front of the rest of the
text, which starts with neither a blank nor a line end.  Further lines have to
be indented by `indent` columns. -/
def endsPlain (indent : Nat) (gap : Gap) : List Glyph → Bool
  | [] => true
  | g :: rest =>
      (g.char == ':' && endsWord rest) ||
        (gap.isBroken && g.column < indent) ||
        (!gap.isEmpty && (g.char == '#' || (marker? (g :: rest)).isSome))

/-- Reads on in a plain scalar.  A tab may not stand where further lines have to
be indented. -/
def plainFrom? (indent : Nat) (d : Draft) : List Glyph → Option (Draft × List Glyph)
  | [] => some (d, [])
  | g :: rest =>
      if isBlank g.char || isBreak g.char then
        if g.char = '\t' ∧ d.gap.isBroken ∧ g.column < indent then none
        else plainFrom? indent (d.space g.char) rest
      else if endsPlain indent d.gap (g :: rest) then some (d, g :: rest)
      else plainFrom? indent (d.push g.char) rest

/-- Reading on in a plain scalar leaves no more than there was. -/
theorem length_le_of_plainFrom? {indent : Nat} {d e : Draft} {gs rest : List Glyph}
    (h : plainFrom? indent d gs = some (e, rest)) : rest.length ≤ gs.length := by
  fun_induction plainFrom? indent d gs with
  | case1 => simp_all
  | case2 => simp at h
  | case3 d g gs _ _ ih => exact Nat.le_succ_of_le (ih h)
  | case4 d g gs _ _ => simp_all
  | case5 d g gs _ _ ih => exact Nat.le_succ_of_le (ih h)

/-! ## Quoted scalars -/

/-- Reads on in a scalar in single quotes, in which a quote is written twice. -/
def singleQuoted? (d : Draft) : List Glyph → Option (String × List Glyph)
  | [] => none
  | g :: rest =>
      if isBlank g.char || isBreak g.char then singleQuoted? (d.space g.char) rest
      else if (marker? (g :: rest)).isSome then none
      else if g.char = '\'' then
        match rest with
        | [] => some (d.whole, [])
        | h :: rest =>
            if h.char = '\'' then singleQuoted? (d.push '\'') rest
            else some (d.whole, h :: rest)
      else singleQuoted? (d.push g.char) rest

/-- Reading on in single quotes leaves no more than there was. -/
theorem length_le_of_singleQuoted? {d : Draft} {s : String} {gs rest : List Glyph}
    (h : singleQuoted? d gs = some (s, rest)) : rest.length ≤ gs.length := by
  fun_induction singleQuoted? d gs with
  | case1 => simp at h
  | case2 d g gs _ ih => exact Nat.le_succ_of_le (ih h)
  | case3 => simp at h
  | case4 => simp_all
  | case5 d g _ _ _ k gs _ ih =>
      have := ih h
      simp only [List.length_cons]
      omega
  | case6 => simp_all
  | case7 d g gs _ _ _ ih => exact Nat.le_succ_of_le (ih h)

/-- The character a one-letter escape stands for. -/
def escaped? : Char → Option Char
  | '0' => some (Char.ofNat 0)
  | 'a' => some (Char.ofNat 7)
  | 'b' => some (Char.ofNat 8)
  | 't' => some '\t'
  | '\t' => some '\t'
  | 'n' => some '\n'
  | 'v' => some (Char.ofNat 11)
  | 'f' => some (Char.ofNat 12)
  | 'r' => some '\r'
  | 'e' => some (Char.ofNat 27)
  | ' ' => some ' '
  | '"' => some '"'
  | '/' => some '/'
  | '\\' => some '\\'
  | 'N' => some (Char.ofNat 0x85)
  | '_' => some (Char.ofNat 0xa0)
  | 'L' => some (Char.ofNat 0x2028)
  | 'P' => some (Char.ofNat 0x2029)
  | _ => none

/-- How many hex digits name a character behind an escape's letter. -/
def escapeWidth : Char → Nat
  | 'x' => 2
  | 'u' => 4
  | 'U' => 8
  | _ => 0

/-- The character that hex digits name. -/
def codePoint? (digits : List Glyph) : Option Char := do
  let n ← digits.foldlM (fun n g => do return 16 * n + (← Hex.charValue? g.char)) 0
  if n.isValidChar then return Char.ofNat n else failure

/-- The character that an escape stands for, given its letter and what follows. -/
def escape? (letter : Char) (rest : List Glyph) : Option Char :=
  match escapeWidth letter with
  | 0 => escaped? letter
  | width => if width ≤ rest.length then codePoint? (rest.take width) else none

/-- Reads on in a scalar in double quotes, in which a backslash starts an escape
and takes a line end away. -/
def doubleQuoted? (d : Draft) : List Glyph → Option (String × List Glyph)
  | [] => none
  | g :: rest =>
      if isBlank g.char || isBreak g.char then doubleQuoted? (d.space g.char) rest
      else if (marker? (g :: rest)).isSome then none
      else if g.char = '"' then some (d.whole, rest)
      else if g.char = '\\' then
        match rest with
        | [] => none
        | h :: rest =>
            if isBreak h.char then doubleQuoted? ⟨d.joined, .breaks none []⟩ rest
            else
              match escape? h.char rest with
              | some c => doubleQuoted? (d.push c) (rest.drop (escapeWidth h.char))
              | none => none
      else doubleQuoted? (d.push g.char) rest
termination_by gs => gs.length
decreasing_by all_goals simp only [List.length_cons, List.length_drop]; omega

/-- Reading on in double quotes leaves no more than there was. -/
theorem length_le_of_doubleQuoted? {d : Draft} {s : String} {gs rest : List Glyph}
    (h : doubleQuoted? d gs = some (s, rest)) : rest.length ≤ gs.length := by
  fun_induction doubleQuoted? d gs with
  | case1 => simp at h
  | case2 d g gs _ ih => exact Nat.le_succ_of_le (ih h)
  | case3 => simp at h
  | case4 => simp_all
  | case5 => simp at h
  | case6 d g _ _ _ _ k gs _ ih =>
      have := ih h
      simp only [List.length_cons]
      omega
  | case7 d g _ _ _ _ k gs _ c _ ih =>
      have := ih h
      simp only [List.length_cons, List.length_drop] at *
      omega
  | case8 => simp at h
  | case9 d g gs _ _ _ _ ih => exact Nat.le_succ_of_le (ih h)

end RouterCalldata.Yaml
